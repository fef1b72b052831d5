import RichText.Proofs.Substitution.Spliced

/-!
Passes that hold nodes and give them up.

A pass holds the nodes that it is still to go through, a splice the parent of its element and the
nodes of the answer. When they are through with a node, they give it up, and it dies if nobody
else holds it and no node owns it (`Heap.release`). `Processor.answerUnder` answers requests as the
processor does, with these nodes given up. What handlers hold is left open (`Custody.held`).

* `Custody`: what handlers hold, and where a run is to be cut off;
* `Custody.releasing`: a computation at whose end nodes are given up;
* `Processor.answerUnder`: the services, with nodes given up;
* `Processor.answerUnder_univ`: as long as all nodes are held, the services are those of the
  processor;
* `Processor.answerUnder_of_stricter`: a run that is not cut off is the same without cuts.
-/

namespace RichText

variable {α β : Type}

/-- What handlers hold that make a request in a state, and where a run is cut off: where a node is
given up that does not die cleanly, and behind a splice that has not done what it should. -/
structure Custody where
  held : World → Set NodeId
  onlyClean : Prop
  onlySpliced : Prop

namespace Custody

open Heap Run

/-- No run is cut off. -/
def lenient (held : World → Set NodeId) : Custody := ⟨held, False, False⟩

/-- A run is cut off where a node is given up that does not die cleanly. -/
def careful (held : World → Set NodeId) : Custody := ⟨held, True, False⟩

/-- A run is cut off there, and behind a splice that has not done what it should. -/
def watched (held : World → Set NodeId) : Custody := ⟨held, True, True⟩

open Classical in
/-- The heap when some nodes have been given up, one after the other. Those whose turn has not come
are still held. -/
noncomputable def giveUp (onlyClean : Prop) (held : Set NodeId) : List NodeId → Heap → Option Heap
  | [], h => some h
  | t :: ts, h =>
      if onlyClean → h.Clean (held ∪ {x | x ∈ ts}) t then
        giveUp onlyClean held ts (h.release (held ∪ {x | x ∈ ts}) t)
      else none

variable (C : Custody)

/-- A computation at whose end the nodes are given up that its result says. -/
noncomputable def releasing (held : Set NodeId) (is : Except Failure α → List NodeId) (x : Run α) :
    Run α := fun w =>
  (x.outcome w).bind fun out =>
    (giveUp C.onlyClean held (is out.1) out.2.heap).map fun h => (out.1, { out.2 with heap := h })

/-- The nodes to be given up if a computation fails. -/
def ifFailed (is : List NodeId) : Except Failure α → List NodeId
  | .ok _ => []
  | .error _ => is

/-- Something done for each of some nodes, which are held until then. If it fails, the rest is given
up at once. -/
noncomputable def forEach (held : Set NodeId) (f : Set NodeId → NodeId → Run Unit) :
    List NodeId → Run Unit
  | [] => return ()
  | i :: is => do
      C.releasing held (ifFailed is) <| C.releasing (held ∪ {x | x ∈ is}) (fun _ => [i]) <|
        f (held ∪ {x | x ∈ i :: is}) i
      forEach held f is

open Classical in
/-- A computation that is cut off if it does what is not allowed. -/
noncomputable def watch (allowed : Heap → Except Failure Unit → Heap → Prop) (x : Run Unit) :
    Run Unit := fun w =>
  (x.outcome w).filter fun out => C.onlySpliced → allowed w.heap out.1 out.2.heap

/-- The answers to the requests of a handler, which holds nodes itself meanwhile. -/
def handed (ask : Set NodeId → Answerer) (held : Set NodeId) : Answerer := fun r w =>
  ask (held ∪ C.held w) r w

end Custody

namespace Processor

open Heap Run

/-! ### The passes -/

section Passes

variable (p : Processor) (C : Custody)

/-- The nodes that are held for an answer while it is spliced: those that go in place of the
element, and the answer itself. -/
def answerNodes (h : Heap) : Rendering → List NodeId
  | .keep => []
  | .markup s =>
      if p.options.strictFragments && !(readMarkup s).2.isEmpty then []
      else
        let (h₁, j) := h.plant (.document (readMarkup s).1)
        h₁.standIns j ++ [j]
  | .tree j => h.standIns j ++ [j]

/-- An answer spliced, at whose end its nodes are given up and the parent that the element had. -/
noncomputable def spliceUnder (held : Set NodeId) (tag : String) (node : NodeId)
    (anchor : Option Position) (answer : Rendering) : Run Unit := do
  let nodes := p.answerNodes (← Run.heap) answer
  C.releasing held (fun _ => (anchor.map (·.parent)).toList ++ nodes)
    (p.splice tag node anchor answer)

/-- An element replaced. The parent that it has is held meanwhile. -/
noncomputable def replaceUnder (ask : Set NodeId → Answerer) (held : Set NodeId) (r : Registration)
    (tag : String) (node : NodeId) (context : Option String) : Run Unit := do
  let before ← Run.heap
  let anchor := before.position node
  let parents := (anchor.map (·.parent)).toList
  let answer ← C.releasing held (Custody.ifFailed parents) <|
    runHandler (C.handed ask (held ∪ {x | x ∈ parents})) r node context
  C.watch (Spliced held node (before.parent node) answer) <|
    p.spliceUnder C held tag node anchor answer

/-- One child of a node, at or below which is substituted by tag. -/
def substituteChildUnder (ask : Set NodeId → Answerer) (context : Option String)
    (held : Set NodeId) (i : NodeId) : Run Unit :=
  ask held (.substituteAt i context)

/-- Substitution by tag among the children of a node. -/
noncomputable def substituteBelowUnder (ask : Set NodeId → Answerer) (held : Set NodeId)
    (node : NodeId) (context : Option String) : Run Unit := do
  C.forEach held (substituteChildUnder ask context) ((← Run.heap).children node)

/-- Substitution by tag at or below a node. -/
noncomputable def substituteAtUnder (ask : Set NodeId → Answerer) (held : Set NodeId)
    (node : NodeId) (context : Option String) : Run Unit := do
  let tag := (← Run.heap).tagName node
  match tag.bind fun t => (p.registry.forTag? t).map fun r => (t, r) with
  | some (tag, r) => p.replaceUnder C ask held r tag node context
  | none => substituteBelowUnder C ask held node context

/-- One match of a registration, rendered if it is still below `root`. -/
noncomputable def substituteMatchUnder (ask : Set NodeId → Answerer) (r : Registration)
    (root : NodeId) (context : Option String) (held : Set NodeId) (i : NodeId) : Run Unit := do
  let h ← Run.heap
  if h.isAncestorOrSelf root i then
    p.replaceUnder C ask held r ((h.tagName i).getD "") i context

/-- Substitution by class for some registrations. -/
noncomputable def substituteRegisteredUnder (ask : Set NodeId → Answerer) (held : Set NodeId)
    (root : NodeId) (context : Option String) : List Registration → Run Unit
  | [] => return ()
  | r :: rs => do
      C.forEach held (p.substituteMatchUnder C ask r root context)
        ((← Run.heap).withClass r.value root)
      substituteRegisteredUnder ask held root context rs

/-- Substitution in content, whose document is given up at the end. -/
noncomputable def substituteUnder (ask : Set NodeId → Answerer) (held : Set NodeId)
    (content : String) : Run String :=
  p.guarded do
    let context ← p.lookupContext
    let expanded := expandTags (fun tag => (p.registry.forTag? tag).isSome) content
    let root ← Run.plant (readContent expanded)
    C.releasing held (fun _ => [root]) do
      p.substituteAtUnder C ask (held ∪ {root}) root context
      p.substituteRegisteredUnder C ask (held ∪ {root}) root context p.registry.classes
      let serialized := (← Run.heap).markup root
      return recoverContent serialized content p.options.restoreShortcodeUrls

/-- The services, with nodes given up. Whoever asks for a service holds the node that it is
about. -/
noncomputable def serveUnder (ask : Set NodeId → Answerer) (held : Set NodeId) : Answerer
  | .parse content => do return p.shortcodes (← p.substituteUnder C ask held content)
  | .substitute content => p.substituteUnder C ask held content
  | .fragment markup => p.fragment "#fragment" markup
  | .substituteBelow node context =>
      p.guarded (substituteBelowUnder C ask (held ∪ {node}) node context)
  | .substituteAt node context => p.substituteAtUnder C ask (held ∪ {node}) node context
  | .substituteClassed node context =>
      p.substituteRegisteredUnder C ask (held ∪ {node}) node context p.registry.classes

/-- The services, with requests nested to a given depth at most, for those who hold the given
nodes. -/
noncomputable def answerUnder : ℕ → Set NodeId → Answerer
  | 0, _, _ => fun _ => none
  | fuel + 1, held, r => p.serveUnder C (answerUnder fuel) held r

end Passes

end Processor

/-! ### Single elements -/

namespace Custody

open Heap Run

variable {C : Custody}

/-- Nothing happens to a node that lives on. -/
lemma giveUp_cons_of_not_lost {onlyClean : Prop} {held : Set NodeId} {t : NodeId}
    {ts : List NodeId} {h : Heap} (ht : ¬ h.Lost held t) :
    giveUp onlyClean held (t :: ts) h = giveUp onlyClean held ts h := by
  have hlives : ¬ h.Lost (held ∪ {x | x ∈ ts}) t := fun hlost =>
    ht (hlost.mono Set.subset_union_left)
  have hclean : h.Clean (held ∪ {x | x ∈ ts}) t := fun hlost => absurd hlost hlives
  rw [giveUp, if_pos fun _ => hclean, release_of_not_lost hlives]

lemma giveUp_eq_self {onlyClean : Prop} {held : Set NodeId} {is : List NodeId} {h : Heap}
    (his : ∀ t ∈ is, ¬ h.Lost held t) : giveUp onlyClean held is h = some h := by
  induction is with
  | nil => rfl
  | cons t ts ih =>
      rw [giveUp_cons_of_not_lost (his t (by simp))]
      exact ih fun t ht => his t (by simp [ht])

/-- A single node given up. -/
lemma giveUp_singleton {onlyClean : Prop} {held : Set NodeId} {t : NodeId} {h : Heap}
    (hclean : onlyClean → h.Clean held t) :
    giveUp onlyClean held [t] h = some (h.release held t) := by
  have hheld : held ∪ {x | x ∈ ([] : List NodeId)} = held := by simp
  rw [giveUp, hheld, if_pos hclean, giveUp]

lemma outcome_releasing {held : Set NodeId} {is : Except Failure α → List NodeId} {x : Run α}
    {w : World} {out : Except Failure α × World} {h : Heap} (hx : x.outcome w = some out)
    (hgive : giveUp C.onlyClean held (is out.1) out.2.heap = some h) :
    (C.releasing held is x).outcome w = some (out.1, { out.2 with heap := h }) := by
  show (x.outcome w).bind _ = _
  rw [hx, Option.bind_some, hgive]
  rfl

/-- Where splices are not looked at, no run is cut off by one. -/
lemma watch_eq (hC : ¬ C.onlySpliced) (allowed : Heap → Except Failure Unit → Heap → Prop)
    (x : Run Unit) : C.watch allowed x = x := by
  funext w
  show (x.outcome w).filter _ = x.outcome w
  cases x.outcome w with
  | none => rfl
  | some out => simp [hC]

end Custody

namespace Processor

open Heap Run

/-- An element whose handler has answered: the answer is spliced, and then nodes are given up. -/
lemma outcome_replaceUnder {p : Processor} {C : Custody} (hC : ¬ C.onlySpliced)
    {ask : Set NodeId → Answerer} {held : Set NodeId} {r : Registration} {tag : String}
    {node : NodeId} {context : Option String} {w w' : World} {answer : Rendering}
    {out : Except Failure Unit × World} {h : Heap}
    (hrun : ∀ ask, (runHandler ask r node context).outcome w = some (.ok answer, w'))
    (hsplice : (p.splice tag node (w.heap.position node) answer).outcome w' = some out)
    (hgive : Custody.giveUp C.onlyClean held
      (((w.heap.position node).map (·.parent)).toList ++ p.answerNodes w'.heap answer)
      out.2.heap = some h) :
    (p.replaceUnder C ask held r tag node context).outcome w
      = some (out.1, { out.2 with heap := h }) := by
  rw [replaceUnder, outcome_bind_ok (outcome_heap w)]
  dsimp only
  rw [outcome_bind_ok (Custody.outcome_releasing (hrun _) rfl), C.watch_eq hC, spliceUnder,
    outcome_bind_ok (outcome_heap _)]
  exact Custody.outcome_releasing hsplice hgive

end Processor

/-! ### All nodes held -/

namespace Custody

open Heap Run

variable (C : Custody)

lemma releasing_univ (is : Except Failure α → List NodeId) (x : Run α) :
    C.releasing Set.univ is x = x := by
  funext w
  show (x.outcome w).bind _ = x.outcome w
  cases x.outcome w with
  | none => rfl
  | some out =>
      rw [Option.bind_some, giveUp_eq_self fun t _ => not_lost_of_mem (Set.mem_univ t),
        Option.map_some]

lemma forEach_univ_cons (f : Set NodeId → NodeId → Run Unit) (i : NodeId) (is : List NodeId) :
    C.forEach Set.univ f (i :: is)
      = (do
          f Set.univ i
          C.forEach Set.univ f is) := by
  rw [forEach, Set.univ_union, Set.univ_union, C.releasing_univ, C.releasing_univ]

lemma handed_univ (ask : Set NodeId → Answerer) : C.handed ask Set.univ = ask Set.univ := by
  funext r w
  rw [handed, Set.univ_union]

end Custody

namespace Processor

open Heap Run

section Univ

variable {p : Processor} {C : Custody} {ask : Set NodeId → Answerer}

lemma replaceUnder_univ (hC : ¬ C.onlySpliced) (r : Registration) (tag : String) (node : NodeId)
    (context : Option String) :
    p.replaceUnder C ask Set.univ r tag node context
      = p.replaceElement (ask Set.univ) r tag node context := by
  rw [replaceUnder, replaceElement_eq]
  simp only [spliceUnder, C.watch_eq hC, C.releasing_univ, Set.univ_union, C.handed_univ]
  rfl

lemma substituteBelowUnder_univ (node : NodeId) (context : Option String) :
    substituteBelowUnder C ask Set.univ node context
      = substituteBelow (ask Set.univ) node context := by
  have heach : ∀ is, C.forEach Set.univ (substituteChildUnder ask context) is
      = substituteEach (ask Set.univ) context is := by
    intro is
    induction is with
    | nil => rfl
    | cons i is ih =>
        rw [C.forEach_univ_cons, ih]
        rfl
  simp only [substituteBelowUnder, substituteBelow, heach]

lemma substituteAtUnder_univ (hC : ¬ C.onlySpliced) (node : NodeId) (context : Option String) :
    p.substituteAtUnder C ask Set.univ node context
      = p.substituteAt (ask Set.univ) node context := by
  simp only [substituteAtUnder, replaceUnder_univ hC, substituteBelowUnder_univ]
  rfl

lemma substituteRegisteredUnder_univ (hC : ¬ C.onlySpliced) (root : NodeId)
    (context : Option String) (rs : List Registration) :
    p.substituteRegisteredUnder C ask Set.univ root context rs
      = p.substituteRegistered (ask Set.univ) root context rs := by
  have hmatches : ∀ r is, C.forEach Set.univ (p.substituteMatchUnder C ask r root context) is
      = p.substituteMatches (ask Set.univ) r root context is := by
    intro r is
    induction is with
    | nil => rfl
    | cons i is ih =>
        rw [C.forEach_univ_cons, ih, substituteMatches, substituteMatchUnder]
        simp only [replaceUnder_univ hC, bind_assoc]
        congr 1
        funext h
        split <;> rfl
  induction rs with
  | nil => rfl
  | cons r rs ih => simp only [substituteRegisteredUnder, substituteRegistered, hmatches, ih]

lemma substituteUnder_univ (hC : ¬ C.onlySpliced) (content : String) :
    p.substituteUnder C ask Set.univ content = p.substitute (ask Set.univ) content := by
  simp only [substituteUnder, substitute, C.releasing_univ, Set.univ_union,
    substituteAtUnder_univ hC, substituteRegisteredUnder_univ hC, substituteClassed]

/-- **As long as all nodes are held**, the services are those of the processor. -/
theorem answerUnder_univ (hC : ¬ C.onlySpliced) (n : ℕ) :
    p.answerUnder C n Set.univ = p.answer n := by
  induction n with
  | zero => rfl
  | succ n ih =>
      funext r
      show p.serveUnder C (p.answerUnder C n) Set.univ r = p.serve (p.answer n) r
      rw [← ih]
      cases r with
      | parse content =>
          rw [serveUnder, substituteUnder_univ hC]
          rfl
      | substitute content => exact substituteUnder_univ hC content
      | fragment markup => rfl
      | substituteBelow node context =>
          rw [serveUnder, Set.univ_union, substituteBelowUnder_univ]
          rfl
      | substituteAt node context =>
          rw [serveUnder, Set.univ_union]
          exact substituteAtUnder_univ hC node context
      | substituteClassed node context =>
          rw [serveUnder, Set.univ_union]
          exact substituteRegisteredUnder_univ hC node context _

end Univ

end Processor

/-! ### Runs that are not cut off -/

/-- Whatever the first computation ends with, the second ends with, too. -/
structure Run.EndsAs (x y : Run α) : Prop where
  ends : ∀ w out, x.outcome w = some out → y.outcome w = some out

namespace Run.EndsAs

open Run

lemma refl (x : Run α) : EndsAs x x := ⟨fun _ _ hout => hout⟩

lemma bind {x y : Run α} {f g : α → Run β} (hx : EndsAs x y) (hf : ∀ a, EndsAs (f a) (g a)) :
    EndsAs (x >>= f) (y >>= g) where
  ends w out hout := by
    rcases outcome_bind_eq_some hout with ⟨a, w', hxa, hfa⟩ | ⟨e, w', hxe, rfl⟩
    · rw [outcome_bind_ok (hx.ends w _ hxa)]
      exact (hf a).ends w' out hfa
    · exact outcome_bind_error (hx.ends w _ hxe)

lemma guarded (p : Processor) {x y : Run α} (hx : EndsAs x y) :
    EndsAs (p.guarded x) (p.guarded y) where
  ends w out hout := by
    rcases p.allows_or_limit w with hallows | ⟨limit, hmax, hle⟩
    · rw [Processor.outcome_guarded _ hallows] at hout ⊢
      obtain ⟨result, hxr, rfl⟩ := Option.map_eq_some_iff.mp hout
      rw [hx.ends _ _ hxr, Option.map_some]
    · rw [Processor.outcome_guarded_of_limit _ hmax hle] at hout ⊢
      exact hout

/-- A program ends as it does with other answers, if these end as the first. -/
lemma run {ask ask' : Answerer} (hask : ∀ r, EndsAs (ask r) (ask' r)) (prog : Program α) :
    EndsAs (prog.run ask) (prog.run ask') := by
  induction prog with
  | done a => exact refl _
  | inspect next ih => exact bind (refl _) ih
  | change f next ih => exact bind (refl _) fun _ => ih
  | note s next ih => exact bind (refl _) fun _ => ih
  | ask r next ih =>
      refine ⟨fun w out hout => ?_⟩
      rw [outcome_run_ask, Option.bind_eq_some_iff] at hout ⊢
      obtain ⟨⟨reply, w'⟩, hr, hnext⟩ := hout
      exact ⟨(reply, w'), (hask r).ends w _ hr, (ih reply).ends w' out hnext⟩

end Run.EndsAs

/-- A custody under which runs are cut off wherever they are under another. -/
structure Custody.Stricter (C C' : Custody) : Prop where
  held_eq : C'.held = C.held
  clean : C'.onlyClean → C.onlyClean
  spliced : C'.onlySpliced → C.onlySpliced

namespace Custody.Stricter

open Run

variable {C C' : Custody} (hC : C.Stricter C')

include hC

lemma giveUp {held : Set NodeId} {is : List NodeId} {h h' : Heap}
    (hgive : Custody.giveUp C.onlyClean held is h = some h') :
    Custody.giveUp C'.onlyClean held is h = some h' := by
  induction is generalizing h with
  | nil => exact hgive
  | cons t ts ih =>
      rw [Custody.giveUp] at hgive ⊢
      split at hgive
      · next hclean =>
          rw [if_pos fun h => hclean (hC.clean h)]
          exact ih hgive
      · simp at hgive

lemma releasing (held : Set NodeId) (is : Except Failure α → List NodeId) {x y : Run α}
    (hx : EndsAs x y) : EndsAs (C.releasing held is x) (C'.releasing held is y) where
  ends w out hout := by
    obtain ⟨out', hx', hgive⟩ := Option.bind_eq_some_iff.mp hout
    obtain ⟨h, hh, rfl⟩ := Option.map_eq_some_iff.mp hgive
    refine Option.bind_eq_some_iff.mpr ⟨out', hx.ends w _ hx', ?_⟩
    rw [hC.giveUp hh, Option.map_some]

lemma forEach (held : Set NodeId) {f g : Set NodeId → NodeId → Run Unit}
    (hf : ∀ held i, EndsAs (f held i) (g held i)) (is : List NodeId) :
    EndsAs (C.forEach held f is) (C'.forEach held g is) := by
  induction is with
  | nil => exact .refl _
  | cons i is ih =>
      exact .bind (hC.releasing _ _ (hC.releasing _ _ (hf _ i))) fun _ => ih

lemma watch (allowed : Heap → Except Failure Unit → Heap → Prop) {x y : Run Unit}
    (hx : EndsAs x y) : EndsAs (C.watch allowed x) (C'.watch allowed y) where
  ends w out hout := by
    obtain ⟨hx', hallowed⟩ := Option.filter_eq_some_iff.mp hout
    refine Option.filter_eq_some_iff.mpr ⟨hx.ends w out hx', ?_⟩
    simp only [decide_eq_true_eq] at hallowed ⊢
    exact fun h => hallowed (hC.spliced h)

end Custody.Stricter

namespace Processor

open Heap Run

section Stricter

variable {p : Processor} {C C' : Custody} {ask ask' : Set NodeId → Answerer}

lemma endsAs_replaceUnder (hC : C.Stricter C') (hask : ∀ held r, EndsAs (ask held r) (ask' held r))
    (held : Set NodeId) (r : Registration) (tag : String) (node : NodeId)
    (context : Option String) :
    EndsAs (p.replaceUnder C ask held r tag node context)
      (p.replaceUnder C' ask' held r tag node context) := by
  have hhanded : ∀ held r, EndsAs (C.handed ask held r) (C'.handed ask' held r) := by
    refine fun held r => ⟨fun w out hout => ?_⟩
    show (ask' (held ∪ C'.held w) r).outcome w = some out
    rw [hC.held_eq]
    exact (hask _ r).ends w out hout
  refine .bind (.refl _) fun before => .bind (hC.releasing _ _ ?_) fun answer =>
    hC.watch _ (.bind (.refl _) fun h => hC.releasing _ _ (.refl _))
  exact .bind (.refl _) fun h => .bind (.refl _) fun _ => .bind (.run (hhanded _) _) fun _ => .refl _

lemma endsAs_substituteBelowUnder (hC : C.Stricter C')
    (hask : ∀ held r, EndsAs (ask held r) (ask' held r)) (held : Set NodeId) (node : NodeId)
    (context : Option String) :
    EndsAs (substituteBelowUnder C ask held node context)
      (substituteBelowUnder C' ask' held node context) :=
  .bind (.refl _) fun _ => hC.forEach _ (fun held i => hask held (.substituteAt i context)) _

lemma endsAs_substituteAtUnder (hC : C.Stricter C')
    (hask : ∀ held r, EndsAs (ask held r) (ask' held r)) (held : Set NodeId) (node : NodeId)
    (context : Option String) :
    EndsAs (p.substituteAtUnder C ask held node context)
      (p.substituteAtUnder C' ask' held node context) := by
  refine .bind (.refl _) fun h => ?_
  dsimp only
  split
  · exact endsAs_replaceUnder hC hask ..
  · exact endsAs_substituteBelowUnder hC hask ..

lemma endsAs_substituteRegisteredUnder (hC : C.Stricter C')
    (hask : ∀ held r, EndsAs (ask held r) (ask' held r)) (held : Set NodeId) (root : NodeId)
    (context : Option String) (rs : List Registration) :
    EndsAs (p.substituteRegisteredUnder C ask held root context rs)
      (p.substituteRegisteredUnder C' ask' held root context rs) := by
  induction rs with
  | nil => exact .refl _
  | cons r rs ih =>
      refine .bind (.refl _) fun h => .bind (hC.forEach _ (fun held i => ?_) _) fun _ => ih
      refine .bind (.refl _) fun h => ?_
      split
      · exact endsAs_replaceUnder hC hask ..
      · exact .refl _

lemma endsAs_substituteUnder (hC : C.Stricter C')
    (hask : ∀ held r, EndsAs (ask held r) (ask' held r)) (held : Set NodeId) (content : String) :
    EndsAs (p.substituteUnder C ask held content) (p.substituteUnder C' ask' held content) :=
  .guarded p <| .bind (.refl _) fun _ => .bind (.refl _) fun _ => hC.releasing _ _ <|
    .bind (endsAs_substituteAtUnder hC hask ..) fun _ =>
      .bind (endsAs_substituteRegisteredUnder hC hask ..) fun _ => .refl _

lemma endsAs_serveUnder (hC : C.Stricter C') (hask : ∀ held r, EndsAs (ask held r) (ask' held r))
    (held : Set NodeId) (r : Request) :
    EndsAs (p.serveUnder C ask held r) (p.serveUnder C' ask' held r) := by
  cases r with
  | parse content => exact .bind (endsAs_substituteUnder hC hask ..) fun _ => .refl _
  | substitute content => exact endsAs_substituteUnder hC hask ..
  | fragment markup => exact .refl _
  | substituteBelow node context => exact .guarded p (endsAs_substituteBelowUnder hC hask ..)
  | substituteAt node context => exact endsAs_substituteAtUnder hC hask ..
  | substituteClassed node context => exact endsAs_substituteRegisteredUnder hC hask ..

/-- **A run that is not cut off** is the same where fewer runs are, by induction on the depth of
requests. -/
theorem answerUnder_of_stricter (hC : C.Stricter C') (n : ℕ) :
    ∀ held r, EndsAs (p.answerUnder C n held r) (p.answerUnder C' n held r) := by
  induction n with
  | zero => exact fun held r => .refl _
  | succ n ih => exact fun held r => endsAs_serveUnder hC ih held r

end Stricter

end Processor

end RichText
