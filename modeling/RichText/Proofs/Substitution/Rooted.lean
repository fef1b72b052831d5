import RichText.Proofs.Heap.Outside
import RichText.Proofs.Substitution.Leaving

/-!
Which elements handlers are given.

A pass that has begun at a node is to render elements at or below that node only. The pass by class
looks before each element whether it still is. The pass by tag does not look: it goes through child
lists as they were before handlers ran. `Processor.answerRooted` answers requests as the processor
does, but is cut off where a pass would run a handler on an element that is no longer at or below
the node at which the pass has begun.

* `Processor.KeepsToElement`: handlers that move nothing outside of their own element;
* `Processor.Stays`: what a service does to a heap, outside of the part that it is about;
* `Processor.rooted_serve`: one level of requests, by the parts of a pass;
* `Processor.answerRooted_eq_answer`: **handlers are given attached elements**: in the pass by class
  always, in the pass by tag if handlers keep to their elements.
-/

namespace RichText

variable {α β : Type}

/-- The node that a service is about, which says what part of the heap it is to change. -/
def Request.node? : Request → Option NodeId
  | parse _ | substitute _ | fragment _ => none
  | substituteBelow node _ | substituteAt node _ | substituteClassed node _ => some node

namespace Processor

open Heap Run

/-! ### Passes that know where they have begun -/

section Rooted

open Classical in
/-- A computation that is cut off unless something holds of the heap in which it starts. -/
noncomputable def provided (cond : Heap → Prop) (x : Run α) : Run α := fun w =>
  if cond w.heap then x.outcome w else none

variable (p : Processor) (walks : Bool)

/-- Substitution by tag at or below a node, in a pass that has begun at `root`. If `walks`, an
element is only rendered if it is at or below `root`. Requests of handlers begin passes of their
own. -/
noncomputable def substituteAtRooted (ask : Option NodeId → Answerer) (root node : NodeId)
    (context : Option String) : Run Unit := do
  let tag := (← Run.heap).tagName node
  match tag.bind fun t => (p.registry.forTag? t).map fun r => (t, r) with
  | some (tag, r) =>
      provided (fun h => walks = true → h.Reaches root node)
        (p.replaceElement (ask none) r tag node context)
  | none => substituteBelow (ask (some root)) node context

/-- Substitution among the matches of a registration. An element is only rendered if it is at or
below `root`. -/
noncomputable def substituteMatchesRooted (ask : Answerer) (r : Registration) (root : NodeId)
    (context : Option String) : List NodeId → Run Unit
  | [] => return ()
  | i :: is => do
      let h ← Run.heap
      if h.isAncestorOrSelf root i then
        provided (fun h => h.Reaches root i)
          (p.replaceElement ask r ((h.tagName i).getD "") i context)
      substituteMatchesRooted ask r root context is

/-- Substitution by class for some registrations. -/
noncomputable def substituteRegisteredRooted (ask : Answerer) (root : NodeId)
    (context : Option String) : List Registration → Run Unit
  | [] => return ()
  | r :: rs => do
      p.substituteMatchesRooted ask r root context ((← Run.heap).withClass r.value root)
      substituteRegisteredRooted ask root context rs

/-- Substitution in content. -/
noncomputable def substituteRooted (ask : Option NodeId → Answerer) (content : String) :
    Run String :=
  p.guarded do
    let context ← p.lookupContext
    let expanded := expandTags (fun tag => (p.registry.forTag? tag).isSome) content
    let root ← Run.plant (readContent expanded)
    p.substituteAtRooted walks ask root root context
    p.substituteRegisteredRooted (ask none) root context p.registry.classes
    let serialized := (← Run.heap).markup root
    return recoverContent serialized content p.options.restoreShortcodeUrls

/-- The services, given how further requests are answered in a pass that has begun at a node and
otherwise. A request for substitution by tag goes on with the pass in which it is made, if there is
one, and all others begin one. -/
noncomputable def serveRooted (ask : Option NodeId → Answerer) (root? : Option NodeId) : Answerer
  | .parse content => do return p.shortcodes (← p.substituteRooted walks ask content)
  | .substitute content => p.substituteRooted walks ask content
  | .fragment markup => p.fragment "#fragment" markup
  | .substituteBelow node context => p.guarded (substituteBelow (ask (some node)) node context)
  | .substituteAt node context => p.substituteAtRooted walks ask (root?.getD node) node context
  | .substituteClassed node context =>
      p.substituteRegisteredRooted (ask none) node context p.registry.classes

/-- The services, with requests nested to a given depth at most. -/
noncomputable def answerRooted : ℕ → Option NodeId → Answerer
  | 0, _, _ => fun _ => none
  | fuel + 1, root?, r => p.serveRooted walks (answerRooted fuel) root? r

end Rooted

/-! ### What services and handlers keep -/

/-- What happens to a heap in a part of it: it stays well-formed and loses no node, and if `walks`,
the nodes outside of the part keep their parents. -/
structure Stays (walks : Bool) (part : Option NodeId) (h h' : Heap) : Prop where
  wellFormed : h'.WellFormed
  size_le : h.size ≤ h'.size
  keptOutside : walks = true → KeptOutside part h h'

/-- **A handler that keeps to its element**, if services keep to the nodes that they are about: it
changes no parents but those of its element, of what is below it, and of new nodes, and answers
with such nodes only. -/
def KeepsToElement (p : Processor) (handler : Handler) : Prop :=
  ∀ n : ℕ, (∀ (r : Request) (w : World) out, w.heap.WellFormed →
      (p.answer n r).outcome w = some out → Stays true r.node? w.heap out.2.heap) →
    ∀ (w : World) (node : NodeId) (context : Option String), w.heap.WellFormed →
      node < w.heap.size →
        ∀ out, ((handler node context).run (p.answer n)).outcome w = some out →
          KeptOutside (some node) w.heap out.2.heap
            ∧ ∀ j, out.1 = .ok (.ok (.tree j)) →
              ∀ k ∈ out.2.heap.standIns j, k < w.heap.size → w.heap.Reaches node k

/-- All registered handlers keep to their elements. -/
def AllKeepToElement (p : Processor) : Prop :=
  (∀ tag r, p.registry.forTag? tag = some r → p.KeepsToElement r.handler)
    ∧ ∀ r ∈ p.registry.classes, p.KeepsToElement r.handler

namespace Stays

variable {walks : Bool} {part : Option NodeId} {h h' h'' : Heap}

lemma refl (hwf : h.WellFormed) : Stays walks part h h :=
  ⟨hwf, le_rfl, fun _ => .refl part h⟩

lemma trans (hwf : h.WellFormed) (hs : Stays walks part h h') (hs' : Stays walks part h' h'') :
    Stays walks part h h'' :=
  ⟨hs'.wellFormed, hs.size_le.trans hs'.size_le, fun hw =>
    (hs.keptOutside hw).trans (hs'.keptOutside hw) hwf hs.wellFormed hs.size_le⟩

/-- What happens at or below a node happens at or below any node above it. -/
lemma widen {i j : NodeId} (hs : Stays walks (some i) h h')
    (hr : walks = true → h.Reaches j i) : Stays walks (some j) h h' :=
  ⟨hs.wellFormed, hs.size_le, fun hw => (hs.keptOutside hw).widen (hr hw)⟩

lemma plant (hwf : h.WellFormed) (t : Tree) : Stays walks part h (h.plant t).1 :=
  have hpl := hwf.plant t
  ⟨hpl.wellFormed, hpl.extends_.size_le, fun _ => .of_extends hpl.extends_ part⟩

end Stays

/-! ### Single elements -/

variable {p : Processor} {walks : Bool} {ask : Answerer} {ask' : Option NodeId → Answerer}
  {w w' : World} {n : ℕ} {root node : NodeId}

/-- A node that is neither replaced nor put in keeps its parent. -/
lemma parent_putInPlace {h : Heap} {i q k : ℕ} {is : List NodeId} (hwf : h.WellFormed) (index : ℕ)
    (his : ∀ m ∈ is, m < h.size) (hover : ∀ m ∈ is, ¬ h.Reaches m q) (hki : k ≠ i) (hkis : k ∉ is) :
    (putInPlace h i { parent := q, index } is).parent k = h.parent k := by
  by_cases hi : h.parent i = some q
  · obtain ⟨as, bs, hch⟩ := List.append_of_mem (hwf.mem_of_parent hi)
    rw [putInPlace, if_pos hi, hwf.replaceWith_eq hch is hover]
    split
    · rfl
    · rw [(hwf.detach i).parent_insertAt (by simpa using his), if_neg hkis, parent_detach,
        if_neg hki]
  · rw [putInPlace, if_neg hi, hwf.parent_insertAt his, if_neg hkis]

/-- A node put in place of another, if it is new or was at or below that in `h`. -/
lemma keptOutside_putReplacement {h : Heap} {tag : String} {anchor : Option Position} {j : NodeId}
    {result : Except Failure Unit} (hkept : KeptOutside (some node) h w.heap)
    (hwf : w.heap.WellFormed) (hj : ∀ k ∈ w.heap.standIns j, k < h.size → h.Reaches node k)
    (hout : (putReplacement tag node anchor j).outcome w = some (result, w')) :
    KeptOutside (some node) h w'.heap := by
  rw [outcome_putReplacement] at hout
  cases anchor with
  | none =>
      obtain ⟨-, rfl⟩ := by simpa using hout
      exact hkept
  | some place =>
      dsimp only at hout
      split at hout
      · obtain ⟨-, rfl⟩ := by simpa using hout
        exact hkept
      · next hany =>
          obtain ⟨-, rfl⟩ := by simpa using hout
          have hover : ∀ m ∈ w.heap.standIns j, ¬ w.heap.Reaches m place.parent := fun m hm hr =>
            hany (List.any_eq_true.mpr ⟨m, hm, (isAncestorOrSelf_iff hwf).mpr hr⟩)
          intro k hk hnot
          rw [within_some] at hnot
          have hki : k ≠ node := fun heq => hnot (heq ▸ .refl)
          rw [parent_putInPlace hwf place.index (fun m hm => lt_size_of_mem_standIns hwf hm) hover hki
            fun hmem => hnot (hj k hmem hk)]
          exact hkept k hk (by rwa [within_some])

/-- An answer spliced, if its nodes are new or were at or below the element in `h`. -/
lemma keptOutside_splice {h : Heap} {tag : String} {anchor : Option Position} {answer : Rendering}
    {result : Except Failure Unit} (hkept : KeptOutside (some node) h w.heap)
    (hsize : h.size ≤ w.heap.size) (hwf : w.heap.WellFormed)
    (hanswer : ∀ j, answer = .tree j → ∀ k ∈ w.heap.standIns j, k < h.size → h.Reaches node k)
    (hout : (p.splice tag node anchor answer).outcome w = some (result, w')) :
    KeptOutside (some node) h w'.heap := by
  cases answer with
  | keep =>
      obtain ⟨-, rfl⟩ := by simpa [splice, outcome_pure] using hout
      exact hkept
  | tree j => exact keptOutside_putReplacement hkept hwf (hanswer j rfl) hout
  | markup s =>
      rw [splice, outcome_bind, outcome_fragment] at hout
      split at hout
      · obtain ⟨-, rfl⟩ := by simpa using hout
        exact hkept
      · have hpl := hwf.plant (.document (readMarkup s).1)
        obtain ⟨u, hid, hu, hnd, hnew, -⟩ := hpl.carries
        obtain ⟨us, hstand, -, -, hsub, -⟩ := standIns_of_carries hu hnd
        rw [hid] at hstand
        refine keptOutside_putReplacement (w := { w with heap := _ }) (fun k hk hnot => ?_)
          hpl.wellFormed (fun k hk hlt => ?_) hout
        · exact (parent_congr (hpl.extends_.node_eq k (lt_of_lt_of_le hk hsize))).trans
            (hkept k hk hnot)
        · -- the nodes of the fragment are new
          have hk' : k ∈ us.map Layout.id := hstand ▸ hk
          exact absurd hlt (Nat.not_lt.mpr (hsize.trans (hnew k (hsub (Layout.id_mem_idsAll hk')))))

/-! ### Passes -/

/-- Two ways to answer requests agree in well-formed heaps. Those that are made in a pass are about
nodes at or below the one at which it has begun. -/
def Guided (walks : Bool) (ask : Answerer) (ask' : Option NodeId → Answerer) : Prop :=
  ∀ (root? : Option NodeId) (r : Request) (w : World), w.heap.WellFormed →
    (walks = true → ∀ root ∈ root?, ∀ node ∈ r.node?, w.heap.Reaches root node) →
      Steady (Stays walks r.node?) w (ask r) (ask' root? r)

lemma Guided.agree (hguided : Guided walks ask ask') : Agree ask (ask' none) := by
  intro r w hwf
  rw [SteadyAt.iff_steady]
  exact (hguided none r w hwf (by simp)).mono fun _ hs => ⟨hs.wellFormed, hs.size_le⟩

/-- A computation is not cut off where the condition holds. -/
lemma Steady.provided {R : Heap → Heap → Prop} {cond : Heap → Prop} {x x' : Run α}
    (hcond : cond w.heap) (hx : Steady R w x x') : Steady R w x (provided cond x') := by
  have hsame : (Processor.provided cond x').outcome w = x'.outcome w := if_pos hcond
  rw [Steady, hsame]
  exact hx

lemma rooted_replaceElement {r : Registration} (hguided : Guided walks (p.answer n) ask')
    (hr : p.LeavesWellFormed r.handler) (hkeeps : walks = true → p.KeepsToElement r.handler)
    (hwf : w.heap.WellFormed) (hnode : node < w.heap.size) (tag : String)
    (context : Option String) :
    Steady (Stays walks (some node)) w (p.replaceElement (p.answer n) r tag node context)
      (p.replaceElement (ask' none) r tag node context) := by
  have hrun := steadyAt_runHandler hguided.agree (hr n) hwf hnode context
  refine ⟨?_, fun out hout => ?_⟩
  · rw [replaceElement_eq, replaceElement_eq, outcome_bind_ok (outcome_heap w),
      outcome_bind_ok (outcome_heap w), outcome_bind, outcome_bind, hrun.1]
  · obtain ⟨hwf', hsize'⟩ := kept_replaceElement hguided.agree (hr n) hwf hnode hout
    refine ⟨hwf', hsize', ?_⟩
    rintro rfl
    have hkept := hkeeps rfl n (fun r w out hwf hout => (hguided none r w hwf (by simp)).2 out hout)
      (begun w r node context) node context hwf hnode
    rw [replaceElement_eq, outcome_bind_ok (outcome_heap w)] at hout
    rcases outcome_bind_eq_some hout with ⟨answer, w₁, hanswer, hsplice⟩ | ⟨e, w₁, herror, rfl⟩
    · obtain ⟨hwf₁, hsize₁⟩ := hrun.2 _ hanswer
      obtain ⟨end_, hend, rfl, hgiven⟩ := exists_outcome_run hanswer
      obtain ⟨houtside, hown⟩ := hkept end_ hend
      refine keptOutside_splice houtside hsize₁ hwf₁ (fun j hj => ?_) hsplice
      exact hown j (by rw [hgiven answer rfl, hj])
    · obtain ⟨end_, hend, rfl, -⟩ := exists_outcome_run herror
      exact (hkept end_ hend).1

/-- The pass by tag among children of a node: those that are still to come stay children of it. -/
lemma rooted_substituteEach (hguided : Guided walks ask ask') (context : Option String)
    (is : List NodeId) (w : World) (hwf : w.heap.WellFormed) (hnd : is.Nodup)
    (hpending : walks = true → w.heap.Reaches root node ∧ ∀ i ∈ is, w.heap.Child node i) :
    Steady (Stays walks (some node)) w (substituteEach ask context is)
      (substituteEach (ask' (some root)) context is) := by
  induction is generalizing w with
  | nil => exact Steady.pure (.refl hwf) _
  | cons i is ih =>
      obtain ⟨hi, hnd⟩ := List.nodup_cons.mp hnd
      have hat : Steady (Stays walks (some i)) w (ask (.substituteAt i context))
          (ask' (some root) (.substituteAt i context)) := by
        refine hguided (some root) (.substituteAt i context) w hwf fun hw => ?_
        obtain ⟨hroot, hch⟩ := hpending hw
        have hi : w.heap.Reaches root i := hroot.tail (hch i List.mem_cons_self)
        simpa [Request.node?] using hi
      have hbelow := hat.mono fun h' hs => hs.widen fun hw =>
        .single ((hpending hw).2 i List.mem_cons_self)
      refine Steady.bind (fun h' h'' => Stays.trans hwf) hbelow fun _ w₁ hout _ => ?_
      have hs := hat.2 _ hout
      refine ih w₁ hs.wellFormed hnd fun hw => ?_
      obtain ⟨hroot, hch⟩ := hpending hw
      have hchild := hch i List.mem_cons_self
      have hkept := hs.keptOutside hw
      refine ⟨hkept.reaches hwf hs.wellFormed hroot ?_, fun j hj => ?_⟩
      · rw [within_some]
        exact hwf.not_reaches_parent hchild
      · have hchild' := hch j (List.mem_cons_of_mem i hj)
        refine hkept.child hwf hs.wellFormed hchild' ?_
        rw [within_some]
        exact hwf.not_reaches_sibling hchild hchild' fun heq => hi (heq ▸ hj)

lemma rooted_substituteBelow (hguided : Guided walks ask ask') (hwf : w.heap.WellFormed)
    (hroot : walks = true → w.heap.Reaches root node) (context : Option String) :
    Steady (Stays walks (some node)) w (substituteBelow ask node context)
      (substituteBelow (ask' (some root)) node context) :=
  Steady.heap_bind (rooted_substituteEach hguided context _ w hwf (hwf.nodup node)
    fun hw => ⟨hroot hw, fun _ hi => hi⟩)

lemma rooted_substituteAt (hall : p.AllLeaveWellFormed) (hkeeps : walks = true → p.AllKeepToElement)
    (hguided : Guided walks (p.answer n) ask') (hwf : w.heap.WellFormed)
    (hroot : walks = true → w.heap.Reaches root node) (context : Option String) :
    Steady (Stays walks (some node)) w (p.substituteAt (p.answer n) node context)
      (p.substituteAtRooted walks ask' root node context) := by
  rw [substituteAt, substituteAtRooted]
  refine Steady.heap_bind ?_
  dsimp only
  cases hmatch : (w.heap.tagName node).bind fun t =>
      (p.registry.forTag? t).map fun r => (t, r) with
  | none => exact rooted_substituteBelow hguided hwf hroot context
  | some found =>
      obtain ⟨tag, htag, hr⟩ := Option.bind_eq_some_iff.mp hmatch
      obtain ⟨r, hr', rfl⟩ := Option.map_eq_some_iff.mp hr
      exact Steady.provided hroot (rooted_replaceElement hguided (hall.1 _ _ hr')
        (fun hw => (hkeeps hw).1 _ _ hr') hwf (lt_size_of_tagName htag) tag context)

/-- The pass by class among the matches of a registration. -/
lemma rooted_substituteMatches {r : Registration} (hr : p.LeavesWellFormed r.handler)
    (hkeeps : walks = true → p.KeepsToElement r.handler)
    (hguided : Guided walks (p.answer n) ask') (root : NodeId) (context : Option String)
    (is : List NodeId) (w : World) (hwf : w.heap.WellFormed) (his : ∀ i ∈ is, i < w.heap.size) :
    Steady (Stays walks (some root)) w (p.substituteMatches (p.answer n) r root context is)
      (p.substituteMatchesRooted (ask' none) r root context is) := by
  induction is generalizing w with
  | nil => exact Steady.pure (.refl hwf) _
  | cons i is ih =>
      have hrest : ∀ w₁ : World, Stays walks (some root) w.heap w₁.heap →
          Steady (Stays walks (some root)) w₁ (p.substituteMatches (p.answer n) r root context is)
            (p.substituteMatchesRooted (ask' none) r root context is) := fun w₁ hs =>
        ih w₁ hs.wellFormed fun k hk => lt_of_lt_of_le (his k (List.mem_cons_of_mem i hk)) hs.size_le
      rw [substituteMatches, substituteMatchesRooted]
      refine Steady.heap_bind ?_
      by_cases hup : w.heap.isAncestorOrSelf root i = true
      · have hreach := (isAncestorOrSelf_iff hwf).mp hup
        simp only [hup, if_true]
        refine Steady.bind (fun h' h'' => Stays.trans hwf) (Steady.provided hreach ?_)
          fun _ w₁ _ hs => hrest w₁ hs
        exact (rooted_replaceElement hguided hr hkeeps hwf (his i List.mem_cons_self) _
          context).mono fun h' hs => hs.widen fun _ => hreach
      · simp only [hup]
        exact hrest w (.refl hwf)

lemma rooted_substituteRegistered (hguided : Guided walks (p.answer n) ask') (root : NodeId)
    (context : Option String) (rs : List Registration)
    (hrs : ∀ r ∈ rs, p.LeavesWellFormed r.handler)
    (hkeeps : walks = true → ∀ r ∈ rs, p.KeepsToElement r.handler) (w : World)
    (hwf : w.heap.WellFormed) :
    Steady (Stays walks (some root)) w (p.substituteRegistered (p.answer n) root context rs)
      (p.substituteRegisteredRooted (ask' none) root context rs) := by
  induction rs generalizing w with
  | nil => exact Steady.pure (.refl hwf) _
  | cons r rs ih =>
      rw [substituteRegistered, substituteRegisteredRooted]
      refine Steady.heap_bind ?_
      refine Steady.bind (fun h' h'' => Stays.trans hwf)
        (rooted_substituteMatches (hrs r List.mem_cons_self)
          (fun hw => hkeeps hw r List.mem_cons_self) hguided root context _ w hwf
          fun i hi => lt_size_of_mem_withClass hi) fun _ w₁ _ hs => ?_
      exact ih (fun r' hr' => hrs r' (List.mem_cons_of_mem r hr'))
        (fun hw r' hr' => hkeeps hw r' (List.mem_cons_of_mem r hr')) w₁ hs.wellFormed

/-! ### Services -/

/-- What happens at or below a new node does not concern the nodes that were there. -/
lemma Steady.plant_bind {ts : List Tree} {f f' : NodeId → Run α} (hwf : w.heap.WellFormed)
    (hf : ∀ (root : NodeId) (w₁ : World), w₁.heap.WellFormed →
      Steady (Stays walks (some root)) w₁ (f root) (f' root)) :
    Steady (Stays walks none) w (Run.plant ts >>= f) (Run.plant ts >>= f') := by
  have hpl := hwf.plant (.document ts)
  obtain ⟨heq, hstays⟩ := hf (w.heap.plant (.document ts)).2
    { w with heap := (w.heap.plant (.document ts)).1 } hpl.wellFormed
  rw [Steady, outcome_bind_ok (outcome_plant ts w), outcome_bind_ok (outcome_plant ts w)]
  refine ⟨heq, fun out hout => ?_⟩
  have hs := hstays out hout
  refine ⟨hs.wellFormed, hpl.extends_.size_le.trans hs.size_le, fun hw k hk _ => ?_⟩
  have hnew : ¬ (w.heap.plant (.document ts)).1.Within (some (w.heap.plant (.document ts)).2) k := by
    rw [within_some]
    exact hpl.extends_.not_reaches hwf hpl.wellFormed hpl.id_eq.ge hk
  exact (hs.keptOutside hw k (lt_of_lt_of_le hk hpl.extends_.size_le) hnew).trans
    (parent_congr (hpl.extends_.node_eq k hk))

lemma rooted_substitute (hall : p.AllLeaveWellFormed) (hkeeps : walks = true → p.AllKeepToElement)
    (hguided : Guided walks (p.answer n) ask') (hwf : w.heap.WellFormed) (content : String) :
    Steady (Stays walks none) w (p.substitute (p.answer n) content)
      (p.substituteRooted walks ask' content) := by
  refine Steady.guarded p (.refl hwf) ?_
  refine Steady.bind (fun h' h'' => Stays.trans hwf) (Steady.lookupContext (.refl hwf) p)
    fun context w₁ _ hs₁ => Steady.plant_bind hs₁.wellFormed fun root w₂ hwf₂ => ?_
  refine Steady.bind (fun h' h'' => Stays.trans hwf₂)
    (rooted_substituteAt hall hkeeps hguided hwf₂ (fun _ => .refl) context) fun _ w₃ _ hs₃ => ?_
  refine Steady.bind (fun h' h'' => Stays.trans hs₃.wellFormed)
    (rooted_substituteRegistered hguided root context _ hall.2 (fun hw => (hkeeps hw).2) w₃
      hs₃.wellFormed) fun _ w₄ _ hs₄ => ?_
  exact Steady.heap_bind (Steady.pure (.refl hs₄.wellFormed) _)

/-- The services agree if requests made meanwhile do. -/
lemma rooted_serve (hall : p.AllLeaveWellFormed) (hkeeps : walks = true → p.AllKeepToElement)
    (hguided : Guided walks (p.answer n) ask') :
    Guided walks (p.serve (p.answer n)) (p.serveRooted walks ask') := by
  intro root? r w hwf hroot
  cases r with
  | parse content =>
      exact Steady.bind (fun h' h'' => Stays.trans hwf)
        (rooted_substitute hall hkeeps hguided hwf content)
        fun s w₁ _ hs => Steady.pure (.refl hs.wellFormed) _
  | substitute content => exact rooted_substitute hall hkeeps hguided hwf content
  | fragment markup =>
      exact Steady.fragment (.refl hwf) (fun ts => .plant hwf _) p _ markup
  | substituteBelow node context =>
      exact Steady.guarded p (.refl hwf)
        (rooted_substituteBelow (w := { w with depth := w.depth + 1 }) hguided hwf
          (fun _ => .refl) context)
  | substituteAt node context =>
      refine rooted_substituteAt hall hkeeps hguided hwf (fun hw => ?_) context
      cases root? with
      | none => exact .refl
      | some root => exact hroot hw root rfl node rfl
  | substituteClassed node context =>
      exact rooted_substituteRegistered hguided node context _ hall.2 (fun hw => (hkeeps hw).2) w hwf

/-- Both ways to answer requests agree, by induction on the depth of these. -/
lemma guided_answerRooted (hall : p.AllLeaveWellFormed)
    (hkeeps : walks = true → p.AllKeepToElement) (n : ℕ) :
    Guided walks (p.answer n) (p.answerRooted walks n) := by
  induction n with
  | zero => exact fun root? r w _ _ => ⟨rfl, fun out hout => by simp [answer, outcome] at hout⟩
  | succ n ih => exact rooted_serve hall hkeeps ih

/-- **Handlers are given attached elements**: in a run that starts with a well-formed heap, with
handlers that leave heaps well-formed, no pass is cut off for running a handler on an element that
is not at or below the node at which the pass has begun. For the pass by class this holds whatever
else the handlers do, for the pass by tag (`walks`) if all handlers keep to their elements. -/
theorem answerRooted_eq_answer (hall : p.AllLeaveWellFormed)
    (hkeeps : walks = true → p.AllKeepToElement) (hwf : w.heap.WellFormed) (n : ℕ) :
    (∀ r : Request, (p.answerRooted walks n none r).outcome w = (p.answer n r).outcome w)
      ∧ ∀ (node : NodeId) (context : Option String),
        (substituteBelow (p.answerRooted walks n (some node)) node context).outcome w
          = (substituteBelow (p.answer n) node context).outcome w := by
  have hguided := guided_answerRooted hall hkeeps n
  exact ⟨fun r => (hguided none r w hwf (by simp)).1, fun node context =>
    (rooted_substituteBelow hguided hwf (fun _ => .refl) context).1⟩

/-! ### Handlers that substitute below their element -/

/-- A handler that first has what is below its element substituted. -/
def belowFirst (handler : Handler) : Handler := fun node context =>
  .ask (.substituteBelow node context) fun
    | .ok _ => handler node context
    | .error e => .done (.error e)

/-- How a handler goes on when what is below its element has been substituted. -/
lemma run_belowFirst {handler : Handler} {context : Option String}
    {out : Except Failure (Except Failure Rendering) × World}
    (hout : ((belowFirst handler node context).run ask).outcome w = some out) :
    ∃ reply w₁, (ask (.substituteBelow node context)).outcome w = some (reply, w₁)
      ∧ ((∃ e, reply = .error e ∧ out = (.ok (.error e), w₁))
        ∨ ∃ u, reply = .ok u ∧ ((handler node context).run ask).outcome w₁ = some out) := by
  rw [belowFirst, outcome_run_ask, Option.bind_eq_some_iff] at hout
  obtain ⟨⟨reply, w₁⟩, hreply, hrun⟩ := hout
  refine ⟨reply, w₁, hreply, ?_⟩
  cases reply with
  | ok u => exact .inr ⟨u, rfl, hrun⟩
  | error e => exact .inl ⟨e, rfl, (Option.some.inj hrun).symm⟩

lemma leavesWellFormed_belowFirst {handler : Handler} (hhandler : p.LeavesWellFormed handler) :
    p.LeavesWellFormed (belowFirst handler) := by
  intro n hservices w node context hwf hnode
  have hthen : ∀ w₁, Kept w w₁ →
      (∀ w' ∈ (handler node context).askedIn (p.answer n) w₁, w'.heap.WellFormed)
        ∧ ∀ out, ((handler node context).run (p.answer n)).outcome w₁ = some out → Kept w₁ out.2 :=
    fun w₁ hk => hhandler n hservices w₁ node context hk.1 (lt_of_lt_of_le hnode hk.2)
  constructor
  · intro w' hw'
    rw [belowFirst, Program.askedIn, List.mem_cons] at hw'
    rcases hw' with rfl | hw'
    · exact hwf
    · split at hw'
      · simp at hw'
      · next reply w₁ hreply =>
          have hk := hservices _ w _ hwf hreply
          cases reply with
          | ok u => exact (hthen w₁ hk).1 w' hw'
          | error e => simp [Program.askedIn] at hw'
  · intro out hout
    obtain ⟨reply, w₁, hreply, ⟨e, rfl, rfl⟩ | ⟨u, rfl, hrun⟩⟩ := run_belowFirst hout
    · exact hservices _ w _ hwf hreply
    · have hk := hservices _ w _ hwf hreply
      have hk' := (hthen w₁ hk).2 out hrun
      exact ⟨hk'.1, hk.2.trans hk'.2⟩

/-- A handler that keeps to its element may have what is below substituted first. -/
lemma keepsToElement_belowFirst {handler : Handler} (hhandler : p.KeepsToElement handler) :
    p.KeepsToElement (belowFirst handler) := by
  intro n hservices w node context hwf hnode out hout
  obtain ⟨reply, w₁, hreply, ⟨e, rfl, rfl⟩ | ⟨u, rfl, hrun⟩⟩ := run_belowFirst hout
  · have hs := hservices _ w _ hwf hreply
    exact ⟨hs.keptOutside rfl, fun j hj => by simp at hj⟩
  · have hs := hservices _ w _ hwf hreply
    obtain ⟨hkept, hown⟩ := hhandler n hservices w₁ node context hs.wellFormed
      (lt_of_lt_of_le hnode hs.size_le) out hrun
    refine ⟨(hs.keptOutside rfl).trans hkept hwf hs.wellFormed hs.size_le, fun j hj k hk hlt => ?_⟩
    by_contra hnot
    have hout : ¬ w.heap.Within (some node) k := by rwa [within_some]
    refine (hs.keptOutside rfl).not_within hwf hs.wellFormed hlt hout ?_
    rw [Request.node?, within_some]
    exact hown j hj k hk (lt_of_lt_of_le hlt hs.size_le)

lemma keepsToElement_newText (p : Processor) (text : String) :
    p.KeepsToElement (newText text) := by
  intro n _ w node context _ _ out hout
  have hpush : ((newText text node context).run (p.answer n)).outcome w
      = some (.ok (.ok (.tree w.heap.size)),
        { w with heap := w.heap.push { content := .text text } }) := rfl
  rw [hpush, Option.some.injEq] at hout
  subst hout
  refine ⟨.of_extends (extends_push ..) _, fun j hj k hk hlt => ?_⟩
  obtain rfl : w.heap.size = j := by simpa using hj
  -- what stands for the new text is the text itself
  have hcontent : (w.heap.push { content := .text text }).content w.heap.size = .text text := by
    rw [content, node_push, if_pos rfl]
  rw [standIns, isContainer, hcontent] at hk
  obtain rfl : k = w.heap.size := by simpa using hk
  exact absurd hlt (lt_irrefl _)

/-- An element whose inside is substituted before it is replaced, and one next to it. -/
theorem answerRooted_belowFirst :
    let p : Processor := { registry := (Registry.registerTag {} "x-a" "a"
      (belowFirst (newText "a"))).registerTag "x-b" "b" (newText "b") }
    let w : World := { heap := (Heap.plant {} (.document [.element { name := "x-a" }
      [.element { name := "x-b" } []], .element { name := "x-b" } []])).1 }
    (p.answerRooted true 6 none (.substituteAt 0 none)).outcome w
        = (p.answer 6 (.substituteAt 0 none)).outcome w
      ∧ (substituteBelow (p.answerRooted true 6 (some 0)) 0 none).outcome w
        = (substituteBelow (p.answer 6) 0 none).outcome w := by
  intro p w
  have hall : p.AllLeaveWellFormed :=
    (Registry.every_empty.register (leavesWellFormed_belowFirst (leavesWellFormed_newText p "a"))
      .tagName "x-a" "a").register (leavesWellFormed_newText p "b") .tagName "x-b" "b"
  have hkeeps : true = true → p.AllKeepToElement := fun _ =>
    (Registry.every_empty.register (keepsToElement_belowFirst (keepsToElement_newText p "a"))
      .tagName "x-a" "a").register (keepsToElement_newText p "b") .tagName "x-b" "b"
  have hwf : w.heap.WellFormed := (wellFormed_empty.plant _).wellFormed
  have hsame := answerRooted_eq_answer hall hkeeps hwf 6
  exact ⟨hsame.1 (.substituteAt 0 none), hsame.2 0 none⟩

/-- In the pass by tag a handler has to keep to its element: the sibling that it takes out of the
tree is rendered all the same. -/
example :
    let takesOut : Handler := fun _ _ => .change (·.detach 2) (.done (.ok .keep))
    let p : Processor := { registry := Registry.registerTag {} "x-a" "a" takesOut }
    let w : World := { heap := (Heap.plant {} (.document [.element { name := "x-a" } [],
      .element { name := "x-a" } []])).1 }
    ((p.answer 2 (.substituteAt 0 none)).outcome w).map
      (fun out => (out.2.trace.length, out.2.heap.parent 2)) = some (2, none) := by
  cbv

end Processor

end RichText
