import RichText.Proofs.Heap.Edits
import RichText.Proofs.Substitution.Custody
import RichText.Proofs.Substitution.Leaving

/-!
Well-formed heaps throughout a run.

Handlers that leave heaps well-formed are given well-formed heaps only, as long as nodes are given
up cleanly (`Heap.Clean`). Runs are looked at up to the point where that is not so.

* `Processor.LeavesWellFormedUnder`: handlers that leave heaps well-formed where nodes are given up;
* `Processor.spliced_spliceUnder`: what one splice does;
* `Processor.steadyAt_serveUnder`: what one level of requests keeps, by the parts of a pass;
* `Processor.answerUnder_watched_eq_careful`: **what all levels keep**, by induction on their
  number;
* `Processor.not_wellFormed_of_endsWellFormed`: what goes wrong with handlers that only end with
  well-formed heaps.
-/

namespace RichText

variable {α : Type}

namespace Processor

open Heap Run

variable {p : Processor} {w : World}

/-! ### Handlers where nodes are given up -/

/-- A handler that leaves heaps well-formed where nodes are given up, whatever others hold. -/
def LeavesWellFormedUnder (p : Processor) (C : Custody) (handler : Handler) : Prop :=
  ∀ (n : ℕ) (held : Set NodeId), LeavesWellFormedBy (C.handed (p.answerUnder C n) held) handler

/-- All registered handlers leave heaps well-formed where nodes are given up. -/
def AllLeaveWellFormedUnder (p : Processor) (C : Custody) : Prop :=
  p.registry.Every (p.LeavesWellFormedUnder C)

/-! ### Nodes given up -/

variable {inHand : World → Set NodeId} {held : Set NodeId}

/-- Nodes given up cleanly leave whatever is held, and what is below it, as it was. -/
lemma shed_giveUp {is : List NodeId} {h h' : Heap} (hwf : h.WellFormed)
    (hgive : Custody.giveUp True held is h = some h') : Shed held h h' := by
  induction is generalizing h with
  | nil =>
      obtain rfl := Option.some.inj hgive
      exact Shed.refl hwf
  | cons t ts ih =>
      rw [Custody.giveUp] at hgive
      split at hgive
      · next hclean =>
          have hshed := (hwf.shed_release (hclean trivial)).mono Set.subset_union_left
          exact hshed.trans (ih hshed.wellFormed hgive)
      · simp at hgive

namespace SteadyAt

/-- Nodes given up at the end. -/
lemma releasing {x x' : Run α} (hx : SteadyAt w x x') (held : Set NodeId)
    (is : Except Failure α → List NodeId) :
    SteadyAt w ((Custody.careful inHand).releasing held is x)
      ((Custody.watched inHand).releasing held is x') := by
  constructor
  · show (x'.outcome w).bind _ = (x.outcome w).bind _
    rw [hx.1]
    rfl
  · intro out hout
    obtain ⟨out', hx', hgive⟩ := Option.bind_eq_some_iff.mp hout
    obtain ⟨h, hh, rfl⟩ := Option.map_eq_some_iff.mp hgive
    obtain ⟨hwf', hsize'⟩ := hx.2 out' hx'
    have hshed := shed_giveUp hwf' hh
    exact ⟨hshed.wellFormed, hsize'.trans hshed.size_eq.ge⟩

/-- Something done for each of some nodes. -/
lemma forEach {f f' : Set NodeId → NodeId → Run Unit}
    (hf : ∀ held i w, w.heap.WellFormed → i < w.heap.size → SteadyAt w (f held i) (f' held i))
    (held : Set NodeId) (is : List NodeId) (w : World) (hwf : w.heap.WellFormed)
    (his : ∀ i ∈ is, i < w.heap.size) :
    SteadyAt w ((Custody.careful inHand).forEach held f is)
      ((Custody.watched inHand).forEach held f' is) := by
  induction is generalizing w with
  | nil => exact SteadyAt.pure hwf _
  | cons i is ih =>
      refine SteadyAt.bind (((hf _ i w hwf (his i (by simp))).releasing _ _).releasing _ _)
        fun _ w₁ _ hk => ?_
      exact ih w₁ hk.1 fun k hmem => lt_of_lt_of_le (his k (by simp [hmem])) hk.2

end SteadyAt

/-! ### Passes under watch -/

/-- **Every splice** does what `Spliced` says, if the nodes that are held for it are given up
cleanly. -/
lemma spliced_spliceUnder {before : Heap} {tag : String} {node : NodeId} {answer : Rendering}
    {out : Except Failure Unit × World} (hbefore : before.WellFormed)
    (hsize : before.size ≤ w.heap.size) (hwf : w.heap.WellFormed)
    (hout : (p.spliceUnder (.careful inHand) held tag node (before.position node) answer).outcome w
      = some out) :
    Spliced held node (before.parent node) answer w.heap out.1 out.2.heap := by
  rw [spliceUnder, outcome_bind_ok (outcome_heap w)] at hout
  obtain ⟨⟨result, w₁⟩, hsplice, hgive⟩ := Option.bind_eq_some_iff.mp hout
  obtain ⟨h, hh, rfl⟩ := Option.map_eq_some_iff.mp hgive
  have hplaced := placed_splice hwf (fun _ hplace => parent_lt_size hplace hsize) hsplice
  rw [hbefore.map_parent_position] at hplaced
  exact ⟨w₁.heap, hplaced, shed_giveUp hplaced.wellFormed hh⟩

/-- Two ways to answer requests agree in well-formed heaps, whatever is held. -/
def AgreeUnder (ask ask' : Set NodeId → Answerer) : Prop :=
  ∀ held, Agree (ask held) (ask' held)

variable {n : ℕ} {asking' : Set NodeId → Answerer}

/-- What a handler holds meanwhile makes no difference. -/
lemma agree_handed {ask ask' : Set NodeId → Answerer} (hask : AgreeUnder ask ask')
    (held : Set NodeId) : Agree ((Custody.careful inHand).handed ask held)
      ((Custody.watched inHand).handed ask' held) :=
  fun r w hwf => hask (held ∪ inHand w) r w hwf

lemma steadyAt_replaceUnder {r : Registration} {node : NodeId}
    (hask : AgreeUnder (p.answerUnder (.careful inHand) n) asking')
    (hr : p.LeavesWellFormedUnder (.careful inHand) r.handler) (hwf : w.heap.WellFormed)
    (hnode : node < w.heap.size) (held : Set NodeId) (tag : String) (context : Option String) :
    SteadyAt w
      (p.replaceUnder (.careful inHand) (p.answerUnder (.careful inHand) n) held r tag node context)
      (p.replaceUnder (.watched inHand) asking' held r tag node context) := by
  refine SteadyAt.heap_bind ?_
  refine SteadyAt.bind ((steadyAt_runHandler (agree_handed hask _) (hr n _) hwf hnode context).releasing
    _ _) fun answer w₁ _ hk => ?_
  rw [Custody.watch_eq not_false]
  have hspliced : ∀ out, (p.spliceUnder (.careful inHand) held tag node (w.heap.position node)
      answer).outcome w₁ = some out →
        Spliced held node (w.heap.parent node) answer w₁.heap out.1 out.2.heap :=
    fun out hout => spliced_spliceUnder hwf hk.2 hk.1 hout
  refine ⟨?_, fun out hout => ?_⟩
  · show ((p.spliceUnder (.careful inHand) held tag node (w.heap.position node)
      answer).outcome w₁).filter _ = _
    cases hout : (p.spliceUnder (.careful inHand) held tag node (w.heap.position node)
        answer).outcome w₁ with
    | none => rfl
    | some out => simp [hspliced out hout]
  · obtain ⟨h₁, hplaced, hshed⟩ := hspliced out hout
    exact ⟨hshed.wellFormed, hplaced.size_le.trans hshed.size_eq.ge⟩

lemma steadyAt_substituteBelowUnder {ask ask' : Set NodeId → Answerer} (hask : AgreeUnder ask ask')
    (hwf : w.heap.WellFormed) (held : Set NodeId) (node : NodeId) (context : Option String) :
    SteadyAt w (substituteBelowUnder (.careful inHand) ask held node context)
      (substituteBelowUnder (.watched inHand) ask' held node context) :=
  SteadyAt.heap_bind <| SteadyAt.forEach
    (fun held i w hwf _ => hask held (.substituteAt i context) w hwf) _ _ w hwf
    fun _ hi => hwf.lt_size_of_mem hi

lemma steadyAt_substituteAtUnder (hall : p.AllLeaveWellFormedUnder (.careful inHand))
    (hask : AgreeUnder (p.answerUnder (.careful inHand) n) asking') (hwf : w.heap.WellFormed)
    (held : Set NodeId) (node : NodeId) (context : Option String) :
    SteadyAt w
      (p.substituteAtUnder (.careful inHand) (p.answerUnder (.careful inHand) n) held node context)
      (p.substituteAtUnder (.watched inHand) asking' held node context) := by
  rw [substituteAtUnder, substituteAtUnder]
  refine SteadyAt.heap_bind ?_
  dsimp only
  cases hmatch : (w.heap.tagName node).bind fun t =>
      (p.registry.forTag? t).map fun r => (t, r) with
  | none => exact steadyAt_substituteBelowUnder hask hwf held node context
  | some found =>
      obtain ⟨tag, htag, hr⟩ := Option.bind_eq_some_iff.mp hmatch
      obtain ⟨r, hr', rfl⟩ := Option.map_eq_some_iff.mp hr
      exact steadyAt_replaceUnder hask (hall.1 _ _ hr') hwf (lt_size_of_tagName htag) held tag
        context

lemma steadyAt_substituteMatchUnder {r : Registration}
    (hr : p.LeavesWellFormedUnder (.careful inHand) r.handler)
    (hask : AgreeUnder (p.answerUnder (.careful inHand) n) asking') (root : NodeId)
    (context : Option String) (held : Set NodeId) (i : NodeId) (w : World)
    (hwf : w.heap.WellFormed) (hi : i < w.heap.size) :
    SteadyAt w (p.substituteMatchUnder (.careful inHand) (p.answerUnder (.careful inHand) n) r root
        context held i)
      (p.substituteMatchUnder (.watched inHand) asking' r root context held i) := by
  rw [substituteMatchUnder, substituteMatchUnder]
  refine SteadyAt.heap_bind ?_
  split
  · exact steadyAt_replaceUnder hask hr hwf hi held _ context
  · exact SteadyAt.pure hwf _

lemma steadyAt_substituteRegisteredUnder
    (hask : AgreeUnder (p.answerUnder (.careful inHand) n) asking') (held : Set NodeId)
    (root : NodeId) (context : Option String) (rs : List Registration)
    (hrs : ∀ r ∈ rs, p.LeavesWellFormedUnder (.careful inHand) r.handler) (w : World)
    (hwf : w.heap.WellFormed) :
    SteadyAt w (p.substituteRegisteredUnder (.careful inHand) (p.answerUnder (.careful inHand) n)
        held root context rs)
      (p.substituteRegisteredUnder (.watched inHand) asking' held root context rs) := by
  induction rs generalizing w with
  | nil => exact SteadyAt.pure hwf _
  | cons r rs ih =>
      rw [substituteRegisteredUnder, substituteRegisteredUnder]
      refine SteadyAt.heap_bind ?_
      refine SteadyAt.bind (SteadyAt.forEach
        (steadyAt_substituteMatchUnder (hrs r (by simp)) hask root context) _ _ w hwf
        fun i hi => lt_size_of_mem_withClass hi) fun _ w₁ _ hk => ?_
      exact ih (fun r' hr' => hrs r' (by simp [hr'])) w₁ hk.1

lemma steadyAt_substituteUnder (hall : p.AllLeaveWellFormedUnder (.careful inHand))
    (hask : AgreeUnder (p.answerUnder (.careful inHand) n) asking') (hwf : w.heap.WellFormed)
    (held : Set NodeId) (content : String) :
    SteadyAt w (p.substituteUnder (.careful inHand) (p.answerUnder (.careful inHand) n) held content)
      (p.substituteUnder (.watched inHand) asking' held content) := by
  refine SteadyAt.guarded p hwf ?_
  refine SteadyAt.bind (SteadyAt.lookupContext p hwf) fun context w₁ _ hk₁ => ?_
  refine SteadyAt.bind (SteadyAt.plant hk₁.1 _) fun root w₂ _ hk₂ => SteadyAt.releasing ?_ _ _
  refine SteadyAt.bind (steadyAt_substituteAtUnder hall hask hk₂.1 _ root context)
    fun _ w₃ _ hk₃ => ?_
  refine SteadyAt.bind (steadyAt_substituteRegisteredUnder hask _ root context _ hall.2 w₃ hk₃.1)
    fun _ w₄ _ hk₄ => ?_
  exact SteadyAt.heap_bind (SteadyAt.pure hk₄.1 _)

/-- The services agree if requests made meanwhile do. -/
lemma steadyAt_serveUnder (hall : p.AllLeaveWellFormedUnder (.careful inHand))
    (hask : AgreeUnder (p.answerUnder (.careful inHand) n) asking') :
    AgreeUnder (p.serveUnder (.careful inHand) (p.answerUnder (.careful inHand) n))
      (p.serveUnder (.watched inHand) asking') := by
  intro held r w hwf
  cases r with
  | parse content =>
      exact SteadyAt.bind (steadyAt_substituteUnder hall hask hwf held content) fun s w₁ _ hk =>
        SteadyAt.pure hk.1 _
  | substitute content => exact steadyAt_substituteUnder hall hask hwf held content
  | fragment markup => exact SteadyAt.fragment p hwf _ markup
  | substituteBelow node context =>
      exact SteadyAt.guarded p hwf (steadyAt_substituteBelowUnder
        (w := { w with depth := w.depth + 1 }) hask hwf _ node context)
  | substituteAt node context => exact steadyAt_substituteAtUnder hall hask hwf _ node context
  | substituteClassed node context =>
      exact steadyAt_substituteRegisteredUnder hask _ node context _ hall.2 w hwf

/-- Both ways to answer requests agree, by induction on the depth of these. -/
lemma agreeUnder_watched (hall : p.AllLeaveWellFormedUnder (.careful inHand)) (n : ℕ) :
    AgreeUnder (p.answerUnder (.careful inHand) n) (p.answerUnder (.watched inHand) n) := by
  induction n with
  | zero => exact fun held r w _ => ⟨rfl, fun out hout => by simp [answerUnder, outcome] at hout⟩
  | succ n ih => exact steadyAt_serveUnder hall ih

/-- A run that is cut off where nodes are not given up cleanly, and is not, is a run. -/
lemma stricter_careful (inHand : World → Set NodeId) :
    (Custody.careful inHand).Stricter (.lenient inHand) :=
  ⟨rfl, False.elim, False.elim⟩

/-! ### A handler at work -/

/-- A document with one element. -/
def oneElement : Heap := (Heap.plant {} (.document [.element { name := "x-a" } []])).1

/-- A processor that puts a text in place of elements. -/
def naming : Processor := { registry := Registry.registerTag {} "x-a" "text" (newText "a") }

/-- An element below the root, which is held, has given way to a text. It is held itself. -/
lemma outcome_substituteAtUnder_naming {inHand : World → Set NodeId} {held : Set NodeId}
    (ask : Set NodeId → Answerer) (hroot : 0 ∈ held) :
    (naming.substituteAtUnder (.careful inHand) ask held 1 none).outcome { heap := oneElement }
      = some (.ok (), ⟨putInPlace (oneElement.push { content := .text "a" }) 1 ⟨0, 0⟩ [2], 0, 0,
        [.rendered "text" 1 (some "x-a") none]⟩) := by
  let r : Registration := ⟨.tagName, "x-a", "text", newText "a"⟩
  let trace : List Event := [.rendered "text" 1 (some "x-a") none]
  let pushed : Heap := oneElement.push { content := .text "a" }
  let put : Heap := putInPlace pushed 1 ⟨0, 0⟩ [2]
  have hmatch : (oneElement.tagName 1).bind (fun t =>
      (naming.registry.forTag? t).map fun r => (t, r)) = some ("x-a", r) := by
    rw [show oneElement.tagName 1 = some "x-a" by decide, Option.bind_some, naming,
      Registry.forTag_registerTag_self _ (by decide +kernel), Option.map_some]
  have hnodes : ((oneElement.position 1).map (·.parent)).toList
      ++ naming.answerNodes pushed (.tree 2) = [0, 2, 2] := by decide
  have hrun : ∀ ask, (runHandler ask r 1 none).outcome { heap := oneElement }
      = some (.ok (.tree 2), { heap := pushed, trace }) := fun _ => rfl
  have hsplice : (naming.splice "x-a" 1 (oneElement.position 1) (.tree 2)).outcome
      { heap := pushed, trace } = some (.ok (), { heap := put, trace }) := rfl
  rw [substituteAtUnder, outcome_bind_ok (outcome_heap _)]
  dsimp only
  rw [hmatch]
  refine outcome_replaceUnder not_false hrun hsplice (Custody.giveUp_eq_self fun t ht => ?_)
  rw [hnodes] at ht
  -- the root is held, and the text has been put below it
  rcases (by simpa using ht : t = 0 ∨ t = 2) with rfl | rfl
  · exact not_lost_of_mem hroot
  · exact fun hlost => hlost.2 0 (.inl (by decide))

/-- The text is left, and the element has died. -/
lemma outcome_answerUnder_naming :
    ∃ w', (naming.answerUnder (.careful fun _ => ∅) 3 {0} (.substituteAt 0 none)).outcome
        { heap := oneElement } = some (.ok (), w')
      ∧ w'.heap.children 0 = [2] ∧ w'.heap.parent 1 = none := by
  let trace : List Event := [.rendered "text" 1 (some "x-a") none]
  let put : Heap := putInPlace (oneElement.push { content := .text "a" }) 1 ⟨0, 0⟩ [2]
  let rest : Set NodeId := {0} ∪ {0} ∪ {x | x ∈ ([] : List NodeId)}
  have hchildren : put.children 1 = [] := by decide
  have hcontents : (put.node 1).contents = none := by decide
  have hlost : put.Lost rest 1 := lost_of_forall_lt (by simp [rest]) (by decide)
  have hturn : ((Custody.careful fun _ => ∅).releasing rest (fun _ => [1])
      (substituteChildUnder (naming.answerUnder (.careful fun _ => ∅) 2) none
        ({0} ∪ {0} ∪ {x | x ∈ [1]}) 1)).outcome { heap := oneElement }
      = some (.ok (), { heap := put.release rest 1, trace }) :=
    Custody.outcome_releasing (outcome_substituteAtUnder_naming _ (by simp))
      (Custody.giveUp_singleton fun _ => clean_of_alone hchildren hcontents)
  refine ⟨{ heap := put.release rest 1, trace }, ?_, ?_, ?_⟩
  · show (substituteBelowUnder (.careful fun _ => ∅) _ ({0} ∪ {0}) 0 none).outcome _ = _
    rw [substituteBelowUnder, outcome_bind_ok (outcome_heap _),
      show Heap.children _ 0 = [1] by decide, Custody.forEach]
    exact outcome_bind_ok (Custody.outcome_releasing hturn rfl)
  · have hapart : ¬ put.Owns 1 0 := fun h => by simpa using eq_of_owns hchildren hcontents h
    rw [children_release hlost hapart]
    decide
  · rw [Option.eq_none_iff_forall_ne_some]
    intro q hq
    have hq' := ((parent_release_eq_some_iff hlost).mp hq).1
    simp [show put.parent 1 = none by decide] at hq'

/-! ### The result -/

/-- A handler that ends with a well-formed heap if it starts with one, whatever the services do, and
removes no node. -/
def EndsWellFormed (handler : Handler) : Prop :=
  ∀ (ask : Answerer) (node : NodeId) (context : Option String) (w : World) out,
    w.heap.WellFormed → ((handler node context).run ask).outcome w = some out → Kept w out.2

/-- The nodes of a heap as they are in an earlier one, and those made since each by itself. -/
def restored (h h' : Heap) : Heap :=
  (h'.nodes.toList.drop h.size).foldl (fun h n => h.push { content := n.content }) h

/-- A handler that puts the first child of its element there twice, has it substituted, and then
puts everything back as it was. -/
def twice : Handler := fun node context =>
  .inspect fun h =>
    match h.children node with
    | [] => .done (.ok .keep)
    | i :: _ =>
        .change (·.insertAt node 0 [i, i]) <| .ask (.substituteAt i context) fun _ =>
          .change (restored h) (.done (.ok .keep))

/-- A handler that moves the parent of its element's parent into a new container, and answers with
that. -/
def lifting : Handler := fun node _ =>
  .inspect fun h =>
    match (h.parent node).bind h.parent with
    | none => .done (.ok .keep)
    | some i =>
        .change (fun h => (h.push { content := .document }).appendChild h.size i)
          (.done (.ok (.tree h.size)))

lemma endsWellFormed_newText (text : String) : EndsWellFormed (newText text) := by
  intro ask node context w out hwf hout
  obtain rfl := Option.some.inj hout
  exact ⟨hwf.push rfl rfl, by simp⟩

/-- New nodes by themselves do no harm. -/
lemma wellFormed_restored {h : Heap} (hwf : h.WellFormed) (h' : Heap) :
    (restored h h').WellFormed ∧ h.size ≤ (restored h h').size := by
  rw [restored]
  generalize h'.nodes.toList.drop h.size = ns
  induction ns generalizing h with
  | nil => exact ⟨hwf, le_rfl⟩
  | cons n ns ih =>
      obtain ⟨hwf', hsize⟩ := ih (hwf.push (n := { content := n.content }) rfl rfl)
      rw [size_push] at hsize
      exact ⟨hwf', Nat.le_of_succ_le hsize⟩

lemma endsWellFormed_twice : EndsWellFormed twice := by
  intro ask node context w out hwf hout
  rw [twice, Program.run, outcome_bind_ok (outcome_heap w)] at hout
  split at hout
  · obtain rfl := Option.some.inj hout
    exact ⟨hwf, le_rfl⟩
  · rw [Program.run, outcome_bind_ok (outcome_modifyHeap _ w), outcome_run_ask] at hout
    obtain ⟨reply, -, hend⟩ := Option.bind_eq_some_iff.mp hout
    obtain rfl := Option.some.inj hend
    exact wellFormed_restored hwf _

lemma endsWellFormed_lifting : EndsWellFormed lifting := by
  intro ask node context w out hwf hout
  rw [lifting, Program.run, outcome_bind_ok (outcome_heap w)] at hout
  split at hout
  · obtain rfl := Option.some.inj hout
    exact ⟨hwf, le_rfl⟩
  · next i hi =>
      obtain rfl := Option.some.inj hout
      obtain ⟨j, -, hi⟩ := Option.bind_eq_some_iff.mp hi
      have hlt : i < w.heap.size := lt_size_of_child (hwf.mem_of_parent hi)
      have hpush : (w.heap.push { content := .document }).WellFormed := hwf.push rfl rfl
      -- the container is new, and not below anything
      have hapart : ¬ (w.heap.push { content := .document }).Reaches i w.heap.size := by
        intro hr
        rcases Relation.ReflTransGen.cases_tail hr with heq | ⟨b, -, hb⟩
        · exact absurd heq (Nat.ne_of_gt hlt)
        · have hparent := hpush.parent_of_mem hb
          rw [parent_push rfl, parent, node_of_size_le le_rfl] at hparent
          simp at hparent
      refine ⟨hpush.apply (e := .appendChild w.heap.size i) ⟨by simp, ?_, hapart⟩, ?_⟩
      · rw [size_push]
        exact Nat.lt_succ_of_lt hlt
      · simp [appendChild]

/-- A document with an element in an element. -/
def twoElements : Heap :=
  (Heap.plant {} (.document [.element { name := "x-a" } [.element { name := "x-b" } []]])).1

/-- A processor that puts elements `x-b` in `x-a` there twice, and a text in place of them. -/
def doubling : Processor :=
  { registry := (Registry.registerTag {} "x-a" "twice" twice).registerTag "x-b" "text"
      (newText "b") }

/-- An element that stands twice below its parent is taken out once only. -/
lemma outcome_substituteAt_twice (ask ask' : Answerer) :
    ∃ u ∈ (twice 1 none).askedIn ask { heap := twoElements }, ∃ u',
      (doubling.substituteAt ask' 2 none).outcome u = some (.ok (), u')
        ∧ u.heap.parent 2 = some 1 ∧ 2 ∈ u'.heap.children 1 ∧ u'.heap.parent 2 = none := by
  let r : Registration := ⟨.tagName, "x-b", "text", newText "b"⟩
  let trace : List Event := [.rendered "text" 2 (some "x-b") none]
  let twofold : Heap := twoElements.insertAt 1 0 [2, 2]
  let pushed : Heap := twofold.push { content := .text "b" }
  let put : Heap := putInPlace pushed 2 ⟨1, 0⟩ [3]
  have hmatch : (twofold.tagName 2).bind (fun t =>
      (doubling.registry.forTag? t).map fun r => (t, r)) = some ("x-b", r) := by
    rw [show twofold.tagName 2 = some "x-b" by decide, Option.bind_some, doubling,
      Registry.forTag_registerTag_self _ (by decide +kernel), Option.map_some]
  have hrun : (runHandler ask' r 2 none).outcome { heap := twofold }
      = some (.ok (.tree 3), { heap := pushed, trace }) := rfl
  have hsplice : (doubling.splice "x-b" 2 (twofold.position 2) (.tree 3)).outcome
      { heap := pushed, trace } = some (.ok (), { heap := put, trace }) := by
    rw [show twofold.position 2 = some ⟨1, 0⟩ by decide, splice, outcome_putReplacement]
    rfl
  have hasked : ({ heap := twofold } : World) ∈ (twice 1 none).askedIn ask { heap := twoElements } := by
    rw [twice, Program.askedIn]
    dsimp only
    rw [show twoElements.children 1 = [2] by decide]
    dsimp only
    rw [Program.askedIn, Program.askedIn]
    exact List.mem_cons_self
  refine ⟨_, hasked, { heap := put, trace }, ?_, by decide⟩
  rw [substituteAt, outcome_bind_ok (outcome_heap _)]
  dsimp only
  rw [hmatch]
  dsimp only
  rw [replaceElement_eq, outcome_bind_ok (outcome_heap _), outcome_bind_ok hrun]
  exact hsplice

/-- A document with an element in an element in an element. -/
def threeElements : Heap :=
  (Heap.plant {} (.document [.element { name := "div" } [.element { name := "p" }
    [.element { name := "x-c" } []]]])).1

/-- A processor that moves the element above the parent of elements `x-c` into a new container. -/
def raising : Processor := { registry := Registry.registerTag {} "x-c" "lifting" lifting }

/-- The container has been given up and is no parent any more, but the pass still holds what was
in it. -/
lemma outcome_replaceUnder_lifting (ask : Set NodeId → Answerer) :
    let r : Registration := ⟨.tagName, "x-c", "lifting", lifting⟩
    ∃ u u', (∀ ask, (runHandler ask r 3 none).outcome { heap := threeElements }
        = some (.ok (.tree 4), u))
      ∧ (raising.replaceUnder (.lenient fun _ => ∅) ask {0, 1, 2, 3} r "x-c" 3
          none).outcome { heap := threeElements }
        = some (.error (.invalidReplacement "x-c"), u')
      ∧ u.heap.WellFormed ∧ u.heap.parent 1 = some 4
      ∧ u'.heap.parent 1 = none ∧ u'.heap.parent 2 = some 1 ∧ 2 ∉ u'.heap.children 1 := by
  intro r
  let lifted : Heap := (threeElements.push { content := .document }).appendChild 4 1
  let w : World := { heap := lifted, trace := [.rendered "lifting" 3 (some "x-c") none] }
  have hrun : ∀ ask, (runHandler ask r 3 none).outcome { heap := threeElements }
      = some (.ok (.tree 4), w) := fun ask => rfl
  have hwf : lifted.WellFormed :=
    endsWellFormed_lifting (raising.answer 0) 3 none { heap := threeElements }
      (.ok (.ok (.tree 4)), { heap := lifted }) (wellFormed_empty.plant _).wellFormed rfl |>.1
  have hsplice : (raising.splice "x-c" 3 (threeElements.position 3) (.tree 4)).outcome w
      = some (.error (.invalidReplacement "x-c"), w) := by
    rw [show threeElements.position 3 = some ⟨2, 0⟩ by decide, splice, outcome_putReplacement]
    rfl
  have hlost : lifted.Lost {0, 1, 2, 3} 4 := lost_of_forall_lt (by simp) (by decide)
  have howns : lifted.Owns 4 1 := .single (.inl (by decide))
  have hgive : Custody.giveUp False {0, 1, 2, 3}
      (((threeElements.position 3).map (·.parent)).toList
        ++ raising.answerNodes lifted (.tree 4)) lifted
      = some (lifted.release {0, 1, 2, 3} 4) := by
    rw [show ((threeElements.position 3).map (·.parent)).toList
        ++ raising.answerNodes lifted (.tree 4) = [2, 1, 4] by decide,
      Custody.giveUp_cons_of_not_lost (not_lost_of_mem (by simp)),
      Custody.giveUp_cons_of_not_lost (not_lost_of_mem (by simp))]
    exact Custody.giveUp_singleton False.elim
  refine ⟨w, _, hrun, outcome_replaceUnder (C := .lenient fun _ => ∅) not_false hrun hsplice hgive,
    hwf, by decide, ?_, ?_, ?_⟩
  · rw [Option.eq_none_iff_forall_ne_some]
    intro q hq
    obtain ⟨hq, hlives⟩ := (parent_release_eq_some_iff hlost).mp hq
    rw [show lifted.parent 1 = some 4 by decide] at hq
    obtain rfl := Option.some.inj hq
    exact hlives ⟨hlost, .refl, by simp, fun a ha => absurd ha (hlost.2 a)⟩
  · refine (parent_release_eq_some_iff hlost).mpr ⟨by decide, fun hdies => hdies.2.2.1 (by simp)⟩
  · rw [children_release_of_owns hlost howns]
    simp

end Processor

end RichText
