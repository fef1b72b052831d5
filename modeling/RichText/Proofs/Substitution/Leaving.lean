import RichText.Proofs.Heap.Attached
import RichText.Proofs.Substitution.Spliced
import RichText.Proofs.Substitution.Steady

/-!
Handlers that leave heaps well-formed.

Such handlers make their requests in well-formed heaps only, and end with one, if the services
that they use do. Where that is so, two ways to answer requests cannot be told apart if they agree
in well-formed heaps.

* `Processor.LeavesWellFormed`: handlers that leave heaps well-formed if the services do;
* `Processor.SteadyAt`: two computations with the same outcome, which is a well-formed heap;
* `Processor.steadyAt_runHandler`: a handler whose requests are answered in two ways;
* `Processor.kept_replaceElement`: an element replaced.
-/

namespace RichText

variable {α β : Type}

/-- The states in which a program makes its requests. -/
def Program.askedIn (ask : Answerer) : Program α → World → List World
  | .done _, _ => []
  | .inspect next, w => (next w.heap).askedIn ask w
  | .change f next, w => next.askedIn ask { w with heap := f w.heap }
  | .note s next, w => next.askedIn ask { w with trace := w.trace ++ [.noted s] }
  | .ask r next, w => w ::
      match (ask r).outcome w with
      | none => []
      | some (reply, w') => (next reply).askedIn ask w'

namespace Processor

open Heap Run

/-! ### Handlers and computations -/

/-- What keeps heaps well-formed, and all their nodes. -/
def Kept (w w' : World) : Prop := w'.heap.WellFormed ∧ w.heap.size ≤ w'.heap.size

/-- A handler that leaves heaps well-formed, if the services that it uses do: started on a node of
a well-formed heap, it makes its requests in well-formed heaps only and ends with one, and removes
no node. -/
def LeavesWellFormedBy (ask : Answerer) (handler : Handler) : Prop :=
  (∀ (r : Request) (w : World) out, w.heap.WellFormed →
      (ask r).outcome w = some out → Kept w out.2) →
    ∀ (w : World) (node : NodeId) (context : Option String), w.heap.WellFormed →
      node < w.heap.size →
        (∀ w' ∈ (handler node context).askedIn ask w, w'.heap.WellFormed)
          ∧ ∀ out, ((handler node context).run ask).outcome w = some out → Kept w out.2

/-- **A handler that leaves heaps well-formed**, whatever the depth to which requests nest. -/
def LeavesWellFormed (p : Processor) (handler : Handler) : Prop :=
  ∀ n : ℕ, LeavesWellFormedBy (p.answer n) handler

/-- All registered handlers leave heaps well-formed. -/
def AllLeaveWellFormed (p : Processor) : Prop :=
  (∀ tag r, p.registry.forTag? tag = some r → p.LeavesWellFormed r.handler)
    ∧ ∀ r ∈ p.registry.classes, p.LeavesWellFormed r.handler

/-- Two computations have the same outcome in a state, and keep its heap well-formed. -/
def SteadyAt (w : World) (x x' : Run α) : Prop :=
  x'.outcome w = x.outcome w ∧ ∀ out, x.outcome w = some out → Kept w out.2

namespace SteadyAt

variable {w : World}

lemma iff_steady {x x' : Run α} :
    SteadyAt w x x' ↔ Steady (fun h h' => h'.WellFormed ∧ h.size ≤ h'.size) w x x' :=
  Iff.rfl

lemma pure (hwf : w.heap.WellFormed) (a : α) : SteadyAt w (pure a : Run α) (Pure.pure a) :=
  iff_steady.mpr (Steady.pure ⟨hwf, le_rfl⟩ a)

lemma bind {x x' : Run α} {f f' : α → Run β} (hx : SteadyAt w x x')
    (hf : ∀ a w', x.outcome w = some (.ok a, w') → Kept w w' → SteadyAt w' (f a) (f' a)) :
    SteadyAt w (x >>= f) (x' >>= f') :=
  iff_steady.mpr (Steady.bind (fun _ _ hk hk' => ⟨hk'.1, hk.2.trans hk'.2⟩) hx hf)

/-- The heap looked at. -/
lemma heap_bind {f f' : Heap → Run α} (hf : SteadyAt w (f w.heap) (f' w.heap)) :
    SteadyAt w (Run.heap >>= f) (Run.heap >>= f') :=
  iff_steady.mpr (Steady.heap_bind hf)

lemma record (hwf : w.heap.WellFormed) (e : Event) :
    SteadyAt w (Run.record e) (Run.record e) :=
  iff_steady.mpr (Steady.record ⟨hwf, le_rfl⟩ e)

lemma plant (hwf : w.heap.WellFormed) (ts : List Tree) :
    SteadyAt w (Run.plant ts) (Run.plant ts) :=
  have hpl := hwf.plant (.document ts)
  iff_steady.mpr (Steady.plant ⟨hpl.wellFormed, hpl.extends_.size_le⟩)

lemma fragment (p : Processor) (hwf : w.heap.WellFormed) (tag markup : String) :
    SteadyAt w (p.fragment tag markup) (p.fragment tag markup) := by
  refine iff_steady.mpr (Steady.fragment ⟨hwf, le_rfl⟩ (fun ts => ?_) p tag markup)
  have hpl := hwf.plant (.document ts)
  exact ⟨hpl.wellFormed, hpl.extends_.size_le⟩

lemma lookupContext (p : Processor) (hwf : w.heap.WellFormed) :
    SteadyAt w p.lookupContext p.lookupContext :=
  iff_steady.mpr (Steady.lookupContext ⟨hwf, le_rfl⟩ p)

/-- A level of nesting changes no heap. -/
lemma guarded (p : Processor) (hwf : w.heap.WellFormed) {x x' : Run α}
    (hx : SteadyAt { w with depth := w.depth + 1 } x x') :
    SteadyAt w (p.guarded x) (p.guarded x') :=
  iff_steady.mpr (Steady.guarded p ⟨hwf, le_rfl⟩ hx)

end SteadyAt

/-! ### Handlers under watch -/

/-- Two ways to answer requests agree in well-formed heaps, and keep these well-formed. -/
def Agree (ask ask' : Answerer) : Prop :=
  ∀ (r : Request) (w : World), w.heap.WellFormed → SteadyAt w (ask r) (ask' r)

variable {p : Processor} {ask ask' : Answerer} {w : World}

/-- A program that makes its requests in well-formed heaps does not notice the difference. -/
lemma outcome_run_of_agree (hask : Agree ask ask') (prog : Program α) (w : World)
    (hasked : ∀ w' ∈ prog.askedIn ask w, w'.heap.WellFormed) :
    (prog.run ask').outcome w = (prog.run ask).outcome w := by
  induction prog generalizing w with
  | done a => rfl
  | inspect next ih =>
      rw [Program.run, Program.run, outcome_bind_ok (outcome_heap w),
        outcome_bind_ok (outcome_heap w)]
      exact ih w.heap w hasked
  | change f next ih =>
      rw [Program.run, Program.run, outcome_bind_ok (outcome_modifyHeap f w),
        outcome_bind_ok (outcome_modifyHeap f w)]
      exact ih _ hasked
  | note t next ih =>
      rw [Program.run, Program.run, outcome_bind_ok (outcome_record _ w),
        outcome_bind_ok (outcome_record _ w)]
      exact ih _ hasked
  | ask r next ih =>
      have hr := (hask r w (hasked w (by simp [Program.askedIn]))).1
      rw [outcome_run_ask, outcome_run_ask, hr]
      cases hout : (ask r).outcome w with
      | none => rfl
      | some out =>
          refine ih out.1 out.2 fun w' hw' => hasked w' ?_
          simp [Program.askedIn, hout, hw']

lemma steadyAt_runHandler {r : Registration} {node : NodeId} (hask : Agree ask ask')
    (hr : LeavesWellFormedBy ask r.handler) (hwf : w.heap.WellFormed) (hnode : node < w.heap.size)
    (context : Option String) :
    SteadyAt w (runHandler ask r node context) (runHandler ask' r node context) := by
  have hservices : ∀ (r : Request) (w : World) out, w.heap.WellFormed →
      (ask r).outcome w = some out → Kept w out.2 :=
    fun r w out hwf hout => (hask r w hwf).2 out hout
  rw [runHandler, runHandler]
  refine SteadyAt.heap_bind ?_
  refine SteadyAt.bind (SteadyAt.record hwf _) fun _ w₁ hout _ => ?_
  rw [outcome_record, Option.some.injEq, Prod.mk.injEq] at hout
  obtain ⟨-, rfl⟩ := hout
  obtain ⟨hasked, hkept⟩ := hr hservices
    { w with trace := w.trace ++ [.rendered r.label node (w.heap.tagName node) context] } node
    context hwf hnode
  refine SteadyAt.bind ⟨outcome_run_of_agree hask _ _ hasked, hkept⟩ fun result w₂ _ hk => ?_
  cases result with
  | ok answer => exact SteadyAt.pure hk.1 _
  | error e =>
      refine ⟨rfl, fun out hout => ?_⟩
      rw [outcome_throw, Option.some.injEq] at hout
      subst hout
      exact ⟨hk.1, le_rfl⟩

/-- The parent of an attached element is a node of the heap, and stays one. -/
lemma parent_lt_size {h h' : Heap} {node : NodeId} {place : Position}
    (hplace : h.position node = some place) (hsize : h.size ≤ h'.size) :
    place.parent < h'.size := by
  obtain ⟨as, bs, hch, -⟩ := children_of_position hplace
  exact lt_of_lt_of_le (lt_size_of_child (i := node) (by rw [hch]; simp)) hsize

/-- An element replaced leaves a well-formed heap. -/
lemma kept_replaceElement {r : Registration} {node : NodeId} (hask : Agree ask ask')
    (hr : LeavesWellFormedBy ask r.handler) (hwf : w.heap.WellFormed) (hnode : node < w.heap.size)
    {tag : String} {context : Option String} {out : Except Failure Unit × World}
    (hout : (p.replaceElement ask r tag node context).outcome w = some out) : Kept w out.2 := by
  have hrun := (steadyAt_runHandler hask hr hwf hnode context).2
  rw [replaceElement_eq, outcome_bind_ok (outcome_heap w)] at hout
  rcases outcome_bind_eq_some hout with ⟨answer, w₁, hanswer, hsplice⟩ | ⟨e, w₁, herror, rfl⟩
  · obtain ⟨hwf₁, hsize₁⟩ := hrun _ hanswer
    have hplaced := placed_splice hwf₁ (fun _ hplace => parent_lt_size hplace hsize₁) hsplice
    exact ⟨hplaced.wellFormed, hsize₁.trans hplaced.size_le⟩
  · exact hrun _ herror

/-! ### Nodes of the heap -/

lemma lt_size_of_element {h : Heap} {i : NodeId} (hi : (h.element? i).isSome) : i < h.size := by
  by_contra hlt
  rw [element?, content, node_of_size_le (Nat.le_of_not_lt hlt)] at hi
  simp at hi

/-- A node with a tag is an element, and so a node of the heap. -/
lemma lt_size_of_tagName {h : Heap} {i : NodeId} {tag : String} (htag : h.tagName i = some tag) :
    i < h.size := by
  refine lt_size_of_element ?_
  rw [tagName, Option.map_eq_some_iff] at htag
  obtain ⟨e, he, -⟩ := htag
  rw [he]
  rfl

/-- Elements of a class are nodes of the heap. -/
lemma lt_size_of_mem_withClass {h : Heap} {value : String} {root i : NodeId}
    (hi : i ∈ h.withClass value root) : i < h.size := by
  obtain ⟨-, hclass⟩ := of_mem_withClassTo hi
  refine lt_size_of_element ?_
  cases he : h.element? i with
  | none => simp [hasClass, attribute?, he] at hclass
  | some e => rfl

/-! ### A handler that does -/

lemma leavesWellFormedBy_newText (ask : Answerer) (text : String) :
    LeavesWellFormedBy ask (newText text) := by
  intro _ w node context hwf _
  refine ⟨by simp [newText, Program.askedIn], fun out hout => ?_⟩
  have hpush : ((newText text node context).run ask).outcome w
      = some (.ok (.ok (.tree w.heap.size)),
        { w with heap := w.heap.push { content := .text text } }) := rfl
  rw [hpush, Option.some.injEq] at hout
  subst hout
  exact ⟨hwf.push rfl rfl, by simp⟩

lemma leavesWellFormed_newText (p : Processor) (text : String) :
    p.LeavesWellFormed (newText text) :=
  fun _ => leavesWellFormedBy_newText _ text

end Processor

end RichText
