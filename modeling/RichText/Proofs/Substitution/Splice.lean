import RichText.Proofs.Substitution.Runs

/-!
One element: its handler run, and the answer put in its place.

`Processor.splice` is what happens to the answer of a handler; an element is replaced by running
its handler and splicing the answer (`replaceElement_eq`).
-/

namespace RichText

namespace Processor

open Run

variable {p : Processor} {w w' : World}

/-- Puts the answer of a handler in the place of a node that stood at `anchor` before. -/
def splice (p : Processor) (tag : String) (node : NodeId) (anchor : Option Position) :
    Rendering → Run Unit
  | .keep => return ()
  | .markup s => do putReplacement tag node anchor (← p.fragment tag s)
  | .tree replacement => putReplacement tag node anchor replacement

lemma replaceElement_eq (p : Processor) (ask : Answerer) (r : Registration) (tag : String)
    (node : NodeId) (context : Option String) :
    p.replaceElement ask r tag node context
      = (do
          let anchor := (← Run.heap).position node
          p.splice tag node anchor (← runHandler ask r node context)) :=
  rfl

/-- Splicing respects a relation that every step respects. -/
lemma StepRelation.relates_splice {R : World → World → Prop} (hR : StepRelation R) (tag : String)
    (node : NodeId) (anchor : Option Position) (answer : Rendering) :
    Relates R (p.splice tag node anchor answer) := by
  cases answer with
  | keep => exact hR.relates_pure _
  | markup s =>
      rw [splice]
      exact hR.relates_bind (hR.relates_fragment tag s) fun _ =>
        hR.relates_putReplacement tag node anchor _
  | tree j => exact hR.relates_putReplacement tag node anchor j

/-! ### Handlers -/

/-- The state in which the handler of a registration starts. -/
def begun (w : World) (r : Registration) (node : NodeId) (context : Option String) : World :=
  { w with trace := w.trace ++ [.rendered r.label node (w.heap.tagName node) context] }

/-- A handler that ends gives its answer or its error. -/
lemma yields_runHandler {r : Registration} {node : NodeId} {context : Option String}
    {result : Except Failure Rendering}
    (hy : p.Yields (fun ask => (r.handler node context).run ask) (begun w r node context)
      (.ok result, w')) :
    p.Yields (fun ask => runHandler ask r node context) w (result, w') := by
  obtain ⟨n, hn⟩ := hy
  refine ⟨n, fun m hm => ?_⟩
  have hrun : ((r.handler node context).run (p.answer m)).outcome (begun w r node context)
      = some (.ok result, w') := hn m hm
  rw [begun] at hrun
  dsimp only
  rw [runHandler, outcome_bind_ok (outcome_heap w), outcome_bind_ok (outcome_record _ w),
    outcome_bind_ok hrun]
  cases result <;> rfl

/-- What a handler has given comes from the end of its program. -/
lemma exists_outcome_run {ask : Answerer} {r : Registration} {node : NodeId}
    {context : Option String} {result : Except Failure Rendering}
    (hout : (runHandler ask r node context).outcome w = some (result, w')) :
    ∃ out, ((r.handler node context).run ask).outcome (begun w r node context) = some out
      ∧ out.2 = w' ∧ ∀ answer, result = .ok answer → out.1 = .ok (.ok answer) := by
  rw [runHandler, outcome_bind_ok (outcome_heap w), outcome_bind_ok (outcome_record _ w)] at hout
  rcases outcome_bind_eq_some hout with ⟨given, w₁, hrun, hend⟩ | ⟨e, w₁, hrun, heq⟩
  · refine ⟨_, hrun, ?_⟩
    cases given with
    | ok answer =>
        obtain ⟨rfl, rfl⟩ := by simpa [outcome_pure] using hend
        exact ⟨rfl, fun _ h => by rw [Except.ok.inj h]⟩
    | error e =>
        obtain ⟨rfl, rfl⟩ := by simpa [outcome_throw] using hend
        exact ⟨rfl, fun _ h => by simp at h⟩
  · obtain ⟨rfl, rfl⟩ := Prod.mk.inj heq
    exact ⟨_, hrun, rfl, fun _ h => by simp at h⟩

/-- An element is replaced by what splicing the answer of its handler does. -/
lemma yields_replaceElement {r : Registration} {tag : String} {node : NodeId}
    {context : Option String} {answer : Rendering} {out : Except Failure Unit × World}
    (hy : p.Yields (fun ask => runHandler ask r node context) w (.ok answer, w'))
    (hsplice : (p.splice tag node (w.heap.position node) answer).outcome w' = some out) :
    p.Yields (fun ask => p.replaceElement ask r tag node context) w out := by
  obtain ⟨n, hn⟩ := hy
  refine ⟨n, fun m hm => ?_⟩
  dsimp only
  rw [replaceElement_eq, outcome_bind_ok (outcome_heap w), outcome_bind_ok (hn m hm), hsplice]

/-- An element whose handler fails is not replaced. -/
lemma yields_replaceElement_error {r : Registration} {tag : String} {node : NodeId}
    {context : Option String} {e : Failure}
    (hy : p.Yields (fun ask => runHandler ask r node context) w (.error e, w')) :
    p.Yields (fun ask => p.replaceElement ask r tag node context) w (.error e, w') := by
  obtain ⟨n, hn⟩ := hy
  refine ⟨n, fun m hm => ?_⟩
  dsimp only
  rw [replaceElement_eq, outcome_bind_ok (outcome_heap w), outcome_bind_error (hn m hm)]

/-! ### Answers -/

/-- Markup is refused if it has faults and fragments are strict, and else planted. -/
lemma outcome_fragment (p : Processor) (tag markup : String) (w : World) :
    (p.fragment tag markup).outcome w
      = if p.options.strictFragments && !(readMarkup markup).2.isEmpty then
          some (.error (.malformedMarkup tag (readMarkup markup).2), w)
        else (plant (readMarkup markup).1).outcome w := by
  rw [fragment]
  dsimp only
  split
  · exact outcome_bind_error (outcome_throw ..)
  · rfl

/-- A replacement is refused if it is above the place, and else put in; a node that was not
attached is not replaced. -/
lemma outcome_putReplacement (tag : String) (node : NodeId) (anchor : Option Position)
    (replacement : NodeId) (w : World) :
    (putReplacement tag node anchor replacement).outcome w
      = match anchor with
        | none => some (.ok (), w)
        | some place =>
            if (w.heap.standIns replacement).any fun n => w.heap.isAncestorOrSelf n place.parent then
              some (.error (.invalidReplacement tag), w)
            else
              some (.ok (), { w with
                heap := putInPlace w.heap node place (w.heap.standIns replacement) }) := by
  rw [putReplacement, outcome_bind_ok (outcome_heap w)]
  cases anchor with
  | none => rfl
  | some place =>
      dsimp only
      split
      · exact outcome_bind_error (outcome_throw ..)
      · rfl

/-- A handler that answers with a new text. -/
def newText (text : String) : Handler := fun _ _ =>
  .inspect fun h => .change (·.push { content := .text text }) (.done (.ok (.tree h.size)))

end Processor

end RichText
