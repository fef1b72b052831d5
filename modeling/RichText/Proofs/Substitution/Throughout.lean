import RichText.Proofs.Substitution.Splice

/-!
What holds throughout a run.

The outcome of a run tells of the heap at its end. Here a property is asked of all heaps that a run
comes to: when content has been read, when markup has been read for a handler, when a handler has
made a change, and when an element has been replaced. What other heaps could have led to, or other
replies to requests, makes no difference.

* `Run.Each`: what holds of each of some steps when it begins;
* `Program.Throughout`: a property of the heaps that a program comes to;
* `Processor.ServedThroughout`: the same for a service, by the parts of a pass;
* `Processor.Throughout`: the same for a request, by recursion on the depth of requests.
-/

namespace RichText

variable {α ι : Type}

namespace Run

/-- What holds of each of some steps in the state in which it begins, as long as none has failed. -/
def Each (step : ι → Run Unit) (good : ι → World → Prop) : List ι → World → Prop
  | [], _ => True
  | i :: is, w => good i w ∧ ∀ w', (step i).outcome w = some (.ok (), w') → Each step good is w'

end Run

section Properties

variable (P : Heap → Prop) (ask : Answerer) (asked : Request → World → Prop)

/-- A property of all heaps that a program comes to by its changes, from a state on. What holds of
its requests says `asked`. -/
def Program.Throughout : Program α → World → Prop
  | .done _, _ => True
  | .inspect next, w => (next w.heap).Throughout w
  | .change f next, w => P (f w.heap) ∧ next.Throughout { w with heap := f w.heap }
  | .note s next, w => next.Throughout { w with trace := w.trace ++ [.noted s] }
  | .ask r next, w =>
      asked r w ∧ ∀ out, (ask r).outcome w = some out → (next out.1).Throughout out.2

namespace Processor

open Heap Run

variable (p : Processor)

/-- A property of the heaps that come up while an element is replaced. -/
def ReplacedThroughout (r : Registration) (tag : String) (node : NodeId) (context : Option String)
    (w : World) : Prop :=
  (r.handler node context).Throughout P ask asked (begun w r node context)
    ∧ ∀ out, (p.replaceElement ask r tag node context).outcome w = some out → P out.2.heap

/-- A property of the heaps that come up in the pass by tag among children of a node. -/
def BelowThroughout (node : NodeId) (context : Option String) (w : World) : Prop :=
  Each (fun i => ask (.substituteAt i context)) (fun i => asked (.substituteAt i context))
    (w.heap.children node) w

/-- A property of the heaps that come up in the pass by tag at or below a node. -/
def AtThroughout (node : NodeId) (context : Option String) (w : World) : Prop :=
  match (w.heap.tagName node).bind fun t => (p.registry.forTag? t).map fun r => (t, r) with
  | some (tag, r) => p.ReplacedThroughout P ask asked r tag node context w
  | none => BelowThroughout ask asked node context w

/-- One match of a registration by class, rendered if it is still below `root`. -/
def substituteMatch (r : Registration) (root : NodeId) (context : Option String) (i : NodeId) :
    Run Unit := do
  let h ← Run.heap
  if h.isAncestorOrSelf root i then
    p.replaceElement ask r ((h.tagName i).getD "") i context

/-- The matches of a registration by class. -/
def substituteAllMatches (root : NodeId) (context : Option String) (r : Registration) :
    Run Unit := do
  p.substituteMatches ask r root context ((← Run.heap).withClass r.value root)

/-- A property of the heaps that come up while the matches of a registration are rendered. -/
def MatchesThroughout (root : NodeId) (context : Option String) (r : Registration) (w : World) :
    Prop :=
  Each (p.substituteMatch ask r root context)
    (fun i w => w.heap.isAncestorOrSelf root i = true →
      p.ReplacedThroughout P ask asked r ((w.heap.tagName i).getD "") i context w)
    (w.heap.withClass r.value root) w

/-- A property of the heaps that come up in the pass by class. -/
def ClassedThroughout (root : NodeId) (context : Option String) (w : World) : Prop :=
  Each (p.substituteAllMatches ask root context)
    (p.MatchesThroughout P ask asked root context) p.registry.classes w

/-- A property of the heaps that come up while content is processed, if it is let in. -/
def ContentThroughout (content : String) (w : World) : Prop :=
  p.Allows w → ∀ context w₁,
    p.lookupContext.outcome { w with depth := w.depth + 1 } = some (.ok context, w₁) →
      let expanded := expandTags (fun tag => (p.registry.forTag? tag).isSome) content
      ∀ root w₂, (Run.plant (readContent expanded)).outcome w₁ = some (.ok root, w₂) →
        P w₂.heap ∧ p.AtThroughout P ask asked root context w₂
          ∧ ∀ w₃, (p.substituteAt ask root context).outcome w₂ = some (.ok (), w₃) →
            p.ClassedThroughout P ask asked root context w₃

/-- A property of the heaps that come up during a service. -/
def ServedThroughout : Request → World → Prop
  | .parse content, w => p.ContentThroughout P ask asked content w
  | .substitute content, w => p.ContentThroughout P ask asked content w
  | .fragment markup, w => ∀ out, (p.fragment "#fragment" markup).outcome w = some out → P out.2.heap
  | .substituteBelow node context, w =>
      p.Allows w → BelowThroughout ask asked node context { w with depth := w.depth + 1 }
  | .substituteAt node context, w => p.AtThroughout P ask asked node context w
  | .substituteClassed node context, w => p.ClassedThroughout P ask asked node context w

/-- **A property of all heaps that a request comes to**, with requests nested to a given depth at
most. -/
def Throughout : ℕ → Request → World → Prop
  | 0, _, _ => True
  | n + 1, r, w => p.ServedThroughout P (p.answer n) (Throughout n) r w

end Processor

end Properties

/-! ### Passes step by step -/

namespace Processor

open Run

variable {p : Processor} {ask : Answerer}

lemma substituteEach_eq (context : Option String) (is : List NodeId) :
    substituteEach ask context is = is.forM fun i => ask (.substituteAt i context) := by
  induction is with
  | nil => rfl
  | cons i is ih =>
      rw [substituteEach, ih]
      rfl

lemma substituteMatches_eq (r : Registration) (root : NodeId) (context : Option String)
    (is : List NodeId) :
    p.substituteMatches ask r root context is
      = is.forM (p.substituteMatch ask r root context) := by
  induction is with
  | nil => rfl
  | cons i is ih =>
      rw [substituteMatches, ih]
      show _ = p.substituteMatch ask r root context i >>= _
      rw [substituteMatch, bind_assoc]
      congr 1
      funext h
      split <;> rfl

lemma substituteRegistered_eq (root : NodeId) (context : Option String) (rs : List Registration) :
    p.substituteRegistered ask root context rs
      = rs.forM (p.substituteAllMatches ask root context) := by
  induction rs with
  | nil => rfl
  | cons r rs ih =>
      rw [substituteRegistered, ih]
      show _ = p.substituteAllMatches ask root context r >>= _
      rw [substituteAllMatches, bind_assoc]

end Processor

end RichText
