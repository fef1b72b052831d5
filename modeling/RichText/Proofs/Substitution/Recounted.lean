import Mathlib.Control.Monad.Writer
import RichText.Proofs.Substitution.Nesting

/-!
Runs recounted.

A run changes a state, and its trace tells which handlers were run, but not by which call. Here
the processor tells what happens as it happens: what happens during a call or within a handler is
told as a part of it (`Happening`). Nothing else is different from what the processor does.

* `Happening`: what can happen, with what happens within it; `Happening.begun`: all of it, in the
  order in which it began;
* `Recount`: computations that tell what happens;
* `Processor.recountServe`, `Processor.recountAnswer`: the services of the processor, recounted;
* `Recount.outcome_bind` and the lemmas beside it: the outcome of a recount from those of its parts.
-/

namespace RichText

variable {α β γ : Type}

/-! ### Happenings -/

/-- What happens during calls: a handler leaves a note, the context source is consulted, a handler
runs, or a service is asked for, and lets the call in or not. What happens while a handler runs or a
call is answered is inside. -/
inductive Happening where
  | noted (s : String)
  | consulted (number : ℕ) (context : Option String)
  | ran (label : String) (node : NodeId) (tag context : Option String) (inside : List Happening)
  | called (r : Request) (letIn : Bool) (inside : List Happening)

/-- Whether a service processes content. -/
def Request.isContent : Request → Bool
  | parse _ | substitute _ => true
  | fragment _ | substituteBelow .. | substituteAt .. | substituteClassed .. => false

namespace Happening

mutual

/-- A happening and those within it, in the order in which they began. -/
def begun : Happening → List Happening
  | noted s => [noted s]
  | consulted number context => [consulted number context]
  | ran label node tag context inside => ran label node tag context inside :: begunAll inside
  | called r letIn inside => called r letIn inside :: begunAll inside

/-- Some happenings and those within them, in the order in which they began. -/
def begunAll : List Happening → List Happening
  | [] => []
  | h :: hs => begun h ++ begunAll hs

end

/-- What the trace tells of a happening. -/
def event? : Happening → Option Event
  | noted s => some (.noted s)
  | ran label node tag context _ => some (.rendered label node tag context)
  | consulted .. | called .. => none

/-- The number of a consultation. -/
def number? : Happening → Option ℕ
  | consulted number _ => some number
  | noted _ | ran .. | called .. => none

/-- Whether content is let in to be processed. -/
def isEntry : Happening → Bool
  | called r letIn _ => r.isContent && letIn
  | noted _ | consulted .. | ran .. => false

/-- What the trace tells of some happenings and those within them. -/
def events (hs : List Happening) : List Event :=
  (begunAll hs).filterMap event?

/-- The numbers of the consultations among some happenings and those within them. -/
def numbers (hs : List Happening) : List ℕ :=
  (begunAll hs).filterMap number?

/-- How often content is let in among some happenings and those within them. -/
def entries (hs : List Happening) : ℕ :=
  (begunAll hs).countP isEntry

end Happening

/-! ### Computations that tell what happens -/

/-- A computation of the processor that tells what happens. -/
abbrev Recount := ExceptT Failure (StateT World (WriterT (List Happening) Option))

namespace Recount

/-- The outcome of a computation in a state, and what has happened. -/
def outcome (x : Recount α) (w : World) :
    Option ((Except Failure α × World) × List Happening) :=
  x w

/-- A computation during which nothing happens that is told. -/
def silent (x : Run α) : Recount α := fun w =>
  (x.outcome w).map fun out => (out, ([] : List Happening))

/-- Tells that something has happened. -/
def tell (h : Happening) : Recount Unit := fun w =>
  some ((.ok (), w), [h])

/-- Tells what happens during a computation as parts of one happening. -/
def within (whole : List Happening → Happening) (x : Recount α) : Recount α := fun w =>
  (x.outcome w).map fun (out, hs) => (out, [whole hs])

/-- The result of a computation, also if it is an error. -/
def settled (x : Recount α) : Recount (Except Failure α) := fun w =>
  (x.outcome w).map fun ((result, w), hs) => ((.ok result, w), hs)

/-- The heap as it is. -/
def heap : Recount Heap :=
  silent Run.heap

end Recount

/-- A way to answer requests that tells what happens. -/
abbrev Recounter := (r : Request) → Recount r.Reply

/-- Runs a program, with the given answers to its requests. -/
def Program.recount (ask : Recounter) : Program α → Recount α
  | .done a => pure a
  | .inspect next => do (next (← Recount.heap)).recount ask
  | .change f next => do
      Recount.silent (Run.modifyHeap f)
      next.recount ask
  | .note s next => do
      Recount.silent (Run.record (.noted s))
      Recount.tell (.noted s)
      next.recount ask
  | .ask r next => do (next (← (ask r).settled)).recount ask

namespace Processor

section Services

variable (p : Processor) (ask : Recounter)

/-- Whether the limit lets a call in. -/
def letsIn (w : World) (r : Request) : Bool :=
  !r.opensLevel || p.options.maxNestingDepth.all (w.depth < ·)

/-- The handler of a registration. -/
def recountHandler (r : Registration) (node : NodeId) (context : Option String) :
    Recount Rendering := do
  let tag := (← Recount.heap).tagName node
  Recount.within (.ran r.label node tag context) do
    Recount.silent (Run.record (.rendered r.label node tag context))
    match ← (r.handler node context).recount ask with
    | .ok s => return s
    | .error e => throw e

/-- An element replaced. -/
def recountElement (r : Registration) (tag : String) (node : NodeId) (context : Option String) :
    Recount Unit := do
  let anchor := (← Recount.heap).position node
  let answer ← recountHandler ask r node context
  Recount.silent (p.splice tag node anchor answer)

/-- Substitution by tag at or below each of some nodes. -/
def recountEach (context : Option String) : List NodeId → Recount Unit
  | [] => return ()
  | i :: is => do
      let _ : Unit ← ask (.substituteAt i context)
      recountEach context is

/-- Substitution by tag among children. -/
def recountBelow (node : NodeId) (context : Option String) : Recount Unit := do
  recountEach ask context ((← Recount.heap).children node)

/-- Substitution by tag at or below a node. -/
def recountAt (node : NodeId) (context : Option String) : Recount Unit := do
  let tag := (← Recount.heap).tagName node
  match tag.bind fun t => (p.registry.forTag? t).map fun r => (t, r) with
  | some (tag, r) => p.recountElement ask r tag node context
  | none => recountBelow ask node context

/-- Substitution among the matches of a registration. -/
def recountMatches (r : Registration) (root : NodeId) (context : Option String) :
    List NodeId → Recount Unit
  | [] => return ()
  | i :: is => do
      let h ← Recount.heap
      if h.isAncestorOrSelf root i then
        p.recountElement ask r ((h.tagName i).getD "") i context
      recountMatches r root context is

/-- Substitution by class for some registrations. -/
def recountRegistered (root : NodeId) (context : Option String) :
    List Registration → Recount Unit
  | [] => return ()
  | r :: rs => do
      p.recountMatches ask r root context ((← Recount.heap).withClass r.value root)
      recountRegistered root context rs

/-- A further level of nesting, if the limit allows it. -/
def recountGuarded (x : Recount α) : Recount α := fun w =>
  match p.options.maxNestingDepth.filter (· < w.depth + 1) with
  | some limit => some ((.error (.nestingTooDeep limit), w), [])
  | none =>
      (x.outcome { w with depth := w.depth + 1 }).map fun ((result, w), hs) =>
        ((result, { w with depth := w.depth - 1 }), hs)

/-- The context source consulted. -/
def recountContext : Recount (Option String) := do
  let context ← Recount.silent p.lookupContext
  if p.context.isSome then
    Recount.tell (.consulted (← get).lookups context)
  return context

/-- Substitution in content. -/
def recountSubstitute (content : String) : Recount String :=
  p.recountGuarded do
    let context ← p.recountContext
    let expanded := expandTags (fun tag => (p.registry.forTag? tag).isSome) content
    let root ← Recount.silent (Run.plant (readContent expanded))
    p.recountAt ask root context
    p.recountRegistered ask root context p.registry.classes
    let serialized := (← Recount.heap).markup root
    return recoverContent serialized content p.options.restoreShortcodeUrls

/-- What the services do. -/
def recountService : Recounter
  | .parse content => do return p.shortcodes (← p.recountSubstitute ask content)
  | .substitute content => p.recountSubstitute ask content
  | .fragment markup => Recount.silent (p.fragment "#fragment" markup)
  | .substituteBelow node context => p.recountGuarded (recountBelow ask node context)
  | .substituteAt node context => p.recountAt ask node context
  | .substituteClassed node context => p.recountRegistered ask node context p.registry.classes

/-- The services, given how further requests are answered: what they do is told as a part of the
call. -/
def recountServe : Recounter := fun r => do
  let letIn := p.letsIn (← get) r
  Recount.within (.called r letIn) (p.recountService ask r)

end Services

/-- The services, with requests nested to a given depth at most. -/
def recountAnswer (p : Processor) : ℕ → Recounter
  | 0, _ => fun _ => none
  | fuel + 1, r => p.recountServe (recountAnswer p fuel) r

end Processor

/-! ### Outcomes -/

namespace Recount

/-- What happens in a second part follows what happens in the first. -/
def onward (k : γ → Option ((Except Failure β × World) × List Happening)) :
    γ × List Happening → Option ((Except Failure β × World) × List Happening) :=
  fun out => (k out.1).map fun out' => (out'.1, out.2 ++ out'.2)

/-- A recount goes on from the outcome of its first part, unless that is an error. -/
lemma outcome_bind (x : Recount α) (f : α → Recount β) (w : World) :
    (x >>= f).outcome w = (x.outcome w).bind (onward fun out =>
      match out with
      | (.ok a, w') => (f a).outcome w'
      | (.error e, w') => some ((.error e, w'), [])) := by
  have hbind : (x >>= f).outcome w = (x.outcome w).bind (onward fun out =>
      (ExceptT.bindCont f out.1 : StateT World (WriterT (List Happening) Option) _) out.2) :=
    rfl
  rw [hbind]
  congr 2
  funext ⟨r, w'⟩
  cases r <;> rfl

/-- The result changed at the end. -/
lemma outcome_bind_pure (x : Recount α) (g : α → β) (w : World) :
    (x >>= fun a => pure (g a)).outcome w
      = (x.outcome w).map fun out => ((out.1.1.map g, out.1.2), out.2) := by
  rw [outcome_bind]
  cases x.outcome w with
  | none => rfl
  | some out =>
      obtain ⟨⟨result, w'⟩, hs⟩ := out
      have hnil : hs ++ [] = hs := List.append_nil hs
      cases result <;>
        exact congrArg (fun hs => some ((_, w'), hs)) hnil

lemma outcome_settled_bind (x : Recount α) (f : Except Failure α → Recount β) (w : World) :
    (x.settled >>= f).outcome w
      = (x.outcome w).bind (onward fun out => (f out.1).outcome out.2) := by
  have hsettled : x.settled.outcome w = (x.outcome w).map fun out =>
      ((.ok out.1.1, out.1.2), out.2) := rfl
  rw [outcome_bind, hsettled, Option.bind_map]
  rfl

lemma outcome_silent (x : Run α) (w : World) :
    (silent x).outcome w = (x.outcome w).map fun out => (out, []) := rfl

lemma outcome_silent_bind {x : Run α} {f : α → Recount β} {w w' : World} {a : α}
    (hx : x.outcome w = some (.ok a, w')) :
    (silent x >>= f).outcome w = (f a).outcome w' := by
  rw [outcome_bind, outcome_silent, hx, Option.map_some, Option.bind_some, onward]
  exact Option.map_id' ..

lemma outcome_tell_bind (h : Happening) (f : Unit → Recount β) (w : World) :
    (tell h >>= f).outcome w = ((f ()).outcome w).map fun out => (out.1, h :: out.2) := by
  rw [outcome_bind]
  rfl

lemma outcome_within (whole : List Happening → Happening) (x : Recount α) (w : World) :
    (within whole x).outcome w = (x.outcome w).map fun out => (out.1, [whole out.2]) := rfl

end Recount

namespace Processor

variable {p : Processor} {w : World}

lemma outcome_recountServe (p : Processor) (ask : Recounter) (r : Request) (w : World) :
    (p.recountServe ask r).outcome w = ((p.recountService ask r).outcome w).map fun out =>
      (out.1, [.called r (p.letsIn w r) out.2]) := by
  have hget : (get : Recount World).outcome w = some ((.ok w, w), []) := rfl
  rw [recountServe, Recount.outcome_bind, hget, Option.bind_some, Recount.onward]
  dsimp only
  rw [Recount.outcome_within, Option.map_map]
  rfl

/-- The number of a consultation is that of the consultations so far. -/
lemma outcome_recountContext {source : ℕ → Option String} (hsource : p.context = some source)
    (w : World) : p.recountContext.outcome w
      = some ((.ok (source (w.lookups + 1)), { w with lookups := w.lookups + 1 }),
        [.consulted (w.lookups + 1) (source (w.lookups + 1))]) := by
  rw [recountContext, lookupContext, hsource]
  rfl

/-- A call that the limit lets in. -/
lemma outcome_recountGuarded (x : Recount α) (hallows : p.Allows w) :
    (p.recountGuarded x).outcome w = (x.outcome { w with depth := w.depth + 1 }).map fun out =>
      ((out.1.1, { out.1.2 with depth := out.1.2.depth - 1 }), out.2) := by
  simp only [Recount.outcome, recountGuarded, exceeded_of_allows hallows]

/-- A call that the limit refuses. -/
lemma outcome_recountGuarded_of_limit (x : Recount α) {limit : ℕ}
    (hmax : p.options.maxNestingDepth = some limit) (hdepth : limit ≤ w.depth) :
    (p.recountGuarded x).outcome w = some ((.error (.nestingTooDeep limit), w), []) := by
  simp only [Recount.outcome, recountGuarded, exceeded_of_limit hmax hdepth]

lemma letsIn_iff {r : Request} : p.letsIn w r = true ↔ (r.opensLevel = true → p.Allows w) := by
  rw [letsIn, Allows]
  cases r.opensLevel <;> cases p.options.maxNestingDepth <;> simp

end Processor

end RichText
