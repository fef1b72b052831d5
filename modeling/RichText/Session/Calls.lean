import RichText.Session.Describe
import RichText.Session.Script
import RichText.Text.Find

/-!
Sessions: processors set up, called and copied.

A `Session` holds processors, each with the number of times its context source has been
consulted. A `Call` works on one of them; its `Answer` tells the result and what has happened
during the call. Registrations and consultations last from call to call.
-/

namespace RichText

/-- Where the context of a call comes from: nowhere, a fixed text, a text with the number of the
consultation, or a source that has none to give. -/
inductive ContextSetup where
  | absent
  | fixed (s : String)
  | counting (s : String)
  | empty
  deriving DecidableEq, Repr, Inhabited

/-- The context source that is set up. -/
def ContextSetup.source : ContextSetup → Option (Nat → Option String)
  | absent => none
  | fixed s => some fun _ => some s
  | counting s => some fun n => some (s ++ toString n)
  | empty => some fun _ => none

/-- A handler made from a script, and what it is registered for. -/
structure HandlerSetup where
  kind : MatchKind
  value : String
  label : String
  steps : List Step
  deriving Inhabited

/-- What a processor is set up with. Shortcodes are texts and what they are replaced by. -/
structure Setup where
  options : Options := {}
  shortcodes : List (String × String) := []
  context : ContextSetup := .absent
  handlers : List HandlerSetup := []
  deriving Inhabited

/-- Replaces shortcodes, one kind after the other. -/
def replaceShortcodes (pairs : List (String × String)) (s : String) : String :=
  String.ofList (pairs.foldl (fun s (part, substitute) =>
    replaceAll part.toList substitute.toList s) s.toList)

/-- The registry with one more handler. -/
def Registry.add (r : Registry) (s : HandlerSetup) : Registry :=
  r.register s.kind s.value s.label (handlerOf s.label s.steps)

/-- The processor that is set up. -/
def Setup.processor (s : Setup) : Processor :=
  { options := s.options
    registry := s.handlers.foldl Registry.add {}
    shortcodes := replaceShortcodes s.shortcodes
    context := s.context.source }

/-- Something to be done with a processor. -/
inductive Call where
  | parse (content : String)
  | substitute (content : String)
  | parseFragment (markup : String)
  | register (s : HandlerSetup)
  | clear
  | size
  | isEmpty
  | hasTag (tag : String)
  | classes
  | registrations
  | options
  | describe
  | describeRegistry
  | render (tag : String)
  | fork (s : Setup)
  | script (steps : List Step) (watch : List String)
  deriving Inhabited

/-- The result of a call. -/
inductive Value where
  | nothing
  | text (s : String)
  | number (n : Nat)
  | flag (b : Bool)
  | texts (ss : List String)
  | registrations (rs : List (MatchKind × String))
  | options (o : Options)
  | reports (rs : List StepReport)

/-- Why a call has no result. -/
inductive CallError where
  /-- The substitution has failed. -/
  | failed (e : Failure)
  /-- Requests nest too deep to be answered. -/
  | exhausted
  /-- There is no such processor. -/
  | noProcessor
  deriving DecidableEq, Repr, Inhabited

/-- The result of a call, and what has happened during it. -/
structure Answer where
  result : Except CallError Value
  trace : List Event := []

/-- A processor in use. -/
structure Seat where
  processor : Processor
  lookups : Nat := 0

/-- The processors in use. -/
structure Session where
  seats : List Seat

namespace Seat

/-- The depth to which requests of handlers may nest. -/
def requestDepth : Nat := 1000000

/-- Runs a computation with the state that lasts. -/
def perform {α : Type} (s : Seat) (x : Run α) (toValue : World → α → Value) : Answer × Seat :=
  match x.outcome { lookups := s.lookups } with
  | none => ({ result := .error .exhausted }, s)
  | some (result, w) =>
      let result := match result with
        | .ok a => .ok (toValue w a)
        | .error e => .error (.failed e)
      ({ result, trace := w.trace }, { s with lookups := w.lookups })

/-- Asks the processor for a service. -/
def request (s : Seat) (r : Request) : Run r.Reply :=
  s.processor.answer requestDepth r

/-- Runs a program. -/
def runProgram {α : Type} (s : Seat) (p : Program α) : Run α :=
  p.run (s.processor.answer requestDepth)

/-- Runs the handler of a tag on a new element without attributes. -/
def renderNew (s : Seat) (r : Registration) (tag : String) : Run Rendering := do
  let node ← s.runProgram (Program.newNode (.element { name := tag }))
  Processor.runHandler (s.processor.answer requestDepth) r node none

/-- Changes the registry and tells its size. -/
def setRegistry (s : Seat) (r : Registry) : Answer × Seat :=
  ({ result := .ok (.number r.size) }, { s with processor := { s.processor with registry := r } })

/-- The answer of a call that changes nothing. -/
def value (s : Seat) (v : Value) : Answer × Seat :=
  ({ result := .ok v }, s)

/-- Does what a call asks for; copies are made by the session. -/
def call (s : Seat) : Call → Answer × Seat
  | .parse content =>
      s.perform (s.request (.parse content)) fun _ (r : String) => .text r
  | .substitute content =>
      s.perform (s.request (.substitute content)) fun _ (r : String) => .text r
  | .parseFragment markup =>
      s.perform (s.request (.fragment markup)) fun w (i : NodeId) => .text (w.heap.markup i)
  | .register h => s.setRegistry (s.processor.registry.add h)
  | .clear => s.setRegistry {}
  | .size => s.value (.number s.processor.registry.size)
  | .isEmpty => s.value (.flag s.processor.registry.isEmpty)
  | .hasTag tag => s.value (.flag (s.processor.registry.forTag? tag).isSome)
  | .classes => s.value (.texts (s.processor.registry.classes.map (·.value)))
  | .registrations =>
      s.value (.registrations (s.processor.registry.toList.map fun r => (r.kind, r.value)))
  | .options => s.value (.options s.processor.options)
  | .describe => s.value (.text s.processor.describe)
  | .describeRegistry => s.value (.text s.processor.registry.describe)
  | .render tag =>
      match s.processor.registry.forTag? tag with
      | none => s.value .nothing
      | some r => s.perform (s.renderNew r tag) fun w a => .text (a.describe w.heap)
  | .fork _ => s.value .nothing
  | .script steps watch => s.perform (s.runProgram (runScript watch steps {})) fun _ => .reports

end Seat

namespace Session

/-- A session with one processor. -/
def ofSetup (s : Setup) : Session :=
  { seats := [{ processor := s.processor }] }

/-- Does what a call on one of the processors asks for. A copy takes the registry over and is set
up anew otherwise. -/
def call (s : Session) (index : Nat) (c : Call) : Answer × Session :=
  match s.seats[index]? with
  | none => ({ result := .error .noProcessor }, s)
  | some seat =>
      match c with
      | .fork setup =>
          let copy : Seat :=
            { processor := { setup.processor with registry := seat.processor.registry } }
          ({ result := .ok (.number s.seats.length) }, { seats := s.seats ++ [copy] })
      | c =>
          let (answer, seat) := seat.call c
          (answer, { seats := s.seats.set index seat })

/-- Makes calls in order and collects their answers. -/
def callAll (s : Session) : List (Nat × Call) → List Answer
  | [] => []
  | (index, c) :: cs =>
      let (answer, s) := s.call index c
      answer :: s.callAll cs

end Session

/-- Runs a script with a new processor, without context. -/
def runAlone (steps : List Step) (watch : List String) : Answer :=
  ((Session.ofSetup {}).call 0 (.script steps watch)).1

end RichText
