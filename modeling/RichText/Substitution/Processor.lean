import RichText.Content.Document
import RichText.Content.SelfClosing
import RichText.Substitution.Registry

/-!
Processing of content: elements substituted by what their handlers answer.

Content is processed in two passes over its document. The first goes down from the root: an
element whose tag is registered is rendered by its handler and replaced, and neither its
inside nor the replacement is entered. The second takes the registrations by class one
after the other; for each, the elements of that class are collected and those still in the
document are rendered and replaced.

* `Processor.runHandler`, `Processor.putReplacement`: one element rendered, and its
  replacement put in;
* `Processor.substituteAt`, `Processor.substituteClassed`: the passes;
* `Processor.guarded`: one more level of nesting, within the limit;
* `Processor.serve`: the services, given how further requests are answered;
* `Processor.answer`: the services as such.

Handlers can ask for services in turn, so that requests nest. `answer` is given the greatest
depth to which they may; the result is `none` if that is not enough, and does not depend on
the depth if it is.
-/

namespace RichText

/-- The options of a processor. -/
structure Options where
  /-- Whether faults in the markup of handlers are errors. -/
  strictFragments : Bool := true
  /-- The greatest number of levels of nesting, if there is one. -/
  maxNestingDepth : Option Nat := some 32
  /-- Whether the brackets of shortcode links are restored. -/
  restoreShortcodeUrls : Bool := true
  deriving DecidableEq, Repr, Inhabited

/-- What a processor is set up with. The context source gives the context of its n-th
consultation. -/
structure Processor where
  options : Options := {}
  registry : Registry := {}
  shortcodes : String → String := id
  context : Option (Nat → Option String) := none

/-- Something that happened during a run: a handler was run, or left a note. -/
inductive Event where
  | rendered (label : String) (node : NodeId) (tag context : Option String)
  | noted (s : String)
  deriving DecidableEq, Repr

/-- The state of a run: the nodes, the level of nesting, how often the context source has been
consulted, and what has happened so far. -/
structure World where
  heap : Heap := {}
  depth : Nat := 0
  lookups : Nat := 0
  trace : List Event := []
  deriving Repr, Inhabited

/-- A computation of the processor. What has changed before an error stays changed; `none` means
that requests nest too deep to be answered. -/
abbrev Run := ExceptT Failure (StateT World Option)

namespace Run

/-- The outcome of a computation in a state. -/
def outcome {α : Type} (x : Run α) (w : World) : Option (Except Failure α × World) :=
  x w

/-- The heap as it is. -/
def heap : Run Heap := do
  return (← get).heap

/-- Changes the heap. -/
def modifyHeap (f : Heap → Heap) : Run Unit :=
  modify fun w => { w with heap := f w.heap }

/-- Adds to what has happened. -/
def record (e : Event) : Run Unit :=
  modify fun w => { w with trace := w.trace ++ [e] }

/-- Builds trees from new nodes below a new container. -/
def plant (trees : List Tree) : Run NodeId := do
  let h ← heap
  let (h, root) := h.plant (.document trees)
  modifyHeap fun _ => h
  return root

end Run

/-- A way to answer requests. -/
abbrev Answerer := (r : Request) → Run r.Reply

/-- Runs a program, with the given answers to its requests. -/
def Program.run {α : Type} (ask : Answerer) : Program α → Run α
  | .done a => pure a
  | .inspect next => do (next (← Run.heap)).run ask
  | .change f next => do
      Run.modifyHeap f
      next.run ask
  | .note s next => do
      Run.record (.noted s)
      next.run ask
  | .ask r next => fun w =>
      match ask r w with
      | none => none
      | some (reply, w) => (next reply).run ask w

namespace Processor

/-! ### One element -/

/-- Reads markup into a fragment container. If fragments are strict, faults in it are charged to
`tag`. -/
def fragment (p : Processor) (tag markup : String) : Run NodeId := do
  let (nodes, errors) := readMarkup markup
  if p.options.strictFragments && !errors.isEmpty then
    throw (.malformedMarkup tag errors)
  Run.plant nodes

/-- Runs the handler of a registration on a node. -/
def runHandler (ask : Answerer) (r : Registration) (node : NodeId) (context : Option String) :
    Run Rendering := do
  Run.record (.rendered r.label node ((← Run.heap).tagName node) context)
  match ← (r.handler node context).run ask with
  | .ok s => return s
  | .error e => throw e

/-- Puts nodes in place of a node that stood at `anchor` before its handler ran: where it is, if
it has the same parent, and else at its former place. -/
def putInPlace (h : Heap) (node : NodeId) (anchor : Position) (nodes : List NodeId) : Heap :=
  if h.parent node = some anchor.parent then (h.replaceWith node nodes).1
  else h.insertAt anchor.parent anchor.index nodes

/-- Puts a replacement in place of a node that stood at `anchor` before its handler ran. A node
that was not attached is not replaced; an ancestor of it cannot be its replacement. -/
def putReplacement (tag : String) (node : NodeId) (anchor : Option Position)
    (replacement : NodeId) : Run Unit := do
  let h ← Run.heap
  let nodes := h.standIns replacement
  match anchor with
  | none => return ()
  | some anchor =>
      if nodes.any fun n => h.isAncestorOrSelf n anchor.parent then
        throw (.invalidReplacement tag)
      Run.modifyHeap fun h => putInPlace h node anchor nodes

/-- Renders an element and puts the answer of its handler in its place. -/
def replaceElement (p : Processor) (ask : Answerer) (r : Registration) (tag : String)
    (node : NodeId) (context : Option String) : Run Unit := do
  let anchor := (← Run.heap).position node
  match ← runHandler ask r node context with
  | .keep => return ()
  | .markup s => putReplacement tag node anchor (← p.fragment tag s)
  | .tree replacement => putReplacement tag node anchor replacement

/-! ### The passes -/

/-- Substitutes by tag at or below each of some nodes, in order. -/
def substituteEach (ask : Answerer) (context : Option String) : List NodeId → Run Unit
  | [] => return ()
  | i :: is => do
      let _ : Unit ← ask (.substituteAt i context)
      substituteEach ask context is

/-- Substitutes by tag among the children that a node has at the start. -/
def substituteBelow (ask : Answerer) (node : NodeId) (context : Option String) : Run Unit := do
  substituteEach ask context ((← Run.heap).children node)

/-- Substitutes by tag at or below a node. -/
def substituteAt (p : Processor) (ask : Answerer) (node : NodeId) (context : Option String) :
    Run Unit := do
  let tag := (← Run.heap).tagName node
  match tag.bind fun t => (p.registry.forTag? t).map fun r => (t, r) with
  | some (tag, r) => p.replaceElement ask r tag node context
  | none => substituteBelow ask node context

/-- Renders those of some nodes that are still below `root`, in order, for one registration. -/
def substituteMatches (p : Processor) (ask : Answerer) (r : Registration) (root : NodeId)
    (context : Option String) : List NodeId → Run Unit
  | [] => return ()
  | i :: is => do
      let h ← Run.heap
      if h.isAncestorOrSelf root i then
        p.replaceElement ask r ((h.tagName i).getD "") i context
      substituteMatches p ask r root context is

/-- Substitutes by class at or below a node, for some registrations in order. -/
def substituteRegistered (p : Processor) (ask : Answerer) (root : NodeId)
    (context : Option String) : List Registration → Run Unit
  | [] => return ()
  | r :: rs => do
      p.substituteMatches ask r root context ((← Run.heap).withClass r.value root)
      substituteRegistered p ask root context rs

/-- Substitutes by class at or below a node. -/
def substituteClassed (p : Processor) (ask : Answerer) (root : NodeId) (context : Option String) :
    Run Unit :=
  p.substituteRegistered ask root context p.registry.classes

/-! ### Content -/

/-- Runs a computation one level of nesting deeper, if the limit allows it. The level is left
however the computation ends. -/
def guarded {α : Type} (p : Processor) (x : Run α) : Run α := fun w =>
  match p.options.maxNestingDepth.filter (· < w.depth + 1) with
  | some limit => some (.error (.nestingTooDeep limit), w)
  | none =>
      (x { w with depth := w.depth + 1 }).map fun (result, w) =>
        (result, { w with depth := w.depth - 1 })

/-- Consults the context source. -/
def lookupContext (p : Processor) : Run (Option String) :=
  match p.context with
  | none => return none
  | some source => do
      modify fun w => { w with lookups := w.lookups + 1 }
      return source (← get).lookups

/-- Substitutes custom elements in content. -/
def substitute (p : Processor) (ask : Answerer) (content : String) : Run String :=
  p.guarded do
    let context ← p.lookupContext
    let expanded := expandTags (fun tag => (p.registry.forTag? tag).isSome) content
    let root ← Run.plant (readContent expanded)
    p.substituteAt ask root context
    p.substituteClassed ask root context
    let serialized := (← Run.heap).markup root
    return recoverContent serialized content p.options.restoreShortcodeUrls

/-- The services, given how further requests are answered. -/
def serve (p : Processor) (ask : Answerer) : Answerer
  | .parse content => do return p.shortcodes (← p.substitute ask content)
  | .substitute content => p.substitute ask content
  | .fragment markup => p.fragment "#fragment" markup
  | .substituteBelow node context => p.guarded (substituteBelow ask node context)
  | .substituteAt node context => p.substituteAt ask node context
  | .substituteClassed node context => p.substituteClassed ask node context

/-- The services, with requests nested to a given depth at most. -/
def answer (p : Processor) : Nat → Answerer
  | 0, _ => fun _ => none
  | fuel + 1, r => p.serve (answer p fuel) r

end Processor

end RichText
