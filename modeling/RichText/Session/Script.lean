import RichText.Substitution.Processor

/-!
Scripts over the node heap.

A script is a list of steps over nodes and texts that have names. Most steps are an
operation on the heap; some ask the processor for a service. `Step.run` gives the program of a
step; from steps, `handlerOf` makes a handler and `runScript` a program that reports the
result of every step.

A step can name a node or a text that has not been set (`StepError.unset`). In a handler that
is a failure of the handler.
-/

namespace RichText

/-- A text to be computed. -/
inductive Expr where
  | literal (s : String)
  | attribute (node name : String)
  | text (node : String)
  | tag (node : String)
  | markup (node : String)
  | context (otherwise : String)
  | variable (name : String)
  | parse (e : Expr)
  | substitute (e : Expr)
  | upper (e : Expr)
  | concat (es : List Expr)
  deriving Repr, Inhabited

/-- A step of a script. Nodes and texts are given by name. -/
inductive Step where
  | newFragment (as : String)
  | createElement (tag : String) (attributes : List (String × Expr)) (as : String)
  | createText (text : Expr) (as : String)
  | readContent (content : Expr) (as : String)
  | parseFragment (markup : Expr) (as : String)
  | parent (n as : String)
  | child (n : String) (index : Nat) (as : String)
  | isFragment (n : String)
  | tagName (n : String)
  | attributes (n : String)
  | textContent (n : String)
  | getAttribute (n name : String)
  | hasClass (n class_ : String)
  | setAttribute (n name : String) (value : Expr)
  | children (n : String)
  | standIns (n : String)
  | position (n : String)
  | isAncestorOrSelf (candidate n : String)
  | detach (n : String)
  | appendChild (n c : String)
  | moveChildren (source target : String)
  | insertAt (n : String) (index : Nat) (nodes : List String)
  | replaceWith (n : String) (nodes : List String)
  | replaceByStandIns (n replacement : String)
  | same (a b : String)
  | serialize (n : String)
  | dump (n : String)
  | substituteBelow (n : String)
  | substitute (n : String)
  | substituteClassed (n : String)
  | assign (value : Expr) (as : String)
  | log (value : Expr)
  | branch (value : Expr) (is : String) (yes no : List Step)
  | markup (value : Expr)
  | tree (n : String)
  | keep
  | fail (tag message : Expr)
  deriving Inhabited

/-- The result of a step. -/
inductive StepResult where
  | nothing
  | flag (b : Bool)
  | text (s : String)
  | texts (ss : List String)
  | pairs (ps : List (String × String))
  | position (parent : String) (index : Nat)
  | tree (t : Tree)
  deriving Repr, Inhabited

/-- Why a step has no result. -/
inductive StepError where
  | unset (name : String)
  | failed (e : Failure)
  deriving DecidableEq, Repr, Inhabited

/-- Why a script stops: a step has no result, or the handler it belongs to has answered. -/
inductive Halt where
  | error (e : StepError)
  | answer (s : Rendering)
  deriving DecidableEq, Repr, Inhabited

/-- The named nodes and texts. -/
structure Names where
  nodes : List (String × NodeId) := []
  texts : List (String × String) := []
  deriving Repr, Inhabited

namespace Names

/-- The node of a name. -/
def node? (ns : Names) (name : String) : Option NodeId :=
  ns.nodes.lookup name

/-- The text of a name. -/
def text? (ns : Names) (name : String) : Option String :=
  ns.texts.lookup name

/-- Gives a name to a node, or takes it away. -/
def setNode (ns : Names) (name : String) (node : Option NodeId) : Names :=
  let others := ns.nodes.filter (·.1 ≠ name)
  { ns with nodes := (node.map fun i => (name, i)).toList ++ others }

/-- Gives a name to a text. -/
def setText (ns : Names) (name s : String) : Names :=
  { ns with texts := (name, s) :: ns.texts.filter (·.1 ≠ name) }

end Names

/-- A piece of a script: a program that has names and can stop. -/
abbrev StepProgram := ExceptT Halt (StateT Names Program)

namespace StepProgram

/-- The node of a name. -/
def node (name : String) : StepProgram NodeId := do
  match (← get).node? name with
  | some i => return i
  | none => throw (.error (.unset name))

/-- The nodes of several names. -/
def nodes : List String → StepProgram (List NodeId)
  | [] => return []
  | name :: names => do return (← node name) :: (← nodes names)

/-- The heap as it is. -/
def heap : StepProgram Heap :=
  ExceptT.lift (StateT.lift Program.heap)

/-- Changes the heap. -/
def modifyHeap (f : Heap → Heap) : StepProgram Unit :=
  ExceptT.lift (StateT.lift (Program.modifyHeap f))

/-- Changes the heap and gives a result. -/
def updateHeap {α : Type} (f : Heap → Heap × α) : StepProgram α := do
  let h ← heap
  modifyHeap fun h => (f h).1
  return (f h).2

/-- Makes a new node. -/
def newNode (content : Content) : StepProgram NodeId :=
  ExceptT.lift (StateT.lift (Program.newNode content))

/-- Leaves a note. -/
def note (s : String) : StepProgram Unit :=
  ExceptT.lift (StateT.lift (.note s (.done ())))

/-- Asks the processor for a service; an error of it stops the script. -/
def request (r : Request) : StepProgram r.Reply := do
  match ← ExceptT.lift (StateT.lift (Program.request r)) with
  | .ok reply => return reply
  | .error e => throw (.error (.failed e))

/-- Gives a name to a node and results in the label of the node; without a node, takes the name
away. -/
def setNode (name : String) (node : Option NodeId) : StepProgram StepResult := do
  modify fun ns => ns.setNode name node
  match node with
  | some i => return .text ((← heap).label i)
  | none => return .nothing

end StepProgram

mutual

/-- Computes a text. -/
def Expr.eval (context : Option String) : Expr → StepProgram String
  | .literal s => return s
  | .attribute n name => do
      let i ← StepProgram.node n
      return ((← StepProgram.heap).attribute? i name).getD ""
  | .text n => do
      let i ← StepProgram.node n
      return (← StepProgram.heap).textContent i
  | .tag n => do
      let i ← StepProgram.node n
      return ((← StepProgram.heap).tagName i).getD ""
  | .markup n => do
      let i ← StepProgram.node n
      return (← StepProgram.heap).markup i
  | .context otherwise => return context.getD otherwise
  | .variable name => do
      match (← get).text? name with
      | some s => return s
      | none => throw (.error (.unset name))
  | .parse e => do StepProgram.request (.parse (← e.eval context))
  | .substitute e => do StepProgram.request (.substitute (← e.eval context))
  | .upper e => do return (← e.eval context).toUpper
  | .concat es => Expr.evalConcat context es

/-- Computes texts and puts them one behind the other. -/
def Expr.evalConcat (context : Option String) : List Expr → StepProgram String
  | [] => return ""
  | e :: es => do
      let s ← e.eval context
      return s ++ (← Expr.evalConcat context es)

end

/-- Computes the attributes of an element, later ones of the same name included. -/
def evalAttributes (context : Option String) : List (String × Expr) → StepProgram (List Attribute)
  | [] => return []
  | (name, e) :: rest => do
      let value ← e.eval context
      return { name := name, value } :: (← evalAttributes context rest)

/-- The text of an optional text. -/
def StepResult.ofText? : Option String → StepResult
  | some s => .text s
  | none => .nothing

open StepProgram in
mutual

/-- Runs a step. -/
def Step.run (context : Option String) : Step → StepProgram StepResult
  | .newFragment as => do setNode as (← newNode .document)
  | .createElement name values as => do
      let values ← evalAttributes context values
      setNode as (← newNode (.element { name, attributes := values }))
  | .createText value as => do setNode as (← newNode (.text (← value.eval context)))
  | .readContent value as => do
      let trees := RichText.readContent (← value.eval context)
      setNode as (← updateHeap fun h => h.plant (.document trees))
  | .parseFragment value as => do
      let i : NodeId ← request (.fragment (← value.eval context))
      setNode as i
  | .parent n as => do
      let i ← node n
      setNode as ((← heap).parent i)
  | .child n index as => do
      let i ← node n
      setNode as ((← heap).children i)[index]?
  | .isFragment n => do
      let i ← node n
      return .flag ((← heap).isContainer i)
  | .tagName n => do
      let i ← node n
      return .ofText? ((← heap).tagName i)
  | .attributes n => do
      let i ← node n
      return .pairs ((← heap).attributes i)
  | .textContent n => do
      let i ← node n
      return .text ((← heap).textContent i)
  | .getAttribute n name => do
      let i ← node n
      return .ofText? ((← heap).attribute? i name)
  | .hasClass n class_ => do
      let i ← node n
      return .flag ((← heap).hasClass i class_)
  | .setAttribute n name value => do
      let i ← node n
      let value ← value.eval context
      modifyHeap fun h => h.setAttribute i name value
      return .nothing
  | .children n => do
      let i ← node n
      let h ← heap
      return .texts ((h.children i).map h.label)
  | .standIns n => do
      let i ← node n
      let h ← heap
      return .texts ((h.standIns i).map h.label)
  | .position n => do
      let i ← node n
      let h ← heap
      match h.position i with
      | some p => return .position (h.label p.parent) p.index
      | none => return .nothing
  | .isAncestorOrSelf candidate n => do
      let c ← node candidate
      let i ← node n
      return .flag ((← heap).isAncestorOrSelf c i)
  | .detach n => do
      let i ← node n
      modifyHeap fun h => h.detach i
      return .nothing
  | .appendChild n c => do
      let p ← node n
      let i ← node c
      modifyHeap fun h => h.appendChild p i
      return .nothing
  | .moveChildren source target => do
      let s ← node source
      let t ← node target
      modifyHeap fun h => h.moveChildren s t
      return .nothing
  | .insertAt n index names => do
      let p ← node n
      let is ← nodes names
      modifyHeap fun h => h.insertAt p index is
      return .nothing
  | .replaceWith n names => do
      let i ← node n
      let is ← nodes names
      return .flag (← updateHeap fun h => h.replaceWith i is)
  | .replaceByStandIns n replacement => do
      let i ← node n
      let r ← node replacement
      return .flag (← updateHeap fun h => h.replaceWith i (h.standIns r))
  | .same a b => do
      let i ← node a
      let j ← node b
      return .flag (i == j)
  | .serialize n => do
      let i ← node n
      return .text ((← heap).markup i)
  | .dump n => do
      let i ← node n
      return .tree ((← heap).tree i)
  | .substituteBelow n => do
      let i ← node n
      let _ : Unit ← request (.substituteBelow i context)
      return .nothing
  | .substitute n => do
      let i ← node n
      let _ : Unit ← request (.substituteAt i context)
      return .nothing
  | .substituteClassed n => do
      let i ← node n
      let _ : Unit ← request (.substituteClassed i context)
      return .nothing
  | .assign value as => do
      let s ← value.eval context
      modify fun ns => ns.setText as s
      return .text s
  | .log value => do
      note (← value.eval context)
      return .nothing
  | .branch value is yes no => do
      let s ← value.eval context
      if s = is then Step.runAll context yes else Step.runAll context no
      return .nothing
  | .markup value => do throw (.answer (.markup (← value.eval context)))
  | .tree n => do throw (.answer (.tree (← node n)))
  | .keep => throw (.answer .keep)
  | .fail tag message => do
      let tag ← tag.eval context
      throw (.error (.failed (.handler tag (← message.eval context))))

/-- Runs steps in order, up to the first that has no result. -/
def Step.runAll (context : Option String) : List Step → StepProgram Unit
  | [] => return ()
  | s :: ss => do
      let _ ← s.run context
      Step.runAll context ss

end

/-- Runs a piece of a script with the given names. -/
def StepProgram.start {α : Type} (x : StepProgram α) (ns : Names) :
    Program (Except Halt α × Names) :=
  x ns

/-- The answer of a handler whose steps have ended in some way. -/
def answerOf (label : String) : Except Halt Unit → Except Failure Rendering
  | .ok () => .ok .keep
  | .error (.answer s) => .ok s
  | .error (.error (.failed e)) => .error e
  | .error (.error (.unset name)) => .error (.handler label ("unset " ++ name))

/-- The handler that runs steps, with the element named `node`. -/
def handlerOf (label : String) (steps : List Step) : Handler := fun node context => do
  let (result, _) ← (Step.runAll context steps).start { nodes := [("node", node)] }
  return answerOf label result

/-- The report on one step of a script: its result, and the nodes watched as they are after it. -/
structure StepReport where
  result : Except StepError StepResult
  watched : List (Option Tree)

/-- The report of a step that has ended in some way. Outside of a handler there is nobody to
answer to. -/
def resultOf : Except Halt StepResult → Except StepError StepResult
  | .ok r => .ok r
  | .error (.answer _) => .ok .nothing
  | .error (.error e) => .error e

/-- Runs steps in order, each whatever has become of those before it, and reports on them. -/
def runScript (watch : List String) : List Step → Names → Program (List StepReport)
  | [], _ => return []
  | s :: ss, ns => do
      let (result, ns) ← (s.run none).start ns
      let h ← Program.heap
      let watched := watch.map fun name => (ns.node? name).map h.tree
      let reports ← runScript watch ss ns
      return { result := resultOf result, watched } :: reports

end RichText
