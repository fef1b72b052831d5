import RichText.Dom.Planting
import RichText.Substitution.Failure

/-!
Handlers: what is put in place of an element.

A handler is a program over the node heap. It can look at the heap and change it, leave
notes, and ask the processor that runs it for a service (`Request`): to process content or
markup, or to substitute below a node. It ends in a `Rendering` or in an error.

`Program` is the type of such programs: a tree of the steps that can happen, each followed
by a program for every answer. Programs are put one after the other by `Program.bind`.
-/

namespace RichText

/-- What a handler answers for an element. -/
inductive Rendering where
  /-- The element stays as it is. -/
  | keep
  /-- Markup, read as a fragment, goes in place of the element. -/
  | markup (s : String)
  /-- A node goes in place of the element; of a container, its children. -/
  | tree (node : NodeId)
  deriving DecidableEq, Repr, Inhabited

/-- The services of the processor. -/
inductive Request where
  /-- Substitutes custom elements and then shortcodes in content. -/
  | parse (content : String)
  /-- Substitutes custom elements in content. -/
  | substitute (content : String)
  /-- Reads markup into a fragment container. -/
  | fragment (markup : String)
  /-- Substitutes among the children of a node, as one more level of nesting. -/
  | substituteBelow (node : NodeId) (context : Option String)
  /-- Substitutes by tag at or below a node. -/
  | substituteAt (node : NodeId) (context : Option String)
  /-- Substitutes by class at or below a node. -/
  | substituteClassed (node : NodeId) (context : Option String)
  deriving DecidableEq, Repr

/-- What a service gives back. -/
def Request.Reply : Request → Type
  | parse _ | substitute _ => String
  | fragment _ => NodeId
  | substituteBelow .. | substituteAt .. | substituteClassed .. => Unit

/-- A program over the node heap and the services of the processor. -/
inductive Program (α : Type) : Type where
  | done (a : α)
  | inspect (next : Heap → Program α)
  | change (f : Heap → Heap) (next : Program α)
  | note (s : String) (next : Program α)
  | ask (r : Request) (next : Except Failure r.Reply → Program α)

namespace Program

/-- Goes on with a further program when the first has ended. -/
def bind {α β : Type} : Program α → (α → Program β) → Program β
  | .done a, f => f a
  | .inspect next, f => .inspect fun h => (next h).bind f
  | .change g next, f => .change g (next.bind f)
  | .note s next, f => .note s (next.bind f)
  | .ask r next, f => .ask r fun reply => (next reply).bind f

instance : Monad Program where
  pure := .done
  bind := bind

/-- A program that goes on with nothing is as it was. -/
theorem bind_done {α : Type} (p : Program α) : p.bind .done = p := by
  induction p with
  | done => rfl
  | inspect next ih => simp [bind, ih]
  | change f next ih => simp [bind, ih]
  | note s next ih => simp [bind, ih]
  | ask r next ih => simp [bind, ih]

/-- It makes no difference how programs one after the other are put together. -/
theorem bind_assoc {α β γ : Type} (p : Program α) (f : α → Program β) (g : β → Program γ) :
    (p.bind f).bind g = p.bind fun a => (f a).bind g := by
  induction p with
  | done => rfl
  | inspect next ih => simp [bind, ih]
  | change f next ih => simp [bind, ih]
  | note s next ih => simp [bind, ih]
  | ask r next ih => simp [bind, ih]

instance : LawfulMonad Program :=
  LawfulMonad.mk' Program bind_done (fun _ _ => rfl) bind_assoc

/-- The heap as it is. -/
def heap : Program Heap :=
  .inspect .done

/-- Changes the heap. -/
def modifyHeap (f : Heap → Heap) : Program Unit :=
  .change f (.done ())

/-- Makes a new node without parent. -/
def newNode (content : Content) : Program NodeId :=
  .inspect fun h => .change (·.push { content := content }) (.done h.size)

/-- Asks the processor for a service. -/
def request (r : Request) : Program (Except Failure r.Reply) :=
  .ask r .done

end Program

/-- What answers for the elements of a registration: a program for the element and for the
context of the call, if there is one. -/
abbrev Handler := NodeId → Option String → Program (Except Failure Rendering)

end RichText
