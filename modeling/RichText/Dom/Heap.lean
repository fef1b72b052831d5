import RichText.Html.Name

/-!
A heap of nodes that know their parent and their children.

Nodes have an identity (`NodeId`), so that they can be moved and edited while others
refer to them. A node stores its parent and its children side by side; the operations
of `RichText.Dom.Mutation` keep the two in step. A `document` node is the root of a
parsed document, or a fragment container: a holder for sibling nodes.

* `Heap.node`, `Heap.children`, `Heap.parent`: reading;
* `Heap.push`: a new node, whose identity is the size of the heap before;
* `Heap.update`: one node changed.
-/

namespace RichText

/-- The identity of a node in a heap. -/
abbrev NodeId := Nat

/-- What a node is, apart from its place. -/
inductive Content where
  | document
  | element (e : Element)
  | text (s : String)
  | comment (s : String)
  | doctype (name publicId systemId : String)
  deriving DecidableEq, Repr, Inhabited

/-- A node with its place. A template made from markup keeps its contents below a document
node of their own, named by `contents`. -/
structure Node where
  content : Content
  parent : Option NodeId := none
  children : List NodeId := []
  contents : Option NodeId := none
  deriving Repr, Inhabited

/-- The nodes made so far. No identity is given twice, not even when a node has died. -/
structure Heap where
  nodes : Array Node := #[]
  deriving Repr, Inhabited

namespace Heap

/-- The number of nodes, which is the identity of the node made next. -/
def size (h : Heap) : Nat :=
  h.nodes.size

/-- The node of the given identity; an empty container where there is none. -/
def node (h : Heap) (i : NodeId) : Node :=
  h.nodes.getD i { content := .document }

/-- What the node is. -/
def content (h : Heap) (i : NodeId) : Content :=
  (h.node i).content

/-- The children of a node, in order. -/
def children (h : Heap) (i : NodeId) : List NodeId :=
  (h.node i).children

/-- The parent of a node, if it is attached. -/
def parent (h : Heap) (i : NodeId) : Option NodeId :=
  (h.node i).parent

/-- The heap with a node added. -/
def push (h : Heap) (n : Node) : Heap :=
  { nodes := h.nodes.push n }

/-- The heap with one node changed. -/
def update (h : Heap) (i : NodeId) (f : Node → Node) : Heap :=
  { nodes := h.nodes.modify i f }

/-- A new node makes the heap larger by one. -/
@[simp] theorem size_push (h : Heap) (n : Node) : (h.push n).size = h.size + 1 := by
  simp [push, size]

/-- An update makes no node. -/
@[simp] theorem size_update (h : Heap) (i : NodeId) (f : Node → Node) :
    (h.update i f).size = h.size := by
  simp [update, size]

/-- A new node is found under the next identity, and all others are as before. -/
theorem node_push (h : Heap) (n : Node) (i : NodeId) :
    (h.push n).node i = if i = h.size then n else h.node i := by
  simp only [node, push, size, Array.getD_eq_getD_getElem?, Array.getElem?_push]
  split <;> simp

/-- An update shows at the node updated and nowhere else. -/
theorem node_update (h : Heap) (i j : NodeId) (f : Node → Node) :
    (h.update i f).node j = if i = j ∧ j < h.size then f (h.node j) else h.node j := by
  simp only [node, update, size, Array.getD_eq_getD_getElem?, Array.getElem?_modify]
  by_cases hj : j < h.nodes.size <;> by_cases hi : i = j <;> simp [hi, hj]

/-! ### What a node is -/

/-- Whether the node is a document or a fragment container. -/
def isContainer (h : Heap) (i : NodeId) : Bool :=
  match h.content i with
  | .document => true
  | _ => false

/-- The element that the node is, if it is one. -/
def element? (h : Heap) (i : NodeId) : Option Element :=
  match h.content i with
  | .element e => some e
  | _ => none

/-- The name of the node's tag, if it is an element. -/
def tagName (h : Heap) (i : NodeId) : Option String :=
  (h.element? i).map (·.name)

/-- The value of an attribute of the node. -/
def attribute? (h : Heap) (i : NodeId) (name : String) : Option String :=
  (h.element? i).bind (·.get? name)

/-- The attributes of the node as names and values, in source order. -/
def attributes (h : Heap) (i : NodeId) : List (String × String) :=
  match h.element? i with
  | some e => e.attributes.map fun a => (a.name, a.value)
  | none => []

/-- Whether the `class` attribute of the node is exactly `value`. -/
def hasClass (h : Heap) (i : NodeId) (value : String) : Bool :=
  h.attribute? i "class" = some value

/-- A short name for the kind of node: the tag of an element, else a word. -/
def label (h : Heap) (i : NodeId) : String :=
  match h.content i with
  | .element e => e.name
  | .document => "#document"
  | .text _ => "#text"
  | .comment _ => "#comment"
  | .doctype .. => "#doctype"

end Heap

end RichText
