import RichText.Dom.Mutation
import RichText.Html.Tree
import RichText.Html.Serialize

/-!
Trees in a heap.

* `Heap.tree`, `Heap.forest`: the tree at a node, and the trees of its children;
* `Heap.plant`: a tree built from new nodes, not attached to anything;
* `Heap.markup`, `Heap.textContent`: the text forms of what is below a node.
-/

namespace RichText

namespace Heap

/-- The tree at a node, down to a depth. -/
def treeTo (h : Heap) : Nat → NodeId → Tree
  | 0, _ => .document []
  | depth + 1, i =>
      let children := (h.children i).map (h.treeTo depth)
      match h.content i with
      | .document => .document children
      | .text s => .text s
      | .comment s => .comment s
      | .doctype name publicId systemId => .doctype name publicId systemId
      | .element e =>
          match (h.node i).contents with
          | none => .element e children
          | some c => .template e.attributes children ((h.children c).map (h.treeTo depth))

/-- The tree at a node. -/
def tree (h : Heap) (i : NodeId) : Tree :=
  h.treeTo (h.size + 1) i

/-- The trees of the children of a node. -/
def forest (h : Heap) (i : NodeId) : List Tree :=
  (h.children i).map (h.treeTo h.size)

/-- The markup of what is below a node. -/
def markup (h : Heap) (i : NodeId) : String :=
  String.ofList (serialize (h.forest i))

/-- The text of a node and of everything below it. -/
def textContent (h : Heap) (i : NodeId) : String :=
  (h.tree i).textContent

mutual

/-- The heap with a tree built from new nodes, and the identity of its root, which has no
parent. -/
def plant (h : Heap) : Tree → Heap × NodeId
  | .text s => (h.push { content := .text s }, h.size)
  | .comment s => (h.push { content := .comment s }, h.size)
  | .doctype name publicId systemId =>
      (h.push { content := .doctype name publicId systemId }, h.size)
  | .document cs =>
      let root := h.size
      ((h.push { content := .document }).plantBelow root cs, root)
  | .element e cs =>
      let root := h.size
      ((h.push { content := .element e }).plantBelow root cs, root)
  | .template as cs contents =>
      let root := h.size
      let inner := h.size + 1
      let h := h.push { content := .element (templateElement as), contents := some inner }
      let h := (h.push { content := .document }).plantBelow inner contents
      (h.plantBelow root cs, root)

/-- The heap with trees built from new nodes behind the children of a node. -/
def plantBelow (h : Heap) (p : NodeId) : List Tree → Heap
  | [] => h
  | t :: ts =>
      let (h, i) := h.plant t
      (h.appendChild p i).plantBelow p ts

end

end Heap

end RichText
