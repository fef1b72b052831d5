import RichText.Dom.Heap

/-!
Questions about the place of a node.

* `Heap.position`: the parent of a node and its index among the children;
* `Heap.isAncestorOrSelf`: whether a node is met on the way up from another;
* `Heap.withClass`: the elements of a given class at or below a node, in document order;
* `Heap.standIns`: what stands for a node when it is put into a tree.

The way up and the way down are cut off at a depth beyond the number of nodes, which no
tree without cycles reaches.
-/

namespace RichText

/-- The place of a node among the children of its parent. -/
structure Position where
  parent : NodeId
  index : Nat
  deriving DecidableEq, Repr

namespace Heap

/-- The place of a node, if it is attached. -/
def position (h : Heap) (i : NodeId) : Option Position := do
  let p ← h.parent i
  let index ← (h.children p).idxOf? i
  return { parent := p, index }

/-- Whether `target` is met within `steps` nodes on the way up from a node. -/
def climbsTo (h : Heap) (target : NodeId) : Nat → NodeId → Bool
  | 0, _ => false
  | steps + 1, i =>
      i == target ||
        match h.parent i with
        | some p => h.climbsTo target steps p
        | none => false

/-- Whether `candidate` is the node `i` or one of its ancestors. -/
def isAncestorOrSelf (h : Heap) (candidate i : NodeId) : Bool :=
  h.climbsTo candidate (h.size + 1) i

mutual

/-- The elements of class `value` at or below a node, down to a depth. -/
def withClassTo (h : Heap) (value : String) : Nat → NodeId → List NodeId
  | 0, _ => []
  | depth + 1, i =>
      (if h.hasClass i value then [i] else [])
        ++ h.withClassBelow value depth (h.children i)

/-- The elements of class `value` at or below each of some nodes, down to a depth. -/
def withClassBelow (h : Heap) (value : String) (depth : Nat) : List NodeId → List NodeId
  | [] => []
  | i :: is => h.withClassTo value depth i ++ h.withClassBelow value depth is

end

/-- The elements whose class is exactly `value` at or below a node, in document order. -/
def withClass (h : Heap) (value : String) (i : NodeId) : List NodeId :=
  h.withClassTo value (h.size + 1) i

/-- What stands for a node when it is put into a tree: the children of a container, and any
other node itself. -/
def standIns (h : Heap) (i : NodeId) : List NodeId :=
  if h.isContainer i then h.children i else [i]

end Heap

end RichText
