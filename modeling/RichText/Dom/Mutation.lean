import RichText.Dom.Query

/-!
Moving nodes.

* `Heap.detach`: a node taken out of its parent;
* `Heap.appendChild`, `Heap.insertAt`: nodes put below a parent, taken out of their
  former places first;
* `Heap.moveChildren`: all children of a node moved to the end of another;
* `Heap.replaceWith`: a node replaced by others, unless that would put a node below
  itself.
-/

namespace RichText

namespace Heap

/-- The heap with the parent of a node recorded. -/
def setParent (h : Heap) (i : NodeId) (p : Option NodeId) : Heap :=
  h.update i fun n => { n with parent := p }

/-- The heap with the children of a node recorded. -/
def setChildren (h : Heap) (i : NodeId) (cs : List NodeId) : Heap :=
  h.update i fun n => { n with children := cs }

/-- The heap with the same parent recorded for several nodes. -/
def setParents (h : Heap) (is : List NodeId) (p : NodeId) : Heap :=
  is.foldl (fun h i => h.setParent i (some p)) h

/-- Takes a node out of its parent; a node without parent stays as it is. -/
def detach (h : Heap) (i : NodeId) : Heap :=
  match h.parent i with
  | none => h
  | some p =>
      let h := h.setParent i none
      h.setChildren p ((h.children p).filter (· ≠ i))

/-- Takes several nodes out of their parents. -/
def detachAll (h : Heap) (is : List NodeId) : Heap :=
  is.foldl detach h

/-- Puts a node behind the children of `p`, taking it out of its former place. -/
def appendChild (h : Heap) (p i : NodeId) : Heap :=
  let h := (h.detach i).setParent i (some p)
  h.setChildren p (h.children p ++ [i])

/-- Moves all children of a node, in order, behind the children of another. -/
def moveChildren (h : Heap) (source target : NodeId) : Heap :=
  let moved := h.children source
  let h := (h.setChildren source []).setParents moved target
  h.setChildren target (h.children target ++ moved)

/-- The index at which nodes go in front of `next`; without such a sibling, the given
index or the end. -/
def insertionIndex (siblings : List NodeId) (next : Option NodeId) (index : Nat) : Nat :=
  match next.bind fun n => siblings.idxOf? n with
  | some i => i
  | none => min index siblings.length

/-- Puts nodes below `p` in front of the child at `index`, or at the end, taking them out of
their former places. The place follows that child if it moves because one of the nodes
stood before it. -/
def insertAt (h : Heap) (p : NodeId) (index : Nat) (is : List NodeId) : Heap :=
  let next := (h.children p)[index]?
  let h := h.detachAll is
  let siblings := h.children p
  let start := insertionIndex siblings next index
  (h.setParents is p).setChildren p (siblings.take start ++ is ++ siblings.drop start)

/-- Replaces a node by others and says whether it did. Nothing changes if the node has no
parent, or if the parent or one of its ancestors is among the others. A node replaced by
itself stays where it is. -/
def replaceWith (h : Heap) (i : NodeId) (replacements : List NodeId) : Heap × Bool :=
  match h.position i with
  | none => (h, false)
  | some { parent := p, index } =>
      if replacements = [i] then (h, true)
      else if replacements.any fun r => h.isAncestorOrSelf r p then (h, false)
      else
        let h := (h.setChildren p ((h.children p).eraseIdx index)).setParent i none
        (h.insertAt p index replacements, true)

/-- Sets an attribute of a node that is an element. -/
def setAttribute (h : Heap) (i : NodeId) (name value : String) : Heap :=
  match h.element? i with
  | some e => h.update i fun n => { n with content := .element (e.set name value) }
  | none => h

end Heap

end RichText
