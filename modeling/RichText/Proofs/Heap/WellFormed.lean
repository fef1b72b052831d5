import Mathlib.Data.Finset.Card
import Mathlib.Data.List.Nodup
import Mathlib.Logic.Relation
import RichText.Dom.Query

/-!
Well-formed heaps.

In a well-formed heap the child lists and the parents agree, no node stands in two places, and
no node is below itself (`Heap.WellFormed`). The upward and the downward view of such a heap
are the same (`isAncestorOrSelf_iff`): the way up, though cut off beyond the number of nodes,
meets exactly the nodes from which the start can be reached through child lists.

* `lt_size_of_parent`, `WellFormed.lt_size_of_mem`: nodes in child lists are nodes of the heap;
* `exists_chain_of_climbsTo_eq_false`: a way up that has been cut off has passed that many nodes;
* `isAncestorOrSelf_iff`: ancestors are the nodes from which a node is reached;
* `WellFormed.position_eq_some`: the place of a child, with the siblings on both sides.
-/

namespace RichText

namespace Heap

variable {h : Heap} {a c i j p q : NodeId}

/-- Whether `i` is a child of `p`. -/
def Child (h : Heap) (p i : NodeId) : Prop := i ∈ h.children p

/-- Whether `i` is `a` or below it. -/
def Reaches (h : Heap) (a i : NodeId) : Prop := Relation.ReflTransGen h.Child a i

/-- **A well-formed heap**: no child list names a node twice, a node has the parent `p` exactly
if it is a child of `p` (so that it is in one list at most), and no node is below itself. -/
structure WellFormed (h : Heap) : Prop where
  nodup : ∀ p, (h.children p).Nodup
  parent_iff : ∀ i p, h.parent i = some p ↔ i ∈ h.children p
  acyclic : ∀ i, ¬ Relation.TransGen h.Child i i

/-! ### Nodes outside the heap -/

lemma node_of_size_le (hi : h.size ≤ i) : h.node i = { content := .document } := by
  have hi' : h.nodes.size ≤ i := hi
  rw [node, Array.getD_eq_getD_getElem?, Array.getElem?_eq_none hi']
  rfl

lemma lt_size_of_parent (hp : h.parent i = some p) : i < h.size := by
  by_contra hi
  rw [parent, node_of_size_le (Nat.le_of_not_lt hi)] at hp
  simp at hp

lemma lt_size_of_child (hc : i ∈ h.children p) : p < h.size := by
  by_contra hp
  rw [children, node_of_size_le (Nat.le_of_not_lt hp)] at hc
  simp at hc

lemma wellFormed_empty : ({} : Heap).WellFormed where
  nodup p := by simp [children, node_of_size_le (h := {}) (Nat.zero_le p)]
  parent_iff i p := by
    simp [children, parent, node_of_size_le (h := {}) (Nat.zero_le p),
      node_of_size_le (h := {}) (Nat.zero_le i)]
  acyclic i hi := by
    obtain ⟨j, -, hj⟩ := Relation.TransGen.tail'_iff.mp hi
    simp [Child, children, node_of_size_le (h := {}) (Nat.zero_le j)] at hj

namespace WellFormed

lemma parent_of_mem (hwf : h.WellFormed) (hc : i ∈ h.children p) : h.parent i = some p :=
  (hwf.parent_iff i p).mpr hc

lemma mem_of_parent (hwf : h.WellFormed) (hp : h.parent i = some p) : i ∈ h.children p :=
  (hwf.parent_iff i p).mp hp

/-- A child is a node of the heap. -/
lemma lt_size_of_mem (hwf : h.WellFormed) (hc : i ∈ h.children p) : i < h.size :=
  lt_size_of_parent (hwf.parent_of_mem hc)

lemma ne_of_mem (hwf : h.WellFormed) (hc : i ∈ h.children p) : i ≠ p := by
  rintro rfl
  exact hwf.acyclic i (Relation.TransGen.single hc)

/-- A child does not reach its parent. -/
lemma not_reaches_parent (hwf : h.WellFormed) (hc : i ∈ h.children p) : ¬ h.Reaches i p :=
  fun hr => hwf.acyclic p (Relation.TransGen.head' hc hr)

end WellFormed

/-! ### The way up -/

/-- What the way up meets reaches the start. -/
lemma reaches_of_climbsTo (hwf : h.WellFormed) {n : ℕ} (hc : h.climbsTo a n i = true) :
    h.Reaches a i := by
  induction n generalizing i with
  | zero => simp [climbsTo] at hc
  | succ n ih =>
      rw [climbsTo, Bool.or_eq_true] at hc
      rcases hc with hc | hc
      · rw [beq_iff_eq] at hc
        subst hc
        exact Relation.ReflTransGen.refl
      · cases hp : h.parent i with
        | none => simp [hp] at hc
        | some p =>
            rw [hp] at hc
            exact (ih hc).tail (hwf.mem_of_parent hp)

/-- A way up that misses a node from which the start can be reached has been cut off: it has
passed as many nodes as it had steps, all of them different and all with a parent. -/
lemma exists_chain_of_climbsTo_eq_false (hwf : h.WellFormed) {n : ℕ}
    (hc : h.climbsTo a n i = false) (hr : h.Reaches a i) :
    ∃ l : List NodeId, l.length = n ∧ l.Nodup ∧ ∀ x ∈ l, x < h.size ∧ h.Reaches x i := by
  induction n generalizing i with
  | zero => exact ⟨[], rfl, List.nodup_nil, by simp⟩
  | succ n ih =>
      rw [climbsTo, Bool.or_eq_false_iff, beq_eq_false_iff_ne] at hc
      obtain ⟨hne, hc⟩ := hc
      rcases Relation.ReflTransGen.cases_tail hr with heq | ⟨p, hrp, hpi⟩
      · exact absurd heq hne
      · have hp : h.parent i = some p := hwf.parent_of_mem hpi
        rw [hp] at hc
        obtain ⟨l, hlen, hnd, hl⟩ := ih hc hrp
        refine ⟨i :: l, by rw [List.length_cons, hlen], List.nodup_cons.mpr ⟨fun hi => ?_, hnd⟩, ?_⟩
        · exact hwf.not_reaches_parent hpi (hl i hi).2
        · intro x hx
          rcases List.mem_cons.mp hx with rfl | hx
          · exact ⟨hwf.lt_size_of_mem hpi, Relation.ReflTransGen.refl⟩
          · exact ⟨(hl x hx).1, (hl x hx).2.tail hpi⟩

/-- Different nodes of the heap are no more than its size. -/
lemma length_le_size {l : List NodeId} (hnd : l.Nodup) (hl : ∀ x ∈ l, x < h.size) :
    l.length ≤ h.size := by
  have hsub : l ⊆ List.range h.size := fun x hx => List.mem_range.mpr (hl x hx)
  simpa using (hnd.subperm hsub).length_le

/-- **Ancestors are the nodes from which a node is reached**: in a well-formed heap the way up
is never cut off. -/
theorem isAncestorOrSelf_iff (hwf : h.WellFormed) :
    h.isAncestorOrSelf c i = true ↔ h.Reaches c i := by
  refine ⟨reaches_of_climbsTo hwf, fun hr => ?_⟩
  by_contra hc
  obtain ⟨l, hlen, hnd, hl⟩ :=
    exists_chain_of_climbsTo_eq_false hwf (Bool.eq_false_of_not_eq_true hc) hr
  have := length_le_size hnd fun x hx => (hl x hx).1
  omega

/-! ### Places -/

lemma idxOf?_append_cons {as bs : List NodeId} (has : i ∉ as) :
    (as ++ i :: bs).idxOf? i = some as.length := by
  induction as with
  | nil => simp [List.idxOf?_cons]
  | cons x as ih =>
      have hx : ¬ x = i := fun hx => has (by simp [hx])
      rw [List.cons_append, List.idxOf?_cons, ih fun hi => has (by simp [hi])]
      simp [hx]

/-- The place of a child is the number of siblings in front of it. -/
lemma WellFormed.position_eq_some (hwf : h.WellFormed) {as bs : List NodeId}
    (hc : h.children p = as ++ i :: bs) :
    h.position i = some { parent := p, index := as.length } := by
  have hmem : i ∈ h.children p := by rw [hc]; simp
  have hnd := hwf.nodup p
  rw [hc] at hnd
  have has : i ∉ as := fun hi => (List.nodup_append.mp hnd).2.2 i hi i (by simp) rfl
  have hidx : (h.children p).idxOf? i = some as.length := by
    rw [hc]
    exact idxOf?_append_cons has
  simp [position, hwf.parent_of_mem hmem, hidx]

/-- A place is that of a child, with as many siblings in front of it as its index says. -/
lemma children_of_position {pos : Position} (hpos : h.position i = some pos) :
    ∃ as bs, h.children pos.parent = as ++ i :: bs ∧ as.length = pos.index := by
  obtain ⟨p, index⟩ := pos
  simp only [position, Option.bind_eq_bind, Option.bind_eq_some_iff, Option.pure_def,
    Option.some.injEq, Position.mk.injEq] at hpos
  obtain ⟨p', -, index', hidx, rfl, rfl⟩ := hpos
  obtain ⟨hlt, heq, -⟩ := List.idxOf?_eq_some_iff.mp hidx
  refine ⟨(h.children p').take index', (h.children p').drop (index' + 1), ?_, ?_⟩
  · have hi : (h.children p')[index'] = i := by simpa using heq
    rw [← hi, List.cons_getElem_drop_succ, List.take_append_drop]
  · simpa using Nat.le_of_lt hlt

/-- **The place of a node** is the child list in which it stands and its index there. -/
lemma WellFormed.position_eq_some_iff (hwf : h.WellFormed) {index : ℕ} :
    h.position i = some { parent := p, index } ↔ (h.children p)[index]? = some i := by
  constructor
  · intro hpos
    obtain ⟨as, bs, hc, rfl⟩ := children_of_position hpos
    rw [hc]
    simp
  · intro hi
    obtain ⟨hlt, heq⟩ := List.getElem?_eq_some_iff.mp hi
    have hc : h.children p = (h.children p).take index ++ i :: (h.children p).drop (index + 1) := by
      rw [← heq, List.cons_getElem_drop_succ, List.take_append_drop]
    rw [hwf.position_eq_some hc, List.length_take_of_le (Nat.le_of_lt hlt)]

/-- A node is attached exactly if it has a place. -/
lemma WellFormed.isSome_position_iff (hwf : h.WellFormed) :
    (h.position i).isSome ↔ (h.parent i).isSome := by
  constructor
  · intro hpos
    obtain ⟨pos, hpos⟩ := Option.isSome_iff_exists.mp hpos
    obtain ⟨as, bs, hc, -⟩ := children_of_position hpos
    rw [hwf.parent_of_mem (p := pos.parent) (by rw [hc]; simp)]
    rfl
  · intro hp
    obtain ⟨p, hp⟩ := Option.isSome_iff_exists.mp hp
    obtain ⟨as, bs, hc⟩ := List.append_of_mem (hwf.mem_of_parent hp)
    rw [hwf.position_eq_some hc]
    rfl

/-- The parent in the place of a node is its parent. -/
lemma WellFormed.map_parent_position (hwf : h.WellFormed) (i : NodeId) :
    (h.position i).map (·.parent) = h.parent i := by
  cases hp : h.parent i with
  | none =>
      have hnone : ¬ (h.position i).isSome := by rw [hwf.isSome_position_iff, hp]; simp
      rw [Option.not_isSome_iff_eq_none.mp hnone, Option.map_none]
  | some p =>
      obtain ⟨as, bs, hc⟩ := List.append_of_mem (hwf.mem_of_parent hp)
      rw [hwf.position_eq_some hc, Option.map_some]

end Heap

end RichText
