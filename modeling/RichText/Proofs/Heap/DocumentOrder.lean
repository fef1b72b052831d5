import RichText.Proofs.Heap.Attached
import RichText.Proofs.Heap.Outside

/-!
Document order in well-formed heaps.

A node has fewer nodes at or below it than its parent (`Heap.extent`), and no node has more than
the heap holds. So the ways down and up a heap end, and facts about all nodes can be proved from
the leaves up or from the roots down.

In document order (`Heap.Precedes`) a node stands before all that is below it, and what is below
an earlier child stands before what is below a later one. Of two nodes at most one stands before
the other, so that no two lists of the same nodes are in this order.

* `WellFormed.below_induction`, `WellFormed.above_induction`: the two inductions;
* `WellFormed.not_precedes_of_precedes`: no node stands before and behind another;
* `WellFormed.withClass_eq`: what is found for a class is the node itself, if it is of the class,
  and then what is found below its children;
* `WellFormed.eq_withClass_iff`: **what is found for a class** is the one list in document order of
  all nodes of the class at or below a node.
-/

namespace RichText

namespace Heap

variable {h : Heap} {a b i j k p q root x y : NodeId} {l l' : List NodeId} {value : String}

/-! ### How far the heap goes on below a node -/

open scoped Classical in
/-- The number of nodes at or below a node. -/
noncomputable def extent (h : Heap) (i : NodeId) : ℕ :=
  ((Finset.range h.size).filter (h.Reaches i)).card

lemma extent_le_size (h : Heap) (i : NodeId) : h.extent i ≤ h.size := by
  classical
  calc h.extent i ≤ (Finset.range h.size).card := Finset.card_filter_le _ _
    _ = h.size := Finset.card_range h.size

/-- Only outside of the heap there is nothing at or below a node. -/
lemma size_le_of_extent_eq_zero (hi : h.extent i = 0) : h.size ≤ i := by
  classical
  by_contra hlt
  have hnot := Finset.filter_eq_empty_iff.mp (Finset.card_eq_zero.mp hi)
  exact hnot (Finset.mem_range.mpr (Nat.lt_of_not_le hlt)) Relation.ReflTransGen.refl

namespace WellFormed

/-- **A child has fewer nodes at or below it** than its parent. -/
lemma extent_lt (hwf : h.WellFormed) (hi : i ∈ h.children p) : h.extent i < h.extent p := by
  classical
  refine Finset.card_lt_card ((Finset.ssubset_iff_of_subset ?_).mpr ⟨p, ?_, ?_⟩)
  · exact Finset.monotone_filter_right _ fun _ _ hr => hr.head hi
  · exact Finset.mem_filter.mpr ⟨Finset.mem_range.mpr (lt_size_of_child hi), .refl⟩
  · exact fun hp => hwf.not_reaches_parent hi (Finset.mem_filter.mp hp).2

/-- What holds of a node if it holds of its children holds of all nodes. -/
@[elab_as_elim]
theorem below_induction {P : NodeId → Prop} (hwf : h.WellFormed)
    (step : ∀ i, (∀ j ∈ h.children i, P j) → P i) (i : NodeId) : P i := by
  induction hn : h.extent i using Nat.strong_induction_on generalizing i with
  | _ n ih =>
      subst hn
      exact step i fun j hj => ih _ (hwf.extent_lt hj) j rfl

/-- What holds of a node if it holds of its parent holds of all nodes. -/
@[elab_as_elim]
theorem above_induction {P : NodeId → Prop} (hwf : h.WellFormed)
    (step : ∀ i, (∀ p, h.parent i = some p → P p) → P i) (i : NodeId) : P i := by
  induction hn : h.size - h.extent i using Nat.strong_induction_on generalizing i with
  | _ n ih =>
      subst hn
      refine step i fun p hp => ih _ ?_ p rfl
      -- the extent grows on the way up, but not beyond the size of the heap
      have hlt := hwf.extent_lt (hwf.mem_of_parent hp)
      have hle := h.extent_le_size p
      omega

end WellFormed

/-! ### Document order -/

/-- Whether a node stands before another in document order. -/
inductive Precedes (h : Heap) : NodeId → NodeId → Prop where
  /-- A node stands before all that is below it. -/
  | above {a b : NodeId} (hab : Relation.TransGen h.Child a b) : Precedes h a b
  /-- What is below an earlier child stands before what is below a later one. -/
  | beside {p x y a b : NodeId} (hxy : [x, y].Sublist (h.children p)) (hxa : h.Reaches x a)
      (hyb : h.Reaches y b) : Precedes h a b

/-- In a list without repetitions two entries have one order only. -/
lemma not_sublist_swap (hl : l.Nodup) (hxy : [x, y].Sublist l) : ¬ [y, x].Sublist l := by
  intro hyx
  induction l with
  | nil => simp at hxy
  | cons z l ih =>
      obtain ⟨hz, hl⟩ := List.nodup_cons.mp hl
      rcases List.cons_sublist_cons'.mp hxy with hxy' | ⟨rfl, hy⟩
      · rcases List.cons_sublist_cons'.mp hyx with hyx' | ⟨rfl, -⟩
        · exact ih hl hxy' hyx'
        · exact hz (hxy'.subset (by simp))
      · rcases List.cons_sublist_cons'.mp hyx with hyx' | ⟨rfl, hx⟩
        · exact hz (hyx'.subset (by simp))
        · exact hz (hx.subset (by simp))

lemma child_of_sublist (hxy : [x, y].Sublist (h.children p)) : h.Child p x ∧ h.Child p y :=
  ⟨hxy.subset (by simp), hxy.subset (by simp)⟩

namespace WellFormed

/-- Of two nodes from which a node is reached one is reached from the other. -/
lemma reaches_or_reaches (hwf : h.WellFormed) (hp : h.Reaches p a) (hq : h.Reaches q a) :
    h.Reaches p q ∨ h.Reaches q p := by
  have hunique : Relator.RightUnique (Function.swap h.Child) := fun i p q hp hq =>
    Option.some.inj ((hwf.parent_of_mem hp).symm.trans (hwf.parent_of_mem hq))
  have hor := Relation.ReflTransGen.total_of_right_unique hunique
    (Relation.reflTransGen_swap.mpr hp) (Relation.reflTransGen_swap.mpr hq)
  exact hor.symm.imp Relation.reflTransGen_swap.mp Relation.reflTransGen_swap.mp

/-- A node is reached from one child of a node only. -/
lemma eq_of_reaches (hwf : h.WellFormed) (hx : h.Child p x) (hy : h.Child p y)
    (hxa : h.Reaches x a) (hya : h.Reaches y a) : x = y := by
  by_contra hne
  rcases hwf.reaches_or_reaches hxa hya with hxy | hyx
  · exact hwf.not_reaches_sibling hx hy hne hxy
  · exact hwf.not_reaches_sibling hy hx (Ne.symm hne) hyx

/-- The parts below an earlier and a later child have nothing in common. -/
lemma not_reaches_of_sublist (hwf : h.WellFormed) (hxy : [x, y].Sublist (h.children p))
    (hxa : h.Reaches x a) : ¬ h.Reaches y a := by
  intro hya
  obtain ⟨hx, hy⟩ := child_of_sublist hxy
  have heq : x = y := hwf.eq_of_reaches hx hy hxa hya
  have hnd := (hwf.nodup p).sublist hxy
  simp [heq] at hnd

/-- Two nodes stand below children of one node only in one order, also if it is told at
different nodes. -/
lemma not_beside_of_beside (hwf : h.WellFormed) (hxy : [x, y].Sublist (h.children p))
    (hxa : h.Reaches x a) (hyb : h.Reaches y b) (hij : [i, j].Sublist (h.children q))
    (hib : h.Reaches i b) (hja : h.Reaches j a) : ¬ h.Reaches p q := by
  obtain ⟨hx, hy⟩ := child_of_sublist hxy
  obtain ⟨hi, hj⟩ := child_of_sublist hij
  intro hpq
  rcases Relation.ReflTransGen.cases_head hpq with rfl | ⟨z, hz, hzq⟩
  · obtain rfl := hwf.eq_of_reaches hx hj hxa hja
    obtain rfl := hwf.eq_of_reaches hy hi hyb hib
    exact not_sublist_swap (hwf.nodup p) hxy hij
  · -- both nodes are below the child of `p` that leads to `q`
    have hza : h.Reaches z a := hzq.trans (hja.head hj)
    have hzb : h.Reaches z b := hzq.trans (hib.head hi)
    obtain rfl := hwf.eq_of_reaches hz hx hza hxa
    exact hwf.not_reaches_of_sublist hxy hzb hyb

/-- **No node stands before and behind another.** -/
theorem not_precedes_of_precedes (hwf : h.WellFormed) (hab : h.Precedes a b) :
    ¬ h.Precedes b a := by
  intro hba
  cases hab with
  | above hab =>
      cases hba with
      | above hba => exact hwf.acyclic a (hab.trans hba)
      | beside hxy hxb hya =>
          exact hwf.not_reaches_of_sublist hxy hxb (hya.trans hab.to_reflTransGen)
  | beside hxy hxa hyb =>
      cases hba with
      | above hba => exact hwf.not_reaches_of_sublist hxy hxa (hyb.trans hba.to_reflTransGen)
      | @beside q i j _ _ hij hib hja =>
          have hpa := hxa.head (child_of_sublist hxy).1
          have hqa := hja.head (child_of_sublist hij).2
          rcases hwf.reaches_or_reaches hpa hqa with hpq | hqp
          · exact hwf.not_beside_of_beside hxy hxa hyb hij hib hja hpq
          · exact hwf.not_beside_of_beside hij hib hja hxy hxa hyb hqp

/-- A list in document order names no node twice. -/
lemma nodup_of_pairwise (hwf : h.WellFormed) (hl : l.Pairwise h.Precedes) : l.Nodup :=
  hl.imp fun hab heq => by
    subst heq
    exact hwf.not_precedes_of_precedes hab hab

/-- **Some nodes have one list in document order only.** -/
theorem eq_of_pairwise (hwf : h.WellFormed) (hl : l.Pairwise h.Precedes)
    (hl' : l'.Pairwise h.Precedes) (hmem : ∀ k, k ∈ l ↔ k ∈ l') : l = l' := by
  have hperm : l.Perm l' :=
    (List.perm_ext_iff_of_nodup (hwf.nodup_of_pairwise hl) (hwf.nodup_of_pairwise hl')).mpr hmem
  exact hperm.eq_of_pairwise
    (fun _ _ _ _ hab hba => absurd hba (hwf.not_precedes_of_precedes hab)) hl hl'

end WellFormed

/-! ### Nodes of a class in document order -/

lemma lookup_attributes (as : List Attribute) (name : String) :
    (as.map fun a => (a.name, a.value)).lookup name
      = (as.find? (·.name = name)).map (·.value) := by
  induction as with
  | nil => rfl
  | cons a as ih =>
      rw [List.map_cons, List.lookup_cons, List.find?_cons, ih]
      by_cases ha : a.name = name
      · simp [ha]
      · simp [ha, beq_eq_false_iff_ne.mpr (Ne.symm ha)]

/-- A node is of a class if the first of its attributes named `class` has that value. -/
lemma hasClass_iff_lookup :
    h.hasClass i value = true ↔ (h.attributes i).lookup "class" = some value := by
  rw [hasClass, decide_eq_true_eq, attribute?, attributes]
  cases h.element? i with
  | none => simp
  | some e => rw [Option.bind_some, Element.get?, lookup_attributes]

lemma withClassBelow_eq_flatMap (value : String) (depth : ℕ) (is : List NodeId) :
    h.withClassBelow value depth is = is.flatMap (h.withClassTo value depth) := by
  induction is with
  | nil => rw [withClassBelow, List.flatMap_nil]
  | cons i is ih => rw [withClassBelow, ih, List.flatMap_cons]

namespace WellFormed

/-- One more level finds nothing more, once there are as many levels as nodes. -/
lemma withClassTo_succ (hwf : h.WellFormed) (value : String) {depth : ℕ}
    (hi : h.extent i ≤ depth) :
    h.withClassTo value (depth + 1) i = h.withClassTo value depth i := by
  induction depth generalizing i with
  | zero =>
      have hnode := node_of_size_le (size_le_of_extent_eq_zero (Nat.le_zero.mp hi))
      simp [withClassTo, withClassBelow, children, hasClass, attribute?, element?, content, hnode]
  | succ depth ih =>
      rw [withClassTo, withClassTo, withClassBelow_eq_flatMap, withClassBelow_eq_flatMap]
      congr 1
      refine List.flatMap_congr fun j hj => ih ?_
      have := hwf.extent_lt hj
      omega

/-- **What is found for a class**: the node itself, if it is of the class, and then what is found
below its children one after the other. -/
theorem withClass_eq (hwf : h.WellFormed) (value : String) (i : NodeId) :
    h.withClass value i
      = (if h.hasClass i value then [i] else []) ++ (h.children i).flatMap (h.withClass value) := by
  rw [withClass, withClassTo, withClassBelow_eq_flatMap]
  congr 1
  exact List.flatMap_congr fun j _ => (hwf.withClassTo_succ value (h.extent_le_size j)).symm

/-- What is found for a class are the nodes of the class at or below the node. -/
lemma mem_withClass_iff (hwf : h.WellFormed) :
    k ∈ h.withClass value root ↔ h.Reaches root k ∧ h.hasClass k value = true := by
  refine ⟨of_mem_withClassTo, ?_⟩
  rintro ⟨hr, hclass⟩
  induction hr using Relation.ReflTransGen.head_induction_on with
  | refl => rw [hwf.withClass_eq]; simp [hclass]
  | @head i j hij _ ih =>
      rw [hwf.withClass_eq]
      exact List.mem_append_right _ (List.mem_flatMap_of_mem hij ih)

/-- What is found for a class is found in document order. -/
lemma pairwise_withClass (hwf : h.WellFormed) (value : String) (root : NodeId) :
    (h.withClass value root).Pairwise h.Precedes := by
  induction root using hwf.below_induction with
  | _ i ih =>
      rw [hwf.withClass_eq, List.pairwise_append, List.pairwise_flatMap]
      refine ⟨by split <;> simp, ⟨ih, ?_⟩, fun a ha b hb => ?_⟩
      · refine List.pairwise_iff_forall_sublist.mpr fun {x y} hxy a ha b hb => ?_
        exact .beside hxy (hwf.mem_withClass_iff.mp ha).1 (hwf.mem_withClass_iff.mp hb).1
      · obtain ⟨-, ha⟩ := List.mem_ite_nil_right.mp ha
        obtain rfl := List.mem_singleton.mp ha
        obtain ⟨c, hc, hb⟩ := List.mem_flatMap.mp hb
        exact .above (.head' hc (hwf.mem_withClass_iff.mp hb).1)

/-- **What is found for a class** is the one list in document order, without repetitions, of all
nodes at or below a node whose first attribute named `class` has the value. -/
theorem eq_withClass_iff (hwf : h.WellFormed) :
    l = h.withClass value root ↔ l.Nodup ∧ l.Pairwise h.Precedes ∧
      ∀ k, k ∈ l ↔ h.Reaches root k ∧ (h.attributes k).lookup "class" = some value := by
  have hmem : ∀ k, k ∈ h.withClass value root
      ↔ h.Reaches root k ∧ (h.attributes k).lookup "class" = some value := fun k => by
    rw [hwf.mem_withClass_iff, hasClass_iff_lookup]
  have hordered := hwf.pairwise_withClass value root
  constructor
  · rintro rfl
    exact ⟨hwf.nodup_of_pairwise hordered, hordered, hmem⟩
  · rintro ⟨-, hl, hk⟩
    exact hwf.eq_of_pairwise hl hordered fun k => by rw [hk, hmem]

end WellFormed

end Heap

end RichText
