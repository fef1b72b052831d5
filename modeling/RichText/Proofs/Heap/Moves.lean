import RichText.Dom.Mutation
import RichText.Proofs.Heap.WellFormed

/-!
What the moves do to a well-formed heap.

Each move is told by what it does to child lists and parents; what a node is never changes.

* `WellFormed.detach`, `WellFormed.detachAll`: nodes taken out leave all lists, and a
  well-formed heap stays one;
* `WellFormed.attach`: nodes without parent put into a list that they do not lead to;
* `WellFormed.insertAt`: the two together, with the new child list in `children_insertAt`;
* `replaceWith_eq`: a replacement takes the node out and puts the others where it was.
-/

namespace RichText

namespace Heap

variable {h : Heap} {i j p q : NodeId} {is : List NodeId}

/-! ### Single records -/

@[simp] lemma size_setParent (h : Heap) (i : NodeId) (o : Option NodeId) :
    (h.setParent i o).size = h.size :=
  size_update ..

@[simp] lemma size_setChildren (h : Heap) (i : NodeId) (cs : List NodeId) :
    (h.setChildren i cs).size = h.size :=
  size_update ..

lemma node_setParent (h : Heap) (i j : NodeId) (o : Option NodeId) :
    (h.setParent i o).node j
      = if i = j ∧ j < h.size then { h.node j with parent := o } else h.node j :=
  node_update ..

lemma node_setChildren (h : Heap) (i j : NodeId) (cs : List NodeId) :
    (h.setChildren i cs).node j
      = if i = j ∧ j < h.size then { h.node j with children := cs } else h.node j :=
  node_update ..

@[simp] lemma children_setParent (h : Heap) (i j : NodeId) (o : Option NodeId) :
    (h.setParent i o).children j = h.children j := by
  rw [children, node_setParent]
  split <;> rfl

lemma parent_setParent (h : Heap) (i j : NodeId) (o : Option NodeId) :
    (h.setParent i o).parent j = if i = j ∧ j < h.size then o else h.parent j := by
  rw [parent, node_setParent]
  split <;> rfl

lemma children_setChildren (h : Heap) (i j : NodeId) (cs : List NodeId) :
    (h.setChildren i cs).children j = if i = j ∧ j < h.size then cs else h.children j := by
  rw [children, node_setChildren]
  split <;> rfl

@[simp] lemma parent_setChildren (h : Heap) (i j : NodeId) (cs : List NodeId) :
    (h.setChildren i cs).parent j = h.parent j := by
  rw [parent, node_setChildren]
  split <;> rfl

/-- Two heaps with the same nodes are the same. -/
lemma ext_node {h h' : Heap} (hsize : h.size = h'.size) (hnode : ∀ i, h.node i = h'.node i) :
    h = h' := by
  obtain ⟨ns⟩ := h
  obtain ⟨ns'⟩ := h'
  congr 1
  refine Array.ext hsize fun i hi hi' => ?_
  simpa [node, Array.getD_eq_getD_getElem?, hi, hi'] using hnode i

/-- What is left of a node when its place is taken away: what it is. -/
def bare (h : Heap) (i : NodeId) : Content × Option NodeId :=
  ((h.node i).content, (h.node i).contents)

lemma bare_setParent (h : Heap) (i j : NodeId) (o : Option NodeId) :
    (h.setParent i o).bare j = h.bare j := by
  rw [bare, node_setParent]
  split <;> rfl

lemma bare_setChildren (h : Heap) (i j : NodeId) (cs : List NodeId) :
    (h.setChildren i cs).bare j = h.bare j := by
  rw [bare, node_setChildren]
  split <;> rfl

/-- A node is what it is and where it stands. -/
lemma node_eq_of_bare {h h' : Heap} (hbare : h.bare i = h'.bare i)
    (hparent : h.parent i = h'.parent i) (hchildren : h.children i = h'.children i) :
    h.node i = h'.node i := by
  simp only [bare, parent, children, Prod.mk.injEq] at hbare hparent hchildren
  cases hn : h.node i
  cases hn' : h'.node i
  simp_all

/-! ### Nodes taken out -/

lemma detach_of_parent_eq_none (hp : h.parent i = none) : h.detach i = h := by
  simp [detach, hp]

lemma detach_of_parent_eq_some (hp : h.parent i = some p) :
    h.detach i = (h.setParent i none).setChildren p ((h.children p).filter (· ≠ i)) := by
  simp [detach, hp]

@[simp] lemma size_detach (h : Heap) (i : NodeId) : (h.detach i).size = h.size := by
  cases hp : h.parent i with
  | none => rw [detach_of_parent_eq_none hp]
  | some p => simp [detach_of_parent_eq_some hp]

lemma bare_detach (h : Heap) (i j : NodeId) : (h.detach i).bare j = h.bare j := by
  cases hp : h.parent i with
  | none => rw [detach_of_parent_eq_none hp]
  | some p => rw [detach_of_parent_eq_some hp, bare_setChildren, bare_setParent]

lemma parent_detach (h : Heap) (i j : NodeId) :
    (h.detach i).parent j = if j = i then none else h.parent j := by
  cases hp : h.parent i with
  | none =>
      rw [detach_of_parent_eq_none hp]
      split
      · next hj => rw [hj, hp]
      · rfl
  | some p =>
      have hi := lt_size_of_parent hp
      rw [detach_of_parent_eq_some hp, parent_setChildren, parent_setParent]
      by_cases hj : j = i
      · subst hj
        simp [hi]
      · rw [if_neg hj, if_neg fun hij => hj hij.1.symm]

/-- A node is in the child list of its parent only. -/
lemma WellFormed.filter_ne_eq (hwf : h.WellFormed) (hne : h.parent i ≠ some q) :
    (h.children q).filter (· ≠ i) = h.children q := by
  refine List.filter_eq_self.mpr fun x hx => decide_eq_true ?_
  rintro rfl
  exact hne (hwf.parent_of_mem hx)

/-- A node taken out leaves every list. -/
lemma WellFormed.children_detach (hwf : h.WellFormed) (i q : NodeId) :
    (h.detach i).children q = (h.children q).filter (· ≠ i) := by
  cases hp : h.parent i with
  | none => rw [detach_of_parent_eq_none hp, hwf.filter_ne_eq (by simp [hp])]
  | some p =>
      rw [detach_of_parent_eq_some hp, children_setChildren]
      by_cases hq : p = q
      · subst hq
        have hsize : p < h.size := lt_size_of_child (hwf.mem_of_parent hp)
        simp [hsize]
      · rw [if_neg fun hpq => hq hpq.1, children_setParent, hwf.filter_ne_eq (by simpa [hp] using hq)]

/-- Fewer children lead to fewer nodes. -/
lemma acyclic_of_child {h h' : Heap} (hsub : ∀ p i, h'.Child p i → h.Child p i)
    (hac : ∀ i, ¬ Relation.TransGen h.Child i i) : ∀ i, ¬ Relation.TransGen h'.Child i i :=
  fun i hi => hac i (Relation.TransGen.mono hsub i i hi)

/-- A node taken out of a well-formed heap leaves a well-formed heap. -/
lemma WellFormed.detach (hwf : h.WellFormed) (i : NodeId) : (h.detach i).WellFormed where
  nodup q := by
    rw [hwf.children_detach]
    exact (hwf.nodup q).filter _
  parent_iff j q := by
    rw [hwf.children_detach, parent_detach, List.mem_filter]
    by_cases hj : j = i
    · simp [hj]
    · simp [hj, hwf.parent_iff]
  acyclic := by
    refine acyclic_of_child (fun p j hj => ?_) hwf.acyclic
    rw [Child, hwf.children_detach] at hj
    exact (List.mem_filter.mp hj).1

@[simp] lemma size_detachAll (h : Heap) (is : List NodeId) : (h.detachAll is).size = h.size := by
  induction is generalizing h with
  | nil => rfl
  | cons i is ih => exact (ih (h.detach i)).trans (size_detach h i)

lemma bare_detachAll (h : Heap) (is : List NodeId) (j : NodeId) :
    (h.detachAll is).bare j = h.bare j := by
  induction is generalizing h with
  | nil => rfl
  | cons i is ih => exact (ih (h.detach i)).trans (bare_detach h i j)

lemma parent_detachAll (h : Heap) (is : List NodeId) (j : NodeId) :
    (h.detachAll is).parent j = if j ∈ is then none else h.parent j := by
  induction is generalizing h with
  | nil => simp [detachAll]
  | cons i is ih =>
      have hrec : (h.detachAll (i :: is)).parent j = ((h.detach i).detachAll is).parent j := rfl
      rw [hrec, ih, parent_detach]
      by_cases hj : j ∈ is <;> by_cases hi : j = i <;> simp [hj, hi]

lemma WellFormed.detachAll (hwf : h.WellFormed) (is : List NodeId) :
    (h.detachAll is).WellFormed := by
  induction is generalizing h with
  | nil => exact hwf
  | cons i is ih => exact ih (hwf.detach i)

lemma WellFormed.children_detachAll (hwf : h.WellFormed) (is : List NodeId) (q : NodeId) :
    (h.detachAll is).children q = (h.children q).filter (· ∉ is) := by
  induction is generalizing h with
  | nil => simp [Heap.detachAll]
  | cons i is ih =>
      have hrec : (h.detachAll (i :: is)).children q = ((h.detach i).detachAll is).children q := rfl
      rw [hrec, ih (hwf.detach i), hwf.children_detach, List.filter_filter]
      refine List.filter_congr fun x _ => ?_
      by_cases hx : x = i <;> simp [hx]

/-- Taking nodes out makes no new ways down. -/
lemma WellFormed.reaches_of_detachAll (hwf : h.WellFormed) (hr : (h.detachAll is).Reaches i j) :
    h.Reaches i j := by
  refine Relation.ReflTransGen.mono (fun p c hc => ?_) i j hr
  rw [Child, hwf.children_detachAll] at hc
  exact (List.mem_filter.mp hc).1

/-! ### Nodes put in -/

@[simp] lemma size_setParents (h : Heap) (is : List NodeId) (p : NodeId) :
    (h.setParents is p).size = h.size := by
  induction is generalizing h with
  | nil => rfl
  | cons i is ih => exact (ih _).trans (size_setParent ..)

lemma bare_setParents (h : Heap) (is : List NodeId) (p j : NodeId) :
    (h.setParents is p).bare j = h.bare j := by
  induction is generalizing h with
  | nil => rfl
  | cons i is ih => exact (ih _).trans (bare_setParent ..)

@[simp] lemma children_setParents (h : Heap) (is : List NodeId) (p j : NodeId) :
    (h.setParents is p).children j = h.children j := by
  induction is generalizing h with
  | nil => rfl
  | cons i is ih => exact (ih _).trans (children_setParent ..)

lemma parent_setParents (h : Heap) (is : List NodeId) (p j : NodeId) :
    (h.setParents is p).parent j = if j ∈ is ∧ j < h.size then some p else h.parent j := by
  induction is generalizing h with
  | nil => simp [setParents]
  | cons i is ih =>
      have hrec : (h.setParents (i :: is) p).parent j
          = ((h.setParent i (some p)).setParents is p).parent j := rfl
      rw [hrec, ih, parent_setParent, size_setParent]
      by_cases hij : i = j
      · subst hij
        by_cases hi : i ∈ is <;> by_cases hsize : i < h.size <;> simp [hi, hsize]
      · simp [hij, Ne.symm hij]

/-- Nodes put below `p`, between two parts of its child list. -/
def attach (h : Heap) (p : NodeId) (is cs : List NodeId) : Heap :=
  (h.setParents is p).setChildren p cs

@[simp] lemma size_attach (h : Heap) (p : NodeId) (is cs : List NodeId) :
    (h.attach p is cs).size = h.size := by
  simp [attach]

lemma bare_attach (h : Heap) (p : NodeId) (is cs : List NodeId) (j : NodeId) :
    (h.attach p is cs).bare j = h.bare j := by
  rw [attach, bare_setChildren, bare_setParents]

lemma children_attach (hp : p < h.size) (is cs : List NodeId) (q : NodeId) :
    (h.attach p is cs).children q = if q = p then cs else h.children q := by
  rw [attach, children_setChildren, children_setParents, size_setParents]
  by_cases hq : q = p
  · subst hq
    simp [hp]
  · rw [if_neg hq, if_neg fun hpq => hq hpq.1.symm]

lemma parent_attach (h : Heap) (p : NodeId) (is cs : List NodeId) (j : NodeId) :
    (h.attach p is cs).parent j = if j ∈ is ∧ j < h.size then some p else h.parent j := by
  rw [attach, parent_setChildren, parent_setParents]

/-- A way down in a heap with nodes put below `p` is a way in the heap before, or passes
through `p` and one of the nodes. -/
lemma reaches_or_of_attach {as bs : List NodeId} (hp : p < h.size)
    (hcs : h.children p = as ++ bs)
    (ht : Relation.TransGen (h.attach p is (as ++ is ++ bs)).Child i j) :
    Relation.TransGen h.Child i j
      ∨ ∃ n ∈ is, (h.attach p is (as ++ is ++ bs)).Reaches i p
          ∧ (h.attach p is (as ++ is ++ bs)).Reaches n j := by
  -- one step is an old step or leads from `p` to a new node
  have hstep : ∀ x y, (h.attach p is (as ++ is ++ bs)).Child x y →
      h.Child x y ∨ x = p ∧ y ∈ is := by
    intro x y hxy
    rw [Child, children_attach hp] at hxy
    by_cases hx : x = p
    · subst hx
      simp only [if_true, List.mem_append] at hxy
      rcases hxy with (hy | hy) | hy
      · exact Or.inl (by rw [Child, hcs]; simp [hy])
      · exact Or.inr ⟨rfl, hy⟩
      · exact Or.inl (by rw [Child, hcs]; simp [hy])
    · rw [if_neg hx] at hxy
      exact Or.inl hxy
  induction ht with
  | single hxy =>
      rcases hstep _ _ hxy with hold | ⟨rfl, hy⟩
      · exact Or.inl (Relation.TransGen.single hold)
      · exact Or.inr ⟨_, hy, Relation.ReflTransGen.refl, Relation.ReflTransGen.refl⟩
  | tail hpre hxy ih =>
      rcases hstep _ _ hxy with hold | ⟨rfl, hy⟩
      · rcases ih with ih | ⟨n, hn, hip, hnx⟩
        · exact Or.inl (ih.tail hold)
        · exact Or.inr ⟨n, hn, hip, hnx.tail hxy⟩
      · exact Or.inr ⟨_, hy, hpre.to_reflTransGen, Relation.ReflTransGen.refl⟩

/-- Ways that end in `p` are as before whatever is put below it. -/
lemma reaches_of_attach {cs : List NodeId} (hp : p < h.size)
    (hr : (h.attach p is cs).Reaches i p) : h.Reaches i p := by
  induction hr using Relation.ReflTransGen.head_induction_on with
  | refl => exact Relation.ReflTransGen.refl
  | @head x y hxy _ ih =>
      rw [Child, children_attach hp] at hxy
      by_cases hx : x = p
      · rw [hx]
        exact Relation.ReflTransGen.refl
      · rw [if_neg hx] at hxy
        exact ih.head hxy

/-- **Nodes put in**: nodes without parent that do not lead to `p` can be put into its child
list anywhere. -/
lemma WellFormed.attach (hwf : h.WellFormed) {as bs : List NodeId} (hp : p < h.size)
    (hcs : h.children p = as ++ bs) (hnd : is.Nodup) (his : ∀ i ∈ is, i < h.size)
    (hfree : ∀ i ∈ is, h.parent i = none) (ha : ∀ i ∈ is, ¬ h.Reaches i p) :
    (h.attach p is (as ++ is ++ bs)).WellFormed where
  nodup q := by
    rw [children_attach hp]
    split
    · have hold := hwf.nodup p
      rw [hcs, List.nodup_append] at hold
      have hnew : ∀ x ∈ is, x ∉ as ++ bs := by
        intro x hx hmem
        have := hwf.parent_of_mem (p := p) (by rw [hcs]; exact hmem)
        rw [hfree x hx] at this
        simp at this
      simp only [List.mem_append, not_or] at hnew
      refine List.nodup_append.mpr ⟨List.nodup_append.mpr ⟨hold.1, hnd, ?_⟩, hold.2.1, ?_⟩
      · rintro x hx y hy rfl
        exact (hnew x hy).1 hx
      · rintro x hx y hy rfl
        rcases List.mem_append.mp hx with hx | hx
        · exact hold.2.2 x hx x hy rfl
        · exact (hnew x hx).2 hy
    · exact hwf.nodup q
  parent_iff j q := by
    rw [children_attach hp, parent_attach]
    by_cases hj : j ∈ is
    · have hnot : ∀ q, j ∉ h.children q := by
        intro q hq
        have := hwf.parent_of_mem hq
        rw [hfree j hj] at this
        simp at this
      rw [if_pos ⟨hj, his j hj⟩]
      by_cases hq : q = p
      · simp [hq, hj]
      · simp [hq, hnot q, Ne.symm hq]
    · rw [if_neg fun hjs => hj hjs.1, hwf.parent_iff]
      by_cases hq : q = p
      · simp [hq, hcs, hj]
      · simp [hq]
  acyclic i hi := by
    rcases reaches_or_of_attach hp hcs hi with hold | ⟨n, hn, hip, hni⟩
    · exact hwf.acyclic i hold
    · exact ha n hn (reaches_of_attach hp (hni.trans hip))

/-! ### Nodes moved -/

/-- The place in the list without the moved nodes at which they go in. -/
def insertionPlace (h : Heap) (p : NodeId) (index : ℕ) (is : List NodeId) : ℕ :=
  insertionIndex ((h.children p).filter (· ∉ is)) (h.children p)[index]? index

/-- A move takes the nodes out and puts them in. -/
lemma WellFormed.insertAt_eq (hwf : h.WellFormed) (p : NodeId) (index : ℕ) (is : List NodeId) :
    h.insertAt p index is = (h.detachAll is).attach p is
      (((h.children p).filter (· ∉ is)).take (h.insertionPlace p index is) ++ is
        ++ ((h.children p).filter (· ∉ is)).drop (h.insertionPlace p index is)) := by
  rw [insertAt, hwf.children_detachAll]
  rfl

lemma WellFormed.size_insertAt (hwf : h.WellFormed) (p : NodeId) (index : ℕ) (is : List NodeId) :
    (h.insertAt p index is).size = h.size := by
  rw [hwf.insertAt_eq, size_attach, size_detachAll]

lemma WellFormed.bare_insertAt (hwf : h.WellFormed) (p : NodeId) (index : ℕ) (is : List NodeId)
    (j : NodeId) : (h.insertAt p index is).bare j = h.bare j := by
  rw [hwf.insertAt_eq, bare_attach, bare_detachAll]

/-- The child lists after a move: the nodes stand together below `p` and nowhere else. -/
lemma WellFormed.children_insertAt (hwf : h.WellFormed) (hp : p < h.size) (index : ℕ)
    (is : List NodeId) (q : NodeId) :
    (h.insertAt p index is).children q
      = if q = p then
          ((h.children p).filter (· ∉ is)).take (h.insertionPlace p index is) ++ is
            ++ ((h.children p).filter (· ∉ is)).drop (h.insertionPlace p index is)
        else (h.children q).filter (· ∉ is) := by
  rw [hwf.insertAt_eq, children_attach (by simpa using hp), hwf.children_detachAll]

lemma WellFormed.parent_insertAt (hwf : h.WellFormed) (his : ∀ i ∈ is, i < h.size) (p : NodeId)
    (index : ℕ) (j : NodeId) :
    (h.insertAt p index is).parent j = if j ∈ is then some p else h.parent j := by
  rw [hwf.insertAt_eq, parent_attach, parent_detachAll, size_detachAll]
  by_cases hj : j ∈ is
  · simp [hj, his j hj]
  · simp [hj]

/-- **A move keeps a heap well-formed** if no node is put below itself. -/
theorem WellFormed.insertAt (hwf : h.WellFormed) (hp : p < h.size) (index : ℕ) (hnd : is.Nodup)
    (his : ∀ i ∈ is, i < h.size) (ha : ∀ i ∈ is, ¬ h.Reaches i p) :
    (h.insertAt p index is).WellFormed := by
  rw [hwf.insertAt_eq]
  refine (hwf.detachAll is).attach (by simpa using hp) ?_ hnd (by simpa using his) ?_ ?_
  · rw [hwf.children_detachAll, List.take_append_drop]
  · intro i hi
    rw [parent_detachAll, if_pos hi]
  · exact fun i hi hr => ha i hi (hwf.reaches_of_detachAll hr)

/-! ### Nodes replaced -/

/-- A list of different nodes without one of them. -/
lemma filter_ne_append_cons {as bs : List NodeId} (hnd : (as ++ i :: bs).Nodup) :
    (as ++ i :: bs).filter (· ≠ i) = as ++ bs := by
  have has : ∀ x ∈ as, x ≠ i := fun x hx => (List.nodup_append.mp hnd).2.2 x hx i (by simp)
  have hbs : ∀ x ∈ bs, x ≠ i := by
    rintro x hx rfl
    exact (List.nodup_cons.mp (List.nodup_append.mp hnd).2.1).1 hx
  rw [List.filter_append, List.filter_eq_self.mpr (by simpa using has),
    List.filter_cons_of_neg (by simp), List.filter_eq_self.mpr (by simpa using hbs)]

/-- A child cut out of the list where it stands has been taken out. -/
lemma WellFormed.cut_eq_detach (hwf : h.WellFormed) {as bs : List NodeId}
    (hcs : h.children p = as ++ i :: bs) :
    (h.setChildren p ((h.children p).eraseIdx as.length)).setParent i none = h.detach i := by
  have hmem : i ∈ h.children p := by rw [hcs]; simp
  have hp := hwf.parent_of_mem hmem
  have hnd := hwf.nodup p
  rw [hcs] at hnd
  have hcut : (h.children p).eraseIdx as.length = (h.children p).filter (· ≠ i) := by
    rw [hcs, filter_ne_append_cons hnd, List.eraseIdx_append_of_length_le le_rfl]
    simp
  rw [hcut, detach_of_parent_eq_some hp]
  refine ext_node (by simp) fun j => ?_
  have hne : i ≠ p := hwf.ne_of_mem hmem
  rw [node_setParent, node_setChildren, node_setChildren, node_setParent, size_setChildren,
    size_setParent]
  by_cases hi : i = j
  · subst hi
    simp [Ne.symm hne]
  · simp [hi]

/-- A replacement leaves a node that replaces itself where it is, and else takes it out and puts
the others where it was; it is refused only if one of them is above the place. -/
lemma WellFormed.replaceWith_eq (hwf : h.WellFormed) {as bs : List NodeId}
    (hcs : h.children p = as ++ i :: bs) (is : List NodeId) (ha : ∀ n ∈ is, ¬ h.Reaches n p) :
    h.replaceWith i is
      = if is = [i] then (h, true) else ((h.detach i).insertAt p as.length is, true) := by
  have hany : (is.any fun n => h.isAncestorOrSelf n p) = false := by
    rw [List.any_eq_false]
    exact fun n hn hc => ha n hn ((isAncestorOrSelf_iff hwf).mp hc)
  simp only [replaceWith, hwf.position_eq_some hcs, hany, Bool.false_eq_true, if_false]
  rw [← hwf.cut_eq_detach hcs]

end Heap

end RichText
