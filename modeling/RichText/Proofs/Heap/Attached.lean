import RichText.Dom.Query
import RichText.Proofs.Heap.Splicing

/-!
Marked nodes, and which of them stay attached.

The marked nodes of a tree are collected in document order before some of them are replaced. A
node that has been replaced by new ones takes all that is below it out of the tree; what is
outside of the part that has been rewritten is reached as before.

* `of_mem_withClassTo`: what is found for a class;
* `Layout.marked`: the marked nodes of a layout, in document order;
* `withClass_eq_marked`: these are what is found for a class;
* `Rewritten.reaches`: the node whose children have been rewritten is still reached;
* `Extends.takenOut_replaceWith`, `WellFormed.not_reaches_of_takenOut`: **what is below a node that
  has been replaced** is no longer attached.
-/

namespace RichText

namespace Layout

section Marked

variable (mark : NodeId → Bool)

mutual

/-- The marked nodes of a layout in document order, apart from the contents of templates. -/
def marked : Layout → List NodeId
  | node i cs => (if mark i then [i] else []) ++ markedAll cs
  | template i cs _ _ => (if mark i then [i] else []) ++ markedAll cs

/-- The marked nodes of several layouts. -/
def markedAll : List Layout → List NodeId
  | [] => []
  | s :: ss => marked s ++ markedAll ss

end

lemma marked_eq (s : Layout) :
    marked mark s = (if mark s.id then [s.id] else []) ++ markedAll mark s.children := by
  cases s <;> rfl

end Marked

variable {mark mark' : NodeId → Bool}

mutual

/-- Only the nodes of a layout have to be marked alike. -/
lemma marked_congr : ∀ {s : Layout}, (∀ k ∈ s.ids, mark k = mark' k) →
    marked mark s = marked mark' s
  | node i cs, hk => by
      rw [marked, marked, hk i (by simp [ids]),
        markedAll_congr fun k hmem => hk k (by simp [ids, hmem])]
  | template i cs inner us, hk => by
      rw [marked, marked, hk i (by simp [ids]),
        markedAll_congr fun k hmem => hk k (by simp [ids, hmem])]

lemma markedAll_congr : ∀ {ss : List Layout}, (∀ k ∈ idsAll ss, mark k = mark' k) →
    markedAll mark ss = markedAll mark' ss
  | [], _ => rfl
  | s :: ss, hk => by
      rw [markedAll, markedAll, marked_congr fun k hmem => hk k (by simp [idsAll, hmem]),
        markedAll_congr fun k hmem => hk k (by simp [idsAll, hmem])]

end

end Layout

namespace Heap

open Layout (idsAll depthAll marked markedAll)

variable {h h' h'' : Heap} {i q root : ℕ} {pre post : List NodeId} {ss : List Layout}
  {ts : List Tree}

/-! ### Nodes of a class -/

mutual

/-- What is found for a class is reached and has the class. -/
lemma of_mem_withClassTo {value : String} : ∀ {depth : ℕ} {i k : NodeId},
    k ∈ h.withClassTo value depth i → h.Reaches i k ∧ h.hasClass k value = true
  | 0, _, _, hk => by simp [withClassTo] at hk
  | depth + 1, i, k, hk => by
      rw [withClassTo, List.mem_append] at hk
      rcases hk with hk | hk
      · obtain ⟨hclass, hk⟩ := List.mem_ite_nil_right.mp hk
        obtain rfl := List.mem_singleton.mp hk
        exact ⟨.refl, hclass⟩
      · obtain ⟨j, hj, hreach, hclass⟩ := of_mem_withClassBelow hk
        exact ⟨hreach.head hj, hclass⟩

lemma of_mem_withClassBelow {value : String} : ∀ {depth : ℕ} {is : List NodeId} {k : NodeId},
    k ∈ h.withClassBelow value depth is → ∃ i ∈ is, h.Reaches i k ∧ h.hasClass k value = true
  | _, [], _, hk => by simp [withClassBelow] at hk
  | depth, i :: is, k, hk => by
      rw [withClassBelow, List.mem_append] at hk
      rcases hk with hk | hk
      · exact ⟨i, List.mem_cons_self, of_mem_withClassTo hk⟩
      · obtain ⟨j, hj, hjk⟩ := of_mem_withClassBelow hk
        exact ⟨j, List.mem_cons_of_mem _ hj, hjk⟩

end

/-! ### Marked nodes -/

section Marked

variable {mark : NodeId → Bool}

/-- The roots of the children of a node are its children. -/
lemma Carries.child_of_mem {s c : Layout} (hs : h.Carries s) (hc : c ∈ s.children) :
    h.Child s.id c.id := by
  rw [Child, hs.children_eq]
  exact List.mem_map_of_mem hc

mutual

/-- Marked nodes are at or below the root of their layout. -/
lemma Carries.reaches_of_mem_marked : ∀ {s : Layout}, h.Carries s → ∀ {j : NodeId},
    j ∈ marked mark s → h.Reaches s.id j
  | .node i cs, hs, j, hj => by
      rw [marked, List.mem_append] at hj
      rcases hj with hj | hj
      · obtain rfl : j = i := by simpa using (List.mem_ite_nil_right.mp hj).2
        exact .refl
      · exact CarriesAll.reaches_of_mem_markedAll hs.carriesAll_children
          (fun c hc => hs.child_of_mem hc) hj
  | .template i cs inner us, hs, j, hj => by
      rw [marked, List.mem_append] at hj
      rcases hj with hj | hj
      · obtain rfl : j = i := by simpa using (List.mem_ite_nil_right.mp hj).2
        exact .refl
      · exact CarriesAll.reaches_of_mem_markedAll hs.carriesAll_children
          (fun c hc => hs.child_of_mem hc) hj

/-- Marked nodes of children of a node are below it. -/
lemma CarriesAll.reaches_of_mem_markedAll : ∀ {ss : List Layout}, h.CarriesAll ss →
    ∀ {i j : NodeId}, (∀ s ∈ ss, h.Child i s.id) → j ∈ markedAll mark ss → h.Reaches i j
  | [], _, _, _, _, hj => by simp [markedAll] at hj
  | s :: ss, ⟨hs, hss⟩, i, j, hch, hj => by
      rw [markedAll, List.mem_append] at hj
      rcases hj with hj | hj
      · exact (Carries.reaches_of_mem_marked hs hj).head (hch s List.mem_cons_self)
      · exact CarriesAll.reaches_of_mem_markedAll hss
          (fun s hs => hch s (List.mem_cons_of_mem _ hs)) hj

end

mutual

/-- What is found for a class down to a depth are the marked nodes. -/
lemma withClassTo_eq_marked (value : String) : ∀ {s : Layout} {d : ℕ}, h.Carries s → s.depth ≤ d →
    h.withClassTo value d s.id = marked (h.hasClass · value) s
  | .node i cs, 0, _, hd => by simp [Layout.depth] at hd
  | .node i cs, d + 1, hs, hd => by
      have hcs := withClassBelow_eq_markedAll value hs.carriesAll_children (d := d)
        (by simpa [Layout.depth, Layout.children] using hd)
      rw [withClassTo, hs.children_eq, hcs]
      rfl
  | .template i cs inner us, 0, _, hd => by simp [Layout.depth] at hd
  | .template i cs inner us, d + 1, hs, hd => by
      have hd' : max (depthAll cs) (depthAll us) ≤ d := by simpa [Layout.depth] using hd
      have hcs := withClassBelow_eq_markedAll value hs.carriesAll_children (d := d)
        (le_trans (le_max_left _ _) hd')
      rw [withClassTo, hs.children_eq, hcs]
      rfl

lemma withClassBelow_eq_markedAll (value : String) : ∀ {ss : List Layout} {d : ℕ}, h.CarriesAll ss →
    depthAll ss ≤ d →
      h.withClassBelow value d (ss.map Layout.id) = markedAll (h.hasClass · value) ss
  | [], _, _, _ => by rw [List.map_nil, withClassBelow, markedAll]
  | s :: ss, d, ⟨hs, hss⟩, hd => by
      rw [List.map_cons, withClassBelow, markedAll,
        withClassTo_eq_marked value hs (le_trans (le_max_left _ _) hd),
        withClassBelow_eq_markedAll value hss (le_trans (le_max_right _ _) hd)]

end

/-- **What is found for a class** at or below a node are the marked nodes of its tree. -/
lemma withClass_eq_marked (value : String) {s : Layout} (hs : h.Carries s) (hnd : s.ids.Nodup) :
    h.withClass value s.id = marked (h.hasClass · value) s :=
  withClassTo_eq_marked value hs (Nat.le_succ_of_le (hs.depth_le_size hnd))

end Marked

/-! ### Extended heaps -/

/-- A part of a child list is held on while a heap is extended. -/
lemma Holds.of_extends (hh : Holds h q pre post ss) (hext : h.Extends h') (hwf' : h'.WellFormed) :
    Holds h' q pre post ss where
  wellFormed := hwf'
  lt_size := lt_of_lt_of_le hh.lt_size hext.size_le
  children_eq := by rw [children_congr (hext.node_eq q hh.lt_size), hh.children_eq]
  carries := carriesAll_congr hext.size_le (fun k hk =>
    SameInside.of_node_eq (hext.node_eq k (hh.carries.lt_size k hk))) hh.carries
  nodup := hh.nodup
  notMem := hh.notMem

/-- A part rewritten in a heap that has been extended before. -/
lemma Rewritten.of_extends_left (hh : Holds h q pre post ss) (hext : h.Extends h')
    (hrew : Rewritten h' h'' q pre post ss ts) : Rewritten h h'' q pre post ss ts := by
  obtain ⟨us, hch, hus, hnd, hfrom, hread⟩ := hrew.carries
  have hq := hext.node_eq q hh.lt_size
  refine ⟨hrew.wellFormed, hext.size_le.trans hrew.size_le, fun k hk hkq hks => ?_, ?_, ?_,
    us, hch, hus, hnd, fun k hk => (hfrom k hk).imp_right hext.size_le.trans, hread⟩
  · rw [hrew.node_eq k (lt_of_lt_of_le hk hext.size_le) hkq hks, hext.node_eq k hk]
  · rw [hrew.bare_eq, bare, bare, hq]
  · rw [hrew.parent_eq, parent_congr hq]

/-! ### What is reached -/

/-- What is reached stays so while a heap is extended. -/
lemma Extends.reaches (hext : h.Extends h') {k j : NodeId} (hr : h.Reaches k j) :
    h'.Reaches k j := by
  refine Relation.ReflTransGen.mono (fun a b hab => ?_) k j hr
  rwa [Child, children_congr (hext.node_eq a (lt_size_of_child hab))]

/-- **The node whose children have been rewritten** is reached from where it was. -/
lemma Rewritten.reaches (hh : Holds h q pre post ss) (hrew : Rewritten h h' q pre post ss ts)
    (hr : h.Reaches root q) : h'.Reaches root q := by
  induction hr using Relation.ReflTransGen.head_induction_on with
  | refl => exact .refl
  | @head a b hab hbq ih =>
      by_cases haq : a = q
      · rw [haq]
        exact .refl
      · have hass : a ∉ idsAll ss := fun hmem =>
          hh.notMem (hh.carries.mem_idsAll_of_reaches hmem (hbq.head hab))
        have hnode := hrew.node_eq a (lt_size_of_child hab) haq hass
        exact ih.head (by rwa [Child, children_congr hnode])

/-- A node has lost its parent, and all others that were there have kept theirs. -/
def TakenOut (h h' : Heap) (i : NodeId) : Prop :=
  ∀ k : ℕ, k < h.size → h'.parent k = if k = i then none else h.parent k

/-- A node that is replaced by new nodes is taken out. -/
lemma Extends.takenOut_replaceWith (hext : h.Extends h') (hwf : h.WellFormed)
    (hwf' : h'.WellFormed) (hi : h.parent i = some q) {is : List NodeId} (hnd : is.Nodup)
    (hnew : ∀ r : ℕ, r ∈ is → h.size ≤ r) (hlt : ∀ r : ℕ, r ∈ is → r < h'.size) :
    TakenOut h (h'.replaceWith i is).1 i := by
  intro k hk
  obtain ⟨as, bs, hch⟩ := List.append_of_mem (hwf.mem_of_parent hi)
  rw [(hext.replaced hwf hwf' hch hnd hnew hlt).parent_eq k fun hmem =>
    absurd (hnew k hmem) (Nat.not_le.mpr hk), parent_congr (hext.node_eq k hk)]

/-- **What is below a node that has lost its parent** is no longer reached from above it. -/
lemma WellFormed.not_reaches_of_takenOut (hwf : h.WellFormed) (hwf' : h'.WellFormed)
    (hi : h.parent i = some q) (hparent : TakenOut h h' i)
    (hroot : h.Reaches root q) {j : ℕ} (hr : h.Reaches i j) : ¬ h'.Reaches root j := by
  have hmem := hwf.mem_of_parent hi
  -- the way from the root to its descendants is no circle
  have hne : ∀ k : ℕ, h.Reaches i k → root ≠ k := by
    rintro k hk rfl
    exact hwf.not_reaches_parent hmem (hk.trans hroot)
  induction hr with
  | refl =>
      intro hr'
      rcases Relation.ReflTransGen.cases_tail hr' with heq | ⟨a, -, hai⟩
      · exact hne i .refl heq.symm
      · have hnone := hparent i (hwf.lt_size_of_mem hmem)
        rw [if_pos rfl, hwf'.parent_of_mem hai] at hnone
        simp at hnone
  | @tail b c hib hbc ih =>
      intro hr'
      have hci : c ≠ i := by
        rintro rfl
        exact hwf.not_reaches_parent hbc hib
      rcases Relation.ReflTransGen.cases_tail hr' with heq | ⟨a, hra, hac⟩
      · exact hne c (hib.tail hbc) heq.symm
      · have hsame := hparent c (hwf.lt_size_of_mem hbc)
        rw [if_neg hci, hwf.parent_of_mem hbc, hwf'.parent_of_mem hac, Option.some.injEq] at hsame
        exact ih (hsame ▸ hra)

end Heap

end RichText
