import RichText.Proofs.Heap.Planting

/-!
What is outside of the part of a heap in which something has happened.

A part is what is at or below a node. If the nodes that were there outside of it have kept their
parents, they are still outside of it, and what has led to them from above still does.

* `KeptOutside`: the nodes outside of a part have kept their parents;
* `KeptOutside.not_within`, `KeptOutside.reaches`: **what is outside stays outside**, and is reached
  as before;
* `KeptOutside.trans`, `KeptOutside.widen`: one change after the other, and larger parts.
-/

namespace RichText

namespace Heap

variable {h h' h'' : Heap} {a i j k q : ℕ} {part : Option NodeId}

/-- Whether a node is in the part at or below a node. No node is in the part `none`. -/
def Within (h : Heap) (part : Option NodeId) (k : NodeId) : Prop :=
  ∃ i ∈ part, h.Reaches i k

/-- The nodes of a heap outside of a part have kept their parents. -/
def KeptOutside (part : Option NodeId) (h h' : Heap) : Prop :=
  ∀ k < h.size, ¬ h.Within part k → h'.parent k = h.parent k

lemma within_some : h.Within (some i) k ↔ h.Reaches i k := by
  simp [Within]

/-- What is above a node outside of a part is outside of it. -/
lemma not_within_of_reaches (hk : ¬ h.Within part k) (hr : h.Reaches a k) : ¬ h.Within part a := by
  rintro ⟨i, hi, hia⟩
  exact hk ⟨i, hi, hia.trans hr⟩

/-- The parts below two children of a node have nothing in common. -/
lemma WellFormed.not_reaches_sibling (hwf : h.WellFormed) (hi : h.Child q i) (hj : h.Child q j)
    (hne : i ≠ j) : ¬ h.Reaches i j := by
  intro hr
  rcases Relation.ReflTransGen.cases_tail hr with heq | ⟨b, hib, hbj⟩
  · exact hne heq.symm
  · have hparent := hwf.parent_of_mem hj
    rw [hwf.parent_of_mem hbj, Option.some.injEq] at hparent
    exact hwf.not_reaches_parent hi (hparent ▸ hib)

namespace KeptOutside

lemma refl (part : Option NodeId) (h : Heap) : KeptOutside part h h := fun _ _ _ => rfl

lemma of_extends (hext : h.Extends h') (part : Option NodeId) : KeptOutside part h h' :=
  fun k hk _ => parent_congr (hext.node_eq k hk)

/-- What has happened at or below a node has happened at or below any node above it. -/
lemma widen (hkept : KeptOutside (some i) h h') (hr : h.Reaches j i) :
    KeptOutside (some j) h h' := by
  intro k hk hnot
  rw [within_some] at hnot
  refine hkept k hk ?_
  rw [within_some]
  exact fun hik => hnot (hr.trans hik)

/-- **What is outside** of a part stays outside of it. -/
lemma not_within (hkept : KeptOutside part h h') (hwf : h.WellFormed) (hwf' : h'.WellFormed)
    (hk : k < h.size) (hnot : ¬ h.Within part k) : ¬ h'.Within part k := by
  rintro ⟨i, hi, hr⟩
  -- by induction on the way down in the later heap: each step of it was there before
  induction hr with
  | refl => exact hnot ⟨i, hi, .refl⟩
  | @tail b c _ hbc ih =>
      have hparent := hkept c hk hnot
      rw [hwf'.parent_of_mem hbc] at hparent
      have hchild : h.Child b c := hwf.mem_of_parent hparent.symm
      exact ih (lt_size_of_child hchild) (not_within_of_reaches hnot (.single hchild))

/-- What leads to a node outside of a part still does. -/
lemma reaches (hkept : KeptOutside part h h') (hwf : h.WellFormed) (hwf' : h'.WellFormed)
    (hr : h.Reaches a k) (hnot : ¬ h.Within part k) : h'.Reaches a k := by
  induction hr with
  | refl => exact .refl
  | @tail b c _ hbc ih =>
      have hparent := hkept c (hwf.lt_size_of_mem hbc) hnot
      rw [hwf.parent_of_mem hbc] at hparent
      exact (ih (not_within_of_reaches hnot (.single hbc))).tail (hwf'.mem_of_parent hparent)

/-- A child outside of a part is still one. -/
lemma child (hkept : KeptOutside part h h') (hwf : h.WellFormed) (hwf' : h'.WellFormed)
    (hc : h.Child q k) (hnot : ¬ h.Within part k) : h'.Child q k := by
  have hparent := hkept k (hwf.lt_size_of_mem hc) hnot
  rw [hwf.parent_of_mem hc] at hparent
  exact hwf'.mem_of_parent hparent

/-- **One change after the other** in the same part. -/
lemma trans (hkept : KeptOutside part h h') (hkept' : KeptOutside part h' h'')
    (hwf : h.WellFormed) (hwf' : h'.WellFormed) (hsize : h.size ≤ h'.size) :
    KeptOutside part h h'' := fun k hk hnot => by
  rw [hkept' k (lt_of_lt_of_le hk hsize) (hkept.not_within hwf hwf' hk hnot), hkept k hk hnot]

end KeptOutside

end Heap

end RichText
