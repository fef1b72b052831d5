import RichText.Proofs.Heap.Edits
import RichText.Proofs.Heap.Splicing

/-!
The same place in two heaps.

Two heaps that extend a third one have the same places as that. When new nodes are put in such a
place in both, and are the same trees, then every tree of the third heap has become the same in
both.

* `PutIn`: new nodes stand in a child list, and nothing else has changed;
* `Extends.putIn_insertAt`, `WellFormed.putIn_replaceWith`: new nodes put in front of an index, and
  in place of a node, which is the same place in every extension;
* `PutIn.tree_eq`: **the trees agree**, by induction on their nodes.
-/

namespace RichText

namespace Heap

open Layout (idsAll depthAll)

variable {h k k₁ k₂ : Heap} {i q : ℕ} {as bs : List NodeId} {us us₁ us₂ : List Layout}

/-! ### New nodes in a place -/

/-- Between `as` and `bs`, which stood there, new nodes that carry `us` are in the child list of
`q`. Apart from that and from parents, what was there is as before. -/
structure PutIn (h h' : Heap) (q : ℕ) (as bs : List NodeId) (us : List Layout) : Prop where
  size_le : h.size ≤ h'.size
  bare_eq : ∀ j : ℕ, j < h.size → h'.bare j = h.bare j
  children_eq : ∀ j : ℕ, j < h.size → j ≠ q → h'.children j = h.children j
  place_eq : h'.children q = as ++ us.map Layout.id ++ bs
  stood : ∀ j ∈ as ++ bs, j ∈ h.children q
  carries : h'.CarriesAll us
  nodup : (idsAll us).Nodup
  new : ∀ j : ℕ, j ∈ idsAll us → h.size ≤ j

/-- The children of a node in front of the place for an index. -/
def childrenBefore (h : Heap) (q : NodeId) (index : ℕ) : List NodeId :=
  (h.children q).take (insertionIndex (h.children q) (h.children q)[index]? index)

/-- The children of a node behind the place for an index. -/
def childrenBehind (h : Heap) (q : NodeId) (index : ℕ) : List NodeId :=
  (h.children q).drop (insertionIndex (h.children q) (h.children q)[index]? index)

/-- **New nodes put in front of an index** go to the same place in every extension. -/
lemma Extends.putIn_insertAt (hext : h.Extends k) (hwf : h.WellFormed) (hwfk : k.WellFormed)
    (hq : q < h.size) (index : ℕ) (hus : k.CarriesAll us) (hnd : (idsAll us).Nodup)
    (hnew : ∀ j : ℕ, j ∈ idsAll us → h.size ≤ j) :
    PutIn h (k.insertAt q index (us.map Layout.id)) q (h.childrenBefore q index)
      (h.childrenBehind q index) us := by
  have hqk : q < k.size := lt_of_lt_of_le hq hext.size_le
  have hsame : ∀ j : ℕ, j < h.size → k.children j = h.children j := fun j hj =>
    children_congr (hext.node_eq j hj)
  have hroots : ∀ r : ℕ, r ∈ us.map Layout.id → h.size ≤ r := fun r hr =>
    hnew r (Layout.id_mem_idsAll hr)
  have hplace : k.insertionPlace q index (us.map Layout.id)
      = insertionIndex (h.children q) (h.children q)[index]? index := by
    rw [insertionPlace, hsame q hq, hwf.filter_notMem_of_new hroots]
  refine ⟨?_, fun j hj => ?_, fun j hj hjq => ?_, ?_, fun j hj => ?_, ?_, hnd, hnew⟩
  · rw [hwfk.size_insertAt]
    exact hext.size_le
  · rw [hwfk.bare_insertAt, bare, bare, hext.node_eq j hj]
  · rw [hwfk.children_insertAt hqk, if_neg hjq, hsame j hj, hwf.filter_notMem_of_new hroots]
  · rw [hwfk.children_insertAt hqk, if_pos rfl, hplace, hsame q hq,
      hwf.filter_notMem_of_new hroots]
    rfl
  · rwa [childrenBefore, childrenBehind, List.take_append_drop] at hj
  · refine carriesAll_congr (hwfk.size_insertAt ..).ge (fun j hj => ⟨hwfk.bare_insertAt .., ?_⟩) hus
    have hjq : j ≠ q := fun hjq => absurd (hnew j hj) (Nat.not_le.mpr (hjq ▸ hq))
    rw [hwfk.children_insertAt hqk, if_neg hjq]
    exact List.filter_eq_self.mpr fun x hx => decide_eq_true (hus.notMem_roots hnd hj hx)

/-- **New nodes put in place of a node** go to the same place in every extension. -/
lemma WellFormed.putIn_replaceWith (hwf : h.WellFormed) (hi : h.parent i = some q) :
    ∃ as bs, ∀ {k : Heap} {us : List Layout}, h.Extends k → k.WellFormed → k.CarriesAll us →
      (idsAll us).Nodup → (∀ j : ℕ, j ∈ idsAll us → h.size ≤ j) →
        PutIn h (k.replaceWith i (us.map Layout.id)).1 q as bs us := by
  have hmem := hwf.mem_of_parent hi
  obtain ⟨as, bs, hch⟩ := List.append_of_mem hmem
  refine ⟨as, bs, fun {k us} hext hwfk hus hnd hnew => ?_⟩
  have hroots : ∀ r : ℕ, r ∈ us.map Layout.id → h.size ≤ r := fun r hr =>
    hnew r (Layout.id_mem_idsAll hr)
  have hq : q ∉ idsAll us := fun hqu => absurd (hnew q hqu) (Nat.not_le.mpr (lt_size_of_child hmem))
  have hrep := hext.replaced hwf hwfk hch (Layout.nodup_map_id hnd) hroots
    fun r hr => hus.lt_size r (Layout.id_mem_idsAll hr)
  refine ⟨hrep.size_eq ▸ hext.size_le, fun j hj => ?_, fun j hj hjq => ?_, hrep.place_eq,
    fun j hj => ?_, hrep.carriesAll hus hnd hq, hnd, hnew⟩
  · rw [hrep.bare_eq, bare, bare, hext.node_eq j hj]
  · rw [hrep.children_eq j hjq, children_congr (hext.node_eq j hj),
      hwf.filter_notMem_of_new hroots]
  · rw [hch]
    rcases List.mem_append.mp hj with hj | hj <;> simp [hj]

/-- A replacement changes places only. -/
lemma WellFormed.bare_replaceWith (hwf : h.WellFormed) (i : NodeId) (is : List NodeId)
    (j : NodeId) : (h.replaceWith i is).1.bare j = h.bare j := by
  cases hdone : (h.replaceWith i is).2 with
  | false => rw [replaceWith_of_eq_false hdone]
  | true =>
      obtain ⟨p, index, -, -, heq⟩ := hwf.exists_of_replaceWith hdone
      rw [heq]
      split
      · rfl
      · rw [(hwf.detach i).bare_insertAt, bare_detach]

/-! ### Trees in which nodes have been put -/

namespace PutIn

/-- The new nodes are as many as fit in. -/
lemma size_add_le (h₁ : PutIn h k₁ q as bs us) : h.size + (idsAll us).length ≤ k₁.size := by
  have hnd : (List.range h.size ++ idsAll us).Nodup := by
    refine List.nodup_append.mpr ⟨List.nodup_range, h₁.nodup, ?_⟩
    rintro j hj _ hj' rfl
    exact absurd (List.mem_range.mp hj) (Nat.not_lt.mpr (h₁.new j hj'))
  have hlt : ∀ j ∈ List.range h.size ++ idsAll us, j < k₁.size := by
    intro j hj
    rcases List.mem_append.mp hj with hj | hj
    · exact lt_of_lt_of_le (List.mem_range.mp hj) h₁.size_le
    · exact h₁.carries.lt_size j hj
  simpa using length_le_size hnd hlt

variable {d₁ d₂ : ℕ}

/-- Children that agree before agree when the same trees have been put among them. -/
lemma map_treeTo_eq (h₁ : PutIn h k₁ q as bs us₁) (h₂ : PutIn h k₂ q as bs us₂)
    (hread : k₁.readAll us₁ = k₂.readAll us₂) (hd₁ : depthAll us₁ ≤ d₁) (hd₂ : depthAll us₂ ≤ d₂)
    {j : NodeId} (hj : j < h.size)
    (hall : ∀ c ∈ h.children j, k₁.treeTo d₁ c = k₂.treeTo d₂ c) :
    (k₁.children j).map (k₁.treeTo d₁) = (k₂.children j).map (k₂.treeTo d₂) := by
  by_cases hjq : j = q
  · subst hjq
    have hstood : ∀ l : List NodeId, l ⊆ as ++ bs →
        l.map (k₁.treeTo d₁) = l.map (k₂.treeTo d₂) := fun l hl =>
      List.map_congr_left fun c hc => hall c (h₁.stood c (hl hc))
    have hput : (us₁.map Layout.id).map (k₁.treeTo d₁) = (us₂.map Layout.id).map (k₂.treeTo d₂) := by
      rw [List.map_map, List.map_map, map_treeTo_eq_readAll h₁.carries hd₁,
        map_treeTo_eq_readAll h₂.carries hd₂, hread]
    rw [h₁.place_eq, h₂.place_eq]
    simp only [List.map_append, hput, hstood as (List.subset_append_left as bs),
      hstood bs (List.subset_append_right as bs)]
  · rw [h₁.children_eq j hj hjq, h₂.children_eq j hj hjq]
    exact List.map_congr_left hall

mutual

/-- A tree of the heap that both extend has become the same in both. -/
lemma treeTo_eq (h₁ : PutIn h k₁ q as bs us₁) (h₂ : PutIn h k₂ q as bs us₂)
    (hread : k₁.readAll us₁ = k₂.readAll us₂) : ∀ {s : Layout} {d₁ d₂ : ℕ}, h.Carries s →
      s.depth + depthAll us₁ ≤ d₁ → s.depth + depthAll us₂ ≤ d₂ →
        k₁.treeTo d₁ s.id = k₂.treeTo d₂ s.id
  | .node i cs, 0, _, _, hd₁, _ => by simp [Layout.depth] at hd₁
  | .node i cs, _, 0, _, _, hd₂ => by simp [Layout.depth] at hd₂
  | .node i cs, d₁ + 1, d₂ + 1, ⟨hi, hcont, _, hch, hcs⟩, hd₁, hd₂ => by
      rw [Layout.depth] at hd₁ hd₂
      have hchildren : (k₁.children i).map (k₁.treeTo d₁) = (k₂.children i).map (k₂.treeTo d₂) :=
        map_treeTo_eq h₁ h₂ hread (by omega) (by omega) hi
          (treeTo_eq_all h₁ h₂ hread hch hcs (by omega) (by omega))
      obtain ⟨hcontent, hcontents⟩ := Prod.mk.inj ((h₁.bare_eq i hi).trans (h₂.bare_eq i hi).symm)
      have hnone : (k₂.node i).contents = none :=
        (congrArg Prod.snd (h₂.bare_eq i hi)).trans hcont
      simp only [Layout.id, treeTo, content, hcontent, hcontents, hchildren, hnone]
  | .template i cs inner vs, 0, _, _, hd₁, _ => by simp [Layout.depth] at hd₁
  | .template i cs inner vs, _, 0, _, _, hd₂ => by simp [Layout.depth] at hd₂
  | .template i cs inner vs, d₁ + 1, d₂ + 1, ⟨hi, hcont, _, hch, hcs, hinner, hin, hvs⟩,
      hd₁, hd₂ => by
      rw [Layout.depth] at hd₁ hd₂
      have hchildren : (k₁.children i).map (k₁.treeTo d₁) = (k₂.children i).map (k₂.treeTo d₂) :=
        map_treeTo_eq h₁ h₂ hread (by omega) (by omega) hi
          (treeTo_eq_all h₁ h₂ hread hch hcs (by omega) (by omega))
      have hvs' : (k₁.children inner).map (k₁.treeTo d₁)
          = (k₂.children inner).map (k₂.treeTo d₂) :=
        map_treeTo_eq h₁ h₂ hread (by omega) (by omega) hinner
          (treeTo_eq_all h₁ h₂ hread hin hvs (by omega) (by omega))
      obtain ⟨hcontent, hcontents⟩ := Prod.mk.inj ((h₁.bare_eq i hi).trans (h₂.bare_eq i hi).symm)
      have hinner' : (k₂.node i).contents = some inner :=
        (congrArg Prod.snd (h₂.bare_eq i hi)).trans hcont
      simp only [Layout.id, treeTo, content, hcontent, hcontents, hchildren, hinner', hvs']

lemma treeTo_eq_all (h₁ : PutIn h k₁ q as bs us₁) (h₂ : PutIn h k₂ q as bs us₂)
    (hread : k₁.readAll us₁ = k₂.readAll us₂) : ∀ {ss : List Layout} {js : List NodeId} {d₁ d₂ : ℕ},
      js = ss.map Layout.id → h.CarriesAll ss →
      depthAll ss + depthAll us₁ ≤ d₁ → depthAll ss + depthAll us₂ ≤ d₂ →
        ∀ c ∈ js, k₁.treeTo d₁ c = k₂.treeTo d₂ c
  | [], _, _, _, hjs, _, _, _, c, hc => by simp [hjs] at hc
  | s :: ss, _, d₁, d₂, hjs, ⟨hs, hss⟩, hd₁, hd₂, c, hc => by
      rw [depthAll] at hd₁ hd₂
      rw [hjs, List.map_cons, List.mem_cons] at hc
      rcases hc with rfl | hc
      · exact treeTo_eq h₁ h₂ hread hs (by omega) (by omega)
      · exact treeTo_eq_all h₁ h₂ hread rfl hss (by omega) (by omega) c hc

end

/-- **The trees agree**: a tree of the heap that both extend, in which each node occurs once, has
become the same in both if the same trees have been put in the same place. -/
theorem tree_eq (h₁ : PutIn h k₁ q as bs us₁) (h₂ : PutIn h k₂ q as bs us₂)
    (hread : k₁.readAll us₁ = k₂.readAll us₂) {s : Layout} (hs : h.Carries s)
    (hnd : s.ids.Nodup) : k₁.tree s.id = k₂.tree s.id := by
  have hdepth := hs.depth_le_size hnd
  have hfits : ∀ {k : Heap} {us : List Layout}, PutIn h k q as bs us →
      s.depth + depthAll us ≤ k.size + 1 := by
    intro k us hput
    have hsize := hput.size_add_le
    have hlevels := Layout.depthAll_le_length_idsAll us
    omega
  exact treeTo_eq h₁ h₂ hread hs (hfits h₁) (hfits h₂)

end PutIn

end Heap

end RichText
