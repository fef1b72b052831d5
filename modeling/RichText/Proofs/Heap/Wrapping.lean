import RichText.Proofs.Heap.Edits
import RichText.Proofs.Heap.Splicing

/-!
A node wrapped.

All that is below a node is moved below a new element, which is put in place of the node once
something has been done there. In between, the tree is not attached to anything.

* `Heap.wrapChildren`: the children of a node moved below a new element;
* `Holds.wrapChildren`: there they stand as before;
* `Holds.wrap`: **the new element put in place** of the node, with what its children have become.
-/

namespace RichText

namespace Heap

open Layout (idsAll)

variable {h h' : Heap} {i q : ℕ} {e : Element}

/-- The heap with the children of a node moved below a new element. -/
def wrapChildren (h : Heap) (e : Element) (i : NodeId) : Heap :=
  (h.push { content := .element e }).moveChildren i h.size

/-! ### Below a new element -/

lemma WellFormed.wrapChildren_eq (hwf : h.WellFormed) (e : Element) (i : NodeId) :
    h.wrapChildren e i = (h.push { content := .element e }).insertAt h.size 0 (h.children i) := by
  have hnew : (h.push { content := .element e }).children h.size = [] := by
    rw [children_push rfl, children, node_of_size_le le_rfl]
  rw [wrapChildren, (hwf.push rfl rfl).moveChildren_eq i (by simp), hnew, children_push rfl]
  rfl

@[simp] lemma size_wrapChildren (hwf : h.WellFormed) (e : Element) (i : NodeId) :
    (h.wrapChildren e i).size = h.size + 1 := by
  rw [hwf.wrapChildren_eq, (hwf.push rfl rfl).size_insertAt, size_push]

lemma bare_wrapChildren (hwf : h.WellFormed) (e : Element) (i k : NodeId) :
    (h.wrapChildren e i).bare k = (h.push { content := .element e }).bare k := by
  rw [hwf.wrapChildren_eq, (hwf.push rfl rfl).bare_insertAt]

/-- The new element has the children, and no other node has them. -/
lemma children_wrapChildren (hwf : h.WellFormed) (e : Element) (i k : NodeId) :
    (h.wrapChildren e i).children k
      = if k = h.size then h.children i else (h.children k).filter (· ∉ h.children i) := by
  have hnew : h.children h.size = [] := by rw [children, node_of_size_le le_rfl]
  rw [hwf.wrapChildren_eq, (hwf.push rfl rfl).children_insertAt (by simp), children_push rfl,
    children_push rfl, hnew]
  simp

lemma parent_wrapChildren (hwf : h.WellFormed) (e : Element) (i k : NodeId) :
    (h.wrapChildren e i).parent k
      = if k ∈ h.children i then some h.size else h.parent k := by
  have hlt : ∀ c ∈ h.children i, c < (h.push { content := .element e }).size := fun c hc => by
    rw [size_push]
    exact Nat.lt_succ_of_lt (hwf.lt_size_of_mem hc)
  rw [hwf.wrapChildren_eq, (hwf.push rfl rfl).parent_insertAt hlt, parent_push rfl]

lemma WellFormed.wrapChildren (hwf : h.WellFormed) (e : Element) (i : NodeId) :
    (h.wrapChildren e i).WellFormed := by
  have hwf₁ := hwf.push (n := { content := .element e }) rfl rfl
  refine hwf₁.apply (e := .moveChildren i h.size) ⟨by simp, fun hway => ?_⟩
  -- nothing leads to the new element, which has no parent
  obtain ⟨p, -, hp⟩ := Relation.TransGen.tail'_iff.mp hway
  have hparent := hwf₁.parent_of_mem hp
  rw [parent_push rfl, parent, node_of_size_le le_rfl] at hparent
  exact absurd hparent (by simp)

/-- No other node has changed inside. -/
lemma sameInside_wrapChildren (hwf : h.WellFormed) (e : Element) {k : ℕ} (hk : k < h.size)
    (hki : k ≠ i) : SameInside h (h.wrapChildren e i) k := by
  refine ⟨?_, ?_⟩
  · rw [bare_wrapChildren hwf, bare, bare, (extends_push h _).node_eq k hk]
  · rw [children_wrapChildren hwf, if_neg (Nat.ne_of_lt hk)]
    refine hwf.filter_notMem_eq fun c hc hck => hki ?_
    rw [hwf.parent_of_mem hc] at hck
    exact (Option.some.inj hck).symm

/-- Only the node and its children are changed. -/
lemma node_wrapChildren (hwf : h.WellFormed) (e : Element) {k : ℕ} (hk : k < h.size) (hki : k ≠ i)
    (hkc : k ∉ h.children i) : (h.wrapChildren e i).node k = h.node k := by
  obtain ⟨hbare, hchildren⟩ := sameInside_wrapChildren hwf e hk hki
  refine node_eq_of_bare hbare ?_ hchildren
  rw [parent_wrapChildren hwf, if_neg hkc]

section Layout

variable {s : Layout}

/-- What is below the node has not changed inside. -/
lemma sameInside_below (hwf : h.WellFormed) (hs : h.Carries s) (hnd : s.ids.Nodup) (e : Element) :
    ∀ k ∈ idsAll s.children, SameInside h (h.wrapChildren e s.id) k := fun k hk =>
  sameInside_wrapChildren hwf e (hs.carriesAll_children.lt_size k hk) fun hks =>
    Layout.id_notMem_idsAll_children hnd (hks ▸ hk)

/-- **The children of a node stand below a new element** as they stood before. -/
lemma Holds.wrapChildren (hwf : h.WellFormed) (hs : h.Carries s) (hnd : s.ids.Nodup) (e : Element) :
    Holds (h.wrapChildren e s.id) h.size [] [] s.children where
  wellFormed := hwf.wrapChildren e s.id
  lt_size := by simp [hwf]
  children_eq := by
    rw [children_wrapChildren hwf, if_pos rfl, hs.children_eq, List.nil_append, List.append_nil]
  carries := carriesAll_congr (by simp [hwf]) (sameInside_below hwf hs hnd e) hs.carriesAll_children
  nodup := Layout.nodup_idsAll_children hnd
  notMem hmem := absurd (hs.carriesAll_children.lt_size _ hmem) (Nat.lt_irrefl _)

lemma readAll_wrapChildren (hwf : h.WellFormed) (hs : h.Carries s) (hnd : s.ids.Nodup)
    (e : Element) : (h.wrapChildren e s.id).readAll s.children = h.readAll s.children :=
  readAll_congr fun k hk => (sameInside_below hwf hs hnd e k hk).content_eq

end Layout

/-! ### In place of the node -/

section Wrap

variable {s : Layout} {pre post : List NodeId} {ts : List Tree}

/-- The new element is a tree of its own. -/
lemma Rewritten.carries_wrap (hwf : h.WellFormed)
    (hrew : Rewritten (h.wrapChildren e s.id) h' h.size [] [] s.children ts) :
    ∃ us : List Layout, h'.Carries (.node h.size us) ∧ h'.read (.node h.size us) = .element e ts
      ∧ (idsAll us).Nodup ∧ ∀ k : ℕ, k ∈ idsAll us → k ∈ idsAll s.children ∨ h.size < k := by
  obtain ⟨us, hch, hus, hnd, hfrom, hread⟩ := hrew.carries
  rw [List.nil_append, List.append_nil] at hch
  have hbare : h'.bare h.size = (.element e, none) := by
    rw [hrew.bare_eq, bare_wrapChildren hwf, bare, node_push, if_pos rfl]
  have hcontent : h'.content h.size = .element e := congrArg Prod.fst hbare
  have hsize : h.size < h'.size := lt_of_lt_of_le (by simp [hwf]) hrew.size_le
  refine ⟨us, ⟨hsize, congrArg Prod.snd hbare, by simp [hcontent, Content.isLeaf], hch, hus⟩, ?_,
    hnd, fun k hk => ?_⟩
  · rw [read, hcontent, hread]
  · have := hfrom k hk
    rwa [size_wrapChildren hwf, Nat.succ_le_iff] at this

/-- Nothing has changed outside of the tree of the node. -/
lemma Rewritten.node_eq_wrap (hwf : h.WellFormed) (hs : h.Carries s)
    (hrew : Rewritten (h.wrapChildren e s.id) h' h.size [] [] s.children ts) {k : ℕ}
    (hk : k < h.size) (hks : k ∉ s.ids) : h'.node k = h.node k := by
  have hkc : k ∉ idsAll s.children := fun hkc => hks (s.idsAll_children_subset hkc)
  have hki : k ≠ s.id := fun hki => hks (hki ▸ s.id_mem_ids)
  rw [hrew.node_eq k (by simpa [hwf] using Nat.lt_succ_of_lt hk) (Nat.ne_of_lt hk) hkc]
  refine node_wrapChildren hwf e hk hki fun hmem => hkc ?_
  rw [hs.children_eq] at hmem
  exact Layout.id_mem_idsAll hmem

/-- **A node wrapped**: the new element stands in place of the node, and below it what its children
have become. -/
theorem Holds.wrap (hs : Holds h q pre post [s])
    (hrew : Rewritten (h.wrapChildren e s.id) h' h.size [] [] s.children ts) :
    h'.parent s.id = some q ∧ h'.standIns h.size = [h.size] ∧ ¬ h'.Reaches h.size q
      ∧ Rewritten h (h'.replaceWith s.id [h.size]).1 q pre post [s] [.element e ts] := by
  have hwf := hs.wellFormed
  have hcarries := hs.carries.1
  have hqs := hs.notMem_ids
  obtain ⟨us, hu, hread, hndu, hfrom⟩ := hrew.carries_wrap hwf
  have hnode : ∀ k : ℕ, k < h.size → k ∉ s.ids → h'.node k = h.node k := fun k hk hks =>
    hrew.node_eq_wrap hwf hcarries hk hks
  have hparent : h'.parent s.id = some q := by
    refine hrew.wellFormed.parent_of_mem ?_
    rw [children_congr (hnode q hs.lt_size hqs), hs.children_eq]
    simp
  have hus : h'.CarriesAll [.node h.size us] := ⟨hu, trivial⟩
  have hids : idsAll [.node h.size us] = h.size :: idsAll us := by
    rw [Layout.idsAll_singleton, Layout.ids]
  have hnot : ¬ h'.Reaches h.size q := by
    intro hr
    have hmem := hus.mem_idsAll_of_reaches (by rw [hids]; exact List.mem_cons_self) hr
    rw [hids, List.mem_cons] at hmem
    have hlt := hs.lt_size
    rcases hmem with rfl | hmem
    · exact Nat.lt_irrefl _ hlt
    · exact (hfrom q hmem).elim (fun hqc => hqs (s.idsAll_children_subset hqc)) (by omega)
  have hstand : h'.standIns h.size = [h.size] := by
    have hcontent : h'.content h.size = .element e := by
      rw [read] at hread
      cases hc : h'.content h.size <;> simp_all
    rw [standIns, isContainer, hcontent]
    simp
  refine ⟨hparent, hstand, hnot, ?_⟩
  have hplaced := hs.replace (Nat.le_of_succ_le (by simpa [hwf] using hrew.size_le)) hnode
    hrew.wellFormed hus
    (by
      rw [hids, List.nodup_cons]
      refine ⟨fun hmem => ?_, hndu⟩
      exact (hfrom _ hmem).elim
        (fun hkc => Nat.lt_irrefl _ (hcarries.carriesAll_children.lt_size _ hkc)) (Nat.lt_irrefl _))
    (fun k hk => by
      rw [hids, List.mem_cons] at hk
      rcases hk with rfl | hk
      · exact .inr le_rfl
      · exact (hfrom k hk).imp_right Nat.le_of_lt)
    (fun r hr => by
      obtain rfl : r = h.size := by simpa [Layout.id] using hr
      exact le_rfl)
  rwa [readAll, readAll, hread] at hplaced

end Wrap

end Heap

end RichText
