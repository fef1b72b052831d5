import RichText.Dom.Planting
import RichText.Proofs.Heap.Moves

/-!
Trees of identities, and the trees that a heap holds.

A `Layout` names the nodes of a tree; a heap carries it if the nodes stand as it says, and then
holds a plain tree there (`Heap.read`). A layout whose identities are all different is a tree in
which each node occurs once.

* `carries_congr`, `read_congr`: a layout is carried as long as its own nodes stay as they are;
* `treeTo_eq_read`, `tree_eq_read`, `forest_eq_readAll`: the trees read down to a depth are those
  of the layout.
-/

namespace RichText

/-- Whether a node of this kind has no inside. -/
def Content.isLeaf : Content → Bool
  | document | element _ => false
  | text _ | comment _ | doctype .. => true

/-- The nodes of a tree. A template has, apart from its children, the root of its contents and
what is below that. -/
inductive Layout where
  | node (id : NodeId) (children : List Layout)
  | template (id : NodeId) (children : List Layout) (inner : NodeId) (contents : List Layout)

namespace Layout

/-- The root of a layout. -/
def id : Layout → NodeId
  | node i _ => i
  | template i _ _ _ => i

/-- The layouts of the children. -/
def children : Layout → List Layout
  | node _ cs => cs
  | template _ cs _ _ => cs

mutual

/-- The nodes of a layout, the contents of templates included. -/
def ids : Layout → List NodeId
  | node i cs => i :: idsAll cs
  | template i cs inner us => i :: (idsAll cs ++ inner :: idsAll us)

/-- The nodes of several layouts. -/
def idsAll : List Layout → List NodeId
  | [] => []
  | s :: ss => ids s ++ idsAll ss

end

mutual

/-- The number of levels of a layout. -/
def depth : Layout → ℕ
  | node _ cs => depthAll cs + 1
  | template _ cs _ us => max (depthAll cs) (depthAll us) + 1

/-- The greatest number of levels of several layouts. -/
def depthAll : List Layout → ℕ
  | [] => 0
  | s :: ss => max (depth s) (depthAll ss)

end

lemma idsAll_append (ss us : List Layout) : idsAll (ss ++ us) = idsAll ss ++ idsAll us := by
  induction ss with
  | nil => rfl
  | cons s ss ih => rw [List.cons_append, idsAll, idsAll, ih, List.append_assoc]

@[simp] lemma idsAll_singleton (s : Layout) : idsAll [s] = s.ids := by
  rw [idsAll, idsAll, List.append_nil]

lemma mem_idsAll {ss : List Layout} {k : NodeId} : k ∈ idsAll ss ↔ ∃ s ∈ ss, k ∈ s.ids := by
  induction ss with
  | nil => simp [idsAll]
  | cons s ss ih => simp [idsAll, ih]

lemma id_mem_ids (s : Layout) : s.id ∈ s.ids := by
  cases s <;> simp [id, ids]

lemma cons_tail_ids (s : Layout) : s.id :: s.ids.tail = s.ids := by
  cases s <;> rfl

/-- The nodes of the children are nodes of the layout. -/
lemma idsAll_children_subset (s : Layout) : idsAll s.children ⊆ s.ids := by
  intro k hk
  cases s <;> simp_all [children, ids]

/-- The root is not among the nodes of its children. -/
lemma id_notMem_idsAll_children {s : Layout} (hnd : s.ids.Nodup) : s.id ∉ idsAll s.children := by
  cases s <;> simp_all [children, ids, id]

lemma nodup_idsAll_children {s : Layout} (hnd : s.ids.Nodup) : (idsAll s.children).Nodup := by
  cases s with
  | node i cs => exact (List.nodup_cons.mp hnd).2
  | template i cs inner us => exact (List.nodup_append.mp (List.nodup_cons.mp hnd).2).1

/-- The roots are nodes of the layouts. -/
lemma id_mem_idsAll {ss : List Layout} {k : NodeId} (hk : k ∈ ss.map id) : k ∈ idsAll ss := by
  obtain ⟨s, hs, rfl⟩ := List.mem_map.mp hk
  exact mem_idsAll.mpr ⟨s, hs, s.id_mem_ids⟩

lemma nodup_map_id {ss : List Layout} (hnd : (idsAll ss).Nodup) : (ss.map id).Nodup := by
  induction ss with
  | nil => simp
  | cons s ss ih =>
      rw [idsAll, List.nodup_append] at hnd
      rw [List.map_cons, List.nodup_cons]
      exact ⟨fun hmem => hnd.2.2 _ s.id_mem_ids _ (id_mem_idsAll hmem) rfl, ih hnd.2.1⟩

mutual

/-- There are no more levels than nodes. -/
lemma depth_le_length_ids : ∀ s : Layout, s.depth ≤ s.ids.length
  | node i cs => by
      have := depthAll_le_length_idsAll cs
      simp only [depth, ids, List.length_cons]
      omega
  | template i cs inner us => by
      have h1 := depthAll_le_length_idsAll cs
      have h2 := depthAll_le_length_idsAll us
      simp only [depth, ids, List.length_cons, List.length_append]
      omega

lemma depthAll_le_length_idsAll : ∀ ss : List Layout, depthAll ss ≤ (idsAll ss).length
  | [] => by simp [depthAll]
  | s :: ss => by
      have h1 := depth_le_length_ids s
      have h2 := depthAll_le_length_idsAll ss
      simp only [depthAll, idsAll, List.length_append]
      omega

end

end Layout

namespace Heap

open Layout (idsAll depthAll)

variable {h h' : Heap} {i p : NodeId}

mutual

/-- Whether the nodes of a layout stand as it says. -/
def Carries (h : Heap) : Layout → Prop
  | .node i cs =>
      i < h.size ∧ (h.node i).contents = none ∧ ((h.content i).isLeaf → cs = [])
        ∧ h.children i = cs.map Layout.id ∧ CarriesAll h cs
  | .template i cs inner us =>
      i < h.size ∧ (h.node i).contents = some inner
        ∧ (∃ as, h.content i = .element (templateElement as))
        ∧ h.children i = cs.map Layout.id ∧ CarriesAll h cs
        ∧ inner < h.size ∧ h.children inner = us.map Layout.id ∧ CarriesAll h us

/-- Whether the nodes of several layouts stand as these say. -/
def CarriesAll (h : Heap) : List Layout → Prop
  | [] => True
  | s :: ss => Carries h s ∧ CarriesAll h ss

end

mutual

/-- The tree that a layout is in a heap. -/
def read (h : Heap) : Layout → Tree
  | .node i cs =>
      match h.content i with
      | .document => .document (readAll h cs)
      | .text s => .text s
      | .comment s => .comment s
      | .doctype name publicId systemId => .doctype name publicId systemId
      | .element e => .element e (readAll h cs)
  | .template i cs _ us =>
      match h.content i with
      | .element e => .template e.attributes (readAll h cs) (readAll h us)
      | _ => .document (readAll h cs)

/-- The trees that several layouts are. -/
def readAll (h : Heap) : List Layout → List Tree
  | [] => []
  | s :: ss => read h s :: readAll h ss

end

lemma carriesAll_append {ss us : List Layout} :
    h.CarriesAll (ss ++ us) ↔ h.CarriesAll ss ∧ h.CarriesAll us := by
  induction ss with
  | nil => simp [CarriesAll]
  | cons s ss ih => simp [CarriesAll, ih, and_assoc]

lemma CarriesAll.of_mem {ss : List Layout} (hss : h.CarriesAll ss) {s : Layout} (hs : s ∈ ss) :
    h.Carries s := by
  obtain ⟨as, bs, rfl⟩ := List.append_of_mem hs
  exact (carriesAll_append.mp hss).2.1

lemma readAll_append (h : Heap) (ss us : List Layout) :
    h.readAll (ss ++ us) = h.readAll ss ++ h.readAll us := by
  induction ss with
  | nil => rfl
  | cons s ss ih => rw [List.cons_append, readAll, readAll, ih, List.cons_append]

lemma readAll_eq_map (h : Heap) (ss : List Layout) : h.readAll ss = ss.map h.read := by
  induction ss with
  | nil => rfl
  | cons s ss ih => rw [readAll, ih, List.map_cons]

lemma Carries.children_eq {s : Layout} (hs : h.Carries s) :
    h.children s.id = s.children.map Layout.id := by
  cases s with
  | node i cs => exact hs.2.2.2.1
  | template i cs inner us => exact hs.2.2.2.1

lemma Carries.carriesAll_children {s : Layout} (hs : h.Carries s) : h.CarriesAll s.children := by
  cases s with
  | node i cs => exact hs.2.2.2.2
  | template i cs inner us => exact hs.2.2.2.2.1

lemma Carries.id_lt {s : Layout} (hs : h.Carries s) : s.id < h.size := by
  cases s with
  | node i cs => exact hs.1
  | template i cs inner us => exact hs.1

/-! ### Layouts that stay -/

lemma content_congr (hn : h'.node i = h.node i) : h'.content i = h.content i :=
  congrArg Node.content hn

lemma children_congr (hn : h'.node i = h.node i) : h'.children i = h.children i :=
  congrArg Node.children hn

lemma parent_congr (hn : h'.node i = h.node i) : h'.parent i = h.parent i :=
  congrArg Node.parent hn

/-- The parent of the root is no matter of a layout. -/
def SameInside (h h' : Heap) (k : NodeId) : Prop :=
  h'.bare k = h.bare k ∧ h'.children k = h.children k

lemma SameInside.of_node_eq {k : NodeId} (hn : h'.node k = h.node k) : SameInside h h' k :=
  ⟨by rw [bare, bare, hn], children_congr hn⟩

lemma SameInside.content_eq {k : NodeId} (hk : SameInside h h' k) : h'.content k = h.content k :=
  congrArg Prod.fst hk.1

lemma SameInside.contents_eq {k : NodeId} (hk : SameInside h h' k) :
    (h'.node k).contents = (h.node k).contents :=
  congrArg Prod.snd hk.1

mutual

/-- A layout is carried on as long as its own nodes stay as they are. -/
lemma carries_congr (hsize : h.size ≤ h'.size) :
    ∀ {s : Layout}, (∀ k ∈ s.ids, SameInside h h' k) → h.Carries s → h'.Carries s
  | .node i cs, hk, ⟨hi, hcont, hleaf, hch, hcs⟩ => by
      have hki := hk i (by simp [Layout.ids])
      refine ⟨lt_of_lt_of_le hi hsize, hki.contents_eq.trans hcont,
        fun hl => hleaf (by rwa [← hki.content_eq]), hki.2.trans hch, carriesAll_congr hsize (fun k hmem => hk k ?_) hcs⟩
      simp [Layout.ids, hmem]
  | .template i cs inner us, hk, ⟨hi, hcont, ⟨as, has⟩, hch, hcs, hinner, hin, hus⟩ => by
      have hki := hk i (by simp [Layout.ids])
      have hkn := hk inner (by simp [Layout.ids])
      refine ⟨lt_of_lt_of_le hi hsize, hki.contents_eq.trans hcont, ⟨as, hki.content_eq.trans has⟩,
        hki.2.trans hch, carriesAll_congr hsize (fun k hmem => hk k ?_) hcs,
        lt_of_lt_of_le hinner hsize,
        hkn.2.trans hin, carriesAll_congr hsize (fun k hmem => hk k ?_) hus⟩
      · simp [Layout.ids, hmem]
      · simp [Layout.ids, hmem]

lemma carriesAll_congr (hsize : h.size ≤ h'.size) :
    ∀ {ss : List Layout}, (∀ k ∈ idsAll ss, SameInside h h' k) → h.CarriesAll ss →
      h'.CarriesAll ss
  | [], _, _ => trivial
  | s :: ss, hk, ⟨hs, hss⟩ =>
      ⟨carries_congr hsize (fun k hmem => hk k (by simp [idsAll, hmem])) hs,
        carriesAll_congr hsize (fun k hmem => hk k (by simp [idsAll, hmem])) hss⟩

end

mutual

/-- A layout is the same tree as long as its own nodes stay what they are. -/
lemma read_congr : ∀ {s : Layout}, (∀ k ∈ s.ids, h'.content k = h.content k) →
    h'.read s = h.read s
  | .node i cs, hk => by
      have hcs : h'.readAll cs = h.readAll cs :=
        readAll_congr fun k hmem => hk k (by simp [Layout.ids, hmem])
      rw [read, read, hk i (by simp [Layout.ids]), hcs]
  | .template i cs inner us, hk => by
      have hcs : h'.readAll cs = h.readAll cs :=
        readAll_congr fun k hmem => hk k (by simp [Layout.ids, hmem])
      have hus : h'.readAll us = h.readAll us :=
        readAll_congr fun k hmem => hk k (by simp [Layout.ids, hmem])
      rw [read, read, hk i (by simp [Layout.ids]), hcs, hus]

lemma readAll_congr : ∀ {ss : List Layout}, (∀ k ∈ idsAll ss, h'.content k = h.content k) →
    h'.readAll ss = h.readAll ss
  | [], _ => rfl
  | s :: ss, hk => by
      rw [readAll, readAll, read_congr fun k hmem => hk k (by simp [idsAll, hmem]),
        readAll_congr fun k hmem => hk k (by simp [idsAll, hmem])]

end

mutual

/-- The nodes of a carried layout are nodes of the heap. -/
lemma Carries.lt_size : ∀ {s : Layout}, h.Carries s → ∀ k ∈ s.ids, k < h.size
  | .node i cs, ⟨hi, _, _, _, hcs⟩, k, hk => by
      rcases List.mem_cons.mp hk with rfl | hk
      · exact hi
      · exact CarriesAll.lt_size hcs k hk
  | .template i cs inner us, ⟨hi, _, _, _, hcs, hinner, _, hus⟩, k, hk => by
      simp only [Layout.ids, List.mem_cons, List.mem_append] at hk
      rcases hk with rfl | hk | rfl | hk
      · exact hi
      · exact CarriesAll.lt_size hcs k hk
      · exact hinner
      · exact CarriesAll.lt_size hus k hk

lemma CarriesAll.lt_size : ∀ {ss : List Layout}, h.CarriesAll ss → ∀ k ∈ idsAll ss, k < h.size
  | [], _, k, hk => by simp [idsAll] at hk
  | s :: ss, ⟨hs, hss⟩, k, hk => by
      rcases List.mem_append.mp hk with hk | hk
      · exact Carries.lt_size hs k hk
      · exact CarriesAll.lt_size hss k hk

end

/-! ### Trees read down to a depth -/

mutual

/-- A tree read down far enough is the tree of the layout. -/
lemma treeTo_eq_read : ∀ {s : Layout} {d : ℕ}, h.Carries s → s.depth ≤ d →
    h.treeTo d s.id = h.read s
  | .node i cs, 0, _, hd => by simp [Layout.depth] at hd
  | .node i cs, d + 1, ⟨_, hcont, _, hch, hcs⟩, hd => by
      have hmap := map_treeTo_eq_readAll hcs (d := d) (by simpa [Layout.depth] using hd)
      have hchildren : (h.children i).map (h.treeTo d) = h.readAll cs := by
        rw [hch, List.map_map]
        exact hmap
      simp only [Layout.id, treeTo, read, hchildren]
      cases h.content i <;> simp [hcont]
  | .template i cs inner us, 0, _, hd => by simp [Layout.depth] at hd
  | .template i cs inner us, d + 1, ⟨_, hcont, ⟨as, has⟩, hch, hcs, _, hin, hus⟩, hd => by
      have hd' : max (depthAll cs) (depthAll us) ≤ d := by simpa [Layout.depth] using hd
      have hmap := map_treeTo_eq_readAll hcs (d := d) (le_trans (le_max_left _ _) hd')
      have hmap' := map_treeTo_eq_readAll hus (d := d) (le_trans (le_max_right _ _) hd')
      have hchildren : (h.children i).map (h.treeTo d) = h.readAll cs := by
        rw [hch, List.map_map]
        exact hmap
      have hcontents : (h.children inner).map (h.treeTo d) = h.readAll us := by
        rw [hin, List.map_map]
        exact hmap'
      simp only [Layout.id, treeTo, read, hchildren, has, hcont, hcontents]

lemma map_treeTo_eq_readAll : ∀ {ss : List Layout} {d : ℕ}, h.CarriesAll ss → depthAll ss ≤ d →
    ss.map (h.treeTo d ∘ Layout.id) = h.readAll ss
  | [], _, _, _ => rfl
  | s :: ss, d, ⟨hs, hss⟩, hd => by
      rw [List.map_cons, readAll, Function.comp_apply,
        treeTo_eq_read hs (le_trans (le_max_left _ _) hd),
        map_treeTo_eq_readAll hss (le_trans (le_max_right _ _) hd)]

end

/-- A tree of different nodes has no more levels than the heap has nodes. -/
lemma Carries.depth_le_size {s : Layout} (hs : h.Carries s) (hnd : s.ids.Nodup) :
    s.depth ≤ h.size :=
  s.depth_le_length_ids.trans (length_le_size hnd hs.lt_size)

/-- The tree at a node is that of a layout of different nodes. -/
lemma tree_eq_read {s : Layout} (hs : h.Carries s) (hnd : s.ids.Nodup) : h.tree s.id = h.read s :=
  treeTo_eq_read hs (Nat.le_succ_of_le (hs.depth_le_size hnd))

/-- The forest below a node whose children are trees of different nodes. -/
lemma forest_eq_readAll {ss : List Layout} (hch : h.children i = ss.map Layout.id)
    (hss : h.CarriesAll ss) (hnd : (idsAll ss).Nodup) : h.forest i = h.readAll ss := by
  have hdepth : depthAll ss ≤ h.size :=
    (Layout.depthAll_le_length_idsAll ss).trans (length_le_size hnd hss.lt_size)
  rw [forest, hch, List.map_map]
  exact map_treeTo_eq_readAll hss hdepth

/-- The children of a tree are those of its layout. -/
lemma children_read {s : Layout} (hs : h.Carries s) :
    (h.read s).children = h.readAll s.children := by
  cases s with
  | node i cs =>
      have hleaf := hs.2.2.1
      simp only [read, Layout.children]
      cases hc : h.content i <;> simp_all [Tree.children, Content.isLeaf, readAll]
  | template i cs inner us =>
      obtain ⟨-, -, ⟨as, has⟩, -⟩ := hs
      simp only [read, has, Layout.children, Tree.children]

/-- The forest below the root of a layout of different nodes. -/
lemma Carries.forest_eq {s : Layout} (hs : h.Carries s) (hnd : s.ids.Nodup) :
    h.forest s.id = h.readAll s.children :=
  forest_eq_readAll hs.children_eq hs.carriesAll_children (Layout.nodup_idsAll_children hnd)

end Heap

end RichText
