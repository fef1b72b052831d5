import RichText.Proofs.Heap.Layout

/-!
Planted trees are read back.

Planting makes new nodes and changes none that were there, apart from the child list in which
the trees are put (`Planted`, `PlantedBelow`). The new nodes carry a layout that is read as the
tree that was planted.

* `PlantedBelow.trans`: trees behind other trees;
* `WellFormed.plant`, `WellFormed.plantBelow`: both, by induction on the trees.
-/

namespace RichText

namespace Heap

open Layout (idsAll)

variable {h h' h'' : Heap} {i p : ℕ}

/-- A heap with more nodes, in which those that were there are as before. -/
structure Extends (h h' : Heap) : Prop where
  size_le : h.size ≤ h'.size
  node_eq : ∀ i : ℕ, i < h.size → h'.node i = h.node i

lemma Extends.refl (h : Heap) : h.Extends h := ⟨le_rfl, fun _ _ => rfl⟩

lemma Extends.trans (h₁ : h.Extends h') (h₂ : h'.Extends h'') : h.Extends h'' :=
  ⟨h₁.size_le.trans h₂.size_le, fun i hi => by
    rw [h₂.node_eq i (lt_of_lt_of_le hi h₁.size_le), h₁.node_eq i hi]⟩

/-- What is above a node that was there was there. -/
lemma Extends.lt_size_of_reaches (hext : h.Extends h') (hwf : h.WellFormed)
    (hwf' : h'.WellFormed) {a k : ℕ} (hr : h'.Reaches a k) (hk : k < h.size) : a < h.size := by
  induction hr with
  | refl => exact hk
  | @tail b c _ hbc ih =>
      have hparent : h.parent c = some b := by
        rw [← parent_congr (hext.node_eq c hk)]
        exact hwf'.parent_of_mem hbc
      exact ih (lt_size_of_child (hwf.mem_of_parent hparent))

/-- New nodes do not lead to nodes that were there. -/
lemma Extends.not_reaches (hext : h.Extends h') (hwf : h.WellFormed) (hwf' : h'.WellFormed)
    {n k : ℕ} (hn : h.size ≤ n) (hk : k < h.size) : ¬ h'.Reaches n k := fun hr => by
  have := hext.lt_size_of_reaches hwf hwf' hr hk
  omega

/-! ### New nodes -/

lemma extends_push (h : Heap) (n : Node) : h.Extends (h.push n) where
  size_le := by simp
  node_eq i hi := by rw [node_push, if_neg (Nat.ne_of_lt hi)]

/-- A new node without place leaves all lists as they are. -/
lemma children_push {n : Node} (hn : n.children = []) (i : NodeId) :
    (h.push n).children i = h.children i := by
  rw [children, node_push]
  split
  · next hi => rw [hi, children, node_of_size_le le_rfl, hn]
  · rfl

lemma parent_push {n : Node} (hn : n.parent = none) (i : NodeId) :
    (h.push n).parent i = h.parent i := by
  rw [parent, node_push]
  split
  · next hi => rw [hi, parent, node_of_size_le le_rfl, hn]
  · rfl

/-- A new node without place keeps a heap well-formed. -/
lemma WellFormed.push (hwf : h.WellFormed) {n : Node} (hp : n.parent = none)
    (hc : n.children = []) : (h.push n).WellFormed where
  nodup q := by rw [children_push hc]; exact hwf.nodup q
  parent_iff j q := by rw [parent_push hp, children_push hc, hwf.parent_iff]
  acyclic := acyclic_of_child (fun q j hj => by rwa [Child, children_push hc] at hj) hwf.acyclic

lemma appendChild_eq_attach (hp : h.parent i = none) :
    h.appendChild p i = h.attach p [i] (h.children p ++ [i]) := by
  rw [appendChild, detach_of_parent_eq_none hp, children_setParent]
  rfl

lemma node_attach_of_notMem {is cs : List NodeId} {k : ℕ} (hk : k ∉ is) (hkp : k ≠ p) :
    (h.attach p is cs).node k = h.node k := by
  have hchild : (h.attach p is cs).children k = h.children k := by
    rw [attach, children_setChildren, children_setParents, if_neg fun hpk => hkp hpk.1.symm]
  refine node_eq_of_bare (bare_attach ..) ?_ hchild
  rw [parent_attach, if_neg fun hks => hk hks.1]

/-! ### Planting -/

/-- What planting a tree does: new nodes carry the tree at `i`, without parent. -/
structure Planted (h h' : Heap) (i : ℕ) (t : Tree) : Prop where
  wellFormed : h'.WellFormed
  extends_ : h.Extends h'
  id_eq : i = h.size
  parent_eq : h'.parent i = none
  carries : ∃ s : Layout, s.id = i ∧ h'.Carries s ∧ s.ids.Nodup ∧ (∀ k : ℕ, k ∈ s.ids → h.size ≤ k)
    ∧ h'.read s = t

/-- What planting trees below `p` does: new nodes carry the trees behind the children of `p`. -/
structure PlantedBelow (h h' : Heap) (p : ℕ) (ts : List Tree) : Prop where
  wellFormed : h'.WellFormed
  size_le : h.size ≤ h'.size
  node_eq : ∀ k : ℕ, k < h.size → k ≠ p → h'.node k = h.node k
  bare_eq : h'.bare p = h.bare p
  parent_eq : h'.parent p = h.parent p
  carries : ∃ ss : List Layout, h'.children p = h.children p ++ ss.map Layout.id
    ∧ h'.CarriesAll ss ∧ (idsAll ss).Nodup ∧ (∀ k : ℕ, k ∈ idsAll ss → h.size ≤ k)
    ∧ h'.readAll ss = ts

/-- A single new node is a planted tree. -/
lemma WellFormed.planted_push (hwf : h.WellFormed) {c : Content} {t : Tree}
    (hread : ∀ h' : Heap, h'.content h.size = c → h'.read (.node h.size []) = t) :
    Planted h (h.push { content := c }) h.size t where
  wellFormed := hwf.push rfl rfl
  extends_ := extends_push ..
  id_eq := rfl
  parent_eq := by rw [parent, node_push, if_pos rfl]
  carries := by
    have hnode : (h.push { content := c }).node h.size = { content := c } := by
      rw [node_push, if_pos rfl]
    refine ⟨.node h.size [], rfl, ⟨by simp, by rw [hnode], fun _ => rfl, ?_, trivial⟩,
      by simp [Layout.ids, idsAll], by simp [Layout.ids, idsAll],
      hread _ (by rw [content, hnode])⟩
    rw [children, hnode]
    rfl

/-- Trees planted below a new node make one tree with it. -/
lemma PlantedBelow.planted {n : Node} {ts : List Tree} {t : Tree}
    (hb : PlantedBelow (h.push n) h' h.size ts) (hn : n.children = [])
    (hp : n.parent = none) (hcont : n.contents = none) (hleaf : n.content.isLeaf = false)
    (hread : ∀ cs : List Layout, h'.content h.size = n.content → h'.readAll cs = ts →
      h'.read (.node h.size cs) = t) :
    Planted h h' h.size t := by
  have hnode : (h.push n).node h.size = n := by rw [node_push, if_pos rfl]
  have hext : h.Extends h' := by
    refine ⟨Nat.le_of_succ_le (by simpa using hb.size_le), fun k hk => ?_⟩
    rw [hb.node_eq k (by rw [size_push]; omega) (Nat.ne_of_lt hk), (extends_push h n).node_eq k hk]
  have hbare := hb.bare_eq
  rw [bare, bare, hnode, Prod.mk.injEq] at hbare
  have hcontent : h'.content h.size = n.content := hbare.1
  obtain ⟨ss, hch, hss, hnd, hge, hts⟩ := hb.carries
  refine ⟨hb.wellFormed, hext, rfl, ?_, .node h.size ss, rfl, ?_, ?_, ?_, hread ss hcontent hts⟩
  · rw [hb.parent_eq, parent, hnode, hp]
  · refine ⟨lt_of_lt_of_le (by simp) hb.size_le, hbare.2.trans hcont, ?_, ?_, hss⟩
    · rw [hcontent, hleaf]
      simp
    · rw [hch, children, hnode, hn, List.nil_append]
  · refine List.nodup_cons.mpr ⟨fun hmem => ?_, hnd⟩
    have := hge _ hmem
    rw [size_push] at this
    omega
  · intro k hk
    rcases List.mem_cons.mp hk with rfl | hk
    · exact le_rfl
    · have := hge k hk
      rw [size_push] at this
      omega

lemma WellFormed.plantedBelow_nil (hwf : h.WellFormed) (p : ℕ) : PlantedBelow h h p [] :=
  ⟨hwf, Nat.le_refl _, fun _ _ _ => rfl, rfl, rfl, [], by simp, trivial, by simp [idsAll],
    by simp [idsAll], rfl⟩

/-- **Trees planted behind other trees.** -/
lemma PlantedBelow.trans {ts us : List Tree} (hts : PlantedBelow h h' p ts)
    (hus : PlantedBelow h' h'' p us) (hp : p < h.size) : PlantedBelow h h'' p (ts ++ us) := by
  obtain ⟨ss, hch, hss, hnd, hge, hread⟩ := hts.carries
  obtain ⟨vs, hch', hvs, hnd', hge', hread'⟩ := hus.carries
  -- the first trees stay, since only the child list of `p` has changed
  have hinside : ∀ k ∈ idsAll ss, SameInside h' h'' k := fun k hk =>
    SameInside.of_node_eq (hus.node_eq k (hss.lt_size k hk)
      (Nat.ne_of_gt (Nat.lt_of_lt_of_le hp (hge k hk))))
  refine ⟨hus.wellFormed, hts.size_le.trans hus.size_le, fun k hk hkp => ?_,
    hus.bare_eq.trans hts.bare_eq, hus.parent_eq.trans hts.parent_eq, ss ++ vs, ?_, ?_, ?_, ?_, ?_⟩
  · rw [hus.node_eq k (Nat.lt_of_lt_of_le hk hts.size_le) hkp, hts.node_eq k hk hkp]
  · rw [hch', hch, List.map_append, List.append_assoc]
  · exact carriesAll_append.mpr ⟨carriesAll_congr hus.size_le hinside hss, hvs⟩
  · rw [Layout.idsAll_append]
    refine List.nodup_append.mpr ⟨hnd, hnd', ?_⟩
    rintro k hk _ hk' rfl
    exact Nat.not_lt.mpr (hge' k hk') (hss.lt_size k hk)
  · intro k hk
    rw [Layout.idsAll_append] at hk
    rcases List.mem_append.mp hk with hk | hk
    · exact hge k hk
    · exact hts.size_le.trans (hge' k hk)
  · rw [readAll_append, hread', readAll_congr fun k hk => (hinside k hk).content_eq, hread]

/-- A planted tree put behind the children of a node that was there. -/
lemma Planted.below {t : Tree} (hwf : h.WellFormed) (hpl : Planted h h' i t) (hp : p < h.size) :
    PlantedBelow h (h'.appendChild p i) p [t] := by
  obtain ⟨s, hid, hs, hnd, hge, hread⟩ := hpl.carries
  have hext := hpl.extends_
  have hp' : p < h'.size := lt_of_lt_of_le hp hext.size_le
  have hnew : ¬ h'.Reaches i p := hext.not_reaches hwf hpl.wellFormed hpl.id_eq.ge hp
  rw [appendChild_eq_attach hpl.parent_eq]
  -- the tree stays, since only `p` and the parent of its root have changed
  have hinside : ∀ k ∈ s.ids, SameInside h' (h'.attach p [i] (h'.children p ++ [i])) k := by
    intro k hk
    have hkp : k ≠ p := Nat.ne_of_gt (lt_of_lt_of_le hp (hge k hk))
    exact ⟨bare_attach .., by rw [children_attach hp', if_neg hkp]⟩
  refine ⟨?_, ?_, fun k hk hkp => ?_, ?_, ?_, [s], ?_,
    ⟨carries_congr (size_attach ..).ge hinside hs, trivial⟩, by simpa using hnd,
    by simpa using hge, ?_⟩
  · have hattach : (h'.attach p [i] (h'.children p ++ [i] ++ [])).WellFormed :=
      hpl.wellFormed.attach hp' (by simp) (by simp) (by simpa [← hid] using hs.id_lt)
        (by simpa using hpl.parent_eq) (by simpa using hnew)
    simpa using hattach
  · rw [size_attach]
    exact hext.size_le
  · have hki : k ∉ [i] := by
      rw [List.mem_singleton, hpl.id_eq]
      exact Nat.ne_of_lt hk
    rw [node_attach_of_notMem hki hkp, hext.node_eq k hk]
  · rw [bare_attach, bare, bare, hext.node_eq p hp]
  · have hpi : p ∉ [i] := by
      rw [List.mem_singleton, hpl.id_eq]
      exact Nat.ne_of_lt hp
    rw [parent_attach, if_neg fun hmem => hpi hmem.1, parent_congr (hext.node_eq p hp)]
  · rw [children_attach hp', if_pos rfl, children_congr (hext.node_eq p hp), ← hid]
    rfl
  · rw [readAll, readAll, read_congr fun k hk => (hinside k hk).content_eq, hread]

/-- A new template, and the root of its contents. -/
def pushTemplate (h : Heap) (as : List Attribute) : Heap :=
  (h.push { content := .element (templateElement as), contents := some (h.size + 1) }).push
    { content := .document }

@[simp] lemma size_pushTemplate (h : Heap) (as : List Attribute) :
    (h.pushTemplate as).size = h.size + 2 := by
  rw [pushTemplate, size_push, size_push]

lemma node_pushTemplate (h : Heap) (as : List Attribute) (k : NodeId) : (h.pushTemplate as).node k
    = if k = h.size + 1 then { content := .document }
      else if k = h.size then
        { content := .element (templateElement as), contents := some (h.size + 1) }
      else h.node k := by
  rw [pushTemplate, node_push, size_push, node_push]

lemma node_pushTemplate_of_lt (h : Heap) (as : List Attribute) (hi : i < h.size) :
    (h.pushTemplate as).node i = h.node i := by
  rw [node_pushTemplate, if_neg (Nat.ne_of_lt (Nat.lt_succ_of_lt hi)), if_neg (Nat.ne_of_lt hi)]

lemma children_pushTemplate (h : Heap) (as : List Attribute) (q : NodeId) :
    (h.pushTemplate as).children q = h.children q := by
  rw [pushTemplate, children_push rfl, children_push rfl]

lemma WellFormed.pushTemplate (hwf : h.WellFormed) (as : List Attribute) :
    (h.pushTemplate as).WellFormed :=
  (hwf.push rfl rfl).push rfl rfl

/-- The nodes of a template whose contents have been made before its children. -/
lemma ids_planted_template {b n : ℕ} {cs us : List Layout} (hus : (idsAll us).Nodup)
    (hlow : ∀ k : ℕ, k ∈ idsAll us → n + 2 ≤ k ∧ k < b) (hb : n + 2 ≤ b)
    (hcs : (idsAll cs).Nodup) (hhigh : ∀ k : ℕ, k ∈ idsAll cs → b ≤ k) :
    (Layout.template n cs (n + 1) us).ids.Nodup
      ∧ ∀ k : ℕ, k ∈ (Layout.template n cs (n + 1) us).ids → n ≤ k := by
  have hinner : n + 1 ∉ idsAll us := fun hmem => absurd (hlow _ hmem).1 (by omega)
  have happart : ∀ k ∈ idsAll cs, ∀ j ∈ (n + 1) :: idsAll us, k ≠ j := by
    rintro k hk j hj rfl
    have hge := hhigh k hk
    rcases List.mem_cons.mp hj with rfl | hj
    · omega
    · exact absurd (hlow k hj).2 (by omega)
  have hge : ∀ k : ℕ, k ∈ idsAll cs ++ (n + 1) :: idsAll us → n < k := by
    intro k hk
    rcases List.mem_append.mp hk with hk | hk
    · exact lt_of_lt_of_le (by omega) (hhigh k hk)
    · rcases List.mem_cons.mp hk with rfl | hk
      · exact Nat.lt_succ_self n
      · exact lt_of_lt_of_le (by omega) (hlow k hk).1
  refine ⟨List.nodup_cons.mpr ⟨fun hmem => (hge n hmem).false, List.nodup_append.mpr
    ⟨hcs, List.nodup_cons.mpr ⟨hinner, hus⟩, happart⟩⟩, fun k hk => ?_⟩
  rcases List.mem_cons.mp hk with rfl | hk
  · exact le_rfl
  · exact (hge k hk).le

/-- A planted template has its contents apart. -/
lemma planted_template {as : List Attribute} {cs us : List Tree}
    (hin : PlantedBelow (h.pushTemplate as) h' (h.size + 1) us)
    (hb : PlantedBelow h' h'' h.size cs) : Planted h h'' h.size (.template as cs us) := by
  obtain ⟨ss, hch, hss, hnd, hge, hread⟩ := hb.carries
  obtain ⟨vs, hchin, hvs, hndv, hgev, hreadv⟩ := hin.carries
  have hsize := hin.size_le
  have hsize' := hb.size_le
  rw [size_pushTemplate] at hsize hgev
  have hroot : h.size < h'.size := by omega
  have hnode' : ∀ k : ℕ, k ≤ h.size → h'.node k = if k = h.size
      then { content := .element (templateElement as), contents := some (h.size + 1) }
      else h.node k := by
    intro k hk
    have hne : k ≠ h.size + 1 := Nat.ne_of_lt (Nat.lt_succ_of_le hk)
    rw [hin.node_eq k (by rw [size_pushTemplate]; omega) hne, node_pushTemplate, if_neg hne]
  have hroot' := hnode' h.size le_rfl
  rw [if_pos rfl] at hroot'
  have hbare := hb.bare_eq
  rw [bare, bare, hroot', Prod.mk.injEq] at hbare
  have hcontent : h''.content h.size = .element (templateElement as) := hbare.1
  -- the contents stay, since only the child list of the root has changed
  have hstay : ∀ k : ℕ, h.size < k → k < h'.size → h''.node k = h'.node k :=
    fun k hk hk' => hb.node_eq k hk' (Nat.ne_of_gt hk)
  have hinside : ∀ k : ℕ, k ∈ idsAll vs → SameInside h' h'' k := fun k hk =>
    SameInside.of_node_eq (hstay k (by have := hgev k hk; omega) (hvs.lt_size k hk))
  have hchildren : h''.children h.size = ss.map Layout.id := by
    rw [hch, children, hroot', List.nil_append]
  have hcontents : h''.children (h.size + 1) = vs.map Layout.id := by
    rw [children, hstay _ (Nat.lt_succ_self _) hsize, ← children, hchin, children,
      node_pushTemplate, if_pos rfl, List.nil_append]
  have hids := ids_planted_template hndv (fun k hk => ⟨hgev k hk, hvs.lt_size k hk⟩) hsize hnd hge
  refine ⟨hb.wellFormed, ⟨by omega, fun k hk => ?_⟩, rfl, ?_,
    .template h.size ss (h.size + 1) vs, rfl, ?_, hids.1, hids.2, ?_⟩
  · rw [hb.node_eq k (by omega) (Nat.ne_of_lt hk), hnode' k hk.le, if_neg (Nat.ne_of_lt hk)]
  · rw [hb.parent_eq, parent, hroot']
  · exact ⟨lt_of_lt_of_le hroot hsize', hbare.2, ⟨as, hcontent⟩, hchildren, hss,
      lt_of_lt_of_le hsize hsize', hcontents, carriesAll_congr hsize' hinside hvs⟩
  · rw [read, hcontent, hread, readAll_congr fun k hk => (hinside k hk).content_eq, hreadv]
    rfl

mutual

/-- **A planted tree is read back** from new nodes. -/
theorem WellFormed.plant : ∀ {h : Heap}, h.WellFormed → ∀ t : Tree,
    Planted h (h.plant t).1 (h.plant t).2 t
  | h, hwf, .text s => by
      rw [Heap.plant]
      exact hwf.planted_push fun h' hc => by rw [read, hc]
  | h, hwf, .comment s => by
      rw [Heap.plant]
      exact hwf.planted_push fun h' hc => by rw [read, hc]
  | h, hwf, .doctype name publicId systemId => by
      rw [Heap.plant]
      exact hwf.planted_push fun h' hc => by rw [read, hc]
  | h, hwf, .document cs => by
      have hb := WellFormed.plantBelow (hwf.push (n := { content := .document }) rfl rfl)
        (p := h.size) (by simp) cs
      rw [Heap.plant]
      exact hb.planted rfl rfl rfl rfl fun ss hc hss => by rw [read, hc, hss]
  | h, hwf, .element e cs => by
      have hb := WellFormed.plantBelow (hwf.push (n := { content := .element e }) rfl rfl)
        (p := h.size) (by simp) cs
      rw [Heap.plant]
      exact hb.planted rfl rfl rfl rfl fun ss hc hss => by rw [read, hc, hss]
  | h, hwf, .template as cs us => by
      have hin := WellFormed.plantBelow (hwf.pushTemplate as) (p := h.size + 1) (by simp) us
      have hlt : h.size < _ := lt_of_lt_of_le (by simp) hin.size_le
      have hb := WellFormed.plantBelow hin.wellFormed hlt cs
      rw [Heap.plant]
      exact planted_template hin hb

/-- **Planted trees are read back** behind the children that were there. -/
theorem WellFormed.plantBelow : ∀ {h : Heap}, h.WellFormed → ∀ {p : ℕ}, p < h.size →
    ∀ ts : List Tree, PlantedBelow h (h.plantBelow p ts) p ts
  | h, hwf, p, hp, [] => by
      rw [Heap.plantBelow]
      exact hwf.plantedBelow_nil p
  | h, hwf, p, hp, t :: ts => by
      have hfirst := (WellFormed.plant hwf t).below hwf hp
      have hb := WellFormed.plantBelow hfirst.wellFormed (lt_of_lt_of_le hp hfirst.size_le) ts
      rw [Heap.plantBelow]
      exact hfirst.trans hb hp

end

/-- A forest planted as a document is the forest below it. -/
lemma forest_planted (hwf : h.WellFormed) (ts : List Tree) :
    (h.plant (.document ts)).1.forest (h.plant (.document ts)).2 = ts := by
  obtain ⟨-, -, -, -, s, hid, hs, hnd, -, hread⟩ := hwf.plant (.document ts)
  rw [← hid, hs.forest_eq hnd, ← children_read hs, hread]
  rfl

end Heap

end RichText
