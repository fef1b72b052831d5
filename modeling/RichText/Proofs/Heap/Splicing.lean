import RichText.Proofs.Heap.Planting

/-!
New nodes put in place of a node.

Between a look at a heap and the replacement the heap may have been extended, and the nodes put
in are among those that are new (`Holds.replace_new`). What stood below the node may have gone
below these (`Holds.replace`). `Rewritten` says what such replacements do to a part of the child
list of a node: its neighbours stay, and so does all that is outside.

* `Carries.mem_tail_ids`: what is below a node of a layout is in the layout, and not its root;
* `Replaced`: nodes have taken the place of a child, and all else is as before;
* `Holds.replace`, `Holds.replace_new`: one node replaced;
* `Rewritten.rest`, `Rewritten.withChildren`, `Rewritten.below`: one part after another, and the
  children of a node;
* `Refilled`: all children of the root of a tree.
-/

namespace RichText

/-- A node with other children. -/
def Tree.withChildren : Tree → List Tree → Tree
  | element e _, cs => element e cs
  | template as _ us, cs => template as cs us
  | document _, cs => document cs
  | t, _ => t

lemma Tree.withChildren_children (t : Tree) : t.withChildren t.children = t := by
  cases t <;> rfl

lemma Tree.withChildren_withChildren (t : Tree) (cs ds : List Tree) :
    (t.withChildren cs).withChildren ds = t.withChildren ds := by
  cases t <;> rfl

/-- A tree of a container stands for its children. -/
def Tree.standIns : Tree → List Tree
  | .document ts => ts
  | t => [t]

namespace Layout

/-- A layout with other children. -/
def withChildren : Layout → List Layout → Layout
  | node i _, cs => node i cs
  | template i _ inner us, cs => template i cs inner us

/-- The nodes of the contents of a template, with their root. -/
def contentsIds : Layout → List NodeId
  | node _ _ => []
  | template _ _ inner us => inner :: idsAll us

@[simp] lemma id_withChildren (s : Layout) (cs : List Layout) : (s.withChildren cs).id = s.id := by
  cases s <;> rfl

@[simp] lemma children_withChildren (s : Layout) (cs : List Layout) :
    (s.withChildren cs).children = cs := by
  cases s <;> rfl

lemma withChildren_withChildren (s : Layout) (cs ds : List Layout) :
    (s.withChildren cs).withChildren ds = s.withChildren ds := by
  cases s <;> rfl

lemma ids_eq (s : Layout) : s.ids = s.id :: (idsAll s.children ++ s.contentsIds) := by
  cases s <;> simp [ids, id, children, contentsIds]

lemma ids_withChildren (s : Layout) (cs : List Layout) :
    (s.withChildren cs).ids = s.id :: (idsAll cs ++ s.contentsIds) := by
  cases s <;> simp [withChildren, ids, id, contentsIds]

end Layout

namespace Heap

open Layout (idsAll)

variable {h h' : Heap} {i p q : ℕ}

/-! ### Roots and what is below -/

mutual

/-- What is below a node of a layout is in the layout, and not its root. -/
lemma Carries.mem_tail_ids : ∀ {s : Layout}, h.Carries s → ∀ {k j : NodeId}, k ∈ s.ids →
    j ∈ h.children k → j ∈ s.ids.tail
  | .node i cs, ⟨_, _, _, hch, hcs⟩, k, j, hk, hj => by
      rw [Layout.ids, List.mem_cons] at hk
      rw [Layout.ids, List.tail_cons]
      rcases hk with rfl | hk
      · rw [hch] at hj
        obtain ⟨s, hs, rfl⟩ := List.mem_map.mp hj
        exact Layout.mem_idsAll.mpr ⟨s, hs, s.id_mem_ids⟩
      · exact CarriesAll.mem_idsAll_of_mem_children hcs hk hj
  | .template i cs inner us, ⟨_, _, _, hch, hcs, _, hin, hus⟩, k, j, hk, hj => by
      rw [Layout.ids, List.mem_cons, List.mem_append, List.mem_cons] at hk
      rw [Layout.ids, List.tail_cons, List.mem_append, List.mem_cons]
      rcases hk with rfl | hk | rfl | hk
      · rw [hch] at hj
        obtain ⟨s, hs, rfl⟩ := List.mem_map.mp hj
        exact Or.inl (Layout.mem_idsAll.mpr ⟨s, hs, s.id_mem_ids⟩)
      · exact Or.inl (CarriesAll.mem_idsAll_of_mem_children hcs hk hj)
      · rw [hin] at hj
        obtain ⟨s, hs, rfl⟩ := List.mem_map.mp hj
        exact Or.inr (Or.inr (Layout.mem_idsAll.mpr ⟨s, hs, s.id_mem_ids⟩))
      · exact Or.inr (Or.inr (CarriesAll.mem_idsAll_of_mem_children hus hk hj))

lemma CarriesAll.mem_idsAll_of_mem_children : ∀ {ss : List Layout}, h.CarriesAll ss →
    ∀ {k j : NodeId}, k ∈ idsAll ss → j ∈ h.children k → j ∈ idsAll ss
  | [], _, k, j, hk, _ => by simp [idsAll] at hk
  | s :: ss, ⟨hs, hss⟩, k, j, hk, hj => by
      rw [idsAll, List.mem_append] at hk ⊢
      rcases hk with hk | hk
      · exact Or.inl (List.mem_of_mem_tail (Carries.mem_tail_ids hs hk hj))
      · exact Or.inr (CarriesAll.mem_idsAll_of_mem_children hss hk hj)

end

/-- What is below a node of layouts that are carried is among them. -/
lemma CarriesAll.mem_idsAll_of_reaches {ss : List Layout} (hss : h.CarriesAll ss) {k j : NodeId}
    (hk : k ∈ idsAll ss) (hr : h.Reaches k j) : j ∈ idsAll ss := by
  induction hr with
  | refl => exact hk
  | tail _ hc ih => exact hss.mem_idsAll_of_mem_children ih hc

/-- No root stands below a node of the layouts. -/
lemma CarriesAll.notMem_roots {ss : List Layout} (hss : h.CarriesAll ss) (hnd : (idsAll ss).Nodup)
    {k j : NodeId} (hk : k ∈ idsAll ss) (hj : j ∈ h.children k) : j ∉ ss.map Layout.id := by
  induction ss with
  | nil => simp
  | cons s ss ih =>
      rw [idsAll, List.nodup_append] at hnd
      rw [List.map_cons, List.mem_cons, not_or]
      rw [idsAll, List.mem_append] at hk
      rcases hk with hk | hk
      · have htail := hss.1.mem_tail_ids hk hj
        have hhead := hnd.1
        rw [← s.cons_tail_ids, List.nodup_cons] at hhead
        refine ⟨fun hjs => hhead.1 (hjs ▸ htail), fun hjr => ?_⟩
        exact hnd.2.2 j (List.mem_of_mem_tail htail) j (Layout.id_mem_idsAll hjr) rfl
      · have hbelow := hss.2.mem_idsAll_of_mem_children hk hj
        exact ⟨fun hjs => hnd.2.2 _ s.id_mem_ids _ hbelow hjs.symm, ih hss.2 hnd.2.1 hk⟩

/-- A container whose tree is known stands for the trees of its children. -/
lemma standIns_of_carries {u : Layout} (hu : h.Carries u) (hnd : u.ids.Nodup) :
    ∃ us : List Layout, h.standIns u.id = us.map Layout.id ∧ h.CarriesAll us ∧ (idsAll us).Nodup
      ∧ idsAll us ⊆ u.ids ∧ h.readAll us = (h.read u).standIns := by
  by_cases hc : h.isContainer u.id = true
  · have hdoc : h.content u.id = .document := by
      rw [isContainer] at hc
      split at hc
      · assumption
      · simp at hc
    refine ⟨u.children, ?_, hu.carriesAll_children, Layout.nodup_idsAll_children hnd,
      u.idsAll_children_subset, ?_⟩
    · rw [standIns, if_pos hc, hu.children_eq]
    · cases u with
      | node i cs =>
          simp only [Layout.id] at hdoc
          simp only [read, hdoc, Layout.children, Tree.standIns]
      | template i cs inner us =>
          obtain ⟨-, -, ⟨as, has⟩, -⟩ := hu
          rw [Layout.id, has] at hdoc
          simp at hdoc
  · refine ⟨[u], by rw [standIns, if_neg hc]; rfl, ⟨hu, trivial⟩, by simpa using hnd, by simp, ?_⟩
    rw [readAll, readAll]
    cases u with
    | node i cs =>
        simp only [Layout.id, isContainer] at hc
        simp only [read]
        cases hcont : h.content i <;> simp_all [Tree.standIns]
    | template i cs inner us =>
        obtain ⟨-, -, ⟨as, has⟩, -⟩ := hu
        simp only [read, has, Tree.standIns]

/-! ### A part of a child list replaced -/

/-- Between `pre` and `post`, the child list of `q` holds the trees `ss`, in which each node occurs
once. -/
structure Holds (h : Heap) (q : ℕ) (pre post : List NodeId) (ss : List Layout) : Prop where
  wellFormed : h.WellFormed
  lt_size : q < h.size
  children_eq : h.children q = pre ++ ss.map Layout.id ++ post
  carries : h.CarriesAll ss
  nodup : (idsAll ss).Nodup
  notMem : q ∉ idsAll ss

namespace Holds

variable {pre post : List NodeId} {s : Layout}

lemma nodup_ids (hs : Holds h q pre post [s]) : s.ids.Nodup := by
  simpa using hs.nodup

lemma notMem_ids (hs : Holds h q pre post [s]) : q ∉ s.ids := by
  simpa using hs.notMem

lemma children_eq_cons (hs : Holds h q pre post [s]) : h.children q = pre ++ s.id :: post := by
  simpa using hs.children_eq

lemma parent_eq (hs : Holds h q pre post [s]) : h.parent s.id = some q :=
  hs.wellFormed.parent_of_mem (by simp [hs.children_eq_cons])

lemma reaches {root : NodeId} (hs : Holds h q pre post [s]) (hroot : h.Reaches root q) :
    h.Reaches root s.id :=
  hroot.tail (hs.wellFormed.mem_of_parent hs.parent_eq)

end Holds

/-- The part of the child list of `q` that holds `ss` has been replaced by nodes that are `ts`.
These nodes were below, or are new. -/
structure Rewritten (h h' : Heap) (q : ℕ) (pre post : List NodeId) (ss : List Layout)
    (ts : List Tree) : Prop where
  wellFormed : h'.WellFormed
  size_le : h.size ≤ h'.size
  node_eq : ∀ k : ℕ, k < h.size → k ≠ q → k ∉ idsAll ss → h'.node k = h.node k
  bare_eq : h'.bare q = h.bare q
  parent_eq : h'.parent q = h.parent q
  carries : ∃ us : List Layout, h'.children q = pre ++ us.map Layout.id ++ post
    ∧ h'.CarriesAll us ∧ (idsAll us).Nodup
    ∧ (∀ k : ℕ, k ∈ idsAll us → k ∈ idsAll ss ∨ h.size ≤ k) ∧ h'.readAll us = ts

/-- The place at which nodes go that are not in the list. -/
lemma insertionIndex_append {pre post : List NodeId} (hnd : (pre ++ post).Nodup) :
    insertionIndex (pre ++ post) (pre ++ post)[pre.length]? pre.length = pre.length := by
  cases post with
  | nil => simp [insertionIndex]
  | cons b post =>
      have hb : b ∉ pre := fun hb => (List.nodup_append.mp hnd).2.2 b hb b (by simp) rfl
      have hget : (pre ++ b :: post)[pre.length]? = some b := by simp
      rw [insertionIndex, hget, Option.bind_some, idxOf?_append_cons hb]

/-- In the child list of `q` the nodes `is` have taken the place of `i`, between `pre` and `post`,
and they are in no other list. -/
structure Replaced (h h' : Heap) (i q : ℕ) (pre post is : List NodeId) : Prop where
  wellFormed : h'.WellFormed
  size_eq : h'.size = h.size
  bare_eq : ∀ k : ℕ, h'.bare k = h.bare k
  parent_eq : ∀ k : ℕ, k ∉ is → h'.parent k = if k = i then none else h.parent k
  place_eq : h'.children q = pre ++ is ++ post
  children_eq : ∀ k : ℕ, k ≠ q → h'.children k = (h.children k).filter (· ∉ is)

/-- **Nodes put in place of a child**, if they are not above it and not beside it. -/
lemma WellFormed.replaced (hwf : h.WellFormed) {pre post is : List NodeId}
    (hch : h.children q = pre ++ i :: post) (hnd : is.Nodup) (hlt : ∀ n ∈ is, n < h.size)
    (hbeside : ∀ n ∈ is, n ∉ h.children q) (hover : ∀ n ∈ is, ¬ h.Reaches n q) :
    Replaced h (h.replaceWith i is).1 i q pre post is := by
  have hmem : i ∈ h.children q := by rw [hch]; simp
  have hne : is ≠ [i] := fun heq => hbeside i (by rw [heq]; simp) hmem
  have hwf' := hwf.detach i
  have hq : q < (h.detach i).size := by simpa using lt_size_of_child hmem
  have hlt' : ∀ n ∈ is, n < (h.detach i).size := by simpa using hlt
  -- the list without the child, in which none of the nodes stands
  have hcut : (h.detach i).children q = pre ++ post := by
    rw [hwf.children_detach, hch, filter_ne_append_cons (hch ▸ hwf.nodup q)]
  have hkeep : (pre ++ post).filter (· ∉ is) = pre ++ post := by
    refine List.filter_eq_self.mpr fun k hk => decide_eq_true fun hkis => hbeside k hkis ?_
    rw [hch]
    rcases List.mem_append.mp hk with hk | hk <;> simp [hk]
  have hplace : (h.detach i).insertionPlace q pre.length is = pre.length := by
    rw [insertionPlace, hcut, hkeep, insertionIndex_append (hcut ▸ hwf'.nodup q)]
  rw [hwf.replaceWith_eq hch is hover, if_neg hne]
  refine ⟨hwf'.insertAt hq _ hnd hlt' fun n hn hr => hover n hn ?_, ?_, fun k => ?_,
    fun k hk => ?_, ?_, fun k hk => ?_⟩
  · exact hwf.reaches_of_detachAll (show (h.detachAll [i]).Reaches n q from hr)
  · rw [hwf'.size_insertAt, size_detach]
  · rw [hwf'.bare_insertAt, bare_detach]
  · rw [hwf'.parent_insertAt hlt', if_neg hk, parent_detach]
  · rw [hwf'.children_insertAt hq, if_pos rfl, hplace, hcut, hkeep, List.take_left,
      List.drop_left]
  · have hik : h.parent i ≠ some k := by
      rw [hwf.parent_of_mem hmem]
      exact fun heq => hk (Option.some.inj heq).symm
    rw [hwf'.children_insertAt hq, if_neg hk, hwf.children_detach, hwf.filter_ne_eq hik]

/-- Nodes that are new are in no child list. -/
lemma WellFormed.filter_notMem_of_new (hwf : h.WellFormed) {is : List NodeId}
    (hnew : ∀ r : ℕ, r ∈ is → h.size ≤ r) (k : ℕ) :
    (h.children k).filter (· ∉ is) = h.children k :=
  List.filter_eq_self.mpr fun x hx => decide_eq_true fun hxis =>
    absurd (hnew x hxis) (Nat.not_le.mpr (hwf.lt_size_of_mem hx))

/-- Nodes that are new put in place of a child, in an extension. -/
lemma Extends.replaced (hext : h.Extends h') (hwf : h.WellFormed) (hwf' : h'.WellFormed)
    {pre post is : List NodeId} (hch : h.children q = pre ++ i :: post) (hnd : is.Nodup)
    (hnew : ∀ r : ℕ, r ∈ is → h.size ≤ r) (hlt : ∀ r ∈ is, r < h'.size) :
    Replaced h' (h'.replaceWith i is).1 i q pre post is := by
  have hq : q < h.size := lt_size_of_child (i := i) (by rw [hch]; simp)
  have hsame : h'.children q = h.children q := children_congr (hext.node_eq q hq)
  refine hwf'.replaced (hsame.trans hch) hnd hlt (fun n hn hmem => ?_) fun n hn =>
    hext.not_reaches hwf hwf' (hnew n hn) hq
  exact absurd (hnew n hn) (Nat.not_le.mpr (hwf.lt_size_of_mem (hsame ▸ hmem)))

/-- What is carried by the nodes put in is still carried, if it was apart from the list. -/
lemma Replaced.carriesAll {us : List Layout} {pre post : List NodeId}
    (hr : Replaced h h' i q pre post (us.map Layout.id)) (hus : h.CarriesAll us)
    (hnd : (idsAll us).Nodup) (hq : q ∉ idsAll us) : h'.CarriesAll us := by
  refine carriesAll_congr hr.size_eq.ge (fun k hk => ⟨hr.bare_eq k, ?_⟩) hus
  rw [hr.children_eq k fun hkq => hq (hkq ▸ hk)]
  exact List.filter_eq_self.mpr fun x hx => decide_eq_true (hus.notMem_roots hnd hk hx)

/-- **One node replaced.** In a heap that has changed in the tree of that node only, the node is
replaced by new ones; what is below these stood below it or is new. They then stand where it was. -/
theorem Holds.replace {s : Layout} {us : List Layout} {pre post : List NodeId}
    (hs : Holds h q pre post [s]) (hsize : h.size ≤ h'.size)
    (hnode : ∀ k : ℕ, k < h.size → k ∉ s.ids → h'.node k = h.node k) (hwf' : h'.WellFormed)
    (hus : h'.CarriesAll us) (hnd : (idsAll us).Nodup)
    (hfrom : ∀ k : ℕ, k ∈ idsAll us → k ∈ idsAll s.children ∨ h.size ≤ k)
    (hroots : ∀ r : ℕ, r ∈ us.map Layout.id → h.size ≤ r) :
    Rewritten h (h'.replaceWith s.id (us.map Layout.id)).1 q pre post [s] (h'.readAll us) := by
  have hqs := hs.notMem_ids
  have hqu : q ∉ idsAll us := fun hmem => (hfrom q hmem).elim
    (fun hqc => hqs (s.idsAll_children_subset hqc)) (Nat.not_le.mpr hs.lt_size)
  have hsame : h'.node q = h.node q := hnode q hs.lt_size hqs
  have hch : h'.children q = pre ++ s.id :: post := by
    rw [children_congr hsame, hs.children_eq_cons]
  have hrep := hwf'.replaced hch (Layout.nodup_map_id hnd)
    (fun n hn => hus.lt_size n (Layout.id_mem_idsAll hn))
    (fun n hn hmem => absurd (hroots n hn)
      (Nat.not_le.mpr (hs.wellFormed.lt_size_of_mem (children_congr hsame ▸ hmem))))
    fun n hn hr => hqu (hus.mem_idsAll_of_reaches (Layout.id_mem_idsAll hn) hr)
  have hparent : ∀ k : ℕ, k < h.size → k ∉ s.ids →
      (h'.replaceWith s.id (us.map Layout.id)).1.parent k = h.parent k := by
    intro k hk hks
    have hki : k ≠ s.id := fun hki => hks (hki ▸ s.id_mem_ids)
    rw [hrep.parent_eq k fun hku => absurd (hroots k hku) (Nat.not_le.mpr hk), if_neg hki,
      parent_congr (hnode k hk hks)]
  refine ⟨hrep.wellFormed, hrep.size_eq ▸ hsize, fun k hk hkq hks => ?_, ?_,
    hparent q hs.lt_size hqs, us, hrep.place_eq, hrep.carriesAll hus hnd hqu, hnd, fun k hk => ?_,
    readAll_congr fun k _ => congrArg Prod.fst (hrep.bare_eq k)⟩
  · rw [Layout.idsAll_singleton] at hks
    refine node_eq_of_bare ?_ (hparent k hk hks) ?_
    · rw [hrep.bare_eq, bare, bare, hnode k hk hks]
    · rw [hrep.children_eq k hkq, children_congr (hnode k hk hks),
        hs.wellFormed.filter_notMem_of_new hroots]
  · rw [hrep.bare_eq, bare, bare, hsame]
  · rw [Layout.idsAll_singleton]
    exact (hfrom k hk).imp_left fun hkc => s.idsAll_children_subset hkc

/-- **One node replaced by new ones.** In an extended heap a node that stood between `pre` and
`post` is replaced by new nodes, which then stand there. -/
theorem Holds.replace_new {s : Layout} {us : List Layout} {pre post : List NodeId}
    (hs : Holds h q pre post [s]) (hext : h.Extends h') (hwf' : h'.WellFormed)
    (hus : h'.CarriesAll us) (hnd : (idsAll us).Nodup)
    (hnew : ∀ k : ℕ, k ∈ idsAll us → h.size ≤ k) :
    Rewritten h (h'.replaceWith s.id (us.map Layout.id)).1 q pre post [s] (h'.readAll us) :=
  hs.replace hext.size_le (fun k hk _ => hext.node_eq k hk) hwf' hus hnd
    (fun k hk => .inr (hnew k hk)) fun r hr => hnew r (Layout.id_mem_idsAll hr)

/-! ### Children exchanged -/

/-- A layout with other children is the tree with other children. -/
lemma read_withChildren {s : Layout} {us : List Layout} (hs : h.Carries s) (hnd : s.ids.Nodup)
    (hk : ∀ k : ℕ, k ∈ s.ids → k ∉ Layout.idsAll s.children → h'.content k = h.content k) :
    h'.read (s.withChildren us) = (h.read s).withChildren (h'.readAll us) := by
  have hroot := hk s.id s.id_mem_ids (Layout.id_notMem_idsAll_children hnd)
  cases s with
  | node i cs =>
      simp only [Layout.id] at hroot
      simp only [Layout.withChildren, read, hroot]
      cases h.content i <;> rfl
  | template i cs inner vs =>
      obtain ⟨-, -, ⟨as, has⟩, -⟩ := hs
      have hvs : h'.readAll vs = h.readAll vs := by
        refine readAll_congr fun k hmem => hk k (by simp [Layout.ids, hmem]) fun hcs => ?_
        have hnd' := (List.nodup_append.mp (List.nodup_cons.mp hnd).2).2.2
        exact hnd' k hcs k (by simp [hmem]) rfl
      simp only [Layout.id] at hroot
      simp only [Layout.withChildren, read, hroot, has, hvs, Tree.withChildren]

/-- A layout with other children is carried if these are. -/
lemma carries_withChildren {s : Layout} {us : List Layout} (hs : h.Carries s) (hnd : s.ids.Nodup)
    (hsize : h.size ≤ h'.size) (hroot : h'.bare s.id = h.bare s.id)
    (hinside : ∀ k : ℕ, k ∈ s.ids → k ≠ s.id → k ∉ Layout.idsAll s.children → SameInside h h' k)
    (hleaf : s.children = [] → us = []) (hch : h'.children s.id = us.map Layout.id)
    (hus : h'.CarriesAll us) : h'.Carries (s.withChildren us) := by
  have hcontent : h'.content s.id = h.content s.id := congrArg Prod.fst hroot
  have hcontents : (h'.node s.id).contents = (h.node s.id).contents := congrArg Prod.snd hroot
  cases s with
  | node i cs =>
      obtain ⟨hi, hcont, hl, -, -⟩ := hs
      refine ⟨lt_of_lt_of_le hi hsize, hcontents.trans hcont, fun hleaf' => ?_, hch, hus⟩
      refine hleaf (hl ?_)
      rw [← hleaf']
      exact congrArg Content.isLeaf hcontent.symm
  | template i cs inner vs =>
      obtain ⟨hi, hcont, ⟨as, has⟩, -, -, hinner, hin, hvs⟩ := hs
      rw [Layout.ids, List.nodup_cons] at hnd
      have hnd' := List.nodup_append.mp hnd.2
      have hvs' : ∀ k ∈ inner :: Layout.idsAll vs, SameInside h h' k := by
        intro k hmem
        refine hinside k (by simp [Layout.ids, List.mem_cons.mp hmem]) ?_ fun hcs =>
          hnd'.2.2 k hcs k hmem rfl
        rintro rfl
        exact hnd.1 (List.mem_append_right _ hmem)
      exact ⟨lt_of_lt_of_le hi hsize, hcontents.trans hcont, ⟨as, hcontent.trans has⟩, hch, hus,
        lt_of_lt_of_le hinner hsize, (hvs' inner (by simp)).2.trans hin,
        carriesAll_congr hsize (fun k hmem => hvs' k (by simp [hmem])) hvs⟩

/-! ### Replacements put together -/

namespace Holds

variable {pre post : List NodeId} {s : Layout} {ss us : List Layout} {ts : List Tree}

/-- The first of several trees. -/
lemma head (hh : Holds h q pre post (s :: ss)) : Holds h q pre (ss.map Layout.id ++ post) [s] where
  wellFormed := hh.wellFormed
  lt_size := hh.lt_size
  children_eq := by
    rw [hh.children_eq]
    simp
  carries := ⟨hh.carries.1, trivial⟩
  nodup := by
    rw [Layout.idsAll_singleton]
    exact (List.nodup_append.mp hh.nodup).1
  notMem := by
    rw [Layout.idsAll_singleton]
    exact fun hmem => hh.notMem (List.mem_append_left _ hmem)

/-- The nodes of the others stay when the first is replaced. -/
lemma node_eq_tail (hh : Holds h q pre post (s :: ss))
    (h₁ : Rewritten h h' q pre (ss.map Layout.id ++ post) [s] ts) :
    ∀ k : ℕ, k ∈ idsAll ss → h'.node k = h.node k := by
  intro k hk
  have hqs : q ∉ idsAll ss := fun hmem => hh.notMem (List.mem_append_right _ hmem)
  refine h₁.node_eq k (hh.carries.2.lt_size k hk) (fun hkq => hqs (hkq ▸ hk)) fun hks => ?_
  rw [Layout.idsAll_singleton] at hks
  exact (List.nodup_append.mp hh.nodup).2.2 k hks k hk rfl

/-- The others are read as before when the first has been replaced. -/
lemma readAll_tail (hh : Holds h q pre post (s :: ss))
    (h₁ : Rewritten h h' q pre (ss.map Layout.id ++ post) [s] ts) :
    h'.readAll ss = h.readAll ss :=
  readAll_congr fun k hk => content_congr (hh.node_eq_tail h₁ k hk)

/-- What has been put in place of the first is neither the parent nor in the others. -/
lemma apart (hh : Holds h q pre post (s :: ss))
    (hfrom : ∀ k : ℕ, k ∈ idsAll us → k ∈ idsAll [s] ∨ h.size ≤ k) {k : ℕ} (hk : k ∈ idsAll us) :
    k ≠ q ∧ k ∉ idsAll ss := by
  have hnd := hh.nodup
  have hqs := hh.notMem
  rw [idsAll, List.nodup_append] at hnd
  rw [idsAll, List.mem_append, not_or] at hqs
  rcases hfrom k hk with hks | hkn
  · rw [Layout.idsAll_singleton] at hks
    exact ⟨fun hkq => hqs.1 (hkq ▸ hks), fun hkss => hnd.2.2 k hks k hkss rfl⟩
  · exact ⟨fun hkq => absurd hh.lt_size (Nat.not_lt.mpr (hkq ▸ hkn)), fun hkss =>
      absurd (hh.carries.2.lt_size k hkss) (Nat.not_lt.mpr hkn)⟩

/-- The others, when the first has been replaced. -/
lemma tail (hh : Holds h q pre post (s :: ss))
    (h₁ : Rewritten h h' q pre (ss.map Layout.id ++ post) [s] ts)
    (hch : h'.children q = pre ++ us.map Layout.id ++ (ss.map Layout.id ++ post)) :
    Holds h' q (pre ++ us.map Layout.id) post ss where
  wellFormed := h₁.wellFormed
  lt_size := lt_of_lt_of_le hh.lt_size h₁.size_le
  children_eq := by rw [hch, List.append_assoc (pre ++ us.map Layout.id)]
  carries := carriesAll_congr h₁.size_le
    (fun k hk => SameInside.of_node_eq (hh.node_eq_tail h₁ k hk)) hh.carries.2
  nodup := (List.nodup_append.mp hh.nodup).2.1
  notMem hmem := hh.notMem (List.mem_append_right _ hmem)

/-- The children of the root of a tree. -/
lemma of_carries (hwf : h.WellFormed) (hs : h.Carries s) (hnd : s.ids.Nodup) :
    Holds h s.id [] [] s.children where
  wellFormed := hwf
  lt_size := hs.id_lt
  children_eq := by
    rw [hs.children_eq]
    simp
  carries := hs.carriesAll_children
  nodup := Layout.nodup_idsAll_children hnd
  notMem := Layout.id_notMem_idsAll_children hnd

lemma children (hh : Holds h q pre post [s]) : Holds h s.id [] [] s.children :=
  of_carries hh.wellFormed hh.carries.1 hh.nodup_ids

end Holds

namespace Rewritten

variable {h'' : Heap} {pre post : List NodeId} {s : Layout} {ss us : List Layout}
  {ts ts' : List Tree}

/-- Nothing replaced, in a heap extended meanwhile. -/
lemma of_extends (hh : Holds h q pre post ss) (hext : h.Extends h') (hwf' : h'.WellFormed) :
    Rewritten h h' q pre post ss (h.readAll ss) := by
  have hsame : ∀ k ∈ idsAll ss, SameInside h h' k := fun k hk =>
    SameInside.of_node_eq (hext.node_eq k (hh.carries.lt_size k hk))
  have hnode := hext.node_eq q hh.lt_size
  refine ⟨hwf', hext.size_le, fun k hk _ _ => hext.node_eq k hk, by rw [bare, bare, hnode],
    parent_congr hnode, ss, ?_, carriesAll_congr hext.size_le hsame hh.carries, hh.nodup,
    fun k hk => Or.inl hk, readAll_congr fun k hk => (hsame k hk).content_eq⟩
  rw [children_congr hnode, hh.children_eq]

/-- A part replaced, and then the part behind it. -/
lemma trans (hh : Holds h q pre post (s :: ss))
    (h₁ : Rewritten h h' q pre (ss.map Layout.id ++ post) [s] ts)
    (hus : h'.CarriesAll us) (hndu : (idsAll us).Nodup)
    (hfrom : ∀ k : ℕ, k ∈ idsAll us → k ∈ idsAll [s] ∨ h.size ≤ k) (hread : h'.readAll us = ts)
    (h₂ : Rewritten h' h'' q (pre ++ us.map Layout.id) post ss ts') :
    Rewritten h h'' q pre post (s :: ss) (ts ++ ts') := by
  -- what has been put in first is neither `q` nor among what is replaced next
  have hsame : ∀ k ∈ idsAll us, SameInside h' h'' k := fun k hk =>
    SameInside.of_node_eq (h₂.node_eq k (hus.lt_size k hk) (hh.apart hfrom hk).1
      (hh.apart hfrom hk).2)
  obtain ⟨vs, hch, hvs, hndv, hfromv, hreadv⟩ := h₂.carries
  refine ⟨h₂.wellFormed, h₁.size_le.trans h₂.size_le, fun k hk hkq hks => ?_,
    h₂.bare_eq.trans h₁.bare_eq, h₂.parent_eq.trans h₁.parent_eq, us ++ vs, ?_,
    carriesAll_append.mpr ⟨carriesAll_congr h₂.size_le hsame hus, hvs⟩, ?_, fun k hk => ?_, ?_⟩
  · rw [idsAll, List.mem_append, not_or] at hks
    rw [h₂.node_eq k (lt_of_lt_of_le hk h₁.size_le) hkq hks.2,
      h₁.node_eq k hk hkq (by simpa using hks.1)]
  · rw [hch, List.map_append, List.append_assoc pre]
  · rw [Layout.idsAll_append]
    refine List.nodup_append.mpr ⟨hndu, hndv, ?_⟩
    rintro k hk _ hk' rfl
    rcases hfromv k hk' with hkss | hkn
    · exact (hh.apart hfrom hk).2 hkss
    · exact absurd (hus.lt_size k hk) (Nat.not_lt.mpr hkn)
  · rw [Layout.idsAll_append, List.mem_append] at hk
    rw [idsAll, List.mem_append]
    rcases hk with hk | hk
    · exact (hfrom k hk).imp_left fun hks => Or.inl (by simpa using hks)
    · exact (hfromv k hk).imp Or.inr h₁.size_le.trans
  · rw [readAll_append, hreadv, readAll_congr fun k hk => (hsame k hk).content_eq, hread]

/-- **The trees behind a part that has been rewritten** still stand there, and what they become
goes behind what the part has become. -/
lemma rest (hh : Holds h q pre post (s :: ss))
    (h₁ : Rewritten h h' q pre (ss.map Layout.id ++ post) [s] ts) :
    ∃ pre', Holds h' q pre' post ss ∧ ∀ {h'' : Heap} {ts' : List Tree},
      Rewritten h' h'' q pre' post ss ts' → Rewritten h h'' q pre post (s :: ss) (ts ++ ts') := by
  obtain ⟨us, hch, hus, hndu, hfrom, hread⟩ := h₁.carries
  exact ⟨pre ++ us.map Layout.id, hh.tail h₁ hch, fun h₂ => trans hh h₁ hus hndu hfrom hread h₂⟩

/-- The first of several trees rewritten, and the others left as they are. -/
lemma cons_stays (hh : Holds h q pre post (s :: ss))
    (h₁ : Rewritten h h' q pre (ss.map Layout.id ++ post) [s] ts) :
    Rewritten h h' q pre post (s :: ss) (ts ++ h.readAll ss) := by
  obtain ⟨pre', hrest, hthen⟩ := h₁.rest hh
  rw [← hh.readAll_tail h₁]
  exact hthen (of_extends hrest (.refl h') hrest.wellFormed)

/-- A tree whose children are replaced is carried with these. -/
lemma withChildren (hs : h.Carries s) (hnd : s.ids.Nodup)
    (h₁ : Rewritten h h' s.id [] [] s.children ts) (hnil : s.children = [] → ts = []) :
    ∃ us : List Layout, h'.Carries (s.withChildren us) ∧ (s.withChildren us).ids.Nodup
      ∧ (∀ k : ℕ, k ∈ (s.withChildren us).ids → k ∈ s.ids ∨ h.size ≤ k)
      ∧ h'.readAll us = ts ∧ h'.read (s.withChildren us) = (h.read s).withChildren ts := by
  obtain ⟨us, hchu, hus, hndu, hfrom, hread⟩ := h₁.carries
  rw [List.nil_append, List.append_nil] at hchu
  have hndids := hnd
  rw [s.ids_eq, List.nodup_cons, List.nodup_append] at hndids
  have hinside : ∀ k : ℕ, k ∈ s.ids → k ≠ s.id → k ∉ idsAll s.children → SameInside h h' k :=
    fun k hk hki hkc => SameInside.of_node_eq (h₁.node_eq k (hs.lt_size k hk) hki hkc)
  have hcontent : ∀ k : ℕ, k ∈ s.ids → k ∉ idsAll s.children → h'.content k = h.content k := by
    intro k hk hkc
    by_cases hki : k = s.id
    · rw [hki]
      exact congrArg Prod.fst h₁.bare_eq
    · exact (hinside k hk hki hkc).content_eq
  have hnilu : s.children = [] → us = [] := by
    intro hcs
    rw [hnil hcs, readAll_eq_map, List.map_eq_nil_iff] at hread
    exact hread
  refine ⟨us, carries_withChildren hs hnd h₁.size_le h₁.bare_eq hinside hnilu hchu hus, ?_,
    fun k hk => ?_, hread, by rw [read_withChildren hs hnd hcontent, hread]⟩
  · rw [s.ids_withChildren, List.nodup_cons, List.nodup_append, List.mem_append, not_or]
    rw [List.mem_append, not_or] at hndids
    refine ⟨⟨fun hsu => ?_, hndids.1.2⟩, hndu, hndids.2.2.1, ?_⟩
    · rcases hfrom _ hsu with hsc | hsn
      · exact hndids.1.1 hsc
      · exact absurd hs.id_lt (Nat.not_lt.mpr hsn)
    · rintro k hku _ hkc rfl
      rcases hfrom k hku with hkb | hkn
      · exact hndids.2.2.2 k hkb k hkc rfl
      · have hk : k ∈ s.ids := by
          rw [s.ids_eq]
          simp [hkc]
        exact absurd (hs.lt_size k hk) (Nat.not_lt.mpr hkn)
  · rw [s.ids_withChildren, List.mem_cons, List.mem_append] at hk
    rw [s.ids_eq, List.mem_cons, List.mem_append]
    rcases hk with hki | hku | hkc
    · exact Or.inl (Or.inl hki)
    · exact (hfrom k hku).imp_left fun hkb => Or.inr (Or.inl hkb)
    · exact Or.inl (Or.inr (Or.inr hkc))

/-- A node whose children are replaced stays, with these. -/
lemma below (hh : Holds h q pre post [s]) (h₁ : Rewritten h h' s.id [] [] s.children ts)
    (hnil : s.children = [] → ts = []) :
    Rewritten h h' q pre post [s] [(h.read s).withChildren ts] := by
  have hs := hh.carries.1
  have hnd := hh.nodup_ids
  have hq := hh.lt_size
  have hqs := hh.notMem_ids
  have hqid : q ≠ s.id := fun hqi => hqs (hqi ▸ s.id_mem_ids)
  have hnode := h₁.node_eq q hq hqid fun hqc => hqs (s.idsAll_children_subset hqc)
  obtain ⟨us, hus, hndu, hfrom, -, hread⟩ := h₁.withChildren hs hnd hnil
  refine ⟨h₁.wellFormed, h₁.size_le, fun k hk _ hks => ?_, by rw [bare, bare, hnode],
    parent_congr hnode, [s.withChildren us], ?_, ⟨hus, trivial⟩, by simpa using hndu,
    by simpa using hfrom, by rw [readAll, readAll, hread]⟩
  · rw [Layout.idsAll_singleton] at hks
    exact h₁.node_eq k hk (fun hki => hks (hki ▸ s.id_mem_ids)) fun hkc =>
      hks (s.idsAll_children_subset hkc)
  · rw [children_congr hnode, hh.children_eq]
    simp

end Rewritten

/-! ### The tree of a root -/

/-- The children of the root of `s` have become `us`, which are the trees `ts`; the rest of the
tree of `s` is as before. -/
structure Refilled (h h' : Heap) (s : Layout) (us : List Layout) (ts : List Tree) : Prop where
  wellFormed : h'.WellFormed
  carries : h'.Carries (s.withChildren us)
  nodup : (s.withChildren us).ids.Nodup
  content_eq : h'.content s.id = h.content s.id
  readAll_eq : h'.readAll us = ts
  read_eq : h'.read (s.withChildren us) = (h.read s).withChildren ts

/-- All children of a root rewritten. -/
lemma Rewritten.refilled {s : Layout} (hs : h.Carries s) (hnd : s.ids.Nodup)
    (h₁ : Rewritten h h' s.id [] [] s.children ts) (hnil : s.children = [] → ts = []) :
    ∃ us, Refilled h h' s us ts := by
  obtain ⟨us, hus, hndu, -, hreadus, hread⟩ := h₁.withChildren hs hnd hnil
  exact ⟨us, h₁.wellFormed, hus, hndu, congrArg Prod.fst h₁.bare_eq, hreadus, hread⟩

namespace Refilled

variable {h'' : Heap} {s : Layout} {us us' : List Layout} {ts ts' : List Tree}

lemma refl (hwf : h.WellFormed) (hs : h.Carries s) (hnd : s.ids.Nodup) :
    Refilled h h s s.children (h.readAll s.children) := by
  have hself : s.withChildren s.children = s := by cases s <;> rfl
  refine ⟨hwf, by rwa [hself], by rwa [hself], rfl, rfl, ?_⟩
  rw [hself, ← children_read hs, Tree.withChildren_children]

lemma trans (h₁ : Refilled h h' s us ts) (h₂ : Refilled h' h'' (s.withChildren us) us' ts') :
    Refilled h h'' s us' ts' := by
  obtain ⟨hwf, hus, hnd, hcontent, hreadus, hread⟩ := h₂
  rw [Layout.withChildren_withChildren] at hus hnd hread
  rw [Layout.id_withChildren] at hcontent
  refine ⟨hwf, hus, hnd, hcontent.trans h₁.content_eq, hreadus, ?_⟩
  rw [hread, h₁.read_eq, Tree.withChildren_withChildren]

lemma forest_eq (h₁ : Refilled h h' s us ts) : h'.forest s.id = ts := by
  have hafter := h₁.carries.forest_eq h₁.nodup
  rwa [Layout.id_withChildren, Layout.children_withChildren, h₁.readAll_eq] at hafter

lemma tree_eq (hs : h.Carries s) (hnd : s.ids.Nodup) (h₁ : Refilled h h' s us ts) :
    h'.tree s.id = (h.tree s.id).withChildren ts := by
  have hafter := tree_eq_read h₁.carries h₁.nodup
  rwa [Layout.id_withChildren, h₁.read_eq, ← tree_eq_read hs hnd] at hafter

end Refilled

end Heap

end RichText
