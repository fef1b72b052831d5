import RichText.Html.Construction.Basic
import RichText.Proofs.Heap.Planting

/-!
Trees that grow in document order.

A construction puts an element in its place before its children, and text in pieces. What has
grown in the end are the same trees as planted at once.

* `PlantedBelow.element`, `PlantedBelow.template`: an element or a template that has been put in
  its place first;
* `EndsInText`: whether further text would be joined to the last child;
* `plantedBelow_putText`, `PlantedBelow.putText`: the first piece of a text, and any other.
-/

namespace RichText

namespace Heap

open Layout

variable {h h' : Heap} {i p : ℕ}

/-! ### Single nodes -/

lemma parent_size (h : Heap) : h.parent h.size = none := by
  rw [parent, node_of_size_le (Nat.le_refl _)]

/-- A new node behind the children of a node. -/
def grow (h : Heap) (p : NodeId) (c : Content) : Heap :=
  (h.push { content := c }).appendChild p h.size

/-- A new node is put behind what is there. -/
lemma grow_eq_attach (h : Heap) (p : NodeId) (c : Content) :
    h.grow p c = (h.push { content := c }).attach p [h.size] (h.children p ++ [h.size]) := by
  have hparent : (h.push { content := c }).parent h.size = none := by
    rw [parent_push rfl, parent_size]
  rw [grow, appendChild_eq_attach hparent, children_push rfl]

@[simp] lemma size_grow (h : Heap) (p : NodeId) (c : Content) : (h.grow p c).size = h.size + 1 := by
  rw [grow_eq_attach, size_attach, size_push]

lemma bare_grow (h : Heap) (p : NodeId) (c : Content) :
    (h.grow p c).bare h.size = (c, none) := by
  rw [grow_eq_attach, bare_attach, bare, node_push, if_pos rfl]

lemma children_grow (hp : p < h.size) (c : Content) (q : NodeId) :
    (h.grow p c).children q = if q = p then h.children p ++ [h.size] else h.children q := by
  rw [grow_eq_attach, children_attach (by simpa using Nat.lt_succ_of_lt hp), children_push rfl]

/-- **A new node** grows as the tree that it is. -/
lemma WellFormed.plantedBelow_grow (hwf : h.WellFormed) (hp : p < h.size) {c : Content} {t : Tree}
    (hplant : h.plant t = (h.push { content := c }, h.size)) :
    PlantedBelow h (h.grow p c) p [t] := by
  have hbelow : h.plantBelow p [t] = h.grow p c := by
    simp only [Heap.plantBelow, hplant, grow]
  rw [← hbelow]
  exact hwf.plantBelow hp [t]

/-- A node that is put behind all others is appended. -/
lemma insertAt_length (hi : h.parent i = none) (p : NodeId) :
    h.insertAt p (h.children p).length [i] = h.appendChild p i := by
  have hstart : insertionIndex (h.children p) none (h.children p).length = (h.children p).length :=
    Nat.min_self _
  rw [insertAt, appendChild]
  simp only [detachAll, List.foldl_cons, List.foldl_nil, detach_of_parent_eq_none hi, setParents,
    List.getElem?_eq_none (Nat.le_refl _), hstart, List.take_length, List.drop_length,
    List.append_nil, children_setParent]

/-- **An element put in its place before its children** grows with them. -/
lemma PlantedBelow.element (hwf : h.WellFormed) (hp : p < h.size) {e : Element} {cs : List Tree}
    (hcs : PlantedBelow (h.grow p (.element e)) h' h.size cs) :
    PlantedBelow h h' p [.element e cs] := by
  have hstart : PlantedBelow h (h.grow p (.element e)) p [.element e []] :=
    hwf.plantedBelow_grow hp (by rw [Heap.plant, Heap.plantBelow])
  have hsize : h.size + 1 ≤ h'.size := by simpa using hcs.size_le
  have hne : p ≠ h.size := Nat.ne_of_lt hp
  have hnode : h'.node p = (h.grow p (.element e)).node p :=
    hcs.node_eq p (by simpa using Nat.lt_succ_of_lt hp) hne
  have hbare := hcs.bare_eq.trans (bare_grow h p _)
  rw [bare, Prod.mk.injEq] at hbare
  have hcontent : h'.content h.size = .element e := hbare.1
  obtain ⟨ss, hch, hss, hnd, hge, hread⟩ := hcs.carries
  rw [size_grow] at hge
  have hnew : h.children h.size = [] := by rw [children, node_of_size_le (Nat.le_refl _)]
  rw [children_grow hp, if_neg (Ne.symm hne), hnew, List.nil_append] at hch
  refine ⟨hcs.wellFormed, Nat.le_of_succ_le hsize, fun k hk hkp => ?_, ?_, ?_,
    [.node h.size ss], ?_, ⟨⟨hsize, hbare.2, ?_, hch, hss⟩, trivial⟩, ?_, ?_, ?_⟩
  · rw [hcs.node_eq k (by simpa using Nat.lt_succ_of_lt hk) (Nat.ne_of_lt hk),
      hstart.node_eq k hk hkp]
  · rw [← hstart.bare_eq, bare, bare, hnode]
  · rw [← hstart.parent_eq, parent_congr hnode]
  · rw [children_congr hnode, children_grow hp, if_pos rfl]
    rfl
  · rw [hcontent]
    simp [Content.isLeaf]
  · rw [idsAll, idsAll, ids, List.append_nil]
    exact List.nodup_cons.mpr ⟨fun hmem => absurd (hge _ hmem) (by omega), hnd⟩
  · intro k hk
    rw [idsAll, idsAll, ids, List.append_nil] at hk
    rcases List.mem_cons.mp hk with rfl | hk
    · exact Nat.le_refl _
    · exact Nat.le_of_succ_le (hge k hk)
  · rw [readAll, readAll, read, hcontent, hread]

/-! ### Templates -/

/-- A new template behind the children of a node. -/
def growTemplate (h : Heap) (p : NodeId) (as : List Attribute) : Heap :=
  (h.pushTemplate as).appendChild p h.size

lemma plantBelow_template (h : Heap) (p : NodeId) (as : List Attribute) :
    h.plantBelow p [.template as [] []] = h.growTemplate p as := by
  simp only [plantBelow, plant, growTemplate, pushTemplate]

/-- A template is put behind what is there. -/
lemma growTemplate_eq_attach (h : Heap) (p : NodeId) (as : List Attribute) :
    h.growTemplate p as = (h.pushTemplate as).attach p [h.size] (h.children p ++ [h.size]) := by
  have hparent : (h.pushTemplate as).parent h.size = none := by
    rw [pushTemplate, parent_push rfl, parent_push rfl, parent_size]
  rw [growTemplate, appendChild_eq_attach hparent, children_pushTemplate]

@[simp] lemma size_growTemplate (h : Heap) (p : NodeId) (as : List Attribute) :
    (h.growTemplate p as).size = h.size + 2 := by
  rw [growTemplate_eq_attach, size_attach, size_pushTemplate]

lemma bare_growTemplate (h : Heap) (p : NodeId) (as : List Attribute) :
    (h.growTemplate p as).bare h.size = (.element (templateElement as), some (h.size + 1)) := by
  rw [growTemplate_eq_attach, bare_attach, bare, node_pushTemplate,
    if_neg (Nat.ne_of_lt (Nat.lt_succ_self _)), if_pos rfl]

lemma children_growTemplate (hp : p < h.size) (as : List Attribute) (q : NodeId) :
    (h.growTemplate p as).children q
      = if q = p then h.children p ++ [h.size] else h.children q := by
  rw [growTemplate_eq_attach, children_attach (by grind [size_pushTemplate]),
    children_pushTemplate]

/-- A new template grows without contents. -/
lemma WellFormed.plantedBelow_growTemplate (hwf : h.WellFormed) (hp : p < h.size)
    (as : List Attribute) : PlantedBelow h (h.growTemplate p as) p [.template as [] []] := by
  rw [← plantBelow_template]
  exact hwf.plantBelow hp _

/-- **A template put in its place before its contents** grows with them. -/
lemma PlantedBelow.template (hwf : h.WellFormed) (hp : p < h.size) {as : List Attribute}
    {us : List Tree} (hus : PlantedBelow (h.growTemplate p as) h' (h.size + 1) us) :
    PlantedBelow h h' p [.template as [] us] := by
  have hstart := hwf.plantedBelow_growTemplate hp as
  have hsize : h.size + 2 ≤ h'.size := by simpa using hus.size_le
  have hne : p ≠ h.size := Nat.ne_of_lt hp
  have hnode : ∀ k : ℕ, k ≤ h.size → h'.node k = (h.growTemplate p as).node k := fun k hk =>
    hus.node_eq k (by rw [size_growTemplate]; omega) (by omega)
  have hbare : h'.bare h.size = (.element (templateElement as), some (h.size + 1)) := by
    rw [← bare_growTemplate h p as, bare, bare, hnode _ le_rfl]
  rw [bare, Prod.mk.injEq] at hbare
  have hcontent : h'.content h.size = .element (templateElement as) := hbare.1
  have hempty : ∀ k : ℕ, h.size ≤ k → (h.growTemplate p as).children k = [] := fun k hk => by
    rw [children_growTemplate hp, if_neg (by grind), children, node_of_size_le hk]
  obtain ⟨ss, hch, hss, hnd, hge, hread⟩ := hus.carries
  rw [hempty _ (Nat.le_succ _), List.nil_append] at hch
  rw [size_growTemplate] at hge
  have hids := ids_planted_template hnd (fun k hk => ⟨hge k hk, hss.lt_size k hk⟩) hsize
    (show (idsAll []).Nodup by simp [idsAll]) (by simp [idsAll])
  refine ⟨hus.wellFormed, by omega, fun k hk hkp => ?_, ?_, ?_,
    [.template h.size [] (h.size + 1) ss], ?_, ⟨⟨by grind, hbare.2, ⟨as, hcontent⟩, ?_, trivial,
      by grind, hch, hss⟩, trivial⟩, ?_, ?_, ?_⟩
  · rw [hnode k hk.le, hstart.node_eq k hk hkp]
  · rw [← hstart.bare_eq, bare, bare, hnode p hp.le]
  · rw [← hstart.parent_eq, parent_congr (hnode p hp.le)]
  · rw [children_congr (hnode p hp.le), children_growTemplate hp, if_pos rfl]
    rfl
  · rw [children_congr (hnode _ le_rfl), hempty _ le_rfl]
    rfl
  · simpa using hids.1
  · simpa using hids.2
  · rw [readAll, readAll, read, hcontent, hread]
    rfl

/-! ### Text -/

/-- Whether the last child of a node is text, to which further text would be joined. -/
def EndsInText (h : Heap) (p : NodeId) : Prop :=
  ∃ i s, (h.children p).getLast? = some i ∧ h.content i = .text s

lemma exists_of_readAll_eq {ss : List Layout} {t : Tree} (hread : h.readAll ss = [t]) :
    ∃ s, ss = [s] ∧ h.read s = t := by
  match ss with
  | [] => simp [readAll] at hread
  | [s] => exact ⟨s, rfl, by simpa [readAll] using hread⟩
  | s :: u :: ss => simp [readAll] at hread

/-- A node that is text reads as that text, and no other. -/
lemma read_eq_text_iff {s : Layout} (hs : h.Carries s) {x : String} :
    h.read s = .text x ↔ h.content s.id = .text x := by
  cases s with
  | node i cs =>
      rw [read, Layout.id]
      cases h.content i <;> simp
  | template i cs inner us =>
      obtain ⟨-, -, ⟨as, hcontent⟩, -⟩ := hs
      rw [read, Layout.id, hcontent]
      simp

lemma eq_node_of_text {s : Layout} (hs : h.Carries s) {x : String}
    (hcontent : h.content s.id = .text x) : ∃ i, s = .node i [] := by
  cases s with
  | node i cs =>
      obtain ⟨-, -, hleaf, -⟩ := hs
      have hcontent : h.content i = .text x := hcontent
      exact ⟨i, by rw [hleaf (by rw [hcontent]; rfl)]⟩
  | template i cs inner us =>
      obtain ⟨-, -, ⟨as, has⟩, -⟩ := hs
      rw [Layout.id, has] at hcontent
      simp at hcontent

/-- Behind a tree that is not text, text stands for itself. -/
lemma PlantedBelow.not_endsInText {t : Tree} (ht : PlantedBelow h h' p [t])
    (hnot : ∀ x, t ≠ .text x) : ¬ h'.EndsInText p := by
  rintro ⟨i, x, hlast, hcontent⟩
  obtain ⟨ss, hch, hss, -, -, hreads⟩ := ht.carries
  obtain ⟨s, rfl, hread⟩ := exists_of_readAll_eq hreads
  rw [hch, List.map_cons, List.map_nil, List.getLast?_concat, Option.some.injEq] at hlast
  subst hlast
  exact hnot x (hread.symm.trans ((read_eq_text_iff hss.1).mpr hcontent))

open Construction in
/-- The first piece of a text. -/
lemma WellFormed.plantedBelow_putText (hwf : h.WellFormed) (hp : p < h.size)
    (hends : ¬ h.EndsInText p) (x : String) :
    PlantedBelow h (putText h x (.inside p)) p [.text x] := by
  have hgrow : putText h x (.inside p) = h.grow p (.text x) := by
    have hparent : (h.push { content := .text x }).parent h.size = none := by
      rw [parent_push rfl, parent_size]
    rw [grow, ← insertAt_length hparent, children_push rfl, putText, putTextBehind]
    split
    · next i t hi =>
        obtain ⟨j, hj, hpair⟩ := Option.map_eq_some_iff.mp hi
        obtain ⟨rfl, hcontent⟩ := Prod.mk.inj hpair
        exact absurd ⟨j, t, hj, hcontent⟩ hends
    · rfl
  rw [hgrow]
  exact hwf.plantedBelow_grow hp (by rw [Heap.plant])

lemma WellFormed.update_content (hwf : h.WellFormed) (i : NodeId) (c : Content) :
    (h.update i fun n => { n with content := c }).WellFormed := by
  have hch : ∀ k, (h.update i fun n => { n with content := c }).children k = h.children k := by
    intro k
    rw [children, node_update]
    split <;> rfl
  have hpa : ∀ k, (h.update i fun n => { n with content := c }).parent k = h.parent k := by
    intro k
    rw [parent, node_update]
    split <;> rfl
  refine ⟨fun q => ?_, fun j q => ?_, acyclic_of_child (fun q j hj => ?_) hwf.acyclic⟩
  · rw [hch]
    exact hwf.nodup q
  · rw [hpa, hch, hwf.parent_iff]
  · rwa [Child, hch] at hj

open Construction in
/-- **A further piece of a text** is joined to the pieces in front of it. -/
lemma PlantedBelow.putText {x : String} (hx : PlantedBelow h h' p [.text x]) (hp : p < h.size)
    (y : String) : PlantedBelow h (putText h' y (.inside p)) p [.text (x ++ y)] := by
  obtain ⟨ss, hch, hss, hnd, hge, hreads⟩ := hx.carries
  obtain ⟨s, rfl, hread⟩ := exists_of_readAll_eq hreads
  have hcontent := (read_eq_text_iff hss.1).mp hread
  obtain ⟨i, rfl⟩ := eq_node_of_text hss.1 hcontent
  obtain ⟨⟨hlt, hcontents, -, hchildren, -⟩, -⟩ := hss
  have hi : h.size ≤ i := hge i (by simp [idsAll, ids])
  have hput : Construction.putText h' y (.inside p)
      = h'.update i fun n => { n with content := .text (x ++ y) } := by
    have hcontent : h'.content i = .text x := hcontent
    rw [Construction.putText, hch, List.map_cons, List.map_nil, List.getLast?_concat, putTextBehind]
    simp only [Option.map_some, Layout.id, hcontent]
  have hnode : ∀ k, k ≠ i →
      (h'.update i fun n => { n with content := .text (x ++ y) }).node k = h'.node k :=
    fun k hk => by rw [node_update, if_neg fun h => hk h.1.symm]
  have hpiece : (h'.update i fun n => { n with content := .text (x ++ y) }).node i
      = { h'.node i with content := .text (x ++ y) } := by
    rw [node_update, if_pos ⟨rfl, hlt⟩]
  have hpi : p ≠ i := by omega
  have hcarries :
      (h'.update i fun n => { n with content := .text (x ++ y) }).Carries (.node i []) := by
    refine ⟨by simpa using hlt, by rw [hpiece, hcontents], fun _ => rfl, ?_, trivial⟩
    rw [children, hpiece]
    exact hchildren
  rw [hput]
  refine ⟨hx.wellFormed.update_content .., by simpa using hx.size_le, fun k hk hkp => ?_, ?_, ?_,
    [.node i []], ?_, ⟨hcarries, trivial⟩, hnd, hge, ?_⟩
  · rw [hnode k (Nat.ne_of_lt (Nat.lt_of_lt_of_le hk hi)), hx.node_eq k hk hkp]
  · rw [← hx.bare_eq, bare, bare, hnode p hpi]
  · rw [← hx.parent_eq, parent_congr (hnode p hpi)]
  · rw [children_congr (hnode p hpi), hch]
  · rw [readAll, readAll, (read_eq_text_iff hcarries).mpr (by rw [content, Layout.id, hpiece])]

end Heap

end RichText
