import RichText.Dom.Planting
import RichText.Html.Construction.Head
import RichText.Proofs.Construction.Holding

/-!
Heaps that go on behind what stands in them.

While a document is built, the nodes that stand keep what they are and keep their children in front.
Further children come behind those, and only to nodes that have been left open; to the others come
at most elements that belong into a head.

* `Content.Grown`: text goes on at its end, and an element gets further attributes;
* `Heap.Later`: **what has become of the nodes that stood**;
* `Heap.Onward`: what may happen to a heap on the way;
* `Heap.onward_appendChild`, `Heap.onward_insertAt`, `Heap.onward_push`, …: each move of new nodes.
-/

namespace RichText

/-- What may become of a node: text goes on at its end, and an element gets further attributes. -/
def Content.Grown : Content → Content → Prop
  | .text s, c => ∃ t, c = .text (s ++ t)
  | .element e, c => ∃ e', c = .element e' ∧ e'.name = e.name ∧ e'.vocabulary = e.vocabulary
  | b, c => c = b

lemma Content.Grown.refl (c : Content) : c.Grown c := by
  cases c with
  | text s => exact ⟨"", by simp⟩
  | element e => exact ⟨e, rfl, rfl, rfl⟩
  | document => rfl
  | comment s => rfl
  | doctype name publicId systemId => rfl

lemma Content.Grown.trans {c d d' : Content} (hd : c.Grown d) (hd' : d.Grown d') : c.Grown d' := by
  cases c with
  | text s =>
      obtain ⟨t, rfl⟩ := hd
      obtain ⟨t', rfl⟩ := hd'
      exact ⟨t ++ t', by rw [String.append_assoc]⟩
  | element e =>
      obtain ⟨e', rfl, hname, hvocabulary⟩ := hd
      obtain ⟨e'', rfl, hname', hvocabulary'⟩ := hd'
      exact ⟨e'', rfl, hname'.trans hname, hvocabulary'.trans hvocabulary⟩
  | document => exact hd ▸ hd'
  | comment s => exact hd ▸ hd'
  | doctype name publicId systemId => exact hd ▸ hd'

namespace Heap

/-! ### Nodes that stand -/

/-- A node that may get any children: one that has been left open, or a new one. -/
def Open (left : List NodeId) (n : ℕ) (i : NodeId) : Prop := i ∈ left ∨ n ≤ i

/-- An element that belongs into a head. -/
def IsOfHead (h : Heap) (i : NodeId) : Prop :=
  ∃ name ∈ Construction.headElements, h.tagName i = some name

/-- **What has become of the nodes that stood** in an earlier heap. Those that have been left open
may have got further children. -/
structure Later (left : List NodeId) (h₀ h : Heap) : Prop where
  size_le : h₀.size ≤ h.size
  content : ∀ i < h₀.size, (h₀.content i).Grown (h.content i)
  contents : ∀ i < h₀.size, (h.node i).contents = (h₀.node i).contents
  holders : ∀ i j, (h.node i).contents = some j → Open left h₀.size j
  within : ∀ i < h₀.size, ∀ j ∈ h₀.children i, j < h₀.size
  children : ∀ i < h₀.size, ∃ is, h.children i = h₀.children i ++ is
    ∧ ∀ j ∈ is, h₀.size ≤ j ∧ (i ∈ left ∨ h.IsOfHead j)

/-- **What may happen to a heap** on the way from an earlier one. -/
structure Onward (left : List NodeId) (h₀ h h' : Heap) : Prop where
  size_le : h.size ≤ h'.size
  tagName : ∀ i name, h.tagName i = some name → h'.tagName i = some name
  later : h₀.Later left h → h₀.Later left h'

variable {left : List NodeId} {h₀ h h' h'' : Heap} {i p : NodeId}

/-- A heap whose child lists lead to its own nodes, before anything has come later. -/
lemma Later.self (hwithin : ∀ i < h.size, ∀ j ∈ h.children i, j < h.size)
    (hcontents : ∀ i < h.size, (h.node i).contents = none) : h.Later left h where
  size_le := le_rfl
  content i _ := .refl _
  contents _ _ := rfl
  holders i j hj := by
    rcases Nat.lt_or_ge i h.size with hi | hi
    · rw [hcontents i hi] at hj
      cases hj
    · rw [node_of_size_le hi] at hj
      cases hj
  within := hwithin
  children i _ := ⟨[], by simp, by simp⟩

lemma Later.content_eq_of_comment (hl : h₀.Later left h) (hi : i < h₀.size) {s : String}
    (hc : h₀.content i = .comment s) : h.content i = .comment s := by
  have hgrown := hl.content i hi
  rw [hc] at hgrown
  exact hgrown

/-- A comment that stood is still there. -/
lemma Later.treeTo_of_comment (hl : h₀.Later left h) (hi : i < h₀.size) {s : String}
    (hc : h₀.content i = .comment s) (depth : ℕ) : h.treeTo (depth + 1) i = .comment s := by
  rw [treeTo]
  simp only [hl.content_eq_of_comment hi hc]

/-- An element that stood is still one of its name. -/
lemma Later.treeTo_of_element (hl : h₀.Later left h) (hi : i < h₀.size) {e : Element}
    (hc : h₀.content i = .element e) (hcontents : (h₀.node i).contents = none) (depth : ℕ) :
    ∃ e', e'.name = e.name
      ∧ h.treeTo (depth + 1) i = .element e' ((h.children i).map (h.treeTo depth)) := by
  have hgrown := hl.content i hi
  rw [hc] at hgrown
  obtain ⟨e', he', hname, -⟩ := hgrown
  refine ⟨e', hname, ?_⟩
  rw [treeTo]
  simp only [he', hl.contents i hi, hcontents]

/-- A text that stood is still there, and may have gone on. -/
lemma Later.treeTo_of_text (hl : h₀.Later left h) (hi : i < h₀.size) {s : String}
    (hc : h₀.content i = .text s) (depth : ℕ) :
    ∃ t, h.treeTo (depth + 1) i = .text (s ++ t) := by
  have hgrown := hl.content i hi
  rw [hc] at hgrown
  obtain ⟨t, ht⟩ := hgrown
  refine ⟨t, ?_⟩
  rw [treeTo]
  simp only [ht]

lemma Onward.refl (h : Heap) : Onward left h₀ h h := ⟨le_rfl, fun _ _ ht => ht, id⟩

lemma Onward.trans (ho : Onward left h₀ h h') (ho' : Onward left h₀ h' h'') :
    Onward left h₀ h h'' where
  size_le := ho.size_le.trans ho'.size_le
  tagName i name ht := ho'.tagName i name (ho.tagName i name ht)
  later hl := ho'.later (ho.later hl)

lemma IsOfHead.onward (hi : h.IsOfHead i) (ho : Onward left h₀ h h') : h'.IsOfHead i := by
  obtain ⟨name, hname, ht⟩ := hi
  exact ⟨name, hname, ho.tagName i name ht⟩

lemma tagName_eq_some_iff {name : String} :
    h.tagName i = some name ↔ ∃ e, h.content i = .element e ∧ e.name = name := by
  rw [tagName, element?]
  cases h.content i <;> simp

lemma tagName_of_bare (hbare : h'.bare i = h.bare i) : h'.tagName i = h.tagName i := by
  have hcontent : h'.content i = h.content i := congrArg Prod.fst hbare
  rw [tagName, tagName, element?, element?, hcontent]

/-- Moves do not change what nodes are; children may come behind those that stood. -/
lemma Onward.of_bare (hsize : h'.size = h.size) (hbare : ∀ i, h'.bare i = h.bare i)
    (hch : h₀.Later left h → ∀ i < h₀.size, ∀ is, h.children i = h₀.children i ++ is →
      (∀ j ∈ is, h₀.size ≤ j ∧ (i ∈ left ∨ h.IsOfHead j)) →
      ∃ is', h'.children i = h₀.children i ++ is'
        ∧ ∀ j ∈ is', h₀.size ≤ j ∧ (i ∈ left ∨ h.IsOfHead j)) :
    Onward left h₀ h h' where
  size_le := hsize.ge
  tagName i name ht := (tagName_of_bare (hbare i)).trans ht
  later hl :=
    { size_le := hl.size_le.trans hsize.ge
      content := fun i hi => by
        have hcontent : h'.content i = h.content i := congrArg Prod.fst (hbare i)
        exact hcontent ▸ hl.content i hi
      contents := fun i hi => (congrArg Prod.snd (hbare i)).trans (hl.contents i hi)
      holders := fun i j hj => hl.holders i j ((congrArg Prod.snd (hbare i)).symm.trans hj)
      within := hl.within
      children := fun i hi => by
        obtain ⟨is, his, hnew⟩ := hl.children i hi
        obtain ⟨is', his', hnew'⟩ := hch hl i hi is his hnew
        refine ⟨is', his', fun j hj => ⟨(hnew' j hj).1, (hnew' j hj).2.imp id ?_⟩⟩
        rintro ⟨name, hname, ht⟩
        exact ⟨name, hname, (tagName_of_bare (hbare j)).trans ht⟩ }

lemma onward_setParent (i : NodeId) (o : Option NodeId) : Onward left h₀ h (h.setParent i o) :=
  .of_bare (size_setParent ..) (bare_setParent h i · o) fun _ j _ is his hnew =>
    ⟨is, by rw [children_setParent, his], hnew⟩

lemma onward_setParents (is : List NodeId) (p : NodeId) :
    Onward left h₀ h (h.setParents is p) :=
  .of_bare (size_setParents ..) (bare_setParents h is p) fun _ j _ js hjs hnew =>
    ⟨js, by rw [children_setParents, hjs], hnew⟩

/-- Other children of a node, behind those that stood. -/
lemma onward_setChildren {cs : List NodeId}
    (hcs : h₀.Later left h → p < h₀.size → ∀ is, h.children p = h₀.children p ++ is →
      (∀ j ∈ is, h₀.size ≤ j ∧ (p ∈ left ∨ h.IsOfHead j)) →
      ∃ is', cs = h₀.children p ++ is' ∧ ∀ j ∈ is', h₀.size ≤ j ∧ (p ∈ left ∨ h.IsOfHead j)) :
    Onward left h₀ h (h.setChildren p cs) :=
  .of_bare (size_setChildren ..) (bare_setChildren h p · cs) fun hl j hj is his hnew => by
    rw [children_setChildren]
    split
    · next hpj =>
        obtain ⟨rfl, -⟩ := hpj
        exact hcs hl hj is his hnew
    · exact ⟨is, his, hnew⟩

lemma onward_setChildren_of_le {cs : List NodeId} (hp : h₀.size ≤ p) :
    Onward left h₀ h (h.setChildren p cs) :=
  onward_setChildren fun _ hlt => absurd hlt (Nat.not_lt.mpr hp)

/-- A new node taken out of its place. -/
lemma onward_detach (hi : h₀.size ≤ i) : Onward left h₀ h (h.detach i) := by
  cases hp : h.parent i with
  | none =>
      rw [detach_of_parent_eq_none hp]
      exact .refl h
  | some p =>
      rw [detach_of_parent_eq_some hp]
      refine (onward_setParent i none).trans (onward_setChildren fun hl hlt is his hnew => ?_)
      refine ⟨is.filter (· ≠ i), ?_, fun j hj => hnew j (List.mem_of_mem_filter hj)⟩
      rw [children_setParent] at his
      rw [his, List.filter_append, List.filter_eq_self.mpr fun j hj => ?_]
      have hlt : j < h₀.size := hl.within p hlt j hj
      exact decide_eq_true fun hji => absurd hlt (Nat.not_lt.mpr (hji ▸ hi))

/-- A new node put behind the children of one that is open, or an element that belongs into a head
behind any. -/
lemma onward_appendChild (hi : h₀.size ≤ i) (hp : Open left h₀.size p ∨ h.IsOfHead i) :
    Onward left h₀ h (h.appendChild p i) := by
  have hmoved : Onward left h₀ h ((h.detach i).setParent i (some p)) :=
    (onward_detach hi).trans (onward_setParent i _)
  have hp' := hp.imp id fun hhead => hhead.onward hmoved
  refine hmoved.trans (onward_setChildren fun hl hlt is his hnew => ?_)
  refine ⟨is ++ [i], by rw [← List.append_assoc, ← his], fun j hj => ?_⟩
  rcases List.mem_append.mp hj with hj | hj
  · exact hnew j hj
  · rw [List.mem_singleton.mp hj]
    refine ⟨hi, hp'.imp (fun hopen => hopen.resolve_right (Nat.not_le.mpr hlt)) id⟩

/-- In front of a sibling that comes behind others, a node comes behind those others, too. -/
lemma length_le_insertionIndex {cs is : List NodeId} {next : Option NodeId} {index : ℕ}
    (hindex : cs.length ≤ index) (hnext : ∀ j ∈ next, j ∉ cs) :
    cs.length ≤ insertionIndex (cs ++ is) next index := by
  unfold insertionIndex
  split
  · next k hk =>
      obtain ⟨j, hj, hidx⟩ := Option.bind_eq_some_iff.mp hk
      obtain ⟨hlt, hget, -⟩ := List.idxOf?_eq_some_iff.mp hidx
      by_contra hle
      have hat := List.getElem?_eq_some_iff.mpr ⟨hlt, hget⟩
      rw [List.getElem?_append_left (Nat.not_le.mp hle)] at hat
      exact hnext j hj (List.mem_of_getElem? hat)
  · exact Nat.le_min.mpr ⟨hindex, by simp⟩

/-- A list with something put into it behind its front. -/
lemma exists_append_of_insert {cs is : List NodeId} {start : ℕ} (hstart : cs.length ≤ start)
    (i : NodeId) : ∃ is', (cs ++ is).take start ++ [i] ++ (cs ++ is).drop start = cs ++ is'
      ∧ ∀ j ∈ is', j ∈ is ∨ j = i := by
  refine ⟨is.take (start - cs.length) ++ i :: is.drop (start - cs.length), ?_, fun j hj => ?_⟩
  · rw [List.take_append, List.drop_append, List.take_of_length_le hstart,
      List.drop_of_length_le hstart]
    simp
  · rcases List.mem_append.mp hj with hj | hj
    · exact .inl (List.mem_of_mem_take hj)
    · exact (List.mem_cons.mp hj).symm.imp List.mem_of_mem_drop id

/-- A new node put among the children of one that is open, behind those that stood. -/
lemma onward_insertAt (hi : h₀.size ≤ i) {index : ℕ}
    (hp : p < h₀.size → (h₀.children p).length ≤ index ∧ (p ∈ left ∨ h.IsOfHead i)) :
    Onward left h₀ h (h.insertAt p index [i]) := by
  have hbare : ∀ j, (h.insertAt p index [i]).bare j = h.bare j := fun j => by
    rw [insertAt, bare_setChildren, bare_setParents, bare_detachAll]
  have hmoved : Onward left h₀ h ((h.detach i).setParents [i] p) :=
    (onward_detach hi).trans (onward_setParents _ p)
  refine ⟨by simp [insertAt], fun j name ht => (tagName_of_bare (hbare j)).trans ht, fun hl => ?_⟩
  -- the sibling in front of which the node goes is looked up before the node is taken out
  have hput : Onward left h₀ ((h.detach i).setParents [i] p) (h.insertAt p index [i]) := by
    refine onward_setChildren fun _ hlt is his hnew => ?_
    obtain ⟨hindex, hfree⟩ := hp hlt
    obtain ⟨js, hjs, hnewjs⟩ := hl.children p hlt
    have hstart : (h₀.children p).length
        ≤ insertionIndex (h₀.children p ++ is) (h.children p)[index]? index := by
      refine length_le_insertionIndex hindex fun j hj hmem => ?_
      have hnext : j ∈ js := by
        rw [hjs, List.getElem?_append_right hindex] at hj
        exact List.mem_of_getElem? hj
      exact absurd (hl.within p hlt j hmem) (Nat.not_lt.mpr (hnewjs j hnext).1)
    have hsiblings : (h.detachAll [i]).children p = h₀.children p ++ is := by
      rw [← his, children_setParents]
      rfl
    obtain ⟨is', his', hmem⟩ := exists_append_of_insert hstart i
    refine ⟨is', ?_, fun j hj => ?_⟩
    · rw [← his', ← hsiblings]
    · rcases hmem j hj with hj | rfl
      · exact hnew j hj
      · exact ⟨hi, hfree.imp id fun hhead => hhead.onward hmoved⟩
  exact hput.later (hmoved.later hl)

/-- The children of a new node moved to another new one. -/
lemma onward_moveChildren {source target : NodeId} (hs : h₀.size ≤ source)
    (ht : h₀.size ≤ target) : Onward left h₀ h (h.moveChildren source target) :=
  ((onward_setChildren_of_le hs).trans (onward_setParents _ _)).trans (onward_setChildren_of_le ht)

/-- A new node. -/
lemma onward_push {n : Node} (hn : ∀ j, n.contents = some j → Open left h₀.size j) :
    Onward left h₀ h (h.push n) := by
  have hname : ∀ i name, h.tagName i = some name → (h.push n).tagName i = some name := by
    intro i name ht
    obtain ⟨e, he, hname⟩ := tagName_eq_some_iff.mp ht
    refine tagName_eq_some_iff.mpr ⟨e, ?_, hname⟩
    rw [content_push, if_neg, he]
    rintro rfl
    rw [content, node_of_size_le le_rfl] at he
    cases he
  refine ⟨by simp, hname, fun hl => ?_⟩
  have hsame : ∀ i < h₀.size, (h.push n).node i = h.node i := fun i hi => by
    rw [node_push, if_neg (Nat.ne_of_lt (hi.trans_le hl.size_le))]
  exact
    { size_le := hl.size_le.trans (by simp)
      content := fun i hi => by
        rw [content_push, if_neg (Nat.ne_of_lt (hi.trans_le hl.size_le))]
        exact hl.content i hi
      contents := fun i hi => by
        rw [hsame i hi]
        exact hl.contents i hi
      holders := fun i j hj => by
        rw [node_push] at hj
        split at hj
        · exact hn j hj
        · exact hl.holders i j hj
      within := hl.within
      children := fun i hi => by
        obtain ⟨is, his, hnew⟩ := hl.children i hi
        refine ⟨is, by rw [Heap.children, hsame i hi]; exact his, fun j hj => ?_⟩
        refine ⟨(hnew j hj).1, (hnew j hj).2.imp id ?_⟩
        rintro ⟨name, hmem, ht⟩
        exact ⟨name, hmem, hname j name ht⟩ }

/-- A node that goes on as what it is. -/
lemma onward_update {c : Content} (hc : (h.content i).Grown c) :
    Onward left h₀ h (h.update i fun n => { n with content := c }) := by
  have hgrown : ∀ j, (h.content j).Grown
      ((h.update i fun n => { n with content := c }).content j) := by
    intro j
    rw [content_update]
    split
    · next hij => exact hij.1 ▸ hc
    · exact .refl _
  have hname : ∀ j name, h.tagName j = some name →
      (h.update i fun n => { n with content := c }).tagName j = some name := by
    intro j name ht
    obtain ⟨e, he, hname⟩ := tagName_eq_some_iff.mp ht
    have hj := hgrown j
    rw [he] at hj
    obtain ⟨e', he', hname', -⟩ := hj
    exact tagName_eq_some_iff.mpr ⟨e', he', hname'.trans hname⟩
  refine ⟨by simp, hname, fun hl => ?_⟩
  exact
    { size_le := hl.size_le.trans (by simp)
      content := fun j hj => (hl.content j hj).trans (hgrown j)
      contents := fun j hj => by
        rw [node_update]
        split <;> exact hl.contents j hj
      holders := fun j k hk => by
        rw [node_update] at hk
        split at hk <;> exact hl.holders j k hk
      within := hl.within
      children := fun j hj => by
        obtain ⟨is, his, hnew⟩ := hl.children j hj
        refine ⟨is, ?_, fun k hk => ⟨(hnew k hk).1, (hnew k hk).2.imp id ?_⟩⟩
        · rw [Heap.children, node_update]
          split <;> exact his
        · rintro ⟨name, hmem, ht⟩
          exact ⟨name, hmem, hname k name ht⟩ }

end Heap

end RichText
