import RichText.Proofs.Construction.Build
import RichText.Proofs.Construction.Later

/-!
What has been built lasts.

Once a part of a document stands, the moves of the construction go on behind it: whatever comes
later, the nodes that stand keep their children in front, as long as no formatting element is open
among them and no frameset can take the place of the body.

* `Place.Behind`: places behind what stands;
* `Construction.Beyond`: the open elements in the light of the nodes that stand;
* `Beyond.addText`, `Beyond.insertOpen`, …: the moves that put nodes in;
* `Beyond.moveBlock`: a block moved out of a formatting element;
* `Beyond.of_move`, `Beyond.of_reaches`: **what has been built lasts** through all moves;
* `Beyond.build`: and so it does through a text taken in to its end.
-/

namespace RichText

namespace Construction

open Heap

variable {left : List NodeId} {h₀ h : Heap} {c : Construction}

/-! ### Places -/

/-- A place behind the nodes that stood. -/
def Place.Behind (left : List NodeId) (n : ℕ) (h : Heap) : Place → Prop
  | .inside p => Heap.Open left n p
  | .beforeTable table around =>
      n ≤ table ∧ h.tagName table = some "table" ∧ Heap.Open left n around

/-- The place in front of a table that has come later is behind the nodes that stood. -/
lemma behind_of_besideTable? (hl : h₀.Later left h) {table p : NodeId} {index : ℕ}
    (htable : h₀.size ≤ table) (hname : h.tagName table = some "table")
    (hb : besideTable? h table = some (p, index)) (hp : p < h₀.size) :
    (h₀.children p).length ≤ index ∧ p ∈ left := by
  simp only [besideTable?, Option.bind_eq_bind, Option.bind_eq_some_iff, Option.pure_def,
    Option.some.injEq, Prod.mk.injEq] at hb
  obtain ⟨q, -, k, hk, rfl, rfl⟩ := hb
  obtain ⟨is, his, hnew⟩ := hl.children q hp
  have hold : table ∉ h₀.children q := fun hmem =>
    absurd (hl.within q hp table hmem) (Nat.not_lt.mpr htable)
  obtain ⟨hlt, hget, -⟩ := List.idxOf?_eq_some_iff.mp hk
  have hle : (h₀.children q).length ≤ k := by
    by_contra hle
    have hin : k < (h₀.children q).length := Nat.not_le.mp hle
    refine hold ?_
    rw [← hget, List.getElem_of_eq his, List.getElem_append_left hin]
    exact List.getElem_mem _
  refine ⟨hle, (hnew table ?_).2.resolve_right fun hhead => ?_⟩
  · have hmem : table ∈ h.children q := hget ▸ List.getElem_mem _
    rw [his, List.mem_append] at hmem
    exact hmem.resolve_left hold
  · obtain ⟨name, hmem, ht⟩ := hhead
    obtain rfl : name = "table" := Option.some.inj (ht.symm.trans hname)
    exact absurd hmem (by decide)

lemma Place.Behind.onward {h' : Heap} {place : Place} (hp : place.Behind left h₀.size h)
    (ho : Onward left h₀ h h') : place.Behind left h₀.size h' := by
  cases place with
  | inside p => exact hp
  | beforeTable table around => exact ⟨hp.1, ho.tagName _ _ hp.2.1, hp.2.2⟩

lemma onward_putNode (hl : h₀.Later left h) {i : NodeId} (hi : h₀.size ≤ i) {place : Place}
    (hp : place.Behind left h₀.size h) : Onward left h₀ h (putNode h i place) := by
  cases place with
  | inside p => exact onward_appendChild hi (.inl hp)
  | beforeTable table around =>
      obtain ⟨htable, hname, haround⟩ := hp
      rw [putNode]
      split
      · next hb =>
          refine onward_insertAt hi fun hlt => ?_
          exact (behind_of_besideTable? hl htable hname hb hlt).imp id .inl
      · exact onward_appendChild hi (.inl haround)

lemma onward_putTextBehind (hl : h₀.Later left h) {p : NodeId} {index : ℕ}
    (hp : p < h₀.size → (h₀.children p).length ≤ index ∧ p ∈ left) (previous : Option NodeId)
    (s : String) : Onward left h₀ h (putTextBehind h p previous index s) := by
  unfold putTextBehind
  split
  · next i t hi =>
      obtain ⟨j, -, hj⟩ := Option.map_eq_some_iff.mp hi
      obtain ⟨rfl, ht⟩ := Prod.mk.inj hj
      exact onward_update (ht ▸ ⟨s, rfl⟩)
  · exact (onward_push (by simp)).trans
      (onward_insertAt hl.size_le fun hlt => (hp hlt).imp id .inl)

lemma onward_putText (hl : h₀.Later left h) (s : String) {place : Place}
    (hp : place.Behind left h₀.size h) : Onward left h₀ h (putText h s place) := by
  have hinside : ∀ p, Heap.Open left h₀.size p → p < h₀.size →
      (h₀.children p).length ≤ (h.children p).length ∧ p ∈ left := by
    intro p hopen hlt
    obtain ⟨is, his, -⟩ := hl.children p hlt
    exact ⟨by simp [his], hopen.resolve_right (Nat.not_le.mpr hlt)⟩
  cases place with
  | inside p => exact onward_putTextBehind hl (hinside p hp) _ s
  | beforeTable table around =>
      obtain ⟨htable, hname, haround⟩ := hp
      rw [putText]
      split
      · next hb => exact onward_putTextBehind hl (behind_of_besideTable? hl htable hname hb) _ s
      · exact onward_putTextBehind hl (hinside around haround) _ s

/-! ### Open elements -/

/-- An open element in the light of the nodes that stood: it may get further children, and a table
has come later. -/
structure Fits (left : List NodeId) (n : ℕ) (h : Heap) (e : OpenElement) : Prop where
  isOpen : Heap.Open left n e.id
  table : e.named "table" = true → n ≤ e.id ∧ h.tagName e.id = some "table"

/-- **What is open**, where an earlier heap is to last. The open elements that stood are around
those that have come later, and no formatting element stood; nothing open stood as long as a
frameset may take the place of the body. -/
structure Beyond (left : List NodeId) (h₀ : Heap) (c : Construction) : Prop where
  heap : h₀.Later left c.heap
  root : c.root = 0 ∧ 0 ∈ left
  stack : ∀ e ∈ c.stack, Fits left h₀.size c.heap e
  order : c.stack.Pairwise fun e f => h₀.size ≤ f.id → h₀.size ≤ e.id
  formatting : ∀ f ∈ c.formatting, ∀ i ∈ f.id?, h₀.size ≤ i
  head : ∀ e ∈ c.head, e.named "head" = true ∧ e.id < c.heap.size
  frameset : c.framesetOk = true → ∀ e ∈ c.stack, h₀.size ≤ e.id

lemma Fits.onward {h' : Heap} {e : OpenElement} (he : Fits left h₀.size h e)
    (ho : Onward left h₀ h h') : Fits left h₀.size h' e :=
  ⟨he.isOpen, fun ht => (he.table ht).imp id (ho.tagName e.id "table")⟩

/-- A new element fits under its name. -/
lemma Fits.of_new {n : ℕ} {e : OpenElement} (he : n ≤ e.id)
    (hname : h.tagName e.id = some e.name) : Fits left n h e := by
  refine ⟨.inr he, fun ht => ⟨he, ?_⟩⟩
  obtain ⟨-, hn⟩ : _ ∧ e.name = "table" := by simpa [OpenElement.named] using ht
  rw [hname, hn]

namespace Beyond

lemma open_root (hb : c.Beyond left h₀) : Heap.Open left h₀.size c.root :=
  .inl (hb.root.1 ▸ hb.root.2)

lemma withHeap (hb : c.Beyond left h₀) (ho : Onward left h₀ c.heap h) :
    Beyond left h₀ { c with heap := h } where
  heap := ho.later hb.heap
  root := hb.root
  stack e he := (hb.stack e he).onward ho
  order := hb.order
  formatting := hb.formatting
  head e he := (hb.head e he).imp id fun hlt => hlt.trans_le ho.size_le
  frameset := hb.frameset

lemma keep {d : Construction} (hb : c.Beyond left h₀) (hheap : d.heap = c.heap)
    (hroot : d.root = c.root) (hstack : d.stack.Sublist c.stack) (hhead : d.head = c.head)
    (hformatting : d.formatting ⊆ c.formatting)
    (hframeset : d.framesetOk = true → c.framesetOk = true) : d.Beyond left h₀ where
  heap := hheap ▸ hb.heap
  root := hroot ▸ hb.root
  stack e he := hheap ▸ hb.stack e (hstack.subset he)
  order := hb.order.sublist hstack
  formatting f hf := hb.formatting f (hformatting hf)
  head e he := by
    rw [hheap]
    exact hb.head e (hhead ▸ he)
  frameset hok e he := hb.frameset (hframeset hok) e (hstack.subset he)

lemma setFormatting (hb : c.Beyond left h₀) {fs : List FormattingEntry}
    (hfs : ∀ f ∈ fs, ∀ i ∈ f.id?, h₀.size ≤ i) : Beyond left h₀ { c with formatting := fs } where
  heap := hb.heap
  root := hb.root
  stack := hb.stack
  order := hb.order
  formatting := hfs
  head := hb.head
  frameset := hb.frameset

/-- Other open elements, of which those that stood are around the new ones. -/
lemma setStack (hb : c.Beyond left h₀) (inner : List OpenElement) {outer : List OpenElement}
    (hinner : ∀ e ∈ inner, h₀.size ≤ e.id ∧ Fits left h₀.size c.heap e)
    (houter : outer.Sublist c.stack) : Beyond left h₀ { c with stack := inner ++ outer } where
  heap := hb.heap
  root := hb.root
  stack e he := (List.mem_append.mp he).elim (fun he => (hinner e he).2) fun he =>
    hb.stack e (houter.subset he)
  order := by
    refine List.pairwise_append.mpr ⟨?_, hb.order.sublist houter, fun e he _ _ _ => (hinner e he).1⟩
    exact List.pairwise_iff_getElem.mpr fun i _ hi _ _ _ => (hinner _ (List.getElem_mem hi)).1
  formatting := hb.formatting
  head := hb.head
  frameset hok e he := (List.mem_append.mp he).elim (fun he => (hinner e he).1) fun he =>
    hb.frameset hok e (houter.subset he)

/-- A new element opened. -/
lemma push (hb : c.Beyond left h₀) {e : OpenElement} (he : h₀.size ≤ e.id)
    (hname : c.heap.tagName e.id = some e.name) : (c.push e).Beyond left h₀ := by
  refine hb.setStack [e] (fun f hf => ?_) (List.Sublist.refl _)
  obtain rfl := List.mem_singleton.mp hf
  exact ⟨he, .of_new he hname⟩

/-! ### Places of elements -/

lemma holder (hb : c.Beyond left h₀) {e : OpenElement} (he : Heap.Open left h₀.size e.id) :
    Heap.Open left h₀.size (c.holder e) := by
  unfold Construction.holder
  split
  · cases hc : (c.heap.node e.id).contents with
    | none => exact he
    | some j => exact hb.heap.holders _ j hc
  · exact he

lemma fosterPlace (hb : c.Beyond left h₀) : ∀ es : List OpenElement, es ⊆ c.stack →
    (c.fosterPlace es).Behind left h₀.size c.heap
  | [], _ => hb.open_root
  | [e], hes => hb.holder (hb.stack e (hes List.mem_cons_self)).isOpen
  | e :: f :: es, hes => by
      have he := hb.stack e (hes List.mem_cons_self)
      have hf := hb.stack f (hes (List.mem_cons_of_mem _ List.mem_cons_self))
      have hrec := hb.fosterPlace (f :: es) (List.subset_of_cons_subset hes)
      unfold Construction.fosterPlace
      split
      · exact hb.holder he.isOpen
      · split
        · next ht => exact ⟨(he.table ht).1, (he.table ht).2, hf.isOpen⟩
        · exact hrec

lemma placeIn (hb : c.Beyond left h₀) {e : OpenElement} (he : e ∈ c.stack) :
    (c.placeIn e).Behind left h₀.size c.heap := by
  unfold Construction.placeIn
  split
  · exact hb.fosterPlace _ (List.Subset.refl _)
  · exact hb.holder (hb.stack e he).isOpen

lemma place (hb : c.Beyond left h₀) : c.place.Behind left h₀.size c.heap := by
  unfold Construction.place
  split
  · exact hb.open_root
  · next e es hes => exact hb.placeIn (by rw [hes]; exact List.mem_cons_self)

end Beyond

/-! ### Nodes put in -/

lemma make_fst (c : Construction) (e : Element) :
    (c.make e).1 = { c with heap := (c.make e).1.heap } := by
  unfold make
  dsimp only
  split <;> rfl

lemma make_snd (c : Construction) (e : Element) : (c.make e).2 = c.heap.size := by
  unfold make
  dsimp only
  split <;> rfl

lemma tagName_make (c : Construction) (e : Element) :
    (c.make e).1.heap.tagName c.heap.size = some e.name := by
  refine tagName_eq_some_iff.mpr ⟨e, ?_, rfl⟩
  unfold make
  dsimp only
  split
  · rw [content_push, if_neg (by simp), content_push, if_pos rfl]
  · rw [content_push, if_pos rfl]

lemma insert_fst (c : Construction) (e : Element) :
    (c.insert e).1 = { c with heap := (c.insert e).1.heap } := by
  unfold insert
  dsimp only
  rw [make_fst]

lemma size_lt_make (c : Construction) (e : Element) : c.heap.size < (c.make e).1.heap.size := by
  unfold make
  dsimp only
  split
  · exact Nat.lt_of_lt_of_eq (Nat.lt_add_of_pos_right Nat.two_pos) (by simp)
  · exact Nat.lt_of_lt_of_eq (Nat.lt_succ_self _) (by simp)

lemma bare_putNode (h : Heap) (i : NodeId) (place : Place) (j : NodeId) :
    (putNode h i place).bare j = h.bare j := by
  have happend : ∀ p, (h.appendChild p i).bare j = h.bare j := fun p => by
    rw [Heap.appendChild, bare_setChildren, bare_setParent, bare_detach]
  cases place with
  | inside p => exact happend p
  | beforeTable table around =>
      rw [putNode]
      split
      · rw [Heap.insertAt, bare_setChildren, bare_setParents, bare_detachAll]
      · exact happend around

/-- A new element put in its place is there under its name. -/
lemma tagName_put (c : Construction) (e : Element) (place : Place) :
    (putNode (c.make e).1.heap (c.make e).2 place).tagName (c.make e).2 = some e.name := by
  rw [tagName_of_bare (bare_putNode _ _ _ _), make_snd]
  exact tagName_make c e

lemma onward_make (hl : h₀.Later left c.heap) (e : Element) :
    Onward left h₀ c.heap (c.make e).1.heap := by
  unfold make
  dsimp only
  split
  · refine (onward_push fun j hj => ?_).trans (onward_push (by simp))
    obtain rfl := Option.some.inj hj
    exact .inr (hl.size_le.trans (Nat.le_succ _))
  · exact onward_push (by simp)

namespace Beyond

lemma make (hb : c.Beyond left h₀) (e : Element) : (c.make e).1.Beyond left h₀ :=
  make_fst c e ▸ hb.withHeap (onward_make hb.heap e)

/-- A new node put in its place. -/
lemma put (hb : c.Beyond left h₀) {i : NodeId} (hi : h₀.size ≤ i) {place : Place}
    (hp : place.Behind left h₀.size c.heap) :
    Beyond left h₀ { c with heap := putNode c.heap i place } :=
  hb.withHeap (onward_putNode hb.heap hi hp)

lemma size_le_make (hb : c.Beyond left h₀) (e : Element) : h₀.size ≤ (c.make e).2 := by
  rw [make_snd]
  exact hb.heap.size_le

lemma insert (hb : c.Beyond left h₀) (e : Element) : (c.insert e).1.Beyond left h₀ :=
  (hb.make e).put (hb.size_le_make e) (hb.make e).place

lemma insertOpen (hb : c.Beyond left h₀) (e : Element) : (c.insertOpen e).Beyond left h₀ :=
  (hb.insert e).push (hb.size_le_make e) (tagName_put c e _)

lemma addText (hb : c.Beyond left h₀) (s : List Char) : (c.addText s).Beyond left h₀ :=
  hb.withHeap (onward_putText hb.heap _ hb.place)

/-- A node without contents made. -/
lemma pushNode (hb : c.Beyond left h₀) (content : Content) :
    Beyond left h₀ { c with heap := c.heap.push { content } } :=
  hb.withHeap (onward_push (by simp))

lemma addComment (hb : c.Beyond left h₀) (s : String) : (c.addComment s).Beyond left h₀ := by
  have hpushed := hb.pushNode (.comment s)
  exact hpushed.put hb.heap.size_le (hb.place.onward (onward_push (by simp)))

lemma addBelow (hb : c.Beyond left h₀) {p : NodeId} (hp : p = c.root ∨ ∃ e ∈ c.stack, e.id = p)
    (content : Content) :
    Beyond left h₀ { c with heap := (c.heap.push { content }).appendChild p c.heap.size } := by
  have hopen : Heap.Open left h₀.size p := by
    obtain rfl | ⟨e, he, rfl⟩ := hp
    · exact hb.open_root
    · exact (hb.stack e he).isOpen
  have hplace : (Place.inside p).Behind left h₀.size (c.heap.push { content }) := hopen
  exact (hb.pushNode content).put hb.heap.size_le hplace

lemma addMissing (hb : c.Beyond left h₀) (i : NodeId) (as : List Attribute) :
    (c.addMissing i as).Beyond left h₀ := by
  unfold Construction.addMissing
  split
  · next e he =>
      refine hb.withHeap (onward_update ?_)
      have hcontent : c.heap.content i = .element e := by
        unfold Heap.element? at he
        split at he
        · next hc => rw [hc, Option.some.inj he]
        · simp at he
      rw [hcontent]
      exact ⟨_, rfl, rfl, rfl⟩
  · exact hb

lemma openHtml (hb : c.Beyond left h₀) (as : List Attribute) : (c.openHtml as).Beyond left h₀ := by
  obtain ⟨e, he⟩ : ∃ e : Element, e = { name := "html", attributes := as } := ⟨_, rfl⟩
  have hroot : Place.Behind left h₀.size (c.make e).1.heap (.inside (c.make e).1.root) :=
    (hb.make e).open_root
  have hput := (hb.make e).put (hb.size_le_make e) hroot
  have hopen := hput.push (e := entry (c.make e).2 e) (hb.size_le_make e) (tagName_put c e _)
  rw [he] at hopen
  exact hopen

lemma openHead (hb : c.Beyond left h₀) {t : Tag} (hname : t.name = "head") :
    (c.openHead t).Beyond left h₀ := by
  have hopen := hb.insertOpen (elementOf t)
  have hsize : c.heap.size < (c.insertOpen (elementOf t)).heap.size :=
    (size_lt_make c (elementOf t)).trans_le
      (onward_putNode (hb.make _).heap (hb.size_le_make _) (hb.make _).place).size_le
  exact
    { heap := hopen.heap
      root := hopen.root
      stack := hopen.stack
      order := hopen.order
      formatting := hopen.formatting
      head := fun e he => by
        obtain rfl : entry (c.make (elementOf t)).2 (elementOf t) = e := Option.some.inj he
        refine ⟨by simp [OpenElement.named, entry, elementOf, hname], ?_⟩
        show (c.make (elementOf t)).2 < _
        rw [make_snd]
        exact hsize
      frameset := hopen.frameset }

/-- What comes into a closed head belongs there. -/
lemma onward_insertInHead (hb : c.Beyond left h₀) {head : OpenElement} (hhead : c.head = some head)
    {e : Element} (hmem : e.name ∈ headElements) :
    Onward left h₀ c.heap ((c.push head).insert e).1.heap := by
  obtain ⟨hnamed, -⟩ := hb.head head hhead
  have hplace : ((c.push head).make e).1.place = .inside head.id := by
    have hstack : ((c.push head).make e).1.stack = head :: c.stack := by
      rw [make_fst]
      rfl
    obtain ⟨hvocabulary, hname⟩ : head.vocabulary = .html ∧ head.name = "head" := by
      simpa [OpenElement.named] using hnamed
    rw [Construction.place, hstack]
    simp [Construction.placeIn, Construction.holder, OpenElement.among, OpenElement.named, hname]
  have hmade : Onward left h₀ c.heap ((c.push head).make e).1.heap :=
    onward_make (c := c.push head) hb.heap e
  have hhead : ((c.push head).make e).1.heap.IsOfHead ((c.push head).make e).2 :=
    ⟨e.name, hmem, by rw [make_snd]; exact tagName_make _ e⟩
  have hput : Onward left h₀ ((c.push head).make e).1.heap (putNode ((c.push head).make e).1.heap
      ((c.push head).make e).2 ((c.push head).make e).1.place) := by
    rw [hplace]
    refine onward_appendChild ?_ (.inr hhead)
    rw [make_snd]
    exact hb.heap.size_le
  exact hmade.trans hput

lemma addToHead (hb : c.Beyond left h₀) {head : OpenElement} (hhead : c.head = some head) {t : Tag}
    (hmem : t.name ∈ headElements) :
    (((c.push head).addTag t).removeOpen head.id).Beyond left h₀ := by
  have hwith := hb.withHeap (hb.onward_insertInHead hhead (e := elementOf t) hmem)
  rw [addTag, insert_fst]
  refine hwith.keep rfl rfl ?_ rfl (List.Subset.refl _) id
  simp [removeOpen, Construction.push]

lemma openInHead (hb : c.Beyond left h₀) {head : OpenElement} (hhead : c.head = some head)
    {t : Tag} (hmem : t.name ∈ headElements) :
    (((c.push head).openTag t).removeOpen head.id).Beyond left h₀ := by
  have hwith := hb.withHeap (hb.onward_insertInHead hhead (e := elementOf t) hmem)
  have hnew : ((c.push head).insert (elementOf t)).2 = c.heap.size := make_snd _ _
  have hopen := hwith.push (e := entry c.heap.size (elementOf t)) hb.heap.size_le
    (hnew ▸ tagName_put (c.push head) (elementOf t) _)
  have hne : c.heap.size ≠ head.id := Nat.ne_of_gt (hb.head head hhead).2
  have hstack : (entry c.heap.size (elementOf t) :: head :: c.stack).eraseP (·.id = head.id)
      = entry c.heap.size (elementOf t) :: c.stack := by
    rw [List.eraseP_cons_of_neg (by simp [entry, hne]), List.eraseP_cons_of_pos (by simp)]
  rw [Construction.openTag, Construction.insertOpen]
  dsimp only
  rw [hnew, insert_fst]
  exact hopen.keep rfl rfl (by rw [removeOpen]; exact hstack ▸ List.Sublist.refl _) rfl
    (List.Subset.refl _) id

/-- Nothing that stood is taken away with the body. -/
lemma dropBody (hb : c.Beyond left h₀) {e : OpenElement} (he : e ∈ c.stack)
    (hok : c.framesetOk = true) :
    Beyond left h₀ { c with heap := c.heap.detach e.id, stack := c.stack.getLast?.toList } := by
  have hlast : c.stack.getLast?.toList.Sublist c.stack := by
    cases hlast : c.stack.getLast? with
    | none => exact List.nil_sublist _
    | some f => exact List.singleton_sublist.mpr (List.mem_of_getLast? hlast)
  exact (hb.withHeap (onward_detach (hb.frameset hok e he))).keep rfl rfl hlast rfl
    (List.Subset.refl _) id

/-! ### Formatting elements -/

lemma reopen : ∀ {c : Construction} (fs kept : List FormattingEntry), c.Beyond left h₀ →
    (∀ f ∈ kept, ∀ i ∈ f.id?, h₀.size ≤ i) → (c.reopen kept fs).Beyond left h₀
  | _, [], _, hb, hkept => hb.setFormatting hkept
  | _, .marker :: fs, kept, hb, hkept => reopen fs kept hb hkept
  | c, .element _ name attributes :: fs, kept, hb, hkept => by
      have hi := hb.size_le_make { name := name, attributes }
      refine reopen fs _ ((hb.insert _).push hi (tagName_put c _ _)) fun f hf i hfi => ?_
      rcases List.mem_cons.mp hf with rfl | hf
      · exact Option.some.inj hfi ▸ hi
      · exact hkept f hf i hfi

lemma reopenFormatting (hb : c.Beyond left h₀) : c.reopenFormatting.Beyond left h₀ := by
  unfold Construction.reopenFormatting
  dsimp only
  split
  · exact hb
  · exact reopen _ _ hb fun f hf => hb.formatting f ((List.dropWhile_sublist _).subset hf)

lemma openFormatting (hb : c.Beyond left h₀) (t : Tag) : (c.openFormatting t).Beyond left h₀ := by
  have hdropped : Beyond left h₀ { c with formatting := dropThird t 0 c.formatting } :=
    hb.setFormatting fun f hf => hb.formatting f (dropThird_subset t 0 c.formatting hf)
  have hopen := hdropped.insertOpen (elementOf t)
  refine hopen.setFormatting fun f hf i hi => ?_
  rcases List.mem_cons.mp hf with rfl | hf
  · exact Option.some.inj hi ▸ hb.heap.size_le
  · exact hopen.formatting f hf i hi

lemma copied (hb : c.Beyond left h₀) (old : NodeId) (e : Element) {moved : NodeId}
    (hmoved : h₀.size ≤ moved) : (c.copied old e moved).1.Beyond left h₀
      ∧ Onward left h₀ c.heap (c.copied old e moved).1.heap
      ∧ (c.copied old e moved).1.stack = c.stack
      ∧ h₀.size ≤ (c.copied old e moved).2
      ∧ (c.copied old e moved).1.heap.tagName (c.copied old e moved).2 = some e.name := by
  have hi := hb.size_le_make e
  have hmake := hb.make e
  have hon := onward_make hb.heap e
  have hstack : (c.make e).1.stack = c.stack := by rw [make_fst]
  have hname : (c.make e).1.heap.tagName (c.make e).2 = some e.name := by
    rw [make_snd]
    exact tagName_make c e
  rw [Construction.copied]
  generalize c.make e = m at *
  have hput : Onward left h₀ m.1.heap ((m.1.heap.detach moved).appendChild m.2 moved) :=
    (onward_detach hmoved).trans (onward_appendChild hmoved (.inl (.inr hi)))
  refine ⟨(hmake.withHeap hput).setFormatting fun f hf j hj => ?_, hon.trans hput, hstack, hi,
    hput.tagName _ _ hname⟩
  obtain ⟨g, hg, rfl⟩ := List.mem_map.mp hf
  cases g with
  | marker => cases hj
  | element k name attributes =>
      obtain rfl : (if k = old then m.2 else k) = j := Option.some.inj hj
      split
      · exact hi
      · exact hmake.formatting _ hg k rfl

/-- What is carried out of a block, and what is opened around it, has come later. -/
lemma carryOut (block : NodeId) (es : List OpenElement) {c : Construction} (count : ℕ)
    {carry : Carry} (hb : c.Beyond left h₀) (hcarry : h₀.size ≤ carry.moved)
    {r : Construction × Carry × List OpenElement}
    (hr : Construction.carryOut block c count carry es = r) :
    r.1.Beyond left h₀ ∧ Onward left h₀ c.heap r.1.heap ∧ r.1.stack = c.stack
      ∧ h₀.size ≤ r.2.1.moved ∧ ∀ e ∈ r.2.2, h₀.size ≤ e.id ∧ Fits left h₀.size r.1.heap e := by
  induction es generalizing c count carry r with
  | nil =>
      subst hr
      exact ⟨hb, .refl _, rfl, hcarry, by simp [Construction.carryOut]⟩
  | cons e es ih =>
      cases hfind : c.formatting.find? (·.id? = some e.id) with
      | none =>
          rw [Construction.carryOut, hfind] at hr
          exact ih _ hb hcarry hr
      | some f =>
          cases f with
          | marker =>
              rw [Construction.carryOut, hfind] at hr
              exact ih _ hb hcarry hr
          | element i name attributes =>
              by_cases hcount : 3 ≤ count
              · rw [Construction.carryOut, hfind] at hr
                simp only [hcount, if_true] at hr
                have hforgotten : (c.forget e.id).Beyond left h₀ :=
                  hb.keep rfl rfl (List.Sublist.refl _) rfl List.eraseP_sublist.subset id
                exact ih _ hforgotten hcarry hr
              · rw [carryOut_cons block hcount carry es hfind] at hr
                obtain ⟨hcopy, hon, hstack, hi, hname⟩ :=
                  hb.copied e.id { name := name, attributes } hcarry
                generalize c.copied e.id { name := name, attributes } carry.moved = copy at *
                have hnext : h₀.size ≤ ({ moved := copy.2
                                          behind := if carry.moved = block then some copy.2
                                            else carry.behind } : Carry).moved := hi
                obtain ⟨hb', hon', hstack', hmoved, hes⟩ := ih (count + 1) hcopy hnext rfl
                subst hr
                refine ⟨hb', hon.trans hon', hstack'.trans hstack, hmoved, fun f hf => ?_⟩
                rcases List.mem_cons.mp hf with rfl | hf
                · exact ⟨hi, .of_new hi (hon'.tagName _ _ hname)⟩
                · exact hes f hf

/-- A node taken out of its place, with the open elements inside a block told anew. -/
lemma putAside (hb : c.Beyond left h₀) {moved : NodeId} (hmoved : h₀.size ≤ moved)
    {inner outer : List OpenElement}
    (hinner : ∀ e ∈ inner, h₀.size ≤ e.id ∧ Fits left h₀.size c.heap e)
    (houter : outer.Sublist c.stack) :
    Beyond left h₀ { c with heap := c.heap.detach moved, stack := inner ++ outer } :=
  (hb.withHeap (onward_detach hmoved)).setStack inner
    (fun e he => (hinner e he).imp id fun hfits => hfits.onward (onward_detach hmoved)) houter

/-- A node put into the innermost of the outer elements. -/
lemma putOut (hb : c.Beyond left h₀) {moved : NodeId} (hmoved : h₀.size ≤ moved)
    {outer : List OpenElement} (houter : outer ⊆ c.stack) :
    Onward left h₀ c.heap
      (putNode c.heap moved ((outer.head?.map c.placeIn).getD (.inside c.root))) := by
  refine onward_putNode hb.heap hmoved ?_
  cases outer with
  | nil => exact hb.open_root
  | cons e outer => exact hb.placeIn (houter List.mem_cons_self)

/-- The children of a new block moved into a copy of the formatting element, which takes their
place. -/
lemma wrapBlock (hb : c.Beyond left h₀) {name : String} {attributes : List Attribute}
    {m : Construction × NodeId} (hm : c.make { name := name, attributes } = m) (old : NodeId)
    (behind : Option NodeId) {inner between outer : List OpenElement} {block : OpenElement}
    (hblock : h₀.size ≤ block.id)
    (hinner : ∀ e ∈ inner ++ block :: between, h₀.size ≤ e.id ∧ Fits left h₀.size c.heap e)
    (houter : outer.Sublist c.stack) :
    Beyond left h₀ { m.1 with
      heap := (m.1.heap.moveChildren block.id m.2).appendChild block.id m.2
      formatting := Construction.moveEntry old (.element m.2 name attributes) behind m.1.formatting
      stack := inner ++ { id := m.2, name } :: block :: between ++ outer } := by
  have hi : h₀.size ≤ m.2 := hm ▸ hb.size_le_make _
  have hmake : m.1.Beyond left h₀ := hm ▸ hb.make _
  have hon : Onward left h₀ c.heap m.1.heap := hm ▸ onward_make hb.heap _
  have hstack : m.1.stack = c.stack := by rw [← hm, make_fst]
  have hname : m.1.heap.tagName m.2 = some name := by
    rw [← hm, make_snd]
    exact tagName_make c _
  have hmoved : Onward left h₀ m.1.heap
      ((m.1.heap.moveChildren block.id m.2).appendChild block.id m.2) :=
    (onward_moveChildren hblock hi).trans (onward_appendChild hi (.inl (.inr hblock)))
  have hentries : ∀ f ∈ Construction.moveEntry old (.element m.2 name attributes) behind
      m.1.formatting, ∀ i ∈ f.id?, h₀.size ≤ i := by
    intro f hf
    rcases Construction.mem_moveEntry hf with rfl | hf
    · exact fun i hi' => Option.some.inj hi' ▸ hi
    · exact hmake.formatting f hf
  refine ((hmake.withHeap hmoved).setFormatting hentries).setStack
    (inner ++ { id := m.2, name } :: block :: between) (fun e he => ?_) (hstack ▸ houter)
  rcases List.mem_append.mp he with he | he
  · exact (hinner e (by simp [he])).imp id fun hfits => hfits.onward (hon.trans hmoved)
  · rcases List.mem_cons.mp he with rfl | he
    · exact ⟨hi, .of_new hi (hmoved.tagName _ _ hname)⟩
    · exact (hinner e (List.mem_append_right _ he)).imp id fun hfits =>
        hfits.onward (hon.trans hmoved)

/-- What is inside an open element that has come later has come later. -/
lemma inside (hb : c.Beyond left h₀) {format : OpenElement} (hformat : h₀.size ≤ format.id)
    {es outer : List OpenElement} (hstack : c.stack = es ++ format :: outer) :
    ∀ e ∈ es, h₀.size ≤ e.id ∧ Fits left h₀.size c.heap e := by
  intro e he
  have horder := hb.order
  rw [hstack] at horder
  exact ⟨(List.pairwise_append.mp horder).2.2 e he format List.mem_cons_self hformat,
    hb.stack e (hstack ▸ List.mem_append_left _ he)⟩

/-- **A block moved out** of a formatting element, which has come later, as has all inside it. -/
lemma moveBlock (hb : c.Beyond left h₀) {format : OpenElement} {name : String}
    {attributes : List Attribute} {inner : List OpenElement} {block : OpenElement}
    {between outer : List OpenElement} (hentry : .element format.id name attributes ∈ c.formatting)
    (hstack : c.stack = inner ++ block :: (between ++ format :: outer)) :
    (c.moveBlock format name attributes inner block between outer).Beyond left h₀ := by
  have hinside : ∀ e ∈ inner ++ block :: between, h₀.size ≤ e.id ∧ Fits left h₀.size c.heap e :=
    hb.inside (hb.formatting _ hentry format.id rfl) (by
      rw [hstack, List.append_assoc, List.cons_append])
  have hblock : h₀.size ≤ block.id := (hinside block (by simp)).1
  obtain ⟨r, hr⟩ : ∃ r, Construction.carryOut block.id c 0 { moved := block.id } between = r :=
    ⟨_, rfl⟩
  obtain ⟨h₁, hon₁, hstack₁, hmoved, hes⟩ := Beyond.carryOut block.id between 0 hb hblock hr
  have hnew : ∀ e ∈ inner ++ block :: r.2.2, h₀.size ≤ e.id ∧ Fits left h₀.size r.1.heap e := by
    have hold : ∀ e ∈ inner ++ block :: between, h₀.size ≤ e.id ∧ Fits left h₀.size r.1.heap e :=
      fun e he => (hinside e he).imp id fun hfits => hfits.onward hon₁
    intro e he
    rcases List.mem_append.mp he with he | he
    · exact hold e (by simp [he])
    · rcases List.mem_cons.mp he with rfl | he
      · exact hold _ (by simp)
      · exact hes e he
  have houter : (format :: outer).Sublist r.1.stack := by
    rw [hstack₁, hstack]
    exact (List.sublist_append_right _ _).trans
      ((List.sublist_cons_self _ _).trans (List.sublist_append_right _ _))
  obtain ⟨d, hd⟩ : ∃ d : Construction, d = { r.1 with
    heap := r.1.heap.detach r.2.1.moved
    stack := inner ++ block :: r.2.2 ++ format :: outer } := ⟨_, rfl⟩
  obtain ⟨d', hd'⟩ : ∃ d' : Construction, d' = { d with
    heap := putNode d.heap r.2.1.moved ((outer.head?.map d.placeIn).getD (.inside d.root)) } :=
      ⟨_, rfl⟩
  obtain ⟨m, hm⟩ : ∃ m, d'.make { name := name, attributes } = m := ⟨_, rfl⟩
  have h₂ : d.Beyond left h₀ := hd ▸ h₁.putAside hmoved hnew houter
  have hinner : outer.Sublist d.stack := by
    rw [hd]
    exact (List.sublist_cons_self _ _).trans (List.sublist_append_right _ _)
  have hon₂ : Onward left h₀ r.1.heap d'.heap := by
    rw [hd']
    refine Onward.trans ?_ (h₂.putOut hmoved hinner.subset)
    rw [hd]
    exact onward_detach hmoved
  have h₃ : d'.Beyond left h₀ := hd' ▸ h₂.withHeap (h₂.putOut hmoved hinner.subset)
  have hstack₃ : outer.Sublist d'.stack := by
    rw [hd']
    exact hinner
  rw [moveBlock_eq hr hd hd' hm]
  exact h₃.wrapBlock hm format.id r.2.1.behind hblock
    (fun e he => (hnew e he).imp id fun hfits => hfits.onward hon₂) hstack₃

/-! ### All moves -/

variable {N : Naming}

/-- **Every move goes on behind the nodes that stood.** -/
theorem of_move {d : Construction} (hm : Move N c d) (hb : c.Beyond left h₀) :
    d.Beyond left h₀ := by
  cases hm with
  | forget hheap hroot hstack hhead hformatting hframeset =>
      exact hb.keep hheap hroot hstack hhead hformatting hframeset
  | mark =>
      refine hb.setFormatting fun f hf i hi => ?_
      rcases List.mem_cons.mp hf with rfl | hf
      · cases hi
      · exact hb.formatting f hf i hi
  | insert he => exact hb.insert _
  | insertOpen he hv => exact hb.insertOpen _
  | addText s => exact hb.addText s
  | addComment s => exact hb.addComment s
  | addBelow hp hn => exact hb.addBelow hp _
  | addMissing i has => exact hb.addMissing i _
  | openHtml hn => exact hb.openHtml _
  | openHead ht hname => exact hb.openHead hname
  | addToHead hhead ht hmem => exact hb.addToHead hhead hmem
  | openInHead hhead ht hv hmem => exact hb.openInHead hhead hmem
  | dropBody he hok => exact hb.dropBody he hok
  | reopenFormatting => exact hb.reopenFormatting
  | openFormatting ht hv => exact hb.openFormatting _
  | moveBlock hentry hstack => exact hb.moveBlock hentry hstack

/-- **What has been built lasts**, whatever moves follow. -/
theorem of_reaches {d : Construction} (hd : c.Reaches N d) (hb : c.Beyond left h₀) :
    d.Beyond left h₀ :=
  hd.preserves (fun hm hb => of_move hm hb) hb

end Beyond

/-- Names of any kind. -/
def anything : Naming where
  tag _ := True
  attributes _ := True
  element _ := True
  doctype _ := True

lemma anything_closed : anything.Closed where
  implied _ _ := trivial
  bare := trivial
  html _ _ _ _ := trivial
  svg _ _ _ _ := trivial
  mathml _ _ _ _ := trivial
  missing _ _ _ _ := trivial

lemma anything_readable : anything.Readable where
  letter _ _ := trivial
  push _ _ _ _ _ _ := trivial
  bare := trivial
  append _ _ _ _ _ _ := trivial
  undeclared := trivial
  pushDoctype _ _ _ _ := trivial

/-- **What has been built lasts** while a text is taken in to its end. -/
theorem Beyond.build (hb : c.Beyond left h₀) (limit : Option ℕ) (s : List Char) :
    (c.build (.markup limit) s).Beyond left h₀ := by
  have hmode : LexMode.Named anything (.markup limit) := trivial
  exact of_reaches ((Reaches.refl c).build anything_closed anything_readable hmode s) hb

end Construction

end RichText
