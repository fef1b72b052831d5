import RichText.Proofs.Construction.Moves

/-!
The moves of the construction keep the rules of a parsed heap.

The open elements, the head and the root may have children; the formatting elements that are to
be opened again have names that are allowed, of elements that may have children
(`Construction.Sound`).

* `Sound.keep`: moves that leave the nodes alone;
* `Sound.insert`, `Sound.insertOpen`: elements put in, and opened if they may have children;
* `Sound.addText`, `Sound.addComment`, `Sound.addMissing`;
* `Sound.reopenFormatting`, `Sound.moveBlock`: formatting elements;
* `Sound.of_move`, `Sound.of_reaches`: **every move keeps the rules**, and so does what is put
  together from moves.
-/

namespace RichText

/-- A formatting element that is allowed and may have children. -/
def FormattingEntry.Sound (N : Naming) : FormattingEntry → Prop
  | .marker => True
  | .element _ name attributes => N.element { name, attributes } ∧ name ∉ voidNames

/-- **The rules of a parsed heap**, with what the construction goes on with. -/
structure Construction.Sound (N : Naming) (c : Construction) : Prop where
  heap : c.heap.Sound N
  root : c.heap.CanHold c.root
  stack : ∀ e ∈ c.stack, c.heap.CanHold e.id
  head : ∀ e ∈ c.head, c.heap.CanHold e.id
  formatting : ∀ f ∈ c.formatting, f.Sound N

namespace Construction

variable {N : Naming} {c : Construction}

/-! ### Moves that leave the nodes alone -/

/-- What only forgets open elements and formatting elements keeps the rules. -/
lemma Sound.keep {d : Construction} (hs : c.Sound N) (hheap : d.heap = c.heap)
    (hroot : d.root = c.root) (hstack : d.stack ⊆ c.stack) (hhead : d.head = c.head)
    (hformatting : d.formatting ⊆ c.formatting) : d.Sound N where
  heap := hheap ▸ hs.heap
  root := by
    rw [hheap, hroot]
    exact hs.root
  stack e he := by
    rw [hheap]
    exact hs.stack e (hstack he)
  head e he := by
    rw [hheap]
    exact hs.head e (hhead ▸ he)
  formatting f hf := hs.formatting f (hformatting hf)

/-- What only forgets open elements keeps the rules. -/
lemma Sound.withStack (hs : c.Sound N) {es : List OpenElement} (hes : es ⊆ c.stack) :
    Sound N { c with stack := es } :=
  hs.keep rfl rfl hes rfl (List.Subset.refl _)

/-- What only forgets formatting elements keeps the rules. -/
lemma Sound.withFormatting (hs : c.Sound N) {fs : List FormattingEntry} (hfs : fs ⊆ c.formatting) :
    Sound N { c with formatting := fs } :=
  hs.keep rfl rfl (List.Subset.refl _) rfl hfs

lemma Sound.mark (hs : c.Sound N) : c.mark.Sound N where
  heap := hs.heap
  root := hs.root
  stack := hs.stack
  head := hs.head
  formatting f hf := by
    rcases List.mem_cons.mp hf with rfl | hf
    · trivial
    · exact hs.formatting f hf

lemma Sound.forget (hs : c.Sound N) (i : NodeId) : (c.forget i).Sound N :=
  hs.withFormatting (List.eraseP_sublist).subset

/-! ### Nodes put in -/

/-- Changes of the heap that leave the nodes that may have children as they are. -/
lemma Sound.withHeap (hs : c.Sound N) {h : Heap} (hh : h.Sound N) (hk : c.heap.Keeps h) :
    Sound N { c with heap := h } where
  heap := hh
  root := hk _ hs.root
  stack e he := hk _ (hs.stack e he)
  head e he := hk _ (hs.head e he)
  formatting := hs.formatting

/-- Opens an element that may have children. -/
lemma Sound.push (hs : c.Sound N) {e : OpenElement} (he : c.heap.CanHold e.id) :
    (c.push e).Sound N where
  heap := hs.heap
  root := hs.root
  stack f hf := by
    rcases List.mem_cons.mp hf with rfl | hf
    · exact he
    · exact hs.stack f hf
  head := hs.head
  formatting := hs.formatting

lemma Sound.holder (hs : c.Sound N) {e : OpenElement} (he : e ∈ c.stack) :
    c.heap.CanHold (c.holder e) := by
  unfold Construction.holder
  split
  · cases hc : (c.heap.node e.id).contents with
    | none => exact hs.stack e he
    | some j => exact hs.heap.contents _ j hc
  · exact hs.stack e he

lemma Sound.fosterPlace (hs : c.Sound N) : ∀ es : List OpenElement, es ⊆ c.stack →
    (c.fosterPlace es).Sound c.heap
  | [], _ => hs.root
  | [e], hes => hs.holder (hes List.mem_cons_self)
  | e :: f :: es, hes => by
      have hrec := hs.fosterPlace (f :: es) (List.subset_of_cons_subset hes)
      unfold Construction.fosterPlace
      split
      · exact hs.holder (hes List.mem_cons_self)
      · split
        · exact hs.stack f (hes (List.mem_cons_of_mem _ List.mem_cons_self))
        · exact hrec

lemma Sound.placeIn (hs : c.Sound N) {e : OpenElement} (he : e ∈ c.stack) :
    (c.placeIn e).Sound c.heap := by
  unfold Construction.placeIn
  split
  · exact hs.fosterPlace _ (List.Subset.refl _)
  · exact hs.holder he

lemma Sound.place (hs : c.Sound N) : c.place.Sound c.heap := by
  unfold Construction.place
  split
  · exact hs.root
  · next e es hes => exact hs.placeIn (by rw [hes]; exact List.mem_cons_self)

/-- A node made for an element that may have children may have some. -/
def Opened (c : Construction) (e : Element) (i : ℕ) : Prop :=
  e.isVoid = false → c.heap.CanHold i

lemma keeps_make (c : Construction) (e : Element) : c.heap.Keeps (c.make e).1.heap := by
  unfold make
  dsimp only
  split
  · exact (Heap.keeps_push _ _).trans (Heap.keeps_push _ _)
  · exact Heap.keeps_push _ _

lemma opened_make (c : Construction) (e : Element) : (c.make e).1.Opened e (c.make e).2 := by
  intro he
  unfold make
  dsimp only
  split
  · refine Heap.keeps_push _ _ _ ⟨by simp, ?_⟩
    rw [Heap.content_push, if_pos rfl]
    exact he
  · refine ⟨by simp, ?_⟩
    rw [Heap.content_push, if_pos rfl]
    exact he

lemma Sound.make (hs : c.Sound N) {e : Element} (he : N.element e) :
    (c.make e).1.Sound N := by
  have hk := keeps_make c e
  unfold Construction.make at hk ⊢
  dsimp only at hk ⊢
  split at hk
  · next hcond =>
      rw [if_pos hcond]
      exact hs.withHeap (hs.heap.pushHolder he) hk
  · next hcond =>
      rw [if_neg hcond]
      exact hs.withHeap (hs.heap.push he rfl (by simp)) hk

lemma Sound.insert (hs : c.Sound N) {e : Element} (he : N.element e) :
    (c.insert e).1.Sound N :=
  (hs.make he).withHeap (sound_putNode (hs.make he).heap _ (hs.make he).place) (keeps_putNode _ _ _)

lemma opened_insert (c : Construction) (e : Element) : (c.insert e).1.Opened e (c.insert e).2 :=
  fun he => keeps_putNode _ _ _ _ (opened_make c e he)

/-- Opens a new element, which may have children. -/
lemma Sound.insertOpen (hs : c.Sound N) {e : Element} (he : N.element e)
    (hv : e.isVoid = false) : (c.insertOpen e).Sound N :=
  (hs.insert he).push (opened_insert c e hv)

lemma Sound.openTag (hs : c.Sound N) {t : Tag} (ht : N.element (elementOf t))
    (hv : t.name ∉ voidNames) : (c.openTag t).Sound N :=
  hs.insertOpen ht (isVoid_eq_false hv)

lemma Sound.addTag (hs : c.Sound N) {t : Tag} (ht : N.element (elementOf t)) :
    (c.addTag t).Sound N :=
  hs.insert ht

lemma Sound.addText (hs : c.Sound N) (s : List Char) : (c.addText s).Sound N :=
  hs.withHeap (sound_putText hs.heap _ hs.place) (keeps_putText _ _ _)

lemma Sound.addComment (hs : c.Sound N) (s : String) : (c.addComment s).Sound N := by
  have hpush : (c.heap.push { content := .comment s }).Sound N :=
    hs.heap.push trivial rfl (by simp)
  exact hs.withHeap (sound_putNode hpush _ (hs.place.keeps (Heap.keeps_push _ _)))
    ((Heap.keeps_push _ _).trans (keeps_putNode _ _ _))

/-- Nodes without children put below a node that may have some. -/
lemma Sound.pushBelow (hs : c.Sound N) {p : ℕ} (hp : c.heap.CanHold p) {content : Content}
    (hn : content.Named N) :
    Sound N { c with heap := (c.heap.push { content }).appendChild p c.heap.size } :=
  hs.withHeap ((hs.heap.push hn rfl (by simp)).appendChild (Heap.keeps_push _ _ _ hp) _)
    ((Heap.keeps_push _ _).trans fun _ hi => Heap.canHold_appendChild.mpr hi)

lemma Sound.addMissing (hs : c.Sound N) (i : NodeId) {as : List Attribute}
    (has : ∀ e, N.element e → N.element (e.addMissing as)) : (c.addMissing i as).Sound N := by
  unfold Construction.addMissing
  split
  · next e he =>
      have hcontent : c.heap.content i = .element e := by
        unfold Heap.element? at he
        split at he
        · next hc => rw [hc, Option.some.inj he]
        · simp at he
      have hnamed : (Content.element (e.addMissing as)).Named N := by
        have := hs.heap.named i
        rw [hcontent] at this
        exact has e this
      have hholds : (c.heap.content i).Holds → (Content.element (e.addMissing as)).Holds := by
        rw [hcontent]
        exact id
      exact hs.withHeap (hs.heap.update hnamed hholds) (Heap.keeps_update hholds)
  · exact hs

lemma Sound.openHtml (hs : c.Sound N) {as : List Attribute}
    (hn : N.element { name := "html", attributes := as }) : (c.openHtml as).Sound N := by
  have hm := hs.make (e := { name := "html", attributes := as }) hn
  have ho := opened_make c { name := "html", attributes := as } rfl
  exact (hm.withHeap (hm.heap.appendChild hm.root _)
    fun _ hi => Heap.canHold_appendChild.mpr hi).push (Heap.canHold_appendChild.mpr ho)

/-! ### Formatting elements -/

/-- Other formatting elements, which are allowed. -/
lemma Sound.setFormatting (hs : c.Sound N) {fs : List FormattingEntry}
    (hfs : ∀ f ∈ fs, f.Sound N) : Sound N { c with formatting := fs } where
  heap := hs.heap
  root := hs.root
  stack := hs.stack
  head := hs.head
  formatting := hfs

/-- Other open elements, which may have children. -/
lemma Sound.setStack (hs : c.Sound N) {es : List OpenElement}
    (hes : ∀ e ∈ es, c.heap.CanHold e.id) : Sound N { c with stack := es } where
  heap := hs.heap
  root := hs.root
  stack := hes
  head := hs.head
  formatting := hs.formatting

lemma Sound.reopen : ∀ {c : Construction} (fs kept : List FormattingEntry), c.Sound N →
    (∀ f ∈ kept, f.Sound N) → (∀ f ∈ fs, f.Sound N) → (c.reopen kept fs).Sound N
  | _, [], _, hs, hkept, _ => hs.setFormatting hkept
  | _, .marker :: fs, kept, hs, hkept, hfs =>
      Sound.reopen fs kept hs hkept fun f hf => hfs f (List.mem_cons_of_mem _ hf)
  | c, .element _ name attributes :: fs, kept, hs, hkept, hfs => by
      obtain ⟨hn, hv⟩ : N.element { name, attributes } ∧ name ∉ voidNames :=
        hfs _ List.mem_cons_self
      refine Sound.reopen fs _ ((hs.insert hn).push (opened_insert c _ (isVoid_eq_false hv)))
        (fun f hf => ?_) fun f hf => hfs f (List.mem_cons_of_mem _ hf)
      rcases List.mem_cons.mp hf with rfl | hf
      · exact ⟨hn, hv⟩
      · exact hkept f hf

lemma Sound.reopenFormatting (hs : c.Sound N) : c.reopenFormatting.Sound N := by
  unfold Construction.reopenFormatting
  dsimp only
  split
  · exact hs
  · refine Sound.reopen _ _ hs (fun f hf => ?_) fun f hf => ?_
    · exact hs.formatting f ((List.dropWhile_sublist _).subset hf)
    · exact hs.formatting f ((List.takeWhile_sublist _).subset (List.mem_reverse.mp hf))

lemma dropThird_subset (t : Tag) : ∀ (seen : ℕ) (fs : List FormattingEntry),
    dropThird t seen fs ⊆ fs
  | _, [] => List.Subset.refl _
  | seen, f :: fs => by
      rw [dropThird]
      split
      · exact List.Subset.refl _
      · split
        · split
          · exact List.subset_cons_self _ _
          · exact List.cons_subset_cons _ (dropThird_subset t (seen + 1) fs)
        · exact List.cons_subset_cons _ (dropThird_subset t seen fs)

lemma Sound.openFormatting (hs : c.Sound N) {t : Tag} (ht : N.element (elementOf t))
    (hv : t.name ∉ voidNames) : (c.openFormatting t).Sound N := by
  have hopen := (hs.withFormatting (dropThird_subset t 0 c.formatting)).openTag ht hv
  refine hopen.setFormatting fun f hf => ?_
  rcases List.mem_cons.mp hf with rfl | hf
  · exact ⟨ht, hv⟩
  · exact hopen.formatting f hf

lemma sound_renamed {f : FormattingEntry} (hf : f.Sound N) (old new : NodeId) :
    (f.renamed old new).Sound N := by
  cases f with
  | marker => trivial
  | element i name attributes => exact hf

/-- A copy of a formatting element that takes in what is carried. -/
def copied (c : Construction) (old : NodeId) (e : Element) (moved : NodeId) :
    Construction × NodeId :=
  let m := c.make e
  ({ m.1 with
      formatting := m.1.formatting.map (FormattingEntry.renamed old m.2)
      heap := (m.1.heap.detach moved).appendChild m.2 moved }, m.2)

lemma keeps_copied (c : Construction) (old : NodeId) (e : Element) (moved : NodeId) :
    c.heap.Keeps (c.copied old e moved).1.heap := by
  intro i hi
  dsimp only [copied]
  exact Heap.canHold_appendChild.mpr (Heap.canHold_detach.mpr (keeps_make c e i hi))

lemma opened_copied (c : Construction) (old : NodeId) (e : Element) (moved : NodeId) :
    (c.copied old e moved).1.Opened e (c.copied old e moved).2 := by
  intro he
  dsimp only [copied]
  exact Heap.canHold_appendChild.mpr (Heap.canHold_detach.mpr (opened_make c e he))

lemma Sound.copied (hs : c.Sound N) (old : NodeId) {e : Element} (he : N.element e)
    (hv : e.isVoid = false) (moved : NodeId) : (c.copied old e moved).1.Sound N := by
  have hm := hs.make he
  refine (hm.withHeap ((hm.heap.detach moved).appendChild
    (Heap.canHold_detach.mpr (opened_make c e hv)) moved)
    fun i hi => Heap.canHold_appendChild.mpr (Heap.canHold_detach.mpr hi)).setFormatting ?_
  intro f hf
  obtain ⟨g, hg, rfl⟩ := List.mem_map.mp hf
  exact sound_renamed (hm.formatting g hg) _ _

/-- One of the first formatting elements on the way out is copied. -/
lemma carryOut_cons (block : NodeId) {count : ℕ} (hcount : ¬ 3 ≤ count) (carry : Carry)
    {e : OpenElement} (es : List OpenElement) {i : NodeId} {name : String}
    {attributes : List Attribute}
    (hfind : c.formatting.find? (·.id? = some e.id) = some (.element i name attributes)) :
    carryOut block c count carry (e :: es)
      = let copy := c.copied e.id { name := name, attributes } carry.moved
        let r := carryOut block copy.1 (count + 1)
          { moved := copy.2, behind := if carry.moved = block then some copy.2 else carry.behind } es
        (r.1, r.2.1, { id := copy.2, name } :: r.2.2) := by
  rw [carryOut, hfind]
  simp only [hcount, if_false, copied]

/-- What is carried out of a block is put below copies of formatting elements. -/
lemma Sound.carryOut (block : NodeId) (es : List OpenElement) {c : Construction} (count : ℕ)
    (carry : Carry) (hs : c.Sound N) (hes : ∀ e ∈ es, c.heap.CanHold e.id) :
    (Construction.carryOut block c count carry es).1.Sound N
      ∧ c.heap.Keeps (Construction.carryOut block c count carry es).1.heap
      ∧ ∀ e ∈ (Construction.carryOut block c count carry es).2.2,
        (Construction.carryOut block c count carry es).1.heap.CanHold e.id := by
  induction es generalizing c count carry with
  | nil => exact ⟨hs, Heap.Keeps.refl _, by simp [Construction.carryOut]⟩
  | cons e es ih =>
      have hes' : ∀ f ∈ es, c.heap.CanHold f.id := fun f hf => hes f (List.mem_cons_of_mem _ hf)
      cases hfind : c.formatting.find? (·.id? = some e.id) with
      | none =>
          rw [Construction.carryOut, hfind]
          exact ih _ _ hs hes'
      | some f =>
          cases f with
          | marker =>
              rw [Construction.carryOut, hfind]
              exact ih _ _ hs hes'
          | element i name attributes =>
              obtain ⟨hn, hv⟩ : N.element { name, attributes } ∧ name ∉ voidNames :=
                hs.formatting _ (List.mem_of_find?_eq_some hfind)
              by_cases hcount : 3 ≤ count
              · rw [Construction.carryOut, hfind]
                simp only [hcount, if_true]
                exact ih _ _ (hs.forget _) hes'
              · rw [carryOut_cons block hcount carry es hfind]
                have hcopy := hs.copied e.id (e := { name := name, attributes }) hn
                  (isVoid_eq_false hv) carry.moved
                have hkeeps := keeps_copied c e.id { name := name, attributes } carry.moved
                have hopened := opened_copied c e.id { name := name, attributes } carry.moved
                  (isVoid_eq_false hv)
                generalize c.copied e.id { name := name, attributes } carry.moved = copy at *
                obtain ⟨hs', hk', hes''⟩ := ih (count + 1)
                  { moved := copy.2
                    behind := if carry.moved = block then some copy.2 else carry.behind }
                  hcopy fun f hf => hkeeps _ (hes' f hf)
                refine ⟨hs', hkeeps.trans hk', fun f hf => ?_⟩
                rcases List.mem_cons.mp hf with rfl | hf
                · exact hk' _ hopened
                · exact hes'' f hf

/-- An entry moved leaves the other entries of the list. -/
lemma mem_moveEntry {old : NodeId} {new f : FormattingEntry} {behind : Option NodeId}
    {fs : List FormattingEntry} (hf : f ∈ moveEntry old new behind fs) : f = new ∨ f ∈ fs := by
  cases behind with
  | none =>
      obtain ⟨g, hg, rfl⟩ := List.mem_map.mp hf
      split
      · exact .inl rfl
      · exact .inr hg
  | some behind =>
      obtain ⟨g, hg, hfg⟩ := List.mem_flatMap.mp (List.eraseP_sublist.subset hf)
      split at hfg
      · rcases List.mem_cons.mp hfg with rfl | hfg
        · exact .inl rfl
        · exact .inr (List.mem_singleton.mp hfg ▸ hg)
      · exact .inr (List.mem_singleton.mp hfg ▸ hg)

/-- A node taken out of its place and put into the innermost of the outer elements. -/
lemma Sound.putOut (hs : c.Sound N) (moved : NodeId) {es outer : List OpenElement}
    (hes : ∀ e ∈ es, c.heap.CanHold e.id) (houter : outer ⊆ es) {d : Construction}
    (hd : d = { c with heap := c.heap.detach moved, stack := es }) :
    Sound N { d with
      heap := putNode d.heap moved ((outer.head?.map d.placeIn).getD (.inside d.root)) } := by
  have hs' : d.Sound N := by
    rw [hd]
    exact (hs.withHeap (hs.heap.detach moved) fun i hi => Heap.canHold_detach.mpr hi).setStack
      fun e he => Heap.canHold_detach.mpr (hes e he)
  refine hs'.withHeap (sound_putNode hs'.heap moved ?_) (keeps_putNode _ _ _)
  cases outer with
  | nil => exact hs'.root
  | cons e outer => exact hs'.placeIn (by rw [hd]; exact houter List.mem_cons_self)

/-- The children of a node moved into a new one, which takes their place. -/
lemma Sound.wrapChildren (hs : c.Sound N) {e : Element} (he : N.element e)
    (hv : e.isVoid = false) {block : ℕ} (hblock : c.heap.CanHold block) {m : Construction × NodeId}
    (hm : c.make e = m) {d : Construction}
    (hd : d = { m.1 with
      heap := (m.1.heap.moveChildren block m.2).appendChild block m.2 }) :
    d.Sound N ∧ c.heap.Keeps d.heap ∧ d.heap.CanHold m.2 := by
  have hmake : m.1.Sound N := hm ▸ hs.make he
  have hkeeps : c.heap.Keeps m.1.heap := hm ▸ keeps_make c e
  have hopened : m.1.heap.CanHold m.2 := hm ▸ opened_make c e hv
  have hmoved : m.1.heap.Keeps ((m.1.heap.moveChildren block m.2).appendChild block m.2) :=
    fun i hi => Heap.canHold_appendChild.mpr (Heap.canHold_moveChildren.mpr hi)
  rw [hd]
  exact ⟨hmake.withHeap ((hmake.heap.moveChildren hopened block).appendChild
    (Heap.canHold_moveChildren.mpr (hkeeps _ hblock)) m.2) hmoved, hkeeps.trans hmoved,
    hmoved _ hopened⟩

/-- The stages of moving a block out of a formatting element. -/
lemma moveBlock_eq {format : OpenElement} {name : String} {attributes : List Attribute}
    {inner : List OpenElement} {block : OpenElement} {between outer : List OpenElement}
    {r : Construction × Carry × List OpenElement} {d d' : Construction} {m : Construction × NodeId}
    (hr : carryOut block.id c 0 { moved := block.id } between = r)
    (hd : d = { r.1 with
      heap := r.1.heap.detach r.2.1.moved
      stack := inner ++ block :: r.2.2 ++ format :: outer })
    (hd' : d' = { d with
      heap := putNode d.heap r.2.1.moved ((outer.head?.map d.placeIn).getD (.inside d.root)) })
    (hm : d'.make { name := name, attributes } = m) :
    c.moveBlock format name attributes inner block between outer
      = { m.1 with
          heap := (m.1.heap.moveChildren block.id m.2).appendChild block.id m.2
          formatting := moveEntry format.id (.element m.2 name attributes) r.2.1.behind
            m.1.formatting
          stack := inner ++ { id := m.2, name } :: block :: r.2.2 ++ outer } := by
  subst hr hd hd' hm
  rfl

lemma Sound.moveBlock (hs : c.Sound N) (format : OpenElement) {name : String}
    {attributes : List Attribute} (hn : N.element { name, attributes }) (hv : name ∉ voidNames)
    {inner : List OpenElement} {block : OpenElement} {between outer : List OpenElement}
    (hinner : ∀ e ∈ inner, c.heap.CanHold e.id) (hblock : c.heap.CanHold block.id)
    (hbetween : ∀ e ∈ between, c.heap.CanHold e.id) (hformat : c.heap.CanHold format.id)
    (houter : ∀ e ∈ outer, c.heap.CanHold e.id) :
    (c.moveBlock format name attributes inner block between outer).Sound N := by
  obtain ⟨h₁, hk₁, hb₁⟩ := Sound.carryOut block.id between 0 { moved := block.id } hs hbetween
  obtain ⟨r, hr⟩ : ∃ r, Construction.carryOut block.id c 0 { moved := block.id } between = r :=
    ⟨_, rfl⟩
  rw [hr] at h₁ hk₁ hb₁
  have hes : ∀ e ∈ inner ++ block :: r.2.2 ++ format :: outer, r.1.heap.CanHold e.id := by
    intro e he
    simp only [List.append_assoc, List.cons_append, List.mem_append, List.mem_cons] at he
    rcases he with he | rfl | he | rfl | he
    · exact hk₁ _ (hinner e he)
    · exact hk₁ _ hblock
    · exact hb₁ e he
    · exact hk₁ _ hformat
    · exact hk₁ _ (houter e he)
  obtain ⟨d, hd⟩ : ∃ d : Construction, d = { r.1 with
    heap := r.1.heap.detach r.2.1.moved
    stack := inner ++ block :: r.2.2 ++ format :: outer } := ⟨_, rfl⟩
  obtain ⟨d', hd'⟩ : ∃ d' : Construction, d' = { d with
    heap := putNode d.heap r.2.1.moved ((outer.head?.map d.placeIn).getD (.inside d.root)) } :=
      ⟨_, rfl⟩
  obtain ⟨m, hm⟩ : ∃ m, d'.make { name := name, attributes } = m := ⟨_, rfl⟩
  have h₂ : d'.Sound N := by
    rw [hd']
    exact h₁.putOut r.2.1.moved hes (fun e he => by simp [he]) hd
  have hes' : ∀ e ∈ inner ++ block :: r.2.2 ++ format :: outer, d'.heap.CanHold e.id := by
    intro e he
    refine h₂.stack e ?_
    rw [hd', hd]
    exact he
  obtain ⟨h₃, hk₃, ho⟩ := h₂.wrapChildren (e := { name := name, attributes }) hn
    (isVoid_eq_false hv) (hes' block (by simp)) hm rfl
  rw [moveBlock_eq hr hd hd' hm]
  have hcopy : FormattingEntry.Sound N (.element m.2 name attributes) := ⟨hn, hv⟩
  have hentries : ∀ f ∈ moveEntry format.id (.element m.2 name attributes) r.2.1.behind
      m.1.formatting, f.Sound N := by
    intro f hf
    rcases mem_moveEntry hf with rfl | hf
    · exact hcopy
    · exact h₃.formatting f hf
  refine (h₃.setFormatting hentries).setStack fun e he => ?_
  simp only [List.append_assoc, List.cons_append, List.mem_append, List.mem_cons] at he
  rcases he with he | rfl | rfl | he | he
  · exact hk₃ _ (hes' e (by simp [he]))
  · exact ho
  · exact hk₃ _ (hes' e (by simp))
  · exact hk₃ _ (hes' e (by simp [he]))
  · exact hk₃ _ (hes' e (by simp [he]))

/-! ### All moves -/

/-- The head of the document is that of an open element. -/
lemma Sound.openHead (hs : c.Sound N) {t : Tag} (ht : N.element (elementOf t))
    (hv : t.name ∉ voidNames) : (c.openHead t).Sound N where
  heap := (hs.openTag ht hv).heap
  root := (hs.openTag ht hv).root
  stack := (hs.openTag ht hv).stack
  head e he := (hs.openTag ht hv).stack e (List.mem_of_head? he)
  formatting := (hs.openTag ht hv).formatting

/-- **Every move keeps the rules.** -/
theorem Sound.of_move {d : Construction} (hm : Move N c d) (hs : c.Sound N) : d.Sound N := by
  cases hm with
  | forget hheap hroot hstack hhead hformatting _ =>
      exact hs.keep hheap hroot hstack.subset hhead hformatting
  | mark => exact hs.mark
  | insert he => exact hs.insert he
  | insertOpen he hv => exact hs.insertOpen he hv
  | addText s => exact hs.addText s
  | addComment s => exact hs.addComment s
  | addBelow hp hn =>
      refine hs.pushBelow ?_ hn
      obtain rfl | ⟨e, he, rfl⟩ := hp
      · exact hs.root
      · exact hs.stack e he
  | addMissing i has => exact hs.addMissing i has
  | openHtml hn => exact hs.openHtml hn
  | openHead ht hname => exact hs.openHead ht (hname ▸ by decide)
  | addToHead hhead ht _ =>
      exact ((hs.push (hs.head _ hhead)).addTag ht).withStack List.eraseP_sublist.subset
  | openInHead hhead ht hv _ =>
      exact ((hs.push (hs.head _ hhead)).openTag ht hv).withStack List.eraseP_sublist.subset
  | dropBody _ _ =>
      exact (hs.withHeap (hs.heap.detach _) fun i hi => Heap.canHold_detach.mpr hi).withStack
        fun f hf => List.mem_of_getLast? (Option.mem_toList.mp hf)
  | reopenFormatting => exact hs.reopenFormatting
  | openFormatting ht hv => exact hs.openFormatting ht hv
  | moveBlock hentry hstack =>
      obtain ⟨hn, hv⟩ := hs.formatting _ hentry
      have hes := hs.stack
      simp only [hstack, List.mem_append, List.mem_cons] at hes
      exact hs.moveBlock _ hn hv (fun e he => hes e (.inl he)) (hes _ (.inr (.inl rfl)))
        (fun e he => hes e (.inr (.inr (.inl he)))) (hes _ (.inr (.inr (.inr (.inl rfl)))))
        fun e he => hes e (.inr (.inr (.inr (.inr he))))

/-- What is put together from moves keeps the rules. -/
theorem Sound.of_reaches {d : Construction} (hd : c.Reaches N d) (hs : c.Sound N) : d.Sound N :=
  hd.preserves (fun hm hs => Sound.of_move hm hs) hs

end Construction

end RichText
