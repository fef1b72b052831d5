import RichText.Html.Parse
import RichText.Proofs.Construction.Elements
import RichText.Proofs.Construction.Tables
import RichText.Proofs.Construction.Tokens

/-!
What is read from markup is sound.

* `Reaches.turn`, `Reaches.take`, `Reaches.feed`: an item and a token taken in;
* `Reaches.build`, `Sound.build`: **a text taken in** to its end by moves, which keep the rules;
* `Tree.Sound`: a tree whose elements are allowed and in which those without end tag have no
  children;
* `sound_parseDocument`, `sound_parseFragment`: **the trees that are read are sound**, whatever
  the text.
-/

namespace RichText

namespace Construction

variable {N : Naming} {a c : Construction} {item : Item}

/-! ### Items -/

/-- **One meeting** of an item with the rules of a mode. -/
lemma Reaches.rules (hN : N.Closed) (hs : a.Reaches N c) (m : Mode) (hitem : item.Named N) :
    a.Reaches N (c.rules m item).1 := by
  cases m with
  | initial => exact hs.inInitial item
  | beforeHtml => exact hs.inBeforeHtml hN hitem
  | beforeHead => exact hs.inBeforeHead hN hitem
  | inHead => exact hs.inHead hN hitem
  | afterHead => exact hs.inAfterHead hN hitem
  | inBody => exact hs.inBody hN hitem
  | rawText => exact hs.inRawText item
  | inTable => exact hs.inTable hN hitem
  | inTableText => exact hs.inTableText hN item
  | inCaption => exact hs.inCaption hN hitem
  | inColumnGroup => exact hs.inColumnGroup hN hitem
  | inTableBody => exact hs.inTableBody hN hitem
  | inRow => exact hs.inRow hN hitem
  | inCell => exact hs.inCell hN hitem
  | inSelect => exact hs.inSelect hN hitem
  | inSelectInTable => exact hs.inSelectInTable hN hitem
  | inTemplate => exact hs.inTemplate hN hitem
  | afterBody => exact hs.inAfterBody hN hitem
  | inFrameset => exact hs.inFrameset hN hitem
  | afterFrameset => exact hs.inAfterFrameset hN hitem
  | afterAfterBody => exact hs.inAfterAfterBody hN hitem
  | afterAfterFrameset => exact hs.inAfterAfterFrameset hN hitem

lemma Reaches.turn (hN : N.Closed) (hs : a.Reaches N c) (hitem : item.Named N) :
    a.Reaches N (c.turn item).1 := by
  unfold Construction.turn
  split
  · next hf => exact hs.inForeign hN hitem hf fun hd => hd.rules hN _ hitem
  · exact hs.rules hN _ hitem

lemma Reaches.takeTo (hN : N.Closed) (hitem : item.Named N) : ∀ (rounds : ℕ) {c : Construction},
    a.Reaches N c → a.Reaches N (Construction.takeTo item rounds c).1
  | 0, _, hs => hs
  | rounds + 1, c, hs => by
      have hturn := hs.turn hN hitem
      unfold Construction.takeTo
      split
      · next d m hd =>
          rw [hd] at hturn
          exact Reaches.takeTo hN hitem rounds (hturn.goTo m)
      · exact hturn

lemma Reaches.take (hN : N.Closed) (hs : a.Reaches N c) (hitem : item.Named N) :
    a.Reaches N (c.take item).1 :=
  Reaches.takeTo hN hitem _ hs

/-! ### Tokens -/

/-- Text taken in by runs. -/
lemma Reaches.takeText (hN : N.Closed) : ∀ (fuel : ℕ) (s : List Char) {c : Construction},
    a.Reaches N c → a.Reaches N (Construction.takeText s fuel c)
  | 0, _, _, hs => hs
  | fuel + 1, [], _, hs => hs
  | fuel + 1, first :: s, c, hs => by
      have htake := hs.take hN (show Item.Named N (.text .mixed (first :: s)) from trivial)
      unfold Construction.takeText
      dsimp only
      split
      · next d hd =>
          rw [hd] at htake
          exact Reaches.takeText hN fuel _ (htake.take hN trivial)
      · next d _ _ hd =>
          rw [hd] at htake
          exact htake

lemma Reaches.takeDoctype (hs : a.Reaches N c) {d : Doctype} (hd : N.doctype (d.name.getD "")) :
    a.Reaches N (c.takeDoctype d) := by
  unfold Construction.takeDoctype
  split
  · have hnamed : Content.Named N
        (.doctype (d.name.getD "") (d.publicId.getD "") (d.systemId.getD "")) := hd
    exact (hs.move (.addBelow c (.inl rfl) hnamed)).rest
  · exact hs.fault _

lemma Reaches.takeStartTag (hN : N.Closed) (hs : a.Reaches N c) {t : Tag} (ht : t.Named N) :
    a.Reaches N (c.takeStartTag t).1 := by
  have htake := hs.take hN (show Item.Named N (.startTag t) from ht)
  unfold Construction.takeStartTag
  split
  · next hd => rw [hd] at htake; exact htake
  · next hd => rw [hd] at htake; exact htake
  · next hd => rw [hd] at htake; exact htake.expect _ _
  · next hd => rw [hd] at htake; exact htake

/-- A notice of an element with an allowed name. -/
def Notice.Named (N : Naming) : Notice → Prop
  | .raw _ name => N.tag name
  | _ => True

lemma named_takeStartTag {t : Tag} (ht : t.Named N) : (c.takeStartTag t).2.Named N := by
  unfold Construction.takeStartTag
  split
  · exact ht.name
  all_goals trivial

/-- A token taken in. -/
lemma Reaches.feed (hN : N.Closed) (hs : a.Reaches N c) {t : Token} (ht : t.Named N) :
    a.Reaches N (c.feed t).1 ∧ (c.feed t).2.Named N := by
  have hs' : a.Reaches N { c with dropsNewline := false } := hs.rest
  cases t with
  | doctype d => exact ⟨hs'.takeDoctype ht, trivial⟩
  | startTag t => exact ⟨hs'.takeStartTag hN ht, named_takeStartTag ht⟩
  | endTag t => exact ⟨hs'.take hN (show Item.Named N (.endTag t) from ht), trivial⟩
  | comment s => exact ⟨hs'.take hN (show Item.Named N (.comment s) from trivial), trivial⟩
  | text s => exact ⟨Reaches.takeText hN _ _ hs', trivial⟩
  | null => exact ⟨hs'.take hN (show Item.Named N .null from trivial), trivial⟩
  | error e => exact ⟨hs'.fault e, trivial⟩

lemma named_lexMode {mode : LexMode} (hmode : mode.Named N) {notice : Notice}
    (hnotice : notice.Named N) : (notice.lexMode mode).Named N := by
  cases notice with
  | markup => exact hmode
  | raw kind name => exact hnotice
  | plaintext => trivial

/-- The tokens of one unit taken in. -/
lemma Reaches.feedAll (hN : N.Closed) : ∀ (ts : List Token) {c : Construction} {mode : LexMode},
    a.Reaches N c → mode.Named N → (∀ t ∈ ts, t.Named N) →
    a.Reaches N (c.feedAll mode ts).1 ∧ (c.feedAll mode ts).2.Named N
  | [], _, _, hs, hmode, _ => ⟨hs, hmode⟩
  | t :: ts, _, _, hs, hmode, hts => by
      obtain ⟨hs', hnotice⟩ := hs.feed hN (hts t List.mem_cons_self)
      exact Reaches.feedAll hN ts hs' (named_lexMode hmode hnotice)
        fun u hu => hts u (List.mem_cons_of_mem _ hu)

/-- **A text taken in** to its end. -/
theorem Reaches.build (hN : N.Closed) (hread : N.Readable) {mode : LexMode} (hs : a.Reaches N c)
    (hmode : mode.Named N) (s : List Char) : a.Reaches N (c.build mode s) := by
  fun_induction Construction.build c mode s with
  | case1 c mode => exact hs.take hN (show Item.Named N .endOfText from trivial)
  | case2 c mode ch cs step d mode' hd ih =>
      have hfed := Reaches.feedAll hN step.lexeme.tokens hs
        (named_mode_next c.inForeignElement mode ch cs) (named_next hread _ hmode ch cs)
      rw [hd] at hfed
      exact ih hfed.1 hfed.2

/-- The text taken in keeps the rules of a parsed heap. -/
theorem Sound.build (hN : N.Closed) (hread : N.Readable) {mode : LexMode} (hs : c.Sound N)
    (hmode : mode.Named N) (s : List Char) : (c.build mode s).Sound N :=
  Sound.of_reaches ((Reaches.refl c).build hN hread hmode s) hs

lemma sound_start : start.Sound N where
  heap :=
    { named := fun i => by
        rw [start, Heap.content_push]
        split
        · trivial
        · rw [Heap.content, Heap.node_of_size_le (Nat.zero_le i)]
          trivial
      holds := fun i hi => by
        rw [Heap.children, start, Heap.node_push] at hi
        split at hi
        · exact absurd rfl hi
        · rw [Heap.node_of_size_le (Nat.zero_le i)] at hi
          exact absurd rfl hi
      contents := fun i j hj => by
        rw [start, Heap.node_push] at hj
        split at hj
        · simp at hj
        · rw [Heap.node_of_size_le (Nat.zero_le i)] at hj
          simp at hj }
  root := ⟨by decide, trivial⟩
  stack e he := by simp [start] at he
  head e he := by simp [start] at he
  formatting f hf := by simp [start] at hf

lemma sound_startFragment (hN : N.Closed) : startFragment.Sound N := by
  have hs : start.Reaches N { start with isFragment := true } := (Reaches.refl start).rest
  exact Sound.of_reaches (hs.openHtml (hN.impliedElement (by decide))).goToReset sound_start

end Construction

/-! ### Trees -/

mutual

/-- A tree whose elements are allowed and in which those without end tag have no children. -/
def Tree.Sound (N : Naming) : Tree → Prop
  | .element e cs => N.element e ∧ (e.isVoid = true → cs = []) ∧ Tree.SoundAll N cs
  | .template as cs us => (∃ e, N.element e ∧ e.attributes = as) ∧ Tree.SoundAll N cs
      ∧ Tree.SoundAll N us
  | .doctype name _ _ => N.doctype name
  | .document cs => Tree.SoundAll N cs
  | _ => True

/-- Trees all of which are sound. -/
def Tree.SoundAll (N : Naming) : List Tree → Prop
  | [] => True
  | t :: ts => t.Sound N ∧ Tree.SoundAll N ts

end

variable {N : Naming} {h : Heap}

lemma Tree.sound_element {e : Element} {cs : List Tree} : (Tree.element e cs).Sound N ↔
    N.element e ∧ (e.isVoid = true → cs = []) ∧ SoundAll N cs := by
  rw [Sound]

lemma Tree.sound_document {cs : List Tree} : (Tree.document cs).Sound N ↔ SoundAll N cs := by
  rw [Sound]

lemma Tree.sound_doctype {name publicId systemId : String} :
    (Tree.doctype name publicId systemId).Sound N ↔ N.doctype name := by
  rw [Sound]

lemma Tree.soundAll_iff {ts : List Tree} : Tree.SoundAll N ts ↔ ∀ t ∈ ts, t.Sound N := by
  induction ts with
  | nil => simp [SoundAll]
  | cons t ts ih => simp [SoundAll, ih]

/-- The tree at a node of a sound heap. -/
lemma Heap.Sound.treeTo (hs : h.Sound N) : ∀ (depth : ℕ) (i : NodeId),
    (h.treeTo depth i).Sound N
  | 0, _ => by
      rw [Heap.treeTo, Tree.Sound]
      trivial
  | depth + 1, i => by
      have hbelow : ∀ is : List NodeId, Tree.SoundAll N (is.map (h.treeTo depth)) := by
        intro is
        refine Tree.soundAll_iff.mpr fun t ht => ?_
        obtain ⟨j, -, rfl⟩ := List.mem_map.mp ht
        exact hs.treeTo depth j
      have hnamed := hs.named i
      have hholds := hs.holds i
      rw [Heap.CanHold] at hholds
      unfold Heap.treeTo
      cases hc : h.content i with
      | document => exact hbelow _
      | text s => trivial
      | comment s => trivial
      | doctype name publicId systemId =>
          rw [hc] at hnamed
          exact hnamed
      | element e =>
          rw [hc] at hnamed hholds
          cases hcontents : (h.node i).contents with
          | none =>
              refine ⟨hnamed, fun hvoid => ?_, hbelow _⟩
              have hnil : h.children i = [] := by
                by_contra hne
                have := (hholds hne).2
                rw [Content.Holds, hvoid] at this
                simp at this
              rw [hnil, List.map_nil]
          | some j => exact ⟨⟨e, hnamed, rfl⟩, hbelow _, hbelow _⟩

lemma Heap.Sound.forest (hs : h.Sound N) (i : NodeId) : ∀ t ∈ h.forest i, t.Sound N := by
  intro t ht
  obtain ⟨j, -, rfl⟩ := List.mem_map.mp ht
  exact hs.treeTo _ j

/-- **The nodes of a document** are sound. -/
theorem sound_parseDocument (hN : N.Closed) (hread : N.Readable) (s : List Char) :
    ∀ t ∈ parseDocument s, t.Sound N := by
  have hmode : LexMode.Named N (.markup none) := trivial
  exact (Construction.sound_start.build hN hread hmode (prepare s)).heap.forest _

lemma sound_unroot {t : Tree} (ht : t.Sound N) : ∀ u ∈ unroot t, u.Sound N := by
  intro u hu
  unfold unroot at hu
  split at hu
  · next e cs =>
      split at hu
      · exact Tree.soundAll_iff.mp ht.2.2 u hu
      · rwa [List.mem_singleton.mp hu]
  · rwa [List.mem_singleton.mp hu]

/-- **The nodes of a fragment** are sound. -/
theorem sound_parseFragment (hN : N.Closed) (hread : N.Readable) (s : List Char) :
    ∀ t ∈ (parseFragment s).1, t.Sound N := by
  have hmode : LexMode.Named N (.markup none) := trivial
  intro t ht
  obtain ⟨u, hu, htu⟩ := List.mem_flatMap.mp ht
  exact sound_unroot (((Construction.sound_startFragment hN).build hN hread hmode
    (prepare s)).heap.forest _ u hu) t htu

end RichText
