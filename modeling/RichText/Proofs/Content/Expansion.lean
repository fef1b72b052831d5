import Mathlib.Computability.Language
import RichText.Proofs.Content.SelfClosed

/-!
What the expansion of self-closing tags does.

What a self-closing tag is can be said without reading one: by the language of names, and by that
of what stands between a name and the `/>`. The blanks at the end of a tag may belong to either part
of the second one, but only one tag begins at a place: pieces of attributes are told apart by how
they begin, and none of them begins with the bracket that closes the tag.

* `TagLanguage.name`, `TagLanguage.between`: the two languages; `WrittenTag`: tags in them;
* `TagLanguage.kstar_piece_unique`: attributes end at the first bracket outside of quoted texts;
* `WrittenTag.eq_of_append`: **at most one tag begins at a place**;
* `exists_written_of_selfClosingTag?`, `exists_selfClosingTag?_of_written`: what is read off the
  start of a text is the tag that begins there;
* `Scans`: a text gone through from tag to tag;
* `scans_iff_expandTags`: **the expansion goes through its content** like this.
-/

namespace RichText

open scoped Computability

variable {c : Char} {r r' s u v w x y : List Char} {accepts : String → Bool}

/-! ### The language of tags -/

namespace TagLanguage

/-- The texts of one character of a kind. -/
def char (p : Char → Bool) : Language Char :=
  {w | ∃ c, p c = true ∧ w = [c]}

/-- Texts in quotation marks that have no such mark inside. -/
def quoted (q : Char) : Language Char :=
  {w | ∃ v, q ∉ v ∧ w = q :: (v ++ [q])}

/-- Characters that stand for themselves between the name and the end of a tag. -/
def isPlain (c : Char) : Bool :=
  c ∉ ['<', '>', '\'', '"']

/-- Names: a letter, and then letters, digits and three marks. -/
def name : Language Char :=
  char Char.isAlpha * (char isTagNameChar)∗

/-- The pieces of attributes: characters and quoted texts. -/
def piece : Language Char :=
  char isPlain + quoted '"' + quoted '\''

/-- What stands between the name and the `/>`: nothing or a blank and pieces, and then blanks. -/
def between : Language Char :=
  (1 + char isBlank * piece∗) * (char isBlank)∗

lemma append_mem_kstar {l : Language Char} (hx : x ∈ l) (hw : w ∈ l∗) : x ++ w ∈ l∗ :=
  mul_kstar_le_kstar (a := l) (Language.append_mem_mul hx hw)

/-- A text of pieces is empty or begins with one of them. -/
lemma eq_nil_or_append_of_mem_kstar {l : Language Char} (hw : w ∈ l∗) :
    w = [] ∨ ∃ x ∈ l, ∃ y ∈ l∗, w = x ++ y := by
  rw [← Language.one_add_self_mul_kstar_eq_kstar, Language.mem_add, Language.mem_mul] at hw
  rcases hw with hw | ⟨x, hx, y, hy, rfl⟩
  · exact .inl hw
  · exact .inr ⟨x, hx, y, hy, rfl⟩

/-- What holds of the empty text, and of any text with one more piece in front if it held of it,
holds of all texts of such pieces. -/
lemma kstar_induction {l : Language Char} {P : List Char → Prop} (hnil : P [])
    (happend : ∀ x ∈ l, ∀ w, P w → P (x ++ w)) (hw : w ∈ l∗) : P w := by
  obtain ⟨pieces, rfl, hpieces⟩ := Language.mem_kstar.mp hw
  clear hw
  induction pieces with
  | nil => exact hnil
  | cons x pieces ih =>
      obtain ⟨hx, hpieces⟩ := List.forall_mem_cons.mp hpieces
      exact happend x hx _ (ih hpieces)

lemma mem_char {p : Char → Bool} (hc : p c = true) : [c] ∈ char p := ⟨c, hc, rfl⟩

lemma mem_kstar_char {p : Char → Bool} : w ∈ (char p)∗ ↔ ∀ c ∈ w, p c = true := by
  constructor
  · refine kstar_induction (P := fun w => ∀ c ∈ w, p c = true) (by simp) ?_
    rintro _ ⟨c, hc, rfl⟩ w hw
    exact List.forall_mem_cons.mpr ⟨hc, hw⟩
  · intro hw
    induction w with
    | nil => exact Language.nil_mem_kstar _
    | cons c w ih =>
        obtain ⟨hc, hw⟩ := List.forall_mem_cons.mp hw
        exact append_mem_kstar (mem_char hc) (ih hw)

/-- Names begin with a letter. -/
lemma mem_name : w ∈ name ↔ ∃ c cs, w = c :: cs ∧ c.isAlpha = true
    ∧ ∀ a ∈ cs, isTagNameChar a = true := by
  constructor
  · intro hw
    obtain ⟨_, ⟨c, hc, rfl⟩, cs, hcs, rfl⟩ := Language.mem_mul.mp hw
    exact ⟨c, cs, rfl, hc, mem_kstar_char.mp hcs⟩
  · rintro ⟨c, cs, rfl, hc, hcs⟩
    exact Language.append_mem_mul (mem_char hc) (mem_kstar_char.mpr hcs)

lemma isTagNameChar_of_mem_name (hw : w ∈ name) : ∀ c ∈ w, isTagNameChar c = true := by
  obtain ⟨c, cs, rfl, hc, hcs⟩ := mem_name.mp hw
  refine List.forall_mem_cons.mpr ⟨?_, hcs⟩
  delta isTagNameChar Char.isAlphanum
  rw [hc]
  rfl

/-- Behind a name stands nothing, or a blank and pieces, and then blanks. -/
lemma mem_between : w ∈ between ↔ ∃ a b, w = a ++ b ∧ (∀ c ∈ b, isBlank c = true)
    ∧ (a = [] ∨ ∃ m as, isBlank m = true ∧ as ∈ piece∗ ∧ a = m :: as) := by
  constructor
  · intro hw
    obtain ⟨a, ha, b, hb, rfl⟩ := Language.mem_mul.mp hw
    refine ⟨a, b, rfl, mem_kstar_char.mp hb, ?_⟩
    rcases (Language.mem_add _ _ _).mp ha with ha | ha
    · exact .inl ha
    · obtain ⟨_, ⟨m, hm, rfl⟩, as, has, rfl⟩ := Language.mem_mul.mp ha
      exact .inr ⟨m, as, hm, has, rfl⟩
  · rintro ⟨a, b, rfl, hb, ha⟩
    refine Language.append_mem_mul ((Language.mem_add _ _ _).mpr ?_) (mem_kstar_char.mpr hb)
    rcases ha with rfl | ⟨m, as, hm, has, rfl⟩
    · exact .inl Language.nil_mem_one
    · exact .inr (Language.append_mem_mul (mem_char hm) has)

lemma of_isBlank (hc : isBlank c = true) : isPlain c = true ∧ isTagNameChar c = false := by
  have hall : ∀ c ∈ blankChars, isPlain c = true ∧ isTagNameChar c = false :=
    List.all_iff_forall_prop.mp (by decide)
  exact hall c (of_decide_eq_true hc)

lemma mem_piece : w ∈ piece ↔ (∃ c, isPlain c = true ∧ w = [c])
    ∨ ∃ q v, q ∈ ['"', '\''] ∧ q ∉ v ∧ w = q :: (v ++ [q]) := by
  simp only [piece, Language.mem_add, List.mem_cons, List.not_mem_nil, or_false]
  constructor
  · rintro ((h | ⟨v, hv, rfl⟩) | ⟨v, hv, rfl⟩)
    · exact .inl h
    · exact .inr ⟨'"', v, .inl rfl, hv, rfl⟩
    · exact .inr ⟨'\'', v, .inr rfl, hv, rfl⟩
  · rintro (h | ⟨q, v, rfl | rfl, hv, rfl⟩)
    · exact .inl (.inl h)
    · exact .inl (.inr ⟨v, hv, rfl⟩)
    · exact .inr ⟨v, hv, rfl⟩

/-- What may follow where a quotation mark is open, or none: the rest of the text in quotation
marks, and pieces. -/
def remaining : Option Char → Language Char
  | none => piece∗
  | some q => {w | ∃ v y, q ∉ v ∧ y ∈ piece∗ ∧ w = v ++ q :: y}

lemma mem_kstar_piece_of_isPlain (hw : ∀ c ∈ w, isPlain c = true) : w ∈ piece∗ := by
  have hle : char isPlain ≤ piece := fun _ h => .inl (.inl h)
  exact kstar_mono hle (mem_kstar_char.mpr hw)

/-- Up to its `>`, all that stands behind the name of a tag consists of pieces. -/
lemma append_slash_mem (hw : w ∈ between) : w ++ ['/'] ∈ piece∗ := by
  have happend : ∀ {x y : List Char}, x ∈ piece∗ → y ∈ piece∗ → x ++ y ∈ piece∗ := fun hx hy =>
    kstar_mul_kstar piece ▸ Language.append_mem_mul hx hy
  obtain ⟨a, b, rfl, hb, ha⟩ := mem_between.mp hw
  refine happend (happend ?_ ?_) (mem_kstar_piece_of_isPlain (by simp [isPlain]))
  · rcases ha with rfl | ⟨m, as, hm, has, rfl⟩
    · exact Language.nil_mem_kstar _
    · exact append_mem_kstar (.inl (.inl (mem_char (of_isBlank hm).1))) has
  · exact mem_kstar_piece_of_isPlain fun c hc => (of_isBlank (hb c hc)).1

/-- Behind a name stands something that does not belong to a name. -/
lemma exists_head_of_between (hw : w ∈ between) (s : List Char) :
    ∃ m rest, w ++ '/' :: s = m :: rest ∧ isTagNameChar m = false := by
  obtain ⟨a, b, rfl, hb, ha⟩ := mem_between.mp hw
  rcases ha with rfl | ⟨m, as, hm, -, rfl⟩
  · cases b with
    | nil => exact ⟨'/', s, rfl, by decide⟩
    | cons m b => exact ⟨m, b ++ '/' :: s, rfl, (of_isBlank (hb m List.mem_cons_self)).2⟩
  · exact ⟨m, as ++ b ++ '/' :: s, rfl, (of_isBlank hm).2⟩

/-- No piece is the start of another one. -/
lemma piece_unique (hx : x ∈ piece) (hy : y ∈ piece) (heq : x ++ s = y ++ r) : x = y := by
  have hquote : ∀ q ∈ ['"', '\''], isPlain q = false := by simp [isPlain]
  rcases mem_piece.mp hx with ⟨c, hc, rfl⟩ | ⟨q, v, hq, hv, rfl⟩ <;>
    rcases mem_piece.mp hy with ⟨d, hd, rfl⟩ | ⟨q', v', hq', hv', rfl⟩
  · rw [(List.cons.inj heq).1]
  · rw [(List.cons.inj heq).1, hquote q' hq'] at hc
    exact absurd hc (by decide)
  · rw [← (List.cons.inj heq).1, hquote q hq] at hd
    exact absurd hd (by decide)
  · rw [List.cons_append, List.cons_append, List.append_assoc, List.append_assoc] at heq
    obtain ⟨rfl, htail⟩ := List.cons.inj heq
    rcases eq_or_of_append_cons_eq hv' htail with ⟨rfl, -⟩ | ⟨z, rfl, -⟩
    · rfl
    · exact absurd (by simp) hv

/-- No piece begins with a closing bracket. -/
lemma append_ne_of_piece (hx : x ∈ piece) : x ++ s ≠ '>' :: r := by
  intro heq
  rcases mem_piece.mp hx with ⟨c, hc, rfl⟩ | ⟨q, v, hq, -, rfl⟩
  · rw [(List.cons.inj heq).1] at hc
    exact absurd hc (by decide)
  · rw [(List.cons.inj heq).1] at hq
    exact absurd hq (by decide)

/-- **Pieces end at the first bracket** that is not in one of them. -/
lemma kstar_piece_unique (hx : x ∈ piece∗) (hy : y ∈ piece∗)
    (heq : x ++ '>' :: s = y ++ '>' :: r) : x = y := by
  refine kstar_induction (P := fun x => ∀ y ∈ piece∗, x ++ '>' :: s = y ++ '>' :: r → x = y)
    ?_ ?_ hx y hy heq
  · intro y hy heq
    rcases eq_nil_or_append_of_mem_kstar hy with rfl | ⟨p, hp, y, -, rfl⟩
    · rfl
    · rw [List.append_assoc] at heq
      exact absurd heq.symm (append_ne_of_piece hp)
  · intro p hp x ih y hy heq
    rw [List.append_assoc] at heq
    rcases eq_nil_or_append_of_mem_kstar hy with rfl | ⟨p', hp', y', hy', rfl⟩
    · exact absurd heq (append_ne_of_piece hp)
    · rw [List.append_assoc] at heq
      obtain rfl := piece_unique hp hp' heq
      rw [ih y' hy' (List.append_cancel_left heq)]

end TagLanguage

/-! ### Written tags -/

/-- A self-closing tag: a name, and what stands between it and the `/>`. -/
structure WrittenTag where
  name : List Char
  between : List Char
  name_mem : name ∈ TagLanguage.name
  between_mem : between ∈ TagLanguage.between

namespace WrittenTag

open TagLanguage

/-- The tag as a text. -/
def source (t : WrittenTag) : List Char :=
  '<' :: t.name ++ t.between ++ ['/', '>']

/-- What is written for the tag: a start tag without blanks at its end and an end tag if its name,
in lower case, is accepted, and otherwise the tag itself. -/
def rewritten (t : WrittenTag) (accepts : String → Bool) : List Char :=
  if accepts (String.ofList t.name).toLower then
    '<' :: t.name ++ trimEnd t.between ++ '>' :: '<' :: '/' :: t.name ++ ['>']
  else t.source

lemma source_append (t : WrittenTag) (s : List Char) :
    t.source ++ s = '<' :: (t.name ++ (t.between ++ '/' :: '>' :: s)) := by
  simp [source]

/-- **At most one tag begins at a place**. -/
lemma eq_of_append {t t' : WrittenTag} (heq : t.source ++ s = t'.source ++ r) : t = t' := by
  obtain ⟨n, b, hn, hb⟩ := t
  obtain ⟨n', b', hn', hb'⟩ := t'
  rw [source_append, source_append] at heq
  have heq := (List.cons.inj heq).2
  dsimp only at heq
  obtain rfl : n = n' := by
    have hmaximal : ∀ {n b r : List Char}, n ∈ TagLanguage.name → b ∈ TagLanguage.between →
        (n ++ (b ++ '/' :: r)).takeWhile isTagNameChar = n := by
      intro n b r hn hb
      obtain ⟨m, rest, hrest, hm⟩ := exists_head_of_between hb r
      rw [hrest, List.takeWhile_append_of_pos (isTagNameChar_of_mem_name hn),
        List.takeWhile_cons_of_neg (by simp [hm]), List.append_nil]
    rw [← hmaximal (r := '>' :: s) hn hb, heq, hmaximal hn' hb']
  have hrest : (b ++ ['/']) ++ '>' :: s = (b' ++ ['/']) ++ '>' :: r := by
    simpa using List.append_cancel_left heq
  obtain rfl := List.append_cancel_right
    (kstar_piece_unique (append_slash_mem hb) (append_slash_mem hb') hrest)
  rfl

/-- How a tag is read: the blanks at its end may belong to its attributes in part. -/
structure ReadAs (t : WrittenTag) (found : SelfClosingTag) : Prop where
  name_eq : found.name = t.name
  between_eq : found.attributes ++ found.blanks = t.between
  blanks : ∀ c ∈ found.blanks, isBlank c = true

end WrittenTag

lemma trimEnd_append_of_isBlank (hx : ∀ c ∈ x, isBlank c = true) (s : List Char) :
    trimEnd (s ++ x) = trimEnd s := by
  rw [trimEnd, List.reverse_append, List.dropWhile_append_of_pos (by simpa using hx), trimEnd]

lemma WrittenTag.ReadAs.source_eq {t : WrittenTag} {found : SelfClosingTag}
    (h : t.ReadAs found) : found.source = t.source := by
  rw [SelfClosingTag.source, WrittenTag.source, h.name_eq, ← h.between_eq]
  simp

/-- However a tag is read, the same is written for it. -/
lemma WrittenTag.ReadAs.rewritten_eq {t : WrittenTag} {found : SelfClosingTag}
    (h : t.ReadAs found) (accepts : String → Bool) :
    (if accepts (String.ofList found.name).toLower then found.expanded else found.source)
      = t.rewritten accepts := by
  have htrim : trimEnd t.between = trimEnd found.attributes := by
    rw [← h.between_eq, trimEnd_append_of_isBlank h.blanks]
  rw [WrittenTag.rewritten, htrim, SelfClosingTag.expanded, h.source_eq, h.name_eq]

/-! ### Reading tags -/

open TagLanguage

/-- What is read in front of a `/>` consists of pieces, and of blanks at the end. -/
lemma mem_remaining_of_attributesToClose? {quote : Option Char} {as blanks : List Char}
    (h : attributesToClose? quote s = some (as, blanks)) :
    as ∈ remaining quote ∧ ∀ c ∈ blanks, isBlank c = true := by
  induction s generalizing quote as with
  | nil => simp [attributesToClose?] at h
  | cons c cs ih =>
      cases quote with
      | some q =>
          rw [attributesToClose?] at h
          obtain ⟨⟨a, b⟩, ha, heq⟩ := Option.map_eq_some_iff.mp h
          obtain ⟨rfl, rfl⟩ := Prod.mk.inj heq
          obtain ⟨hrest, hblanks⟩ := ih ha
          refine ⟨?_, hblanks⟩
          split at hrest
          · next hc => exact ⟨[], a, by simp, hrest, by rw [hc, List.nil_append]⟩
          · next hc =>
              obtain ⟨v, y, hv, hy, rfl⟩ := hrest
              exact ⟨c :: v, y, by simp [hv, Ne.symm hc], hy, rfl⟩
      | none =>
          rw [attributesToClose?] at h
          split at h
          · next b hb =>
              obtain ⟨rfl, rfl⟩ := Prod.mk.inj (Option.some.inj h)
              refine ⟨Language.nil_mem_kstar _, ?_⟩
              rw [blanksToClose?] at hb
              split at hb
              · rw [← Option.some.inj hb]
                exact List.all_eq_true.mp List.all_takeWhile
              · simp at hb
          · split at h
            · simp at h
            · next hc =>
                obtain ⟨⟨a, b⟩, ha, heq⟩ := Option.map_eq_some_iff.mp h
                obtain ⟨rfl, rfl⟩ := Prod.mk.inj heq
                obtain ⟨hrest, hblanks⟩ := ih ha
                refine ⟨?_, hblanks⟩
                split at hrest
                · next hquote =>
                    obtain ⟨v, y, hv, hy, rfl⟩ := hrest
                    have hpiece : c :: (v ++ [c]) ∈ piece :=
                      mem_piece.mpr (.inr ⟨c, v, by simpa using hquote, hv, rfl⟩)
                    simpa [remaining] using append_mem_kstar hpiece hy
                · next hquote =>
                    have hplain : isPlain c = true := by
                      simp only [Bool.or_eq_true, decide_eq_true_eq, not_or] at hc hquote
                      simp [isPlain, hc, hquote]
                    exact append_mem_kstar (mem_piece.mpr (.inl ⟨c, hplain, rfl⟩)) hrest

/-- **What is read is a written tag**. -/
lemma exists_written_of_selfClosingTag? {found : SelfClosingTag}
    (h : selfClosingTag? s = some found) : ∃ t : WrittenTag, t.ReadAs found := by
  have hname : ∀ {c : Char} (cs : List Char), c.isAlpha = true →
      c :: cs.takeWhile isTagNameChar ∈ TagLanguage.name := fun cs hc =>
    mem_name.mpr ⟨_, _, rfl, hc, List.all_eq_true.mp List.all_takeWhile⟩
  unfold selfClosingTag? at h
  split at h
  · next c cs =>
      split at h
      · next halpha =>
          dsimp only at h
          split at h
          · simp at h
          · next m rest _ =>
              split at h
              · next hm =>
                  obtain ⟨⟨as, blanks⟩, hread, rfl⟩ := Option.map_eq_some_iff.mp h
                  obtain ⟨has, hblanks⟩ := mem_remaining_of_attributesToClose? hread
                  exact ⟨⟨_, _, hname cs halpha,
                    mem_between.mpr ⟨m :: as, blanks, rfl, hblanks, .inr ⟨m, as, hm, has, rfl⟩⟩⟩,
                    rfl, rfl, hblanks⟩
              · split at h
                · obtain rfl := Option.some.inj h
                  exact ⟨⟨_, _, hname cs halpha,
                    mem_between.mpr ⟨[], [], rfl, by simp, .inl rfl⟩⟩, rfl, rfl, by simp⟩
                · simp at h
      · simp at h
  · simp at h

/-- With one more piece in front a `/>` is found if it was found before. -/
lemma isSome_attributesToClose?_append (hx : x ∈ piece)
    (hs : (attributesToClose? none s).isSome = true) :
    (attributesToClose? none (x ++ s)).isSome = true := by
  rcases mem_piece.mp hx with ⟨c, hc, rfl⟩ | ⟨q, v, hq, hv, rfl⟩
  · simp only [isPlain, List.mem_cons, List.not_mem_nil, or_false, not_or, decide_eq_true_eq] at hc
    rw [List.singleton_append, attributesToClose?]
    split
    · rfl
    · simpa [hc] using hs
  · obtain ⟨⟨as, blanks⟩, hfound⟩ := Option.isSome_iff_exists.mp hs
    have hquoted := attributesToClose?_quoted hv hfound
    have hmarks : q ≠ '<' ∧ q ≠ '>' ∧ (q = '"' ∨ q = '\'') := by
      have hall : ∀ q ∈ ['"', '\''], q ≠ '<' ∧ q ≠ '>' ∧ (q = '"' ∨ q = '\'') := by simp
      exact hall q hq
    rw [List.cons_append, List.append_assoc, List.singleton_append, attributesToClose?]
    split
    · rfl
    · simp [hmarks, hquoted]

/-- Behind pieces and blanks a `/>` is found. -/
lemma isSome_attributesToClose? (hw : w ∈ piece∗) (hu : ∀ c ∈ u, isBlank c = true)
    (s : List Char) : (attributesToClose? none (w ++ (u ++ '/' :: '>' :: s))).isSome = true := by
  refine kstar_induction
    (P := fun w => (attributesToClose? none (w ++ (u ++ '/' :: '>' :: s))).isSome = true) ?_ ?_ hw
  · have hclose := blanksToClose?_of_close (s := s) hu
    rw [List.nil_append]
    cases hu' : u ++ '/' :: '>' :: s with
    | nil => simp at hu'
    | cons c rest =>
        rw [hu'] at hclose
        rw [attributesToClose?, hclose]
        rfl
  · intro x hx w hw
    rw [List.append_assoc]
    exact isSome_attributesToClose?_append hx hw

lemma isSome_selfClosingTag?_source (t : WrittenTag) (s : List Char) :
    (selfClosingTag? (t.source ++ s)).isSome = true := by
  obtain ⟨n, b, hn, hb⟩ := t
  rw [WrittenTag.source_append]
  dsimp only
  obtain ⟨c, cs, rfl, halpha, hcs⟩ := mem_name.mp hn
  obtain ⟨a, u, rfl, hu, ha⟩ := mem_between.mp hb
  have hblank : ∀ {m : Char} {as v : List Char}, isBlank m = true → as ∈ piece∗ →
      (∀ c ∈ v, isBlank c = true) →
      (selfClosingTag? ('<' :: (c :: cs ++ (m :: (as ++ (v ++ '/' :: '>' :: s)))))).isSome
        = true := by
    intro m as v hm has hv
    rw [List.cons_append, selfClosingTag?_cons halpha hcs (of_isBlank hm).2, if_pos hm,
      Option.isSome_map]
    exact isSome_attributesToClose? has hv s
  rcases ha with rfl | ⟨m, as, hm, has, rfl⟩
  · cases u with
    | nil =>
        have hslash : isTagNameChar '/' = false := by decide
        rw [List.append_nil, List.nil_append, List.cons_append,
          selfClosingTag?_cons halpha hcs hslash, if_neg (by decide)]
        rfl
    | cons m u =>
        obtain ⟨hm, hu⟩ := List.forall_mem_cons.mp hu
        exact @hblank m [] u hm (Language.nil_mem_kstar _) hu
  · rw [List.append_assoc]
    exact hblank hm has hu

/-- **A written tag is read** where it begins. -/
lemma exists_selfClosingTag?_of_written (t : WrittenTag) (s : List Char) :
    ∃ found, selfClosingTag? (t.source ++ s) = some found ∧ t.ReadAs found := by
  obtain ⟨found, hfound⟩ := Option.isSome_iff_exists.mp (isSome_selfClosingTag?_source t s)
  obtain ⟨r, hr⟩ := source_prefix_of_selfClosingTag? hfound
  obtain ⟨t', ht'⟩ := exists_written_of_selfClosingTag? hfound
  rw [ht'.source_eq] at hr
  obtain rfl := WrittenTag.eq_of_append hr
  exact ⟨found, hfound, ht'⟩

/-! ### Going through a text -/

/-- A text gone through from left to right: where a tag begins, what is to be written for it is, and
the text is gone through behind it; any other character is copied. -/
inductive Scans (accepts : String → Bool) : List Char → List Char → Prop
  | nil : Scans accepts [] []
  | tag (t : WrittenTag) {s x : List Char} (hs : Scans accepts s x) :
      Scans accepts (t.source ++ s) (t.rewritten accepts ++ x)
  | copy {c : Char} {s x : List Char} (hnone : ∀ t : WrittenTag, ¬ t.source <+: c :: s)
      (hs : Scans accepts s x) : Scans accepts (c :: s) (c :: x)

/-- What is found where no tag begins. -/
lemma selfClosingTag?_eq_none (hnone : ∀ t : WrittenTag, ¬ t.source <+: s) :
    selfClosingTag? s = none := by
  rw [Option.eq_none_iff_forall_ne_some]
  intro found hfound
  obtain ⟨rest, hrest⟩ := source_prefix_of_selfClosingTag? hfound
  obtain ⟨t, ht⟩ := exists_written_of_selfClosingTag? hfound
  exact hnone t ⟨rest, by rw [hrest, ht.source_eq]⟩

lemma Scans.eq_expandFrom (h : Scans accepts s x) : x = expandFrom accepts 0 s := by
  induction h with
  | nil => rfl
  | tag t _ ih =>
      obtain ⟨found, hfound, ht⟩ := exists_selfClosingTag?_of_written t _
      rw [← ht.source_eq] at hfound ⊢
      rw [expandFrom_of_selfClosingTag? hfound, ht.rewritten_eq, ih]
  | copy hnone _ ih =>
      rw [expandFrom, selfClosingTag?_eq_none hnone, ih]

lemma scans_expandFrom (accepts : String → Bool) (s : List Char) :
    Scans accepts s (expandFrom accepts 0 s) := by
  -- by induction on the length, from one tag to the next
  induction hn : s.length using Nat.strong_induction_on generalizing s with
  | _ n ih =>
      subst hn
      cases hfound : selfClosingTag? s with
      | some found =>
          obtain ⟨rest, rfl⟩ := source_prefix_of_selfClosingTag? hfound
          obtain ⟨t, ht⟩ := exists_written_of_selfClosingTag? hfound
          have hshort : rest.length < (found.source ++ rest).length := by
            rw [List.length_append, SelfClosingTag.source]
            simp
          rw [expandFrom_of_selfClosingTag? hfound, ht.rewritten_eq, ht.source_eq]
          exact .tag t (ih rest.length hshort rest rfl)
      | none =>
          cases s with
          | nil => exact .nil
          | cons c s =>
              rw [expandFrom, hfound]
              refine .copy (fun t ht => ?_) (ih s.length (by simp) s rfl)
              obtain ⟨rest, hrest⟩ := ht
              obtain ⟨found, hwritten, -⟩ := exists_selfClosingTag?_of_written t rest
              rw [hrest, hfound] at hwritten
              simp at hwritten

/-- **The expansion goes through its content from tag to tag.** At each place of a text at most one
self-closing tag begins. The expansion of the content takes the tags in it from left to right,
writes a start tag and an end tag for each whose name is accepted, and copies everything else. -/
theorem scans_iff_expandTags (accepts : String → Bool) (content : String) :
    (∀ s : List Char, {t : WrittenTag | t.source <+: s}.Subsingleton)
      ∧ ∀ result : String, Scans accepts content.toList result.toList
        ↔ result = expandTags accepts content := by
  constructor
  · rintro s t ⟨r, hr⟩ t' ⟨r', hr'⟩
    exact WrittenTag.eq_of_append (hr.trans hr'.symm)
  · intro result
    rw [← String.toList_inj, expandTags, String.toList_ofList]
    constructor
    · exact Scans.eq_expandFrom
    · intro heq
      rw [heq]
      exact scans_expandFrom accepts content.toList

/-- A tag is taken whole, with what stands in its quotation marks, and the next one begins behind
it. -/
example : expandTags (· = "x-a") "<X-a b='/>' //><x-c d=\"<x-a/>\"/><x-a / >"
    = "<X-a b='/>' /></X-a><x-c d=\"<x-a/>\"/><x-a / >" := by
  decide +kernel

end RichText
