import RichText.Proofs.Content.Reading
import RichText.Proofs.Substitution.Unmatched

/-!
Self-closed custom elements in front of text.

A self-closed custom element is given an end tag before it is read, so that it does not take in
what follows. The expansion knows fewer characters of names than reading does: a tag whose name
has a dot, or a letter beyond ASCII, is not expanded, and its slash is not heeded when it is read.

* `isCustomName`: names of custom elements; `Attribute.isQuoted`: attributes that are written
  without references;
* `exists_selfClosingTag?`: **a written tag is found** by the expansion if its name has only
  characters that the expansion knows, whatever the values of its attributes hold;
* `expandTags_of_unknown`: and otherwise stays as it is;
* `readsDeclared_tags`, `readsDeclared_selfClosing`: an element with its end tag, and one without;
* `readContent_expandTags`: **what becomes of a self-closed custom element** and the text behind
  it.
-/

namespace RichText

variable {c : Char} {s u v as' blanks : List Char} {name : String} {a : Attribute}
  {as : List Attribute} {accepts : String → Bool}

/-! ### Names and attributes of custom elements -/

/-- The ranges of the characters beyond ASCII that names of custom elements can have. -/
def customNameRanges : List (ℕ × ℕ) :=
  [(0xb7, 0xb7), (0xc0, 0xd6), (0xd8, 0xf6), (0xf8, 0x37d), (0x37f, 0x1fff), (0x200c, 0x200d),
    (0x203f, 0x2040), (0x2070, 0x218f), (0x2c00, 0x2fef), (0x3001, 0xd7ff), (0xf900, 0xfdcf),
    (0xfdf0, 0xfffd), (0x10000, 0xeffff)]

/-- Characters that names of custom elements can continue with. -/
def isCustomNameChar (c : Char) : Bool :=
  isNameChar c || decide (c ∈ ['-', '.', '_'])
    || customNameRanges.any fun r => decide (r.1 ≤ c.toNat ∧ c.toNat ≤ r.2)

/-- Names of custom elements: a small letter, and then characters with a hyphen among them. -/
def isCustomName (name : String) : Bool :=
  name.toList.head?.any Char.isLower && name.toList.all isCustomNameChar
    && decide ('-' ∈ name.toList)

/-- Attributes whose values can be written in quotation marks as they are. -/
def Attribute.isQuoted (a : Attribute) : Bool :=
  decide (a.reserved = .none) && isPlainAttributeName a.name.toList
    && a.value.toList.all fun c => c ≠ '"' && c ≠ '&' && c ≠ nul && c ≠ '\r'

/-- Characters beyond ASCII are read as they are in names. -/
lemma keptInNames_of_le (hc : 128 ≤ c.toNat) : KeptInNames c := by
  have hne : ∀ m : Char, m.toNat < 128 → c ≠ m := by
    rintro m hm rfl
    exact Nat.not_lt.mpr hc hm
  refine ⟨?_, ?_, ?_⟩
  · simp [isMarkupSpace, hne]
  · have hall : ∀ m ∈ ['/', '>', '=', nul, '"', '\'', '<', '&'], m.toNat < 128 :=
      List.all_iff_forall_prop.mp (by decide)
    exact fun hmem => hne c (hall c hmem) rfl
  · delta Char.toLower
    rw [dif_neg]
    rintro ⟨-, hle⟩
    have hle : c.toNat ≤ 90 := by simpa using UInt32.le_iff_toNat_le.mp hle
    omega

lemma keptInNames_of_isCustomNameChar (hc : isCustomNameChar c = true) : KeptInNames c := by
  rw [isCustomNameChar, Bool.or_eq_true, Bool.or_eq_true, decide_eq_true_eq] at hc
  rcases hc with (hc | hc) | hc
  · exact keptInNames_of_isNameChar hc
  · have hall : ∀ m ∈ ['-', '.', '_'], KeptInNames m := List.all_iff_forall_prop.mp (by decide)
    exact hall c hc
  · obtain ⟨r, hr, hc⟩ := List.any_eq_true.mp hc
    have hall : ∀ r ∈ customNameRanges, 128 ≤ r.1 := by decide
    exact keptInNames_of_le ((hall r hr).trans (of_decide_eq_true hc).1)

/-- The name of a custom element is read back, and has no rules of its own. -/
lemma isTagName_of_isCustomName (hname : isCustomName name = true) : IsTagName name := by
  simp only [isCustomName, Bool.and_eq_true, List.all_eq_true] at hname
  obtain ⟨⟨hhead, hchars⟩, -⟩ := hname
  obtain ⟨b, hb, hlower⟩ := (Option.any_eq_true ..).mp hhead
  refine ⟨fun hnil => ?_, fun c hc => keptInNames_of_isCustomNameChar (hchars c hc), fun c hc => ?_⟩
  · rw [hnil] at hb
    simp at hb
  · rw [Option.mem_unique hc hb]
    show (b.isUpper || b.isLower) = true
    rw [hlower, Bool.or_true]

lemma notMem_of_hyphen (hname : '-' ∈ name.toList) (names : List String)
    (hnames : ∀ n ∈ names, '-' ∉ n.toList) : name ∉ names :=
  fun hmem => hnames name hmem hname

/-- Tags whose names have a hyphen open and close ordinary elements. -/
lemma ordinary_of_hyphen (hname : '-' ∈ name.toList) :
    BodyStart.of name = .ordinary ∧ BodyEnd.of name = .ordinary := by
  have hstarts : ∀ r ∈ bodyStarts, ∀ n ∈ r.2, '-' ∉ n.toList := by decide
  have hends : ∀ r ∈ bodyEnds, ∀ n ∈ r.2, '-' ∉ n.toList := by decide
  have hstart : bodyStarts.find? (fun r => decide (name ∈ r.2)) = none :=
    List.find?_eq_none.mpr fun r hr => by simpa using notMem_of_hyphen hname r.2 (hstarts r hr)
  have hend : bodyEnds.find? (fun r => decide (name ∈ r.2)) = none :=
    List.find?_eq_none.mpr fun r hr => by simpa using notMem_of_hyphen hname r.2 (hends r hr)
  rw [BodyStart.of, hstart, BodyEnd.of, hend]
  exact ⟨rfl, rfl⟩

lemma Attribute.isQuoted_iff : a.isQuoted = true ↔ a.reserved = .none
    ∧ isPlainAttributeName a.name.toList = true
    ∧ ∀ c ∈ a.value.toList, c ≠ '"' ∧ c ≠ '&' ∧ c ≠ nul ∧ c ≠ '\r' := by
  simp [Attribute.isQuoted, and_assoc]

lemma isPlainAttributeName_iff : isPlainAttributeName s = true ↔ s.head?.any Char.isLower = true
    ∧ ∀ c ∈ s, isNameChar c = true ∨ c = '-' := by
  simp [isPlainAttributeName]

/-- A quoted attribute is read back. -/
lemma Attribute.readable_of_isQuoted (ha : a.isQuoted = true) : a.Readable fun c => [c] := by
  obtain ⟨hreserved, hname, hvalue⟩ := Attribute.isQuoted_iff.mp ha
  obtain ⟨hhead, hchars⟩ := isPlainAttributeName_iff.mp hname
  refine ⟨hreserved, fun hnil => ?_, fun c hc => ?_, fun c hc => ?_⟩
  · rw [hnil] at hhead
    exact absurd hhead (by decide)
  · rcases hchars c hc with h | rfl
    · exact keptInNames_of_isNameChar h
    · decide
  · obtain ⟨hquote, hamp, hnul, hcr⟩ := hvalue c hc
    exact ⟨hnul, hcr, .inl ⟨rfl, hamp, hquote⟩⟩

lemma attributeText_quoted (a : Attribute) : attributeText (fun c => [c]) a
    = ' ' :: (a.name.toList ++ '=' :: '"' :: (a.value.toList ++ ['"'])) := by
  rw [attributeText, flatMap_eq_self fun _ _ => rfl]
  simp

/-! ### Tags that the expansion finds -/

/-- Blanks in front of the end of a tag. -/
lemma blanksToClose?_of_close (hu : ∀ c ∈ u, isBlank c = true) :
    blanksToClose? (u ++ '/' :: '>' :: s) = some u := by
  have hdrop : (u ++ '/' :: '>' :: s).dropWhile isBlank = '/' :: '>' :: s := by
    rw [List.dropWhile_append_of_pos hu, List.dropWhile_cons_of_neg (by decide)]
  have htake : (u ++ '/' :: '>' :: s).takeWhile isBlank = u := by
    rw [List.takeWhile_append_of_pos hu, List.takeWhile_cons_of_neg (by decide), List.append_nil]
  rw [blanksToClose?, hdrop, htake]
  simp

/-- Blanks in front of anything else. -/
lemma blanksToClose?_of_ne (hu : ∀ c ∈ u, isBlank c = true) (hblank : isBlank c = false)
    (hc : c ≠ '/') : blanksToClose? (u ++ c :: s) = none := by
  have hdrop : (u ++ c :: s).dropWhile isBlank = c :: s := by
    rw [List.dropWhile_append_of_pos hu, List.dropWhile_cons_of_neg (by simp [hblank])]
  rw [blanksToClose?, hdrop]
  simp [Ne.symm hc]

/-- Characters without a part of their own in tags are passed over. -/
lemma attributesToClose?_append
    (hu : ∀ c ∈ u, isBlank c = false ∧ c ∉ ['/', '<', '>', '"', '\''])
    (hs : attributesToClose? none s = some (as', blanks)) :
    attributesToClose? none (u ++ s) = some (u ++ as', blanks) := by
  induction u with
  | nil => exact hs
  | cons c u ih =>
      obtain ⟨hblank, hmarks⟩ := hu c List.mem_cons_self
      simp only [List.mem_cons, List.not_mem_nil, or_false, not_or] at hmarks
      have hnone : blanksToClose? (c :: (u ++ s)) = none :=
        blanksToClose?_of_ne (u := []) (by simp) hblank hmarks.1
      rw [List.cons_append, attributesToClose?]
      simp only [hnone, hmarks, Bool.false_eq_true, decide_false, Bool.or_false, if_false,
        ih fun a ha => hu a (List.mem_cons_of_mem c ha), Option.map_some, List.cons_append]

/-- Quoted texts are passed over whole. -/
lemma attributesToClose?_quoted {q : Char} (hv : q ∉ v)
    (hs : attributesToClose? none s = some (as', blanks)) :
    attributesToClose? (some q) (v ++ q :: s) = some (v ++ q :: as', blanks) := by
  induction v with
  | nil =>
      rw [List.nil_append, attributesToClose?, if_pos rfl, hs]
      rfl
  | cons c v ih =>
      have hc : c ≠ q := fun heq => hv (heq ▸ List.mem_cons_self)
      rw [List.cons_append, attributesToClose?, if_neg hc,
        ih fun hmem => hv (List.mem_cons_of_mem c hmem)]
      rfl

/-- A quoted attribute behind its blank. -/
lemma attributesToClose?_attribute (ha : a.isQuoted = true)
    (hs : attributesToClose? none s = some (as', blanks)) :
    attributesToClose? none (a.name.toList ++ '=' :: '"' :: (a.value.toList ++ '"' :: s))
      = some (a.name.toList ++ '=' :: '"' :: (a.value.toList ++ '"' :: as'), blanks) := by
  obtain ⟨-, hname, hvalue⟩ := Attribute.isQuoted_iff.mp ha
  have hquoted := attributesToClose?_quoted (fun hmem => (hvalue _ hmem).1 rfl) hs
  have hmark : attributesToClose? none ('"' :: (a.value.toList ++ '"' :: s))
      = some ('"' :: (a.value.toList ++ '"' :: as'), blanks) := by
    have hnone : blanksToClose? ('"' :: (a.value.toList ++ '"' :: s)) = none :=
      blanksToClose?_of_ne (u := []) (by simp) (by decide) (by decide)
    rw [attributesToClose?]
    simp [hnone, hquoted]
  have hchars : ∀ c ∈ a.name.toList ++ ['='],
      isBlank c = false ∧ c ∉ ['/', '<', '>', '"', '\''] := by
    intro c hc
    have hmarks : ∀ m ∈ '/' :: '<' :: '>' :: '"' :: '\'' :: blankChars,
        isNameChar m = false ∧ m ≠ '-' ∧ m ≠ '=' := List.all_iff_forall_prop.mp (by decide)
    have hnot : c ∉ '/' :: '<' :: '>' :: '"' :: '\'' :: blankChars := by
      intro hmem
      obtain ⟨hchar, hhyphen, hequals⟩ := hmarks c hmem
      rcases List.mem_append.mp hc with hc | hc
      · rcases (isPlainAttributeName_iff.mp hname).2 c hc with h | h
        · rw [hchar] at h
          exact absurd h (by decide)
        · exact hhyphen h
      · exact hequals (List.mem_singleton.mp hc)
    simp only [List.mem_cons, not_or, List.not_mem_nil, not_false_eq_true, and_true] at hnot ⊢
    exact ⟨decide_eq_false hnot.2.2.2.2.2, hnot.1, hnot.2.1, hnot.2.2.1, hnot.2.2.2.1,
      hnot.2.2.2.2.1⟩
  simpa using attributesToClose?_append hchars hmark

/-- A name begins with a character that ends no attribute. -/
lemma exists_cons_of_isPlainAttributeName {name : List Char}
    (hname : isPlainAttributeName name = true) :
    ∃ b t, name = b :: t ∧ isBlank b = false ∧ b ≠ '/' := by
  obtain ⟨b, hb, hlower⟩ := (Option.any_eq_true ..).mp (isPlainAttributeName_iff.mp hname).1
  obtain ⟨t, ht⟩ := List.head?_eq_some_iff.mp hb
  have hnotLower : ∀ m ∈ '/' :: blankChars, m.isLower = false :=
    List.all_iff_forall_prop.mp (by decide)
  have hnot : b ∉ '/' :: blankChars := fun hmem => by
    rw [hnotLower b hmem] at hlower
    exact absurd hlower (by decide)
  rw [List.mem_cons, not_or] at hnot
  exact ⟨b, t, ht, decide_eq_false hnot.2, hnot.1⟩

/-- **Quoted attributes are passed over** up to the spaces in front of the end of the tag. -/
lemma attributesToClose?_attributes (has : ∀ a ∈ as, a.isQuoted = true) (n : ℕ) (s : List Char) :
    attributesToClose? none (as.flatMap (attributeText fun c => [c])
        ++ (List.replicate n ' ' ++ '/' :: '>' :: s))
      = some (as.flatMap (attributeText fun c => [c]), List.replicate n ' ') := by
  have hspaces : ∀ m, ∀ c ∈ List.replicate m ' ', isBlank c = true := fun m c hc => by
    rw [List.eq_of_mem_replicate hc]
    decide
  induction as with
  | nil =>
      have hclose := blanksToClose?_of_close (s := s) (hspaces n)
      cases n with
      | zero =>
          rw [List.flatMap_nil, List.nil_append, List.replicate_zero, List.nil_append,
            attributesToClose?]
          rw [List.replicate_zero, List.nil_append] at hclose
          simp only [hclose]
      | succ n =>
          rw [List.flatMap_nil, List.nil_append]
          rw [List.replicate_succ, List.cons_append] at hclose ⊢
          rw [attributesToClose?]
          simp only [hclose]
  | cons a as ih =>
      have ha := has a List.mem_cons_self
      obtain ⟨-, hname, -⟩ := Attribute.isQuoted_iff.mp ha
      have hrest := attributesToClose?_attribute ha (ih fun b hb => has b (List.mem_cons_of_mem a hb))
      -- the blank in front is not in front of the end of the tag
      obtain ⟨b, t, ht, hblank, hslash⟩ := exists_cons_of_isPlainAttributeName hname
      rw [List.flatMap_cons, attributeText_quoted]
      rw [ht] at hrest ⊢
      simp only [List.cons_append, List.append_assoc, List.nil_append] at hrest ⊢
      have hnone := blanksToClose?_of_ne (u := [' ']) (List.forall_mem_singleton.mpr (by decide))
        hblank hslash
        (s := t ++ '=' :: '"' :: (a.value.toList ++ '"' :: (as.flatMap (attributeText fun c => [c])
          ++ (List.replicate n ' ' ++ '/' :: '>' :: s))))
      rw [List.singleton_append] at hnone
      rw [attributesToClose?]
      simp [hnone, hrest]

/-- What the expansion reads a written tag as. -/
structure SelfClosingTag.Of (t : SelfClosingTag) (name : String) (as : List Attribute) (n : ℕ) :
    Prop where
  name_eq : t.name = name.toList
  source_eq : t.source = selfClosingText (fun c => [c]) name as n
  trimEnd_eq : trimEnd t.attributes = as.flatMap (attributeText fun c => [c])

lemma trimEnd_append (hc : isBlank c = false) : trimEnd (s ++ [c]) = s ++ [c] := by
  simp [trimEnd, hc]

/-- Attributes do not end in blanks. -/
lemma trimEnd_attributes (as : List Attribute) :
    trimEnd (as.flatMap (attributeText fun c => [c]))
      = as.flatMap (attributeText fun c => [c]) := by
  rcases List.eq_nil_or_concat as with rfl | ⟨as, a, rfl⟩
  · rfl
  · rw [List.concat_eq_append, List.flatMap_append, List.flatMap_singleton, attributeText,
      ← List.append_assoc]
    exact trimEnd_append (by decide)

/-- The name of a tag ends where something else stands. -/
lemma selfClosingTag?_cons {cs : List Char} (halpha : c.isAlpha = true)
    (hcs : ∀ a ∈ cs, isTagNameChar a = true) {b : Char} (hb : isTagNameChar b = false)
    (rest : List Char) : selfClosingTag? ('<' :: c :: (cs ++ b :: rest))
      = if isBlank b then
          (attributesToClose? none rest).map fun (as, blanks) =>
            { name := c :: cs, attributes := b :: as, blanks }
        else if b = '/' && rest.head? = some '>' then
          some { name := c :: cs, attributes := [], blanks := [] }
        else none := by
  have htake : (cs ++ b :: rest).takeWhile isTagNameChar = cs := by
    rw [List.takeWhile_append_of_pos hcs, List.takeWhile_cons_of_neg (by simp [hb]),
      List.append_nil]
  have hdrop : (cs ++ b :: rest).dropWhile isTagNameChar = b :: rest := by
    rw [List.dropWhile_append_of_pos hcs, List.dropWhile_cons_of_neg (by simp [hb])]
  rw [selfClosingTag?, if_pos halpha, hdrop, htake]

lemma selfClosingTag?_eq (hname : IsTagName name)
    (hchars : ∀ c ∈ name.toList, isTagNameChar c = true) {b : Char} (hb : isTagNameChar b = false)
    (rest : List Char) : selfClosingTag? ('<' :: name.toList ++ b :: rest)
      = if isBlank b then
          (attributesToClose? none rest).map fun (as, blanks) =>
            { name := name.toList, attributes := b :: as, blanks }
        else if b = '/' && rest.head? = some '>' then
          some { name := name.toList, attributes := [], blanks := [] }
        else none := by
  obtain ⟨c, cs, hcs⟩ := List.exists_cons_of_ne_nil hname.ne
  have halpha : c.isAlpha = true := hname.alpha c (by rw [hcs]; rfl)
  rw [hcs] at hchars ⊢
  exact selfClosingTag?_cons halpha (fun a ha => hchars a (List.mem_cons_of_mem c ha)) hb rest

/-- A tag with a space behind its name. -/
lemma selfClosingTag?_space (hname : IsTagName name)
    (hchars : ∀ c ∈ name.toList, isTagNameChar c = true) {rest : List Char}
    (hrest : attributesToClose? none rest = some (as', blanks)) :
    selfClosingTag? ('<' :: name.toList ++ ' ' :: rest)
      = some { name := name.toList, attributes := ' ' :: as', blanks } := by
  rw [selfClosingTag?_eq hname hchars (by decide), if_pos (by decide), hrest]
  rfl

/-- **A written tag is found** if its name has only characters that the expansion knows. -/
theorem exists_selfClosingTag? (hname : IsTagName name)
    (hchars : ∀ c ∈ name.toList, isTagNameChar c = true) (has : ∀ a ∈ as, a.isQuoted = true)
    (n : ℕ) (s : List Char) :
    ∃ t : SelfClosingTag, t.Of name as n
      ∧ selfClosingTag? (selfClosingText (fun c => [c]) name as n ++ s) = some t := by
  cases as with
  | nil =>
      cases n with
      | zero =>
          refine ⟨{ name := name.toList, attributes := [], blanks := [] },
            ⟨rfl, by simp [SelfClosingTag.source, selfClosingText], rfl⟩, ?_⟩
          have hfound := selfClosingTag?_eq hname hchars (b := '/') (by decide) ('>' :: s)
          rw [if_neg (by decide)] at hfound
          simpa [selfClosingText] using hfound
      | succ n =>
          refine ⟨{ name := name.toList, attributes := [' '], blanks := List.replicate n ' ' },
            ⟨rfl, by simp [SelfClosingTag.source, selfClosingText, List.replicate_succ],
              show trimEnd [' '] = [] by decide⟩, ?_⟩
          have hfound := selfClosingTag?_space hname hchars (attributesToClose?_attributes has n s)
          simpa [selfClosingText, List.replicate_succ] using hfound
  | cons a as =>
      refine ⟨{ name := name.toList, attributes := (a :: as).flatMap (attributeText fun c => [c]),
                blanks := List.replicate n ' ' },
        ⟨rfl, by simp [SelfClosingTag.source, selfClosingText], trimEnd_attributes _⟩, ?_⟩
      have hfound := selfClosingTag?_space hname hchars
        (attributesToClose?_attribute (has a List.mem_cons_self)
          (attributesToClose?_attributes (fun b hb => has b (List.mem_cons_of_mem a hb)) n s))
      simpa [selfClosingText, attributeText_quoted] using hfound

/-! ### The expansion -/

lemma toLower_of_isTagName (hname : IsTagName name) : name.toLower = name := by
  rw [← String.toList_inj, toList_toLower]
  exact (List.map_congr_left fun c hc => (hname.kept c hc).2.2).trans (List.map_id _)

/-- The characters that the expansion knows in names. -/
lemma isTagNameChar_iff : isTagNameChar c = true
    ↔ c.isUpper = true ∨ isNameChar c = true ∨ c ∈ ['_', ':', '-'] := by
  delta isTagNameChar Char.isAlphanum Char.isAlpha isNameChar
  simp only [Bool.or_eq_true, beq_iff_eq, List.mem_cons, List.not_mem_nil, or_false]
  tauto

/-- The characters that the expansion knows in names are so in lower case. -/
lemma isTagNameChar_toLower (hc : isTagNameChar c = true) : isTagNameChar c.toLower = true := by
  rcases eq_of_toLower_eq (c := c) rfl with hsame | ⟨hge, hval⟩
  · rwa [← hsame]
  rcases isTagNameChar_iff.mp hc with hupper | hname | hmark
  · have hlower : c.toLower.isLower = true := by
      delta Char.isUpper at hupper
      delta Char.isLower
      simp only [Bool.and_eq_true, decide_eq_true_eq, ge_iff_le, UInt32.le_iff_toNat_le]
        at hupper ⊢
      simp at hupper ⊢
      omega
    have hname : isNameChar c.toLower = true := by rw [isNameChar, hlower, Bool.true_or]
    exact isTagNameChar_iff.mpr (.inr (.inl hname))
  · rwa [toLower_of_isNameChar hname]
  · have hall : ∀ m ∈ ['_', ':', '-'], isTagNameChar m.toLower = true :=
      List.all_iff_forall_prop.mp (by decide)
    exact hall c hmark

/-- The name of a tag that the expansion finds has only characters that it knows. -/
lemma isTagNameChar_of_selfClosingTag? {t : SelfClosingTag} (ht : selfClosingTag? s = some t) :
    ∀ c ∈ t.name, isTagNameChar c = true := by
  have hnamed : ∀ {c : Char} {cs : List Char}, c.isAlpha = true →
      ∀ b ∈ c :: cs.takeWhile isTagNameChar, isTagNameChar b = true := by
    intro c cs halpha b hb
    rcases List.mem_cons.mp hb with rfl | hb
    · delta isTagNameChar Char.isAlphanum
      rw [halpha]
      rfl
    · exact List.all_eq_true.mp List.all_takeWhile b hb
  unfold selfClosingTag? at ht
  split at ht
  · next c cs =>
      split at ht
      · next halpha =>
          dsimp only at ht
          split at ht
          · simp at ht
          · split at ht
            · obtain ⟨_, -, rfl⟩ := Option.map_eq_some_iff.mp ht
              exact hnamed halpha
            · split at ht
              · obtain rfl := Option.some.inj ht
                exact hnamed halpha
              · simp at ht
      · simp at ht
  · simp at ht

/-- **A tag with a name that the expansion knows** is given its end tag. -/
lemma expandTags_of_known (hname : IsTagName name)
    (hchars : ∀ c ∈ name.toList, isTagNameChar c = true) (has : ∀ a ∈ as, a.isQuoted = true)
    (n : ℕ) (hs : '<' ∉ s) (haccepts : accepts name = true) :
    expandTags accepts (String.ofList (selfClosingText (fun c => [c]) name as n ++ s))
      = String.ofList (tagText (fun c => [c]) name as ++ ('<' :: '/' :: name.toList ++ '>' :: s)) := by
  obtain ⟨t, ⟨hn, hsource, htrim⟩, ht⟩ := exists_selfClosingTag? hname hchars has n s
  have hself : expandFrom accepts 0 s = s := expandFrom_eq_self s fun v t hv hfound => by
    obtain ⟨rest, rfl⟩ := source_prefix_of_selfClosingTag? hfound
    exact absurd (hv.subset (by simp [SelfClosingTag.source])) hs
  have haccepted : accepts (String.ofList t.name).toLower = true := by
    rw [hn, String.ofList_toList, toLower_of_isTagName hname, haccepts]
  rw [← hsource] at ht
  rw [expandTags, String.toList_ofList, ← hsource, expandFrom_of_selfClosingTag? ht,
    if_pos haccepted, hself, SelfClosingTag.expanded, hn, htrim]
  simp [tagText]

/-- **Where no name is accepted but one** with a character that the expansion does not know,
everything stays as it is. -/
lemma expandTags_of_unknown (hunknown : ∃ c ∈ name.toList, isTagNameChar c = false)
    (haccepts : ∀ other, accepts other = true → other = name) (content : String) :
    expandTags accepts content = content := by
  refine expandTags_eq_self fun v t _ ht => ?_
  by_contra haccepted
  have hlower := haccepts _ (Bool.eq_true_of_not_eq_false haccepted)
  obtain ⟨c, hc, hno⟩ := hunknown
  rw [← hlower, toList_toLower, String.toList_ofList] at hc
  obtain ⟨b, hb, rfl⟩ := List.mem_map.mp hc
  rw [isTagNameChar_toLower (isTagNameChar_of_selfClosingTag? ht b hb)] at hno
  exact absurd hno (by decide)

/-! ### Reading -/

namespace Construction

open Heap

/-- **An element with its end tag**, and text behind it. -/
lemma readsDeclared_tags (hname : isCustomName name = true)
    (has : ∀ a ∈ as, a.isQuoted = true) (hnd : (as.map (·.name)).Nodup) (hne : s ≠ [])
    (hs : Writes '<' (fun c => [c]) s) :
    ReadsDeclared (tagText (fun c => [c]) name as ++ ('<' :: '/' :: name.toList ++ '>' :: s))
      [.element { name := name, attributes := as } [], .text (String.ofList s)] := by
  have htag := isTagName_of_isCustomName hname
  have hhyphen : '-' ∈ name.toList := by
    simp only [isCustomName, Bool.and_eq_true, decide_eq_true_eq] at hname
    exact hname.2
  obtain ⟨hstart, hend⟩ := ordinary_of_hyphen hhyphen
  have has' := fun a ha => Attribute.readable_of_isQuoted (has a ha)
  have hgrows : Grows opened opened bodyElement.id (tagText (fun c => [c]) name as ++ []
      ++ ('<' :: '/' :: name.toList ++ ['>']) ++ s.flatMap fun c => [c]) []
      ([.element { name := name, attributes := as } []] ++ [.text (String.ofList s)]) := by
    refine Grows.append inside_opened
      (grows_tags inside_opened (n := { name := name, attributes := as }) rfl htag has' hnd
        (.inr (.inr ⟨hstart, hend⟩)) (.inr hstart) fun c' hc' _ limit =>
        ⟨c'.heap, c'.framesetOk, limit, rfl, hc'.wellFormed.plantedBelow_nil _⟩)
      fun h ok hplanted => ?_
    have hinside := inside_opened.grown hplanted ok
    exact grows_text hinside.toWithin hs hne (by simp) fun u hu _ =>
      hinside.feed_firstText (hplanted.not_endsInText (by simp)) hu
  have hdeclared : Grows declared opened bodyElement.id (tagText (fun c => [c]) name as
      ++ ('<' :: '/' :: name.toList ++ '>' :: s)) []
      [.element { name := name, attributes := as } [], .text (String.ofList s)] := by
    intro limit
    rw [List.append_assoc, build_declared_startTag htag has' hnd
      (notMem_of_hyphen hhyphen frontNames (by decide)) (.inr hstart)]
    simpa [flatMap_eq_self] using hgrows limit
  exact hdeclared.readsDeclared

/-- **An element without an end tag** takes in the text behind its tag, whose slash is a fault. -/
lemma readsDeclared_selfClosing (hname : isCustomName name = true)
    (has : ∀ a ∈ as, a.isQuoted = true) (hnd : (as.map (·.name)).Nodup) (n : ℕ) (hne : s ≠ [])
    (hs : Writes '<' (fun c => [c]) s) :
    ReadsDeclared (selfClosingText (fun c => [c]) name as n ++ s)
      [.element { name := name, attributes := as } [.text (String.ofList s)]] := by
  have htag := isTagName_of_isCustomName hname
  have hhyphen : '-' ∈ name.toList := by
    simp only [isCustomName, Bool.and_eq_true, decide_eq_true_eq] at hname
    exact hname.2
  obtain ⟨hstart, -⟩ := ordinary_of_hyphen hhyphen
  have htemplate : name ≠ "template" := by
    rintro rfl
    exact absurd hhyphen (by decide)
  set e : Element := { name := name, attributes := as } with he
  set c₁ : Construction := ({ opened with
    heap := opened.heap.grow bodyElement.id (.element e)
    stack := { id := opened.heap.size, name := e.name } :: opened.stack } :
      Construction).fault .selfClosingIgnored with hc₁
  have hinside : c₁.Inside { id := opened.heap.size, name := e.name } opened.stack opened.heap.size :=
    (inside_opened.opened htemplate).fault _
  -- the tag, and the text inside
  have hfeed : declared.feed (.startTag { name := name, attributes := as, selfClosing := true })
      = (c₁, .markup) :=
    feed_selfClosing_of_take rfl rfl (take_declared_startTag
      (notMem_of_hyphen hhyphen frontNames (by decide)) (.inr hstart))
  obtain ⟨text, htext, hnext⟩ := next_selfClosing htag
    (fun a ha => Attribute.readable_of_isQuoted (has a ha)) hnd n declared.inForeignElement none s
  have hgrows : Grows c₁ c₁ _ (s.flatMap fun c => [c]) [] [.text (String.ofList s)] :=
    grows_text hinside.toWithin hs hne (by simp) fun u hu _ =>
      hinside.feed_firstText (inside_opened.not_endsInText_grow e) hu
  obtain ⟨h, ok, limit, hbuild, hplanted⟩ := hgrows none
  have hend := hinside.grown hplanted ok
  have hwhole : declared.build (.markup none) (selfClosingText (fun c => [c]) name as n ++ s)
      = (c₁.grown h ok).checkClosed := by
    rw [htext, build_cons hnext hfeed]
    rw [List.append_nil, flatMap_eq_self fun _ _ => rfl, build, hend.finish_eq rfl] at hbuild
    exact hbuild
  rw [ReadsDeclared, hwhole, root_checkClosed, heap_checkClosed]
  exact ⟨h, rfl, rfl, PlantedBelow.element inside_opened.wellFormed inside_opened.id_lt hplanted⟩

end Construction

lemma notMem_quoted (hname : IsTagName name) (has : ∀ a ∈ as, a.isQuoted = true) :
    '\r' ∉ '<' :: name.toList ++ as.flatMap (attributeText fun c => [c]) := by
  have hattributes : '\r' ∉ as.flatMap (attributeText fun c => [c]) := fun hmem => by
    obtain ⟨a, ha, hmem⟩ := List.mem_flatMap.mp hmem
    have hread := Attribute.readable_of_isQuoted (has a ha)
    have hvalue : '\r' ∉ a.value.toList := fun h => (hread.value _ h).2.1 rfl
    have hname := notMem_of_keptInNames hread.name
    rw [attributeText_quoted] at hmem
    simp [hvalue, hname] at hmem
  have hname := notMem_of_keptInNames hname.kept
  simp [hname, hattributes]

/-- **A self-closed custom element in front of text.** If its name has only characters that the
expansion knows, the body of the document has the element, with its attributes and without
children, and the text behind it. Otherwise, where no other name is accepted, the element has taken
the text in. -/
theorem readContent_expandTags {body : String} (hname : isCustomName name = true)
    (has : ∀ a ∈ as, a.isQuoted = true) (hnd : (as.map (·.name)).Nodup) (n : ℕ)
    (hne : body ≠ "") (hbody : ∀ c ∈ body.toList, c ≠ '<' ∧ c ≠ '&' ∧ c ≠ nul ∧ c ≠ '\r')
    (haccepts : accepts name = true) :
    let content := String.ofList (selfClosingText (fun c => [c]) name as n ++ body.toList)
    ((∀ c ∈ name.toList, isTagNameChar c = true) →
        readContent (expandTags accepts content) = [.comment Construction.declarationText,
          documentElement [] [.element { name := name, attributes := as } [], .text body]])
      ∧ ((∃ c ∈ name.toList, isTagNameChar c = false) →
        (∀ other, accepts other = true → other = name) →
        readContent (expandTags accepts content) = [.comment Construction.declarationText,
          documentElement [] [.element { name := name, attributes := as } [.text body]]]) := by
  intro content
  have htag := isTagName_of_isCustomName hname
  have hne' : body.toList ≠ [] := by rwa [ne_eq, String.toList_eq_nil_iff]
  have hwrites : Writes '<' (fun c => [c]) body.toList := fun c hc => by
    obtain ⟨hlt, hamp, hnul, hcr⟩ := hbody c hc
    exact ⟨hnul, hcr, .inl ⟨rfl, hamp, hlt⟩⟩
  have hcr : '\r' ∉ body.toList := fun hmem => (hbody _ hmem).2.2.2 rfl
  have hwritten := notMem_quoted htag has
  constructor
  · intro hchars
    have hread := Construction.readsDeclared_tags hname has hnd hne' hwrites
    rw [String.ofList_toList] at hread
    rw [expandTags_of_known htag hchars has n (fun hmem => (hbody _ hmem).1 rfl) haccepts]
    refine readContent_of_readsDeclared ?_ (by rwa [String.toList_ofList])
    have hend := notMem_of_keptInNames htag.kept
    rw [String.toList_ofList, tagText]
    simp only [List.mem_append, not_or] at hwritten ⊢
    simp [hwritten, hend, hcr]
  · intro hunknown hothers
    have hread := Construction.readsDeclared_selfClosing hname has hnd n hne' hwrites
    rw [String.ofList_toList] at hread
    rw [expandTags_of_unknown hunknown hothers]
    refine readContent_of_readsDeclared ?_ (by rwa [String.toList_ofList])
    rw [String.toList_ofList, selfClosingText]
    simp only [List.mem_append, not_or] at hwritten ⊢
    simp [hwritten, hcr]

/-- An icon with an attribute, in front of text: one whose name the expansion knows, and one with a
dot in its name. -/
theorem readContent_expandTags_icon :
    let as : List Attribute := [{ name := "title", value := "a/>b" }]
    readContent (expandTags (· = "x-icon") "<x-icon title=\"a/>b\" />tail")
        = [.comment Construction.declarationText,
          documentElement [] [.element { name := "x-icon", attributes := as } [], .text "tail"]]
      ∧ readContent (expandTags (· = "x-icon.2") "<x-icon.2 title=\"a/>b\" />tail")
        = [.comment Construction.declarationText,
          documentElement [] [.element { name := "x-icon.2", attributes := as } [.text "tail"]]] := by
  intro as
  have has : ∀ a ∈ as, a.isQuoted = true := by decide
  have hbody : ∀ c ∈ "tail".toList, c ≠ '<' ∧ c ≠ '&' ∧ c ≠ nul ∧ c ≠ '\r' :=
    List.all_iff_forall_prop.mp (by decide)
  have hknown := (@readContent_expandTags "x-icon" as (· = "x-icon") "tail" (by decide) has
    (by decide) 1 (by decide) hbody (by decide)).1 (List.all_iff_forall_prop.mp (by decide))
  have hunknown := (@readContent_expandTags "x-icon.2" as (· = "x-icon.2") "tail" (by decide) has
    (by decide) 1 (by decide) hbody (by decide)).2 ⟨'.', by decide⟩ (by simp)
  exact ⟨hknown, hunknown⟩

end RichText
