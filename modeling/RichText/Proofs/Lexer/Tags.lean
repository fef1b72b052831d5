import RichText.Proofs.Lexer.Written

/-!
Written tags read back.

* `readTag_name`, `readTag_attribute`, `readTag_value`: the parts of a tag;
* `exists_readTag_attributes`: the attributes of a tag, from behind its name on;
* `next_startTag`, `next_selfClosing`, `next_endTag`: **a written tag is one unit**, and its token
  is the tag.
-/

namespace RichText

/-- Characters that names of tags and attributes can consist of without being changed. -/
def KeptInNames (c : Char) : Prop :=
  isMarkupSpace c = false ∧ c ∉ ['/', '>', '=', nul, '"', '\'', '<', '&'] ∧ c.toLower = c

instance (c : Char) : Decidable (KeptInNames c) :=
  inferInstanceAs (Decidable (_ ∧ _ ∧ _))

/-- An attribute as it is written, given the forms of the characters of its value. -/
def attributeText (form : Char → List Char) (a : Attribute) : List Char :=
  ' ' :: a.name.toList ++ '=' :: '"' :: a.value.toList.flatMap form ++ ['"']

/-- A start tag as it is written. -/
def tagText (form : Char → List Char) (name : String) (as : List Attribute) : List Char :=
  '<' :: name.toList ++ as.flatMap (attributeText form) ++ ['>']

/-- A tag that closes itself as it is written, with spaces in front of its slash. -/
def selfClosingText (form : Char → List Char) (name : String) (as : List Attribute) (n : ℕ) :
    List Char :=
  '<' :: name.toList ++ as.flatMap (attributeText form) ++ List.replicate n ' ' ++ ['/', '>']

/-- Whether a name is read back from the tags that have it. -/
structure IsTagName (name : String) : Prop where
  ne : name.toList ≠ []
  kept : ∀ c ∈ name.toList, KeptInNames c
  alpha : ∀ c ∈ name.toList.head?, c.isAlpha = true

/-- Whether an attribute is read back from its written form. -/
structure Attribute.Readable (form : Char → List Char) (a : Attribute) : Prop where
  reserved : a.reserved = .none
  name_ne : a.name.toList ≠ []
  name : ∀ c ∈ a.name.toList, KeptInNames c
  value : Writes '"' form a.value.toList

variable {form : Char → List Char} {d d' : TagDraft} {s s' : TagState} {c : Char}
  {cs rest : List Char}

namespace KeptInNames

lemma newline_eq (hc : KeptInNames c) : newline c = c := by
  refine if_neg ?_
  rintro rfl
  exact absurd hc.1 (by decide)

end KeptInNames

/-! ### Single characters -/

lemma readTag_go (hc : c ≠ '&') (hstep : d.step s (newline c) = .go s' d') :
    readTag s d (c :: cs) = readTag s' d' cs := by
  rw [readTag, if_neg hc]
  simp only [hstep]

lemma readTag_finish (hc : c ≠ '&') (hstep : d.step s (newline c) = .finish d') :
    readTag s d (c :: cs) = { tokens := d'.tokens, rest := cs } := by
  rw [readTag, if_neg hc]
  simp only [hstep]

lemma readTag_reference {quote : Option Char} {u : List Char} (hu : Reference.Stands u c) :
    readTag (.value quote) d ('&' :: (u ++ cs)) = readTag (.value quote) (d.pushValue [c]) cs := by
  obtain ⟨returned, hread⟩ := hu true cs
  rw [readTag, if_pos rfl]
  simp only [TagState.openValue?, hread, List.drop_left', TagDraft.pushReference, List.append_nil]

/-! ### The parts of a tag -/

lemma push_append_ofList (name : String) (c : Char) (cs : List Char) :
    name.push c ++ String.ofList cs = name ++ String.ofList (c :: cs) := by
  rw [← String.toList_inj]
  simp

/-- The rest of the name of a tag. -/
lemma readTag_name (hcs : ∀ c ∈ cs, KeptInNames c) :
    readTag .name d (cs ++ rest)
      = readTag .name { d with name := d.name ++ String.ofList cs } rest := by
  induction cs generalizing d with
  | nil => simp
  | cons c cs ih =>
      have hc := hcs c List.mem_cons_self
      obtain ⟨hspace, hmarks, hlower⟩ := hc
      simp only [List.mem_cons, List.not_mem_nil, or_false, not_or] at hmarks
      have hstep : d.step .name (newline c) = .go .name (d.pushName c) := by
        rw [(hcs c List.mem_cons_self).newline_eq]
        simp [TagDraft.step, hspace, hmarks, hlower]
      rw [List.cons_append, readTag_go hmarks.2.2.2.2.2.2.2 hstep,
        ih fun a ha => hcs a (List.mem_cons_of_mem c ha)]
      rw [TagDraft.pushName, push_append_ofList]

/-- The rest of the name of an attribute. -/
lemma readTag_attributeName {name value : String} (hcs : ∀ c ∈ cs, KeptInNames c) :
    readTag .attributeName { d with pending := some (name, value) } (cs ++ rest)
      = readTag .attributeName { d with pending := some (name ++ String.ofList cs, value) } rest := by
  induction cs generalizing name with
  | nil => simp
  | cons c cs ih =>
      have hc := hcs c List.mem_cons_self
      obtain ⟨hspace, hmarks, hlower⟩ := hc
      simp only [List.mem_cons, List.not_mem_nil, or_false, not_or] at hmarks
      have hstep : TagDraft.step { d with pending := some (name, value) } .attributeName (newline c)
          = .go .attributeName { d with pending := some (name.push c, value) } := by
        rw [(hcs c List.mem_cons_self).newline_eq]
        simp [TagDraft.step, TagDraft.stepAttribute, TagDraft.pushAttribute, hspace, hmarks, hlower]
      rw [List.cons_append, readTag_go hmarks.2.2.2.2.2.2.2 hstep,
        ih fun a ha => hcs a (List.mem_cons_of_mem c ha), push_append_ofList]

/-- A value in quotation marks. -/
lemma readTag_value {name value : String} {cs : List Char} (hcs : Writes '"' form cs) :
    readTag (.value (some '"')) { d with pending := some (name, value) } (cs.flatMap form ++ rest)
      = readTag (.value (some '"'))
          { d with pending := some (name, value ++ String.ofList cs) } rest := by
  induction cs generalizing value with
  | nil => simp
  | cons c cs ih =>
      obtain ⟨⟨hnul, hcr, hc⟩, hcs⟩ := writes_cons.mp hcs
      have hpush : TagDraft.pushValue { d with pending := some (name, value) } [c]
          = { d with pending := some (name, value.push c) } := by
        simp [TagDraft.pushValue]
      rw [List.flatMap_cons, List.append_assoc]
      rcases hc with ⟨hform, hamp, hquote⟩ | ⟨u, hform, hstands⟩
      · have hstep : TagDraft.step { d with pending := some (name, value) } (.value (some '"'))
            (newline c) = .go (.value (some '"')) { d with pending := some (name, value.push c) } := by
          rw [newline, if_neg hcr, ← hpush]
          simp [TagDraft.step, TagDraft.stepValue, hnul, Ne.symm hquote]
        rw [hform, List.singleton_append, readTag_go hamp hstep, ih hcs, push_append_ofList]
      · rw [hform, List.cons_append, readTag_reference hstands, hpush, ih hcs, push_append_ofList]

/-- **An attribute**, behind the name of the tag or another attribute. -/
lemma readTag_attribute {a : Attribute} (ha : a.Readable form) (hs : s = .name ∨ s = .afterValue) :
    readTag s d (attributeText form a ++ rest)
      = readTag .afterValue { d.finishAttribute with pending := some (a.name, a.value) } rest := by
  obtain ⟨c, cs, hname⟩ := List.exists_cons_of_ne_nil ha.name_ne
  have hkept := ha.name
  rw [hname] at hkept
  obtain ⟨hspace, hmarks, hlower⟩ := hkept c List.mem_cons_self
  simp only [List.mem_cons, List.not_mem_nil, or_false, not_or] at hmarks
  have hblank : d.step s (newline ' ') = .go .beforeAttribute d := by
    rcases hs with rfl | rfl <;> rfl
  have hfirst : d.step .beforeAttribute (newline c)
      = .go .attributeName { d.finishAttribute with pending := some (String.singleton c, "") } := by
    rw [(hkept c List.mem_cons_self).newline_eq]
    simp [TagDraft.step, TagDraft.stepBetween, TagDraft.startAttribute, hspace, hmarks, hlower]
  have hwhole : String.singleton c ++ String.ofList cs = a.name := by
    rw [← String.toList_inj, hname]
    simp
  have hvalue : "" ++ String.ofList a.value.toList = a.value := by simp
  have hquote : newline '"' = '"' := rfl
  have htext : attributeText form a ++ rest
      = ' ' :: c :: (cs ++ '=' :: '"' :: (a.value.toList.flatMap form ++ '"' :: rest)) := by
    rw [attributeText, hname]
    simp
  rw [htext, readTag_go (by decide) hblank, readTag_go hmarks.2.2.2.2.2.2.2 hfirst,
    readTag_attributeName fun a ha => hkept a (List.mem_cons_of_mem c ha), hwhole,
    readTag_go (by decide) rfl, readTag_go (by decide) rfl, hquote, readTag_value ha.value, hvalue,
    readTag_go (by decide) rfl]

/-! ### Whole tags -/

/-- Attributes of different names are all kept. -/
lemma finishAttribute_pending {a : Attribute} (ha : a.reserved = .none)
    (hnew : a.name ∉ d.attributes.map (·.name)) :
    TagDraft.finishAttribute { d with pending := some (a.name, a.value) }
      = { d with attributes := d.attributes ++ [a], pending := none } := by
  have hany : d.attributes.any (fun b => decide (b.name = a.name)) = false := by
    rw [List.any_eq_false]
    intro b hb
    simpa using fun heq => hnew (List.mem_map.mpr ⟨b, hb, heq⟩)
  have hattribute : ({ name := a.name, value := a.value } : Attribute) = a := by
    cases a
    simpa using ha.symm
  simp only [TagDraft.finishAttribute, hany, Bool.false_eq_true, if_false, hattribute]

/-- **The attributes of a tag** from behind its name or an attribute on. -/
theorem exists_readTag_attributes {name : String} (as bs : List Attribute)
    (hs : s = .name ∨ s = .afterValue)
    (hd : d.finishAttribute = { closing := false, name := name, attributes := bs })
    (has : ∀ a ∈ as, a.Readable form) (hnd : ((bs ++ as).map (·.name)).Nodup)
    (rest : List Char) :
    ∃ s' d', (s' = .name ∨ s' = .afterValue)
      ∧ d'.finishAttribute = { closing := false, name := name, attributes := bs ++ as }
      ∧ readTag s d (as.flatMap (attributeText form) ++ rest) = readTag s' d' rest := by
  induction as generalizing s d bs with
  | nil => exact ⟨s, d, hs, by rw [hd, List.append_nil], rfl⟩
  | cons a as ih =>
      have ha := has a List.mem_cons_self
      have hnew : a.name ∉ bs.map (·.name) := by
        rw [List.map_append, List.map_cons] at hnd
        exact fun hmem => (List.nodup_append.mp hnd).2.2 _ hmem _ List.mem_cons_self rfl
      have hd' := finishAttribute_pending (d := d.finishAttribute) ha.reserved (by rwa [hd])
      obtain ⟨s', d', hs', hdraft, hread⟩ := ih (bs ++ [a]) (.inr rfl) (by rw [hd', hd])
        (fun b hb => has b (List.mem_cons_of_mem a hb)) (by simpa using hnd)
      refine ⟨s', d', hs', by rw [hdraft, List.append_assoc, List.singleton_append], ?_⟩
      rw [List.flatMap_cons, List.append_assoc, readTag_attribute ha hs, hread]

/-- The end of a start tag. -/
lemma readTag_close {name : String} {as : List Attribute} (hs : s = .name ∨ s = .afterValue)
    (hd : d.finishAttribute = { closing := false, name := name, attributes := as }) :
    readTag s d ('>' :: rest)
      = { tokens := [.startTag { name := name, attributes := as }], rest } := by
  have hstep : d.step s (newline '>') = .finish d := by
    rcases hs with rfl | rfl <;> rfl
  rw [readTag_finish (by decide) hstep, TagDraft.tokens, hd]
  simp [faults]

lemma finishAttribute_selfClosing (d : TagDraft) :
    TagDraft.finishAttribute { d with selfClosing := true }
      = { d.finishAttribute with selfClosing := true } := by
  simp only [TagDraft.finishAttribute]
  split
  · rfl
  · split <;> rfl

/-- Spaces and the slash of a tag that closes itself, with the end of the tag. -/
lemma readTag_selfClosing (n : ℕ) (hs : s = .name ∨ s = .beforeAttribute ∨ s = .afterValue) :
    readTag s d (List.replicate n ' ' ++ '/' :: '>' :: rest)
      = { tokens := TagDraft.tokens { d with selfClosing := true }, rest } := by
  induction n generalizing s with
  | zero =>
      have hslash : d.step s (newline '/') = .go .selfClosing d := by
        rcases hs with rfl | rfl | rfl <;> rfl
      rw [List.replicate_zero, List.nil_append, readTag_go (by decide) hslash,
        readTag_finish (by decide) rfl]
  | succ n ih =>
      have hspace : d.step s (newline ' ') = .go .beforeAttribute d := by
        rcases hs with rfl | rfl | rfl <;> rfl
      rw [List.replicate_succ, List.cons_append, readTag_go (by decide) hspace,
        ih (.inr (.inl rfl))]

/-- A tag from its name on. -/
lemma next_opening {name : String} (hname : IsTagName name) (foreign : Bool) (limit : Option ℕ)
    (rest : List Char) :
    LexStep.next foreign (.markup limit) '<' (name.toList ++ rest)
      = LexStep.markup (readTag .name { closing := false, name := name } rest) := by
  obtain ⟨c, cs, hcs⟩ := List.exists_cons_of_ne_nil hname.ne
  obtain ⟨-, hkept, halpha⟩ := hname
  rw [hcs] at hkept halpha
  have hc := hkept c List.mem_cons_self
  have halpha := halpha c rfl
  have hne : c ≠ '!' ∧ c ≠ '/' ∧ c ≠ '?' := by
    refine ⟨?_, ?_, ?_⟩ <;> (rintro rfl; exact absurd halpha (by decide))
  have hopen : LexStep.next foreign (.markup limit) '<' (c :: (cs ++ rest))
      = LexStep.opening foreign (c :: (cs ++ rest)) := rfl
  have hwhole : String.singleton c.toLower ++ String.ofList cs = name := by
    rw [← String.toList_inj, hcs, hc.2.2]
    simp
  rw [hcs, List.cons_append, hopen, LexStep.opening, if_neg hne.1, if_neg hne.2.1, if_neg hne.2.2,
    if_pos halpha, readTag_name fun a ha => hkept a (List.mem_cons_of_mem c ha), hwhole]

/-- **A written start tag is one unit.** -/
theorem next_startTag {name : String} {as : List Attribute} (hname : IsTagName name)
    (has : ∀ a ∈ as, a.Readable form) (hnd : (as.map (·.name)).Nodup) (foreign : Bool)
    (limit : Option ℕ) (rest : List Char) :
    ∃ cs, tagText form name as ++ rest = '<' :: cs ∧
      LexStep.next foreign (.markup limit) '<' cs
        = { lexeme := { tokens := [.startTag { name := name, attributes := as }], rest }
            mode := .markup none } := by
  refine ⟨name.toList ++ (as.flatMap (attributeText form) ++ '>' :: rest), by simp [tagText], ?_⟩
  obtain ⟨s, d, hs, hd, hread⟩ := exists_readTag_attributes (s := .name)
    (d := { closing := false, name := name }) as [] (.inl rfl) rfl has (by simpa using hnd)
    ('>' :: rest)
  rw [next_opening hname, hread, readTag_close hs hd]
  rfl

/-- **A written tag that closes itself is one unit**, with spaces in front of its slash. -/
theorem next_selfClosing {name : String} {as : List Attribute} (hname : IsTagName name)
    (has : ∀ a ∈ as, a.Readable form) (hnd : (as.map (·.name)).Nodup) (n : ℕ) (foreign : Bool)
    (limit : Option ℕ) (rest : List Char) :
    ∃ cs, selfClosingText form name as n ++ rest = '<' :: cs ∧
      LexStep.next foreign (.markup limit) '<' cs
        = { lexeme :=
              { tokens := [.startTag { name := name, attributes := as, selfClosing := true }], rest }
            mode := .markup none } := by
  refine ⟨name.toList ++ (as.flatMap (attributeText form)
    ++ (List.replicate n ' ' ++ '/' :: '>' :: rest)), by simp [selfClosingText], ?_⟩
  obtain ⟨s, d, hs, hd, hread⟩ := exists_readTag_attributes (s := .name)
    (d := { closing := false, name := name }) as [] (.inl rfl) rfl has (by simpa using hnd)
    (List.replicate n ' ' ++ '/' :: '>' :: rest)
  have htokens : TagDraft.tokens { d with selfClosing := true }
      = [.startTag { name := name, attributes := as, selfClosing := true }] := by
    rw [TagDraft.tokens, finishAttribute_selfClosing, hd]
    simp [faults]
  rw [next_opening hname, hread, readTag_selfClosing n (hs.imp_right .inr), htokens]
  rfl

/-- **A written end tag is one unit.** -/
theorem next_endTag {name : String} (hname : IsTagName name) (foreign : Bool) (limit : Option ℕ)
    (rest : List Char) :
    LexStep.next foreign (.markup limit) '<' ('/' :: name.toList ++ '>' :: rest)
      = { lexeme := { tokens := [.endTag { name := name }], rest }, mode := .markup none } := by
  obtain ⟨c, cs, hcs⟩ := List.exists_cons_of_ne_nil hname.ne
  obtain ⟨-, hkept, halpha⟩ := hname
  rw [hcs] at hkept halpha
  have hc := hkept c List.mem_cons_self
  have halpha := halpha c rfl
  have hclose : LexStep.next foreign (.markup limit) '<' ('/' :: name.toList ++ '>' :: rest)
      = LexStep.markup (Lexeme.closing (name.toList ++ '>' :: rest)) := rfl
  have hend : c ≠ '>' := by
    rintro rfl
    exact absurd halpha (by decide)
  have hwhole : String.singleton c.toLower ++ String.ofList cs = name := by
    rw [← String.toList_inj, hcs, hc.2.2]
    simp
  rw [hclose, hcs, List.cons_append, Lexeme.closing, if_neg hend, if_pos halpha,
    readTag_name fun a ha => hkept a (List.mem_cons_of_mem c ha), hwhole,
    readTag_finish (by decide) rfl]
  rfl

end RichText
