import RichText.Text.Blank
import RichText.Text.Find

/-!
Self-closed tags written out as a start tag and an end tag.

HTML gives no meaning to the slash of `<name/>` on most elements, so that a self-closed
custom element would take in what follows it. `expandTags` gives the tags of the names it
is told to an end tag.

A self-closing tag (`SelfClosingTag`) is `<`, a name, then nothing or a blank followed by
characters other than angle brackets with quoted texts whole, then blanks and `/>`.
`selfClosingTag?` reads one off the start of a text; what it reads is the start of the
text (`source_prefix_of_selfClosingTag?`).
-/

namespace RichText

/-- The pieces of a self-closing tag, as they were written. -/
structure SelfClosingTag where
  name : List Char
  attributes : List Char
  blanks : List Char
  deriving DecidableEq, Repr

namespace SelfClosingTag

/-- The tag as it was written. -/
def source (t : SelfClosingTag) : List Char :=
  '<' :: t.name ++ t.attributes ++ t.blanks ++ ['/', '>']

/-- The tag as a start tag and an end tag. -/
def expanded (t : SelfClosingTag) : List Char :=
  '<' :: t.name ++ trimEnd t.attributes ++ '>' :: '<' :: '/' :: t.name ++ ['>']

end SelfClosingTag

/-- Characters that a tag name can continue with. -/
def isTagNameChar (c : Char) : Bool :=
  c.isAlphanum || c == '_' || c == ':' || c == '-'

/-- The blanks in front of `/>`, if nothing else stands there. -/
def blanksToClose? (s : List Char) : Option (List Char) :=
  if ['/', '>'].isPrefixOf (s.dropWhile isBlank) then some (s.takeWhile isBlank) else none

/-- Reads attributes up to the first place where only blanks are left before `/>`, and those
blanks; `quote` is the quotation mark that is open. Unquoted angle brackets and an
unclosed quotation end the reading without result. -/
def attributesToClose? (quote : Option Char) : List Char → Option (List Char × List Char)
  | [] => none
  | c :: cs =>
      match quote with
      | some q =>
          (attributesToClose? (if c = q then none else some q) cs).map
            fun (as, blanks) => (c :: as, blanks)
      | none =>
          match blanksToClose? (c :: cs) with
          | some blanks => some ([], blanks)
          | none =>
              if c = '<' || c = '>' then none
              else
                (attributesToClose? (if c = '"' || c = '\'' then some c else none) cs).map
                  fun (as, blanks) => (c :: as, blanks)

/-- The self-closing tag at the start of a text. -/
def selfClosingTag? : List Char → Option SelfClosingTag
  | '<' :: c :: cs =>
      if c.isAlpha then
        let name := c :: cs.takeWhile isTagNameChar
        match cs.dropWhile isTagNameChar with
        | [] => none
        | b :: rest =>
            if isBlank b then
              (attributesToClose? none rest).map fun (as, blanks) =>
                { name, attributes := b :: as, blanks }
            else if b = '/' && rest.head? = some '>' then
              some { name, attributes := [], blanks := [] }
            else none
      else none
  | _ => none

/-- The text with the self-closing tags of accepted names expanded; its first `skip`
characters belong to a tag that has been written already. -/
def expandFrom (accepts : String → Bool) : Nat → List Char → List Char
  | _, [] => []
  | skip + 1, _ :: cs => expandFrom accepts skip cs
  | 0, c :: cs =>
      match selfClosingTag? (c :: cs) with
      | none => c :: expandFrom accepts 0 cs
      | some t =>
          (if accepts (String.ofList t.name).toLower then t.expanded else t.source)
            ++ expandFrom accepts (t.source.length - 1) cs

/-- The content with the self-closing tags whose names, in lower case, are accepted written
out as a start tag and an end tag. -/
def expandTags (accepts : String → Bool) (content : String) : String :=
  String.ofList (expandFrom accepts 0 content.toList)

/-- Blanks up to the end of a tag are the start of the text, with the end behind them. -/
theorem append_of_blanksToClose? {s blanks : List Char} (h : blanksToClose? s = some blanks) :
    ∃ rest, s = blanks ++ ['/', '>'] ++ rest := by
  simp only [blanksToClose?] at h
  split at h
  · next hp =>
      simp only [Option.some.injEq] at h
      subst h
      obtain ⟨rest, hr⟩ := List.isPrefixOf_iff_prefix.mp hp
      exact ⟨rest, by rw [List.append_assoc, hr, List.takeWhile_append_dropWhile]⟩
  · simp at h

/-- Attributes up to the end of a tag are the start of the text, with the end behind them. -/
theorem append_of_attributesToClose? {q : Option Char} {s as blanks : List Char}
    (h : attributesToClose? q s = some (as, blanks)) :
    ∃ rest, s = as ++ blanks ++ ['/', '>'] ++ rest := by
  induction s generalizing q as with
  | nil => simp [attributesToClose?] at h
  | cons c cs ih =>
      cases q with
      | some q =>
          simp only [attributesToClose?, Option.map_eq_some_iff, Prod.mk.injEq, Prod.exists] at h
          obtain ⟨a, b, hs, rfl, rfl⟩ := h
          obtain ⟨rest, hr⟩ := ih hs
          exact ⟨rest, by simp [hr]⟩
      | none =>
          simp only [attributesToClose?] at h
          split at h
          · next b hb =>
              simp only [Option.some.injEq, Prod.mk.injEq] at h
              obtain ⟨rfl, rfl⟩ := h
              simpa using append_of_blanksToClose? hb
          · split at h
            · simp at h
            · simp only [Option.map_eq_some_iff, Prod.mk.injEq, Prod.exists] at h
              obtain ⟨a, b, hs, rfl, rfl⟩ := h
              obtain ⟨rest, hr⟩ := ih hs
              exact ⟨rest, by simp [hr]⟩

/-- A tag that has been read is the start of the text it was read from. -/
theorem source_prefix_of_selfClosingTag? {s : List Char} {t : SelfClosingTag}
    (h : selfClosingTag? s = some t) : ∃ rest, s = t.source ++ rest := by
  rcases s with _ | ⟨d, _ | ⟨c, cs⟩⟩
  · simp [selfClosingTag?] at h
  · simp [selfClosingTag?] at h
  · by_cases hd : d = '<'
    · subst hd
      simp only [selfClosingTag?] at h
      split at h
      · next =>
          have hcs := List.takeWhile_append_dropWhile (p := isTagNameChar) (l := cs)
          split at h
          · simp at h
          · next b rest hr =>
              rw [hr] at hcs
              split at h
              · simp only [Option.map_eq_some_iff, Prod.exists] at h
                obtain ⟨a, bl, hs, rfl⟩ := h
                obtain ⟨rest', hr'⟩ := append_of_attributesToClose? hs
                refine ⟨rest', ?_⟩
                rw [hr'] at hcs
                simpa [SelfClosingTag.source] using hcs.symm
              · split at h
                · next hb =>
                    obtain rfl := Option.some.inj h
                    rcases rest with _ | ⟨e, rest⟩
                    · simp at hb
                    · simp only [List.head?_cons, Option.some.injEq, Bool.and_eq_true,
                        decide_eq_true_eq] at hb
                      obtain ⟨rfl, rfl⟩ := hb
                      exact ⟨rest, by simpa [SelfClosingTag.source] using hcs.symm⟩
                · simp at h
      · simp at h
    · simp [selfClosingTag?, hd] at h

end RichText
