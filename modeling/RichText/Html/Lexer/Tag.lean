import RichText.Html.Lexer.Lexeme
import RichText.Html.Reference
import RichText.Text.Blank

/-!
Reading tags.

`readTag` reads a tag from behind its first letter on, one character at a time: `TagState`
says what is being read, `TagDraft` what has been read, and `TagDraft.step` what the next
character does. Character references in attribute values are read whole. A tag that the
text ends in is dropped.
-/

namespace RichText

/-- The part of a tag that is being read. A value is read up to its quotation mark, or without
one up to a blank. -/
inductive TagState where
  | name
  | beforeAttribute
  | attributeName
  | afterAttributeName
  | beforeValue
  | value (quote : Option Char)
  | afterValue
  | selfClosing
  deriving DecidableEq, Repr, Inhabited

/-- A tag as far as it has been read; `pending` is the attribute that is being read. -/
structure TagDraft where
  closing : Bool
  name : String
  attributes : List Attribute := []
  pending : Option (String × String) := none
  selfClosing : Bool := false
  errors : List ParseError := []
  deriving Repr, Inhabited

/-- What a character does to a tag. -/
inductive TagMove where
  | go (s : TagState) (d : TagDraft)
  | finish (d : TagDraft)

namespace TagDraft

/-- Notes a fault. -/
def fault (d : TagDraft) (e : ParseError) : TagDraft :=
  { d with errors := d.errors ++ [e] }

/-- Notes that a character should not stand where it does. -/
def bad (d : TagDraft) : TagDraft :=
  d.fault .badCharacter

/-- Adds a character to the name of the tag. -/
def pushName (d : TagDraft) (c : Char) : TagDraft :=
  { d with name := d.name.push c }

/-- Puts the attribute that has been read with the others. The second of two attributes of the
same name is dropped. -/
def finishAttribute (d : TagDraft) : TagDraft :=
  match d.pending with
  | none => d
  | some (name, value) =>
      let d := { d with pending := none }
      if d.attributes.any (·.name = name) then d.fault .duplicateAttribute
      else { d with attributes := d.attributes ++ [{ name := name, value }] }

/-- Begins an attribute with the first character of its name. -/
def startAttribute (d : TagDraft) (c : Char) : TagDraft :=
  { d.finishAttribute with pending := some (String.singleton c, "") }

/-- Adds a character to the name of the attribute. -/
def pushAttribute (d : TagDraft) (c : Char) : TagDraft :=
  { d with pending := d.pending.map fun (name, value) => (name.push c, value) }

/-- Adds text to the value of the attribute. -/
def pushValue (d : TagDraft) (cs : List Char) : TagDraft :=
  { d with
    pending := d.pending.map fun (name, value) => (name, value ++ String.ofList cs) }

/-- Adds what a character reference stands for to the value of the attribute. -/
def pushReference (d : TagDraft) (r : Reference) : TagDraft :=
  { d with errors := d.errors ++ r.errors }.pushValue r.text

/-- The tokens of the tag, now that it has been read: its faults and the tag. -/
def tokens (d : TagDraft) : List Token :=
  let d := d.finishAttribute
  let tag := { name := d.name, attributes := d.attributes, selfClosing := d.selfClosing }
  if d.closing then
    let d := if d.attributes.isEmpty then d else d.fault .attributesOnEndTag
    let d := if d.selfClosing then d.fault .selfClosingEndTag else d
    faults d.errors ++ [.endTag tag]
  else
    faults d.errors ++ [.startTag tag]

/-- A character between attributes. -/
def stepBetween (d : TagDraft) (c : Char) : TagMove :=
  if isMarkupSpace c then .go .beforeAttribute d
  else if c = '/' then .go .selfClosing d
  else if c = '>' then .finish d
  else if c = nul then .go .attributeName (d.bad.startAttribute Reference.replacement)
  else if c ∈ ['"', '\'', '<', '='] then .go .attributeName (d.bad.startAttribute c)
  else .go .attributeName (d.startAttribute c.toLower)

/-- A character behind the name of an attribute. -/
def stepAfterAttribute (d : TagDraft) (c : Char) : TagMove :=
  if isMarkupSpace c then .go .afterAttributeName d
  else if c = '/' then .go .selfClosing d
  else if c = '=' then .go .beforeValue d
  else if c = '>' then .finish d
  else if c = nul then .go .attributeName (d.bad.startAttribute Reference.replacement)
  else if c ∈ ['"', '\'', '<'] then .go .attributeName (d.bad.startAttribute c)
  else .go .attributeName (d.startAttribute c.toLower)

/-- A character of an attribute name. -/
def stepAttribute (d : TagDraft) (c : Char) : TagMove :=
  if isMarkupSpace c then .go .afterAttributeName d
  else if c = '/' then .go .selfClosing d
  else if c = '=' then .go .beforeValue d
  else if c = '>' then .finish d
  else if c = nul then .go .attributeName (d.bad.pushAttribute Reference.replacement)
  else if c ∈ ['"', '\'', '<'] then .go .attributeName (d.bad.pushAttribute c)
  else .go .attributeName (d.pushAttribute c.toLower)

/-- A character of an attribute value. -/
def stepValue (d : TagDraft) (quote : Option Char) (c : Char) : TagMove :=
  if quote = some c then .go .afterValue d
  else if quote.isNone && isMarkupSpace c then .go .beforeAttribute d
  else if quote.isNone && c = '>' then .finish d
  else if c = nul then .go (.value quote) (d.bad.pushValue [Reference.replacement])
  else .go (.value quote) (d.pushValue [c])

/-- A character of a tag. -/
def step (d : TagDraft) (s : TagState) (c : Char) : TagMove :=
  match s with
  | .name =>
      if isMarkupSpace c then .go .beforeAttribute d
      else if c = '/' then .go .selfClosing d
      else if c = '>' then .finish d
      else if c = nul then .go .name (d.bad.pushName Reference.replacement)
      else .go .name (d.pushName c.toLower)
  | .beforeAttribute => d.stepBetween c
  | .attributeName => d.stepAttribute c
  | .afterAttributeName => d.stepAfterAttribute c
  | .beforeValue =>
      if isMarkupSpace c then .go .beforeValue d
      else if c = '"' || c = '\'' then .go (.value (some c)) d
      else if c = '>' then .finish d.bad
      else d.stepValue none c
  | .value quote => d.stepValue quote c
  | .afterValue =>
      if isMarkupSpace c then .go .beforeAttribute d
      else if c = '/' then .go .selfClosing d
      else if c = '>' then .finish d
      else d.bad.stepBetween c
  | .selfClosing =>
      if c = '>' then .finish { d with selfClosing := true }
      else d.bad.stepBetween c

end TagDraft

/-- The value that an ampersand would belong to, if one is being read or due. -/
def TagState.openValue? : TagState → Option TagState
  | .beforeValue => some (.value none)
  | .value quote => some (.value quote)
  | _ => none

/-- Reads a tag to its end. -/
def readTag (s : TagState) (d : TagDraft) (cs : List Char) : Lexeme :=
  match cs with
  | [] => { tokens := faults (d.errors ++ [.unexpectedEnd]), rest := [] }
  | c :: cs =>
      match if c = '&' then s.openValue? else none with
      | some value =>
          let r := Reference.read true cs
          readTag value (d.pushReference r) (cs.drop r.consumed)
      | none =>
          match d.step s (newline c) with
          | .go s d => readTag s d cs
          | .finish d => { tokens := d.tokens, rest := cs }
termination_by cs.length

/-- What is left behind a tag is no longer than the text before. -/
theorem readTag_rest_length_le (s : TagState) (d : TagDraft) (cs : List Char) :
    (readTag s d cs).rest.length ≤ cs.length := by
  fun_induction readTag s d cs with
  | case1 => simp
  | case2 s d c cs value h r ih => simp at ih ⊢; omega
  | case3 s d c cs h s' d' hm ih => simp; omega
  | case4 s d c cs h d' hm => simp

end RichText
