import RichText.Html.Lexer.Lexeme
import RichText.Html.Reference
import RichText.Text.Blank
import RichText.Text.Find

/-!
Reading document type declarations.

`readDoctype` reads a declaration from behind `<!DOCTYPE` on: a name, then a public
identifier, a system identifier, or both. A declaration that cannot be read as such is
marked as malformed.
-/

namespace RichText

/-- The two identifiers of a document type. -/
inductive DoctypePart where
  | publicId
  | systemId
  deriving DecidableEq, Repr, Inhabited

/-- The part of a declaration that is being read. -/
inductive DoctypeState where
  | start
  | beforeName
  | name
  | afterName
  | afterKeyword (p : DoctypePart)
  | beforeId (p : DoctypePart)
  | id (p : DoctypePart) (quote : Char)
  | afterId (p : DoctypePart)
  | betweenIds
  | ignored
  deriving DecidableEq, Repr, Inhabited

/-- A declaration as far as it has been read. -/
structure DoctypeDraft where
  doctype : Doctype := {}
  errors : List ParseError := []
  deriving Repr, Inhabited

/-- What a character does to a declaration. -/
inductive DoctypeMove where
  | go (s : DoctypeState) (d : DoctypeDraft)
  | finish (d : DoctypeDraft)

namespace DoctypeDraft

/-- Notes a fault. -/
def fault (d : DoctypeDraft) (e : ParseError) : DoctypeDraft :=
  { d with errors := d.errors ++ [e] }

/-- Marks the declaration as malformed. -/
def malformed (d : DoctypeDraft) : DoctypeDraft :=
  { d with doctype := { d.doctype with malformed := true } }

/-- Notes that a character does not fit and that the declaration is malformed. -/
def broken (d : DoctypeDraft) : DoctypeDraft :=
  (d.fault .badCharacter).malformed

/-- Adds a character to the name. -/
def pushName (d : DoctypeDraft) (c : Char) : DoctypeDraft :=
  { d with doctype := { d.doctype with name := some ((d.doctype.name.getD "").push c) } }

/-- Gives an identifier a new value. -/
def mapId (d : DoctypeDraft) (f : String → String) : DoctypePart → DoctypeDraft
  | .publicId =>
      { d with doctype := { d.doctype with publicId := some (f (d.doctype.publicId.getD "")) } }
  | .systemId =>
      { d with doctype := { d.doctype with systemId := some (f (d.doctype.systemId.getD "")) } }

/-- Begins an identifier. -/
def startId (d : DoctypeDraft) (p : DoctypePart) (quote : Char) : DoctypeMove :=
  .go (.id p quote) (d.mapId (fun _ => "") p)

/-- A character in front of the name. -/
def stepBeforeName (d : DoctypeDraft) (c : Char) : DoctypeMove :=
  if isMarkupSpace c then .go .beforeName d
  else if c = nul then .go .name ((d.fault .badCharacter).pushName Reference.replacement)
  else if c = '>' then .finish d.broken
  else .go .name (d.pushName c.toLower)

/-- A character of the part of a declaration that is passed over. -/
def stepIgnored (d : DoctypeDraft) (c : Char) : DoctypeMove :=
  if c = '>' then .finish d
  else if c = nul then .go .ignored (d.fault .badCharacter)
  else .go .ignored d

/-- A character of a declaration. One that does not fit is the first that is passed over. -/
def step (d : DoctypeDraft) (s : DoctypeState) (c : Char) : DoctypeMove :=
  match s with
  | .start =>
      if isMarkupSpace c || c = '>' then d.stepBeforeName c
      else (d.fault .badCharacter).stepBeforeName c
  | .beforeName => d.stepBeforeName c
  | .name =>
      if isMarkupSpace c then .go .afterName d
      else if c = '>' then .finish d
      else if c = nul then .go .name ((d.fault .badCharacter).pushName Reference.replacement)
      else .go .name (d.pushName c.toLower)
  | .afterName =>
      if isMarkupSpace c then .go .afterName d
      else if c = '>' then .finish d
      else d.broken.stepIgnored c
  | .afterKeyword p =>
      if isMarkupSpace c then .go (.beforeId p) d
      else if c = '"' || c = '\'' then (d.fault .badCharacter).startId p c
      else if c = '>' then .finish d.broken
      else d.broken.stepIgnored c
  | .beforeId p =>
      if isMarkupSpace c then .go (.beforeId p) d
      else if c = '"' || c = '\'' then d.startId p c
      else if c = '>' then .finish d.broken
      else d.broken.stepIgnored c
  | .id p quote =>
      if c = quote then .go (.afterId p) d
      else if c = nul then
        .go (.id p quote) ((d.fault .badCharacter).mapId (·.push Reference.replacement) p)
      else if c = '>' then .finish d.broken
      else .go (.id p quote) (d.mapId (·.push c) p)
  | .afterId .publicId =>
      if isMarkupSpace c then .go .betweenIds d
      else if c = '>' then .finish d
      else if c = '"' || c = '\'' then (d.fault .badCharacter).startId .systemId c
      else d.broken.stepIgnored c
  | .afterId .systemId =>
      if isMarkupSpace c then .go (.afterId .systemId) d
      else if c = '>' then .finish d
      else (d.fault .badCharacter).stepIgnored c
  | .betweenIds =>
      if isMarkupSpace c then .go .betweenIds d
      else if c = '>' then .finish d
      else if c = '"' || c = '\'' then d.startId .systemId c
      else d.broken.stepIgnored c
  | .ignored => d.stepIgnored c

/-- What the end of the text does to a declaration. -/
def atEnd (d : DoctypeDraft) : DoctypeState → DoctypeDraft
  | .ignored => d
  | _ => (d.fault .unexpectedEnd).malformed

/-- The tokens of the declaration: its faults and the declaration. -/
def tokens (d : DoctypeDraft) : List Token :=
  faults d.errors ++ [.doctype d.doctype]

end DoctypeDraft

/-- The identifier that a keyword at the start of a text announces. -/
def doctypeKeyword? (s : List Char) : Option DoctypePart :=
  if startsIgnoringCase "public".toList s then some .publicId
  else if startsIgnoringCase "system".toList s then some .systemId
  else none

/-- Reads a declaration to its end. -/
def readDoctype (s : DoctypeState) (d : DoctypeDraft) (cs : List Char) : Lexeme :=
  match cs with
  | [] => { tokens := (d.atEnd s).tokens, rest := [] }
  | c :: cs =>
      match if s = .afterName then doctypeKeyword? (c :: cs) else none with
      | some p => readDoctype (.afterKeyword p) d (cs.drop 5)
      | none =>
          match d.step s (newline c) with
          | .go s d => readDoctype s d cs
          | .finish d => { tokens := d.tokens, rest := cs }
termination_by cs.length

/-- What is left behind a declaration is no longer than the text before. -/
theorem readDoctype_rest_length_le (s : DoctypeState) (d : DoctypeDraft) (cs : List Char) :
    (readDoctype s d cs).rest.length ≤ cs.length := by
  fun_induction readDoctype s d cs with
  | case1 => simp
  | case2 s d c cs p h ih => simp at ih ⊢; omega
  | case3 s d c cs h s' d' hm ih => simp; omega
  | case4 s d c cs h d' hm => simp

end RichText
