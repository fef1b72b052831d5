import RichText.Html.Lexer.Comment
import RichText.Html.Lexer.Doctype
import RichText.Html.Lexer.RawText

/-!
Cutting markup into tokens.

`Lexeme.next` takes the next step: it reads one unit of markup off a nonempty text. What a
unit is depends on the `LexMode`: in markup it is a tag, a comment, a declaration, a
character reference, a line end or a run of text; inside an element that holds text only it
is all up to and including the end tag. Every step makes the text shorter
(`length_next_rest_le`).

Runs of text are handed on in the pieces in which they are read: a character that was looked
at before stands alone, and text given back by a character reference ends its piece.
`limit` is the greatest length of the next run, if there is one.
-/

namespace RichText

/-- What the next unit is read as. -/
inductive LexMode where
  | markup (limit : Option Nat)
  | raw (kind : RawKind) (name : String)
  | plaintext (limit : Option Nat)
  deriving DecidableEq, Repr, Inhabited

/-- A unit of markup, and what the next one is read as. -/
structure LexStep where
  lexeme : Lexeme
  mode : LexMode
  deriving Repr, Inhabited

namespace Lexeme

/-- The lexeme with faults put in front. -/
def withFaults (es : List ParseError) (l : Lexeme) : Lexeme :=
  { l with tokens := faults es ++ l.tokens }

/-- The section of character data behind `<![CDATA[`, which ends at `]]>`. U+0000 is handed on
as a token of its own. -/
def characterData (held : List Char) : List Char → Lexeme
  | [] => { tokens := textTokens held.reverse ++ faults [.unexpectedEnd], rest := [] }
  | ']' :: ']' :: '>' :: cs => { tokens := textTokens held.reverse, rest := cs }
  | c :: cs =>
      if c = nul then
        let l := characterData [] cs
        { l with tokens := textTokens held.reverse ++ .null :: l.tokens }
      else characterData (newline c :: held) cs

/-- What begins with `<!`. Sections of character data are known only where `foreign` content
is allowed. -/
def declaration (foreign : Bool) (cs : List Char) : Lexeme :=
  if "--".toList.isPrefixOf cs then readComment .start {} (cs.drop 2)
  else if startsIgnoringCase "doctype".toList cs then readDoctype .start {} (cs.drop 7)
  else if foreign && "[CDATA[".toList.isPrefixOf cs then characterData [] (cs.drop 7)
  else (readBogusComment cs).withFaults [.badCharacter]

/-- What begins with `</`. -/
def closing : List Char → Lexeme
  | [] => { tokens := faults [.unexpectedEnd] ++ [.text ['<'], .text ['/']], rest := [] }
  | c :: cs =>
      if c = '>' then { tokens := faults [.badCharacter], rest := cs }
      else if c.isAlpha then
        readTag .name { closing := true, name := String.singleton c.toLower } cs
      else (readBogusComment (c :: cs)).withFaults [.badCharacter]

end Lexeme

/-- The part of a text before the first character that ends a run, at most `limit` long, and
the limit for the run behind it. -/
def run (ends : Char → Bool) (limit : Option Nat) (cs : List Char) :
    List Char × List Char × Option Nat :=
  let whole := cs.takeWhile fun c => !ends c
  match limit with
  | none => (whole, cs.drop whole.length, none)
  | some n =>
      if whole.length < n then (whole, cs.drop whole.length, some (n - whole.length))
      else (whole.take n, cs.drop n, none)

/-- Whether a character ends a run of text in markup. -/
def endsText (c : Char) : Bool :=
  c = '\r' || c = nul || c = '&' || c = '<' || c = '\n'

/-- Whether a character ends a run of text behind the tag that turns markup off. -/
def endsPlaintext (c : Char) : Bool :=
  c = '\r' || c = nul || c = '\n'

namespace LexStep

/-- A step after which markup goes on. -/
def markup (l : Lexeme) : LexStep :=
  { lexeme := l, mode := .markup none }

/-- What begins with `<`. -/
def opening (foreign : Bool) : List Char → LexStep
  | [] => markup { tokens := faults [.unexpectedEnd] ++ [.text ['<']], rest := [] }
  | c :: cs =>
      if c = '!' then markup (Lexeme.declaration foreign cs)
      else if c = '/' then markup (Lexeme.closing cs)
      else if c = '?' then markup ((readBogusComment (c :: cs)).withFaults [.badCharacter])
      else if c.isAlpha then
        markup (readTag .name { closing := false, name := String.singleton c.toLower } cs)
      else
        { lexeme := { tokens := faults [.badCharacter] ++ [.text ['<']], rest := c :: cs }
          mode := .markup (some 1) }

/-- What begins with an ampersand. -/
def reference (cs : List Char) : LexStep :=
  let r := Reference.read false cs
  { lexeme :=
      { tokens := faults r.errors ++ r.text.map fun c => .text [c], rest := cs.drop r.consumed }
    mode := .markup (if r.returned = 0 then none else some r.returned) }

/-- Reads one unit of markup. -/
def inMarkup (foreign : Bool) (limit : Option Nat) (c : Char) (cs : List Char) : LexStep :=
  if c = nul then markup { tokens := [.error .badCharacter, .null], rest := cs }
  else if c = '&' then reference cs
  else if c = '<' then opening foreign cs
  else if c = '\n' then markup { tokens := [.text ['\n']], rest := cs }
  else if c = '\r' then
    { lexeme := { tokens := [.text ['\n']], rest := cs }, mode := .markup (some 1) }
  else
    let (text, rest, limit) := run endsText (limit.map (· - 1)) cs
    { lexeme := { tokens := [.text (c :: text)], rest }, mode := .markup limit }

/-- Reads one unit behind the tag that turns markup off. -/
def inPlaintext (limit : Option Nat) (c : Char) (cs : List Char) : LexStep :=
  if c = nul then
    { lexeme := { tokens := [.error .badCharacter, .text [Reference.replacement]], rest := cs }
      mode := .plaintext none }
  else if c = '\n' then
    { lexeme := { tokens := [.text ['\n']], rest := cs }, mode := .plaintext none }
  else if c = '\r' then
    { lexeme := { tokens := [.text ['\n']], rest := cs }, mode := .plaintext (some 1) }
  else
    let (text, rest, limit) := run endsPlaintext (limit.map (· - 1)) cs
    { lexeme := { tokens := [.text (c :: text)], rest }, mode := .plaintext limit }

/-- Reads the inside of an element that holds text only, with its end tag. The text behind a
script is read anew: a mark of byte order at its start is dropped. -/
def inRaw (kind : RawKind) (name : String) (c : Char) (cs : List Char) : LexStep :=
  let l := readRaw kind name .outside [] (c :: cs)
  markup (if kind = .script then { l with rest := withoutByteOrderMark l.rest } else l)

/-- Reads one unit off the text `c :: cs`. -/
def next (foreign : Bool) (mode : LexMode) (c : Char) (cs : List Char) : LexStep :=
  match mode with
  | .markup limit => inMarkup foreign limit c cs
  | .raw kind name => inRaw kind name c cs
  | .plaintext limit => inPlaintext limit c cs

/-- What is left behind a run of characters is no longer than the text before. -/
theorem length_run_le (ends : Char → Bool) (limit : Option Nat) (cs : List Char) :
    (run ends limit cs).2.1.length ≤ cs.length := by
  unfold run
  dsimp only
  split
  · simp
  · split <;> simp

/-- What is left behind character data is no longer than the text before. -/
theorem length_characterData_le (held cs : List Char) :
    (Lexeme.characterData held cs).rest.length ≤ cs.length := by
  fun_induction Lexeme.characterData held cs with
  | case1 => simp
  | case2 => simp; omega
  | case3 held cs _ l ih => simpa [l] using Nat.le_succ_of_le ih
  | case4 held c cs _ _ ih => simpa using Nat.le_succ_of_le ih

/-- What is left behind a declaration is no longer than the text before. -/
theorem length_declaration_le (foreign : Bool) (cs : List Char) :
    (Lexeme.declaration foreign cs).rest.length ≤ cs.length := by
  have drop := fun n => (by simp : (cs.drop n).length ≤ cs.length)
  unfold Lexeme.declaration
  split
  · exact Nat.le_trans (readComment_rest_length_le _ _ _) (drop _)
  split
  · exact Nat.le_trans (readDoctype_rest_length_le _ _ _) (drop _)
  split
  · exact Nat.le_trans (length_characterData_le _ _) (drop _)
  · exact readBogusComment_rest_length_le cs

/-- What is left behind an end tag is no longer than the text before. -/
theorem length_closing_le (cs : List Char) : (Lexeme.closing cs).rest.length ≤ cs.length := by
  unfold Lexeme.closing
  split
  · simp
  · split
    · simp
    split
    · exact Nat.le_succ_of_le (readTag_rest_length_le _ _ _)
    · exact readBogusComment_rest_length_le _

/-- What is left behind an opening bracket and its tag is no longer than the text before. -/
theorem length_opening_le (foreign : Bool) (cs : List Char) :
    (opening foreign cs).lexeme.rest.length ≤ cs.length := by
  unfold opening
  split
  · simp [markup]
  · split
    · exact Nat.le_succ_of_le (length_declaration_le _ _)
    split
    · exact Nat.le_succ_of_le (length_closing_le _)
    split
    · exact readBogusComment_rest_length_le _
    split
    · exact Nat.le_succ_of_le (readTag_rest_length_le _ _ _)
    · simp

/-- Every step makes the text shorter. -/
theorem length_next_rest_le (foreign : Bool) (mode : LexMode) (c : Char) (cs : List Char) :
    (next foreign mode c cs).lexeme.rest.length ≤ cs.length := by
  unfold next
  split
  · unfold inMarkup
    split
    · simp [markup]
    split
    · simp [reference]
    split
    · exact length_opening_le _ _
    split
    · simp [markup]
    split
    · simp
    · exact length_run_le _ _ _
  · next kind name =>
      have h := readRaw_cons_rest_length_le kind name .outside [] c cs
      unfold inRaw markup
      dsimp only
      split
      · exact Nat.le_trans (length_withoutByteOrderMark_le _) h
      · exact h
  · unfold inPlaintext
    split
    · simp
    split
    · simp
    split
    · simp
    · exact length_run_le _ _ _

end LexStep

end RichText
