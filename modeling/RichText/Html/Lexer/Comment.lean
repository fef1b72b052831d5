import RichText.Html.Lexer.Lexeme
import RichText.Html.Reference

/-!
Reading comments.

`readComment` reads a comment from behind `<!--` on: `CommentState` says how much of the end
`-->` or of a further `<!--` has been seen, `CommentDraft` what has been read, and
`CommentDraft.step` what the next character does. `readBogusComment` reads what only counts
as a comment, up to the next `>`.
-/

namespace RichText

/-- How much of the end of a comment, or of the start of another, has been seen. -/
inductive CommentState where
  | start
  | startDash
  | body
  | lessThan
  | lessThanBang
  | lessThanBangDash
  | lessThanBangDashDash
  | endDash
  | endDashes
  | endBang
  deriving DecidableEq, Repr, Inhabited

/-- A comment as far as it has been read. -/
structure CommentDraft where
  text : String := ""
  errors : List ParseError := []
  deriving Repr, Inhabited

/-- What a character does to a comment. -/
inductive CommentMove where
  | go (s : CommentState) (d : CommentDraft)
  | finish (d : CommentDraft)

namespace CommentDraft

/-- Adds text to the comment. -/
def add (d : CommentDraft) (s : String) : CommentDraft :=
  { d with text := d.text ++ s }

/-- Notes a fault. -/
def fault (d : CommentDraft) (e : ParseError) : CommentDraft :=
  { d with errors := d.errors ++ [e] }

/-- Adds a text and the character behind it to the comment, and reads on in its body. -/
def addWith (d : CommentDraft) (before : String) (c : Char) : CommentMove :=
  if c = nul then .go .body ((d.fault .badCharacter).add (before.push Reference.replacement))
  else .go .body (d.add (before.push c))

/-- A character in the body of a comment. -/
def stepBody (d : CommentDraft) (c : Char) : CommentMove :=
  if c = '<' then .go .lessThan (d.add "<")
  else if c = '-' then .go .endDash d
  else d.addWith "" c

/-- A character behind one hyphen. -/
def stepEndDash (d : CommentDraft) (c : Char) : CommentMove :=
  if c = '-' then .go .endDashes d else d.addWith "-" c

/-- A character behind two hyphens. One that does not end the comment is read as a character of
its body, so that a `<` here may begin another comment. -/
def stepEndDashes (d : CommentDraft) (c : Char) : CommentMove :=
  if c = '>' then .finish d
  else if c = '!' then .go .endBang d
  else if c = '-' then .go .endDashes (d.add "-")
  else (d.add "--").stepBody c

/-- A character of a comment. -/
def step (d : CommentDraft) (s : CommentState) (c : Char) : CommentMove :=
  match s with
  | .start =>
      if c = '-' then .go .startDash d
      else if c = '>' then .finish (d.fault .badCharacter)
      else d.addWith "" c
  | .startDash =>
      if c = '-' then .go .endDashes d
      else if c = '>' then .finish (d.fault .badCharacter)
      else d.addWith "-" c
  | .body => d.stepBody c
  | .lessThan =>
      if c = '!' then .go .lessThanBang (d.add "!")
      else if c = '<' then .go .lessThan (d.add "<")
      else d.stepBody c
  | .lessThanBang => if c = '-' then .go .lessThanBangDash d else d.stepBody c
  | .lessThanBangDash => if c = '-' then .go .lessThanBangDashDash d else d.stepEndDash c
  | .lessThanBangDashDash =>
      if c = '>' then d.stepEndDashes c else (d.fault .badCharacter).stepEndDashes c
  | .endDash => d.stepEndDash c
  | .endDashes => d.stepEndDashes c
  | .endBang =>
      if c = '-' then .go .endDash (d.add "--!")
      else if c = '>' then .finish (d.fault .badCharacter)
      else d.addWith "--!" c

/-- The tokens of the comment: its faults and the comment. -/
def tokens (d : CommentDraft) : List Token :=
  faults d.errors ++ [.comment d.text]

end CommentDraft

/-- Reads a comment to its end; the end of the text ends it too. -/
def readComment (s : CommentState) (d : CommentDraft) : List Char → Lexeme
  | [] => { tokens := (d.fault .unexpectedEnd).tokens, rest := [] }
  | c :: cs =>
      match d.step s (newline c) with
      | .go s d => readComment s d cs
      | .finish d => { tokens := d.tokens, rest := cs }

/-- A character of a comment that is not one, as it is kept. -/
def bogusChar (c : Char) : Char :=
  if c = nul then Reference.replacement else newline c

/-- Reads what counts as a comment up to the next `>` or to the end of the text. Each U+0000 in
it is a fault. -/
def readBogusComment (cs : List Char) : Lexeme :=
  let text := cs.takeWhile (· ≠ '>')
  { tokens := faults ((text.filter (· = nul)).map fun _ => .badCharacter)
      ++ [.comment (String.ofList (text.map bogusChar))]
    rest := (cs.dropWhile (· ≠ '>')).drop 1 }

/-- What is left behind a comment is no longer than the text before. -/
theorem readComment_rest_length_le (s : CommentState) (d : CommentDraft) (cs : List Char) :
    (readComment s d cs).rest.length ≤ cs.length := by
  induction cs generalizing s d with
  | nil => simp [readComment]
  | cons c cs ih =>
      simp only [readComment]
      split
      · exact Nat.le_succ_of_le (ih _ _)
      · simp

/-- What is left of a text is no longer than the text. -/
theorem length_dropWhile_le (p : Char → Bool) (cs : List Char) :
    (cs.dropWhile p).length ≤ cs.length :=
  (List.dropWhile_sublist p).length_le

/-- What is left behind a bogus comment is no longer than the text before. -/
theorem readBogusComment_rest_length_le (cs : List Char) :
    (readBogusComment cs).rest.length ≤ cs.length := by
  have := length_dropWhile_le (· ≠ '>') cs
  simp only [readBogusComment, List.length_drop]
  omega

end RichText
