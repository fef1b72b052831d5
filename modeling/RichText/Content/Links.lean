import RichText.Text.Blank
import RichText.Text.Find

/-!
Shortcode links with their brackets restored.

Writers of markup that encode addresses turn `<a href="[page]">` into
`<a href="%5Bpage%5D">`, and the shortcode between the brackets is no longer found.
`restoreLinks` puts the brackets back: in each text of the form `<a …href="%5B…%5D"`, in
any letter case, where the name follows a blank and no `>` comes before it.

A `BracketedLink` holds the pieces of such a text as they were written.
-/

namespace RichText

/-- The pieces of an `<a …href="%5B…%5D"`, as they were written: up to the quotation mark,
the code of the opening bracket, the text between, and the code of the closing one. -/
structure BracketedLink where
  lead : List Char
  opening : List Char
  body : List Char
  closing : List Char
  deriving DecidableEq, Repr

namespace BracketedLink

/-- The link as it was written. -/
def source (l : BracketedLink) : List Char :=
  l.lead ++ l.opening ++ l.body ++ l.closing ++ ['"']

/-- The link with brackets for their codes. -/
def restored (l : BracketedLink) : List Char :=
  l.lead ++ '[' :: l.body ++ [']', '"']

/-- The link with one more character in front. -/
def after (c : Char) (l : BracketedLink) : BracketedLink :=
  { l with lead := c :: l.lead }

end BracketedLink

/-- Reads `href="%5B…%5D"` off the start of a text; the text between the brackets runs to the
next quotation mark. -/
def bracketedValue? (s : List Char) : Option BracketedLink :=
  if startsIgnoringCase "href=\"%5b".toList s then
    let value := (s.drop 9).takeWhile (· ≠ '"')
    let bodyLength := value.length - 3
    if (s.drop 9).length ≠ value.length && 3 ≤ value.length
        && startsIgnoringCase "%5d".toList (value.drop bodyLength) then
      some
        { lead := s.take 6, opening := (s.drop 6).take 3
          body := value.take bodyLength, closing := value.drop bodyLength }
    else none
  else none

/-- The first bracketed value that follows a blank, with the text before it, in which no `>`
may stand. -/
def bracketedValueLater? : List Char → Option BracketedLink
  | [] => none
  | c :: cs =>
      if c = '>' then none
      else
        match if isBlank c then bracketedValue? cs else none with
        | some l => some (l.after c)
        | none => (bracketedValueLater? cs).map (·.after c)

/-- The bracketed link at the start of a text. A value that follows a further blank goes
before one that stands right behind `<a` and its blank. -/
def bracketedLink? : List Char → Option BracketedLink
  | '<' :: a :: b :: cs =>
      if a.toLower = 'a' && isBlank b then
        ((bracketedValueLater? cs).or (bracketedValue? cs)).map fun l =>
          ((l.after b).after a).after '<'
      else none
  | _ => none

/-- The text with its bracketed links restored; its first `skip` characters belong to a link
that has been written already. -/
def restoreFrom : Nat → List Char → List Char
  | _, [] => []
  | skip + 1, _ :: cs => restoreFrom skip cs
  | 0, c :: cs =>
      match bracketedLink? (c :: cs) with
      | none => c :: restoreFrom 0 cs
      | some l => l.restored ++ restoreFrom (l.source.length - 1) cs

/-- The text with the brackets of its shortcode links restored. -/
def restoreLinks (s : List Char) : List Char :=
  restoreFrom 0 s

end RichText
