import RichText.Html.Token

/-!
Single steps of cutting markup into tokens.

Before it is cut, a text loses the mark of byte order at its start (`withoutByteOrderMark`) and
has its line ends joined (`joinNewlines`): a carriage return with a line feed is one line end,
kept as the carriage return. Inside tokens a line end is always a line feed (`newline`).

A `Lexeme` is what one step yields: tokens in order, and the text that is left.
-/

namespace RichText

/-- The text without the mark of byte order at its start. -/
def withoutByteOrderMark : List Char → List Char
  | '\ufeff' :: cs => cs
  | cs => cs

/-- Without the mark of byte order a text is no longer than with it. -/
theorem length_withoutByteOrderMark_le (cs : List Char) :
    (withoutByteOrderMark cs).length ≤ cs.length := by
  unfold withoutByteOrderMark
  split <;> simp

/-- The text with the line feeds that follow a carriage return left out. -/
def joinNewlines : List Char → List Char
  | '\r' :: '\n' :: cs => '\r' :: joinNewlines cs
  | c :: cs => c :: joinNewlines cs
  | [] => []

/-- The line end that a carriage return stands for; other characters stand for themselves. -/
def newline (c : Char) : Char :=
  if c = '\r' then '\n' else c

/-- The character U+0000, which markup must not hold. -/
def nul : Char := '\x00'

/-- What one step of cutting yields. -/
structure Lexeme where
  tokens : List Token
  rest : List Char
  deriving Repr, Inhabited

/-- The faults as tokens, in order. -/
def faults (es : List ParseError) : List Token :=
  es.map .error

end RichText
