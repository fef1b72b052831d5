/-!
Blank characters, and texts without the blanks at their ends.

* `isBlank`: the white space of Unicode, which is what trimming removes;
* `isMarkupSpace`: the five characters that separate things inside markup, all
  of them blank (`isBlank_of_isMarkupSpace`);
* `trimStart`, `trimEnd`, `trim`: a text without the blanks at its start, at its
  end, or at both.
-/

namespace RichText

/-- The characters of Unicode's property `White_Space`. -/
def blankChars : List Char :=
  ['\t', '\n', '\x0b', '\x0c', '\r', ' ', '\u0085', '\u00a0', '\u1680', '\u2000', '\u2001',
    '\u2002', '\u2003', '\u2004', '\u2005', '\u2006', '\u2007', '\u2008', '\u2009', '\u200a',
    '\u2028', '\u2029', '\u202f', '\u205f', '\u3000']

/-- Whether a character is white space of Unicode. -/
def isBlank (c : Char) : Bool :=
  c ∈ blankChars

/-- White space of markup: tab, line feed, form feed, carriage return and space. -/
def isMarkupSpace (c : Char) : Bool :=
  c == '\t' || c == '\n' || c == '\x0c' || c == '\r' || c == ' '

/-- White space of markup is white space of Unicode. -/
theorem isBlank_of_isMarkupSpace {c : Char} (h : isMarkupSpace c = true) : isBlank c = true := by
  simp only [isMarkupSpace, Bool.or_eq_true, beq_iff_eq] at h
  rcases h with (((rfl | rfl) | rfl) | rfl) | rfl <;> decide

/-- The text without the blanks at its start. -/
def trimStart (s : List Char) : List Char :=
  s.dropWhile isBlank

/-- The text without the blanks at its end. -/
def trimEnd (s : List Char) : List Char :=
  (s.reverse.dropWhile isBlank).reverse

/-- The text without the blanks at its ends. -/
def trim (s : List Char) : List Char :=
  trimEnd (trimStart s)

end RichText
