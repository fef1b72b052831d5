import RichText.Html.Reference.Names
import RichText.Html.Token

/-!
Character references: characters written by name or by number.

`Reference.read` looks at the text behind an ampersand. What it finds is the text that the
reference stands for, the number of characters that it takes up, and the faults met on the
way. Where no reference stands, the ampersand stands for itself and nothing is taken up.

Reading a name goes on as long as some name continues like the text, and gives back what it
has read beyond the longest name. The length of what it gives back (`returned`) is kept,
since text is handed on in the pieces in which it has been read.
-/

namespace RichText

/-- The outcome of reading a character reference. -/
structure Reference where
  text : List Char := ['&']
  consumed : Nat := 0
  returned : Nat := 0
  errors : List ParseError := []
  deriving DecidableEq, Repr, Inhabited

namespace Reference

/-! ### References by number -/

/-- The characters that numbers from 128 to 159 stand for, if not themselves. -/
def windowsChars : List (Option Char) :=
  [some '\u20ac', none, some '\u201a', some '\u0192', some '\u201e', some '\u2026', some '\u2020',
    some '\u2021', some '\u02c6', some '\u2030', some '\u0160', some '\u2039', some '\u0152', none,
    some '\u017d', none, none, some '\u2018', some '\u2019', some '\u201c', some '\u201d',
    some '\u2022', some '\u2013', some '\u2014', some '\u02dc', some '\u2122', some '\u0161',
    some '\u203a', some '\u0153', none, some '\u017e', some '\u0178']

/-- The replacement character, which stands for what cannot be represented. -/
def replacement : Char := '\ufffd'

/-- Whether a number stands for a control character or for no character at all. -/
def isDoubtful (n : Nat) : Bool :=
  (1 ≤ n && n ≤ 8) || n == 0x0B || (0x0D ≤ n && n ≤ 0x1F) || n == 0x7F
    || (0xFDD0 ≤ n && n ≤ 0xFDEF) || n % 0x10000 == 0xFFFE || n % 0x10000 == 0xFFFF

/-- The character that a number stands for, and whether the number is free of faults. -/
def charOfNumber (n : Nat) : Char × Bool :=
  if n = 0 || 0x10FFFF < n || (0xD800 ≤ n && n ≤ 0xDFFF) then (replacement, false)
  else if 0x80 ≤ n && n ≤ 0x9F then
    (((windowsChars[n - 0x80]?).join).getD (Char.ofNat n), false)
  else (Char.ofNat n, !isDoubtful n)

/-- The value of a digit. -/
def digit? (base : Nat) (c : Char) : Option Nat :=
  let value :=
    if '0' ≤ c ∧ c ≤ '9' then some (c.toNat - '0'.toNat)
    else if 'a' ≤ c ∧ c ≤ 'f' then some (c.toNat - 'a'.toNat + 10)
    else if 'A' ≤ c ∧ c ≤ 'F' then some (c.toNat - 'A'.toNat + 10)
    else none
  value.filter (· < base)

/-- The value of a sequence of digits. -/
def numberOf (base : Nat) (digits : List Char) : Nat :=
  digits.foldl (fun n c => n * base + (digit? base c).getD 0) 0

/-- Reads a number; `marked` counts the characters between the ampersand and its digits. -/
def readNumber (base marked : Nat) (s : List Char) : Reference :=
  let digits := s.takeWhile fun c => (digit? base c).isSome
  let rest := s.dropWhile fun c => (digit? base c).isSome
  if digits.isEmpty then { returned := marked, errors := [.numberWithoutDigits] }
  else
    let (c, clean) := charOfNumber (numberOf base digits)
    let fault := if clean then [] else [.invalidNumber]
    let consumed := marked + digits.length
    match rest with
    | ';' :: _ => { text := [c], consumed := consumed + 1, errors := fault }
    | [] => { text := [c], consumed, errors := .numberAtEnd :: fault }
    | _ :: _ => { text := [c], consumed, errors := .numberWithoutSemicolon :: fault }

/-! ### References by name -/

/-- How many characters two texts have in common at their start. -/
def commonLength : List Char → List Char → Nat
  | a :: as, b :: bs => if a = b then commonLength as bs + 1 else 0
  | _, _ => 0

/-- The best name found so far: the length of the longest name that the text starts with,
what that name stands for, and how far any name goes along with the text. -/
structure Match where
  length : Nat := 0
  value : String := ""
  reach : Nat := 0
  deriving DecidableEq, Repr, Inhabited

/-- The best name after one more name has been looked at. -/
def Match.consider (s : List Char) (best : Match) (name value : String) : Match :=
  let shared := commonLength name.toList s
  let best := { best with reach := max best.reach shared }
  if shared = name.length && best.length < shared then
    { best with length := shared, value }
  else best

/-- The longest of some names that the text starts with. -/
def longest (names : List (String × String)) (s : List Char) : Match :=
  names.foldl (fun best (name, value) => best.consider s name value) {}

/-- Reads a name. In an attribute value, a name without semicolon that is followed by a letter,
a digit or an equals sign is no reference. -/
def readName (inAttribute : Bool) (first : Char) (s : List Char) : Reference :=
  let best := longest (referenceNames first) s
  if best.length = 0 then
    let run := s.takeWhile Char.isAlphanum
    match s.dropWhile Char.isAlphanum with
    | [] => { returned := run.length + 1 }
    | c :: _ =>
        { returned := run.length + 2, errors := if c = ';' then [.unknownReference] else [] }
  else
    let next := s[best.length]?
    let read := min (best.reach + 1) s.length
    let found :=
      { text := best.value.toList, consumed := best.length + 1, returned := read - best.length }
    if s[best.length - 1]? = some ';' then found
    else if inAttribute && next.any fun c => c = '=' || c.isAlphanum then {}
    else { found with errors := [.referenceWithoutSemicolon] }

/-! ### References -/

/-- Reads a reference off the text behind an ampersand. -/
def read (inAttribute : Bool) : List Char → Reference
  | [] => {}
  | ['#'] => { returned := 1, errors := [.referenceAtEnd] }
  | '#' :: c :: cs =>
      if c = 'x' || c = 'X' then readNumber 16 2 cs else readNumber 10 1 (c :: cs)
  | c :: cs => if c.isAlphanum then readName inAttribute c cs else {}

end Reference

end RichText
