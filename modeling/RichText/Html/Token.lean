import RichText.Html.Name
import RichText.Html.ParseError

/-!
Tokens: what markup is made of before it becomes a tree.

Faults are tokens as well, since they come in order with the others. A run of text can
arrive in several `text` tokens; the character U+0000 is a token of its own.
-/

namespace RichText

/-- The kinds of elements that hold text only: those in which character references are read,
those in which nothing is, and scripts. -/
inductive RawKind where
  | escapable
  | verbatim
  | script
  deriving DecidableEq, Repr, Inhabited

/-- A start or end tag. -/
structure Tag where
  name : String
  attributes : List Attribute := []
  selfClosing : Bool := false
  deriving DecidableEq, Repr, Inhabited

/-- A document type declaration, with the parts that were given. -/
structure Doctype where
  name : Option String := none
  publicId : Option String := none
  systemId : Option String := none
  malformed : Bool := false
  deriving DecidableEq, Repr, Inhabited

/-- A piece of markup. -/
inductive Token where
  | doctype (d : Doctype)
  | startTag (t : Tag)
  | endTag (t : Tag)
  | comment (s : String)
  | text (s : List Char)
  | null
  | error (e : ParseError)
  deriving DecidableEq, Repr, Inhabited

namespace Tag

/-- The value of an attribute without reserved prefix. -/
def get? (t : Tag) (name : String) : Option String :=
  (t.attributes.find? fun a => a.name = name && a.reserved = .none).map (·.value)

/-- Whether the tag hides the field it makes: its type is `hidden`, in any letter case. -/
def isHidden (t : Tag) : Bool :=
  (t.get? "type").map String.toLower = some "hidden"

end Tag

end RichText
