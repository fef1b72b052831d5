/-!
The names of elements and attributes.

An element belongs to one of three vocabularies (`Vocabulary`); an attribute may
carry one of the reserved prefixes (`AttributePrefix`). An `Element` is a name with
attributes, without place or children; `get?`, `set` and `addMissing` read and
write its attributes by local name.
-/

namespace RichText

/-- The vocabularies an element name can come from. -/
inductive Vocabulary where
  | html
  | svg
  | mathml
  deriving DecidableEq, Repr, Inhabited

/-- The address that identifies a vocabulary, as it stands in listings of trees. -/
def Vocabulary.uri : Vocabulary → String
  | .html => "http://www.w3.org/1999/xhtml"
  | .svg => "http://www.w3.org/2000/svg"
  | .mathml => "http://www.w3.org/1998/Math/MathML"

/-- Vocabularies are told apart by their addresses, so that comparing the one is comparing the
other. -/
theorem Vocabulary.eq_of_uri_eq {v v' : Vocabulary} (h : v.uri = v'.uri) : v = v' := by
  cases v <;> cases v' <;> first | rfl | exact absurd h (by decide)

/-- The reserved prefixes an attribute name can carry. -/
inductive AttributePrefix where
  | none
  | xml
  | xmlns
  | xlink
  deriving DecidableEq, Repr, Inhabited

/-- An attribute of an element or of a tag; `name` is the name without the reserved prefix. -/
structure Attribute where
  name : String
  value : String
  reserved : AttributePrefix := .none
  deriving DecidableEq, Repr, Inhabited

/-- The name of an attribute as it is written, with its prefix. -/
def Attribute.writtenName (a : Attribute) : String :=
  match a.reserved with
  | .none => a.name
  | .xml => "xml:" ++ a.name
  | .xmlns => if a.name = "xmlns" then a.name else "xmlns:" ++ a.name
  | .xlink => "xlink:" ++ a.name

/-- An element by itself: its name and its attributes, in source order. -/
structure Element where
  name : String
  attributes : List Attribute := []
  vocabulary : Vocabulary := .html
  deriving DecidableEq, Repr, Inhabited

namespace Element

/-- The value of the first attribute with the given local name. -/
def get? (e : Element) (name : String) : Option String :=
  (e.attributes.find? (·.name = name)).map (·.value)

/-- The list with the value of the first attribute of that name replaced, or with a new
attribute at the end if there is none. -/
def setIn (name value : String) : List Attribute → List Attribute
  | [] => [{ name := name, value }]
  | a :: as => if a.name = name then { a with value } :: as else a :: setIn name value as

/-- The element with an attribute set, or added at the end. -/
def set (e : Element) (name value : String) : Element :=
  { e with attributes := setIn name value e.attributes }

/-- The element with those of the given attributes added that it does not have yet. -/
def addMissing (e : Element) (new : List Attribute) : Element :=
  let missing := new.filter fun a =>
    !e.attributes.any fun b => b.name = a.name && b.reserved = a.reserved
  { e with attributes := e.attributes ++ missing }

/-- The first attribute of a name that has been set has the value that was set. -/
theorem find?_setIn (name value : String) (as : List Attribute) :
    ((setIn name value as).find? (·.name = name)).map (·.value) = some value := by
  induction as with
  | nil => simp [setIn]
  | cons a as ih => by_cases h : a.name = name <;> simp_all [setIn]

/-- What has been set is read back. -/
theorem get?_set (e : Element) (name value : String) : (e.set name value).get? name = some value :=
  find?_setIn name value e.attributes

end Element

end RichText
