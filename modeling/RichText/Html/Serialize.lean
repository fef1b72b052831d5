import RichText.Html.Tree

/-!
Writing trees as markup.

* `escape`: text with its special characters written as references; in attribute
  values the quote is special, in text the angle brackets are;
* `isVoid`: the elements that are written without an end tag;
* `isVerbatim`: the elements whose text is written as it stands;
* `serialize`: the markup of a list of sibling nodes.

A void element is written as its start tag alone. Should it have children, the tags
below it are left out and only text, comments and doctypes are written.
-/

namespace RichText

/-- Where a text is written: between tags or inside a quoted attribute value. -/
inductive TextPlace where
  | betweenTags
  | inValue
  deriving DecidableEq, Repr

/-- The form in which one character is written. -/
def escapeChar (place : TextPlace) (c : Char) : List Char :=
  if c = '&' then "&amp;".toList
  else if c = '\u00a0' then "&nbsp;".toList
  else match place with
    | .inValue => if c = '"' then "&quot;".toList else [c]
    | .betweenTags =>
        if c = '<' then "&lt;".toList else if c = '>' then "&gt;".toList else [c]

/-- The form in which a text is written. -/
def escape (place : TextPlace) (s : List Char) : List Char :=
  s.flatMap (escapeChar place)

/-- Names of the elements that are written without an end tag. -/
def voidNames : List String :=
  ["area", "base", "basefont", "bgsound", "br", "col", "embed", "frame", "hr", "img", "input",
    "keygen", "link", "meta", "param", "source", "track", "wbr"]

/-- Names of the elements whose text is written as it stands. -/
def verbatimNames : List String :=
  ["style", "script", "xmp", "iframe", "noembed", "noframes", "plaintext", "noscript"]

namespace Element

/-- Whether the element is written without an end tag. -/
def isVoid (e : Element) : Bool :=
  e.vocabulary = .html && e.name ∈ voidNames

/-- Whether text directly inside the element is written as it stands. -/
def isVerbatim (e : Element) : Bool :=
  e.vocabulary = .html && e.name ∈ verbatimNames

/-- The start tag of the element. -/
def startTag (e : Element) : List Char :=
  '<' :: e.name.toList
    ++ e.attributes.flatMap (fun a =>
      ' ' :: a.writtenName.toList ++ '=' :: '"' :: escape .inValue a.value.toList ++ ['"'])
    ++ ['>']

/-- The end tag of the element. -/
def endTag (e : Element) : List Char :=
  '<' :: '/' :: e.name.toList ++ ['>']

end Element

/-- What the enclosing element means for the nodes written inside it: whether text stands
as it is, and whether tags are left out. -/
structure Surroundings where
  verbatim : Bool := false
  tagless : Bool := false
  deriving DecidableEq, Repr, Inhabited

/-- The surroundings inside an element that itself stands in `around`. -/
def Surroundings.inside (around : Surroundings) (e : Element) : Surroundings :=
  { verbatim := e.isVerbatim, tagless := around.tagless || e.isVoid }

/-- The element that a parsed template is. -/
def templateElement (attributes : List Attribute) : Element :=
  { name := "template", attributes }

/-- An element around the markup of its children. -/
def enclose (around : Surroundings) (e : Element) (inner : List Char) : List Char :=
  if around.tagless then inner
  else if e.isVoid then e.startTag ++ inner
  else e.startTag ++ inner ++ e.endTag

mutual

/-- The markup of one node. -/
def serializeNode (around : Surroundings) : Tree → List Char
  | .element e cs => enclose around e (serializeNodes (around.inside e) cs)
  | .template as cs _ =>
      let e := templateElement as
      enclose around e (serializeNodes (around.inside e) cs)
  | .text s => if around.verbatim then s.toList else escape .betweenTags s.toList
  | .comment s => "<!--".toList ++ s.toList ++ "-->".toList
  | .doctype name _ _ => "<!DOCTYPE ".toList ++ name.toList ++ ['>']
  | .document cs => serializeNodes around cs

/-- The markup of sibling nodes. -/
def serializeNodes (around : Surroundings) : List Tree → List Char
  | [] => []
  | t :: ts => serializeNode around t ++ serializeNodes around ts

end

/-- The markup of a list of sibling nodes that no element encloses. -/
def serialize (ts : List Tree) : List Char :=
  serializeNodes {} ts

/-- An element is written as its content between its tags. -/
theorem serializeNode_element (around : Surroundings) (e : Element) (cs : List Tree) :
    serializeNode around (.element e cs)
      = enclose around e (serializeNodes (around.inside e) cs) := rfl

/-- A template is written like an element, without its contents. -/
theorem serializeNode_template (around : Surroundings) (as : List Attribute)
    (cs us : List Tree) :
    serializeNode around (.template as cs us)
      = enclose around (templateElement as)
          (serializeNodes (around.inside (templateElement as)) cs) := rfl

/-- Text is escaped, unless the element around it is verbatim. -/
theorem serializeNode_text (around : Surroundings) (s : String) :
    serializeNode around (.text s)
      = if around.verbatim then s.toList else escape .betweenTags s.toList := rfl

/-- A comment is written as it is. -/
theorem serializeNode_comment (around : Surroundings) (s : String) :
    serializeNode around (.comment s) = "<!--".toList ++ s.toList ++ "-->".toList := rfl

/-- A doctype is written with its name alone. -/
theorem serializeNode_doctype (around : Surroundings) (name publicId systemId : String) :
    serializeNode around (.doctype name publicId systemId)
      = "<!DOCTYPE ".toList ++ name.toList ++ ['>'] := rfl

/-- A container adds nothing to what is in it. -/
theorem serializeNode_document (around : Surroundings) (cs : List Tree) :
    serializeNode around (.document cs) = serializeNodes around cs := rfl

/-- Nodes are written one after the other. -/
theorem serializeNodes_append (around : Surroundings) (ts us : List Tree) :
    serializeNodes around (ts ++ us) = serializeNodes around ts ++ serializeNodes around us := by
  induction ts with
  | nil => simp [serializeNodes]
  | cons t ts ih => simp [serializeNodes, ih]

end RichText
