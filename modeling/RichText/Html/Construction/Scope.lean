import RichText.Dom.Heap

/-!
Open elements and the families of names that decide what encloses what.

The open elements form a stack, the innermost first. `inScope` asks whether an element is
met on the way out before a barrier; the barriers and the elements that are closed without
an end tag are given by families of names.
-/

namespace RichText

/-- An element that has been opened and not yet closed. `holdsHtml` tells that it is an
annotation whose encoding is HTML. -/
structure OpenElement where
  id : NodeId
  name : String
  vocabulary : Vocabulary := .html
  holdsHtml : Bool := false
  deriving DecidableEq, Repr, Inhabited

namespace OpenElement

/-- Whether it is the HTML element of the given name. -/
def named (e : OpenElement) (name : String) : Bool :=
  e.vocabulary = .html && e.name = name

/-- Whether it is an HTML element with one of the given names. -/
def among (e : OpenElement) (names : List String) : Bool :=
  e.vocabulary = .html && e.name ∈ names

/-- Whether it is one of the mathematical elements that hold text. -/
def isMathText (e : OpenElement) : Bool :=
  e.vocabulary = .mathml && e.name ∈ ["mi", "mo", "mn", "ms", "mtext"]

/-- Whether it is one of the graphical elements that hold HTML. -/
def isGraphicHolder (e : OpenElement) : Bool :=
  e.vocabulary = .svg && e.name ∈ ["foreignObject", "desc", "title"]

/-! ### Families of names -/

/-- Headings. -/
def headings : List String := ["h1", "h2", "h3", "h4", "h5", "h6"]

/-- Elements that close around an inner end tag unless that closes something inside them. -/
def special : List String :=
  ["address", "applet", "area", "article", "aside", "base", "basefont", "bgsound", "blockquote",
    "body", "br", "button", "caption", "center", "col", "colgroup", "dd", "details", "dir", "div",
    "dl", "dt", "embed", "fieldset", "figcaption", "figure", "footer", "form", "frame", "frameset",
    "h1", "h2", "h3", "h4", "h5", "h6", "head", "header", "hgroup", "hr", "html", "iframe", "img",
    "input", "isindex", "li", "link", "listing", "main", "marquee", "menu", "meta", "nav",
    "noembed", "noframes", "noscript", "object", "ol", "p", "param", "plaintext", "pre", "script",
    "section", "select", "source", "style", "summary", "table", "tbody", "td", "template",
    "textarea", "tfoot", "th", "thead", "title", "tr", "track", "ul", "wbr", "xmp"]

/-- Whether an inner end tag does not reach past the element. -/
def isSpecial (e : OpenElement) : Bool :=
  e.among special

/-- Elements that an end tag around them closes. -/
def impliedEnds : List String :=
  ["dd", "dt", "li", "option", "optgroup", "p", "rb", "rp", "rt", "rtc"]

/-- Elements that the end of a template around them closes. -/
def templateImpliedEnds : List String :=
  impliedEnds ++ ["caption", "colgroup", "tbody", "td", "tfoot", "th", "thead", "tr"]

/-- Whether an end tag around the element closes it. -/
def hasImpliedEnd (e : OpenElement) : Bool :=
  e.among impliedEnds

/-- Elements that the end of the text closes without fault. -/
def closedAtEnd : List String :=
  ["dd", "dt", "li", "optgroup", "option", "p", "rp", "rt", "tbody", "td", "tfoot", "th", "thead",
    "tr", "body", "html"]

/-! ### Barriers -/

/-- The barrier of the ordinary scope. -/
def endsScope (e : OpenElement) : Bool :=
  e.among ["applet", "caption", "html", "table", "td", "th", "marquee", "object", "template"]
    || e.isMathText || e.isGraphicHolder

/-- The barrier of the scope of list items. -/
def endsItemScope (e : OpenElement) : Bool :=
  e.endsScope || e.among ["ol", "ul"]

/-- The barrier of the scope of paragraphs. -/
def endsButtonScope (e : OpenElement) : Bool :=
  e.endsScope || e.named "button"

/-- The barrier of the scope inside tables. -/
def endsTableScope (e : OpenElement) : Bool :=
  e.among ["html", "table", "template"]

/-- The barrier of the scope inside selections. -/
def endsSelectScope (e : OpenElement) : Bool :=
  !e.among ["optgroup", "option"]

end OpenElement

/-- Whether an element with property `p` is met on the way out before a barrier; the barrier
itself counts. -/
def inScope (barrier p : OpenElement → Bool) : List OpenElement → Bool
  | [] => false
  | e :: es => p e || (!barrier e && inScope barrier p es)

end RichText
