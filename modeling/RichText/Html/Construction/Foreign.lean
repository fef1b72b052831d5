import RichText.Html.Construction.Basic

/-!
Graphics and mathematics inside HTML.

Names of graphical elements and of some attributes have capital letters, which the text
cannot carry: `graphicName`, `graphicAttribute` and `mathAttribute` give them back.
`reservedAttribute` recognises the attributes with a reserved prefix. `isForeign` decides
which items are taken in by the rules of `inForeign`; the tags that leave foreign content
are those of HTML text (`leavesForeign`).
-/

namespace RichText

/-- Names of graphical elements that have capital letters. -/
def graphicNames : List String :=
  ["altGlyph", "altGlyphDef", "altGlyphItem", "animateColor", "animateMotion",
    "animateTransform", "clipPath", "feBlend", "feColorMatrix", "feComponentTransfer",
    "feComposite", "feConvolveMatrix", "feDiffuseLighting", "feDisplacementMap",
    "feDistantLight", "feDropShadow", "feFlood", "feFuncA", "feFuncB", "feFuncG", "feFuncR",
    "feGaussianBlur", "feImage", "feMerge", "feMergeNode", "feMorphology", "feOffset",
    "fePointLight", "feSpecularLighting", "feSpotLight", "feTile", "feTurbulence",
    "foreignObject", "glyphRef", "linearGradient", "radialGradient", "textPath"]

/-- Names of attributes of graphical elements that have capital letters. -/
def graphicAttributes : List String :=
  ["attributeName", "attributeType", "baseFrequency", "baseProfile", "calcMode",
    "clipPathUnits", "diffuseConstant", "edgeMode", "filterUnits", "glyphRef",
    "gradientTransform", "gradientUnits", "kernelMatrix", "kernelUnitLength", "keyPoints",
    "keySplines", "keyTimes", "lengthAdjust", "limitingConeAngle", "markerHeight",
    "markerUnits", "markerWidth", "maskContentUnits", "maskUnits", "numOctaves", "pathLength",
    "patternContentUnits", "patternTransform", "patternUnits", "pointsAtX", "pointsAtY",
    "pointsAtZ", "preserveAlpha", "preserveAspectRatio", "primitiveUnits", "refX", "refY",
    "repeatCount", "repeatDur", "requiredExtensions", "requiredFeatures", "specularConstant",
    "specularExponent", "spreadMethod", "startOffset", "stdDeviation", "stitchTiles",
    "surfaceScale", "systemLanguage", "tableValues", "targetX", "targetY", "textLength",
    "viewBox", "viewTarget", "xChannelSelector", "yChannelSelector", "zoomAndPan"]

/-- The name in a list that differs from the given one in letter case only, if there is one. -/
def withCapitals (names : List String) (name : String) : String :=
  (names.find? (·.toLower = name)).getD name

/-- The name of a graphical element. -/
def graphicName (name : String) : String :=
  withCapitals graphicNames name

/-- An attribute of a graphical element. -/
def graphicAttribute (a : Attribute) : Attribute :=
  { a with name := withCapitals graphicAttributes a.name }

/-- An attribute of a mathematical element. -/
def mathAttribute (a : Attribute) : Attribute :=
  { a with name := withCapitals ["definitionURL"] a.name }

/-- The attributes with a reserved prefix, by the names they are written with. -/
def reservedAttributes : List (String × AttributePrefix × String) :=
  [("xlink:actuate", .xlink, "actuate"), ("xlink:arcrole", .xlink, "arcrole"),
    ("xlink:href", .xlink, "href"), ("xlink:role", .xlink, "role"),
    ("xlink:show", .xlink, "show"), ("xlink:title", .xlink, "title"),
    ("xlink:type", .xlink, "type"), ("xml:lang", .xml, "lang"), ("xml:space", .xml, "space"),
    ("xmlns", .xmlns, "xmlns"), ("xmlns:xlink", .xmlns, "xlink")]

/-- An attribute with its reserved prefix recognised. -/
def reservedAttribute (a : Attribute) : Attribute :=
  match reservedAttributes.find? (·.1 = a.name) with
  | some (_, reserved, name) => { a with name, reserved }
  | none => a

/-- Start tags that leave foreign content. -/
def htmlOnlyNames : List String :=
  ["b", "big", "blockquote", "body", "br", "center", "code", "dd", "div", "dl", "dt", "em",
    "embed", "h1", "h2", "h3", "h4", "h5", "h6", "head", "hr", "i", "img", "li", "listing",
    "menu", "meta", "nobr", "ol", "p", "pre", "ruby", "s", "small", "span", "strong", "strike",
    "sub", "sup", "table", "tt", "u", "ul", "var"]

/-- Whether a start tag leaves foreign content. -/
def leavesForeign (t : Tag) : Bool :=
  t.name ∈ htmlOnlyNames
    || t.name = "font" && ["color", "face", "size"].any fun name => (t.get? name).isSome

namespace Construction

/-- Whether an item is taken in by the rules of foreign content: the current element is
foreign, and it is not one that holds this kind of item as HTML. -/
def isForeign (c : Construction) (item : Item) : Bool :=
  match c.stack, item with
  | [], _ => false
  | _, .endOfText => false
  | e :: _, item =>
      if e.vocabulary = .html then false
      else if e.isMathText then
        match item with
        | .text .. | .null => false
        | .startTag t => t.name = "mglyph" || t.name = "malignmark"
        | _ => true
      else if e.isGraphicHolder then
        match item with
        | .text .. | .null | .startTag _ => false
        | _ => true
      else if e.vocabulary = .mathml && e.name = "annotation-xml" then
        match item with
        | .startTag t => t.name ≠ "svg" && !e.holdsHtml
        | .text .. | .null => !e.holdsHtml
        | _ => true
      else true

/-- Puts in the foreign element of a tag and opens it, unless it is closed already. -/
def openForeign (c : Construction) (vocabulary : Vocabulary) (name : String) (t : Tag) : Turn :=
  let attributes := match vocabulary with
    | .html => t.attributes
    | .svg => t.attributes.map graphicAttribute
    | .mathml => t.attributes.map mathAttribute
  let e : Element := { name, vocabulary, attributes := attributes.map reservedAttribute }
  if t.selfClosing then (c.insert e).1.acknowledged else (c.insertOpen e).done

/-- Puts in the element of a tag inside foreign content, in the vocabulary of the current
element. -/
def openWithinForeign (c : Construction) (t : Tag) : Turn :=
  let vocabulary := (c.stack.head?.map (·.vocabulary)).getD .html
  c.openForeign vocabulary (if vocabulary = .svg then graphicName t.name else t.name) t

/-- Closes foreign elements until HTML can go on. -/
def leaveForeign (c : Construction) : Construction :=
  c.popWhile fun e => !(e.vocabulary = .html || e.isMathText || e.isGraphicHolder)

/-- What an end tag comes to that looks for a foreign element of its name, in any letter case,
outwards from the current element. -/
inductive ForeignEnd where
  | closed (stack : List OpenElement)
  | ignored
  | html

/-- Looks for the foreign element that an end tag closes; HTML elements are not looked past. -/
def foreignEnd (name : String) : List OpenElement → ForeignEnd
  | [] => .ignored
  | [_] => .ignored
  | e :: es =>
      if e.vocabulary = .html then .html
      else if e.name.toLower = name.toLower then .closed es
      else foreignEnd name es

/-- The rules of foreign content. Tags that leave it, and end tags that find HTML first, are
taken in by the rules given for the present mode. -/
def inForeign (html : Construction → Item → Turn) (c : Construction) (item : Item) : Turn :=
  match item with
  | .null => (c.unexpected.addText ['\ufffd']).done
  | .text _ s => ((if hasSolid s then c.noFrameset else c).addText s).done
  | .comment s => (c.addComment s).done
  | .startTag t =>
      if leavesForeign t then html c.unexpected.leaveForeign item else c.openWithinForeign t
  | .endTag t =>
      if t.name = "br" || t.name = "p" then html c.unexpected.leaveForeign item
      else
        match c.stack with
        | [] => c.done
        | [_] => c.done
        | e :: _ =>
            let c := c.expect (e.name.toLower = t.name.toLower) .unexpectedToken
            match foreignEnd t.name c.stack with
            | .closed stack => { c with stack }.done
            | .ignored => c.done
            | .html => html c item
  | .endOfText => c.done

end Construction

end RichText
