import RichText.Html.Construction.Foreign
import RichText.Html.Construction.Head

/-!
The body.

Tags are told apart by what they do: `BodyStart.of` and `BodyEnd.of` read it off the name.
A start tag without a rule of its own opens an ordinary element, an end tag without one
closes an ordinary element.
-/

namespace RichText

/-- What a start tag does in a body. -/
inductive BodyStart where
  | html
  | head
  | body
  | frameset
  | block
  | heading
  | preformatted
  | form
  | item
  | plaintext
  | button
  | link
  | formatting
  | nobr
  | scoped
  | table
  | void
  | detail
  | rule
  | image
  | textarea
  | xmp
  | iframe
  | verbatim
  | select
  | option
  | rubyBase
  | rubyText
  | math
  | svg
  | stray
  | ordinary
  deriving DecidableEq, Repr

/-- The names of the start tags that have rules of their own in a body. -/
def bodyStarts : List (BodyStart × List String) :=
  [(.html, ["html"]), (.head, Construction.headElements), (.body, ["body"]),
    (.frameset, ["frameset"]),
    (.block,
      ["address", "article", "aside", "blockquote", "center", "details", "dialog", "dir", "div",
        "dl", "fieldset", "figcaption", "figure", "footer", "header", "hgroup", "main", "menu",
        "nav", "ol", "p", "search", "section", "summary", "ul"]),
    (.heading, OpenElement.headings), (.preformatted, ["pre", "listing"]), (.form, ["form"]),
    (.item, ["li", "dd", "dt"]), (.plaintext, ["plaintext"]), (.button, ["button"]),
    (.link, ["a"]),
    (.formatting,
      ["b", "big", "code", "em", "font", "i", "s", "small", "strike", "strong", "tt", "u"]),
    (.nobr, ["nobr"]), (.scoped, ["applet", "marquee", "object"]), (.table, ["table"]),
    (.void, ["area", "br", "embed", "img", "keygen", "wbr", "input"]),
    (.detail, ["param", "source", "track"]), (.rule, ["hr"]), (.image, ["image"]),
    (.textarea, ["textarea"]), (.xmp, ["xmp"]), (.iframe, ["iframe"]),
    (.verbatim, ["noembed", "noscript"]), (.select, ["select"]),
    (.option, ["optgroup", "option"]), (.rubyBase, ["rb", "rtc"]), (.rubyText, ["rp", "rt"]),
    (.math, ["math"]), (.svg, ["svg"]),
    (.stray,
      ["caption", "col", "colgroup", "frame", "head", "tbody", "td", "tfoot", "th", "thead",
        "tr"])]

/-- What a start tag of the given name does in a body. -/
def BodyStart.of (name : String) : BodyStart :=
  ((bodyStarts.find? fun r => name ∈ r.2).map (·.1)).getD .ordinary

/-- What an end tag does in a body. -/
inductive BodyEnd where
  | template
  | body
  | html
  | block
  | form
  | paragraph
  | item
  | heading
  | formatting
  | scoped
  | lineBreak
  | ordinary
  deriving DecidableEq, Repr

/-- The names of the end tags that have rules of their own in a body. -/
def bodyEnds : List (BodyEnd × List String) :=
  [(.template, ["template"]), (.body, ["body"]), (.html, ["html"]),
    (.block,
      ["address", "article", "aside", "blockquote", "button", "center", "details", "dialog",
        "dir", "div", "dl", "fieldset", "figcaption", "figure", "footer", "header", "hgroup",
        "listing", "main", "menu", "nav", "ol", "pre", "search", "section", "summary", "ul"]),
    (.form, ["form"]), (.paragraph, ["p"]), (.item, ["li", "dd", "dt"]),
    (.heading, OpenElement.headings),
    (.formatting,
      ["a", "b", "big", "code", "em", "font", "i", "nobr", "s", "small", "strike", "strong", "tt",
        "u"]),
    (.scoped, ["applet", "marquee", "object"]), (.lineBreak, ["br"])]

/-- What an end tag of the given name does in a body. -/
def BodyEnd.of (name : String) : BodyEnd :=
  ((bodyEnds.find? fun r => name ∈ r.2).map (·.1)).getD .ordinary

namespace Construction

/-- Text in the body. -/
def bodyText (c : Construction) (s : List Char) : Turn :=
  let c := c.reopenFormatting
  ((if hasSolid s then c.noFrameset else c).addText s).done

/-- Notes an element that is still open though its end tag could not be left out. -/
def checkClosed (c : Construction) : Construction :=
  c.expect (c.stack.all (·.among OpenElement.closedAtEnd)) .openAtEnd

/-- The element inside the outermost one, if it is the body. -/
def body? (c : Construction) : Option OpenElement :=
  match c.stack.reverse with
  | _ :: e :: _ => if e.named "body" then some e else none
  | _ => none

/-! ### Start tags -/

/-- A further start tag of the body, which only adds attributes. -/
def startBody (c : Construction) (t : Tag) : Turn :=
  let c := c.unexpected
  match c.body? with
  | some e =>
      if c.hasOpen "template" then c.done
      else (c.noFrameset.addMissing e.id t.attributes).done
  | none => c.done

/-- A frameset in place of a body in which nothing has been shown yet. -/
def startFrameset (c : Construction) (t : Tag) : Turn :=
  let c := c.unexpected
  if c.framesetOk then
    match c.body? with
    | some e =>
        let c := { c with heap := c.heap.detach e.id, stack := c.stack.getLast?.toList }
        ((c.openTag t).goTo .inFrameset).done
    | none => c.done
  else c.done

/-- A heading ends the heading that it stands in. -/
def startHeading (c : Construction) (t : Tag) : Turn :=
  let c := c.endParagraph
  let c := if c.currentAmong OpenElement.headings then (c.fault .nestedHeadings).pop else c
  (c.openTag t).done

/-- Forms do not nest. -/
def startForm (c : Construction) (t : Tag) : Turn :=
  let inTemplate := c.hasOpen "template"
  if c.form.isSome && !inTemplate then (c.fault .nestedForms).done
  else
    let c := c.endParagraph
    let i := c.heap.size
    let c := c.openTag t
    (if inTemplate then c else { c with form := some i }).done

/-- An item ends the item of its kind that it stands in. -/
def startItem (c : Construction) (t : Tag) : Turn :=
  let kind := if t.name = "li" then ["li"] else ["dd", "dt"]
  let stops := fun e : OpenElement => e.isSpecial && !e.among ["address", "div", "p"]
  let c := c.noFrameset
  let c := match c.stack.find? fun e => e.among kind || stops e with
    | some e =>
        if e.among kind then (c.closeImpliedExcept e.name).closeExpected e.name else c
    | none => c
  (c.endParagraph.openTag t).done

/-- Buttons do not nest. -/
def startButton (c : Construction) (t : Tag) : Turn :=
  let c :=
    if c.hasInScope "button" then
      ((c.fault .nestedButtons).closeImplied).popThroughNamed "button"
    else c
  (c.reopenFormatting.openTag t).noFrameset.done

/-- Unbroken lines do not nest. -/
def startNobr (c : Construction) (t : Tag) : Turn :=
  let c := c.reopenFormatting
  let c :=
    if c.hasInScope "nobr" then
      ((c.fault .nestedNobr).closeFormatting "nobr").reopenFormatting
    else c
  (c.openFormatting t).done

/-- An element without inside among text. -/
def startVoid (c : Construction) (t : Tag) : Turn :=
  let c := c.reopenFormatting.addTag t
  (if t.name = "input" && t.isHidden then c else c.noFrameset).acknowledged

/-- A selection; inside a table it is closed by the tags of the table. -/
def startSelect (c : Construction) (t : Tag) : Turn :=
  let inTable := c.mode ∈ [.inTable, .inCaption, .inTableBody, .inRow, .inCell]
  let c := (c.reopenFormatting.openTag t).noFrameset
  (c.goTo (if inTable then .inSelectInTable else .inSelect)).done

/-- A start tag in the body. -/
def startInBody (c : Construction) (t : Tag) : Turn :=
  match BodyStart.of t.name with
  | .html => c.startHtml t
  | .head => c.startInHead t
  | .body => c.startBody t
  | .frameset => c.startFrameset t
  | .block => (c.endParagraph.openTag t).done
  | .heading => c.startHeading t
  | .preformatted =>
      { (c.endParagraph.openTag t).noFrameset with dropsNewline := true }.done
  | .form => c.startForm t
  | .item => c.startItem t
  | .plaintext => (c.endParagraph.openTag t, .plaintext)
  | .button => c.startButton t
  | .link => (c.closeLink.reopenFormatting.openFormatting t).done
  | .formatting => (c.reopenFormatting.openFormatting t).done
  | .nobr => c.startNobr t
  | .scoped => (c.reopenFormatting.openTag t).mark.noFrameset.done
  | .table =>
      let c := if c.tableInParagraph then c else c.endParagraph
      ((c.openTag t).noFrameset.goTo .inTable).done
  | .void => c.startVoid t
  | .detail => (c.addTag t).acknowledged
  | .rule => (c.endParagraph.addTag t).noFrameset.acknowledged
  | .image => c.unexpected.startVoid { t with name := "img" }
  | .textarea => ({ c.noFrameset with dropsNewline := true }).openRaw t .escapable
  | .xmp => (c.endParagraph.reopenFormatting.noFrameset).openRaw t .verbatim
  | .iframe => c.noFrameset.openRaw t .verbatim
  | .verbatim => c.openRaw t .verbatim
  | .select => c.startSelect t
  | .option =>
      let c := if c.currentNamed "option" then c.pop else c
      (c.reopenFormatting.openTag t).done
  | .rubyBase =>
      let c := if c.hasInScope "ruby" then c.closeImplied else c
      ((c.expect (c.currentNamed "ruby") .unexpectedToken).openTag t).done
  | .rubyText =>
      let c := if c.hasInScope "ruby" then c.closeImpliedExcept "rtc" else c
      ((c.expect (c.currentAmong ["rtc", "ruby"]) .unexpectedToken).openTag t).done
  | .math => c.openForeign .mathml "math" t
  | .svg => c.openForeign .svg "svg" t
  | .stray => c.unexpected.done
  | .ordinary => (c.reopenFormatting.openTag t).done

/-! ### End tags -/

/-- The end of a block. -/
def endBlock (c : Construction) (name : String) : Turn :=
  if c.hasInScope name then (c.closeImplied.closeExpected name).done else c.unexpected.done

/-- The end of a form, which closes that form only. -/
def endForm (c : Construction) : Turn :=
  if c.hasOpen "template" then
    if c.hasInScope "form" then
      let c := c.closeImplied
      ((c.expect (c.currentNamed "form") .formNotCurrent).popThroughNamed "form").done
    else (c.fault .formNotInScope).done
  else
    match c.form with
    | none => (c.fault .noForm).done
    | some i =>
        let c := { c with form := none }
        if inScope (·.endsScope) (·.id = i) c.stack then
          let c := c.closeImplied
          ((c.expect (c.stack.head?.any (·.id = i)) .formNotCurrent).removeOpen i).done
        else (c.fault .formNotInScope).done

/-- The end of a paragraph, which stands for an empty one if there is none. -/
def endParagraphTag (c : Construction) : Turn :=
  let c := if c.hasParagraph then c else (c.fault .noParagraph).openImplied "p"
  c.closeParagraph.done

/-- The end of an item. -/
def endItem (c : Construction) (name : String) : Turn :=
  let barrier := if name = "li" then OpenElement.endsItemScope else OpenElement.endsScope
  if inScope barrier (·.named name) c.stack then
    ((c.closeImpliedExcept name).closeExpected name).done
  else (c.fault .noItem).done

/-- The end of a heading, which closes a heading of any level. -/
def endHeading (c : Construction) (name : String) : Turn :=
  if inScope (·.endsScope) (·.among OpenElement.headings) c.stack then
    let c := c.closeImplied
    ((c.expect (c.currentNamed name) .wrongHeading).popThrough
      (·.among OpenElement.headings)).done
  else (c.fault .noHeading).done

/-- The end of the body, after which only comments are expected. -/
def endBody (c : Construction) : Turn :=
  if c.hasInScope "body" then (c.checkClosed.goTo .afterBody).done
  else (c.fault .bodyNotInScope).done

/-- The end of the outermost element. -/
def endHtml (c : Construction) : Turn :=
  if c.hasInScope "body" then c.checkClosed.again .afterBody
  else (c.fault .htmlNotInScope).done

/-- An end tag in the body. -/
def endInBody (c : Construction) (t : Tag) : Turn :=
  match BodyEnd.of t.name with
  | .template => c.endTemplate
  | .body => c.endBody
  | .html => c.endHtml
  | .block => c.endBlock t.name
  | .form => c.endForm
  | .paragraph => c.endParagraphTag
  | .item => c.endItem t.name
  | .heading => c.endHeading t.name
  | .formatting => (c.closeFormatting t.name).done
  | .scoped =>
      if c.hasInScope t.name then
        (c.closeImplied.closeExpected t.name).forgetToMarker.done
      else c.unexpected.done
  | .lineBreak => c.unexpected.startVoid { t with attributes := [] }
  | .ordinary => (c.closeOrdinary t.name).done

/-- In the body. -/
def inBody (c : Construction) (item : Item) : Turn :=
  match item with
  | .null => c.unexpected.done
  | .text _ s => c.bodyText s
  | .comment s => (c.addComment s).done
  | .startTag t => c.startInBody t
  | .endTag t => c.endInBody t
  | .endOfText => if c.templateModes.isEmpty then c.checkClosed.done else c.endInTemplate

end Construction

end RichText
