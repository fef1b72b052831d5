import RichText.Html.Construction.Formatting

/-!
The beginning of a document: the modes up to the body, and what belongs into a head.

The rules of `inHead` are asked from other modes as well, for the elements that can stand
in a head. Templates are among them; `resetMode` finds the mode that fits the open elements
after a template, a table or a selection has been closed.
-/

namespace RichText

namespace Construction

/-- The mode for a selection inside the given open elements. -/
def selectMode : List OpenElement → Mode
  | [] => .inSelect
  | e :: es =>
      if e.named "template" then .inSelect
      else if e.named "table" then .inSelectInTable
      else selectMode es

/-- The mode that fits one open HTML element, if that decides; `es` are the elements around
it. -/
def modeOf (c : Construction) (e : OpenElement) (es : List OpenElement) : Option Mode :=
  if e.vocabulary ≠ .html then none
  else match e.name with
    | "select" => some (selectMode es)
    | "td" | "th" => if es.isEmpty then none else some .inCell
    | "tr" => some .inRow
    | "tbody" | "thead" | "tfoot" => some .inTableBody
    | "caption" => some .inCaption
    | "colgroup" => some .inColumnGroup
    | "table" => some .inTable
    | "template" => some (c.templateModes.head?.getD .inTemplate)
    | "head" => if es.isEmpty then none else some .inHead
    | "body" => some .inBody
    | "frameset" => some .inFrameset
    | "html" => some (if c.head.isNone then .beforeHead else .afterHead)
    | _ => none

/-- The mode that fits the open elements. The outermost element of a fragment stands for a
body. -/
def resetMode (c : Construction) : List OpenElement → Mode
  | [] => .inBody
  | e :: es =>
      if es.isEmpty && c.isFragment then .inBody
      else (c.modeOf e es).getD (c.resetMode es)

/-- Goes on in the mode that fits the open elements. -/
def goToReset (c : Construction) : Construction :=
  c.goTo (c.resetMode c.stack)

/-- Takes the item in once more, in the mode that fits the open elements. -/
def againReset (c : Construction) : Turn :=
  c.again (c.resetMode c.stack)

/-! ### Rules asked from many modes -/

/-- A further start tag of the outermost element, which only adds attributes. -/
def startHtml (c : Construction) (t : Tag) : Turn :=
  let c := c.unexpected
  if c.hasOpen "template" then c.done
  else match c.stack.getLast? with
    | some e => (c.addMissing e.id t.attributes).done
    | none => c.done

/-- The start of a template. -/
def startTemplate (c : Construction) (t : Tag) : Turn :=
  let c := (c.openTag t).mark.noFrameset
  { c with mode := .inTemplate, templateModes := .inTemplate :: c.templateModes }.done

/-- Closes the elements inside a template and the template itself. -/
def leaveTemplate (c : Construction) : Construction :=
  { c.forgetToMarker with templateModes := c.templateModes.tail }

/-- The end of a template. -/
def endTemplate (c : Construction) : Turn :=
  if c.hasOpen "template" then
    let c := (c.popWhile (·.among OpenElement.templateImpliedEnds)).closeExpected "template"
    c.leaveTemplate.goToReset.done
  else c.unexpected.done

/-- The end of the text inside a template. -/
def endInTemplate (c : Construction) : Turn :=
  if c.hasOpen "template" then
    (c.unexpected.popThroughNamed "template").leaveTemplate.goToReset.againReset
  else c.done

/-- Elements of a head that have no inside. -/
def headVoids : List String := ["base", "basefont", "bgsound", "link", "meta"]

/-- Elements that belong into a head wherever their tag stands. -/
def headElements : List String :=
  headVoids ++ ["noframes", "script", "style", "template", "title"]

/-- The start of an element that belongs into a head. -/
def startInHead (c : Construction) (t : Tag) : Turn :=
  if t.name ∈ headVoids then (c.addTag t).acknowledged
  else match t.name with
    | "title" => c.openRaw t .escapable
    | "script" => c.openRaw t .script
    | "template" => c.startTemplate t
    | _ => c.openRaw t .verbatim

/-! ### The modes -/

/-- End tags that act like text where a part of the document has not begun yet. -/
def structuralEnds : List String := ["body", "html", "br"]

/-- Before anything but comments. A document without declaration lets tables stand in
paragraphs. -/
def inInitial (c : Construction) (item : Item) : Turn :=
  match item with
  | .text .mixed _ => c.split
  | .text .blank _ => c.done
  | .comment s => (c.addCommentToRoot s).done
  | _ => { c.unexpected with tableInParagraph := true }.again .beforeHtml

/-- Before the outermost element. -/
def inBeforeHtml (c : Construction) (item : Item) : Turn :=
  let otherwise := (c.openHtml []).again .beforeHead
  match item with
  | .text .mixed _ => c.split
  | .text .blank _ => c.done
  | .comment s => (c.addCommentToRoot s).done
  | .startTag t => if t.name = "html" then ((c.openHtml t.attributes).goTo .beforeHead).done
      else otherwise
  | .endTag t => if t.name = "head" || t.name ∈ structuralEnds then otherwise
      else c.unexpected.done
  | _ => otherwise

/-- Opens the head and remembers it. -/
def openHead (c : Construction) (t : Tag) : Construction :=
  let c := c.openTag t
  { c with head := c.stack.head? }

/-- Before the head. -/
def inBeforeHead (c : Construction) (item : Item) : Turn :=
  let otherwise := (c.openHead { name := "head" }).again .inHead
  match item with
  | .text .mixed _ => c.split
  | .text .blank _ => c.done
  | .comment s => (c.addComment s).done
  | .startTag t =>
      if t.name = "html" then c.startHtml t
      else if t.name = "head" then ((c.openHead t).goTo .inHead).done
      else otherwise
  | .endTag t => if t.name = "head" || t.name ∈ structuralEnds then otherwise
      else c.unexpected.done
  | _ => otherwise

/-- In the head. -/
def inHead (c : Construction) (item : Item) : Turn :=
  let otherwise := c.pop.again .afterHead
  match item with
  | .text .mixed _ => c.split
  | .text .blank s => (c.addText s).done
  | .comment s => (c.addComment s).done
  | .startTag t =>
      if t.name = "html" then c.startHtml t
      else if t.name = "head" then c.unexpected.done
      else if t.name ∈ "noscript" :: headElements then c.startInHead t
      else otherwise
  | .endTag t =>
      if t.name = "head" then (c.pop.goTo .afterHead).done
      else if t.name = "template" then c.endTemplate
      else if t.name ∈ structuralEnds then otherwise
      else c.unexpected.done
  | _ => otherwise

/-- Between head and body. What belongs into the head still goes there. -/
def inAfterHead (c : Construction) (item : Item) : Turn :=
  let otherwise := (c.openImplied "body").again .inBody
  match item with
  | .text .mixed _ => c.split
  | .text .blank s => (c.addText s).done
  | .comment s => (c.addComment s).done
  | .startTag t =>
      if t.name = "html" then c.startHtml t
      else if t.name = "body" then ((c.openTag t).noFrameset.goTo .inBody).done
      else if t.name = "frameset" then ((c.openTag t).goTo .inFrameset).done
      else if t.name ∈ headElements then
        match c.head with
        | some head =>
            let (c, outcome) := (c.unexpected.push head).startInHead t
            (c.removeOpen head.id, outcome)
        | none => c.unexpected.done
      else if t.name = "head" then c.unexpected.done
      else otherwise
  | .endTag t =>
      if t.name = "template" then c.endTemplate
      else if t.name ∈ structuralEnds then otherwise
      else c.unexpected.done
  | _ => otherwise

end Construction

end RichText
