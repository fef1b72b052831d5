import RichText.Html.Construction.Body

/-!
Tables.

What has no place in a table goes in front of it: while `fostering` is set, nodes that
would become children of a table or of its rows are put there instead, and the rules of the
body are asked. Text in a table is held back until it is known whether it is white space
only.
-/

namespace RichText

namespace Construction

/-- Takes an item in by the rules of the body, in front of the table. -/
def foster (c : Construction) (item : Item) : Turn :=
  let (c, outcome) := { c with fostering := true }.inBody item
  ({ c with fostering := false }, outcome)

/-- The elements that make up tables from the outside. -/
def tableParts : List String := ["table", "tbody", "tfoot", "thead", "tr"]

/-- Text in a table. -/
def textInTable (c : Construction) (item : Item) : Turn :=
  if c.currentAmong tableParts then { c with returnMode := c.mode }.again .inTableText
  else (c.fault .textInTable).foster item

/-- Adds the text held back: where it stands if it is white space, and in front of the table
otherwise. -/
def releaseText (c : Construction) : Construction :=
  let pending := c.pendingText.reverse
  let c := { c with pendingText := [] }
  if pending.any hasSolid then
    pending.foldl (fun c s => (c.foster (.text .mixed s)).1) (c.fault .nonspaceInTable)
  else pending.foldl addText c

/-- While text in a table is held back. -/
def inTableText (c : Construction) (item : Item) : Turn :=
  match item with
  | .null => c.unexpected.done
  | .text _ s => { c with pendingText := s :: c.pendingText }.done
  | _ => c.releaseText.again c.returnMode

/-- The barriers inside a table. -/
def tableContext : List String := ["table", "template", "html"]

/-- Closes a table that is open inside a scope, if there is one. -/
def closeTable? (c : Construction) : Option Construction :=
  if c.hasInTableScope "table" then some (c.popThroughNamed "table") else none

/-- In a table. -/
def inTable (c : Construction) (item : Item) : Turn :=
  match item with
  | .null | .text .. => c.textInTable item
  | .comment s => (c.addComment s).done
  | .startTag t =>
      match t.name with
      | "caption" => (((c.popTo tableContext).mark.openTag t).goTo .inCaption).done
      | "colgroup" => (((c.popTo tableContext).openTag t).goTo .inColumnGroup).done
      | "col" => ((c.popTo tableContext).openImplied "colgroup").again .inColumnGroup
      | "tbody" | "tfoot" | "thead" =>
          (((c.popTo tableContext).openTag t).goTo .inTableBody).done
      | "td" | "th" | "tr" => ((c.popTo tableContext).openImplied "tbody").again .inTableBody
      | "table" =>
          let c := c.unexpected
          match c.closeTable? with
          | some c => c.againReset
          | none => c.done
      | "style" | "script" | "template" => c.startInHead t
      | "input" =>
          let c := c.unexpected
          if t.isHidden then (c.addTag t).acknowledged else c.foster item
      | "form" =>
          let c := c.unexpected
          if c.form.isNone && !c.hasOpen "template" then
            let i := c.heap.size
            { c.addTag t with form := some i }.done
          else c.done
      | _ => c.unexpected.foster item
  | .endTag t =>
      match t.name with
      | "table" =>
          match c.closeTable? with
          | some c => c.goToReset.done
          | none => c.unexpected.done
      | "body" | "caption" | "col" | "colgroup" | "html" | "tbody" | "td" | "tfoot" | "th"
      | "thead" | "tr" => c.unexpected.done
      | "template" => c.endTemplate
      | _ => c.unexpected.foster item
  | .endOfText => c.inBody item

/-- In a caption. -/
def inCaption (c : Construction) (item : Item) : Turn :=
  let close := fun (ended : Construction → Turn) =>
    if c.hasInTableScope "caption" then
      ended (c.closeImplied.closeExpected "caption").forgetToMarker
    else c.unexpected.done
  match item with
  | .startTag t =>
      if t.name ∈ ["caption", "col", "colgroup", "tbody", "td", "tfoot", "th", "thead", "tr"] then
        close fun c => c.again .inTable
      else c.inBody item
  | .endTag t =>
      match t.name with
      | "caption" => close fun c => (c.goTo .inTable).done
      | "table" => close fun c => c.again .inTable
      | "body" | "col" | "colgroup" | "html" | "tbody" | "td" | "tfoot" | "th" | "thead"
      | "tr" => c.unexpected.done
      | _ => c.inBody item
  | _ => c.inBody item

/-- In a group of columns. -/
def inColumnGroup (c : Construction) (item : Item) : Turn :=
  let otherwise :=
    if c.currentNamed "colgroup" then c.pop.again .inTable else c.unexpected.done
  match item with
  | .text .mixed _ => c.split
  | .text .blank s => (c.addText s).done
  | .comment s => (c.addComment s).done
  | .startTag t =>
      match t.name with
      | "html" => c.startHtml t
      | "col" => (c.addTag t).acknowledged
      | "template" => c.startInHead t
      | _ => otherwise
  | .endTag t =>
      match t.name with
      | "colgroup" =>
          if c.currentNamed "colgroup" then (c.pop.goTo .inTable).done else c.unexpected.done
      | "col" => c.unexpected.done
      | "template" => c.endTemplate
      | _ => otherwise
  | .endOfText => c.inBody item
  | _ => otherwise

/-- The barriers inside a group of rows. -/
def rowGroupContext : List String := ["tbody", "tfoot", "thead", "template", "html"]

/-- In a group of rows. -/
def inTableBody (c : Construction) (item : Item) : Turn :=
  let leave :=
    if inScope (·.endsTableScope) (·.among ["table", "tbody", "tfoot"]) c.stack then
      (c.popTo rowGroupContext).pop.again .inTable
    else c.unexpected.done
  match item with
  | .startTag t =>
      match t.name with
      | "tr" => (((c.popTo rowGroupContext).openTag t).goTo .inRow).done
      | "th" | "td" => ((c.unexpected.popTo rowGroupContext).openImplied "tr").again .inRow
      | "caption" | "col" | "colgroup" | "tbody" | "tfoot" | "thead" => leave
      | _ => c.inTable item
  | .endTag t =>
      match t.name with
      | "tbody" | "tfoot" | "thead" =>
          if c.hasInTableScope t.name then
            ((c.popTo rowGroupContext).pop.goTo .inTable).done
          else c.unexpected.done
      | "table" => leave
      | "body" | "caption" | "col" | "colgroup" | "html" | "td" | "th" | "tr" =>
          c.unexpected.done
      | _ => c.inTable item
  | _ => c.inTable item

/-- The barriers inside a row. -/
def rowContext : List String := ["tr", "template", "html"]

/-- Closes the row. -/
def closeRow (c : Construction) : Construction :=
  (c.popTo rowContext).pop

/-- In a row. -/
def inRow (c : Construction) (item : Item) : Turn :=
  let leave :=
    if c.hasInTableScope "tr" then c.closeRow.again .inTableBody else c.unexpected.done
  match item with
  | .startTag t =>
      match t.name with
      | "th" | "td" => ((((c.popTo rowContext).openTag t).goTo .inCell).mark).done
      | "caption" | "col" | "colgroup" | "tbody" | "tfoot" | "thead" | "tr" => leave
      | _ => c.inTable item
  | .endTag t =>
      match t.name with
      | "tr" =>
          if c.hasInTableScope "tr" then (c.closeRow.goTo .inTableBody).done
          else c.unexpected.done
      | "table" => leave
      | "tbody" | "tfoot" | "thead" =>
          if c.hasInTableScope t.name then
            if c.hasInTableScope "tr" then c.closeRow.again .inTableBody else c.done
          else c.unexpected.done
      | "body" | "caption" | "col" | "colgroup" | "html" | "td" | "th" => c.unexpected.done
      | _ => c.inTable item
  | _ => c.inTable item

/-- Closes the cell. -/
def closeCell (c : Construction) : Construction :=
  let c := c.closeImplied
  ((c.expect (c.currentAmong ["td", "th"]) .openInsideCell).popThrough
    (·.among ["td", "th"])).forgetToMarker

/-- In a cell. -/
def inCell (c : Construction) (item : Item) : Turn :=
  match item with
  | .startTag t =>
      if t.name ∈ ["caption", "col", "colgroup", "tbody", "td", "tfoot", "th", "thead", "tr"] then
        if inScope (·.endsTableScope) (·.among ["td", "th"]) c.stack then
          c.closeCell.again .inRow
        else c.unexpected.done
      else c.inBody item
  | .endTag t =>
      match t.name with
      | "td" | "th" =>
          if c.hasInTableScope t.name then
            ((c.closeImplied.closeExpected t.name).forgetToMarker.goTo .inRow).done
          else c.unexpected.done
      | "body" | "caption" | "col" | "colgroup" | "html" => c.unexpected.done
      | "table" | "tbody" | "tfoot" | "thead" | "tr" =>
          if c.hasInTableScope t.name then c.closeCell.again .inRow else c.unexpected.done
      | _ => c.inBody item
  | _ => c.inBody item

end Construction

end RichText
