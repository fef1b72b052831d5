import RichText.Html.Construction.Body

/-!
Selections and templates.

A selection takes in text, options and little else. In a template the first tag decides
which rules hold for its contents.
-/

namespace RichText

namespace Construction

/-- Closes the current element if it has the given name. -/
def popIf (c : Construction) (name : String) : Construction :=
  if c.currentNamed name then c.pop else c

/-- The end of a group of options, which ends the option inside it too. -/
def endOptionGroup (c : Construction) : Turn :=
  let c :=
    match c.stack with
    | e :: f :: _ => if e.named "option" && f.named "optgroup" then c.pop else c
    | _ => c
  if c.currentNamed "optgroup" then c.pop.done else c.unexpected.done

/-- Whether a selection is open that can be closed. -/
def hasSelect (c : Construction) : Bool :=
  inScope (·.endsSelectScope) (·.named "select") c.stack

/-- In a selection. -/
def inSelect (c : Construction) (item : Item) : Turn :=
  match item with
  | .null => c.unexpected.done
  | .text _ s => (c.addText s).done
  | .comment s => (c.addComment s).done
  | .startTag t =>
      match t.name with
      | "html" => c.startHtml t
      | "option" => ((c.popIf "option").openTag t).done
      | "optgroup" => (((c.popIf "option").popIf "optgroup").openTag t).done
      | "hr" => (((c.popIf "option").popIf "optgroup").addTag t).acknowledged
      | "select" =>
          let c := c.unexpected
          if c.hasSelect then (c.popThroughNamed "select").goToReset.done else c.done
      | "input" | "keygen" | "textarea" =>
          let c := c.unexpected
          if c.hasSelect then (c.popThroughNamed "select").againReset else c.done
      | "script" | "template" => c.startInHead t
      | _ => c.unexpected.done
  | .endTag t =>
      match t.name with
      | "optgroup" => c.endOptionGroup
      | "option" => if c.currentNamed "option" then c.pop.done else c.unexpected.done
      | "select" =>
          if c.hasSelect then (c.popThroughNamed "select").goToReset.done
          else c.unexpected.done
      | "template" => c.endTemplate
      | _ => c.unexpected.done
  | .endOfText => c.inBody item

/-- In a selection inside a table, which the tags of the table close. -/
def inSelectInTable (c : Construction) (item : Item) : Turn :=
  let parts := ["caption", "table", "tbody", "tfoot", "thead", "tr", "td", "th"]
  match item with
  | .startTag t =>
      if t.name ∈ parts then (c.unexpected.popThroughNamed "select").againReset
      else c.inSelect item
  | .endTag t =>
      if t.name ∈ parts then
        let c := c.unexpected
        if c.hasInTableScope t.name then (c.popThroughNamed "select").againReset else c.done
      else c.inSelect item
  | _ => c.inSelect item

/-- Takes the item in once more, by the rules that from now on hold for the template. -/
def againAs (c : Construction) (m : Mode) : Turn :=
  { c with templateModes := m :: c.templateModes.tail }.again m

/-- In a template whose contents have not begun yet. -/
def inTemplate (c : Construction) (item : Item) : Turn :=
  match item with
  | .text .. | .comment _ => c.inBody item
  | .startTag t =>
      if t.name ∈ headElements then c.startInHead t
      else match t.name with
        | "caption" | "colgroup" | "tbody" | "tfoot" | "thead" => c.againAs .inTable
        | "col" => c.againAs .inColumnGroup
        | "tr" => c.againAs .inTableBody
        | "td" | "th" => c.againAs .inRow
        | _ => c.againAs .inBody
  | .endTag t => if t.name = "template" then c.endTemplate else c.unexpected.done
  | .endOfText => c.endInTemplate
  | .null => c.unexpected.done

end Construction

end RichText
