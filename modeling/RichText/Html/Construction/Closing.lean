import RichText.Html.Construction.Body

/-!
Text-only elements, framesets, and what follows the end of the body.
-/

namespace RichText

namespace Construction

/-- Inside an element that holds text only. -/
def inRawText (c : Construction) (item : Item) : Turn :=
  match item with
  | .text _ s => (c.addText s).done
  | .endTag _ => (c.pop.goTo c.returnMode).done
  | .endOfText => c.unexpected.pop.again c.returnMode
  | _ => c.done

/-- Behind the end of the body. -/
def inAfterBody (c : Construction) (item : Item) : Turn :=
  let otherwise := c.unexpected.again .inBody
  match item with
  | .text .mixed _ => c.split
  | .text .blank _ => c.inBody item
  | .comment s => (c.addCommentToHtml s).done
  | .startTag t => if t.name = "html" then c.startHtml t else otherwise
  | .endTag t =>
      if t.name = "html" then
        if c.isFragment then c.unexpected.done else (c.goTo .afterAfterBody).done
      else otherwise
  | .endOfText => c.done
  | _ => otherwise

/-- Behind the end of the outermost element. -/
def inAfterAfterBody (c : Construction) (item : Item) : Turn :=
  let otherwise := c.unexpected.again .inBody
  match item with
  | .text .mixed _ => c.split
  | .text .blank _ => c.inBody item
  | .comment s => (c.addCommentToRoot s).done
  | .startTag t => if t.name = "html" then c.startHtml t else otherwise
  | .endOfText => c.done
  | _ => otherwise

/-- In a frameset. -/
def inFrameset (c : Construction) (item : Item) : Turn :=
  match item with
  | .text .mixed _ => c.split
  | .text .blank s => (c.addText s).done
  | .comment s => (c.addComment s).done
  | .startTag t =>
      match t.name with
      | "html" => c.startHtml t
      | "frameset" => (c.openTag t).done
      | "frame" => (c.addTag t).acknowledged
      | "noframes" => c.startInHead t
      | _ => c.unexpected.done
  | .endTag t =>
      if t.name = "frameset" then
        if c.stack.length = 1 then c.unexpected.done
        else
          let c := c.pop
          (if !c.isFragment && !c.currentNamed "frameset" then c.goTo .afterFrameset else c).done
      else c.unexpected.done
  | .endOfText => (c.expect (c.stack.length = 1) .unexpectedToken).done
  | _ => c.unexpected.done

/-- Behind a frameset. -/
def inAfterFrameset (c : Construction) (item : Item) : Turn :=
  match item with
  | .text .mixed _ => c.split
  | .text .blank s => (c.addText s).done
  | .comment s => (c.addComment s).done
  | .startTag t =>
      match t.name with
      | "html" => c.startHtml t
      | "noframes" => c.startInHead t
      | _ => c.unexpected.done
  | .endTag t =>
      if t.name = "html" then (c.goTo .afterAfterFrameset).done else c.unexpected.done
  | .endOfText => c.done
  | _ => c.unexpected.done

/-- Behind the outermost element of a document with a frameset. -/
def inAfterAfterFrameset (c : Construction) (item : Item) : Turn :=
  match item with
  | .text .mixed _ => c.split
  | .text .blank _ => c.inBody item
  | .comment s => (c.addCommentToRoot s).done
  | .startTag t =>
      match t.name with
      | "html" => c.startHtml t
      | "noframes" => c.startInHead t
      | _ => c.unexpected.done
  | .endOfText => c.done
  | _ => c.unexpected.done

end Construction

end RichText
