import RichText.Content.Recovery
import RichText.Html.Parse

/-!
Content to a tree and back.

* `readContent`: the nodes of content, read as a document behind an encoding declaration;
* `readMarkup`: the nodes of markup that stands in a body, and the faults met in it;
* `writeNodes`: the markup of sibling nodes;
* `canonicalForm`: content read, written and recovered, with nothing done in between.
-/

namespace RichText

/-- The nodes of the document that content is read as. -/
def readContent (content : String) : List Tree :=
  parseDocument (declaration ++ content.toList)

/-- The nodes of markup that stands in a body, and the texts of the faults met in it. -/
def readMarkup (markup : String) : List Tree × List String :=
  let (nodes, errors) := parseFragment markup.toList
  (nodes, errors.map ParseError.message)

/-- The markup of sibling nodes. -/
def writeNodes (nodes : List Tree) : String :=
  String.ofList (serialize nodes)

/-- Content read, written back and recovered from what was written. -/
def canonicalForm (content : String) (restore : Bool) : String :=
  recoverContent (writeNodes (readContent content)) content restore

end RichText
