import RichText.Dom.Planting
import RichText.Html.Construction.Feed
import RichText.Html.Lexer.Markup

/-!
Markup read as a tree.

* `parseDocument`: the nodes of a whole document;
* `parseFragment`: the nodes of a piece of a body, and the faults met.

Reading and construction take turns (`Construction.build`): what has been constructed decides
how the text behind a tag is read.
-/

namespace RichText

namespace Construction

/-- Whether sections of character data are known where the construction stands. -/
def inForeignElement (c : Construction) : Bool :=
  c.stack.head?.any (·.vocabulary ≠ .html)

/-- What the next unit of a text is read as. -/
def Notice.lexMode (otherwise : LexMode) : Notice → LexMode
  | .markup => otherwise
  | .raw kind name => .raw kind name
  | .plaintext => .plaintext none

/-- Takes in the tokens of one unit; the notice given last counts. -/
def feedAll (c : Construction) (mode : LexMode) : List Token → Construction × LexMode
  | [] => (c, mode)
  | t :: ts =>
      let (c, notice) := c.feed t
      feedAll c (notice.lexMode mode) ts

/-- Takes in a text to its end. -/
def build (c : Construction) (mode : LexMode) (s : List Char) : Construction :=
  match s with
  | [] => c.finish
  | ch :: cs =>
      let step := LexStep.next c.inForeignElement mode ch cs
      let (c, mode) := c.feedAll step.mode step.lexeme.tokens
      build c mode step.lexeme.rest
termination_by s.length
decreasing_by
  simpa using Nat.lt_succ_of_le (LexStep.length_next_rest_le _ _ _ _)

/-- The state before anything has been taken in: a document without children. -/
def start : Construction :=
  { heap := ({} : Heap).push { content := .document }, root := 0 }

/-- The state before a fragment is taken in: its outermost element is open. -/
def startFragment : Construction :=
  ({ start with isFragment := true }.openHtml []).goToReset

end Construction

/-- The text as it is read: without the mark of byte order and with line ends joined. -/
def prepare (s : List Char) : List Char :=
  joinNewlines (withoutByteOrderMark s)

/-- The nodes of the document that a text is. -/
def parseDocument (s : List Char) : List Tree :=
  let c := Construction.start.build (.markup none) (prepare s)
  c.heap.forest c.root

/-- The nodes inside the outermost element, and any node beside it. -/
def unroot : Tree → List Tree
  | .element e children => if e.name = "html" then children else [.element e children]
  | t => [t]

/-- The nodes of a text that stands in a body, and the faults met in it. -/
def parseFragment (s : List Char) : List Tree × List ParseError :=
  let c := Construction.startFragment.build (.markup none) (prepare s)
  ((c.heap.forest c.root).flatMap unroot, c.errors)

end RichText
