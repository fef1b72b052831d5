import RichText.Html.Construction.Closing
import RichText.Html.Construction.Select
import RichText.Html.Construction.Table

/-!
Taking tokens in.

`Construction.rules` gives the rules of a mode, `take` takes one item in, in as many modes
as it is passed on to, and `feed` takes in a token. Every mode that passes an item on has
closed an element or gone on in the document, so that the number of open elements bounds
how often that happens.
-/

namespace RichText

namespace Construction

/-- The rules of a mode. -/
def rules (c : Construction) (m : Mode) (item : Item) : Turn :=
  match m with
  | .initial => c.inInitial item
  | .beforeHtml => c.inBeforeHtml item
  | .beforeHead => c.inBeforeHead item
  | .inHead => c.inHead item
  | .afterHead => c.inAfterHead item
  | .inBody => c.inBody item
  | .rawText => c.inRawText item
  | .inTable => c.inTable item
  | .inTableText => c.inTableText item
  | .inCaption => c.inCaption item
  | .inColumnGroup => c.inColumnGroup item
  | .inTableBody => c.inTableBody item
  | .inRow => c.inRow item
  | .inCell => c.inCell item
  | .inSelect => c.inSelect item
  | .inSelectInTable => c.inSelectInTable item
  | .inTemplate => c.inTemplate item
  | .afterBody => c.inAfterBody item
  | .inFrameset => c.inFrameset item
  | .afterFrameset => c.inAfterFrameset item
  | .afterAfterBody => c.inAfterAfterBody item
  | .afterAfterFrameset => c.inAfterAfterFrameset item

/-- One meeting of an item with the rules that hold for it. -/
def turn (c : Construction) (item : Item) : Turn :=
  if c.isForeign item then c.inForeign (fun c => c.rules c.mode) item
  else c.rules c.mode item

/-- Takes an item in, passing it on from mode to mode at most so often. -/
def takeTo (item : Item) : Nat → Construction → Turn
  | 0, c => c.done
  | rounds + 1, c =>
      match c.turn item with
      | (c, .again m) => takeTo item rounds (c.goTo m)
      | t => t

/-- How often an item can be passed on. -/
def rounds (c : Construction) : Nat :=
  8 * (c.stack.length + 8)

/-- Takes an item in. -/
def take (c : Construction) (item : Item) : Turn :=
  takeTo item c.rounds c

/-- The kind of a run of text, given its first character. -/
def kindOf (c : Char) : TextKind :=
  if isMarkupSpace c then .blank else .solid

/-- Takes text in by runs with and without white space, for as long as the mode asks for it;
`fuel` bounds the number of runs. -/
def takeText (s : List Char) : Nat → Construction → Construction
  | 0, c => c
  | fuel + 1, c =>
      match s with
      | [] => c
      | first :: _ =>
          match c.take (.text .mixed s) with
          | (c, .split) =>
              let inRun := fun x => isMarkupSpace x == isMarkupSpace first
              let c := (c.take (.text (kindOf first) (s.takeWhile inRun))).1
              takeText (s.dropWhile inRun) fuel c
          | (c, _) => c

/-- What the reading of markup has to heed behind a token: the inside of an element that holds
text only begins, or text to the end. -/
inductive Notice where
  | markup
  | raw (kind : RawKind) (name : String)
  | plaintext
  deriving DecidableEq, Repr, Inhabited

/-- Whether a declared document type lets tables stand in paragraphs. -/
def oldPublicPrefixes : List String :=
  ["-//advasoft ltd//dtd html 3.0 aswedit + extensions//",
    "-//as//dtd html 3.0 aswedit + extensions//", "-//ietf//dtd html 2.0 level 1//",
    "-//ietf//dtd html 2.0 level 2//", "-//ietf//dtd html 2.0 strict level 1//",
    "-//ietf//dtd html 2.0 strict level 2//", "-//ietf//dtd html 2.0 strict//",
    "-//ietf//dtd html 2.0//", "-//ietf//dtd html 2.1e//", "-//ietf//dtd html 3.0//",
    "-//ietf//dtd html 3.2 final//", "-//ietf//dtd html 3.2//", "-//ietf//dtd html 3//",
    "-//ietf//dtd html level 0//", "-//ietf//dtd html level 1//",
    "-//ietf//dtd html level 2//", "-//ietf//dtd html level 3//",
    "-//ietf//dtd html strict level 0//", "-//ietf//dtd html strict level 1//",
    "-//ietf//dtd html strict level 2//", "-//ietf//dtd html strict level 3//",
    "-//ietf//dtd html strict//", "-//ietf//dtd html//",
    "-//metrius//dtd metrius presentational//",
    "-//microsoft//dtd internet explorer 2.0 html strict//",
    "-//microsoft//dtd internet explorer 2.0 html//",
    "-//microsoft//dtd internet explorer 2.0 tables//",
    "-//microsoft//dtd internet explorer 3.0 html strict//",
    "-//microsoft//dtd internet explorer 3.0 html//",
    "-//microsoft//dtd internet explorer 3.0 tables//",
    "-//netscape comm. corp.//dtd html//", "-//netscape comm. corp.//dtd strict html//",
    "-//o'reilly and associates//dtd html 2.0//",
    "-//o'reilly and associates//dtd html extended 1.0//",
    "-//o'reilly and associates//dtd html extended relaxed 1.0//",
    "-//softquad software//dtd hotmetal pro 6.0::19990601::extensions to html 4.0//",
    "-//softquad//dtd hotmetal pro 4.0::19971010::extensions to html 4.0//",
    "-//spyglass//dtd html 2.0 extended//", "-//sq//dtd html 2.0 hotmetal + extensions//",
    "-//sun microsystems corp.//dtd hotjava html//",
    "-//sun microsystems corp.//dtd hotjava strict html//",
    "-//w3c//dtd html 3 1995-03-24//", "-//w3c//dtd html 3.2 draft//",
    "-//w3c//dtd html 3.2 final//", "-//w3c//dtd html 3.2//", "-//w3c//dtd html 3.2s draft//",
    "-//w3c//dtd html 4.0 frameset//", "-//w3c//dtd html 4.0 transitional//",
    "-//w3c//dtd html experimental 19960712//", "-//w3c//dtd html experimental 970421//",
    "-//w3c//dtd w3 html//", "-//w3o//dtd w3 html 3.0//", "-//webtechs//dtd mozilla html 2.0//",
    "-//webtechs//dtd mozilla html//"]

/-- Public identifiers of documents of old kinds. -/
def oldPublicIds : List String :=
  ["-//w3o//dtd w3 html strict 3.0//en//", "-/w3c/dtd html 4.0 transitional/en", "html"]

/-- Starts of public identifiers that count as old where no system identifier is given. -/
def oldWithoutSystem : List String :=
  ["-//w3c//dtd html 4.01 frameset//", "-//w3c//dtd html 4.01 transitional//"]

/-- Whether a document type is of an old kind, in which tables can stand in paragraphs. -/
def isOld (d : Doctype) : Bool :=
  let startsAmong := fun (starts : List String) (id : String) =>
    starts.any fun s => s.toList.isPrefixOf id.toList
  d.malformed || d.name ≠ some "html"
    || (d.publicId.map String.toLower).any (fun p =>
      p ∈ oldPublicIds || startsAmong oldPublicPrefixes p
        || d.systemId.isNone && startsAmong oldWithoutSystem p)
    || d.systemId.map String.toLower
      = some "http://www.ibm.com/data/dtd/v11/ibmxhtml1-transitional.dtd"

/-- Takes in a declaration of the document type, which has its place at the very beginning. -/
def takeDoctype (c : Construction) (d : Doctype) : Construction :=
  if c.mode = .initial then
    let h := c.heap.push
      { content := .doctype (d.name.getD "") (d.publicId.getD "") (d.systemId.getD "") }
    { c with
      heap := h.appendChild c.root c.heap.size
      tableInParagraph := isOld d
      mode := .beforeHtml }
  else c.fault .misplacedDoctype

/-- The text without the line feed that follows the start of some elements. -/
def withoutFirstNewline (drops : Bool) (s : List Char) : List Char :=
  if drops && s.head? = some '\n' then s.tail else s

/-- Takes in a start tag. A self-closing slash that no rule has heeded is a fault. -/
def takeStartTag (c : Construction) (t : Tag) : Construction × Notice :=
  match c.take (.startTag t) with
  | (c, .raw kind) => (c, .raw kind t.name)
  | (c, .plaintext) => (c, .plaintext)
  | (c, .done) => (c.expect (!t.selfClosing) .selfClosingIgnored, .markup)
  | (c, _) => (c, .markup)

/-- Takes in a token. -/
def feed (c : Construction) (t : Token) : Construction × Notice :=
  let drops := c.dropsNewline
  let c := { c with dropsNewline := false }
  match t with
  | .error e => (c.fault e, .markup)
  | .doctype d => (c.takeDoctype d, .markup)
  | .startTag t => c.takeStartTag t
  | .endTag t => ((c.take (.endTag t)).1, .markup)
  | .comment s => ((c.take (.comment s)).1, .markup)
  | .null => ((c.take .null).1, .markup)
  | .text s => (takeText (withoutFirstNewline drops s) (s.length + 1) c, .markup)

/-- Takes in the end of the text. -/
def finish (c : Construction) : Construction :=
  (c.take .endOfText).1

end Construction

end RichText
