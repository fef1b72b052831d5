import RichText.Dom.Mutation
import RichText.Html.Construction.Scope
import RichText.Html.Token
import RichText.Text.Blank

/-!
The state of the construction of a tree, and its elementary moves.

A `Construction` holds the nodes made so far, the open elements, the formatting elements
that are to be opened again, and the `Mode` that tells where in a document the next item
belongs. The moves open and close elements and put nodes and text where they go: inside the
current element, or, for what has no place in a table, in front of the table.

The rules of the modes are functions from a state and an `Item` to a `Turn`: the new state,
and what is to be done next.
-/

namespace RichText

/-- Where in a document the construction is. -/
inductive Mode where
  | initial
  | beforeHtml
  | beforeHead
  | inHead
  | afterHead
  | inBody
  | rawText
  | inTable
  | inTableText
  | inCaption
  | inColumnGroup
  | inTableBody
  | inRow
  | inCell
  | inSelect
  | inSelectInTable
  | inTemplate
  | afterBody
  | inFrameset
  | afterFrameset
  | afterAfterBody
  | afterAfterFrameset
  deriving DecidableEq, Repr, Inhabited

/-- What is known of a piece of text: that it is white space only, that it has none, or
nothing. -/
inductive TextKind where
  | mixed
  | blank
  | solid
  deriving DecidableEq, Repr, Inhabited

/-- What the construction takes in. -/
inductive Item where
  | startTag (t : Tag)
  | endTag (t : Tag)
  | comment (s : String)
  | text (kind : TextKind) (s : List Char)
  | null
  | endOfText
  deriving DecidableEq, Repr, Inhabited

/-- What is to be done after an item has met the rules of a mode. -/
inductive Outcome where
  /-- The item has been dealt with. -/
  | done
  /-- The item has been dealt with, and so has its self-closing slash. -/
  | acknowledged
  /-- The item is to be taken in once more, in another mode. -/
  | again (m : Mode)
  /-- The text is to be taken in by runs with and without white space. -/
  | split
  /-- What follows is the inside of an element that holds text only. -/
  | raw (kind : RawKind)
  /-- What follows is text to the end. -/
  | plaintext
  deriving DecidableEq, Repr, Inhabited

/-- A formatting element that is opened again when text goes on outside it; a marker keeps
those before it from being opened inside a cell, a template or the like. -/
inductive FormattingEntry where
  | marker
  | element (id : NodeId) (name : String) (attributes : List Attribute)
  deriving DecidableEq, Repr, Inhabited

/-- The identity of a formatting element. -/
def FormattingEntry.id? : FormattingEntry → Option NodeId
  | .marker => none
  | .element id .. => some id

/-- The state of the construction of a tree. The innermost open element, the latest
formatting element and the innermost template mode come first; `pendingText` is the text met
in a table, the latest piece first. -/
structure Construction where
  heap : Heap
  root : NodeId
  stack : List OpenElement := []
  formatting : List FormattingEntry := []
  mode : Mode := .initial
  returnMode : Mode := .initial
  templateModes : List Mode := []
  head : Option OpenElement := none
  form : Option NodeId := none
  framesetOk : Bool := true
  dropsNewline : Bool := false
  fostering : Bool := false
  tableInParagraph : Bool := false
  isFragment : Bool := false
  pendingText : List (List Char) := []
  errors : List ParseError := []
  deriving Repr, Inhabited

/-- The state after an item has met the rules of a mode, and what is to be done next. -/
abbrev Turn := Construction × Outcome

namespace Construction

/-! ### Outcomes and faults -/

/-- The item has been dealt with. -/
def done (c : Construction) : Turn := (c, .done)

/-- The item and its self-closing slash have been dealt with. -/
def acknowledged (c : Construction) : Turn := (c, .acknowledged)

/-- The item is taken in once more, in another mode. -/
def again (c : Construction) (m : Mode) : Turn := (c, .again m)

/-- The text is taken in by runs. -/
def split (c : Construction) : Turn := (c, .split)

/-- Notes a fault. -/
def fault (c : Construction) (e : ParseError) : Construction :=
  { c with errors := c.errors ++ [e] }

/-- Notes that the item has no place here. -/
def unexpected (c : Construction) : Construction :=
  c.fault .unexpectedToken

/-- Notes a fault if a condition does not hold. -/
def expect (c : Construction) (ok : Bool) (e : ParseError) : Construction :=
  if ok then c else c.fault e

/-- Goes on in a mode. -/
def goTo (c : Construction) (m : Mode) : Construction :=
  { c with mode := m }

/-- Notes that the document can no longer become a frameset. -/
def noFrameset (c : Construction) : Construction :=
  { c with framesetOk := false }

/-! ### The open elements -/

/-- Whether the current element is the HTML element of the given name. -/
def currentNamed (c : Construction) (name : String) : Bool :=
  c.stack.head?.any (·.named name)

/-- Whether the current element is an HTML element with one of the given names. -/
def currentAmong (c : Construction) (names : List String) : Bool :=
  c.stack.head?.any (·.among names)

/-- Whether some open element is the HTML element of the given name. -/
def hasOpen (c : Construction) (name : String) : Bool :=
  c.stack.any (·.named name)

/-- Whether the HTML element of the given name is in the ordinary scope. -/
def hasInScope (c : Construction) (name : String) : Bool :=
  inScope (·.endsScope) (·.named name) c.stack

/-- Whether the HTML element of the given name is in the scope inside tables. -/
def hasInTableScope (c : Construction) (name : String) : Bool :=
  inScope (·.endsTableScope) (·.named name) c.stack

/-- Opens an element. -/
def push (c : Construction) (e : OpenElement) : Construction :=
  { c with stack := e :: c.stack }

/-- Closes the current element. -/
def pop (c : Construction) : Construction :=
  { c with stack := c.stack.tail }

/-- Closes elements from the innermost on while they have a property. -/
def popWhile (c : Construction) (p : OpenElement → Bool) : Construction :=
  { c with stack := c.stack.dropWhile p }

/-- Closes elements up to and including the first that has a property. -/
def popThrough (c : Construction) (p : OpenElement → Bool) : Construction :=
  (c.popWhile fun e => !p e).pop

/-- Closes elements up to and including the HTML element of the given name. -/
def popThroughNamed (c : Construction) (name : String) : Construction :=
  c.popThrough (·.named name)

/-- Closes elements until the current one has one of the given names. -/
def popTo (c : Construction) (names : List String) : Construction :=
  c.popWhile fun e => !e.among names

/-- Takes an element out of the open ones, wherever it is. -/
def removeOpen (c : Construction) (id : NodeId) : Construction :=
  { c with stack := c.stack.eraseP (·.id = id) }

/-- Closes the elements that an end tag around them closes. -/
def closeImplied (c : Construction) : Construction :=
  c.popWhile (·.hasImpliedEnd)

/-- Closes the elements that an end tag around them closes, but not those of one name. -/
def closeImpliedExcept (c : Construction) (name : String) : Construction :=
  c.popWhile fun e => !e.named name && e.hasImpliedEnd

/-- Closes elements through the one of the given name, which should be the current one. -/
def closeExpected (c : Construction) (name : String) : Construction :=
  (c.expect (c.currentNamed name) .openInside).popThroughNamed name

/-- Closes a paragraph. -/
def closeParagraph (c : Construction) : Construction :=
  (c.closeImpliedExcept "p").closeExpected "p"

/-- Whether a paragraph is open that a new block closes. -/
def hasParagraph (c : Construction) : Bool :=
  inScope (·.endsButtonScope) (·.named "p") c.stack

/-- Closes the paragraph that a new block closes, if there is one. -/
def endParagraph (c : Construction) : Construction :=
  if c.hasParagraph then c.closeParagraph else c

/-! ### Places -/

/-- Where a node goes: behind the children of a node, or in front of a table, or, if the table
has been taken out of the tree, behind the children of the element around it. -/
inductive Place where
  | inside (p : NodeId)
  | beforeTable (table around : NodeId)
  deriving DecidableEq, Repr

/-- What holds the nodes of an element: for a template, the root of its contents. -/
def holder (c : Construction) (e : OpenElement) : NodeId :=
  if e.named "template" then ((c.heap.node e.id).contents).getD e.id else e.id

/-- The place in front of the innermost table, or in a template if that comes first. -/
def fosterPlace (c : Construction) : List OpenElement → Place
  | [] => .inside c.root
  | [e] => .inside (c.holder e)
  | e :: f :: es =>
      if e.named "template" then .inside (c.holder e)
      else if e.named "table" then .beforeTable e.id f.id
      else c.fosterPlace (f :: es)

/-- The place for a node that belongs to an element. -/
def placeIn (c : Construction) (e : OpenElement) : Place :=
  if c.fostering && e.among ["table", "tbody", "tfoot", "thead", "tr"] then c.fosterPlace c.stack
  else .inside (c.holder e)

/-- The place for a node that belongs to the current element. -/
def place (c : Construction) : Place :=
  match c.stack with
  | [] => .inside c.root
  | e :: _ => c.placeIn e

/-- The parent and the index that a place in front of a table comes to. -/
def besideTable? (h : Heap) (table : NodeId) : Option (NodeId × Nat) := do
  let p ← h.parent table
  let i ← (h.children p).idxOf? table
  return (p, i)

/-- Puts a node without parent in its place. -/
def putNode (h : Heap) (i : NodeId) : Place → Heap
  | .inside p => h.appendChild p i
  | .beforeTable table around =>
      match besideTable? h table with
      | some (p, index) => h.insertAt p index [i]
      | none => h.appendChild around i

/-- Adds text behind a child of a node: to the child if that is text, or else as a new node
at the index behind it. -/
def putTextBehind (h : Heap) (p : NodeId) (previous : Option NodeId) (index : Nat) (s : String) :
    Heap :=
  match previous.map fun i => (i, h.content i) with
  | some (i, .text t) => h.update i fun n => { n with content := .text (t ++ s) }
  | _ => (h.push { content := .text s }).insertAt p index [h.size]

/-- Puts text in its place, joined to the text in front of it. -/
def putText (h : Heap) (s : String) : Place → Heap
  | .inside p => putTextBehind h p (h.children p).getLast? (h.children p).length s
  | .beforeTable table around =>
      match besideTable? h table with
      | some (p, index) =>
          putTextBehind h p (if index = 0 then none else (h.children p)[index - 1]?) index s
      | none => putTextBehind h around (h.children around).getLast? (h.children around).length s

/-! ### Nodes -/

/-- Makes the node of an element; a template gets a root for its contents. -/
def make (c : Construction) (e : Element) : Construction × NodeId :=
  let i := c.heap.size
  if e.vocabulary = .html && e.name = "template" then
    let h := c.heap.push { content := .element e, contents := some (i + 1) }
    ({ c with heap := h.push { content := .document } }, i)
  else ({ c with heap := c.heap.push { content := .element e } }, i)

/-- Whether an element is an annotation whose encoding is HTML. -/
def isHtmlAnnotation (e : Element) : Bool :=
  e.vocabulary = .mathml && e.name = "annotation-xml"
    && e.attributes.any fun a =>
      a.name = "encoding" && a.reserved = .none
        && a.value.toLower ∈ ["text/html", "application/xhtml+xml"]

/-- The entry of an element among the open ones. -/
def entry (i : NodeId) (e : Element) : OpenElement :=
  { id := i, name := e.name, vocabulary := e.vocabulary, holdsHtml := isHtmlAnnotation e }

/-- Makes the node of an element and puts it in its place. -/
def insert (c : Construction) (e : Element) : Construction × NodeId :=
  let (c, i) := c.make e
  ({ c with heap := putNode c.heap i c.place }, i)

/-- Makes the node of an element, puts it in its place and opens it. -/
def insertOpen (c : Construction) (e : Element) : Construction :=
  let (c, i) := c.insert e
  c.push (entry i e)

/-- The HTML element of a tag. -/
def elementOf (t : Tag) : Element :=
  { name := t.name, attributes := t.attributes }

/-- Opens the HTML element of a tag. -/
def openTag (c : Construction) (t : Tag) : Construction :=
  c.insertOpen (elementOf t)

/-- Puts in the HTML element of a tag that has no inside. -/
def addTag (c : Construction) (t : Tag) : Construction :=
  (c.insert (elementOf t)).1

/-- Opens an HTML element that the text does not have. -/
def openImplied (c : Construction) (name : String) : Construction :=
  c.insertOpen { name := name }

/-- Adds text to the current element. -/
def addText (c : Construction) (s : List Char) : Construction :=
  { c with heap := putText c.heap (String.ofList s) c.place }

/-- Adds a comment to the current element. -/
def addComment (c : Construction) (s : String) : Construction :=
  let i := c.heap.size
  { c with heap := putNode (c.heap.push { content := .comment s }) i c.place }

/-- Adds a comment behind the children of a node. -/
def addCommentTo (c : Construction) (p : NodeId) (s : String) : Construction :=
  { c with heap := (c.heap.push { content := .comment s }).appendChild p c.heap.size }

/-- Adds a comment to the document. -/
def addCommentToRoot (c : Construction) (s : String) : Construction :=
  c.addCommentTo c.root s

/-- Adds a comment to the outermost element. -/
def addCommentToHtml (c : Construction) (s : String) : Construction :=
  c.addCommentTo ((c.stack.getLast?.map (·.id)).getD c.root) s

/-- Adds to a node the attributes that it does not have yet. -/
def addMissing (c : Construction) (i : NodeId) (as : List Attribute) : Construction :=
  match c.heap.element? i with
  | some e =>
      { c with heap := c.heap.update i fun n => { n with content := .element (e.addMissing as) } }
  | none => c

/-- Opens the outermost element. -/
def openHtml (c : Construction) (as : List Attribute) : Construction :=
  let e : Element := { name := "html", attributes := as }
  let (c, i) := c.make e
  { c with heap := c.heap.appendChild c.root i, stack := entry i e :: c.stack }

/-- Opens an element that holds text only, to come back to the present mode behind it. -/
def openRaw (c : Construction) (t : Tag) (kind : RawKind) : Turn :=
  ({ c.openTag t with returnMode := c.mode, mode := .rawText }, .raw kind)

/-- Whether a text has characters that are not white space. -/
def hasSolid (s : List Char) : Bool :=
  s.any fun c => !isMarkupSpace c

end Construction

end RichText
