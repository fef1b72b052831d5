import RichText.Html.Construction.Basic

/-!
Formatting elements that overlap others.

* `reopenFormatting`: opens again the formatting elements that were closed around;
* `openFormatting`: opens one, keeping at most three of the same kind;
* `closeFormatting`: closes one across the blocks inside it, by moving what is inside and
  putting copies of the element where they belong;
* `closeOrdinary`: closes any other element in the body.
-/

namespace RichText

/-- The entry with one identity exchanged for another. -/
def FormattingEntry.renamed (old new : NodeId) : FormattingEntry → FormattingEntry
  | .marker => .marker
  | .element i name attributes => .element (if i = old then new else i) name attributes

/-- Whether an entry is a formatting element of the given name. -/
def FormattingEntry.named (name : String) : FormattingEntry → Bool
  | .marker => false
  | .element _ n _ => n = name

namespace Construction

/-- Whether a formatting element needs not be opened again. -/
def isSettled (c : Construction) (f : FormattingEntry) : Bool :=
  match f.id? with
  | none => true
  | some i => c.stack.any (·.id = i)

/-- Opens copies of formatting elements, the last of the list first, in front of the entries
that stay. -/
def reopen (c : Construction) (kept : List FormattingEntry) :
    List FormattingEntry → Construction
  | [] => { c with formatting := kept }
  | .marker :: fs => c.reopen kept fs
  | .element _ name attributes :: fs =>
      let (c, i) := c.insert { name := name, attributes }
      (c.push { id := i, name }).reopen (.element i name attributes :: kept) fs

/-- Opens again the formatting elements that have been closed since the last marker or the
last one still open. -/
def reopenFormatting (c : Construction) : Construction :=
  let pending := c.formatting.takeWhile fun f => !c.isSettled f
  let kept := c.formatting.dropWhile fun f => !c.isSettled f
  if pending.isEmpty then c else c.reopen kept pending.reverse

/-- The formatting entries since the last marker, the latest first. -/
def currentFormatting (c : Construction) : List FormattingEntry :=
  c.formatting.takeWhile fun f => f.id?.isSome

/-- Whether two lists of attributes agree but for their order. -/
def sameAttributes (as bs : List Attribute) : Bool :=
  as.length = bs.length && as.all (· ∈ bs)

/-- Whether an entry is a formatting element like the one of a tag. -/
def isLike (t : Tag) : FormattingEntry → Bool
  | .marker => false
  | .element _ name attributes => name = t.name && sameAttributes attributes t.attributes

/-- The entries without the earliest of three that are like a tag; `seen` counts those met. -/
def dropThird (t : Tag) : Nat → List FormattingEntry → List FormattingEntry
  | _, [] => []
  | seen, f :: fs =>
      if f = .marker then f :: fs
      else if isLike t f then
        if seen = 2 then fs else f :: dropThird t (seen + 1) fs
      else f :: dropThird t seen fs

/-- Opens the formatting element of a tag and enters it into the list, where at most three of
the same kind are kept. -/
def openFormatting (c : Construction) (t : Tag) : Construction :=
  let c := { c with formatting := dropThird t 0 c.formatting }
  let i := c.heap.size
  let c := c.openTag t
  { c with formatting := .element i t.name t.attributes :: c.formatting }

/-- Enters a marker. -/
def mark (c : Construction) : Construction :=
  { c with formatting := .marker :: c.formatting }

/-- Forgets the formatting elements through the last marker. -/
def forgetToMarker (c : Construction) : Construction :=
  { c with formatting := (c.formatting.dropWhile fun f => f.id?.isSome).tail }

/-- Forgets a formatting element. -/
def forget (c : Construction) (i : NodeId) : Construction :=
  { c with formatting := c.formatting.eraseP (·.id? = some i) }

/-- Closes an element in the body that has no rules of its own: the innermost open one of its
name, unless a special element is inside it. -/
def closeOrdinary (c : Construction) (name : String) : Construction :=
  match c.stack.find? fun e => e.named name || e.isSpecial with
  | none => c.unexpected
  | some e =>
      if e.named name then
        let c := c.closeImpliedExcept name
        (c.expect (c.stack.head?.any (·.id = e.id)) .unexpectedToken).popThrough (·.id = e.id)
      else c.fault .specialInside

/-! ### Closing across blocks -/

/-- What is carried through the elements between a block and the formatting element around it:
the node to be moved next, and the entry behind which the new one is to go. -/
structure Carry where
  moved : NodeId
  behind : Option NodeId := none
  deriving Repr

/-- Goes from a block outwards to the formatting element around it. The elements between that
are formatting elements themselves are replaced by copies, which take in what has been
carried so far; from the fourth on they are forgotten. Elements that are not are closed.
Returns the elements that stay open, the innermost first. -/
def carryOut (block : NodeId) :
    Construction → Nat → Carry → List OpenElement → Construction × Carry × List OpenElement
  | c, _, carry, [] => (c, carry, [])
  | c, count, carry, e :: es =>
      match c.formatting.find? (·.id? = some e.id) with
      | some (.element _ name attributes) =>
          if 3 ≤ count then carryOut block (c.forget e.id) (count + 1) carry es
          else
            let (c, i) := c.make { name := name, attributes }
            let c :=
              { c with
                formatting := c.formatting.map (FormattingEntry.renamed e.id i)
                heap := (c.heap.detach carry.moved).appendChild i carry.moved }
            let behind := if carry.moved = block then some i else carry.behind
            let (c, carry, es) := carryOut block c (count + 1) { moved := i, behind } es
            (c, carry, { id := i, name } :: es)
      | _ => carryOut block c (count + 1) carry es

/-- The entries with the formatting element taken out and its copy put in: at its own place,
or in front of (that is, later than) the entry `behind`. -/
def moveEntry (old : NodeId) (new : FormattingEntry) :
    Option NodeId → List FormattingEntry → List FormattingEntry
  | none, fs => fs.map fun f => if f.id? = some old then new else f
  | some behind, fs =>
      (fs.flatMap fun f => if f.id? = some behind then [new, f] else [f]).eraseP
        (·.id? = some old)

/-- Moves the inside of the furthest block of a formatting element into a copy of that element,
and the block out of it. `inner` are the open elements inside the block, `between` those
between the block and the formatting element, and `outer` those around it. -/
def moveBlock (c : Construction) (format : OpenElement) (name : String)
    (attributes : List Attribute) (inner : List OpenElement) (block : OpenElement)
    (between outer : List OpenElement) : Construction :=
  let (c, carry, between) := carryOut block.id c 0 { moved := block.id } between
  let c :=
    { c with
      heap := c.heap.detach carry.moved
      stack := inner ++ block :: between ++ format :: outer }
  let place := (outer.head?.map c.placeIn).getD (.inside c.root)
  let c := { c with heap := putNode c.heap carry.moved place }
  let (c, i) := c.make { name := name, attributes }
  let heap := (c.heap.moveChildren block.id i).appendChild block.id i
  { c with
    heap
    formatting := moveEntry format.id (.element i name attributes) carry.behind c.formatting
    stack := inner ++ { id := i, name } :: block :: between ++ outer }

/-- What one round of closing a formatting element comes to. -/
inductive Round where
  | finished (c : Construction)
  | again (c : Construction)

/-- One round of closing the formatting elements of a name. -/
def closeFormattingOnce (c : Construction) (name : String) : Round :=
  match c.currentFormatting.find? (·.named name) with
  | some (.element id _ attributes) =>
      match c.stack.find? (·.id = id) with
      | none => .finished ((c.fault .formattingNotOpen).forget id)
      | some format =>
          if !inScope (·.endsScope) (·.id = id) c.stack then
            .finished (c.fault .formattingNotInScope)
          else
            let c := c.expect (c.stack.head?.any (·.id = id)) .formattingNotCurrent
            let within := c.stack.takeWhile (·.id ≠ id)
            let outer := (c.stack.dropWhile (·.id ≠ id)).tail
            -- the block furthest out is the last special element inside
            match (within.reverse.dropWhile fun e => !e.isSpecial) with
            | [] => .finished ({ c with stack := outer }.forget id)
            | block :: inner =>
                let between := (within.reverse.takeWhile fun e => !e.isSpecial).reverse
                .again (c.moveBlock format name attributes inner.reverse block between outer)
  | _ => .finished (c.closeOrdinary name)

/-- Rounds of closing the formatting elements of a name, up to a number. -/
def closeFormattingRounds (c : Construction) (name : String) : Nat → Construction
  | 0 => c
  | n + 1 =>
      match c.closeFormattingOnce name with
      | .finished c => c
      | .again c => c.closeFormattingRounds name n

/-- Closes a formatting element, across the blocks inside it if need be. -/
def closeFormatting (c : Construction) (name : String) : Construction :=
  let current := c.stack.head?.filter (·.named name)
  match current with
  | some e =>
      if c.formatting.any (·.id? = some e.id) then c.closeFormattingRounds name 8 else c.pop
  | none => c.closeFormattingRounds name 8

/-- Closes the link that is still open where another begins. -/
def closeLink (c : Construction) : Construction :=
  match c.currentFormatting.find? (·.named "a") with
  | some (.element id ..) => ((c.unexpected.closeFormatting "a").forget id).removeOpen id
  | _ => c

end Construction

end RichText
