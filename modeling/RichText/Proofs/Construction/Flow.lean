import RichText.Html.Parse
import RichText.Proofs.Heap.Growing

/-!
Text and elements inside an element of a body.

* `Within`, `Inside`: the construction goes on inside an HTML element, with no formatting element
  to be opened again, for text or for whatever stands in a body;
* `feed_text`, `feed_startTag`, `feed_endTag`: **what a token does there**;
* `build_cons`: a text taken in unit by unit.
-/

namespace RichText

namespace Construction

variable {c c' : Construction} {e : OpenElement} {es : List OpenElement} {p : NodeId} {item : Item}

/-! ### Taking items in -/

lemma withDropsNewline_eq (hdrops : c.dropsNewline = false) :
    { c with dropsNewline := false } = c := by
  rw [← hdrops]

/-- A start tag that has been dealt with. -/
lemma feed_startTag_of_take {t : Tag} (hdrops : c.dropsNewline = false)
    (hclosing : t.selfClosing = false) (htake : c.take (.startTag t) = (c', .done)) :
    c.feed (.startTag t) = (c', .markup) := by
  rw [feed]
  simp only [withDropsNewline_eq hdrops, takeStartTag, htake, hclosing, Bool.not_false, expect,
    if_true]

/-- A start tag that has been dealt with, but for its slash. -/
lemma feed_selfClosing_of_take {t : Tag} (hdrops : c.dropsNewline = false)
    (hclosing : t.selfClosing = true) (htake : c.take (.startTag t) = (c', .done)) :
    c.feed (.startTag t) = (c'.fault .selfClosingIgnored, .markup) := by
  rw [feed]
  simp only [withDropsNewline_eq hdrops, takeStartTag, htake, hclosing, Bool.not_true, expect,
    Bool.false_eq_true, if_false]

/-- A text that has been dealt with. -/
lemma feed_text_of_takeText {s : List Char} (hdrops : c.dropsNewline = false)
    (htake : takeText s (s.length + 1) c = c') : c.feed (.text s) = (c', .markup) := by
  have hnewline : withoutFirstNewline c.dropsNewline s = s := by
    rw [hdrops]
    rfl
  rw [feed]
  simp only [withDropsNewline_eq hdrops, hnewline, htake]

lemma turn_of_html (hstack : c.stack = e :: es) (he : e.vocabulary = .html) (item : Item) :
    c.turn item = c.rules c.mode item := by
  have hforeign : c.isForeign item = false := by
    unfold isForeign
    rw [hstack]
    cases item <;> simp [he]
  rw [turn, hforeign]
  rfl

/-- An item that is passed on meets the rules of another mode. -/
lemma takeTo_again {m : Mode} (hturn : c.turn item = c'.again m) (n : ℕ) :
    takeTo item (n + 1) c = takeTo item n (c'.goTo m) := by
  rw [takeTo, hturn]
  rfl

/-- An item that is not passed on has been taken in. -/
lemma take_of_turn {outcome : Outcome} (hturn : c.turn item = (c', outcome))
    (hnot : ∀ m, outcome ≠ .again m) : c.take item = (c', outcome) := by
  rw [take, rounds, Nat.mul_add, takeTo, hturn]
  cases outcome with
  | again m => exact absurd rfl (hnot m)
  | _ => rfl

/-- Nodes go to what holds those of the current element. -/
lemma place_of_stack (hstack : c.stack = e :: es) (hfostering : c.fostering = false) :
    c.place = .inside (c.holder e) := by
  simp only [place, hstack, placeIn, hfostering, Bool.false_and]
  rfl

/-- An element that is not a template holds its nodes itself. -/
lemma holder_of_name (c : Construction) (hname : e.name ≠ "template") : c.holder e = e.id := by
  have hnamed : e.named "template" = false := by simp [OpenElement.named, hname]
  rw [holder, hnamed]
  rfl

/-- What holds the nodes of an element does not change with other nodes. -/
lemma holder_congr (h : (c'.heap.node e.id).contents = (c.heap.node e.id).contents) :
    c'.holder e = c.holder e := by
  rw [holder, holder, h]

/-- Whether text goes on inside the HTML element `e`, whose nodes go below `p`. -/
structure Within (c : Construction) (e : OpenElement) (es : List OpenElement) (p : NodeId) :
    Prop where
  stack : c.stack = e :: es
  mode_or : c.mode = .inBody ∨ c.mode = .inTemplate
  settled : ∀ f ∈ c.formatting.head?, f.id? = none
  fostering : c.fostering = false
  dropsNewline : c.dropsNewline = false
  vocabulary : e.vocabulary = .html
  holder_eq : c.holder e = p
  wellFormed : c.heap.WellFormed
  open_lt : e.id < c.heap.size
  id_lt : p < c.heap.size

/-- Whether the construction goes on in a body, inside the HTML element `e`, whose nodes go
below `p`. -/
structure Inside (c : Construction) (e : OpenElement) (es : List OpenElement) (p : NodeId) : Prop
    extends c.Within e es p where
  mode : c.mode = .inBody

/-- The construction with other nodes; something may have been shown meanwhile. -/
def grown (c : Construction) (h : Heap) (ok : Bool) : Construction :=
  { c with heap := h, framesetOk := ok }

@[simp] lemma heap_grown (c : Construction) (h : Heap) (ok : Bool) : (c.grown h ok).heap = h := rfl

namespace Within

lemma grown (hc : c.Within e es p) {h : Heap} {ts : List Tree}
    (hts : Heap.PlantedBelow c.heap h p ts) (ok : Bool) : (c.grown h ok).Within e es p where
  stack := hc.stack
  mode_or := hc.mode_or
  settled := hc.settled
  fostering := hc.fostering
  dropsNewline := hc.dropsNewline
  vocabulary := hc.vocabulary
  holder_eq := by
    rw [← hc.holder_eq]
    refine holder_congr ?_
    rw [heap_grown]
    by_cases hp : e.id = p
    · rw [hp]
      exact congrArg Prod.snd hts.bare_eq
    · rw [hts.node_eq e.id hc.open_lt hp]
  wellFormed := hts.wellFormed
  open_lt := Nat.lt_of_lt_of_le hc.open_lt hts.size_le
  id_lt := Nat.lt_of_lt_of_le hc.id_lt hts.size_le

lemma place_eq (hc : c.Within e es p) : c.place = .inside p := by
  rw [place_of_stack hc.stack hc.fostering, hc.holder_eq]

lemma reopenFormatting_eq (hc : c.Within e es p) : c.reopenFormatting = c := by
  have hpending : c.formatting.takeWhile (fun f => !c.isSettled f) = [] := by
    cases hformatting : c.formatting with
    | nil => rfl
    | cons f fs =>
        have hf : f.id? = none := hc.settled f (by simp [hformatting])
        exact List.takeWhile_cons_of_neg (by simp [isSettled, hf])
  rw [reopenFormatting, hpending]
  rfl

/-! ### Text -/

/-- Text that has more than white space is something that has been shown. -/
lemma turn_text_eq (hc : c.Within e es p) (kind : TextKind) (s : List Char) :
    c.turn (.text kind s) = (c.grown (putText c.heap (String.ofList s) (.inside p))
      (c.framesetOk && !hasSolid s), .done) := by
  have hbody : c.turn (.text kind s) = c.bodyText s := by
    rw [turn_of_html hc.stack hc.vocabulary]
    rcases hc.mode_or with hmode | hmode <;> rw [hmode] <;> rfl
  have hturn : c.turn (.text kind s)
      = ((if hasSolid s then c.noFrameset else c).addText s).done := by
    rw [hbody, bodyText, hc.reopenFormatting_eq]
  cases hsolid : hasSolid s with
  | true =>
      have hplace : c.noFrameset.place = .inside p := by
        rw [place_of_stack (c := c.noFrameset) hc.stack hc.fostering]
        exact congrArg Place.inside hc.holder_eq
      rw [hturn, hsolid, if_pos rfl, addText, hplace, Bool.not_true, Bool.and_false]
      rfl
  | false =>
      rw [hturn, hsolid, if_neg (by simp), addText, hc.place_eq, Bool.not_false, Bool.and_true]
      rfl

lemma turn_text (hc : c.Within e es p) (kind : TextKind) (s : List Char) :
    ∃ ok, c.turn (.text kind s)
      = (c.grown (putText c.heap (String.ofList s) (.inside p)) ok, .done) :=
  ⟨_, hc.turn_text_eq kind s⟩

lemma take_text (hc : c.Within e es p) (kind : TextKind) (s : List Char) :
    ∃ ok, c.take (.text kind s)
      = (c.grown (putText c.heap (String.ofList s) (.inside p)) ok, .done) := by
  obtain ⟨ok, hturn⟩ := hc.turn_text kind s
  exact ⟨ok, take_of_turn hturn (by simp)⟩

end Within

lemma takeText_of_take {s : List Char} (hs : s ≠ []) {outcome : Outcome} (n : ℕ)
    (htake : c.take (.text .mixed s) = (c', outcome)) (hnot : outcome ≠ .split) :
    takeText s (n + 1) c = c' := by
  obtain ⟨a, s, rfl⟩ := List.exists_cons_of_ne_nil hs
  rw [takeText]
  simp only [htake]

lemma takeText_of_split {a : Char} {s : List Char} (n : ℕ)
    (htake : c.take (.text .mixed (a :: s)) = (c', .split)) :
    takeText (a :: s) (n + 1) c
      = takeText ((a :: s).dropWhile fun x => isMarkupSpace x == isMarkupSpace a) n
          (c'.take (.text (kindOf a)
            ((a :: s).takeWhile fun x => isMarkupSpace x == isMarkupSpace a))).1 := by
  rw [takeText]
  simp only [htake]

/-- **A run of text** is put behind what is there. -/
theorem Within.feed_text (hc : c.Within e es p) {s : List Char} (hs : s ≠ []) :
    ∃ ok, c.feed (.text s)
      = (c.grown (putText c.heap (String.ofList s) (.inside p)) ok, .markup) := by
  obtain ⟨ok, htake⟩ := hc.take_text .mixed s
  exact ⟨ok, feed_text_of_takeText hc.dropsNewline (takeText_of_take hs _ htake (by simp))⟩

namespace Inside

lemma grown (hc : c.Inside e es p) {h : Heap} {ts : List Tree}
    (hts : Heap.PlantedBelow c.heap h p ts) (ok : Bool) : (c.grown h ok).Inside e es p :=
  { hc.toWithin.grown hts ok with mode := hc.mode }

lemma fault (hc : c.Inside e es p) (f : ParseError) : (c.fault f).Inside e es p :=
  { hc with }

lemma turn_eq (hc : c.Inside e es p) (item : Item) : c.turn item = c.inBody item := by
  rw [turn_of_html hc.stack hc.vocabulary, hc.mode]
  rfl

/-! ### Start tags -/

/-- New nodes do not change where nodes go. -/
lemma place_push (hc : c.Inside e es p) (n : Node) :
    ({ c with heap := c.heap.push n } : Construction).place = .inside p := by
  rw [place_of_stack (c := { c with heap := c.heap.push n }) hc.stack hc.fostering, ← hc.holder_eq]
  refine congrArg Place.inside (holder_congr ?_)
  rw [Heap.node_push, if_neg (Nat.ne_of_lt hc.open_lt)]

lemma insertOpen_eq (hc : c.Inside e es p) {n : Element} (hn : n.vocabulary = .html)
    (hname : n.name ≠ "template") :
    c.insertOpen n = { c with
      heap := c.heap.grow p (.element n)
      stack := { id := c.heap.size, name := n.name } :: c.stack } := by
  have hmake : c.make n
      = ({ c with heap := c.heap.push { content := .element n } }, c.heap.size) := by
    rw [make]
    simp [hname]
  have hplace := hc.place_push { content := .element n }
  have hentry : entry c.heap.size n = { id := c.heap.size, name := n.name } := by
    simp [entry, isHtmlAnnotation, hn]
  rw [insertOpen, insert, hmake]
  simp only [hplace, hentry, putNode, push, Heap.grow]

end Inside

/-- Whether the tags of a name open and close an element of the body, and nothing else. -/
def Flows (name : String) : Prop :=
  name = "p"
    ∨ BodyStart.of name = .block ∧ BodyEnd.of name = .block ∧ name ∉ OpenElement.impliedEnds
    ∨ BodyStart.of name = .ordinary ∧ BodyEnd.of name = .ordinary

namespace Inside

lemma turn_startTag (hc : c.Inside e es p) {t : Tag}
    (ht : BodyStart.of t.name = .block ∧ c.hasParagraph = false ∨ BodyStart.of t.name = .ordinary) :
    c.turn (.startTag t) = ({ c with
      heap := c.heap.grow p (.element (elementOf t))
      stack := { id := c.heap.size, name := t.name } :: c.stack }, .done) := by
  have hname : t.name ≠ "template" := by
    intro heq
    rw [heq] at ht
    rcases ht with ⟨ht, -⟩ | ht <;> exact absurd ht (by decide)
  have hopen : c.openTag t = { c with
      heap := c.heap.grow p (.element (elementOf t))
      stack := { id := c.heap.size, name := t.name } :: c.stack } := hc.insertOpen_eq rfl hname
  rw [hc.turn_eq, inBody, startInBody, ← hopen]
  rcases ht with ⟨ht, hparagraph⟩ | ht
  · simp only [ht, endParagraph, hparagraph, Bool.false_eq_true, if_false]
    rfl
  · simp only [ht, hc.reopenFormatting_eq]
    rfl

/-- **A start tag** opens its element behind what is there. Blocks are not to be inside of a
paragraph. -/
theorem feed_startTag (hc : c.Inside e es p) {t : Tag}
    (ht : BodyStart.of t.name = .block ∧ c.hasParagraph = false ∨ BodyStart.of t.name = .ordinary)
    (hclosing : t.selfClosing = false) :
    c.feed (.startTag t) = ({ c with
      heap := c.heap.grow p (.element (elementOf t))
      stack := { id := c.heap.size, name := t.name } :: c.stack }, .markup) :=
  feed_startTag_of_take hc.dropsNewline hclosing (take_of_turn (hc.turn_startTag ht) (by simp))

/-! ### End tags -/

lemma popThrough_of_stack {q : OpenElement → Bool} (hstack : c.stack = e :: es) (hq : q e = true) :
    c.popThrough q = { c with stack := es } := by
  rw [popThrough, popWhile, pop, hstack]
  simp [hq]

lemma popWhile_of_stack {q : OpenElement → Bool} (hstack : c.stack = e :: es)
    (hq : q e = false) : c.popWhile q = c := by
  rw [popWhile, hstack, List.dropWhile_cons_of_neg (by simp [hq]), ← hstack]

/-- **An end tag** closes the element of its name. -/
theorem feed_endTag (hc : c.Inside e es p) (he : Flows e.name) :
    c.feed (.endTag { name := e.name }) = ({ c with stack := es }, .markup) := by
  have hnamed : e.named e.name = true := by simp [OpenElement.named, hc.vocabulary]
  have hcurrent : c.currentNamed e.name = true := by
    rw [currentNamed, hc.stack]
    exact hnamed
  have hclose : ∀ {name : String}, name = e.name → c.closeExpected name = { c with stack := es } := by
    rintro _ rfl
    rw [closeExpected, expect, if_pos hcurrent, popThroughNamed, popThrough_of_stack hc.stack hnamed]
  have hexcept : ∀ {name : String}, name = e.name → c.closeImpliedExcept name = c := by
    rintro _ rfl
    exact popWhile_of_stack hc.stack (by simp [hnamed])
  have hturn : c.turn (.endTag { name := e.name })
      = ({ c with stack := es } : Construction).done := by
    rw [hc.turn_eq, inBody, endInBody]
    rcases he with hp | ⟨-, hend, himplied⟩ | ⟨-, hend⟩
    · have hend : BodyEnd.of e.name = .paragraph := hp ▸ (by decide : BodyEnd.of "p" = .paragraph)
      have hparagraph : c.hasParagraph = true := by
        rw [hasParagraph, hc.stack, inScope, ← hp, hnamed, Bool.true_or]
      simp only [hend, endParagraphTag, hparagraph, if_true, closeParagraph, hexcept hp.symm,
        hclose hp.symm]
    · have hscope : c.hasInScope e.name = true := by
        rw [hasInScope, hc.stack, inScope, hnamed, Bool.true_or]
      have himplied' : c.closeImplied = c :=
        popWhile_of_stack hc.stack (by simp [OpenElement.hasImpliedEnd, OpenElement.among, himplied])
      simp only [hend, endBlock, hscope, if_true, himplied', hclose rfl]
    · have hfind : c.stack.find? (fun e' => e'.named e.name || e'.isSpecial) = some e := by
        rw [hc.stack]
        exact List.find?_cons_of_pos (by simp [hnamed])
      have hsame : c.stack.head?.any (fun e' => decide (e'.id = e.id)) = true := by
        rw [hc.stack]
        simp
      simp only [hend, closeOrdinary, hfind, hnamed, if_true, hexcept rfl, expect, hsame,
        popThrough_of_stack hc.stack (q := fun e' => decide (e'.id = e.id)) (by simp)]
  rw [feed]
  simp only [withDropsNewline_eq hc.dropsNewline, take_of_turn hturn (by simp)]

end Inside

end Construction

end RichText
