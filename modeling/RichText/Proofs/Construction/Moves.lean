import Mathlib.Logic.Relation
import RichText.Html.Construction.Head
import RichText.Proofs.Construction.Holding

/-!
The elementary moves of the construction.

Whatever the rules of the modes do is put together from a few moves: open elements and formatting
elements are forgotten, elements, text and comments are put in their places, formatting elements are
opened again, and blocks are moved out of them. What each of these moves keeps is kept by the whole
construction.

* `Construction.Move`: the moves, with the elements that are allowed;
* `Construction.Reaches`: one state comes about from another by moves;
* `Reaches.forget`, `Reaches.pop`, `Reaches.closeParagraph`, …: elements closed;
* `Reaches.openTag`, `Reaches.addText`, …: nodes put in;
* `Reaches.closeFormatting`: **a formatting element closed** across blocks.
-/

namespace RichText

namespace Construction

/-- **A move** of the construction. The elements that are put in are allowed, and those that are
opened may have children. Whether a frameset may still come is only ever denied. -/
inductive Move (N : Naming) : Construction → Construction → Prop
  | forget {c d : Construction} (hheap : d.heap = c.heap) (hroot : d.root = c.root)
      (hstack : d.stack.Sublist c.stack) (hhead : d.head = c.head)
      (hformatting : d.formatting ⊆ c.formatting)
      (hframeset : d.framesetOk = true → c.framesetOk = true) : Move N c d
  | mark (c : Construction) : Move N c c.mark
  | insert (c : Construction) {e : Element} (he : N.element e) : Move N c (c.insert e).1
  | insertOpen (c : Construction) {e : Element} (he : N.element e) (hv : e.isVoid = false) :
      Move N c (c.insertOpen e)
  | addText (c : Construction) (s : List Char) : Move N c (c.addText s)
  | addComment (c : Construction) (s : String) : Move N c (c.addComment s)
  | addBelow (c : Construction) {p : NodeId} (hp : p = c.root ∨ ∃ e ∈ c.stack, e.id = p)
      {content : Content} (hn : content.Named N) :
      Move N c { c with heap := (c.heap.push { content }).appendChild p c.heap.size }
  | addMissing (c : Construction) (i : NodeId) {as : List Attribute}
      (has : ∀ e, N.element e → N.element (e.addMissing as)) : Move N c (c.addMissing i as)
  | openHtml (c : Construction) {as : List Attribute}
      (hn : N.element { name := "html", attributes := as }) : Move N c (c.openHtml as)
  | openHead (c : Construction) {t : Tag} (ht : N.element (elementOf t)) (hname : t.name = "head") :
      Move N c (c.openHead t)
  | addToHead {c : Construction} {head : OpenElement} (hhead : c.head = some head) {t : Tag}
      (ht : N.element (elementOf t)) (hmem : t.name ∈ headElements) :
      Move N c (((c.push head).addTag t).removeOpen head.id)
  | openInHead {c : Construction} {head : OpenElement} (hhead : c.head = some head) {t : Tag}
      (ht : N.element (elementOf t)) (hv : t.name ∉ voidNames) (hmem : t.name ∈ headElements) :
      Move N c (((c.push head).openTag t).removeOpen head.id)
  | dropBody {c : Construction} {e : OpenElement} (he : e ∈ c.stack) (hok : c.framesetOk = true) :
      Move N c { c with heap := c.heap.detach e.id, stack := c.stack.getLast?.toList }
  | reopenFormatting (c : Construction) : Move N c c.reopenFormatting
  | openFormatting (c : Construction) {t : Tag} (ht : N.element (elementOf t))
      (hv : t.name ∉ voidNames) : Move N c (c.openFormatting t)
  | moveBlock {c : Construction} {format : OpenElement} {name : String}
      {attributes : List Attribute} {inner : List OpenElement} {block : OpenElement}
      {between outer : List OpenElement}
      (hentry : .element format.id name attributes ∈ c.formatting)
      (hstack : c.stack = inner ++ block :: (between ++ format :: outer)) :
      Move N c (c.moveBlock format name attributes inner block between outer)

/-- One state comes about from another by moves. -/
def Reaches (N : Naming) : Construction → Construction → Prop :=
  Relation.ReflTransGen (Move N)

variable {N : Naming} {a c d : Construction}

lemma Reaches.refl (c : Construction) : c.Reaches N c := Relation.ReflTransGen.refl

lemma Reaches.move (hs : a.Reaches N c) (hm : Move N c d) : a.Reaches N d :=
  Relation.ReflTransGen.tail hs hm

/-- **What every move keeps is kept**, by induction on the moves. -/
lemma Reaches.preserves {I : Construction → Prop} (hI : ∀ {c d}, Move N c d → I c → I d)
    (hs : a.Reaches N c) (ha : I a) : I c := by
  induction hs with
  | refl => exact ha
  | tail _ hm ih => exact hI hm ih

/-! ### Elements closed -/

lemma Reaches.withStack (hs : a.Reaches N c) {es : List OpenElement} (hes : es.Sublist c.stack) :
    a.Reaches N { c with stack := es } :=
  hs.move (.forget rfl rfl hes rfl (List.Subset.refl _) id)

lemma Reaches.withFormatting (hs : a.Reaches N c) {fs : List FormattingEntry}
    (hfs : fs ⊆ c.formatting) : a.Reaches N { c with formatting := fs } :=
  hs.move (.forget rfl rfl (List.Sublist.refl _) rfl hfs id)

/-- What is not about nodes, open elements and formatting elements may change at will. -/
lemma Reaches.rest {mode returnMode : Mode} {templateModes : List Mode} {form : Option NodeId}
    {dropsNewline fostering tableInParagraph isFragment : Bool} {pendingText : List (List Char)}
    {errors : List ParseError} (hs : a.Reaches N c) :
    a.Reaches N { c with
      mode, returnMode, templateModes, form, dropsNewline, fostering, tableInParagraph,
      isFragment, pendingText, errors } :=
  hs.move (.forget rfl rfl (List.Sublist.refl _) rfl (List.Subset.refl _) id)

lemma Reaches.noFrameset (hs : a.Reaches N c) : a.Reaches N c.noFrameset :=
  hs.move (.forget rfl rfl (List.Sublist.refl _) rfl (List.Subset.refl _) fun h =>
    absurd h Bool.false_ne_true)

lemma Reaches.fault (hs : a.Reaches N c) (e : ParseError) : a.Reaches N (c.fault e) := hs.rest

lemma Reaches.unexpected (hs : a.Reaches N c) : a.Reaches N c.unexpected := hs.fault _

lemma Reaches.expect (hs : a.Reaches N c) (ok : Bool) (e : ParseError) :
    a.Reaches N (c.expect ok e) := by
  unfold Construction.expect
  split
  · exact hs
  · exact hs.fault e

lemma stack_expect (c : Construction) (ok : Bool) (e : ParseError) :
    (c.expect ok e).stack = c.stack := by
  unfold Construction.expect
  split <;> rfl

lemma formatting_expect (c : Construction) (ok : Bool) (e : ParseError) :
    (c.expect ok e).formatting = c.formatting := by
  unfold Construction.expect
  split <;> rfl

lemma Reaches.goTo (hs : a.Reaches N c) (m : Mode) : a.Reaches N (c.goTo m) := hs.rest

lemma Reaches.pop (hs : a.Reaches N c) : a.Reaches N c.pop := hs.withStack (List.tail_sublist _)

lemma Reaches.popWhile (hs : a.Reaches N c) (p : OpenElement → Bool) :
    a.Reaches N (c.popWhile p) :=
  hs.withStack (List.dropWhile_sublist p)

lemma Reaches.popThrough (hs : a.Reaches N c) (p : OpenElement → Bool) :
    a.Reaches N (c.popThrough p) :=
  (hs.popWhile _).pop

lemma Reaches.popThroughNamed (hs : a.Reaches N c) (name : String) :
    a.Reaches N (c.popThroughNamed name) :=
  hs.popThrough _

lemma Reaches.popTo (hs : a.Reaches N c) (names : List String) : a.Reaches N (c.popTo names) :=
  hs.popWhile _

lemma Reaches.removeOpen (hs : a.Reaches N c) (i : NodeId) : a.Reaches N (c.removeOpen i) :=
  hs.withStack List.eraseP_sublist

lemma Reaches.closeImplied (hs : a.Reaches N c) : a.Reaches N c.closeImplied := hs.popWhile _

lemma Reaches.closeImpliedExcept (hs : a.Reaches N c) (name : String) :
    a.Reaches N (c.closeImpliedExcept name) :=
  hs.popWhile _

lemma Reaches.closeExpected (hs : a.Reaches N c) (name : String) :
    a.Reaches N (c.closeExpected name) :=
  (hs.expect _ _).popThroughNamed name

lemma Reaches.closeParagraph (hs : a.Reaches N c) : a.Reaches N c.closeParagraph :=
  (hs.closeImpliedExcept _).closeExpected _

lemma Reaches.endParagraph (hs : a.Reaches N c) : a.Reaches N c.endParagraph := by
  unfold Construction.endParagraph
  split
  · exact hs.closeParagraph
  · exact hs

lemma Reaches.mark (hs : a.Reaches N c) : a.Reaches N c.mark := hs.move (.mark c)

lemma Reaches.forgetToMarker (hs : a.Reaches N c) : a.Reaches N c.forgetToMarker :=
  hs.withFormatting fun _ hf => (List.dropWhile_sublist _).subset (List.mem_of_mem_tail hf)

lemma Reaches.forget (hs : a.Reaches N c) (i : NodeId) : a.Reaches N (c.forget i) :=
  hs.withFormatting List.eraseP_sublist.subset

/-! ### Nodes put in -/

/-- An HTML element of any other name is written with an end tag. -/
lemma isVoid_eq_false {e : Element} (hv : e.name ∉ voidNames) : e.isVoid = false := by
  simp [Element.isVoid, hv]

lemma Reaches.insert (hs : a.Reaches N c) {e : Element} (he : N.element e) :
    a.Reaches N (c.insert e).1 :=
  hs.move (.insert c he)

lemma Reaches.insertOpen (hs : a.Reaches N c) {e : Element} (he : N.element e)
    (hv : e.isVoid = false) : a.Reaches N (c.insertOpen e) :=
  hs.move (.insertOpen c he hv)

lemma Reaches.openTag (hs : a.Reaches N c) {t : Tag} (ht : N.element (elementOf t))
    (hv : t.name ∉ voidNames) : a.Reaches N (c.openTag t) :=
  hs.insertOpen ht (isVoid_eq_false hv)

lemma Reaches.addTag (hs : a.Reaches N c) {t : Tag} (ht : N.element (elementOf t)) :
    a.Reaches N (c.addTag t) :=
  hs.insert ht

lemma Reaches.openImplied (hs : a.Reaches N c) {name : String} (hn : N.element { name })
    (hv : name ∉ voidNames) : a.Reaches N (c.openImplied name) :=
  hs.insertOpen hn (isVoid_eq_false hv)

lemma Reaches.addText (hs : a.Reaches N c) (s : List Char) : a.Reaches N (c.addText s) :=
  hs.move (.addText c s)

lemma Reaches.addComment (hs : a.Reaches N c) (s : String) : a.Reaches N (c.addComment s) :=
  hs.move (.addComment c s)

lemma Reaches.addCommentToRoot (hs : a.Reaches N c) (s : String) :
    a.Reaches N (c.addCommentToRoot s) :=
  hs.move (.addBelow c (.inl rfl) trivial)

lemma Reaches.addCommentToHtml (hs : a.Reaches N c) (s : String) :
    a.Reaches N (c.addCommentToHtml s) := by
  refine hs.move (.addBelow c ?_ trivial)
  cases hlast : c.stack.getLast? with
  | none => exact .inl rfl
  | some e => exact .inr ⟨e, List.mem_of_getLast? hlast, rfl⟩

lemma Reaches.addMissing (hs : a.Reaches N c) (i : NodeId) {as : List Attribute}
    (has : ∀ e, N.element e → N.element (e.addMissing as)) : a.Reaches N (c.addMissing i as) :=
  hs.move (.addMissing c i has)

lemma Reaches.openHtml (hs : a.Reaches N c) {as : List Attribute}
    (hn : N.element { name := "html", attributes := as }) : a.Reaches N (c.openHtml as) :=
  hs.move (.openHtml c hn)

lemma Reaches.openHead (hs : a.Reaches N c) {t : Tag} (ht : N.element (elementOf t))
    (hname : t.name = "head") : a.Reaches N (c.openHead t) :=
  hs.move (.openHead c ht hname)

lemma Reaches.openRaw (hs : a.Reaches N c) {t : Tag} (ht : N.element (elementOf t))
    (hv : t.name ∉ voidNames) (kind : RawKind) : a.Reaches N (c.openRaw t kind).1 :=
  (hs.openTag ht hv).rest

/-! ### Formatting elements -/

lemma Reaches.reopenFormatting (hs : a.Reaches N c) : a.Reaches N c.reopenFormatting :=
  hs.move (.reopenFormatting c)

lemma Reaches.openFormatting (hs : a.Reaches N c) {t : Tag} (ht : N.element (elementOf t))
    (hv : t.name ∉ voidNames) : a.Reaches N (c.openFormatting t) :=
  hs.move (.openFormatting c ht hv)

lemma Reaches.closeOrdinary (hs : a.Reaches N c) (name : String) :
    a.Reaches N (c.closeOrdinary name) := by
  unfold Construction.closeOrdinary
  split
  · exact hs.unexpected
  · split
    · exact ((hs.closeImpliedExcept name).expect _ _).popThrough _
    · exact hs.fault _

/-- What a round of closing a formatting element leaves. -/
def Round.construction : Round → Construction
  | .finished c => c
  | .again c => c

/-- The open elements around the one that is looked for, which begins them, and those inside. -/
lemma stack_eq_of_find? {es : List OpenElement} {i : NodeId} {format : OpenElement}
    (hfind : es.find? (·.id = i) = some format) :
    format.id = i
      ∧ es = es.takeWhile (·.id ≠ i) ++ format :: (es.dropWhile (·.id ≠ i)).tail := by
  obtain ⟨hid, as, bs, rfl, has⟩ := List.find?_eq_some_iff_append.mp hfind
  have hid : format.id = i := by simpa using hid
  have has : ∀ e ∈ as, decide (e.id ≠ i) = true := by simpa using has
  refine ⟨hid, ?_⟩
  rw [List.takeWhile_append_of_pos has, List.dropWhile_append_of_pos has]
  simp [hid]

/-- The furthest block inside, with what is inside it and what is around it. -/
lemma within_eq {es inner : List OpenElement} {block : OpenElement}
    (hblock : (es.reverse.dropWhile fun e => !e.isSpecial) = block :: inner) :
    es = inner.reverse ++ block :: (es.reverse.takeWhile fun e => !e.isSpecial).reverse := by
  have hes : es.reverse = es.reverse.takeWhile (fun e => !e.isSpecial) ++ block :: inner := by
    rw [← hblock, List.takeWhile_append_dropWhile]
  simpa using congrArg List.reverse hes

lemma Reaches.closeFormattingOnce (hs : a.Reaches N c) (name : String) :
    a.Reaches N (c.closeFormattingOnce name).construction := by
  unfold Construction.closeFormattingOnce
  split
  · next i n attributes hfind =>
      have hentry : .element i n attributes ∈ c.formatting :=
        (List.takeWhile_sublist _).subset (List.mem_of_find?_eq_some hfind)
      obtain rfl : n = name := by simpa [FormattingEntry.named] using List.find?_some hfind
      split
      · exact (hs.fault _).forget _
      · next format hformat =>
          split
          · exact hs.fault _
          · have hs' := hs.expect (c.stack.head?.any (·.id = i)) .formattingNotCurrent
            rw [← formatting_expect c (c.stack.head?.any (·.id = i)) .formattingNotCurrent]
              at hentry
            rw [← stack_expect c (c.stack.head?.any (·.id = i)) .formattingNotCurrent] at hformat
            generalize c.expect (c.stack.head?.any (·.id = i)) .formattingNotCurrent = d
              at hs' hentry hformat ⊢
            obtain ⟨rfl, hstack⟩ := stack_eq_of_find? hformat
            dsimp only
            split
            · refine (hs'.withStack ?_).forget format.id
              exact (List.tail_sublist _).trans (List.dropWhile_sublist _)
            · next block inner hblock =>
                refine hs'.move (.moveBlock hentry (hstack.trans ?_))
                conv_lhs => rw [within_eq hblock]
                rw [List.append_assoc, List.cons_append]
  · exact hs.closeOrdinary name

lemma Reaches.closeFormattingRounds (name : String) : ∀ (n : ℕ) {c : Construction},
    a.Reaches N c → a.Reaches N (c.closeFormattingRounds name n)
  | 0, _, hs => hs
  | n + 1, c, hs => by
      have hround := hs.closeFormattingOnce name
      unfold Construction.closeFormattingRounds
      split
      · next d hd =>
          rw [hd] at hround
          exact hround
      · next d hd =>
          rw [hd] at hround
          exact Reaches.closeFormattingRounds name n hround

/-- **A formatting element closed**, across the blocks inside it. -/
lemma Reaches.closeFormatting (hs : a.Reaches N c) (name : String) :
    a.Reaches N (c.closeFormatting name) := by
  unfold Construction.closeFormatting
  dsimp only
  split
  · split
    · exact Reaches.closeFormattingRounds name 8 hs
    · exact hs.pop
  · exact Reaches.closeFormattingRounds name 8 hs

lemma Reaches.closeLink (hs : a.Reaches N c) : a.Reaches N c.closeLink := by
  unfold Construction.closeLink
  split
  · exact ((hs.unexpected.closeFormatting "a").forget _).removeOpen _
  · exact hs

end Construction

end RichText
