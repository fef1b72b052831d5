import RichText.Html.Construction.Closing
import RichText.Html.Construction.Select
import RichText.Html.Construction.Table
import RichText.Proofs.Construction.Modes

/-!
The rules of the modes around and behind the body are put together from moves.

* `Reaches.inTable`, `Reaches.inTableText`, …: tables;
* `Reaches.inSelect`, `Reaches.inTemplate`: selections and templates;
* `Reaches.inAfterBody`, `Reaches.inFrameset`, …: what follows the body.
-/

namespace RichText

namespace Construction

variable {N : Naming} {a c : Construction} {t : Tag} {item : Item}

/-! ### Tables -/

/-- Tags whose names are given decide where they may stand. -/
lemma Reaches.openNamed (hs : a.Reaches N c) (ht : N.element (elementOf t)) {name : String}
    (hname : t.name = name) (hv : name ∉ voidNames) : a.Reaches N (c.openTag t) :=
  hs.openTag ht (hname ▸ hv)

/-- What the body takes in goes in front of the table. -/
lemma Reaches.foster (hN : N.Closed) (hs : a.Reaches N c) (hitem : item.Named N) :
    a.Reaches N (c.foster item).1 := by
  have hf : a.Reaches N { c with fostering := true } := hs.rest
  exact (hf.inBody hN hitem).rest

lemma Reaches.textInTable (hN : N.Closed) (hs : a.Reaches N c) (hitem : item.Named N) :
    a.Reaches N (c.textInTable item).1 := by
  unfold Construction.textInTable
  split
  · exact hs.rest
  · exact (hs.fault _).foster hN hitem

/-- The text held back is put in piece by piece. -/
lemma Reaches.releaseText (hN : N.Closed) (hs : a.Reaches N c) : a.Reaches N c.releaseText := by
  have hfold : ∀ (f : Construction → List Char → Construction),
      (∀ {d : Construction} (s : List Char), a.Reaches N d → a.Reaches N (f d s)) →
      ∀ (pending : List (List Char)) {d : Construction}, a.Reaches N d →
        a.Reaches N (pending.foldl f d) := by
    intro f hf pending
    induction pending with
    | nil => exact fun hd => hd
    | cons s pending ih => exact fun hd => ih (hf s hd)
  have hs' : a.Reaches N { c with pendingText := [] } := hs.rest
  unfold Construction.releaseText
  dsimp only
  split
  · exact hfold _ (fun s hd => hd.foster hN (show Item.Named N (.text .mixed s) from trivial)) _
      (hs'.fault _)
  · exact hfold _ (fun _ hd => hd.addText _) _ hs'

lemma Reaches.inTableText (hN : N.Closed) (hs : a.Reaches N c) (item : Item) :
    a.Reaches N (c.inTableText item).1 := by
  unfold Construction.inTableText
  split
  · exact hs.unexpected
  · exact hs.rest
  · exact hs.releaseText hN

lemma Reaches.of_closeTable? (hs : a.Reaches N c) {d : Construction} (hd : c.closeTable? = some d) :
    a.Reaches N d := by
  unfold closeTable? at hd
  split at hd
  · obtain rfl := Option.some.inj hd
    exact hs.popThroughNamed _
  · simp at hd

lemma Reaches.startInTable (hN : N.Closed) (hs : a.Reaches N c) (htag : t.Named N) :
    a.Reaches N (c.inTable (.startTag t)).1 := by
  have ht := htag.element hN
  have himplied : ∀ name, name ∈ impliedNames → name ∉ voidNames →
      a.Reaches N ((c.popTo tableContext).openImplied name) := fun _ hname hv =>
    (hs.popTo _).openImplied (hN.impliedElement hname) hv
  have hfoster : a.Reaches N (c.unexpected.foster (.startTag t)).1 := hs.unexpected.foster hN htag
  unfold Construction.inTable
  dsimp only [done, acknowledged, again]
  split
  · next hname => exact ((hs.popTo _).mark.openNamed ht hname (by decide)).goTo _
  · next hname => exact ((hs.popTo _).openNamed ht hname (by decide)).goTo _
  · exact himplied "colgroup" (by decide) (by decide)
  · next hname => exact ((hs.popTo _).openNamed ht hname (by decide)).goTo _
  · next hname => exact ((hs.popTo _).openNamed ht hname (by decide)).goTo _
  · next hname => exact ((hs.popTo _).openNamed ht hname (by decide)).goTo _
  · exact himplied "tbody" (by decide) (by decide)
  · exact himplied "tbody" (by decide) (by decide)
  · exact himplied "tbody" (by decide) (by decide)
  · split
    · next d hd => exact hs.unexpected.of_closeTable? hd
    · exact hs.unexpected
  · next hname => exact hs.startInHead ht (by rw [hname]; decide)
  · next hname => exact hs.startInHead ht (by rw [hname]; decide)
  · next hname => exact hs.startInHead ht (by rw [hname]; decide)
  · split
    · exact hs.unexpected.addTag ht
    · exact hfoster
  · split
    · next hname => exact (hs.unexpected.addTag ht).rest
    · exact hs.unexpected
  · exact hfoster

lemma Reaches.endInTable (hN : N.Closed) (hs : a.Reaches N c) (ht : t.Named N) :
    a.Reaches N (c.inTable (.endTag t)).1 := by
  unfold Construction.inTable
  dsimp only [done]
  split
  · split
    · next d hd => exact (hs.of_closeTable? hd).goToReset
    · exact hs.unexpected
  all_goals try exact hs.unexpected
  · exact hs.endTemplate
  · exact hs.unexpected.foster hN ht

lemma Reaches.inTable (hN : N.Closed) (hs : a.Reaches N c) (hitem : item.Named N) :
    a.Reaches N (c.inTable item).1 := by
  cases item with
  | startTag t => exact hs.startInTable hN hitem
  | endTag t => exact hs.endInTable hN hitem
  | comment s => exact hs.addComment s
  | text kind s => exact hs.textInTable hN hitem
  | null => exact hs.textInTable hN hitem
  | endOfText => exact hs.inBody hN hitem

lemma Reaches.inCaption (hN : N.Closed) (hs : a.Reaches N c) (hitem : item.Named N) :
    a.Reaches N (c.inCaption item).1 := by
  have hbody := hs.inBody hN hitem
  have hclosed := (hs.closeImplied.closeExpected "caption").forgetToMarker
  unfold Construction.inCaption
  dsimp only [done, again]
  split
  · split
    · split
      · exact hclosed
      · exact hs.unexpected
    · exact hbody
  · split
    · split
      · exact hclosed.goTo _
      · exact hs.unexpected
    · split
      · exact hclosed
      · exact hs.unexpected
    all_goals try exact hs.unexpected
    · exact hbody
  · exact hbody

lemma Reaches.inColumnGroup (hN : N.Closed) (hs : a.Reaches N c) (hitem : item.Named N) :
    a.Reaches N (c.inColumnGroup item).1 := by
  have hotherwise : a.Reaches N (if c.currentNamed "colgroup" then c.pop.again .inTable
      else c.unexpected.done).1 := by
    split
    · exact hs.pop
    · exact hs.unexpected
  unfold Construction.inColumnGroup
  dsimp only
  split
  · exact hs
  · exact hs.addText _
  · exact hs.addComment _
  · split
    · exact hs.startHtml hN hitem
    · exact hs.addTag (hitem.element hN)
    · next hname => exact hs.startInHead (hitem.element hN) (by rw [hname]; decide)
    · exact hotherwise
  · split
    · split
      · exact hs.pop.goTo _
      · exact hs.unexpected
    · exact hs.unexpected
    · exact hs.endTemplate
    · exact hotherwise
  · exact hs.inBody hN hitem
  · exact hotherwise

lemma Reaches.inTableBody (hN : N.Closed) (hs : a.Reaches N c) (hitem : item.Named N) :
    a.Reaches N (c.inTableBody item).1 := by
  have htable := hs.inTable hN hitem
  have hleave : a.Reaches N
      (if inScope (·.endsTableScope) (·.among ["table", "tbody", "tfoot"]) c.stack then
        (c.popTo rowGroupContext).pop.again .inTable
      else c.unexpected.done).1 := by
    split
    · exact (hs.popTo _).pop
    · exact hs.unexpected
  have htr : a.Reaches N ((c.unexpected.popTo rowGroupContext).openImplied "tr") :=
    (hs.unexpected.popTo _).openImplied (hN.impliedElement (by decide)) (by decide)
  have hend : ∀ name, a.Reaches N (if c.hasInTableScope name then
      ((c.popTo rowGroupContext).pop.goTo .inTable).done else c.unexpected.done).1 := by
    intro name
    split
    · exact (hs.popTo _).pop.goTo _
    · exact hs.unexpected
  unfold Construction.inTableBody
  dsimp only
  split
  · split
    · next hname => exact ((hs.popTo _).openNamed (hitem.element hN) hname (by decide)).goTo _
    · exact htr
    · exact htr
    all_goals first | exact hleave | exact htable
  · split
    all_goals first | exact hend _ | exact hleave | exact hs.unexpected | exact htable
  · exact htable

lemma Reaches.inRow (hN : N.Closed) (hs : a.Reaches N c) (hitem : item.Named N) :
    a.Reaches N (c.inRow item).1 := by
  have htable := hs.inTable hN hitem
  have hclosed : a.Reaches N c.closeRow := (hs.popTo _).pop
  have hleave : a.Reaches N (if c.hasInTableScope "tr" then c.closeRow.again .inTableBody
      else c.unexpected.done).1 := by
    split
    · exact hclosed
    · exact hs.unexpected
  have hend : ∀ name, a.Reaches N (if c.hasInTableScope name then
      if c.hasInTableScope "tr" then c.closeRow.again .inTableBody else c.done
      else c.unexpected.done).1 := by
    intro name
    split
    · split
      · exact hclosed
      · exact hs
    · exact hs.unexpected
  unfold Construction.inRow
  dsimp only
  split
  · split
    · next hname =>
        exact (((hs.popTo _).openNamed (hitem.element hN) hname (by decide)).goTo _).mark
    · next hname =>
        exact (((hs.popTo _).openNamed (hitem.element hN) hname (by decide)).goTo _).mark
    all_goals first | exact hleave | exact htable
  · split
    · split
      · exact hclosed.goTo _
      · exact hs.unexpected
    all_goals first | exact hend _ | exact hleave | exact hs.unexpected | exact htable
  · exact htable

lemma Reaches.closeCell (hs : a.Reaches N c) : a.Reaches N c.closeCell :=
  ((hs.closeImplied.expect _ _).popThrough _).forgetToMarker

lemma Reaches.inCell (hN : N.Closed) (hs : a.Reaches N c) (hitem : item.Named N) :
    a.Reaches N (c.inCell item).1 := by
  have hbody := hs.inBody hN hitem
  have hcell : ∀ name, a.Reaches N (if c.hasInTableScope name then
      ((c.closeImplied.closeExpected name).forgetToMarker.goTo .inRow).done
      else c.unexpected.done).1 := by
    intro name
    split
    · exact (hs.closeImplied.closeExpected _).forgetToMarker.goTo _
    · exact hs.unexpected
  have houter : ∀ name, a.Reaches N (if c.hasInTableScope name then c.closeCell.again .inRow
      else c.unexpected.done).1 := by
    intro name
    split
    · exact hs.closeCell
    · exact hs.unexpected
  unfold Construction.inCell
  split
  · split
    · split
      · exact hs.closeCell
      · exact hs.unexpected
    · exact hbody
  · split
    all_goals first | exact hcell _ | exact houter _ | exact hs.unexpected | exact hbody
  · exact hbody

/-! ### Selections and templates -/

lemma Reaches.popIf (hs : a.Reaches N c) (name : String) : a.Reaches N (c.popIf name) := by
  unfold Construction.popIf
  split
  · exact hs.pop
  · exact hs

lemma Reaches.endOptionGroup (hs : a.Reaches N c) : a.Reaches N c.endOptionGroup.1 := by
  have hclose : ∀ {d : Construction}, a.Reaches N d →
      a.Reaches N (if d.currentNamed "optgroup" then d.pop.done else d.unexpected.done).1 := by
    intro d hd
    split
    · exact hd.pop
    · exact hd.unexpected
  unfold Construction.endOptionGroup
  dsimp only
  split
  · split
    · exact hclose hs.pop
    · exact hclose hs
  · exact hclose hs

lemma Reaches.inSelect (hN : N.Closed) (hs : a.Reaches N c) (hitem : item.Named N) :
    a.Reaches N (c.inSelect item).1 := by
  have hleft := hs.unexpected.popThroughNamed "select"
  unfold Construction.inSelect
  dsimp only [done, acknowledged]
  split
  · exact hs.unexpected
  · exact hs.addText _
  · exact hs.addComment _
  · split
    · exact hs.startHtml hN hitem
    · next hname => exact (hs.popIf _).openNamed (hitem.element hN) hname (by decide)
    · next hname => exact ((hs.popIf _).popIf _).openNamed (hitem.element hN) hname (by decide)
    · exact ((hs.popIf _).popIf _).addTag (hitem.element hN)
    · split
      · exact hleft.goToReset
      · exact hs.unexpected
    · split
      · exact hleft
      · exact hs.unexpected
    · split
      · exact hleft
      · exact hs.unexpected
    · split
      · exact hleft
      · exact hs.unexpected
    · next hname => exact hs.startInHead (hitem.element hN) (by rw [hname]; decide)
    · next hname => exact hs.startInHead (hitem.element hN) (by rw [hname]; decide)
    · exact hs.unexpected
  · split
    · exact hs.endOptionGroup
    · split
      · exact hs.pop
      · exact hs.unexpected
    · split
      · exact (hs.popThroughNamed _).goToReset
      · exact hs.unexpected
    · exact hs.endTemplate
    · exact hs.unexpected
  · exact hs.inBody hN hitem

lemma Reaches.inSelectInTable (hN : N.Closed) (hs : a.Reaches N c) (hitem : item.Named N) :
    a.Reaches N (c.inSelectInTable item).1 := by
  have hselect := hs.inSelect hN hitem
  have hleft := hs.unexpected.popThroughNamed "select"
  unfold Construction.inSelectInTable
  dsimp only
  split
  · split
    · exact hleft
    · exact hselect
  · split
    · split
      · exact hleft
      · exact hs.unexpected
    · exact hselect
  · exact hselect

lemma Reaches.inTemplate (hN : N.Closed) (hs : a.Reaches N c) (hitem : item.Named N) :
    a.Reaches N (c.inTemplate item).1 := by
  have hagain : ∀ m, a.Reaches N (c.againAs m).1 := fun m => hs.rest
  unfold Construction.inTemplate
  split
  · exact hs.inBody hN hitem
  · exact hs.inBody hN hitem
  · split
    · next hmem => exact hs.startInHead (hitem.element hN) (List.mem_cons_of_mem _ hmem)
    · split
      all_goals exact hagain _
  · split
    · exact hs.endTemplate
    · exact hs.unexpected
  · exact hs.endInTemplate
  · exact hs.unexpected

/-! ### Behind the body -/

lemma Reaches.inRawText (hs : a.Reaches N c) (item : Item) : a.Reaches N (c.inRawText item).1 := by
  unfold Construction.inRawText
  split
  · exact hs.addText _
  · exact hs.pop.goTo _
  · exact hs.unexpected.pop
  · exact hs

lemma Reaches.inAfterBody (hN : N.Closed) (hs : a.Reaches N c) (hitem : item.Named N) :
    a.Reaches N (c.inAfterBody item).1 := by
  unfold Construction.inAfterBody
  dsimp only
  split
  · exact hs
  · exact hs.inBody hN hitem
  · exact hs.addCommentToHtml _
  · split
    · exact hs.startHtml hN hitem
    · exact hs.unexpected
  · split
    · split
      · exact hs.unexpected
      · exact hs.goTo _
    · exact hs.unexpected
  · exact hs
  · exact hs.unexpected

lemma Reaches.inAfterAfterBody (hN : N.Closed) (hs : a.Reaches N c) (hitem : item.Named N) :
    a.Reaches N (c.inAfterAfterBody item).1 := by
  unfold Construction.inAfterAfterBody
  dsimp only
  split
  · exact hs
  · exact hs.inBody hN hitem
  · exact hs.addCommentToRoot _
  · split
    · exact hs.startHtml hN hitem
    · exact hs.unexpected
  · exact hs
  · exact hs.unexpected

lemma Reaches.inFrameset (hN : N.Closed) (hs : a.Reaches N c) (hitem : item.Named N) :
    a.Reaches N (c.inFrameset item).1 := by
  unfold Construction.inFrameset
  dsimp only [done, acknowledged]
  split
  · exact hs
  · exact hs.addText _
  · exact hs.addComment _
  · split
    · exact hs.startHtml hN hitem
    · next hname => exact hs.openNamed (hitem.element hN) hname (by decide)
    · exact hs.addTag (hitem.element hN)
    · next hname => exact hs.startInHead (hitem.element hN) (by rw [hname]; decide)
    · exact hs.unexpected
  · split
    · split
      · exact hs.unexpected
      · split
        · exact hs.pop.goTo _
        · exact hs.pop
    · exact hs.unexpected
  · exact hs.expect _ _
  · exact hs.unexpected

lemma Reaches.inAfterFrameset (hN : N.Closed) (hs : a.Reaches N c) (hitem : item.Named N) :
    a.Reaches N (c.inAfterFrameset item).1 := by
  unfold Construction.inAfterFrameset
  split
  · exact hs
  · exact hs.addText _
  · exact hs.addComment _
  · split
    · exact hs.startHtml hN hitem
    · next hname => exact hs.startInHead (hitem.element hN) (by rw [hname]; decide)
    · exact hs.unexpected
  · split
    · exact hs.goTo _
    · exact hs.unexpected
  · exact hs
  · exact hs.unexpected

lemma Reaches.inAfterAfterFrameset (hN : N.Closed) (hs : a.Reaches N c) (hitem : item.Named N) :
    a.Reaches N (c.inAfterAfterFrameset item).1 := by
  unfold Construction.inAfterAfterFrameset
  split
  · exact hs
  · exact hs.inBody hN hitem
  · exact hs.addCommentToRoot _
  · split
    · exact hs.startHtml hN hitem
    · next hname => exact hs.startInHead (hitem.element hN) (by rw [hname]; decide)
    · exact hs.unexpected
  · exact hs
  · exact hs.unexpected

end Construction

end RichText
