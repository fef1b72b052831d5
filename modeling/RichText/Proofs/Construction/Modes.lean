import RichText.Html.Construction.Body
import RichText.Proofs.Construction.Moves
import RichText.Proofs.Construction.Tokens

/-!
The rules of the modes up to the body are put together from moves.

Elements without end tag are put in but never opened: the tags that open an element in the body
are not theirs (`notMem_voidNames_of_start`).

* `Reaches.inHead`, `Reaches.inAfterHead`, …: the beginning of a document;
* `Reaches.inForeign`: graphics and mathematics;
* `Reaches.startInBody`, `Reaches.endInBody`, `Reaches.inBody`: the body.
-/

namespace RichText

/-- The names of elements that the text need not have. -/
def impliedNames : List String :=
  ["html", "head", "body", "p", "colgroup", "tbody", "tr", "img", "math", "svg"]

/-- Elements among which are those that the construction makes of allowed names and
attributes. -/
structure Naming.Closed (N : Naming) : Prop where
  implied : ∀ name ∈ impliedNames, N.tag name
  bare : N.attributes []
  html : ∀ name as, N.tag name → N.attributes as → N.element { name, attributes := as }
  svg : ∀ name as, N.tag name → N.attributes as → N.element
    { name := graphicName name, vocabulary := .svg,
      attributes := (as.map graphicAttribute).map reservedAttribute }
  mathml : ∀ name as, N.tag name → N.attributes as → N.element
    { name, vocabulary := .mathml, attributes := (as.map mathAttribute).map reservedAttribute }
  missing : ∀ e as, N.element e → N.attributes as → N.element (e.addMissing as)

/-- An item whose tag is allowed. -/
def Item.Named (N : Naming) : Item → Prop
  | .startTag t => t.Named N
  | .endTag t => t.Named N
  | _ => True

variable {N : Naming}

/-- A name with capitals is one of the list, or there are none in it. -/
lemma withCapitals_eq (names : List String) (name : String) : withCapitals names name = name
    ∨ withCapitals names name ∈ names ∧ (withCapitals names name).toLower = name := by
  rw [withCapitals]
  cases hfind : names.find? (·.toLower = name) with
  | none => exact .inl rfl
  | some capital =>
      have hlower : capital.toLower = name := by simpa using List.find?_some hfind
      exact .inr ⟨List.mem_of_find?_eq_some hfind, hlower⟩

/-- What holds for a name and for all of the list holds with capitals. -/
lemma withCapitals_of_forall {P : String → Prop} {names : List String} {name : String}
    (hname : P name) (hall : ∀ n ∈ names, P n) : P (withCapitals names name) := by
  rcases withCapitals_eq names name with hself | ⟨hmem, -⟩
  · rwa [hself]
  · exact hall _ hmem

lemma Naming.Closed.impliedElement (hN : N.Closed) {name : String} (h : name ∈ impliedNames) :
    N.element { name } :=
  hN.html name [] (hN.implied name h) hN.bare

lemma Tag.Named.element {t : Tag} (ht : t.Named N) (hN : N.Closed) :
    N.element (Construction.elementOf t) :=
  hN.html _ _ ht.name ht.attributes

namespace Construction

variable {a c : Construction} {t : Tag} {item : Item}

/-! ### The head -/

lemma Reaches.goToReset (hs : a.Reaches N c) : a.Reaches N c.goToReset := hs.goTo _

lemma Reaches.startHtml (hN : N.Closed) (hs : a.Reaches N c) (ht : t.Named N) :
    a.Reaches N (c.startHtml t).1 := by
  unfold Construction.startHtml
  dsimp only [done, acknowledged, again, Construction.split]
  split
  · exact hs.unexpected
  · split
    · exact hs.unexpected.addMissing _ fun e he => hN.missing e _ he ht.attributes
    · exact hs.unexpected

lemma Reaches.leaveTemplate (hs : a.Reaches N c) : a.Reaches N c.leaveTemplate :=
  hs.forgetToMarker.rest

lemma Reaches.endTemplate (hs : a.Reaches N c) : a.Reaches N c.endTemplate.1 := by
  unfold Construction.endTemplate
  split
  · exact ((hs.popWhile _).closeExpected _).leaveTemplate.goToReset
  · exact hs.unexpected

lemma Reaches.endInTemplate (hs : a.Reaches N c) : a.Reaches N c.endInTemplate.1 := by
  unfold Construction.endInTemplate
  split
  · exact (hs.unexpected.popThroughNamed _).leaveTemplate.goToReset
  · exact hs

/-- The elements that belong into a head and have an inside are written with an end tag. -/
lemma notMem_voidNames_of_head : ∀ name ∈ "noscript" :: headElements, name ∉ headVoids →
    name ∉ voidNames := by
  decide

lemma Reaches.startInHead (hs : a.Reaches N c) (ht : N.element (elementOf t))
    (hmem : t.name ∈ "noscript" :: headElements) : a.Reaches N (c.startInHead t).1 := by
  unfold Construction.startInHead
  split
  · exact hs.addTag ht
  · next hvoids =>
      have hv := notMem_voidNames_of_head _ hmem hvoids
      split
      · exact hs.openRaw ht hv _
      · exact hs.openRaw ht hv _
      · exact (hs.openTag ht hv).mark.noFrameset.rest
      · exact hs.openRaw ht hv _

/-- An element that belongs into the head, put there when the head has been closed. -/
lemma Reaches.startInClosedHead (hs : a.Reaches N c) (ht : N.element (elementOf t))
    (hmem : t.name ∈ headElements) {head : OpenElement} (hhead : c.head = some head) :
    a.Reaches N (((c.push head).startInHead t).1.removeOpen head.id) := by
  unfold Construction.startInHead
  split
  · exact hs.move (.addToHead hhead ht hmem)
  · next hvoids =>
      have hv := notMem_voidNames_of_head _ (List.mem_cons_of_mem _ hmem) hvoids
      have hopen := hs.move (.openInHead hhead ht hv hmem)
      split
      · exact hopen.rest
      · exact hopen.rest
      · exact hopen.mark.noFrameset.rest
      · exact hopen.rest

lemma Reaches.inInitial (hs : a.Reaches N c) (item : Item) : a.Reaches N (c.inInitial item).1 := by
  unfold Construction.inInitial
  split
  · exact hs
  · exact hs
  · exact hs.addCommentToRoot _
  · exact hs.unexpected.rest

lemma Reaches.inBeforeHtml (hN : N.Closed) (hs : a.Reaches N c) (hitem : item.Named N) :
    a.Reaches N (c.inBeforeHtml item).1 := by
  have hopen : ∀ as, N.attributes as → a.Reaches N (c.openHtml as) := fun as has =>
    hs.openHtml (hN.html _ as (hN.implied _ (by decide)) has)
  unfold Construction.inBeforeHtml
  dsimp only [done, acknowledged, again, Construction.split]
  split
  · exact hs
  · exact hs
  · exact hs.addCommentToRoot _
  · split
    · exact (hopen _ hitem.attributes).goTo _
    · exact hopen [] hN.bare
  · split
    · exact hopen [] hN.bare
    · exact hs.unexpected
  · exact hopen [] hN.bare

lemma Reaches.inBeforeHead (hN : N.Closed) (hs : a.Reaches N c) (hitem : item.Named N) :
    a.Reaches N (c.inBeforeHead item).1 := by
  have hopen : a.Reaches N (c.openHead { name := "head" }) :=
    hs.openHead (hN.impliedElement (by decide)) rfl
  unfold Construction.inBeforeHead
  dsimp only [done, acknowledged, again, Construction.split]
  split
  · exact hs
  · exact hs
  · exact hs.addComment _
  · split
    · exact hs.startHtml hN hitem
    · split
      · next hname => exact (hs.openHead (hitem.element hN) hname).goTo _
      · exact hopen
  · split
    · exact hopen
    · exact hs.unexpected
  · exact hopen

lemma Reaches.inHead (hN : N.Closed) (hs : a.Reaches N c) (hitem : item.Named N) :
    a.Reaches N (c.inHead item).1 := by
  unfold Construction.inHead
  dsimp only [done, acknowledged, again, Construction.split]
  split
  · exact hs
  · exact hs.addText _
  · exact hs.addComment _
  · split
    · exact hs.startHtml hN hitem
    · split
      · exact hs.unexpected
      · split
        · next hmem => exact hs.startInHead (hitem.element hN) hmem
        · exact hs.pop
  · split
    · exact hs.pop.goTo _
    · split
      · exact hs.endTemplate
      · split
        · exact hs.pop
        · exact hs.unexpected
  · exact hs.pop

lemma Reaches.inAfterHead (hN : N.Closed) (hs : a.Reaches N c) (hitem : item.Named N) :
    a.Reaches N (c.inAfterHead item).1 := by
  have hopen : a.Reaches N (c.openImplied "body") :=
    hs.openImplied (hN.impliedElement (by decide)) (by decide)
  unfold Construction.inAfterHead
  dsimp only [done, acknowledged, again, Construction.split]
  split
  · exact hs
  · exact hs.addText _
  · exact hs.addComment _
  · split
    · exact hs.startHtml hN hitem
    · split
      · next hname => exact (hs.openTag (hitem.element hN) (hname ▸ by decide)).noFrameset.goTo _
      · split
        · next hname => exact (hs.openTag (hitem.element hN) (hname ▸ by decide)).goTo _
        · split
          · next hmem =>
              split
              · next head hhead =>
                  exact hs.unexpected.startInClosedHead (hitem.element hN) hmem hhead
              · exact hs.unexpected
          · split
            · exact hs.unexpected
            · exact hopen
  · split
    · exact hs.endTemplate
    · split
      · exact hopen
      · exact hs.unexpected
  · exact hopen

/-! ### Graphics and mathematics -/

/-- A foreign element for a tag with an allowed name. -/
lemma Reaches.openForeign (hN : N.Closed) (hs : a.Reaches N c) {vocabulary : Vocabulary}
    (hv : vocabulary ≠ .html) {name : String} (hn : N.tag name) (ht : N.attributes t.attributes) :
    a.Reaches N
      (c.openForeign vocabulary (if vocabulary = .svg then graphicName name else name) t).1 := by
  cases vocabulary with
  | html => exact absurd rfl hv
  | svg =>
      unfold Construction.openForeign
      dsimp only [done, acknowledged]
      split
      · exact hs.insert (hN.svg name _ hn ht)
      · exact hs.insertOpen (hN.svg name _ hn ht) (by simp [Element.isVoid])
  | mathml =>
      unfold Construction.openForeign
      dsimp only [done, acknowledged]
      split
      · exact hs.insert (hN.mathml name _ hn ht)
      · exact hs.insertOpen (hN.mathml name _ hn ht) (by simp [Element.isVoid])

/-- Foreign items come inside a foreign element. -/
lemma vocabulary_of_isForeign (hf : c.isForeign item = true) :
    (c.stack.head?.map (·.vocabulary)).getD .html ≠ .html := by
  unfold isForeign at hf
  split at hf
  · simp at hf
  · simp at hf
  · split at hf
    · simp at hf
    · next e es hstack _ hvoc => simpa [hstack] using hvoc

lemma Reaches.openWithinForeign (hN : N.Closed) (hs : a.Reaches N c) (ht : t.Named N)
    (hf : (c.stack.head?.map (·.vocabulary)).getD .html ≠ .html) :
    a.Reaches N (c.openWithinForeign t).1 :=
  hs.openForeign hN hf ht.name ht.attributes

lemma Reaches.leaveForeign (hs : a.Reaches N c) : a.Reaches N c.leaveForeign := hs.popWhile _

lemma foreignEnd_sublist {name : String} : ∀ {es fs : List OpenElement},
    foreignEnd name es = .closed fs → fs.Sublist es
  | [], _, h => by simp [foreignEnd] at h
  | [_], _, h => by simp [foreignEnd] at h
  | e :: f :: es, fs, h => by
      rw [foreignEnd] at h
      · split at h
        · simp at h
        · split at h
          · obtain rfl := ForeignEnd.closed.inj h
            exact List.sublist_cons_self _ _
          · exact (foreignEnd_sublist h).cons _
      · simp

/-- The rules of foreign content, given those of the present mode. -/
lemma Reaches.inForeign {html : Construction → Item → Turn} (hN : N.Closed) (hs : a.Reaches N c)
    (hitem : item.Named N) (hf : c.isForeign item = true)
    (hhtml : ∀ {d : Construction}, a.Reaches N d → a.Reaches N (html d item).1) :
    a.Reaches N (c.inForeign html item).1 := by
  unfold Construction.inForeign
  split
  · exact hs.unexpected.addText _
  · split
    · exact hs.noFrameset.addText _
    · exact hs.addText _
  · exact hs.addComment _
  · split
    · exact hhtml hs.unexpected.leaveForeign
    · exact hs.openWithinForeign hN hitem (vocabulary_of_isForeign hf)
  · split
    · exact hhtml hs.unexpected.leaveForeign
    · split
      · exact hs
      · exact hs
      · next e es hne heq =>
          dsimp only
          split
          · next stack hend =>
              refine (hs.expect _ _).withStack ?_
              rw [stack_expect] at hend ⊢
              exact foreignEnd_sublist hend
          · exact hs.expect _ _
          · exact hhtml (hs.expect _ _)
  · exact hs

/-! ### The body -/

/-- The start tags that open an element in the body are not those of elements without end
tag. -/
lemma notMem_voidNames_of_start : ∀ name ∈ voidNames,
    BodyStart.of name ∈ [.head, .void, .detail, .rule, .stray] := by
  decide

/-- What belongs into a head does so in the body. -/
lemma mem_headElements_of_start {name : String} (h : BodyStart.of name = .head) :
    name ∈ headElements := by
  unfold BodyStart.of at h
  cases hfind : bodyStarts.find? fun r => name ∈ r.2 with
  | none => simp [hfind] at h
  | some r =>
      have hmem := List.mem_of_find?_eq_some hfind
      have hname : name ∈ r.2 := by simpa using List.find?_some hfind
      have hr : r.1 = .head := by simpa [hfind] using h
      have hall : ∀ r ∈ bodyStarts, r.1 = .head → r.2 = headElements := by decide
      exact hall r hmem hr ▸ hname

lemma Reaches.bodyText (hs : a.Reaches N c) (s : List Char) : a.Reaches N (c.bodyText s).1 := by
  unfold Construction.bodyText
  dsimp only [done, acknowledged, again, Construction.split]
  split
  · exact hs.reopenFormatting.noFrameset.addText s
  · exact hs.reopenFormatting.addText s

lemma Reaches.checkClosed (hs : a.Reaches N c) : a.Reaches N c.checkClosed := hs.expect _ _

lemma Reaches.startBody (hN : N.Closed) (hs : a.Reaches N c) (ht : t.Named N) :
    a.Reaches N (c.startBody t).1 := by
  unfold Construction.startBody
  dsimp only [done, acknowledged, again, Construction.split]
  split
  · split
    · exact hs.unexpected
    · exact hs.unexpected.noFrameset.addMissing _ fun e he => hN.missing e _ he ht.attributes
  · exact hs.unexpected

lemma mem_stack_of_body? {e : OpenElement} (he : c.body? = some e) : e ∈ c.stack := by
  unfold body? at he
  split at he
  · next f g es hes =>
      split at he
      · obtain rfl := Option.some.inj he
        exact List.mem_reverse.mp (hes ▸ by simp)
      · simp at he
  · simp at he

lemma Reaches.startFrameset (hs : a.Reaches N c) (ht : N.element (elementOf t))
    (hv : t.name ∉ voidNames) : a.Reaches N (c.startFrameset t).1 := by
  unfold Construction.startFrameset
  dsimp only [done, acknowledged, again, Construction.split]
  split
  · next hok =>
      split
      · next e he =>
          exact ((hs.unexpected.move (.dropBody (mem_stack_of_body? he) hok)).openTag ht hv).goTo _
      · exact hs.unexpected
  · exact hs.unexpected

lemma Reaches.startHeading (hs : a.Reaches N c) (ht : N.element (elementOf t))
    (hv : t.name ∉ voidNames) : a.Reaches N (c.startHeading t).1 := by
  unfold Construction.startHeading
  dsimp only [done, acknowledged, again, Construction.split]
  split
  · exact (hs.endParagraph.fault _).pop.openTag ht hv
  · exact hs.endParagraph.openTag ht hv

lemma Reaches.startForm (hs : a.Reaches N c) (ht : N.element (elementOf t))
    (hv : t.name ∉ voidNames) : a.Reaches N (c.startForm t).1 := by
  have hopen := hs.endParagraph.openTag ht hv
  unfold Construction.startForm
  dsimp only [done, acknowledged, again, Construction.split]
  split
  · exact hs.fault _
  · split
    · exact hopen
    · exact hopen.rest

lemma Reaches.startItem (hs : a.Reaches N c) (ht : N.element (elementOf t))
    (hv : t.name ∉ voidNames) : a.Reaches N (c.startItem t).1 := by
  unfold Construction.startItem
  generalize (if t.name = "li" then ["li"] else ["dd", "dt"]) = kind
  dsimp only [done, acknowledged, again, Construction.split]
  split
  · split
    · exact ((hs.noFrameset.closeImpliedExcept _).closeExpected _).endParagraph.openTag ht hv
    · exact hs.noFrameset.endParagraph.openTag ht hv
  · exact hs.noFrameset.endParagraph.openTag ht hv

lemma Reaches.startButton (hs : a.Reaches N c) (ht : N.element (elementOf t))
    (hv : t.name ∉ voidNames) : a.Reaches N (c.startButton t).1 := by
  unfold Construction.startButton
  dsimp only [done, acknowledged, again, Construction.split]
  split
  · exact (((hs.fault _).closeImplied.popThroughNamed _).reopenFormatting.openTag ht hv).noFrameset
  · exact (hs.reopenFormatting.openTag ht hv).noFrameset

lemma Reaches.startNobr (hs : a.Reaches N c) (ht : N.element (elementOf t))
    (hv : t.name ∉ voidNames) : a.Reaches N (c.startNobr t).1 := by
  unfold Construction.startNobr
  dsimp only [done, acknowledged, again, Construction.split]
  split
  · exact ((hs.reopenFormatting.fault _).closeFormatting _).reopenFormatting.openFormatting ht hv
  · exact hs.reopenFormatting.openFormatting ht hv

lemma Reaches.startVoid (hs : a.Reaches N c) (ht : N.element (elementOf t)) :
    a.Reaches N (c.startVoid t).1 := by
  unfold Construction.startVoid
  dsimp only [done, acknowledged, again, Construction.split]
  split
  · exact hs.reopenFormatting.addTag ht
  · exact (hs.reopenFormatting.addTag ht).noFrameset

lemma Reaches.startSelect (hs : a.Reaches N c) (ht : N.element (elementOf t))
    (hv : t.name ∉ voidNames) : a.Reaches N (c.startSelect t).1 :=
  (hs.reopenFormatting.openTag ht hv).noFrameset.goTo _

/-- A start tag in the body. -/
lemma Reaches.startInBody (hN : N.Closed) (hs : a.Reaches N c) (htag : t.Named N) :
    a.Reaches N (c.startInBody t).1 := by
  have ht := htag.element hN
  have hv : ∀ {b}, BodyStart.of t.name = b → b ∉ [.head, .void, .detail, .rule, .stray] →
      t.name ∉ voidNames := fun hb hnot hmem => hnot (hb ▸ notMem_voidNames_of_start _ hmem)
  unfold Construction.startInBody
  cases hb : BodyStart.of t.name with
  | html => exact hs.startHtml hN htag
  | head => exact hs.startInHead ht (List.mem_cons_of_mem _ (mem_headElements_of_start hb))
  | body => exact hs.startBody hN htag
  | frameset => exact hs.startFrameset ht (hv hb (by decide))
  | block => exact hs.endParagraph.openTag ht (hv hb (by decide))
  | heading => exact hs.startHeading ht (hv hb (by decide))
  | preformatted => exact (hs.endParagraph.openTag ht (hv hb (by decide))).noFrameset.rest
  | form => exact hs.startForm ht (hv hb (by decide))
  | item => exact hs.startItem ht (hv hb (by decide))
  | plaintext => exact hs.endParagraph.openTag ht (hv hb (by decide))
  | button => exact hs.startButton ht (hv hb (by decide))
  | link => exact hs.closeLink.reopenFormatting.openFormatting ht (hv hb (by decide))
  | formatting => exact hs.reopenFormatting.openFormatting ht (hv hb (by decide))
  | nobr => exact hs.startNobr ht (hv hb (by decide))
  | «scoped» => exact (hs.reopenFormatting.openTag ht (hv hb (by decide))).mark.noFrameset
  | table =>
      have hv' := hv hb (by decide)
      dsimp only [done]
      split
      · exact (hs.openTag ht hv').noFrameset.goTo _
      · exact (hs.endParagraph.openTag ht hv').noFrameset.goTo _
  | void => exact hs.startVoid ht
  | detail => exact hs.addTag ht
  | rule => exact (hs.endParagraph.addTag ht).noFrameset
  | image =>
      have hname := hN.implied "img" (by decide)
      exact hs.unexpected.startVoid (hN.html _ _ hname htag.attributes)
  | textarea => exact hs.noFrameset.rest.openRaw ht (hv hb (by decide)) _
  | xmp => exact hs.endParagraph.reopenFormatting.noFrameset.openRaw ht (hv hb (by decide)) _
  | iframe => exact hs.noFrameset.openRaw ht (hv hb (by decide)) _
  | verbatim => exact hs.openRaw ht (hv hb (by decide)) _
  | select => exact hs.startSelect ht (hv hb (by decide))
  | option =>
      have hv' := hv hb (by decide)
      dsimp only [done]
      split
      · exact hs.pop.reopenFormatting.openTag ht hv'
      · exact hs.reopenFormatting.openTag ht hv'
  | rubyBase =>
      have hv' := hv hb (by decide)
      dsimp only [done]
      split
      · exact (hs.closeImplied.expect _ _).openTag ht hv'
      · exact (hs.expect _ _).openTag ht hv'
  | rubyText =>
      have hv' := hv hb (by decide)
      dsimp only [done]
      split
      · exact ((hs.closeImpliedExcept _).expect _ _).openTag ht hv'
      · exact (hs.expect _ _).openTag ht hv'
  | math =>
      have hv : Vocabulary.mathml ≠ .html := by decide
      exact hs.openForeign hN hv (hN.implied "math" (by decide)) htag.attributes
  | svg =>
      have hv : Vocabulary.svg ≠ .html := by decide
      have hname : graphicName "svg" = "svg" := by decide +kernel
      have hopen := hs.openForeign hN hv (hN.implied "svg" (by decide)) htag.attributes
      rwa [if_pos rfl, hname] at hopen
  | stray => exact hs.unexpected
  | ordinary => exact hs.reopenFormatting.openTag ht (hv hb (by decide))

lemma Reaches.endBlock (hs : a.Reaches N c) (name : String) : a.Reaches N (c.endBlock name).1 := by
  unfold Construction.endBlock
  split
  · exact hs.closeImplied.closeExpected _
  · exact hs.unexpected

lemma Reaches.endForm (hs : a.Reaches N c) : a.Reaches N c.endForm.1 := by
  unfold Construction.endForm
  dsimp only [done]
  split
  · split
    · exact (hs.closeImplied.expect _ _).popThroughNamed _
    · exact hs.fault _
  · split
    · exact hs.fault _
    · split
      · exact (hs.rest.closeImplied.expect _ _).removeOpen _
      · exact hs.rest.fault _

lemma Reaches.endParagraphTag (hN : N.Closed) (hs : a.Reaches N c) :
    a.Reaches N c.endParagraphTag.1 := by
  unfold Construction.endParagraphTag
  dsimp only [done]
  split
  · exact hs.closeParagraph
  · exact ((hs.fault _).openImplied (hN.impliedElement (by decide)) (by decide)).closeParagraph

lemma Reaches.endItem (hs : a.Reaches N c) (name : String) : a.Reaches N (c.endItem name).1 := by
  unfold Construction.endItem
  generalize (if name = "li" then OpenElement.endsItemScope else OpenElement.endsScope) = barrier
  dsimp only [done]
  split
  · exact (hs.closeImpliedExcept _).closeExpected _
  · exact hs.fault _

lemma Reaches.endHeading (hs : a.Reaches N c) (name : String) :
    a.Reaches N (c.endHeading name).1 := by
  unfold Construction.endHeading
  split
  · exact (hs.closeImplied.expect _ _).popThrough _
  · exact hs.fault _

lemma Reaches.endBody (hs : a.Reaches N c) : a.Reaches N c.endBody.1 := by
  unfold Construction.endBody
  split
  · exact hs.checkClosed.goTo _
  · exact hs.fault _

lemma Reaches.endHtml (hs : a.Reaches N c) : a.Reaches N c.endHtml.1 := by
  unfold Construction.endHtml
  split
  · exact hs.checkClosed
  · exact hs.fault _

/-- An end tag in the body. -/
lemma Reaches.endInBody (hN : N.Closed) (hs : a.Reaches N c) (ht : t.Named N) :
    a.Reaches N (c.endInBody t).1 := by
  unfold Construction.endInBody
  cases BodyEnd.of t.name with
  | template => exact hs.endTemplate
  | body => exact hs.endBody
  | html => exact hs.endHtml
  | block => exact hs.endBlock _
  | form => exact hs.endForm
  | paragraph => exact hs.endParagraphTag hN
  | item => exact hs.endItem _
  | heading => exact hs.endHeading _
  | formatting => exact hs.closeFormatting _
  | «scoped» =>
      dsimp only
      split
      · exact (hs.closeImplied.closeExpected _).forgetToMarker
      · exact hs.unexpected
  | lineBreak => exact hs.unexpected.startVoid (hN.html _ _ ht.name hN.bare)
  | ordinary => exact hs.closeOrdinary _

lemma Reaches.inBody (hN : N.Closed) (hs : a.Reaches N c) (hitem : item.Named N) :
    a.Reaches N (c.inBody item).1 := by
  cases item with
  | null => exact hs.unexpected
  | text kind s => exact hs.bodyText s
  | comment s => exact hs.addComment s
  | startTag t => exact hs.startInBody hN hitem
  | endTag t => exact hs.endInBody hN hitem
  | endOfText =>
      unfold Construction.inBody
      dsimp only
      split
      · exact hs.checkClosed
      · exact hs.endInTemplate

end Construction

end RichText
