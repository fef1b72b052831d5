import RichText.Content.Document
import RichText.Proofs.Construction.Forests

/-!
From the declaration to the body.

Content is read behind the declaration, which is a comment in front of the document. The first
item that belongs into a body opens the outermost element, the head and the body.

* `declared`, `opened`: the construction behind the declaration, and inside the body;
* `OpensBody`: the items that open the body;
* `take_declared`: **such an item does what it does inside the body**, whatever faults have been met
  in front of it (`take_declared_withErrors`);
* `openedWith`: the construction inside the body, behind text;
* `takeText_declared`: **text that opens the body** leads there;
* `forest_opened`: the document, when trees have grown inside the body.
-/

namespace RichText

namespace Construction

variable {c c' : Construction} {item : Item} {s w rest : List Char}

/-- The text of the comment that the declaration is read as. -/
def declarationText : String := "?xml encoding=\"UTF-8\""

/-- The construction behind the declaration. -/
def declared : Construction :=
  (start.fault .badCharacter).addCommentToRoot declarationText

/-- The construction behind the head. -/
def beforeBody : Construction :=
  let c := ({ declared.unexpected with tableInParagraph := true } : Construction).openHtml []
  (c.openHead { name := "head" }).pop

/-- The construction inside the body. -/
def opened : Construction := (beforeBody.openImplied "body").goTo .inBody

/-- The body among the open elements. -/
def bodyElement : OpenElement := { id := 4, name := "body" }

/-- The outermost of the open elements. -/
def htmlElement : OpenElement := { id := 2, name := "html" }

/-- The nodes in front of the content. -/
def frontNodes : Heap where
  nodes := #[{ content := .document, children := [1, 2] },
    { content := .comment declarationText, parent := some 0 },
    { content := .element { name := "html" }, parent := some 0, children := [3, 4] },
    { content := .element { name := "head" }, parent := some 2 },
    { content := .element { name := "body" }, parent := some 2 }]

lemma heap_opened : opened.heap = frontNodes := rfl

lemma plant_front : (Heap.plant {} (.document [.comment declarationText,
    .element { name := "html" } [.element { name := "head" } [], .element { name := "body" } []]])).1
      = frontNodes := rfl

/-- What follows the declaration is read inside the body once that is open. -/
lemma inside_opened : opened.Inside bodyElement [htmlElement] bodyElement.id where
  stack := rfl
  mode_or := .inl rfl
  mode := rfl
  settled f hf := by
    have hnone : opened.formatting = [] := rfl
    simp [hnone] at hf
  fostering := rfl
  dropsNewline := rfl
  vocabulary := rfl
  holder_eq := rfl
  wellFormed := by
    rw [heap_opened, ← plant_front]
    exact (Heap.wellFormed_empty.plant _).wellFormed
  open_lt := by decide
  id_lt := by decide

lemma hasParagraph_opened : opened.hasParagraph = false := rfl

lemma not_endsInText_opened : ¬ opened.heap.EndsInText bodyElement.id := by
  rintro ⟨i, x, hlast, -⟩
  exact absurd hlast (by simp [heap_opened, frontNodes, Heap.children, Heap.node, bodyElement])

/-! ### Items that open the body -/

/-- Names of start tags that have rules of their own in front of a body. -/
def frontNames : List String := ["html", "head", "body", "frameset", "noscript"] ++ headElements

/-- Whether an item opens the body. -/
def OpensBody : Item → Prop
  | .startTag t => t.name ∉ frontNames
  | .text .solid _ => True
  | .null => True
  | .endOfText => True
  | _ => False

lemma turn_of_nil (hstack : c.stack = []) (item : Item) : c.turn item = c.rules c.mode item := by
  have hforeign : c.isForeign item = false := by
    unfold isForeign
    rw [hstack]
  rw [turn, hforeign]
  rfl

lemma inInitial_of_opensBody (hitem : OpensBody item) : c.inInitial item
    = ({ c.unexpected with tableInParagraph := true } : Construction).again .beforeHtml := by
  cases item with
  | startTag t => rfl
  | text kind s =>
      cases kind with
      | solid => rfl
      | _ => exact hitem.elim
  | null => rfl
  | endOfText => rfl
  | _ => exact hitem.elim

lemma inBeforeHtml_of_opensBody (hitem : OpensBody item) :
    c.inBeforeHtml item = (c.openHtml []).again .beforeHead := by
  cases item with
  | startTag t =>
      have hname : t.name ≠ "html" := fun heq => hitem (heq ▸ by decide)
      simp [inBeforeHtml, hname]
  | text kind s =>
      cases kind with
      | solid => rfl
      | _ => exact hitem.elim
  | null => rfl
  | endOfText => rfl
  | _ => exact hitem.elim

lemma inBeforeHead_of_opensBody (hitem : OpensBody item) :
    c.inBeforeHead item = (c.openHead { name := "head" }).again .inHead := by
  cases item with
  | startTag t =>
      have hhtml : t.name ≠ "html" := fun heq => hitem (heq ▸ by decide)
      have hhead : t.name ≠ "head" := fun heq => hitem (heq ▸ by decide)
      simp [inBeforeHead, hhtml, hhead]
  | text kind s =>
      cases kind with
      | solid => rfl
      | _ => exact hitem.elim
  | null => rfl
  | endOfText => rfl
  | _ => exact hitem.elim

lemma inHead_of_opensBody (hitem : OpensBody item) : c.inHead item = c.pop.again .afterHead := by
  cases item with
  | startTag t =>
      have hhtml : t.name ≠ "html" := fun heq => hitem (heq ▸ by decide)
      have hhead : t.name ≠ "head" := fun heq => hitem (heq ▸ by decide)
      have hother : t.name ∉ "noscript" :: headElements := fun hmem => hitem (by
        rcases List.mem_cons.mp hmem with heq | hmem
        · exact heq ▸ by decide
        · exact List.mem_append_right _ hmem)
      simp only [inHead, hhtml, hhead, hother, if_false]
  | text kind s =>
      cases kind with
      | solid => rfl
      | _ => exact hitem.elim
  | null => rfl
  | endOfText => rfl
  | _ => exact hitem.elim

lemma inAfterHead_of_opensBody (hitem : OpensBody item) :
    c.inAfterHead item = (c.openImplied "body").again .inBody := by
  cases item with
  | startTag t =>
      have hhtml : t.name ≠ "html" := fun heq => hitem (heq ▸ by decide)
      have hhead : t.name ≠ "head" := fun heq => hitem (heq ▸ by decide)
      have hbody : t.name ≠ "body" := fun heq => hitem (heq ▸ by decide)
      have hframeset : t.name ≠ "frameset" := fun heq => hitem (heq ▸ by decide)
      have hother : t.name ∉ headElements := fun hmem => hitem (List.mem_append_right _ hmem)
      simp only [inAfterHead, hhtml, hhead, hbody, hframeset, hother, if_false]
  | text kind s =>
      cases kind with
      | solid => rfl
      | _ => exact hitem.elim
  | null => rfl
  | endOfText => rfl
  | _ => exact hitem.elim

/-- The construction when other faults have been met. -/
def withErrors (c : Construction) (fs : List ParseError) : Construction :=
  { c with errors := fs }

/-- In front of the body an item is passed on until the body is open. -/
lemma takeTo_declared (hitem : OpensBody item) (fs : List ParseError) (n : ℕ) :
    takeTo item (n + 5) (declared.withErrors fs)
      = takeTo item n (opened.withErrors (fs ++ [.unexpectedToken])) := by
  set c₀ := declared.withErrors fs with hc₀
  set c₁ := ({ c₀.unexpected with tableInParagraph := true } : Construction).goTo .beforeHtml
    with hc₁
  set c₂ := (c₁.openHtml []).goTo .beforeHead with hc₂
  set c₃ := (c₂.openHead { name := "head" }).goTo .inHead with hc₃
  set c₄ := c₃.pop.goTo .afterHead with hc₄
  have h₀ : c₀.turn item
      = ({ c₀.unexpected with tableInParagraph := true } : Construction).again .beforeHtml := by
    rw [turn_of_nil rfl]
    exact inInitial_of_opensBody hitem
  have h₁ : c₁.turn item = (c₁.openHtml []).again .beforeHead := by
    rw [turn_of_nil rfl]
    exact inBeforeHtml_of_opensBody hitem
  have h₂ : c₂.turn item = (c₂.openHead { name := "head" }).again .inHead := by
    rw [turn_of_html (e := htmlElement) rfl rfl]
    exact inBeforeHead_of_opensBody hitem
  have h₃ : c₃.turn item = c₃.pop.again .afterHead := by
    rw [turn_of_html (e := { id := 3, name := "head" }) rfl rfl]
    exact inHead_of_opensBody hitem
  have h₄ : c₄.turn item = (c₄.openImplied "body").again .inBody := by
    rw [turn_of_html (e := htmlElement) rfl rfl]
    exact inAfterHead_of_opensBody hitem
  rw [takeTo_again h₀, takeTo_again h₁, takeTo_again h₂, takeTo_again h₃, takeTo_again h₄]
  rfl

/-- An item that opens the body does what it does inside the body, whatever faults have been met
in front of it. -/
lemma take_declared_withErrors (hitem : OpensBody item) (fs : List ParseError) {outcome : Outcome}
    (hturn : (opened.withErrors (fs ++ [.unexpectedToken])).turn item = (c', outcome))
    (hnot : ∀ m, outcome ≠ .again m) : (declared.withErrors fs).take item = (c', outcome) := by
  have hrounds : (declared.withErrors fs).rounds = 58 + 1 + 5 := rfl
  rw [take, hrounds, takeTo_declared hitem, takeTo, hturn]
  cases outcome with
  | again m => exact absurd rfl (hnot m)
  | _ => rfl

/-- **An item that opens the body** does what it does inside the body. -/
theorem take_declared (hitem : OpensBody item) {outcome : Outcome}
    (hturn : opened.turn item = (c', outcome)) (hnot : ∀ m, outcome ≠ .again m) :
    declared.take item = (c', outcome) :=
  take_declared_withErrors hitem declared.errors hturn hnot

/-! ### The first unit -/

/-- The declaration is a comment in front of the document. -/
lemma build_declaration (s : List Char) :
    start.build (.markup none) (declaration ++ s) = declared.build (.markup none) s := by
  have htext : declaration ++ s = '<' :: ("?xml encoding=\"UTF-8\">".toList ++ s) := rfl
  rw [htext, build]
  rfl

/-- A start tag that opens the body does what it does inside. -/
lemma take_declared_startTag {t : Tag} (hfront : t.name ∉ frontNames)
    (hstart : BodyStart.of t.name = .block ∨ BodyStart.of t.name = .ordinary) :
    declared.take (.startTag t) = ({ opened with
      heap := opened.heap.grow bodyElement.id (.element (elementOf t))
      stack := { id := opened.heap.size, name := t.name } :: opened.stack }, .done) := by
  have hopens : OpensBody (.startTag t) := hfront
  exact take_declared hopens
    (inside_opened.turn_startTag (hstart.imp_left fun h => ⟨h, hasParagraph_opened⟩)) (by simp)

/-- **A text that begins with a start tag** is read as inside the body. -/
theorem build_declared_startTag {name : String} {as : List Attribute} {form : Char → List Char}
    (hname : IsTagName name) (has : ∀ a ∈ as, a.Readable form) (hnd : (as.map (·.name)).Nodup)
    (hfront : name ∉ frontNames)
    (hstart : BodyStart.of name = .block ∨ BodyStart.of name = .ordinary) (limit : Option ℕ)
    (rest : List Char) :
    declared.build (.markup limit) (tagText form name as ++ rest)
      = opened.build (.markup limit) (tagText form name as ++ rest) := by
  obtain ⟨text, htext, hnext⟩ :=
    next_startTag hname has hnd declared.inForeignElement limit rest
  have hforeign : opened.inForeignElement = declared.inForeignElement := rfl
  have hdeclared := feed_startTag_of_take (c := declared) rfl rfl
    (take_declared_startTag (t := { name := name, attributes := as }) hfront hstart)
  have hopened := inside_opened.feed_startTag (t := { name := name, attributes := as })
    (hstart.imp_left fun h => ⟨h, hasParagraph_opened⟩) rfl
  rw [htext, build_cons hnext hdeclared, build_cons (by rw [hforeign]; exact hnext) hopened]

/-! ### Text in the body -/

/-- The nodes in front of the content, with a text in the body. -/
def frontNodesWith (x : String) : Heap where
  nodes := #[{ content := .document, children := [1, 2] },
    { content := .comment declarationText, parent := some 0 },
    { content := .element { name := "html" }, parent := some 0, children := [3, 4] },
    { content := .element { name := "head" }, parent := some 2 },
    { content := .element { name := "body" }, parent := some 2, children := [5] },
    { content := .text x, parent := some 4 }]

/-- The nodes in front of the content, when text has been put into the body. -/
def frontText (w : List Char) : Heap :=
  if w.isEmpty then frontNodes else frontNodesWith (String.ofList w)

lemma frontText_of_ne_nil (hw : w ≠ []) : frontText w = frontNodesWith (String.ofList w) := by
  rw [frontText, if_neg (by simpa using hw)]

/-- **The construction inside the body**, behind text. -/
def openedWith (w : List Char) (fs : List ParseError) : Construction :=
  { opened with heap := frontText w, framesetOk := !hasSolid w, errors := fs }

lemma withErrors_opened (fs : List ParseError) : opened.withErrors fs = openedWith [] fs := rfl

lemma putText_frontNodes (hw : w ≠ []) :
    putText frontNodes (String.ofList w) (.inside bodyElement.id) = frontText w := by
  rw [frontText_of_ne_nil hw]
  rfl

/-- Further text goes on in the same node. -/
lemma putText_frontText (hs : s ≠ []) (w : List Char) :
    putText (frontText w) (String.ofList s) (.inside bodyElement.id) = frontText (w ++ s) := by
  by_cases hw : w = []
  · subst hw
    exact putText_frontNodes hs
  · rw [frontText_of_ne_nil hw, frontText_of_ne_nil (List.append_ne_nil_of_left_ne_nil hw s),
      String.ofList_append]
    rfl

lemma inside_openedWith (w : List Char) (fs : List ParseError) :
    (openedWith w fs).Inside bodyElement [htmlElement] bodyElement.id := by
  by_cases hw : w = []
  · subst hw
    exact { inside_opened with }
  · have hput := inside_opened.grown (inside_opened.wellFormed.plantedBelow_putText
      inside_opened.id_lt not_endsInText_opened (String.ofList w)) (!hasSolid w)
    rw [heap_opened, putText_frontNodes hw] at hput
    exact { hput with }

lemma hasSolid_append (w s : List Char) : hasSolid (w ++ s) = (hasSolid w || hasSolid s) :=
  List.any_append

/-- Text inside the body. -/
lemma take_text_openedWith (hs : s ≠ []) (kind : TextKind) (w : List Char)
    (fs : List ParseError) :
    (openedWith w fs).take (.text kind s) = (openedWith (w ++ s) fs, .done) := by
  have hturn := (inside_openedWith w fs).turn_text_eq kind s
  have hheap : (openedWith w fs).heap = frontText w := rfl
  have hok : ((openedWith w fs).framesetOk && !hasSolid s) = !hasSolid (w ++ s) := by
    rw [hasSolid_append, Bool.not_or]
    rfl
  rw [hheap, putText_frontText hs, hok] at hturn
  exact take_of_turn hturn (by simp)

/-- In front of the body text is taken in by runs with and without white space. -/
lemma take_mixed_declared (s : List Char) (fs : List ParseError) :
    (declared.withErrors fs).take (.text .mixed s) = (declared.withErrors fs, .split) :=
  take_of_turn (by rw [turn_of_nil rfl]; rfl) (by simp)

/-- Text that does not begin with white space opens the body. -/
lemma takeText_declared {a : Char} (ha : isMarkupSpace a = false) (s : List Char) (n : ℕ)
    (fs : List ParseError) :
    takeText (a :: s) (n + 2) (declared.withErrors fs)
      = openedWith (a :: s) (fs ++ [.unexpectedToken]) := by
  have hkind : kindOf a = .solid := by rw [kindOf, ha]; rfl
  obtain ⟨v, hv⟩ : ∃ v, (a :: s).takeWhile (fun x => isMarkupSpace x == isMarkupSpace a) = v :=
    ⟨_, rfl⟩
  obtain ⟨r, hr⟩ : ∃ r, (a :: s).dropWhile (fun x => isMarkupSpace x == isMarkupSpace a) = r :=
    ⟨_, rfl⟩
  have hvr : v ++ r = a :: s := hv ▸ hr ▸ List.takeWhile_append_dropWhile
  have hne : v ≠ [] := by
    rw [← hv, List.takeWhile_cons_of_pos (by simp)]
    exact List.cons_ne_nil _ _
  -- the run in front of the first white space opens the body
  have htake : (declared.withErrors fs).take (.text .solid v)
      = (openedWith v (fs ++ [.unexpectedToken]), .done) := by
    have hturn := (inside_openedWith [] (fs ++ [.unexpectedToken])).turn_text_eq .solid v
    have hheap : (openedWith [] (fs ++ [.unexpectedToken])).heap = frontNodes := rfl
    rw [hheap, putText_frontNodes hne] at hturn
    have hopens : OpensBody (.text .solid v) := trivial
    exact take_declared_withErrors hopens fs hturn (by simp)
  rw [takeText_of_split _ (take_mixed_declared _ fs), hkind, hv, hr, htake]
  by_cases hnil : r = []
  · rw [hnil, List.append_nil] at hvr
    rw [hnil, hvr, takeText]
  · rw [takeText_of_take hnil _ (take_text_openedWith hnil .mixed v _) (by simp), hvr]

/-- **A run of text** that does not begin with white space grows inside the body. -/
theorem feed_declared_text {a : Char} (ha : isMarkupSpace a = false) (u : List Char) :
    ∃ h ok, declared.feed (.text (a :: u)) = (opened.grown h ok, .markup)
      ∧ Heap.PlantedBelow opened.heap h bodyElement.id [.text (String.ofList (a :: u))] := by
  have hplanted := inside_opened.wellFormed.plantedBelow_putText inside_opened.id_lt
    not_endsInText_opened (String.ofList (a :: u))
  refine ⟨_, !hasSolid (a :: u), feed_text_of_takeText rfl ?_, hplanted⟩
  rw [heap_opened, putText_frontNodes (List.cons_ne_nil a u)]
  exact takeText_declared ha u u.length declared.errors

/-! ### The document -/

/-- The end of the text inside a body. -/
lemma Inside.finish_eq {e : OpenElement} {es : List OpenElement} {p : NodeId}
    (hc : c.Inside e es p)
    (htemplates : c.templateModes = []) : c.finish = c.checkClosed := by
  have hturn : c.turn .endOfText = c.checkClosed.done := by
    rw [hc.turn_eq, inBody, htemplates]
    rfl
  rw [finish, take_of_turn hturn (by simp)]

lemma heap_checkClosed (c : Construction) : c.checkClosed.heap = c.heap := by
  rw [checkClosed, expect]
  split <;> rfl

lemma root_checkClosed (c : Construction) : c.checkClosed.root = c.root := by
  rw [checkClosed, expect]
  split <;> rfl

/-- The document when trees have grown inside the body. -/
lemma forest_opened {h : Heap} {ts : List Tree}
    (hts : Heap.PlantedBelow opened.heap h bodyElement.id ts) :
    h.forest opened.root = [.comment declarationText,
      .element { name := "html" }
        [.element { name := "head" } [], .element { name := "body" } ts]] := by
  obtain ⟨ss, hch, hss, hnd, hge, hread⟩ := hts.carries
  rw [heap_opened] at hts hch hge
  have hlt : ∀ k : ℕ, k < 5 → k < h.size := fun k hk => Nat.lt_of_lt_of_le hk hts.size_le
  have hnode : ∀ k < 5, k ≠ 4 → h.node k = frontNodes.node k := fun k hk hne => hts.node_eq k hk hne
  have hbody : h.bare 4 = (.element { name := "body" }, none) := hts.bare_eq
  rw [Heap.bare, Prod.mk.injEq] at hbody
  have hbodyContent : h.content 4 = .element { name := "body" } := hbody.1
  have h₀ := hnode 0 (by decide) (by decide)
  have h₁ := hnode 1 (by decide) (by decide)
  have h₂ := hnode 2 (by decide) (by decide)
  have h₃ := hnode 3 (by decide) (by decide)
  have hc₁ : h.content 1 = .comment declarationText := Heap.content_congr h₁
  have hc₂ : h.content 2 = .element { name := "html" } := Heap.content_congr h₂
  have hc₃ : h.content 3 = .element { name := "head" } := Heap.content_congr h₃
  have hchildren : h.children opened.root
      = [Layout.node 1 [], .node 2 [.node 3 [], .node 4 ss]].map Layout.id := Heap.children_congr h₀
  have hcarries : h.CarriesAll [.node 1 [], .node 2 [.node 3 [], .node 4 ss]] := by
    refine ⟨⟨hlt 1 (by decide), by rw [h₁]; rfl, fun _ => rfl, Heap.children_congr h₁, trivial⟩,
      ⟨hlt 2 (by decide), by rw [h₂]; rfl, by simp [hc₂, Content.isLeaf], Heap.children_congr h₂,
        ⟨hlt 3 (by decide), by rw [h₃]; rfl, fun _ => rfl, Heap.children_congr h₃, trivial⟩,
        ⟨hlt 4 (by decide), hbody.2, by simp [hbodyContent, Content.isLeaf], hch, hss⟩, trivial⟩,
        trivial⟩
  have hfresh : (Layout.idsAll [.node 1 [], .node 2 [.node 3 [], .node 4 ss]]).Nodup := by
    have hnot : ∀ k < 5, k ∉ Layout.idsAll ss := fun k hk hmem => Nat.not_lt.mpr (hge k hmem) hk
    simp [Layout.idsAll, Layout.ids, hnd, hnot]
  rw [Heap.forest_eq_readAll hchildren hcarries hfresh]
  simp only [Heap.readAll, Heap.read, hc₁, hc₂, hc₃, hbodyContent, hread]

end Construction

end RichText
