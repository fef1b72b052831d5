import RichText.Proofs.Construction.Forests

/-!
Plain forests as the contents of a template.

A template keeps what stands between its tags apart from its children. Its contents are read like
text at first, and from the first start tag on by the rules of a body.

* `inNewTemplate`, `asBody`: the construction inside a template that has just been opened, and
  once its contents are read as those of a body;
* `feed_startTemplate`, `feed_endTemplate`: what the tags of a template do;
* `grows_contents`: a written plain forest grows below the root of the contents;
* `grows_template`: **a written template grows** with its contents.
-/

namespace RichText

namespace Construction

open Heap

variable {c c' : Construction} {e : OpenElement} {es : List OpenElement} {p : NodeId}
  {as : List Attribute} {ts : List Tree} {rest : List Char}

/-! ### The states inside a template -/

/-- The construction inside a template that has just been opened below `p`. -/
def inNewTemplate (c : Construction) (p : NodeId) (as : List Attribute) : Construction :=
  { c with
    heap := c.heap.growTemplate p as
    stack := { id := c.heap.size, name := "template" } :: c.stack
    formatting := .marker :: c.formatting
    framesetOk := false
    mode := .inTemplate
    templateModes := .inTemplate :: c.templateModes }

/-- The construction inside a template whose contents are from now on read as those of a body. -/
def asBody (c : Construction) : Construction :=
  { c with mode := .inBody, templateModes := .inBody :: c.templateModes.tail }

lemma Within.asBody (hc : c.Within e es p) : c.asBody.Inside e es p where
  stack := hc.stack
  mode_or := .inl rfl
  mode := rfl
  settled := hc.settled
  fostering := hc.fostering
  dropsNewline := hc.dropsNewline
  vocabulary := hc.vocabulary
  holder_eq := hc.holder_eq
  wellFormed := hc.wellFormed
  open_lt := hc.open_lt
  id_lt := hc.id_lt

/-- Text goes below the root of the contents. -/
lemma Inside.within_inNewTemplate (hc : c.Inside e es p) (as : List Attribute) :
    (c.inNewTemplate p as).Within { id := c.heap.size, name := "template" } c.stack
      (c.heap.size + 1) where
  stack := rfl
  mode_or := .inr rfl
  settled f hf := by
    obtain rfl : .marker = f := Option.some.inj hf
    rfl
  fostering := hc.fostering
  dropsNewline := hc.dropsNewline
  vocabulary := rfl
  holder_eq := by
    have hcontents : ((c.heap.growTemplate p as).node c.heap.size).contents
        = some (c.heap.size + 1) := congrArg Prod.snd (bare_growTemplate c.heap p as)
    have hnamed : ({ id := c.heap.size, name := "template" } : OpenElement).named "template" = true :=
      rfl
    rw [holder, hnamed, if_pos rfl, inNewTemplate, hcontents]
    rfl
  wellFormed := (hc.wellFormed.plantedBelow_growTemplate hc.id_lt as).wellFormed
  open_lt := by simp [inNewTemplate]
  id_lt := by simp [inNewTemplate]

/-- A template that has just been opened has no contents. -/
lemma Inside.not_endsInText_inNewTemplate (hc : c.Inside e es p) (as : List Attribute) :
    ¬ (c.inNewTemplate p as).heap.EndsInText (c.heap.size + 1) := by
  rintro ⟨i, x, hlast, -⟩
  have hne : c.heap.size + 1 ≠ p := Ne.symm (Nat.ne_of_lt (Nat.lt_succ_of_lt hc.id_lt))
  rw [inNewTemplate, children_growTemplate hc.id_lt, if_neg hne, Heap.children,
    node_of_size_le (Nat.le_succ _)] at hlast
  simp at hlast

/-! ### The tags of a template -/

/-- **The start tag of a template** opens it behind what is there. -/
theorem Inside.feed_startTemplate (hc : c.Inside e es p) (as : List Attribute) :
    c.feed (.startTag { name := "template", attributes := as })
      = (c.inNewTemplate p as, .markup) := by
  have hplace : ({ c with heap := c.heap.pushTemplate as } : Construction).place = .inside p := by
    rw [place_of_stack (c := { c with heap := c.heap.pushTemplate as }) hc.stack hc.fostering,
      ← hc.holder_eq]
    exact congrArg Place.inside
      (holder_congr (congrArg Node.contents (node_pushTemplate_of_lt c.heap as hc.open_lt)))
  have hmake : c.make (templateElement as)
      = ({ c with heap := c.heap.pushTemplate as }, c.heap.size) := rfl
  have hopen : c.openTag { name := "template", attributes := as } = { c with
      heap := c.heap.growTemplate p as
      stack := { id := c.heap.size, name := "template" } :: c.stack } := by
    have helement : elementOf { name := "template", attributes := as } = templateElement as := rfl
    rw [openTag, helement, insertOpen, insert, hmake]
    simp only [hplace, putNode, push, growTemplate]
    rfl
  have hstart : BodyStart.of "template" = .head := by decide
  have hvoid : "template" ∉ headVoids := by decide
  have hturn : c.turn (.startTag { name := "template", attributes := as })
      = (c.inNewTemplate p as, .done) := by
    rw [hc.turn_eq, inBody, startInBody]
    simp only [hstart, startInHead, hvoid, if_false, startTemplate, hopen]
    rfl
  exact feed_startTag_of_take hc.dropsNewline rfl (take_of_turn hturn (by simp))

/-- The mode that fits the open elements does not depend on nodes and text. -/
lemma resetMode_congr (hfragment : c'.isFragment = c.isFragment) (hhead : c'.head = c.head)
    (hmodes : c'.templateModes = c.templateModes) (es : List OpenElement) :
    c'.resetMode es = c.resetMode es := by
  induction es with
  | nil => rfl
  | cons e es ih =>
      have hmode : c'.modeOf e es = c.modeOf e es := by simp only [modeOf, hhead, hmodes]
      rw [resetMode, resetMode, hfragment, hmode, ih]

/-- **The end tag of a template** goes back to where it was opened. -/
theorem Inside.feed_endTemplate (hc : c.Inside e es p) (hreset : c.resetMode c.stack = .inBody)
    (as : List Attribute) (h : Heap) (ok : Bool)
    (hc' : c' = c.inNewTemplate p as ∨ c' = (c.inNewTemplate p as).asBody) :
    (c'.grown h ok).feed (.endTag { name := "template" }) = (c.grown h ok, .markup) := by
  set entry : OpenElement := { id := c.heap.size, name := "template" } with hentry
  set d := c'.grown h ok with hd
  have hstack : d.stack = entry :: c.stack := by rcases hc' with rfl | rfl <;> rfl
  have hformatting : d.formatting = .marker :: c.formatting := by rcases hc' with rfl | rfl <;> rfl
  have hdrops : d.dropsNewline = false := by
    rcases hc' with rfl | rfl <;> exact hc.dropsNewline
  have hnamed : entry.named "template" = true := rfl
  -- in both modes the tag closes the template
  have hturn : d.turn (.endTag { name := "template" }) = d.endTemplate := by
    rw [turn_of_html hstack rfl]
    rcases hc' with rfl | rfl <;> rfl
  have hopen : d.hasOpen "template" = true := by
    rw [hasOpen, hstack, List.any_cons, hnamed, Bool.true_or]
  have himplied : d.popWhile (·.among OpenElement.templateImpliedEnds) = d :=
    popWhile_of_stack hstack (by simp [hentry, OpenElement.among]; decide)
  have hcurrent : d.currentNamed "template" = true := by
    rw [currentNamed, hstack]
    exact hnamed
  have hleave : ({ d with stack := c.stack } : Construction).leaveTemplate.goToReset
      = c.grown h ok := by
    have hforget : ({ d with stack := c.stack } : Construction).leaveTemplate
        = (c.grown h ok).goTo d.mode := by
      rw [leaveTemplate, forgetToMarker]
      simp only [hformatting]
      rcases hc' with rfl | rfl <;> rfl
    have hmode : ((c.grown h ok).goTo d.mode).resetMode c.stack = c.mode := by
      rw [hc.mode, ← hreset]
      refine resetMode_congr ?_ ?_ ?_ c.stack <;> rfl
    have hgoes : ((c.grown h ok).goTo d.mode).goToReset
        = ((c.grown h ok).goTo d.mode).goTo (((c.grown h ok).goTo d.mode).resetMode c.stack) := rfl
    rw [hforget, hgoes, hmode]
    rfl
  have hend : d.endTemplate = (c.grown h ok, .done) := by
    rw [endTemplate, if_pos hopen, himplied, closeExpected, expect, if_pos hcurrent,
      popThroughNamed, popThrough_of_stack hstack hnamed]
    exact congrArg done hleave
  rw [feed]
  simp only [withDropsNewline_eq hdrops, take_of_turn (hturn.trans hend) (by simp)]

/-! ### The contents -/

/-- A start tag makes the contents of a template be read as those of a body. -/
lemma Within.feed_startTag_asBody (hc : c.Within e es p) (hmode : c.mode = .inTemplate) {t : Tag}
    (ht : BodyStart.of t.name = .block ∧ c.hasParagraph = false ∨ BodyStart.of t.name = .ordinary) :
    c.feed (.startTag t) = c.asBody.feed (.startTag t) := by
  have hnot : ∀ name, BodyStart.of name ≠ .block → BodyStart.of name ≠ .ordinary → t.name ≠ name := by
    rintro _ hblock hordinary rfl
    exact ht.elim (fun h => hblock h.1) hordinary
  have hhead : t.name ∉ headElements := fun hmem =>
    have hall : ∀ n ∈ headElements, BodyStart.of n ≠ .block ∧ BodyStart.of n ≠ .ordinary := by
      decide
    hnot _ (hall _ hmem).1 (hall _ hmem).2 rfl
  have hagain : c.turn (.startTag t) = c.againAs .inBody := by
    rw [turn_of_html hc.stack hc.vocabulary, hmode]
    have hrules : c.rules .inTemplate (.startTag t) = c.inTemplate (.startTag t) := rfl
    rw [hrules, inTemplate]
    simp only [hhead, if_false]
    split
    all_goals first
      | exact absurd ‹_› (hnot _ (by decide) (by decide))
      | rfl
  have htake : c.take (.startTag t) = c.asBody.take (.startTag t) := by
    have hbody := hc.asBody.turn_startTag ht
    rw [take_of_turn hbody (by simp), take, rounds, Nat.mul_add, takeTo_again hagain, takeTo]
    have hgoes : ({ c with templateModes := .inBody :: c.templateModes.tail } :
        Construction).goTo .inBody = c.asBody := rfl
    rw [hgoes, hbody]
  rw [feed, feed]
  simp only [withDropsNewline_eq hc.dropsNewline, withDropsNewline_eq hc.asBody.dropsNewline]
  rw [takeStartTag, takeStartTag, htake]

/-- A text that begins with a start tag is read as that of a body. -/
lemma Within.build_startTag_asBody (hc : c.Within e es p) (hmode : c.mode = .inTemplate)
    {form : Char → List Char} {name : String} (hname : IsTagName name)
    (has : ∀ a ∈ as, a.Readable form) (hnd : (as.map (·.name)).Nodup)
    (hstart : BodyStart.of name = .block ∧ c.hasParagraph = false ∨ BodyStart.of name = .ordinary)
    (limit : Option ℕ) (rest : List Char) :
    c.build (.markup limit) (tagText form name as ++ rest)
      = c.asBody.build (.markup limit) (tagText form name as ++ rest) := by
  obtain ⟨text, htext, hnext⟩ := next_startTag hname has hnd c.inForeignElement limit rest
  have hforeign : c.asBody.inForeignElement = c.inForeignElement := rfl
  have hbody := hc.asBody.feed_startTag (t := { name := name, attributes := as }) hstart rfl
  have hfeed := (hc.feed_startTag_asBody hmode hstart).trans hbody
  rw [htext, build_cons hnext hfeed, build_cons (by rw [hforeign]; exact hnext) hbody]

/-- Contents that begin with an element grow by the rules of a body. -/
lemma grows_contents_of_element {n : Element} {cs : List Tree} (hc : c.Within e es p)
    (hmode : c.mode = .inTemplate) (hparagraph : c.hasParagraph = false)
    (hts : Tree.isPlainAll false (.element n cs :: ts) = true) (hrest : ∀ a ∈ rest.head?, a = '<') :
    Grows c c.asBody p (serialize (.element n cs :: ts)) rest (.element n cs :: ts) := by
  intro limit
  obtain ⟨h, ok, limit', hbuild, hplanted⟩ := grows_forest hts hc.asBody (fun _ => hparagraph)
    (fun htext => absurd htext (by simp [Tree.isText])) rest hrest limit
  refine ⟨h, ok, limit', ?_, hplanted⟩
  obtain ⟨hn, -, -⟩ := Tree.isPlainAll_cons.mp hts
  simp only [Tree.isPlain, Bool.and_eq_true] at hn
  obtain ⟨-, hname, has, hnd⟩ := Element.isPlain_iff.mp hn.1.1
  have hwritten : serialize (.element n cs :: ts) ++ rest
      = tagText (escapeChar .inValue) n.name n.attributes
        ++ (serialize cs ++ ('<' :: '/' :: n.name.toList ++ ['>']) ++ serialize ts ++ rest) := by
    rw [serialize, serializeNodes, serializeNode_of_isPlain hn.1.1, serialize]
    simp [serialize]
  rw [← hbuild, hwritten]
  exact hc.build_startTag_asBody hmode (isTagName_of_isPlainName hname)
    (fun a ha => Attribute.readable_of_isPlain (has a ha)) hnd
    ((flows_of_isPlainName hname).2.imp_left fun h => ⟨h.1, hparagraph⟩) limit _

/-- **A written plain forest grows** as the contents of a template, whose rules become those of a
body with the first element. -/
theorem grows_contents (hc : c.Within e es p) (hmode : c.mode = .inTemplate)
    (hparagraph : c.hasParagraph = false) (hends : ¬ c.heap.EndsInText p)
    (hts : Tree.isPlainAll false ts = true) (hrest : ∀ a ∈ rest.head?, a = '<') :
    ∃ c', (c' = c ∨ c' = c.asBody) ∧ Grows c c' p (serialize ts) rest ts := by
  cases ts with
  | nil => exact ⟨c, .inl rfl, fun limit =>
      ⟨c.heap, c.framesetOk, limit, rfl, hc.wellFormed.plantedBelow_nil p⟩⟩
  | cons t ts =>
      obtain ⟨ht, hnext, hts'⟩ := Tree.isPlainAll_cons.mp hts
      cases t with
      | element n cs =>
          exact ⟨_, .inr rfl, grows_contents_of_element hc hmode hparagraph hts hrest⟩
      | text x =>
          have htext : Grows c c p (serializeNode {} (.text x)) (serialize ts ++ rest) [.text x] :=
            grows_plainText hc ht hends (head?_serialize_append hts' (hnext rfl) hrest)
          cases ts with
          | nil => exact ⟨c, .inl rfl, by simpa [serialize, serializeNodes] using htext⟩
          | cons t ts =>
              cases t with
              | element n cs =>
                  have hgrows : Grows c c.asBody p
                      (serializeNode {} (.text x) ++ serialize (.element n cs :: ts)) rest
                      ([.text x] ++ .element n cs :: ts) :=
                    htext.trans hc.id_lt rfl fun h ok hplanted =>
                      grows_contents_of_element (hc.grown hplanted ok) hmode hparagraph hts' hrest
                  exact ⟨c.asBody, .inr rfl, hgrows⟩
              | text y => exact absurd (hnext rfl) (by simp [Tree.isText])
              | _ => exact absurd (Tree.isPlainAll_cons.mp hts').1 (by simp [Tree.isPlain])
      | _ => exact absurd ht (by simp [Tree.isPlain])

/-! ### The template -/

/-- **A written template grows** with its contents, where no template is open around it that would
decide on the mode behind it. -/
theorem grows_template (hc : c.Inside e es p) (hreset : c.resetMode c.stack = .inBody)
    {form : Char → List Char} (has : ∀ a ∈ as, a.Readable form) (hnd : (as.map (·.name)).Nodup)
    (hts : Tree.isPlainAll false ts = true) :
    Grows c c p (tagText form "template" as ++ serialize ts ++ "</template>".toList) rest
      [.template as [] ts] := by
  intro limit
  have hname : IsTagName "template" :=
    ⟨by decide, List.all_iff_forall_prop.mp (by decide), fun c hc => Option.some.inj hc ▸ rfl⟩
  have hparagraph : (c.inNewTemplate p as).hasParagraph = false := rfl
  obtain ⟨text, htext, hnext⟩ := next_startTag hname has hnd c.inForeignElement limit
    (serialize ts ++ ("</template>".toList ++ rest))
  have hrest : ∀ a ∈ ("</template>".toList ++ rest).head?, a = '<' := fun a ha =>
    (Option.some.inj ha).symm
  obtain ⟨c', hc', hgrows⟩ := grows_contents (hc.within_inNewTemplate as) rfl hparagraph
    (hc.not_endsInText_inNewTemplate as) hts hrest
  obtain ⟨h, ok, limit', hbuild, hplanted⟩ := hgrows none
  have hheap : c'.heap = c.heap.growTemplate p as := by rcases hc' with rfl | rfl <;> rfl
  rw [hheap] at hplanted
  refine ⟨h, ok, none, ?_, PlantedBelow.template hc.wellFormed hc.id_lt hplanted⟩
  have hwritten : tagText form "template" as ++ serialize ts ++ "</template>".toList ++ rest
      = '<' :: text := by
    rw [← htext]
    simp
  rw [hwritten, build_cons hnext (hc.feed_startTemplate as), hbuild]
  exact build_cons (next_endTag hname _ limit' rest) (hc.feed_endTemplate hreset as h ok hc')

end Construction

end RichText
