import RichText.Html.Lexer.Markup
import RichText.Proofs.Construction.Holding
import RichText.Proofs.Text.Characters

/-!
The names in tokens.

A name is read character by character, up to the first that cannot stand in one. A kind of names
that is kept by every character that can (`Naming.Readable`) is the kind of all names that are
read. The attributes of a tag are read one by one, and none is kept that has the name of an
earlier one.

* `named_readTag`, `named_readDoctype`: tags and document types;
* `named_next`: all tokens of a step.
-/

namespace RichText

/-- What names of attributes are read as: in lower case, and with `=` only in front. -/
structure IsAttributeName (name : String) : Prop where
  toLower : name.toLower = name
  tail : '=' ∉ name.toList.tail

/-- Names that may go on with any character that can stand in a name, and attributes that may be
followed by any with another name. -/
structure Naming.Readable (N : Naming) : Prop where
  letter : ∀ c : Char, c.isAlpha → N.tag (String.singleton c.toLower)
  push : ∀ (name : String) (c : Char), N.tag name → isMarkupSpace c = false → c ≠ '/' →
    c ≠ '>' → N.tag (name.push c.toLower)
  bare : N.attributes []
  append : ∀ (as : List Attribute) (name value : String), N.attributes as → IsAttributeName name →
    (∀ a ∈ as, a.name ≠ name) → N.attributes (as ++ [{ name := name, value }])
  undeclared : N.doctype ""
  pushDoctype : ∀ (name : String) (c : Char), N.doctype name → c ≠ '>' →
    N.doctype (name.push c.toLower)

/-- A tag with an allowed name and allowed attributes. -/
structure Tag.Named (N : Naming) (t : Tag) : Prop where
  name : N.tag t.name
  attributes : N.attributes t.attributes

/-- A token whose names and attributes are allowed. -/
def Token.Named (N : Naming) : Token → Prop
  | .doctype d => N.doctype (d.name.getD "")
  | .startTag t => t.Named N
  | .endTag t => t.Named N
  | _ => True

/-- A way of reading in which the end tag that is looked for has an allowed name. -/
def LexMode.Named (N : Naming) : LexMode → Prop
  | .raw _ name => N.tag name
  | _ => True

variable {N : Naming}

lemma named_faults (es : List ParseError) : ∀ t ∈ faults es, t.Named N := by
  intro t ht
  obtain ⟨e, -, rfl⟩ := List.mem_map.mp ht
  trivial

lemma named_textTokens (s : List Char) : ∀ t ∈ textTokens s, t.Named N := by
  intro t ht
  unfold textTokens at ht
  split at ht
  · simp at ht
  · rw [List.mem_singleton.mp ht]
    trivial

/-! ### Tags -/

/-- The marks that begin an attribute name although they should not are no letters. -/
lemma toLower_of_mark : ∀ c ∈ ['"', '\'', '<', '='], c.toLower = c :=
  List.all_iff_forall_prop.mp (by decide)

lemma toLower_replacement : Reference.replacement.toLower = Reference.replacement := by
  decide

/-- The draft that a move leaves. -/
def TagMove.draft : TagMove → TagDraft
  | .go _ d => d
  | .finish d => d

/-- A draft whose name and whose attributes are allowed. -/
structure TagDraft.Named (N : Naming) (d : TagDraft) : Prop where
  name : N.tag d.name
  attributes : N.attributes d.attributes
  pending : ∀ q ∈ d.pending, IsAttributeName q.1

namespace TagDraft

variable {d : TagDraft}

lemma Named.fault (hd : d.Named N) (e : ParseError) : (d.fault e).Named N :=
  ⟨hd.name, hd.attributes, hd.pending⟩

lemma Named.bad (hd : d.Named N) : d.bad.Named N := hd.fault _

/-- The attribute that has been read is dropped if there is one of its name. -/
lemma Named.finishAttribute (hN : N.Readable) (hd : d.Named N) : d.finishAttribute.Named N := by
  unfold TagDraft.finishAttribute
  split
  · exact hd
  · next name value hpending =>
      dsimp only
      split
      · exact ⟨hd.name, hd.attributes, by simp [TagDraft.fault]⟩
      · next hany =>
          have hnew : ∀ a ∈ d.attributes, a.name ≠ name := fun a ha hname =>
            hany (List.any_eq_true.mpr ⟨a, ha, by simpa using hname⟩)
          have hname := hd.pending (name, value) hpending
          exact ⟨hd.name, hN.append _ name value hd.attributes hname hnew, by simp⟩

lemma Named.startAttribute (hN : N.Readable) (hd : d.Named N) {c : Char} (hc : c.toLower = c) :
    (d.startAttribute c).Named N := by
  refine ⟨(hd.finishAttribute hN).name, (hd.finishAttribute hN).attributes, fun q hq => ?_⟩
  obtain rfl := Option.some.inj hq
  exact ⟨@toLower_push "" _ (by decide +kernel) hc, by simp⟩

lemma Named.pushAttribute (hd : d.Named N) {c : Char} (hc : c.toLower = c) (hne : c ≠ '=') :
    (d.pushAttribute c).Named N := by
  refine ⟨hd.name, hd.attributes, fun q hq => ?_⟩
  obtain ⟨q', hq', rfl⟩ := Option.map_eq_some_iff.mp hq
  have hname := hd.pending q' hq'
  refine ⟨toLower_push hname.toLower hc, ?_⟩
  rw [String.toList_push]
  cases hchars : q'.1.toList with
  | nil => simp
  | cons b bs =>
      have htail := hname.tail
      rw [hchars, List.tail_cons] at htail
      simp [htail, hne.symm]

lemma Named.pushValue (hd : d.Named N) (cs : List Char) : (d.pushValue cs).Named N := by
  refine ⟨hd.name, hd.attributes, fun q hq => ?_⟩
  obtain ⟨q', hq', rfl⟩ := Option.map_eq_some_iff.mp hq
  exact hd.pending q' hq'

lemma Named.pushReference (hd : d.Named N) (r : Reference) : (d.pushReference r).Named N :=
  Named.pushValue (d := { d with errors := d.errors ++ r.errors })
    ⟨hd.name, hd.attributes, hd.pending⟩ r.text

lemma Named.stepBetween (hN : N.Readable) (hd : d.Named N) (c : Char) :
    (d.stepBetween c).draft.Named N := by
  unfold TagDraft.stepBetween
  split_ifs with _ _ _ _ hmark
  · exact hd
  · exact hd
  · exact hd
  · exact hd.bad.startAttribute hN toLower_replacement
  · exact hd.bad.startAttribute hN (toLower_of_mark c hmark)
  · exact hd.startAttribute hN (toLower_toLower c)

lemma Named.stepAfterAttribute (hN : N.Readable) (hd : d.Named N) (c : Char) :
    (d.stepAfterAttribute c).draft.Named N := by
  unfold TagDraft.stepAfterAttribute
  split_ifs with _ _ _ _ _ hmark
  · exact hd
  · exact hd
  · exact hd
  · exact hd
  · exact hd.bad.startAttribute hN toLower_replacement
  · exact hd.bad.startAttribute hN (toLower_of_mark c (List.mem_append_left ['='] hmark))
  · exact hd.startAttribute hN (toLower_toLower c)

lemma Named.stepAttribute (hd : d.Named N) (c : Char) : (d.stepAttribute c).draft.Named N := by
  unfold TagDraft.stepAttribute
  split_ifs with _ _ hequals _ _ hmark
  · exact hd
  · exact hd
  · exact hd
  · exact hd
  · exact hd.bad.pushAttribute toLower_replacement (by decide)
  · exact hd.bad.pushAttribute (toLower_of_mark c (List.mem_append_left ['='] hmark)) hequals
  · exact hd.pushAttribute (toLower_toLower c) (toLower_ne (by decide) hequals)

lemma Named.stepValue (hd : d.Named N) (quote : Option Char) (c : Char) :
    (d.stepValue quote c).draft.Named N := by
  unfold TagDraft.stepValue
  split_ifs
  · exact hd
  · exact hd
  · exact hd
  · exact hd.bad.pushValue _
  · exact hd.pushValue _

/-- A character leaves the name as it is, or it can stand in a name and the name goes on. -/
lemma Named.step (hN : N.Readable) (hd : d.Named N) (s : TagState) (c : Char) :
    (d.step s c).draft.Named N := by
  cases s with
  | name =>
      simp only [TagDraft.step]
      split_ifs with hspace hslash hend hnul
      · exact hd
      · exact hd
      · exact hd
      · have := hN.push _ Reference.replacement hd.name (by decide) (by decide) (by decide)
        rw [toLower_replacement] at this
        exact ⟨this, hd.attributes, hd.pending⟩
      · have := hN.push _ c hd.name (by simpa using hspace) hslash hend
        exact ⟨this, hd.attributes, hd.pending⟩
  | beforeAttribute => exact hd.stepBetween hN c
  | attributeName => exact hd.stepAttribute c
  | afterAttributeName => exact hd.stepAfterAttribute hN c
  | beforeValue =>
      simp only [TagDraft.step]
      split_ifs
      · exact hd
      · exact hd
      · exact hd.fault _
      · exact hd.stepValue none c
  | value quote => exact hd.stepValue quote c
  | afterValue =>
      simp only [TagDraft.step]
      split_ifs
      · exact hd
      · exact hd
      · exact hd
      · exact hd.bad.stepBetween hN c
  | selfClosing =>
      simp only [TagDraft.step]
      split_ifs
      · exact ⟨hd.name, hd.attributes, hd.pending⟩
      · exact hd.bad.stepBetween hN c

lemma named_tokens (hN : N.Readable) (hd : d.Named N) : ∀ t ∈ d.tokens, t.Named N := by
  have hfinish := hd.finishAttribute hN
  intro t ht
  unfold tokens at ht
  dsimp only at ht
  split at ht
  · rcases List.mem_append.mp ht with ht | ht
    · exact named_faults _ t ht
    · rw [List.mem_singleton.mp ht]
      exact ⟨hfinish.name, hfinish.attributes⟩
  · rcases List.mem_append.mp ht with ht | ht
    · exact named_faults _ t ht
    · rw [List.mem_singleton.mp ht]
      exact ⟨hfinish.name, hfinish.attributes⟩

end TagDraft

/-- The tag that is read is allowed. -/
lemma named_readTag (hN : N.Readable) (s : TagState) {d : TagDraft} (hd : d.Named N)
    (cs : List Char) : ∀ t ∈ (readTag s d cs).tokens, t.Named N := by
  fun_induction readTag s d cs with
  | case1 => exact named_faults _
  | case2 s d c cs value h r ih => exact ih (hd.pushReference _)
  | case3 s d c cs h s' d' hm ih =>
      have := hd.step hN s (newline c)
      rw [hm] at this
      exact ih this
  | case4 s d c cs h d' hm =>
      have := hd.step hN s (newline c)
      rw [hm] at this
      exact TagDraft.named_tokens hN this

/-! ### Document types -/

/-- The draft that a move leaves. -/
def DoctypeMove.draft : DoctypeMove → DoctypeDraft
  | .go _ d => d
  | .finish d => d

namespace DoctypeDraft

/-- The name of a document type as far as it has been read. -/
def name (d : DoctypeDraft) : String := d.doctype.name.getD ""

@[simp] lemma name_mapId (d : DoctypeDraft) (f : String → String) (p : DoctypePart) :
    (d.mapId f p).name = d.name := by
  cases p <;> rfl

lemma name_startId (d : DoctypeDraft) (p : DoctypePart) (quote : Char) :
    (d.startId p quote).draft.name = d.name :=
  name_mapId d (fun _ => "") p

lemma name_stepIgnored (d : DoctypeDraft) (c : Char) : (d.stepIgnored c).draft.name = d.name := by
  unfold stepIgnored
  split_ifs <;> rfl

lemma named_pushName (hN : N.Readable) {d : DoctypeDraft} (hd : N.doctype d.name) {c : Char}
    (hc : c ≠ '>') : N.doctype (d.pushName c.toLower).name :=
  hN.pushDoctype _ c hd hc

lemma named_pushReplacement (hN : N.Readable) {d : DoctypeDraft} (hd : N.doctype d.name) :
    N.doctype (d.pushName Reference.replacement).name := by
  have := named_pushName hN hd (c := Reference.replacement) (by decide)
  rwa [toLower_replacement] at this

lemma named_stepBeforeName (hN : N.Readable) {d : DoctypeDraft} (hd : N.doctype d.name)
    (c : Char) : N.doctype (d.stepBeforeName c).draft.name := by
  unfold stepBeforeName
  split_ifs with hspace hnul hend
  · exact hd
  · exact named_pushReplacement (d := d.fault .badCharacter) hN hd
  · exact hd
  · exact named_pushName hN hd hend

/-- A character leaves the name as it is, or the name goes on with it. -/
lemma named_step (hN : N.Readable) {d : DoctypeDraft} (hd : N.doctype d.name) (s : DoctypeState)
    (c : Char) : N.doctype (d.step s c).draft.name := by
  -- behind the name nothing is added to it
  have hmap : ∀ (d' : DoctypeDraft) (f : String → String) (p : DoctypePart), d'.name = d.name →
      N.doctype (d'.mapId f p).name := fun d' f p h => by rwa [name_mapId, h]
  have hignored : ∀ d' : DoctypeDraft, d'.name = d.name →
      N.doctype (d'.stepIgnored c).draft.name := fun d' h => by rwa [name_stepIgnored, h]
  have hstart : ∀ (d' : DoctypeDraft) (p : DoctypePart), d'.name = d.name →
      N.doctype (d'.startId p c).draft.name := fun d' p h => by rwa [name_startId, h]
  unfold step
  split
  · split_ifs
    · exact named_stepBeforeName hN hd c
    · exact named_stepBeforeName hN (d := d.fault .badCharacter) hd c
  · exact named_stepBeforeName hN hd c
  · split_ifs with hspace hend hnul
    · exact hd
    · exact hd
    · exact named_pushReplacement (d := d.fault .badCharacter) hN hd
    · exact named_pushName hN hd hend
  · split_ifs
    exacts [hd, hd, hignored _ rfl]
  · split_ifs
    exacts [hd, hstart _ _ rfl, hd, hignored _ rfl]
  · split_ifs
    exacts [hd, hstart _ _ rfl, hd, hignored _ rfl]
  · split_ifs <;> dsimp only [DoctypeMove.draft]
    exacts [hd, hmap _ _ _ rfl, hd, hmap _ _ _ rfl]
  · split_ifs
    exacts [hd, hd, hstart _ _ rfl, hignored _ rfl]
  · split_ifs
    exacts [hd, hd, hignored _ rfl]
  · split_ifs
    exacts [hd, hd, hstart _ _ rfl, hignored _ rfl]
  · exact hignored _ rfl

lemma named_tokens {d : DoctypeDraft} (hd : N.doctype d.name) : ∀ t ∈ d.tokens, t.Named N := by
  intro t ht
  rcases List.mem_append.mp ht with ht | ht
  · exact named_faults _ t ht
  · rw [List.mem_singleton.mp ht]
    exact hd

end DoctypeDraft

/-- The document type that is read has an allowed name. -/
lemma named_readDoctype (hN : N.Readable) (s : DoctypeState) {d : DoctypeDraft}
    (hd : N.doctype d.name) (cs : List Char) : ∀ t ∈ (readDoctype s d cs).tokens, t.Named N := by
  fun_induction readDoctype s d cs with
  | case1 s d =>
      refine DoctypeDraft.named_tokens ?_
      unfold DoctypeDraft.atEnd
      split <;> exact hd
  | case2 s d c cs p h ih => exact ih hd
  | case3 s d c cs h s' d' hm ih =>
      have := DoctypeDraft.named_step hN hd s (newline c)
      rw [hm] at this
      exact ih this
  | case4 s d c cs h d' hm =>
      have := DoctypeDraft.named_step hN hd s (newline c)
      rw [hm] at this
      exact DoctypeDraft.named_tokens this

/-! ### Comments and text -/

lemma named_readComment (s : CommentState) (d : CommentDraft) (cs : List Char) :
    ∀ t ∈ (readComment s d cs).tokens, t.Named N := by
  have htokens : ∀ d : CommentDraft, ∀ t ∈ d.tokens, t.Named N := by
    intro d t ht
    rcases List.mem_append.mp ht with ht | ht
    · exact named_faults _ t ht
    · rw [List.mem_singleton.mp ht]
      trivial
  induction cs generalizing s d with
  | nil => exact htokens _
  | cons c cs ih =>
      rw [readComment]
      split
      · exact ih _ _
      · exact htokens _

lemma named_readBogusComment (cs : List Char) :
    ∀ t ∈ (readBogusComment cs).tokens, t.Named N := by
  intro t ht
  rcases List.mem_append.mp ht with ht | ht
  · exact named_faults _ t ht
  · rw [List.mem_singleton.mp ht]
    trivial

lemma named_withFaults {es : List ParseError} {l : Lexeme} (hl : ∀ t ∈ l.tokens, t.Named N) :
    ∀ t ∈ (l.withFaults es).tokens, t.Named N := by
  intro t ht
  rcases List.mem_append.mp ht with ht | ht
  · exact named_faults _ t ht
  · exact hl t ht

lemma named_characterData (held cs : List Char) :
    ∀ t ∈ (Lexeme.characterData held cs).tokens, t.Named N := by
  fun_induction Lexeme.characterData held cs with
  | case1 held =>
      intro t ht
      rcases List.mem_append.mp ht with ht | ht
      · exact named_textTokens _ t ht
      · exact named_faults _ t ht
  | case2 held cs => exact named_textTokens _
  | case3 held cs _ l ih =>
      intro t ht
      rcases List.mem_append.mp ht with ht | ht
      · exact named_textTokens _ t ht
      · rcases List.mem_cons.mp ht with rfl | ht
        · trivial
        · exact ih t ht
  | case4 held c cs _ _ ih => exact ih

/-- The end tag of an element that holds text only has the name of the element. -/
lemma named_readRaw (hN : N.Readable) {name : String} (hname : N.tag name) (kind : RawKind)
    (place : ScriptPlace) (held cs : List Char) :
    ∀ t ∈ (readRaw kind name place held cs).tokens, t.Named N := by
  fun_induction readRaw kind name place held cs with
  | case1 =>
      intro t ht
      rcases List.mem_append.mp ht with ht | ht
      · exact named_textTokens _ t ht
      · exact named_faults _ t ht
  | case2 place held cs l ih =>
      intro t ht
      rcases List.mem_append.mp ht with ht | ht
      · exact named_textTokens _ t ht
      · rcases List.mem_cons.mp ht with rfl | ht
        · trivial
        · exact ih t ht
  | case3 place held c cs hc hk r hr ih => exact ih
  | case4 place held c cs hc hk r hr l ih =>
      intro t ht
      rcases List.mem_append.mp ht with ht | ht
      · rcases List.mem_append.mp ht with ht | ht
        · exact named_textTokens _ t ht
        · exact named_faults _ t ht
      · exact ih t ht
  | case5 place held cs rest h l =>
      intro t ht
      rcases List.mem_append.mp ht with ht | ht
      · exact named_textTokens _ t ht
      · exact named_readTag hN .name (d := { closing := true, name }) ⟨hname, hN.bare, by simp⟩ _ t ht
  | case6 =>
      intro t ht
      rcases List.mem_append.mp ht with ht | ht
      · exact named_textTokens _ t ht
      · exact named_faults _ t ht
  | case7 place held cs hc hk h hs n p hj ih => exact ih
  | case8 place held cs hc hk h hs hj ih => exact ih
  | case9 place held c cs hc hk hlt ih => exact ih

/-! ### Steps -/

lemma named_declaration (hN : N.Readable) (foreign : Bool) (cs : List Char) :
    ∀ t ∈ (Lexeme.declaration foreign cs).tokens, t.Named N := by
  unfold Lexeme.declaration
  split_ifs
  · exact named_readComment _ _ _
  · exact named_readDoctype hN _ (d := {}) hN.undeclared _
  · exact named_characterData _ _
  · exact named_withFaults (named_readBogusComment _)

lemma named_closing (hN : N.Readable) (cs : List Char) :
    ∀ t ∈ (Lexeme.closing cs).tokens, t.Named N := by
  unfold Lexeme.closing
  split
  · simp [faults, Token.Named]
  · split_ifs with hend halpha
    · exact named_faults _
    · exact named_readTag hN _ ⟨hN.letter _ halpha, hN.bare, by simp⟩ _
    · exact named_withFaults (named_readBogusComment _)

lemma named_opening (hN : N.Readable) (foreign : Bool) (cs : List Char) :
    ∀ t ∈ (LexStep.opening foreign cs).lexeme.tokens, t.Named N := by
  unfold LexStep.opening
  split
  · simp [LexStep.markup, faults, Token.Named]
  · split_ifs with hbang hslash hquestion halpha
    · exact named_declaration hN _ _
    · exact named_closing hN _
    · exact named_withFaults (named_readBogusComment _)
    · exact named_readTag hN _ ⟨hN.letter _ halpha, hN.bare, by simp⟩ _
    · simp [faults, Token.Named]

/-- **The tokens of a step** have allowed names. -/
lemma named_next (hN : N.Readable) (foreign : Bool) {mode : LexMode} (hmode : mode.Named N)
    (c : Char) (cs : List Char) :
    ∀ t ∈ (LexStep.next foreign mode c cs).lexeme.tokens, t.Named N := by
  cases mode with
  | markup limit =>
      simp only [LexStep.next, LexStep.inMarkup]
      split_ifs
      · simp [LexStep.markup, Token.Named]
      · intro t ht
        rcases List.mem_append.mp ht with ht | ht
        · exact named_faults _ t ht
        · obtain ⟨x, -, rfl⟩ := List.mem_map.mp ht
          trivial
      · exact named_opening hN _ _
      all_goals simp [LexStep.markup, Token.Named]
  | raw kind name =>
      simp only [LexStep.next, LexStep.inRaw, LexStep.markup]
      split_ifs
      all_goals exact named_readRaw hN hmode _ _ _ _
  | plaintext limit =>
      simp only [LexStep.next, LexStep.inPlaintext]
      split_ifs
      all_goals simp [Token.Named]

/-- Behind a step markup goes on, or text to the end. -/
lemma named_mode_next (foreign : Bool) (mode : LexMode) (c : Char) (cs : List Char) :
    (LexStep.next foreign mode c cs).mode.Named N := by
  cases mode with
  | markup limit =>
      simp only [LexStep.next, LexStep.inMarkup, LexStep.opening, LexStep.reference]
      split_ifs
      any_goals trivial
      split
      · trivial
      · split_ifs <;> trivial
  | raw kind name => trivial
  | plaintext limit =>
      simp only [LexStep.next, LexStep.inPlaintext]
      split_ifs <;> trivial

end RichText
