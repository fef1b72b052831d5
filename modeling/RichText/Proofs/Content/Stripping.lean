import RichText.Content.Document
import RichText.Proofs.Construction.Build
import RichText.Proofs.Content.Wrapper
import RichText.Proofs.Text.Characters

/-!
Stripping the tags of a document that has been read.

No name in a document holds a closing bracket, so that neither tags nor document types are
written like the tags around head and body; comments, texts that stand as they are and the
values of attributes can be.

* `not_suffix_serialize`: what is written for the head does not end in the tags behind it;
* `mem_of_serialize_eq`: behind opening tags written in front of the document something follows;
* `stripWrapper_readContent_iff`: **what is kept of a document**: all but the tags exactly if no
  comment follows and neither what is in front of the document nor the head holds the tags that
  are looked for.
-/

namespace RichText

/-! ### Names without brackets -/

/-- Names without closing bracket. -/
def bracketless : Naming where
  tag name := '>' ∉ name.toList
  attributes _ := True
  element e := '>' ∉ e.name.toList
  doctype name := '>' ∉ name.toList

lemma bracketless_closed : bracketless.Closed where
  implied := by
    show ∀ name ∈ impliedNames, '>' ∉ name.toList
    decide
  bare := trivial
  html _ _ hname _ := hname
  svg _ _ hname _ := by
    have hall : ∀ name ∈ graphicNames, '>' ∉ name.toList := by decide
    exact withCapitals_of_forall (P := fun name => '>' ∉ name.toList) hname hall
  mathml _ _ hname _ := hname
  missing _ _ he _ := he

lemma notMem_push {s : String} {c : Char} (hs : '>' ∉ s.toList) (hc : c ≠ '>') :
    '>' ∉ (s.push c.toLower).toList := by
  rw [String.toList_push, List.mem_append, List.mem_singleton]
  exact not_or.mpr ⟨hs, (toLower_ne (by decide) hc).symm⟩

lemma bracketless_readable : bracketless.Readable where
  letter c hc := by
    have hne : c ≠ '>' := by
      rintro rfl
      exact absurd hc (by decide)
    exact notMem_push (s := "") (by decide) hne
  push _ _ hname _ _ hend := notMem_push hname hend
  bare := trivial
  append _ _ _ _ _ _ := trivial
  undeclared := by
    show '>' ∉ "".toList
    decide
  pushDoctype _ _ hname hend := notMem_push hname hend

/-! ### Behind the tags -/

namespace Recovery

/-- A name between a character that the middle tags do not end with and a bracket does not end
like these tags. -/
lemma not_suffix_name {c : Char} {name : List Char} (hc : ¬ c :: name <:+ "><body".toList)
    (hname : '>' ∉ c :: name) (w : List Char) : ¬ middleTags <:+ w ++ (c :: name ++ ['>']) := by
  rintro ⟨x, hx⟩
  have hmiddle : middleTags = "</head".toList ++ "><body".toList ++ ['>'] := by decide
  rw [hmiddle, ← List.append_assoc, ← List.append_assoc, ← List.append_assoc,
    List.append_cancel_right_eq] at hx
  have h1 : "><body".toList <:+ w ++ c :: name := ⟨x ++ "</head".toList, hx⟩
  have h2 : c :: name <:+ w ++ c :: name := List.suffix_append ..
  rcases List.suffix_or_suffix_of_suffix h1 h2 with h | h
  · exact hname (h.subset (by decide))
  · exact hc h

lemma getLast?_middleTags : middleTags.getLast? = some '>' := by decide

/-- What does not end in a bracket does not end in the middle tags. -/
lemma not_suffix_of_last {w s : List Char} (hne : s ≠ []) (hs : '>' ∉ s) :
    ¬ middleTags <:+ w ++ s := by
  rintro ⟨x, hx⟩
  have hlast := congrArg List.getLast? hx
  rw [List.getLast?_append_of_ne_nil _ hne, List.getLast?_append, getLast?_middleTags] at hlast
  exact hs (List.mem_of_getLast? hlast.symm)

/-- What ends in a mark and a bracket does not end in the middle tags. -/
lemma not_suffix_mark {a : Char} (ha : a ≠ 'y') (s : List Char) :
    ¬ middleTags <:+ s ++ [a, '>'] := by
  rintro ⟨x, hx⟩
  have hmiddle : middleTags = "</head><bod".toList ++ ['y', '>'] := by decide
  rw [hmiddle, ← List.append_assoc] at hx
  have := (List.append_inj' hx rfl).2
  simp only [List.cons.injEq, and_true] at this
  exact ha this.symm

/-- The start tag of an element without end tag is not like the middle tags. -/
lemma not_suffix_startTag {e : Element} (hname : '>' ∉ e.name.toList) (hvoid : e.isVoid = true)
    (w : List Char) : ¬ middleTags <:+ w ++ e.startTag := by
  rw [Element.startTag]
  rcases List.eq_nil_or_concat e.attributes with hnil | ⟨as, a, has⟩
  · have hmem : e.name ∈ voidNames := by
      simp only [Element.isVoid, Bool.and_eq_true, decide_eq_true_eq] at hvoid
      exact hvoid.2
    have hall : ∀ name ∈ voidNames, ¬ '<' :: name.toList <:+ "><body".toList := by decide
    have hbracket : '>' ∉ '<' :: e.name.toList := by simpa using hname
    rw [hnil, List.flatMap_nil, List.append_nil]
    exact not_suffix_name (hall _ hmem) hbracket w
  · have hends : ∀ s t u : List Char, w ++ ('<' :: s ++ (t ++ (u ++ ['"'])) ++ ['>'])
        = w ++ ('<' :: s ++ (t ++ u)) ++ ['"', '>'] := by simp
    rw [has, List.concat_eq_append, List.flatMap_append, List.flatMap_singleton, hends]
    exact not_suffix_mark (by decide) _

/-- An element that is written with an end tag. -/
lemma not_suffix_endTag {name : List Char} (hname : '>' ∉ name) (w : List Char) :
    ¬ middleTags <:+ w ++ ('<' :: '/' :: name ++ ['>']) := by
  have hslash : ¬ '/' :: name <:+ "><body".toList := fun hx =>
    absurd (hx.subset List.mem_cons_self) (by decide)
  have hname' : '>' ∉ '/' :: name := by simpa using hname
  have := not_suffix_name hslash hname' (w ++ ['<'])
  simpa using this

mutual

/-- What is written for a node outside of elements does not end in the middle tags. -/
lemma not_suffix_serializeNode : ∀ {t : Tree}, t.Sound bracketless → serializeNode {} t ≠ [] →
    ∀ w, ¬ middleTags <:+ w ++ serializeNode {} t
  | .element e cs, ht, _, w => by
      obtain ⟨hname, hnil, -⟩ := Tree.sound_element.mp ht
      rw [serializeNode_element, enclose]
      simp only [Bool.false_eq_true, if_false]
      split
      · next hvoid =>
          rw [hnil hvoid]
          simpa [serializeNodes] using not_suffix_startTag hname hvoid w
      · rw [← List.append_assoc]
        exact not_suffix_endTag hname _
  | .template as cs us, _, _, w => by
      have hname : '>' ∉ (templateElement as).name.toList := by
        show '>' ∉ "template".toList
        decide
      have hvoid : (templateElement as).isVoid = false := rfl
      rw [serializeNode_template, enclose, hvoid]
      simp only [Bool.false_eq_true, if_false]
      rw [← List.append_assoc]
      exact not_suffix_endTag hname _
  | .text s, _, hne, w => by
      rw [serializeNode_text] at hne ⊢
      exact not_suffix_of_last hne (notMem_escape (by decide) fun _ => by decide)
  | .comment s, _, _, w => by
      have hend : "-->".toList = ['-'] ++ ['-', '>'] := by decide
      rw [serializeNode_comment, hend, ← List.append_assoc, ← List.append_assoc]
      exact not_suffix_mark (by decide) _
  | .doctype name _ _, ht, _, w => by
      have hspace : ¬ ' ' :: name.toList <:+ "><body".toList := fun hx =>
        absurd (hx.subset List.mem_cons_self) (by decide)
      have hname : '>' ∉ name.toList := Tree.sound_doctype.mp ht
      have hname' : '>' ∉ ' ' :: name.toList := by simpa using hname
      have hstart : "<!DOCTYPE ".toList = "<!DOCTYPE".toList ++ [' '] := by decide
      rw [serializeNode_doctype, hstart]
      have := not_suffix_name hspace hname' (w ++ "<!DOCTYPE".toList)
      simpa using this
  | .document cs, ht, hne, w => by
      rw [serializeNode_document] at hne ⊢
      exact not_suffix_serializeNodes (Tree.sound_document.mp ht) hne w

/-- What is written for nodes outside of elements does not end in the middle tags. -/
lemma not_suffix_serializeNodes : ∀ {ts : List Tree}, Tree.SoundAll bracketless ts →
    serializeNodes {} ts ≠ [] → ∀ w, ¬ middleTags <:+ w ++ serializeNodes {} ts
  | [], _, hne, _ => absurd rfl hne
  | t :: ts, hts, hne, w => by
      rw [serializeNodes] at hne ⊢
      by_cases htail : serializeNodes {} ts = []
      · rw [htail, List.append_nil] at hne ⊢
        exact not_suffix_serializeNode hts.1 hne w
      · rw [← List.append_assoc]
        exact not_suffix_serializeNodes hts.2 htail _

end

/-- What is written for the head does not end in the tags behind it. -/
lemma not_suffix_serialize {ts : List Tree} (hts : ∀ t ∈ ts, t.Sound bracketless) :
    ¬ middleTags <:+ serialize ts := by
  by_cases hnil : serializeNodes {} ts = []
  · rw [serialize, hnil]
    decide
  · exact not_suffix_serializeNodes (Tree.soundAll_iff.mpr hts) hnil []

/-! ### In front of the tags -/

end Recovery

/-- Whether a node is a comment. -/
def Tree.isComment : Tree → Bool
  | .comment _ => true
  | _ => false

/-- Whether a node is a document type. -/
def Tree.isDoctype : Tree → Bool
  | .doctype _ _ _ => true
  | _ => false

namespace Recovery

/-- Comments and document types begin with a bracket and an exclamation mark. -/
lemma serialize_front {ts : List Tree} (hts : ∀ t ∈ ts, t.isComment || t.isDoctype) :
    serialize ts = [] ∨ ∃ r, serialize ts = '<' :: '!' :: r := by
  cases ts with
  | nil => exact .inl rfl
  | cons t ts =>
      right
      have ht := hts t List.mem_cons_self
      cases t with
      | comment s => exact ⟨_, rfl⟩
      | doctype name publicId systemId => exact ⟨_, rfl⟩
      | _ => simp [Tree.isComment, Tree.isDoctype] at ht

/-- Behind the opening tags in a comment the comment ends. -/
lemma mem_of_comment_eq {s rest x y : List Char}
    (heq : "<!--".toList ++ s ++ "-->".toList ++ rest = x ++ openingTags ++ y) :
    '-' ∈ y ∨ ∃ z, rest = z ++ openingTags ++ y := by
  have hdash : '-' ∉ openingTags := by decide
  have hend : "-->".toList = ['-', '-', '>'] := by decide
  have hstart : openingTags = '<' :: "html><head>".toList := by decide
  rw [hend] at heq
  rcases mem_or_of_append_eq hdash (heq.symm.trans (by simp : _ = "<!--".toList ++ s ++
    '-' :: '-' :: '>' :: rest)) with hy | ⟨z, hz⟩
  · exact .inl hy
  · rcases mem_or_of_append_eq hdash (hz.symm.trans (List.nil_append _).symm) with hy | ⟨z, hz⟩
    · exact .inl hy
    · right
      cases z with
      | nil =>
          rw [hstart] at hz
          simp at hz
      | cons c z => exact ⟨z, (List.cons.inj hz).2⟩

/-- A document type without brackets in its name does not hold the opening tags. -/
lemma exists_of_doctype_eq {name rest x y : List Char} (hname : '>' ∉ name)
    (hrest : rest = [] ∨ ∃ r, rest = '<' :: '!' :: r)
    (heq : "<!DOCTYPE ".toList ++ name ++ ['>'] ++ rest = x ++ openingTags ++ y) :
    ∃ z, rest = z ++ openingTags ++ y := by
  have hbracket : '>' ∉ "<!DOCTYPE ".toList ++ name := fun hmem =>
    (List.mem_append.mp hmem).elim (fun h => absurd h (by decide)) hname
  have hopen : openingTags = "<html".toList ++ '>' :: "<head>".toList := by decide
  have heq' : (x ++ "<html".toList) ++ '>' :: ("<head>".toList ++ y)
      = ("<!DOCTYPE ".toList ++ name) ++ '>' :: rest := by
    rw [hopen] at heq
    simpa using heq.symm
  rcases eq_or_of_append_cons_eq hbracket heq' with ⟨-, hy⟩ | ⟨z, hx, hz⟩
  · -- the document type would be followed by a tag
    have hhead : "<head>".toList = '<' :: 'h' :: "ead>".toList := by decide
    rw [hhead] at hy
    rcases hrest with hrest | ⟨r, hrest⟩
    · rw [hrest] at hy
      simp at hy
    · rw [hrest] at hy
      simp at hy
  · have hhtml : '>' ∉ "<html".toList := by decide
    rcases mem_or_of_append_eq hhtml ((List.append_nil _).trans hx) with h | ⟨z', hz'⟩
    · simp at h
    · refine ⟨z', ?_⟩
      rw [hz, hz', hopen]
      simp

/-- Behind the opening tags in front of the document something follows. -/
lemma mem_of_serialize_eq {ts : List Tree} (hts : ∀ t ∈ ts, t.isComment || t.isDoctype)
    (hs : ∀ t ∈ ts, t.Sound bracketless) (x y : List Char)
    (heq : serialize ts = x ++ openingTags ++ y) : '-' ∈ y := by
  induction ts generalizing x with
  | nil =>
      have hlen := congrArg List.length heq
      have hpos : 0 < openingTags.length := by decide
      simp only [List.length_append] at hlen
      have hnil : (serialize []).length = 0 := rfl
      omega
  | cons t ts ih =>
      have hts' : ∀ u ∈ ts, u.isComment || u.isDoctype := fun u hu =>
        hts u (List.mem_cons_of_mem _ hu)
      have htail := ih hts' fun u hu => hs u (List.mem_cons_of_mem _ hu)
      have ht := hts t List.mem_cons_self
      cases t with
      | comment s =>
          rcases mem_of_comment_eq heq with hy | ⟨z, hz⟩
          · exact hy
          · exact htail z hz
      | doctype name publicId systemId =>
          have hname : '>' ∉ name.toList := Tree.sound_doctype.mp (hs _ List.mem_cons_self)
          obtain ⟨z, hz⟩ := exists_of_doctype_eq hname (serialize_front hts') heq
          exact htail z hz
      | _ => simp [Tree.isComment, Tree.isDoctype] at ht

/-- Comments end in a hyphen and a bracket. -/
lemma serialize_comments {ts : List Tree} (hts : ∀ t ∈ ts, t.isComment) :
    serialize ts = [] ∨ "-->".toList <:+ serialize ts := by
  rcases List.eq_nil_or_concat ts with rfl | ⟨us, t, rfl⟩
  · exact .inl rfl
  · right
    have ht := hts t (by simp)
    rw [List.concat_eq_append, serialize, serializeNodes_append]
    cases t with
    | comment s =>
        refine ⟨serializeNodes {} us ++ "<!--".toList ++ s.toList, ?_⟩
        simp [serializeNodes, serializeNode_comment]
    | _ => simp [Tree.isComment] at ht

lemma serialize_comments_eq_nil {ts : List Tree} (hts : ∀ t ∈ ts, t.isComment) :
    serialize ts = [] ↔ ts = [] := by
  constructor
  · intro hnil
    cases ts with
    | nil => rfl
    | cons t ts =>
        have ht := hts t List.mem_cons_self
        cases t with
        | comment s =>
            have hlen := congrArg List.length hnil
            simp [serialize, serializeNodes, serializeNode_comment] at hlen
        | _ => simp [Tree.isComment] at ht
  · rintro rfl
    rfl

/-! ### Documents -/

end Recovery

/-- The element of a document that is nothing but a head and a body. -/
def documentElement (head body : List Tree) : Tree :=
  .element { name := "html" } [.element { name := "head" } head, .element { name := "body" } body]

namespace Recovery

/-- An element with tags of its own around its children. -/
lemma serializeNode_tags {e : Element} (hvoid : e.name ∉ voidNames)
    (hverbatim : e.name ∉ verbatimNames) (cs : List Tree) :
    serializeNode {} (.element e cs) = e.startTag ++ serialize cs ++ e.endTag := by
  have hv : e.isVoid = false := by simp [Element.isVoid, hvoid]
  have hb : e.isVerbatim = false := by simp [Element.isVerbatim, hverbatim]
  rw [serializeNode_element, enclose, Surroundings.inside, hv, hb]
  rfl

/-- An element without attributes around its children. -/
lemma serializeNode_plain {name : String} (hvoid : name ∉ voidNames)
    (hverbatim : name ∉ verbatimNames) (cs : List Tree) :
    serializeNode {} (.element { name := name } cs)
      = '<' :: name.toList ++ ['>'] ++ serialize cs ++ ('<' :: '/' :: name.toList ++ ['>']) := by
  rw [serializeNode_tags hvoid hverbatim]
  simp [Element.startTag, Element.endTag]

lemma serialize_documentElement (head body : List Tree) :
    serialize [documentElement head body]
      = openingTags ++ (serialize head ++ middleTags ++ (serialize body ++ closingTags)) := by
  have hopen : openingTags = '<' :: "html".toList ++ ['>'] ++ ('<' :: "head".toList ++ ['>']) := by
    decide
  have hmiddle : middleTags
      = '<' :: '/' :: "head".toList ++ ['>'] ++ ('<' :: "body".toList ++ ['>']) := by
    decide
  have hclose : closingTags
      = '<' :: '/' :: "body".toList ++ ['>'] ++ ('<' :: '/' :: "html".toList ++ ['>']) := by
    decide
  rw [serialize, serializeNodes, serializeNodes, documentElement,
    serializeNode_plain (by decide) (by decide), serialize, serializeNodes, serializeNodes,
    serializeNodes, serializeNode_plain (by decide) (by decide),
    serializeNode_plain (by decide) (by decide), hopen, hmiddle, hclose]
  simp

/-- **What is kept of a document** that is comments and perhaps a document type, an element with
nothing but a head and a body, and further comments: all but the tags around head and body is
kept exactly if there are no further comments, what is in front does not hold the opening tags,
and the head does not hold the tags between it and the body. The other steps of the recovery
do nothing where the content began with the declaration and ended in a line feed. -/
theorem stripWrapper_readContent_iff {content : String} {pre head body post : List Tree}
    (hdoc : readContent content = pre ++ documentElement head body :: post)
    (hpre : ∀ t ∈ pre, t.isComment || t.isDoctype) (hpost : ∀ t ∈ post, t.isComment) :
    (stripWrapper (serialize (readContent content))
        = serialize pre ++ serialize head ++ serialize body ++ serialize post
      ↔ post = [] ∧ ¬ openingTags <:+: serialize pre ∧ ¬ middleTags <:+: serialize head)
    ∧ ∀ o : List Char, declaration <+: o → o.getLast? = some '\n' →
      recover (serialize (readContent content)) o false
        = stripWrapper (serialize (readContent content)) := by
  refine ⟨?_, fun o hdecl hend => recover_eq_stripWrapper hdecl hend _⟩
  have hs : ∀ t ∈ readContent content, t.Sound bracketless :=
    sound_parseDocument bracketless_closed bracketless_readable _
  rw [hdoc] at hs ⊢
  have hpre' : ∀ t ∈ pre, t.Sound bracketless := fun t ht => hs t (by simp [ht])
  have hhead : ∀ t ∈ head, t.Sound bracketless := by
    have hroot := hs (documentElement head body) (by simp)
    have hhead := Tree.soundAll_iff.mp (Tree.sound_element.mp hroot).2.2
      (.element { name := "head" } head) List.mem_cons_self
    exact Tree.soundAll_iff.mp (Tree.sound_element.mp hhead).2.2
  have hserialize : serialize (pre ++ documentElement head body :: post)
      = wrapped (serialize pre) (serialize head) (serialize body) (serialize post) := by
    have hcons : documentElement head body :: post = [documentElement head body] ++ post := rfl
    have hparts := serialize_documentElement head body
    rw [serialize] at hparts ⊢
    rw [serializeNodes_append, hcons, serializeNodes_append, hparts, wrapped]
    simp [serialize]
  rw [hserialize, stripWrapper_eq_iff (mem_of_serialize_eq hpre hpre') (not_suffix_serialize hhead)
    (serialize_comments hpost), serialize_comments_eq_nil hpost]

/-- A comment behind the document goes with the closing tags. -/
theorem stripWrapper_readContent_trailing :
    stripWrapper (serialize (readContent "x</body></html><!--c-->"))
      ≠ serialize [.comment "?xml encoding=\"UTF-8\""] ++ serialize [] ++ serialize [.text "x"]
        ++ serialize [.comment "c"] := by
  have hdoc : readContent "x</body></html><!--c-->"
      = [.comment "?xml encoding=\"UTF-8\""] ++ documentElement [] [.text "x"]
        :: [.comment "c"] := by
    with_unfolding_all rfl
  have hkept := (stripWrapper_readContent_iff hdoc (by simp [Tree.isComment])
    (by simp [Tree.isComment])).1
  intro heq
  exact absurd (hkept.mp heq).1 (List.cons_ne_nil _ _)

end Recovery

end RichText
