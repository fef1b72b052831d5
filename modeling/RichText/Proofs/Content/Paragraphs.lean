import RichText.Proofs.Construction.Leading
import RichText.Proofs.Content.Redeclared
import RichText.Proofs.Content.Stripping
import RichText.Proofs.Substitution.Rewriting

/-!
The paragraph that recovering takes away.

A single paragraph around what is recovered is taken away unless the content begins with a bracket.
Text in front of the paragraph keeps it, if the text is still seen in what is recovered.

* `BodyBegins`: the documents whose body begins with a text;
* `bodyBegins_readContent`: content with a leading text that shows is read as one;
* `Recovery.Firm`: what may begin a text that is recovered, and is no paragraph;
* `Recovery.exists_firm`: what is recovered of a document with a text in front begins so;
* `Recovery.canonicalForm_ne_iff`: **the paragraph is taken away** exactly if nothing of a leading
  text is seen and a single paragraph is left.
-/

namespace RichText

open Construction (headElements declarationText)

variable {s w : List Char}

/-! ### Documents with a text in front -/

/-- **A document whose body begins with a text.** Its elements may have attributes, its head what
belongs into one, and anything may come behind. -/
inductive BodyBegins (x : String) : List Tree → Prop
  | intro {html head body : Element} {hs bs us ts : List Tree} (y : String)
      (hhtml : html.name = "html") (hhead : head.name = "head") (hbody : body.name = "body")
      (hhs : ∀ t ∈ hs, ∃ name ∈ headElements, t.name? = some name) :
      BodyBegins x (.comment declarationText :: .element html
        (.element head hs :: .element body (.text (x ++ y) :: bs) :: us) :: ts)

open Heap in
lemma name?_treeTo {h : Heap} {i : NodeId} (hi : h.IsOfHead i) (depth : ℕ) :
    ∃ name ∈ headElements, (h.treeTo (depth + 1) i).name? = some name := by
  obtain ⟨name, hname, ht⟩ := hi
  obtain ⟨e, he, rfl⟩ := tagName_eq_some_iff.mp ht
  rw [treeTo]
  simp only [he]
  cases (h.node i).contents with
  | none => exact ⟨e.name, hname, rfl⟩
  | some j => exact ⟨"template", by decide, rfl⟩

open Construction in
/-- What goes on behind a text in the body. -/
lemma bodyBegins_forest {c : Construction} {x : String}
    (hc : c.Beyond [0, 2, 4] (frontNodesWith x)) : BodyBegins x (c.heap.forest c.root) := by
  have hl := hc.heap
  have hroot : c.root = 0 := hc.root.1
  obtain ⟨n, hn⟩ : ∃ n, c.heap.size = n + 6 := Nat.exists_eq_add_of_le' hl.size_le
  obtain ⟨is₀, h₀, -⟩ := hl.children 0 (by decide : 0 < 6)
  obtain ⟨is₂, h₂, -⟩ := hl.children 2 (by decide : 2 < 6)
  obtain ⟨is₃, h₃, hhead⟩ := hl.children 3 (by decide : 3 < 6)
  obtain ⟨is₄, h₄, -⟩ := hl.children 4 (by decide : 4 < 6)
  obtain ⟨html, hhtml, ht₂⟩ := hl.treeTo_of_element (by decide : 2 < 6) rfl rfl (n + 5)
  obtain ⟨head, hhead', ht₃⟩ := hl.treeTo_of_element (by decide : 3 < 6) rfl rfl (n + 4)
  obtain ⟨body, hbody, ht₄⟩ := hl.treeTo_of_element (by decide : 4 < 6) rfl rfl (n + 4)
  obtain ⟨y, ht₅⟩ := hl.treeTo_of_text (by decide : 5 < 6) rfl (n + 3)
  have ht₁ := hl.treeTo_of_comment (by decide : 1 < 6) rfl (n + 5)
  have hhs : ∀ t ∈ is₃.map (c.heap.treeTo (n + 4)),
      ∃ name ∈ headElements, t.name? = some name := by
    intro t ht
    obtain ⟨j, hj, rfl⟩ := List.mem_map.mp ht
    exact name?_treeTo ((hhead j hj).2.resolve_left (by decide)) (n + 3)
  have hforest : c.heap.forest c.root = .comment declarationText :: .element html
      (.element head (is₃.map (c.heap.treeTo (n + 4))) :: .element body
        (.text (x ++ y) :: is₄.map (c.heap.treeTo (n + 4))) :: is₂.map (c.heap.treeTo (n + 5)))
      :: is₀.map (c.heap.treeTo (n + 6)) := by
    have h₀' : c.heap.children 0 = 1 :: 2 :: is₀ := h₀
    have h₂' : c.heap.children 2 = 3 :: 4 :: is₂ := h₂
    have h₃' : c.heap.children 3 = is₃ := h₃
    have h₄' : c.heap.children 4 = 5 :: is₄ := h₄
    rw [hroot, Heap.forest, hn, h₀', List.map_cons, List.map_cons, ht₁, ht₂, h₂', List.map_cons,
      List.map_cons, ht₃, ht₄, h₃', h₄', List.map_cons, ht₅]
  rw [hforest]
  exact .intro y hhtml hhead' hbody hhs

open Construction in
/-- **Content with a leading text that shows** has it in front in its body. -/
theorem bodyBegins_readContent {content : String}
    (hshows : ∃ a ∈ leadingText (joinNewlines content.toList), shows a = true) :
    ∃ w, (∃ a ∈ w, shows a = true) ∧ BodyBegins (String.ofList w) (readContent content) := by
  obtain ⟨a, ha, hshows⟩ := hshows
  have hprepare : prepare (declaration ++ content.toList)
      = declaration ++ joinNewlines content.toList := rfl
  have hahead : Led [] declared := .ahead (by simp) declared.errors
  obtain ⟨c, limit, s, hbuild, hc⟩ := hahead.build none (joinNewlines content.toList)
  rw [List.nil_append] at hc
  rw [readContent, parseDocument, hprepare, build_declaration, hbuild]
  cases hc with
  | ahead hspace fs =>
      rw [shows_eq_false_of_isMarkupSpace (hspace a ha)] at hshows
      cases hshows
  | inside w hw fs =>
      have hw' : ∃ a ∈ w, shows a = true := ⟨a, hw a ha hshows, hshows⟩
      exact ⟨w, hw', bodyBegins_forest ((beyond_openedWith hw' fs).build limit s)⟩

/-! ### What may begin a text that is recovered -/

namespace Recovery

/-- Whether a text is kept at the start of what is recovered, and begins no paragraph. -/
structure Firm (a : List Char) : Prop where
  links : opensNoLink a = true
  whole : ∀ d ∈ declarations, ¬ d <:+: a
  cut : ∀ d ∈ declarations, ∀ k < d.length, 0 < k → ¬ d.take k <:+ a
  paragraph : ∀ s, paragraph? (a ++ s) = none

/-- What is a paragraph begins with one, behind blanks. -/
lemma exists_of_paragraph? {x : List Char} (hx : paragraph? s = some x) :
    ∃ u v, s = u ++ '<' :: 'p' :: v ∧ ∀ c ∈ u, isBlank c = true := by
  obtain ⟨u, v, hs, hu, -⟩ := trim_split s
  rw [trim_of_paragraph? hx, List.append_assoc] at hs
  exact ⟨u, _, hs, hu⟩

/-- The letters that the names of the elements in a head begin with. -/
def headStarts : List Char := "blmnst".toList

/-- What other tags than those of paragraphs begin with: the tags around head and body, and those in
a head. -/
def tagStarts : List Char := '/' :: 'h' :: headStarts

lemma firm_tag {b : Char} (hb : b ∈ tagStarts) : Firm ['<', b] where
  links := by
    have hall : ∀ b ∈ tagStarts, opensNoLink ['<', b] = true :=
      List.all_iff_forall_prop.mp (by decide)
    exact hall b hb
  whole := by
    have hall : ∀ b ∈ tagStarts, ∀ d ∈ declarations, ¬ d <:+: ['<', b] :=
      List.all_iff_forall_prop.mp (by decide)
    exact hall b hb
  cut := by
    have hall : ∀ b ∈ tagStarts, ∀ d ∈ declarations, ∀ k < d.length, 0 < k →
        ¬ d.take k <:+ ['<', b] := List.all_iff_forall_prop.mp (by decide)
    exact hall b hb
  paragraph s := by
    rw [Option.eq_none_iff_forall_ne_some]
    intro x hx
    obtain ⟨u, v, huv, hu⟩ := exists_of_paragraph? hx
    cases u with
    | nil =>
        obtain rfl : b = 'p' := (List.cons.inj (List.cons.inj huv).2).1
        exact absurd hb (by decide)
    | cons c u =>
        obtain rfl : '<' = c := (List.cons.inj huv).1
        exact absurd (hu '<' List.mem_cons_self) (by decide)

/-- Text without brackets that is not blank. -/
lemma firm_text {a : List Char} (hopen : '<' ∉ a) (hsolid : ∃ c ∈ a, isBlank c = false) :
    Firm a where
  links := opensNoLink_of_notMem hopen
  whole d hd hin := hopen (hin.subset (by
    rcases List.mem_pair.mp hd with rfl | rfl <;> decide))
  cut d hd k hk hpos hin := hopen (hin.subset (by
    obtain ⟨k, rfl⟩ := Nat.exists_eq_succ_of_ne_zero (Nat.pos_iff_ne_zero.mp hpos)
    rcases List.mem_pair.mp hd with rfl | rfl <;> exact List.mem_cons_self))
  paragraph s := by
    rw [Option.eq_none_iff_forall_ne_some]
    intro x hx
    obtain ⟨u, v, huv, hu⟩ := exists_of_paragraph? hx
    obtain ⟨c, hc, hblank⟩ := hsolid
    rcases cut_of_append_eq huv with ⟨r, rfl, -⟩ | ⟨r, rfl, -⟩
    · exact hopen (by simp)
    · rw [hu c (List.mem_append_left r hc)] at hblank
      cases hblank

/-- Text in which something shows is not blank when it is written. -/
lemma firm_escape {x : List Char} (hx : ∃ a ∈ x, shows a = true) :
    Firm (escape .betweenTags x) := by
  obtain ⟨a, ha, hshows⟩ := hx
  have hmem : ∀ b ∈ escapeChar .betweenTags a, b ∈ escape .betweenTags x := fun b hb =>
    List.mem_flatMap.mpr ⟨a, ha, hb⟩
  refine firm_text (notMem_escape (by decide) fun _ => by decide) ?_
  rcases escapeChar_form .betweenTags a with hself | ⟨r, hr, -⟩
  · refine ⟨a, hmem a (by simp [hself]), ?_⟩
    have hne : a ≠ '\u00a0' := by
      rintro rfl
      exact absurd hself (by decide)
    simpa [shows, hne] using (Bool.and_eq_true_iff.mp hshows).2
  · exact ⟨'&', hmem '&' (by simp [hr]), by decide⟩

/-- **What is firm keeps the paragraph**, behind the declaration that content has not begun with. -/
lemma Firm.paragraph?_eq_none {a content : List Char} (ha : Firm a)
    (hcontent : ¬ declaration <+: content) (r : List Char) (restore : Bool) :
    paragraph? (dropDeclarations content (if restore
      then restoreLinks (declarationComment ++ (a ++ r))
      else declarationComment ++ (a ++ r))) = none := by
  have hdropped : ∀ r, paragraph? (dropDeclarations content (declarationComment ++ (a ++ r)))
      = none := by
    intro r
    have hreplace : ∀ d ∈ declarations, d ≠ [] → ∀ r, replaceAll d [] (a ++ r)
        = a ++ replaceAll d [] r := fun d hd hne r => by
      rw [replaceAll_append_of_not_straddles hne (not_straddles_of_take (ha.cut d hd) r),
        replaceAll_eq_self hne (ha.whole d hd)]
    rw [dropDeclarations, if_neg (by rwa [List.isPrefixOf_iff_prefix]),
      replaceAll_part_append (by decide), List.nil_append,
      hreplace declarationComment (by decide) (by decide),
      hreplace declaration (by decide) (by decide)]
    exact ha.paragraph _
  cases restore with
  | false => exact hdropped r
  | true =>
      have hrestored : restoreLinks (declarationComment ++ (a ++ r))
          = declarationComment ++ (a ++ restoreLinks r) := by
        rw [restoreLinks, restoreFrom_of_opensNoLink (by decide),
          restoreFrom_of_opensNoLink ha.links]
        rfl
      rw [if_pos rfl, hrestored]
      exact hdropped _

/-! ### The tags around head and body -/

/-- A start tag ends behind the name, or goes on with attributes. -/
lemma startTag_form {e : Element} {name : String} (hname : e.name = name) :
    e.startTag = '<' :: name.toList ++ ['>']
      ∨ ∃ r, e.startTag = '<' :: name.toList ++ [' '] ++ r := by
  subst hname
  rw [Element.startTag]
  cases e.attributes with
  | nil => exact .inl (by rw [List.flatMap_nil, List.append_nil])
  | cons a as =>
      right
      obtain ⟨r, hr⟩ : ∃ r, (' ' :: a.writtenName.toList ++ '=' :: '"' ::
          escape .inValue a.value.toList ++ ['"']) ++ as.flatMap (fun a => ' ' ::
            a.writtenName.toList ++ '=' :: '"' :: escape .inValue a.value.toList ++ ['"'])
          = ' ' :: r := ⟨_, rfl⟩
      rw [List.flatMap_cons, hr]
      exact ⟨r ++ ['>'], by simp⟩

/-- What is written for the elements in a head. -/
lemma serialize_head {ts : List Tree}
    (hts : ∀ t ∈ ts, ∃ name ∈ headElements, t.name? = some name) :
    serialize ts = [] ∨ ∃ b ∈ headStarts, ∃ r, serialize ts = '<' :: b :: r := by
  have hstart : ∀ name ∈ headElements, name.toList.head?.getD ' ' ∈ headStarts := by decide
  have htag : ∀ e : Element, e.name ∈ headElements → ∃ b ∈ headStarts, ∃ r,
      e.startTag = '<' :: b :: r := by
    intro e he
    have hb := hstart e.name he
    rw [Element.startTag]
    cases hname : e.name.toList with
    | nil =>
        rw [hname] at hb
        exact absurd hb (by decide)
    | cons b r =>
        rw [hname] at hb
        exact ⟨b, hb, _, rfl⟩
  have hwritten : ∀ e : Element, e.name ∈ headElements → ∀ inner s, ∃ b ∈ headStarts, ∃ r,
      enclose {} e inner ++ s = '<' :: b :: r := by
    intro e he inner s
    obtain ⟨b, hb, r, hr⟩ := htag e he
    rw [enclose, hr]
    simp only [Bool.false_eq_true, if_false]
    split
    · exact ⟨b, hb, _, rfl⟩
    · exact ⟨b, hb, _, rfl⟩
  cases ts with
  | nil => exact .inl rfl
  | cons t ts =>
      right
      obtain ⟨name, hname, ht⟩ := hts t List.mem_cons_self
      cases t with
      | element e cs =>
          obtain rfl : e.name = name := Option.some.inj ht
          exact hwritten e hname _ _
      | template as cs us =>
          exact hwritten (templateElement as) (by decide : "template" ∈ headElements) _ _
      | _ => cases ht

/-- What is written for a document whose body begins with a text. -/
lemma serialize_bodyBegins {x : String} {ts : List Tree} (hts : BodyBegins x ts) :
    ∃ (html head body : Element) (front y rest : List Char), html.name = "html"
      ∧ head.name = "head" ∧ body.name = "body"
      ∧ (front = [] ∨ ∃ b ∈ headStarts, ∃ r, front = '<' :: b :: r)
      ∧ serialize ts = declarationComment ++ (html.startTag ++ (head.startTag ++ (front
        ++ ("</head>".toList ++ (body.startTag ++ (escape .betweenTags (x.toList ++ y)
          ++ rest)))))) := by
  cases hts with
  | @intro html head body hs bs us ts y hhtml hhead hbody hhs =>
      refine ⟨html, head, body, serialize hs, y.toList, serialize bs ++ body.endTag ++ serialize us
        ++ html.endTag ++ serialize ts, hhtml, hhead, hbody, serialize_head hhs, ?_⟩
      have hend : head.endTag = "</head>".toList := by
        rw [Element.endTag, hhead]
        rfl
      have htags : ∀ {e : Element} {name : String}, e.name = name → name ∉ voidNames →
          name ∉ verbatimNames → ∀ cs, serializeNode {} (.element e cs)
            = e.startTag ++ serialize cs ++ e.endTag := by
        rintro e _ rfl hvoid hverbatim cs
        exact serializeNode_tags hvoid hverbatim cs
      have hcons : ∀ t ts, serialize (t :: ts) = serializeNode {} t ++ serialize ts :=
        fun _ _ => rfl
      have hcomment : serializeNode {} (.comment declarationText) = declarationComment := rfl
      have htext : serializeNode {} (.text (x ++ y))
          = escape .betweenTags (x.toList ++ y.toList) := by
        rw [serializeNode_text, String.toList_append]
        rfl
      rw [hcons, hcons, hcomment, htags hhtml (by decide) (by decide), hcons, hcons,
        htags hhead (by decide) (by decide), htags hbody (by decide) (by decide), hcons, htext,
        hend]
      simp only [List.append_assoc]

/-- A text that is kept while the tags around head and body are looked for behind it. -/
lemma exists_firm_of_front {u r : List Char} {b : Char} (hb : b ∈ tagStarts)
    (hu : declarationComment ++ '<' :: b :: r = u) (hin : ¬ openingTags <:+: u)
    (hcut : ∀ k < openingTags.length, 0 < k → ¬ openingTags.take k <:+ u) (s : List Char) :
    ∃ a r, Firm a ∧ stripWrapper (u ++ s) = declarationComment ++ (a ++ r) := by
  refine ⟨['<', b], r ++ stripWrapper s, firm_tag hb, ?_⟩
  rw [stripWrapper_append hin (not_straddles_of_take hcut s), ← hu]
  simp

/-- Behind the tags in front of the head, what the head begins with is kept. -/
lemma exists_firm_of_head {u r : List Char} {b : Char} (hb : b ∈ tagStarts)
    (hu : '<' :: b :: r = u) (hin : ¬ middleTags <:+: u)
    (hcut : ∀ k < middleTags.length, 0 < k → ¬ middleTags.take k <:+ u) (s : List Char) :
    ∃ a r, Firm a ∧ stripWrapper (declarationComment ++ openingTags ++ (u ++ s))
      = declarationComment ++ (a ++ r) := by
  have hopen : splitFirst? "<html><head>".toList
      (declarationComment ++ openingTags ++ (u ++ s)) = some (declarationComment, u ++ s) :=
    splitFirst?_append unbordered_openingTags (by decide) _
  have hmiddle : splitFirst? "</head><body>".toList (u ++ s)
      = (splitFirst? "</head><body>".toList s).map fun x => (u ++ x.1, x.2) :=
    splitFirst?_append_of_not_straddles hin (not_straddles_of_take hcut s)
  rw [stripWrapper, hopen]
  dsimp only
  rw [hmiddle]
  cases splitFirst? "</head><body>".toList s with
  | none => exact ⟨['<', 'h'], _, firm_tag (by decide), by rw [List.append_assoc]; rfl⟩
  | some x =>
      dsimp only [Option.map_some]
      rw [← hu]
      cases splitLast? "</body></html>".toList x.2 with
      | none => exact ⟨['<', b], _, firm_tag hb, by simp; rfl⟩
      | some y => exact ⟨['<', b], _, firm_tag hb, by simp; rfl⟩

/-- Behind the tags around an empty head, text without brackets is kept. -/
lemma stripWrapper_text {x : List Char} (hx : '<' ∉ x) (s : List Char) :
    ∃ r, stripWrapper (declarationComment ++ openingTags ++ (middleTags ++ (x ++ s)))
      = declarationComment ++ (x ++ r) := by
  have hopen : splitFirst? "<html><head>".toList
      (declarationComment ++ openingTags ++ (middleTags ++ (x ++ s)))
        = some (declarationComment, middleTags ++ (x ++ s)) :=
    splitFirst?_append unbordered_openingTags (by decide) _
  have hmiddle : splitFirst? "</head><body>".toList (middleTags ++ (x ++ s)) = some ([], x ++ s) :=
    splitFirst?_append unbordered_middleTags (by decide) _ (a := [])
  rw [stripWrapper, hopen]
  dsimp only
  rw [hmiddle]
  dsimp only
  cases hlast : splitLast? "</body></html>".toList (x ++ s) with
  | none => exact ⟨s, by simp⟩
  | some y =>
      obtain ⟨before, after⟩ := y
      have heq : x ++ s = before ++ '<' :: ("/body></html>".toList ++ after) := by
        rw [← append_of_splitLast? hlast, List.append_assoc]
        rfl
      rcases cut_of_append_eq heq with ⟨r, rfl, -⟩ | ⟨r, rfl, -⟩
      · exact absurd (by simp) hx
      · exact ⟨r, by simp⟩

/-- **What is recovered of a document whose body begins with a text** that shows is firm behind the
declaration. -/
lemma exists_firm {ts : List Tree} (hw : ∃ a ∈ w, shows a = true)
    (hts : BodyBegins (String.ofList w) ts) :
    ∃ a r, Firm a ∧ stripWrapper (serialize ts) = declarationComment ++ (a ++ r) := by
  obtain ⟨html, head, body, front, y, rest, hhtml, hhead, hbody, hfront, hts⟩ :=
    serialize_bodyBegins hts
  have hlist : (String.ofList w).toList = w := String.toList_ofList
  rw [hlist] at hts
  have htext : Firm (escape .betweenTags (w ++ y)) := by
    obtain ⟨a, ha, hshows⟩ := hw
    exact firm_escape ⟨a, List.mem_append_left y ha, hshows⟩
  have hopening : openingTags
      = '<' :: "html".toList ++ ['>'] ++ ('<' :: "head".toList ++ ['>']) := by
    decide
  have hmiddle : middleTags = "</head>".toList ++ ('<' :: "body".toList ++ ['>']) := by decide
  rw [hts]
  -- attributes keep the tags from being found where they stand
  rcases startTag_form hhtml with hplain | ⟨r, hmore⟩
  · rcases startTag_form hhead with hplain' | ⟨r, hmore⟩
    · rw [hplain, hplain', ← List.append_assoc _ ('<' :: "head".toList ++ ['>']), ← hopening,
        ← List.append_assoc declarationComment]
      rcases hfront with rfl | ⟨b, hb, r, rfl⟩
      · rcases startTag_form hbody with hplain | ⟨r, hmore⟩
        · rw [hplain, List.nil_append, ← List.append_assoc "</head>".toList, ← hmiddle]
          have hopen : '<' ∉ escape .betweenTags (w ++ y) :=
            notMem_escape (by decide) fun _ => by decide
          obtain ⟨r, hr⟩ := stripWrapper_text hopen rest
          exact ⟨_, r, htext, hr⟩
        · rw [hmore, List.nil_append, List.append_assoc _ r, ← List.append_assoc "</head>".toList]
          exact exists_firm_of_head (b := '/') (r := "head><body ".toList) (by decide) rfl
            (by decide) (by decide) _
      · have hall : ∀ b ∈ headStarts, ¬ middleTags <:+: ['<', b] ∧
            (∀ k < middleTags.length, 0 < k → ¬ middleTags.take k <:+ ['<', b]) :=
          List.all_iff_forall_prop.mp (by decide)
        exact exists_firm_of_head (u := ['<', b])
          (List.mem_cons_of_mem _ (List.mem_cons_of_mem _ hb)) rfl (hall b hb).1 (hall b hb).2 _
    · rw [hplain, hmore, List.append_assoc _ r,
        ← List.append_assoc _ ('<' :: "head".toList ++ [' ']),
        ← List.append_assoc declarationComment]
      exact exists_firm_of_front (b := 'h') (r := "tml><head ".toList) (by decide) (by decide)
        (by decide) (by decide) _
  · rw [hmore, List.append_assoc _ r, ← List.append_assoc declarationComment]
    exact exists_firm_of_front (b := 'h') (r := "tml ".toList) (by decide) (by decide) (by decide)
      (by decide) _

/-! ### The paragraph -/

/-- What is recovered of content before the paragraph is looked at. -/
def undeclared (content : String) (restore : Bool) : List Char :=
  dropDeclarations content.toList (undropped content restore)

lemma toList_canonicalForm (content : String) (restore : Bool) :
    (canonicalForm content restore).toList = dropNewline content.toList
      (unwrapParagraph content.toList (undeclared content restore)) := by
  rw [canonicalForm, recoverContent, writeNodes, String.toList_ofList, String.toList_ofList,
    recover, undeclared, undropped]

/-- **A leading text that shows** keeps what is recovered from being a paragraph. -/
theorem paragraph?_undeclared {content : String}
    (hshows : ∃ a ∈ leadingText (joinNewlines content.toList), shows a = true) (restore : Bool) :
    paragraph? (undeclared content restore) = none := by
  obtain ⟨w, hw, hts⟩ := bodyBegins_readContent hshows
  obtain ⟨a, r, ha, hstrip⟩ := exists_firm hw hts
  have hcontent : ¬ declaration <+: content.toList := by
    rintro ⟨rest, hrest⟩
    obtain ⟨a, ha, -⟩ := hshows
    rw [← hrest] at ha
    have hnone : leadingText (joinNewlines (declaration ++ rest)) = [] := rfl
    rw [hnone] at ha
    cases ha
  rw [undeclared, undropped, hstrip]
  exact ha.paragraph?_eq_none hcontent r restore

/-- Without its tags a paragraph is too short to be the same but for a line feed. -/
lemma dropNewline_ne_of_paragraph? {x : List Char} (hx : paragraph? s = some x)
    (content : List Char) : dropNewline content x ≠ dropNewline content s := by
  obtain ⟨u, v, hs, -⟩ := trim_split s
  have hlength := congrArg List.length hs
  rw [trim_of_paragraph? hx] at hlength
  have hshorter : (dropNewline content x).length ≤ x.length := by
    rw [dropNewline]
    split
    · exact List.length_dropLast.trans_le (Nat.sub_le _ _)
    · exact le_rfl
  have hlonger : s.length - 1 ≤ (dropNewline content s).length := by
    rw [dropNewline]
    split
    · exact List.length_dropLast.ge
    · exact Nat.sub_le _ _
  intro heq
  have hopen : "<p>".toList.length = 3 := by decide
  have hclose : "</p>".toList.length = 4 := by decide
  simp only [List.length_append, hopen, hclose] at hlength
  rw [heq] at hshorter
  omega

/-- **When the paragraph is taken away**: exactly if the content does not begin with a bracket,
nothing of a leading text shows, and what is recovered is a single paragraph. -/
theorem canonicalForm_ne_iff (content : String) (restore : Bool) :
    (canonicalForm content restore).toList ≠ dropNewline content.toList (undeclared content restore)
      ↔ (trim content.toList).head? ≠ some '<'
        ∧ (∀ a ∈ leadingText (joinNewlines content.toList), shows a = false)
        ∧ (paragraph? (undeclared content restore)).isSome := by
  rw [toList_canonicalForm, unwrapParagraph]
  by_cases hhead : (trim content.toList).head? = some '<'
  · simp [hhead]
  rw [if_neg hhead]
  cases hx : paragraph? (undeclared content restore) with
  | none => simp
  | some x =>
      have hne := dropNewline_ne_of_paragraph? hx content.toList
      have hhidden : ∀ a ∈ leadingText (joinNewlines content.toList), shows a = false := by
        intro a ha
        rw [← Bool.not_eq_true]
        intro hshows
        rw [paragraph?_undeclared ⟨a, ha, hshows⟩] at hx
        cases hx
      exact iff_of_true hne ⟨hhead, hhidden, rfl⟩

/-- A paragraph behind a reference to a space. -/
def spacedParagraph : String := "&#32;<p>x</p>"

lemma undeclared_spacedParagraph (restore : Bool) :
    undeclared spacedParagraph restore = "<p>x</p>".toList := by
  have hdoc : readContent spacedParagraph = [.comment "?xml encoding=\"UTF-8\"",
      .element { name := "html" } [.element { name := "head" } [],
        .element { name := "body" } [.element { name := "p" } [.text "x"]]]] := by
    with_unfolding_all rfl
  rw [undeclared, undropped, hdoc]
  cases restore <;> decide +kernel

/-- The space is dropped, and the paragraph is taken away as if it had not been written. -/
theorem canonicalForm_ne_spacedParagraph :
    (canonicalForm spacedParagraph false).toList
        ≠ dropNewline spacedParagraph.toList (undeclared spacedParagraph false)
      ∧ (canonicalForm spacedParagraph true).toList
        ≠ dropNewline spacedParagraph.toList (undeclared spacedParagraph true) := by
  have hne : ∀ restore, (canonicalForm spacedParagraph restore).toList
      ≠ dropNewline spacedParagraph.toList (undeclared spacedParagraph restore) := by
    intro restore
    refine (canonicalForm_ne_iff spacedParagraph restore).mpr
      ⟨by decide +kernel, List.all_iff_forall_prop.mp (by decide +kernel), ?_⟩
    rw [undeclared_spacedParagraph]
    decide
  exact ⟨hne false, hne true⟩

end Recovery

end RichText
