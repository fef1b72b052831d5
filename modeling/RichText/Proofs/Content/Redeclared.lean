import RichText.Proofs.Construction.Lasting
import RichText.Proofs.Construction.Opening
import RichText.Proofs.Content.CodedLinks
import RichText.Proofs.Content.Declarations
import RichText.Proofs.Content.Wrapper

/-!
Content that begins with the encoding declaration.

It is read behind a further declaration. The two are comments in front of the document, which stay
where they are whatever follows, and all steps of recovering go on behind them.

* `redeclared`: the construction behind two declarations;
* `forest_redeclared`: **the two comments stay in front** of the document;
* `Recovery.recover_append`: what is recovered behind a text like the declarations;
* `Recovery.declarationCount`: how many declarations a text holds, in both forms;
* `Recovery.canonicalForm_of_declaration`: **both declarations are left over**.
-/

namespace RichText

variable {s : List Char}

namespace Construction

open Heap

/-- The construction behind two declarations. -/
def redeclared : Construction :=
  (declared.fault .badCharacter).addCommentToRoot declarationText

/-- A second declaration is a comment in front of the document, too. -/
lemma build_redeclared (s : List Char) :
    declared.build (.markup none) (declaration ++ s) = redeclared.build (.markup none) s := by
  have htext : declaration ++ s = '<' :: ("?xml encoding=\"UTF-8\">".toList ++ s) := rfl
  rw [htext, build]
  rfl

/-- The nodes in front of the content. -/
def frontComments : Heap where
  nodes := #[{ content := .document, children := [1, 2] },
    { content := .comment declarationText, parent := some 0 },
    { content := .comment declarationText, parent := some 0 }]

lemma beyond_redeclared : redeclared.Beyond [0] frontComments where
  heap := .self (by decide) (by decide)
  root := ⟨rfl, by decide⟩
  stack e he := by cases he
  order := .nil
  formatting f hf := by cases hf
  head e he := by cases he
  frameset _ e he := by cases he

/-- **The two comments stay in front** of the document. -/
theorem forest_redeclared (s : List Char) : ∃ ts,
    (redeclared.build (.markup none) s).heap.forest (redeclared.build (.markup none) s).root
      = .comment declarationText :: .comment declarationText :: ts := by
  have hb := beyond_redeclared.build none s
  obtain ⟨is, his, -⟩ := hb.heap.children 0 (by decide)
  have hroot : (redeclared.build (.markup none) s).root = 0 := hb.root.1
  obtain ⟨n, hn⟩ : ∃ n, (redeclared.build (.markup none) s).heap.size = n + 1 :=
    Nat.exists_eq_succ_of_ne_zero (Nat.pos_iff_ne_zero.mp (Nat.lt_of_lt_of_le (by decide)
      hb.heap.size_le))
  rw [hroot, forest, his, hn]
  exact ⟨_, congrArg₂ _ (hb.heap.treeTo_of_comment (by decide) rfl n)
    (congrArg₂ _ (hb.heap.treeTo_of_comment (by decide) rfl n) rfl)⟩

end Construction

namespace Recovery

variable {front content : List Char}

/-! ### Recovering behind a text -/

/-- The tags around the document are looked for behind the text. -/
lemma stripWrapper_append (hin : ¬ openingTags <:+: front)
    (hnot : ¬ Straddles openingTags front s) :
    stripWrapper (front ++ s) = front ++ stripWrapper s := by
  have hsplit : splitFirst? "<html><head>".toList (front ++ s)
      = (splitFirst? "<html><head>".toList s).map fun x => (front ++ x.1, x.2) :=
    splitFirst?_append_of_not_straddles hin hnot
  rw [stripWrapper, hsplit, stripWrapper]
  cases splitFirst? "<html><head>".toList s with
  | none => rfl
  | some x =>
      dsimp only [Option.map_some]
      cases splitFirst? "</head><body>".toList x.2 with
      | none => rfl
      | some y =>
          dsimp only
          cases splitLast? "</body></html>".toList y.2 <;> simp

lemma dropNewline_append (hfront : ∃ c ∈ front.getLast?, c ≠ '\n') (content s : List Char) :
    dropNewline content (front ++ s) = front ++ dropNewline content s := by
  obtain ⟨c, hc, hne⟩ := hfront
  rcases List.eq_nil_or_concat s with rfl | ⟨s, d, rfl⟩
  · have hlast : front.getLast? ≠ some '\n' := fun hn => hne (Option.some.inj (hc.symm.trans hn))
    simp [dropNewline, hlast]
  · rw [List.concat_eq_append, dropNewline, dropNewline, ← List.append_assoc, List.getLast?_concat,
      List.getLast?_concat, List.dropLast_concat, List.dropLast_concat]
    split
    · rfl
    · rw [List.append_assoc]

/-- **What is recovered behind a text** that holds nothing to be recovered, for content that begins
with the declaration. -/
theorem recover_append (hcontent : declaration <+: content) (hin : ¬ openingTags <:+: front)
    (hnot : ¬ Straddles openingTags front s) (hlinks : opensNoLink front = true)
    (hlast : ∃ c ∈ front.getLast?, c ≠ '\n') (restore : Bool) :
    recover (front ++ s) content restore = front ++ recover s content restore := by
  have hpre : declaration.isPrefixOf content = true := List.isPrefixOf_iff_prefix.mpr hcontent
  have hhead : (trim content).head? = some '<' := by
    obtain ⟨rest, rfl⟩ := hcontent
    exact head?_trim_cons (by decide) _
  have hlater : ∀ s, unwrapParagraph content (dropDeclarations content s) = s := fun s => by
    rw [dropDeclarations, if_pos hpre, unwrapParagraph, if_pos hhead]
  have hrestored : ∀ s, restoreLinks (front ++ s) = front ++ restoreLinks s :=
    restoreFrom_of_opensNoLink hlinks
  simp only [recover, hlater, stripWrapper_append hin hnot]
  cases restore
  · exact dropNewline_append hlast content _
  · simp only [if_true, hrestored]
    exact dropNewline_append hlast content _

lemma recover_declarationComment (hcontent : declaration <+: content) (s : List Char)
    (restore : Bool) :
    recover (declarationComment ++ s) content restore
      = declarationComment ++ recover s content restore :=
  recover_append hcontent (by decide) (not_straddles_of_take (by decide) s) (by decide)
    ⟨'>', by decide, by decide⟩ restore

open Construction in
/-- Content that begins with the declaration is read with two comments in front. -/
lemma readContent_of_declaration {content : String} (hcontent : declaration <+: content.toList) :
    ∃ ts, readContent content
      = .comment declarationText :: .comment declarationText :: ts := by
  obtain ⟨rest, hrest⟩ := hcontent
  have hprepare : prepare (declaration ++ (declaration ++ rest))
      = declaration ++ (declaration ++ joinNewlines rest) := rfl
  rw [readContent, ← hrest, parseDocument, hprepare, build_declaration, build_redeclared]
  exact forest_redeclared _

/-! ### Declarations counted -/

/-- How many declarations a text holds, in both forms: the places where one begins. -/
def declarationCount (s : List Char) : ℕ :=
  (s.tails.filter fun t => declarations.any (·.isPrefixOf t)).length

lemma declarationCount_append {a b : List Char}
    (hnot : ∀ d ∈ declarations, ¬ Straddles d a b) :
    declarationCount (a ++ b) = declarationCount a + declarationCount b := by
  induction a with
  | nil =>
      have hnil : declarationCount [] = 0 := by decide
      rw [hnil, List.nil_append, Nat.zero_add]
  | cons c a ih =>
      have hbegins : (declarations.any fun d => d.isPrefixOf (c :: a ++ b))
          = declarations.any fun d => d.isPrefixOf (c :: a) := by
        rw [Bool.eq_iff_iff, List.any_eq_true, List.any_eq_true]
        refine exists_congr fun d => and_congr_right fun hd => ?_
        rw [isPrefixOf_append_of_not_straddles (List.cons_ne_nil c a) (hnot d hd)]
      have hrest := ih fun d hd h => hnot d hd (h.of_cons c)
      simp only [declarationCount, List.cons_append, List.tails_cons, List.filter_cons] at hrest ⊢
      rw [List.cons_append] at hbegins
      rw [hbegins]
      split
      · rw [List.length_cons, List.length_cons, hrest, Nat.succ_add]
      · exact hrest

lemma declarationCount_declarationComment_append (s : List Char) :
    declarationCount (declarationComment ++ s) = 1 + declarationCount s := by
  have hcount : declarationCount declarationComment = 1 := by decide
  rw [declarationCount_append, hcount]
  intro d hd
  rcases List.mem_pair.mp hd with rfl | rfl <;> exact not_straddles_of_take (by decide) s

/-! ### Both declarations -/

/-- **Both declarations are left over** where content begins with one: the one that is put in front
before content is read, and its own. What is recovered of the rest stands behind them, so that there
are two declarations more than in that. -/
theorem canonicalForm_of_declaration {content : String} (hcontent : declaration <+: content.toList)
    (restore : Bool) :
    ∃ ts, readContent content = .comment Construction.declarationText ::
        .comment Construction.declarationText :: ts
      ∧ (canonicalForm content restore).toList = declarationComment ++ (declarationComment
        ++ recover (serialize ts) content.toList restore)
      ∧ declarationCount (canonicalForm content restore).toList
        = 2 + declarationCount (recover (serialize ts) content.toList restore) := by
  obtain ⟨ts, hts⟩ := readContent_of_declaration hcontent
  have hwritten : serialize (readContent content)
      = declarationComment ++ (declarationComment ++ serialize ts) := by
    rw [hts]
    rfl
  have hform : (canonicalForm content restore).toList = declarationComment ++ (declarationComment
      ++ recover (serialize ts) content.toList restore) := by
    rw [canonicalForm, recoverContent, writeNodes, String.toList_ofList, String.toList_ofList,
      hwritten, recover_declarationComment hcontent, recover_declarationComment hcontent]
  refine ⟨ts, hts, hform, ?_⟩
  rw [hform, declarationCount_declarationComment_append,
    declarationCount_declarationComment_append, ← Nat.add_assoc]

/-- A paragraph behind a declaration. -/
def declaredParagraph : String := "<?xml encoding=\"UTF-8\"><p>x</p>"

lemma readContent_declaredParagraph : readContent declaredParagraph
    = [.comment "?xml encoding=\"UTF-8\"", .comment "?xml encoding=\"UTF-8\"",
      .element { name := "html" } [.element { name := "head" } [],
        .element { name := "body" } [.element { name := "p" } [.text "x"]]]] := by
  with_unfolding_all rfl

/-- Content that holds one declaration, of which two come back. -/
theorem canonicalForm_of_declaration_paragraph :
    declaration <+: declaredParagraph.toList ∧ declarationCount declaredParagraph.toList = 1
      ∧ declarationCount (canonicalForm declaredParagraph true).toList = 2 := by
  have hcontent : declaration <+: declaredParagraph.toList := by decide
  obtain ⟨ts, hts, -, hcount⟩ := canonicalForm_of_declaration hcontent true
  rw [readContent_declaredParagraph] at hts
  obtain rfl := (List.cons.inj (List.cons.inj hts).2).2
  have hnone : declarationCount (recover (serialize [.element { name := "html" }
      [.element { name := "head" } [], .element { name := "body" }
        [.element { name := "p" } [.text "x"]]]]) declaredParagraph.toList true) = 0 := by
    decide +kernel
  exact ⟨hcontent, by decide +kernel, by rw [hcount, hnone]⟩

end Recovery

end RichText
