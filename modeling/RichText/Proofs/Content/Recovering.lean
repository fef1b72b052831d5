import RichText.Proofs.Content.BracketedLinks
import RichText.Proofs.Content.Brackets
import RichText.Proofs.Content.Reading

/-!
Recovering a written plain forest from its document.

* `not_infix_declaration`: a written plain forest holds no declaration in either form;
* `restoreLinks_of_fenced`: it holds no link with coded brackets;
* `recover_documentElement`: **what is recovered** from the document around a plain forest is
  the forest as it was written.
-/

namespace RichText

variable {s t v x y : List Char} {ts : List Tree}

/-! ### Declarations -/

/-- Behind an opening bracket there is no mark that is followed by a quotation mark and a
letter. -/
lemma BehindBracket.ne_declaration (hv : BehindBracket v) {m c : Char}
    (hm : m ≠ '/' ∧ m.isLower = false) (hc : c ≠ ' ' ∧ c ≠ '>') (hx : '"' ∉ m :: x) :
    v ≠ m :: x ++ '"' :: c :: y := by
  intro heq
  cases hv with
  | endTag s => exact hm.1 (List.cons.inj heq).1.symm
  | @startTag name s hname hs =>
      obtain ⟨-, b, hb, hlower⟩ := keptInNames_of_isPlainName hname
      obtain ⟨bs, hbs⟩ := List.head?_eq_some_iff.mp hb
      rw [hbs] at heq
      obtain rfl := (List.cons.inj heq).1
      rw [hm.2] at hlower
      exact absurd hlower (by decide)
  | @value w s hw hs =>
      rcases eq_or_of_append_cons_eq hw heq.symm with ⟨-, hy⟩ | ⟨z, hz, -⟩
      · rcases hs.head? with h | h
        · rw [← hy] at h
          exact hc.1 (Option.some.inj h)
        · rw [← hy] at h
          exact hc.2 (Option.some.inj h)
      · exact hx (hz ▸ by simp)

namespace Recovery

/-- A text in which all brackets are of tags or in values holds no declaration. -/
lemma not_infix_declaration (hs : Fenced s) :
    ¬ declaration <:+: s ∧ ¬ declarationComment <:+: s := by
  have hdecl : declaration
      = '<' :: ('?' :: "xml encoding=".toList ++ '"' :: 'U' :: "TF-8\">".toList) := by decide
  have hcomment : declarationComment
      = '<' :: ('!' :: "--?xml encoding=".toList ++ '"' :: 'U' :: "TF-8\"-->".toList) := by decide
  constructor
  · rintro ⟨u, w, heq⟩
    rw [hdecl, List.append_assoc, List.cons_append, List.append_assoc, List.cons_append,
      List.cons_append] at heq
    exact (hs u _ heq.symm).ne_declaration (by decide) (by decide) (by decide) rfl
  · rintro ⟨u, w, heq⟩
    rw [hcomment, List.append_assoc, List.cons_append, List.append_assoc, List.cons_append,
      List.cons_append] at heq
    exact (hs u _ heq.symm).ne_declaration (by decide) (by decide) (by decide) rfl

/-- The declaration that was put in front is taken out. -/
lemma dropDeclarations_of_fenced (hs : Fenced s) :
    dropDeclarations s (declarationComment ++ s) = s := by
  obtain ⟨hdecl, hcomment⟩ := not_infix_declaration hs
  have hstart : declaration.isPrefixOf s = false := by
    rw [← Bool.not_eq_true, List.isPrefixOf_iff_prefix]
    exact fun h => hdecl h.isInfix
  rw [dropDeclarations, hstart, if_neg (by decide), replaceAll_append (by decide) hcomment,
    List.nil_append, replaceAll_eq_self (by decide) hdecl]

end Recovery

/-! ### Links -/

/-- Behind the bracket of a bracketed link there is an `a`, and a quotation mark in front of the
code of a bracket. -/
lemma exists_of_bracketedLink? {l : BracketedLink} (h : bracketedLink? s = some l) :
    ∃ a x y, s = '<' :: a :: x ++ '"' :: y ∧ a ≠ '/' ∧ '>' ∉ a :: x
      ∧ startsIgnoringCase "%5b".toList y = true := by
  obtain ⟨@⟨a, w, v, ha, -, -, hw, hv⟩, y, rfl⟩ := isLink_of_bracketedLink? h
  obtain ⟨x, hlead, hx⟩ := hv.exists_lead
  have hnot : ∀ m : Char, m.toLower ≠ 'a' → a ≠ m := fun m hm hne => hm (hne ▸ ha)
  have hbracket : '>' ∉ x := fun hmem => by
    have hlower := List.mem_map_of_mem (f := Char.toLower) hmem
    rw [hx] at hlower
    exact absurd hlower (by decide)
  refine ⟨a, w ++ x, v.opening ++ (v.body ++ v.closing ++ '"' :: y), ?_, hnot '/' (by decide), ?_,
    startsIgnoringCase_of_map hv.opening _⟩
  · rw [BracketedLink.source_behind, BracketedLink.source, hlead]
    simp
  · simp [hw, hbracket, (hnot '>' (by decide)).symm]

/-- No bracketed link begins with a tag or in a value. -/
lemma BehindBracket.not_bracketedLink (hv : BehindBracket v) :
    bracketedLink? ('<' :: v) = none := by
  rw [Option.eq_none_iff_forall_ne_some]
  intro l hl
  obtain ⟨a, x, y, heq, hslash, hx, hy⟩ := exists_of_bracketedLink? hl
  have heq : v = (a :: x) ++ '"' :: y := (List.cons.inj heq).2
  have hnot : startsIgnoringCase "%5b".toList y = false := by
    cases hv with
    | endTag s => exact absurd (List.cons.inj heq).1.symm hslash
    | @startTag name s hname hs =>
        have hquote : '"' ∉ name.toList := fun hmem =>
          absurd ((keptInNames_of_isPlainName hname).1 _ hmem) (by decide)
        rcases cut_of_append_eq heq with ⟨w, hw, -⟩ | ⟨w, hw, hs'⟩
        · exact absurd (by simp [hw]) hquote
        · exact hs.not_coded hs' fun hmem => hx (by simp [hw, hmem])
    | @value w s hw hs =>
        rcases eq_or_of_append_cons_eq hw heq.symm with ⟨-, rfl⟩ | ⟨z, hz, hs'⟩
        · exact hs.not_starts
        · exact hs.not_coded hs' fun hmem => hx (by simp [hz, hmem])
  rw [hnot] at hy
  exact absurd hy (by decide)

lemma restoreFrom_cons {c : Char} (h : bracketedLink? (c :: s) = none) :
    restoreFrom 0 (c :: s) = c :: restoreFrom 0 s := by
  rw [restoreFrom, h]

lemma restoreFrom_of_notMem (hs : '<' ∉ s) (t : List Char) :
    restoreFrom 0 (s ++ t) = s ++ restoreFrom 0 t := by
  induction s with
  | nil => rfl
  | cons c s ih =>
      obtain ⟨hc, hs⟩ := not_or.mp (List.mem_cons.not.mp hs)
      have hnone : bracketedLink? (c :: (s ++ t)) = none := by
        simp [bracketedLink?, Ne.symm hc]
      rw [List.cons_append, restoreFrom_cons hnone, ih hs, List.cons_append]

/-- Where all brackets are of tags or in values, no links are restored. -/
lemma restoreFrom_of_fenced (hs : Fenced s) : restoreFrom 0 s = s := by
  induction s with
  | nil => rfl
  | cons c s ih =>
      have hnone : bracketedLink? (c :: s) = none := by
        by_cases hc : c = '<'
        · subst hc
          exact (hs [] s rfl).not_bracketedLink
        · simp [bracketedLink?, hc]
      rw [restoreFrom_cons hnone, ih fun u v heq => hs (c :: u) v (by rw [heq, List.cons_append])]

/-- The declaration in front does not change that. -/
lemma restoreLinks_of_fenced (hs : Fenced s) :
    restoreLinks (declarationComment ++ s) = declarationComment ++ s := by
  have hcomment : declarationComment = ['<'] ++ "!--?xml encoding=\"UTF-8\"-->".toList := by decide
  have hmark : "!--?xml encoding=\"UTF-8\"-->".toList
      = '!' :: "--?xml encoding=\"UTF-8\"-->".toList := by decide
  have hnone : bracketedLink? ('<' :: ("!--?xml encoding=\"UTF-8\"-->".toList ++ s)) = none := by
    rw [hmark, List.cons_append]
    cases "--?xml encoding=\"UTF-8\"-->".toList ++ s with
    | nil => rfl
    | cons b w => rw [bracketedLink?, if_neg (by simp)]
  rw [restoreLinks, hcomment, List.append_assoc, List.singleton_append, restoreFrom_cons hnone,
    restoreFrom_of_notMem (by decide), restoreFrom_of_fenced hs]

/-! ### Documents -/

namespace Recovery

/-- What does not begin with a bracket is not a paragraph. -/
lemma unwrapParagraph_self (s : List Char) : unwrapParagraph s s = s := by
  rw [unwrapParagraph]
  split
  · rfl
  · next hhead =>
      have hnone : stripStart? "<p>".toList (trim s) = none := by
        rw [stripStart?, if_neg]
        intro hprefix
        obtain ⟨w, hw⟩ := isPrefixOf_eq_true_iff.mp hprefix
        exact hhead (by rw [hw]; rfl)
      rw [paragraph?, hnone]
      rfl

lemma dropNewline_self (s : List Char) : dropNewline s s = s := by
  rw [dropNewline, if_neg]
  simp

/-- The tags around head and body are taken off. -/
lemma stripWrapper_documentElement (ts : List Tree) :
    stripWrapper (serialize [.comment Construction.declarationText, documentElement [] ts])
      = declarationComment ++ serialize ts := by
  have hwritten : serialize [.comment Construction.declarationText, documentElement [] ts]
      = wrapped declarationComment [] (serialize ts) [] := by
    have hcomment : serializeNode {} (.comment Construction.declarationText)
        = declarationComment := by
      decide
    have hdocument := serialize_documentElement [] ts
    rw [serialize] at hdocument ⊢
    rw [serializeNodes, hcomment, hdocument, wrapped]
    simp [serialize, serializeNodes]
  rw [hwritten, stripWrapper_wrapped (by decide) (by decide) _ (by decide), List.append_nil]

/-- **What is recovered** from the document around a written plain forest without coded brackets
is the forest as it was written. -/
theorem recover_documentElement (hts : Tree.isPlainAll false ts = true)
    (hcoded : ∀ a ∈ Tree.attributesAll ts, a.isCoded = false) (restore : Bool) :
    recover (serialize [.comment Construction.declarationText, documentElement [] ts])
      (serialize ts) restore = serialize ts := by
  have hfenced : Fenced (serialize ts) := fenced_serializeNodes hts hcoded
  rw [recover, stripWrapper_documentElement]
  rw [restoreLinks_of_fenced hfenced, ite_self, dropDeclarations_of_fenced hfenced,
    unwrapParagraph_self, dropNewline_self]

end Recovery

end RichText
