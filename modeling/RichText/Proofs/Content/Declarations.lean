import Mathlib.Data.List.TakeWhile
import RichText.Content.Document
import RichText.Proofs.Text.Removal

/-!
Encoding declarations that recovering leaves over.

The two forms of the declaration are taken out one after the other, each in one go. Where one
stands inside the other, or inside itself, taking it out joins what was around it, and a
declaration is there again.

* `infix_recover_iff`: after the declarations have been dropped, recovering neither makes nor
  removes a text in angle brackets;
* `HoldsNested`: a text with a declaration that others have been put into;
* `holdsDeclaration_canonicalForm_iff`: **which declarations are left over**: exactly those that
  others stood in.
-/

namespace RichText

variable {part d s b x : List Char}

/-! ### Pieces of a text -/

lemma append_of_stripStart? (hs : stripStart? part s = some x) : part ++ x = s := by
  rw [stripStart?, Option.ite_none_right_eq_some] at hs
  rw [← Option.some.inj hs.2, append_of_isPrefixOf hs.1]

lemma append_of_stripEnd? (hs : stripEnd? part s = some x) : x ++ part = s := by
  rw [stripEnd?, Option.ite_none_right_eq_some] at hs
  rw [← Option.some.inj hs.2]
  exact List.suffix_iff_eq_append.mp (List.isSuffixOf_iff_suffix.mp hs.1)

lemma trim_split (s : List Char) :
    ∃ a b, s = a ++ trim s ++ b ∧ (∀ c ∈ a, isBlank c) ∧ ∀ c ∈ b, isBlank c := by
  refine ⟨s.takeWhile isBlank, ((trimStart s).reverse.takeWhile isBlank).reverse, ?_,
    fun c hc => List.mem_takeWhile_imp hc,
    fun c hc => List.mem_takeWhile_imp (List.mem_reverse.mp hc)⟩
  rw [List.append_assoc, trim, trimEnd, ← List.reverse_append, List.takeWhile_append_dropWhile,
    List.reverse_reverse, trimStart, List.takeWhile_append_dropWhile]

/-! ### Blanks around a text -/

namespace InAngles

lemma not_infix_of_blank (hd : InAngles d) (hb : ∀ c ∈ b, isBlank c) : ¬ d <:+: b := by
  intro h
  obtain ⟨inner, rfl, -⟩ := hd
  exact absurd (hb _ (h.subset List.mem_cons_self)) (by decide)

/-- Blanks behind a text do not matter. -/
lemma infix_append_blank_iff (hd : InAngles d) (hb : ∀ c ∈ b, isBlank c) (x : List Char) :
    d <:+: x ++ b ↔ d <:+: x := by
  have hnot : ¬ Straddles d x b := by
    rintro ⟨p, q, -, hq, rfl, -, hqb⟩
    obtain ⟨q, c, rfl⟩ := (List.eq_nil_or_concat q).resolve_left hq
    rw [List.concat_eq_append] at hd hqb
    obtain rfl : c = '>' := hd.angled.last c (by simp)
    exact absurd (hb '>' (hqb.subset (by simp))) (by decide)
  rw [infix_append_iff_of_not_straddles hnot, or_iff_left (hd.not_infix_of_blank hb)]

/-- Blanks in front of a text do not matter. -/
lemma infix_blank_append_iff (hd : InAngles d) (hb : ∀ c ∈ b, isBlank c) (x : List Char) :
    d <:+: b ++ x ↔ d <:+: x := by
  have hnot : ¬ Straddles d b x := by
    rintro ⟨p, q, hp, -, rfl, hpb, -⟩
    obtain ⟨c, p, rfl⟩ := List.exists_cons_of_ne_nil hp
    obtain rfl : c = '<' := hd.angled.head c rfl
    exact absurd (hb _ (hpb.subset List.mem_cons_self)) (by decide)
  rw [infix_append_iff_of_not_straddles hnot, or_iff_right (hd.not_infix_of_blank hb)]

lemma infix_trim_iff (hd : InAngles d) (s : List Char) : d <:+: trim s ↔ d <:+: s := by
  obtain ⟨a, b, hs, ha, hb⟩ := trim_split s
  conv_rhs => rw [hs]
  rw [hd.infix_append_blank_iff hb, hd.infix_blank_append_iff ha]

end InAngles

namespace Recovery

/-! ### Steps that keep what stands in angle brackets -/

/-- A single paragraph stands between blanks. -/
lemma trim_of_paragraph? (hx : paragraph? s = some x) :
    trim s = "<p>".toList ++ (x ++ "</p>".toList) := by
  obtain ⟨rest, hrest, hx⟩ := Option.bind_eq_some_iff.mp hx
  obtain ⟨inner, hinner, hif⟩ := Option.bind_eq_some_iff.mp hx
  obtain rfl : inner = x := by
    split at hif
    · exact absurd hif (by simp)
    · exact Option.some.inj hif
  rw [← append_of_stripStart? hrest, ← append_of_stripEnd? hinner]

lemma infix_of_paragraph?_iff (hd : InAngles d) (hopen : ¬ d <:+: "<p>".toList)
    (hclose : ¬ d <:+: "</p>".toList) (hx : paragraph? s = some x) : d <:+: x ↔ d <:+: s := by
  have hform := trim_of_paragraph? hx
  have hstart : InAngles "<p>".toList := ⟨"p".toList, by decide⟩
  have hend : InAngles "</p>".toList := ⟨"/p".toList, by decide⟩
  have hlast : ¬ Straddles d "<p>".toList (x ++ "</p>".toList) :=
    hd.not_straddles_of_last hstart.angled.last _
  have hhead : ¬ Straddles d x "</p>".toList := hd.not_straddles_of_head hend.angled.head x
  rw [← hd.infix_trim_iff s, hform, infix_append_iff_of_not_straddles hlast,
    infix_append_iff_of_not_straddles hhead, or_iff_right hopen, or_iff_left hclose]

lemma infix_unwrapParagraph_iff (hd : InAngles d) (hopen : ¬ d <:+: "<p>".toList)
    (hclose : ¬ d <:+: "</p>".toList) (content s : List Char) :
    d <:+: unwrapParagraph content s ↔ d <:+: s := by
  rw [unwrapParagraph]
  split
  · exact Iff.rfl
  · cases hx : paragraph? s with
    | none => exact Iff.rfl
    | some x => exact infix_of_paragraph?_iff hd hopen hclose hx

lemma infix_dropNewline_iff (hd : InAngles d) (content s : List Char) :
    d <:+: dropNewline content s ↔ d <:+: s := by
  rw [dropNewline]
  split
  · next hend =>
      rw [Bool.and_eq_true, decide_eq_true_eq] at hend
      have hs : s.dropLast ++ ['\n'] = s := List.dropLast_append_getLast? _ hend.1
      conv_rhs => rw [← hs]
      exact (hd.infix_append_blank_iff (List.forall_mem_singleton.mpr (by decide)) _).symm
  · exact Iff.rfl

/-! ### What is left over -/

lemma inAngles_declaration : InAngles declaration :=
  ⟨"?xml encoding=\"UTF-8\"".toList, by decide⟩

lemma inAngles_declarationComment : InAngles declarationComment :=
  ⟨"!--?xml encoding=\"UTF-8\"--".toList, by decide⟩

/-- The two forms of the declaration. -/
def declarations : List (List Char) :=
  [declaration, declarationComment]

/-- A declaration in one of its forms stands somewhere in the text. -/
def HoldsDeclaration (s : List Char) : Prop :=
  ∃ d ∈ declarations, d <:+: s

/-- Somewhere in the text stands a declaration in one of its forms into which others have been
put: first in the form it has in content, then as comments. -/
def HoldsNested (s : List Char) : Prop :=
  ∃ d ∈ declarations, ∃ y z, Interspersed declaration d y ∧ Interspersed declarationComment y z
    ∧ z <:+: s

/-- What was written for the document of content, at the time declarations are dropped. -/
def undropped (content : String) (restore : Bool) : List Char :=
  let s := stripWrapper (serialize (readContent content))
  if restore then restoreLinks s else s

lemma infix_dropDeclarations_iff {content : List Char} (hcontent : ¬ declaration <+: content)
    (hd : Angled d) (s : List Char) :
    d <:+: dropDeclarations content s
      ↔ ∃ y z, Interspersed declaration d y ∧ Interspersed declarationComment y z ∧ z <:+: s := by
  rw [dropDeclarations, if_neg (by rwa [List.isPrefixOf_iff_prefix]),
    infix_replaceAll_iff inAngles_declaration hd]
  constructor
  · rintro ⟨y, hdy, hy⟩
    obtain ⟨z, hyz, hz⟩ := (infix_replaceAll_iff inAngles_declarationComment
      (hdy.angled inAngles_declaration hd)).mp hy
    exact ⟨y, z, hdy, hyz, hz⟩
  · rintro ⟨y, z, hdy, hyz, hz⟩
    exact ⟨y, hdy, (infix_replaceAll_iff inAngles_declarationComment
      (hdy.angled inAngles_declaration hd)).mpr ⟨z, hyz, hz⟩⟩

lemma infix_canonicalForm_iff {content : String} (hd : InAngles d) (hopen : ¬ d <:+: "<p>".toList)
    (hclose : ¬ d <:+: "</p>".toList) (restore : Bool) :
    d <:+: (canonicalForm content restore).toList
      ↔ d <:+: dropDeclarations content.toList (undropped content restore) := by
  rw [canonicalForm, recoverContent, writeNodes, String.toList_ofList, String.toList_ofList,
    recover, infix_dropNewline_iff hd, infix_unwrapParagraph_iff hd hopen hclose, undropped]

/-- **Which declarations are left over** in content that is read, written back and recovered, and
that did not begin with one: a declaration stands in what is recovered exactly if in what was
written there stood one that others had been put into, and that is joined when those are dropped. -/
theorem holdsDeclaration_canonicalForm_iff {content : String}
    (hcontent : ¬ declaration <+: content.toList) (restore : Bool) :
    HoldsDeclaration (canonicalForm content restore).toList
      ↔ HoldsNested (undropped content restore) := by
  refine exists_congr fun d => and_congr_right fun hmem => ?_
  have hd : InAngles d ∧ ¬ d <:+: "<p>".toList ∧ ¬ d <:+: "</p>".toList := by
    rcases List.mem_pair.mp hmem with rfl | rfl
    · exact ⟨inAngles_declaration, by decide, by decide⟩
    · exact ⟨inAngles_declarationComment, by decide, by decide⟩
  rw [infix_canonicalForm_iff hd.1 hd.2.1 hd.2.2, infix_dropDeclarations_iff hcontent hd.1.angled]

/-- A comment that would be a declaration without the one that stands in it. -/
def parted : String :=
  "<p>x</p><!--?xml enco<?xml encoding=\"UTF-8\">ding=\"UTF-8\"-->"

lemma undropped_parted (restore : Bool) :
    undropped parted restore = declarationComment ++ "<p>x</p>".toList
      ++ ("<!--?xml enco".toList ++ declaration ++ "ding=\"UTF-8\"-->".toList) := by
  have hdoc : readContent parted
      = [.comment "?xml encoding=\"UTF-8\"",
        .element { name := "html" } [.element { name := "head" } [],
          .element { name := "body" } [.element { name := "p" } [.text "x"],
            .comment "?xml enco<?xml encoding=\"UTF-8\">ding=\"UTF-8\""]]] := by
    with_unfolding_all rfl
  rw [undropped, hdoc]
  cases restore <;> rfl

/-- What is left of that comment is a declaration, whether or not links are restored. -/
theorem holdsDeclaration_canonicalForm_parted :
    ¬ declaration <+: parted.toList
      ∧ HoldsDeclaration (canonicalForm parted false).toList
      ∧ HoldsDeclaration (canonicalForm parted true).toList := by
  have hnested : ∀ restore, HoldsNested (undropped parted restore) := fun restore => by
    refine ⟨declarationComment, by decide, _, _, .piece (p := "<!--?xml enco".toList) (by decide)
      (.whole (x := "ding=\"UTF-8\"-->".toList) (by decide)), .whole (by decide), ?_⟩
    rw [undropped_parted]
    exact List.infix_append_right
  have hcontent : ¬ declaration <+: parted.toList := by decide
  exact ⟨hcontent, (holdsDeclaration_canonicalForm_iff hcontent false).mpr (hnested false),
    (holdsDeclaration_canonicalForm_iff hcontent true).mpr (hnested true)⟩

end Recovery

end RichText
