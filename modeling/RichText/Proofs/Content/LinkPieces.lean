import RichText.Proofs.Content.CodedLinks
import RichText.Proofs.Text.Removal

/-!
What restoring links leaves as it is.

Links are restored in raw text, whatever that holds. A text and what it becomes can be cut into
pieces that belong to each other: most are the same, and the others are the values of links, in
which only the codes at both ends have become brackets. So the texts are the same as soon as all
codes of brackets are read as brackets.

* `LinkPiece`, `IsCut`: pieces of a text and of what it becomes, and where they stand;
* `exists_isCut_restoreFrom`: such pieces, of which one changes if a link stands in the text;
* `decodeBrackets`: a text with all codes of brackets read as brackets
  (`IsCut.decodeBrackets_eq`: pieces do not change it);
* `exists_isCut_restoreLinks`: **restoring links changes nothing but codes around values**.
-/

namespace RichText

variable {o b c s t u v w x y z : List Char} {l : BracketedLink}

/-! ### Pieces -/

/-- A piece of a text whose links are restored: kept as it is, or a value in the codes of two
brackets. -/
inductive LinkPiece where
  | kept (x : List Char)
  | bracketed (opening body closing : List Char)

namespace LinkPiece

/-- The piece as it is in the text. -/
def source : LinkPiece → List Char
  | kept x => x
  | bracketed opening body closing => opening ++ body ++ closing

/-- The piece with brackets for the codes at its ends. -/
def restored : LinkPiece → List Char
  | kept x => x
  | bracketed _ body _ => '[' :: body ++ [']']

/-- Whether the piece is a value in the codes of two brackets. -/
def isBracketed : LinkPiece → Bool
  | kept _ => false
  | bracketed .. => true

/-- Whether a piece may stand between two texts: one that is not kept is the text between `href="`
and the next quotation mark, and begins and ends in the codes of brackets. -/
inductive StandsBetween : List Char → List Char → LinkPiece → Prop
  | kept (u v x : List Char) : StandsBetween u v (kept x)
  | bracketed (u : List Char) {h : List Char} (v : List Char) {o b c : List Char}
      (hh : h.map Char.toLower = "href=\"".toList) (ho : o.map Char.toLower = "%5b".toList)
      (hc : c.map Char.toLower = "%5d".toList) (hb : '"' ∉ b) :
      StandsBetween (u ++ h) ('"' :: v) (bracketed o b c)

lemma StandsBetween.append_left {p : LinkPiece} (hp : p.StandsBetween u v) (x : List Char) :
    p.StandsBetween (x ++ u) v := by
  cases hp with
  | kept => exact .kept ..
  | bracketed u v hh ho hc hb =>
      rw [← List.append_assoc]
      exact .bracketed (x ++ u) v hh ho hc hb

/-- Whether all pieces stand where they may, behind a text and one after the other. -/
def StandBehind (u : List Char) (ps : List LinkPiece) : Prop :=
  ∀ qs p rs, ps = qs ++ p :: rs → p.StandsBetween (u ++ qs.flatMap source) (rs.flatMap source)

lemma standBehind_cons {p : LinkPiece} {ps : List LinkPiece} : StandBehind u (p :: ps)
    ↔ p.StandsBetween u (ps.flatMap source) ∧ StandBehind (u ++ p.source) ps := by
  constructor
  · intro h
    refine ⟨by simpa using h [] p ps rfl, fun qs q rs heq => ?_⟩
    have hq := h (p :: qs) q rs (by rw [heq, List.cons_append])
    rwa [List.flatMap_cons, ← List.append_assoc] at hq
  · rintro ⟨hp, hps⟩ qs q rs heq
    cases qs with
    | nil =>
        obtain ⟨rfl, rfl⟩ := List.cons.inj heq
        simpa using hp
    | cons p' qs =>
        obtain ⟨rfl, hrest⟩ := List.cons.inj heq
        rw [List.flatMap_cons, ← List.append_assoc]
        exact hps qs q rs hrest

lemma StandBehind.append_left {ps : List LinkPiece} (hps : StandBehind u ps) (x : List Char) :
    StandBehind (x ++ u) ps := fun qs p rs heq => by
  rw [List.append_assoc]
  exact (hps qs p rs heq).append_left x

end LinkPiece

open LinkPiece

/-- Pieces into which a text and what it becomes can be cut, each where it may stand. -/
structure IsCut (ps : List LinkPiece) (s t : List Char) : Prop where
  source : ps.flatMap source = s
  restored : ps.flatMap restored = t
  stand : StandBehind [] ps

namespace IsCut

variable {ps : List LinkPiece}

lemma nil : IsCut [] [] [] := ⟨rfl, rfl, fun qs p rs h => absurd h (by simp)⟩

lemma standBehind (hps : IsCut ps s t) (u : List Char) : StandBehind u ps := by
  rw [← List.append_nil u]
  exact hps.stand.append_left u

/-- A stretch that is kept, in front. -/
lemma kept (hps : IsCut ps s t) (x : List Char) : IsCut (.kept x :: ps) (x ++ s) (x ++ t) where
  source := by rw [List.flatMap_cons, hps.source, LinkPiece.source]
  restored := by rw [List.flatMap_cons, hps.restored, LinkPiece.restored]
  stand := standBehind_cons.mpr ⟨.kept .., hps.standBehind _⟩

/-- A bracketed value in front, the codes of whose brackets become brackets. -/
lemma value (hps : IsCut ps s t) (hl : l.IsValue) :
    IsCut (.kept l.lead :: .bracketed l.opening l.body l.closing :: .kept ['"'] :: ps)
      (l.source ++ s) (l.restored ++ t) where
  source := by simp [LinkPiece.source, BracketedLink.source, hps.source]
  restored := by simp [LinkPiece.restored, BracketedLink.restored, hps.restored]
  stand := by
    refine standBehind_cons.mpr ⟨.kept .., standBehind_cons.mpr ⟨?_, ?_⟩⟩
    · exact .bracketed [] _ hl.lead hl.opening hl.closing hl.body
    · exact standBehind_cons.mpr ⟨.kept .., hps.standBehind _⟩

end IsCut

/-! ### Texts with links -/

/-- Whether a link in coded brackets stands in a text. -/
def HoldsLink (s : List Char) : Prop :=
  ∃ l : BracketedLink, l.IsLink ∧ l.source <:+: s

/-- No link begins in front of a text in which none was found there. -/
lemma holdsLink_cons {c : Char} (h : bracketedLink? (c :: s) = none) :
    HoldsLink (c :: s) ↔ HoldsLink s := by
  refine exists_congr fun l => and_congr_right fun hl => ?_
  rw [List.infix_cons_iff, or_iff_right]
  rintro ⟨y, hy⟩
  have hfound := isSome_bracketedLink? hl y
  rw [hy, h] at hfound
  exact absurd hfound (by decide)

lemma not_holdsLink_nil : ¬ HoldsLink [] := by
  rintro ⟨l, -, hl⟩
  have hnil : l.source = [] := List.infix_nil.mp hl
  simp [BracketedLink.source] at hnil

lemma restoreFrom_of_bracketedLink? {r : List Char} (h : bracketedLink? s = some l)
    (hs : s = l.source ++ r) : restoreFrom 0 s = l.restored ++ restoreFrom 0 r := by
  cases s with
  | nil => simp [bracketedLink?] at h
  | cons c s =>
      have hlen := l.length_source_pos
      have hrest : s.drop (l.source.length - 1) = r := by
        rw [← List.drop_succ_cons (a := c), hs, Nat.sub_add_cancel hlen, List.drop_left]
      rw [restoreFrom, h]
      dsimp only
      rw [restoreFrom_drop, hrest]

/-- A text can be cut with what becomes of it, and some piece changes if a link stands in it. -/
lemma exists_isCut_restoreFrom (s : List Char) : ∃ ps, IsCut ps s (restoreFrom 0 s)
    ∧ ((∃ p ∈ ps, p.isBracketed = true) ↔ HoldsLink s) := by
  -- by induction on the length, from one link to the next
  induction hn : s.length using Nat.strong_induction_on generalizing s with
  | _ n ih =>
      subst hn
      cases hfound : bracketedLink? s with
      | some l =>
          obtain ⟨hlink, y, hs⟩ := isLink_of_bracketedLink? hfound
          have hlen : y.length < s.length := by
            rw [hs, List.length_append]
            exact Nat.lt_add_of_pos_left l.length_source_pos
          obtain ⟨ps, hps, -⟩ := ih y.length hlen y rfl
          rw [restoreFrom_of_bracketedLink? hfound hs]
          have hholds : HoldsLink s := ⟨l, hlink, [], y, by rw [hs, List.nil_append]⟩
          obtain @⟨a, w, v, -, -, -, -, hv⟩ := hlink
          have hcut := (hps.value hv).kept ('<' :: a :: w)
          rw [← List.append_assoc, ← List.append_assoc, ← BracketedLink.source_behind,
            ← BracketedLink.restored_behind, ← hs] at hcut
          refine ⟨_, hcut, iff_of_true ⟨.bracketed v.opening v.body v.closing, ?_, rfl⟩ hholds⟩
          simp
      | none =>
          cases s with
          | nil => exact ⟨[], .nil, iff_of_false (by simp) not_holdsLink_nil⟩
          | cons c s =>
              obtain ⟨ps, hps, hholds⟩ := ih s.length (by simp) s rfl
              refine ⟨.kept [c] :: ps, ?_, ?_⟩
              · rw [restoreFrom_cons hfound]
                exact hps.kept [c]
              · rw [holdsLink_cons hfound, ← hholds]
                simp [isBracketed]

/-! ### Codes of brackets read as brackets -/

/-- The codes of brackets, with the brackets they stand for. -/
def bracketCodes : List (List Char × Char) :=
  [("%5B".toList, '['), ("%5b".toList, '['), ("%5D".toList, ']'), ("%5d".toList, ']')]

/-- The text with brackets for all codes of brackets in it. -/
def decodeBrackets (s : List Char) : List Char :=
  bracketCodes.foldl (fun s code => replaceAll code.1 [code.2] s) s

/-- The codes of brackets and the brackets. -/
def bracketMarks : List (List Char) :=
  bracketCodes.map (·.1) ++ bracketCodes.map fun code => [code.2]

/-- **Codes are read on both sides of a mark on their own**: no code reaches into it. -/
lemma foldl_replaceAll_mark {codes : List (List Char × Char)} (hcodes : codes ⊆ bracketCodes)
    (hw : w ∈ bracketMarks) (u v : List Char) :
    codes.foldl (fun s code => replaceAll code.1 [code.2] s) (u ++ w ++ v)
      = codes.foldl (fun s code => replaceAll code.1 [code.2] s) u
        ++ codes.foldl (fun s code => replaceAll code.1 [code.2] s) w
        ++ codes.foldl (fun s code => replaceAll code.1 [code.2] s) v := by
  induction codes generalizing u v w with
  | nil => rfl
  | cons code codes ih =>
      obtain ⟨hcode, hcodes⟩ := List.cons_subset.mp hcodes
      have hends : ∀ code ∈ bracketCodes, ∀ w ∈ bracketMarks, code.1 ≠ []
          ∧ w.head?.all (· ∉ code.1.tail) ∧ w.getLast?.all (· ∉ code.1.dropLast)
          ∧ replaceAll code.1 [code.2] w ∈ bracketMarks := by
        decide
      obtain ⟨hne, hhead, hlast, hmark⟩ := hends code hcode w hw
      have hhead' : ¬ Straddles code.1 u w :=
        not_straddles_of_head (by simpa [Option.all_eq_true] using hhead) u
      have hlast' : ¬ Straddles code.1 (u ++ w) v := by
        refine not_straddles_of_last ?_ v
        have hw' : w ≠ [] := by
          rintro rfl
          exact absurd hw (by decide)
        rw [List.getLast?_append_of_ne_nil _ hw']
        simpa [Option.all_eq_true] using hlast
      rw [List.foldl_cons, List.foldl_cons, List.foldl_cons, List.foldl_cons,
        replaceAll_append_of_not_straddles hne hlast',
        replaceAll_append_of_not_straddles hne hhead']
      exact ih hcodes hmark _ _

/-- A code may be read as a bracket beforehand. -/
lemma decodeBrackets_code {code : List Char × Char} (hcode : code ∈ bracketCodes)
    (u v : List Char) :
    decodeBrackets (u ++ code.1 ++ v) = decodeBrackets (u ++ [code.2] ++ v) := by
  have hmarks : ∀ code ∈ bracketCodes, code.1 ∈ bracketMarks ∧ [code.2] ∈ bracketMarks
      ∧ decodeBrackets code.1 = decodeBrackets [code.2] := by
    decide
  obtain ⟨hmark, hmark', heq⟩ := hmarks code hcode
  rw [decodeBrackets] at heq
  rw [decodeBrackets, decodeBrackets, foldl_replaceAll_mark (List.Subset.refl _) hmark,
    foldl_replaceAll_mark (List.Subset.refl _) hmark', heq]
  rfl

/-- A bracket's code with a letter in any case is one of the codes. -/
lemma mem_bracketCodes {code : List Char} {m : Char}
    (hcode : (code, m) ∈ [("%5b".toList, '['), ("%5d".toList, ']')])
    (hw : w.map Char.toLower = code) : (w, m) ∈ bracketCodes := by
  have hletters : ∀ code ∈ [("%5b".toList, '['), ("%5d".toList, ']')], ∃ d d' : Char,
      code.1 = ['%', '5', d] ∧ d'.toNat + 32 = d.toNat ∧ (['%', '5', d], code.2) ∈ bracketCodes
        ∧ (['%', '5', d'], code.2) ∈ bracketCodes := by
    simp only [List.forall_mem_cons]
    exact ⟨⟨'b', 'B', by decide⟩, ⟨'d', 'D', by decide⟩, by simp⟩
  obtain ⟨d, d', hd, hcapital, hsmall, hlarge⟩ := hletters _ hcode
  obtain ⟨p, w₁, rfl, hp, hw₁⟩ := List.map_eq_cons_iff.mp (hw.trans hd)
  obtain ⟨f, w₂, rfl, hf, hw₂⟩ := List.map_eq_cons_iff.mp hw₁
  obtain ⟨c, rfl, hc⟩ := List.map_eq_singleton_iff.mp hw₂
  obtain rfl := eq_of_toLower_lt (by decide) hp
  obtain rfl := eq_of_toLower_lt (by decide) hf
  rcases eq_of_toLower_eq hc with rfl | ⟨-, hc⟩
  · exact hsmall
  · obtain rfl : c = d' := Char.toNat_inj.mp (by omega)
    exact hlarge

lemma LinkPiece.StandsBetween.decodeBrackets_eq {p : LinkPiece} (hp : p.StandsBetween x y)
    (u v : List Char) :
    decodeBrackets (u ++ p.restored ++ v) = decodeBrackets (u ++ p.source ++ v) := by
  cases hp with
  | kept => rfl
  | @bracketed _ _ _ o b c _ ho hc _ =>
      have ho := mem_bracketCodes (m := '[') (by simp) ho
      have hc := mem_bracketCodes (m := ']') (by simp) hc
      have hopening := decodeBrackets_code ho u (b ++ c ++ v)
      have hclosing := decodeBrackets_code hc (u ++ ['['] ++ b) v
      simp only [LinkPiece.restored, LinkPiece.source, List.append_assoc, List.cons_append,
        List.nil_append] at hopening hclosing ⊢
      rw [hopening, hclosing]

/-- With all codes read as brackets, a text and what it becomes are the same. -/
lemma IsCut.decodeBrackets_eq {ps : List LinkPiece} (h : IsCut ps s t) :
    decodeBrackets t = decodeBrackets s := by
  -- with what has been gone through in front, in the form it becomes
  have hbehind : ∀ x u, StandBehind x ps →
      decodeBrackets (u ++ ps.flatMap LinkPiece.restored)
        = decodeBrackets (u ++ ps.flatMap LinkPiece.source) := by
    clear h
    induction ps with
    | nil => intros; rfl
    | cons p ps ih =>
        intro x u hps
        obtain ⟨hp, hps⟩ := standBehind_cons.mp hps
        rw [List.flatMap_cons, List.flatMap_cons, ← List.append_assoc, ih _ _ hps,
          hp.decodeBrackets_eq, List.append_assoc]
  rw [← h.source, ← h.restored]
  exact hbehind [] [] h.stand

/-- **Restoring links changes nothing but codes around values.** With all codes read as brackets,
the text is the same as before; and it can be cut with what it becomes into pieces that are kept,
or are values behind `href="` up to the next quotation mark, of which the codes at both ends are
replaced. There are such values if links in coded brackets stand in the text. -/
theorem exists_isCut_restoreLinks (s : List Char) :
    decodeBrackets (restoreLinks s) = decodeBrackets s
      ∧ ∃ ps, IsCut ps s (restoreLinks s)
        ∧ ((∃ p ∈ ps, p.isBracketed = true) ↔ HoldsLink s) := by
  obtain ⟨ps, hps, hholds⟩ := exists_isCut_restoreFrom s
  exact ⟨hps.decodeBrackets_eq, ps, hps, hholds⟩

/-- Codes within the value are kept. -/
example : restoreLinks "<a href=\"%5B%5Bx%5D%5D\">".toList = "<a href=\"[%5Bx%5D]\">".toList := by
  decide

end RichText
