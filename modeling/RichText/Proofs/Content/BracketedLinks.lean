import Mathlib.Data.List.Induction
import Mathlib.Data.List.TakeWhile
import RichText.Content.Links
import RichText.Proofs.Text.Characters

/-!
Links in coded brackets as they are written.

* `uncoded?`: what stands between the codes of two brackets, in values as in their written form
  (`uncoded?_escape`);
* `BracketedLink.IsValue`: a bracketed value, which is found where it stands
  (`bracketedValue?_source`, `isValue_of_bracketedValue?`);
* `BracketedLink.IsLink`: a link, from its bracket to the end of its value;
* `isLink_of_bracketedLink?`, `isSome_bracketedLink?`: **links are found**, and nothing else.
-/

namespace RichText

variable {b c o s v w x : List Char} {l : BracketedLink}

/-! ### Values in coded brackets -/

lemma startsIgnoringCase_of_map {p : List Char} (hx : x.map Char.toLower = p) (y : List Char) :
    startsIgnoringCase p (x ++ y) = true := by
  subst hx
  induction x with
  | nil => rfl
  | cons c x ih => simp [startsIgnoringCase, ih]

lemma startsIgnoringCase_iff {p : List Char} : startsIgnoringCase p s = true
    ↔ ∃ x y, s = x ++ y ∧ x.map Char.toLower = p := by
  constructor
  · intro h
    rw [← List.append_nil p] at h
    obtain ⟨x, y, rfl, hx, -⟩ := startsIgnoringCase_append h
    exact ⟨x, y, rfl, hx⟩
  · rintro ⟨x, y, rfl, hx⟩
    exact startsIgnoringCase_of_map hx y

lemma map_of_startsIgnoringCase {p : List Char} (h : startsIgnoringCase p s = true)
    (hlen : s.length = p.length) : s.map Char.toLower = p := by
  obtain ⟨x, y, rfl, rfl⟩ := startsIgnoringCase_iff.mp h
  have hy : y = [] := List.eq_nil_of_length_eq_zero (by simpa using hlen)
  rw [hy, List.append_nil]

/-- What stands between the codes of two brackets, if a text is in such. -/
def uncoded? (v : List Char) : Option (List Char) :=
  if startsIgnoringCase "%5b".toList v && 6 ≤ v.length
      && startsIgnoringCase "%5d".toList (v.drop (v.length - 3)) then
    some ((v.drop 3).take (v.length - 6))
  else none

/-- A text in coded brackets, in pieces. -/
structure InCodes (v o b c : List Char) : Prop where
  eq : v = o ++ b ++ c
  opening : o.map Char.toLower = "%5b".toList
  closing : c.map Char.toLower = "%5d".toList

lemma length_of_map {x p : List Char} (h : x.map Char.toLower = p) : x.length = p.length := by
  rw [← h, List.length_map]

lemma InCodes.length_opening (h : InCodes v o b c) : o.length = 3 := length_of_map h.opening

lemma InCodes.length_closing (h : InCodes v o b c) : c.length = 3 := length_of_map h.closing

lemma InCodes.head?_opening (h : InCodes v o b c) : o.head? = some '%' := by
  have ho := h.opening
  cases o with
  | nil => simp at ho
  | cons m o =>
      have hm : m.toLower = '%' := (List.cons.inj ho).1
      rw [eq_of_toLower_lt (by decide) hm, List.head?_cons]

lemma InCodes.head? (h : InCodes v o b c) : v.head? = some '%' := by
  rw [h.eq, List.append_assoc, List.head?_append, h.head?_opening, Option.some_or]

lemma InCodes.uncoded?_eq (h : InCodes v o b c) : uncoded? v = some b := by
  have ho := h.length_opening
  have hc := h.length_closing
  have hopening : startsIgnoringCase "%5b".toList v = true := by
    rw [h.eq, List.append_assoc]
    exact startsIgnoringCase_of_map h.opening _
  have hlen : v.length = b.length + 6 := by
    rw [h.eq]
    simp
    omega
  have hdrop : v.drop (v.length - 3) = c := by
    have hlast : v.length - 3 = (o ++ b).length := by
      rw [List.length_append]
      omega
    rw [hlast, h.eq, List.drop_left]
  have hbody : (v.drop 3).take (v.length - 6) = b := by
    have hfirst : (o ++ (b ++ c)).drop 3 = b ++ c := ho ▸ List.drop_left
    rw [hlen, h.eq, List.append_assoc, hfirst, Nat.add_sub_cancel, List.take_left]
  have hclosing : startsIgnoringCase "%5d".toList c = true := by
    simpa using startsIgnoringCase_of_map h.closing []
  rw [uncoded?, hopening, hdrop, hclosing, hbody, if_pos (by simp [hlen])]

/-- A text is in coded brackets if it ends in the code of one behind the code of the other. -/
lemma InCodes.of_ends (ho : o.map Char.toLower = "%5b".toList) (hw : 3 ≤ w.length)
    (hclosing : startsIgnoringCase "%5d".toList (w.drop (w.length - 3)) = true) :
    InCodes (o ++ w) o (w.take (w.length - 3)) (w.drop (w.length - 3)) where
  eq := by rw [List.append_assoc, List.take_append_drop]
  opening := ho
  closing := map_of_startsIgnoringCase hclosing (by rw [List.length_drop, Nat.sub_sub_self hw]; rfl)

lemma exists_inCodes (h : uncoded? v = some b) : ∃ o c, InCodes v o b c := by
  rw [uncoded?] at h
  split at h
  · next hcond =>
      simp only [Bool.and_eq_true, decide_eq_true_eq] at hcond
      obtain ⟨⟨hopening, hlen⟩, hclosing⟩ := hcond
      obtain ⟨o, w, rfl, ho⟩ := startsIgnoringCase_iff.mp hopening
      have hlo : o.length = 3 := length_of_map ho
      have hlw : 3 ≤ w.length := by
        rw [List.length_append] at hlen
        omega
      have hdrop : (o ++ w).drop ((o ++ w).length - 3) = w.drop (w.length - 3) := by
        have hsum : (o ++ w).length - 3 = o.length + (w.length - 3) := by
          rw [List.length_append]
          omega
        rw [hsum, List.drop_length_add_append]
      have hbody : b = w.take (w.length - 3) := by
        rw [← Option.some.inj h, ← hlo, List.drop_left, List.length_append]
        congr 1
        omega
      rw [hbody]
      exact ⟨o, _, InCodes.of_ends ho hlw (hdrop ▸ hclosing)⟩
  · simp at h

/-- Escaped text that begins without references begins as the text does. -/
lemma exists_of_escape_append_left (hw : '&' ∉ w) (h : escape .inValue v = w ++ x) :
    ∃ y, v = w ++ y ∧ escape .inValue y = x := by
  induction w generalizing v with
  | nil => exact ⟨v, rfl, h⟩
  | cons m w ih =>
      obtain ⟨hm, hw'⟩ := not_or.mp (List.mem_cons.not.mp hw)
      cases v with
      | nil => simp [escape] at h
      | cons c v =>
          rw [escape, List.flatMap_cons] at h
          rcases escapeChar_form .inValue c with hself | ⟨r, hr, -⟩
          · rw [hself] at h
            obtain ⟨rfl, hv⟩ := List.cons.inj h
            obtain ⟨y, rfl, hy⟩ := ih hw' hv
            exact ⟨y, rfl, hy⟩
          · rw [hr] at h
            exact absurd (List.cons.inj h).1 hm

/-- A character is written as it stands, or as a reference that ends in a semicolon. -/
lemma escapeChar_last (place : TextPlace) (c : Char) :
    escapeChar place c = [c] ∨ ∃ r, escapeChar place c = r ++ [';'] := by
  unfold escapeChar
  cases place <;> dsimp only <;> split_ifs
  all_goals
    first
      | exact .inl rfl
      | exact .inr ⟨_, (List.dropLast_concat_getLast (by decide)).symm⟩

/-- Escaped text that ends without references ends as the text does. -/
lemma exists_of_escape_append_right (hw : ';' ∉ w) (h : escape .inValue v = x ++ w) :
    ∃ y, v = y ++ w ∧ escape .inValue y = x := by
  induction w using List.reverseRecOn generalizing v x with
  | nil => exact ⟨v, by simp, by simpa using h⟩
  | append_singleton w m ih =>
      obtain ⟨hw', hm⟩ := not_or.mp (List.mem_append.not.mp hw)
      rcases List.eq_nil_or_concat v with rfl | ⟨v, c, rfl⟩
      · simp [escape] at h
      · rw [List.concat_eq_append, escape, List.flatMap_append, List.flatMap_singleton,
          ← List.append_assoc] at h
        rcases escapeChar_last .inValue c with hself | ⟨r, hr⟩
        · rw [hself] at h
          obtain ⟨hv, hc⟩ := List.append_inj' h rfl
          obtain ⟨y, rfl, hy⟩ := ih hw' hv
          exact ⟨y, by simp [List.singleton_inj.mp hc], hy⟩
        · rw [hr, ← List.append_assoc] at h
          obtain ⟨-, hlast⟩ := List.append_inj' h rfl
          exact absurd hlast (by simpa using hm)

lemma escape_eq_self (hw : ∀ c ∈ w, escapeChar .inValue c = [c]) : escape .inValue w = w := by
  induction w with
  | nil => rfl
  | cons c w ih =>
      obtain ⟨hc, hw⟩ := List.forall_mem_cons.mp hw
      rw [escape, List.flatMap_cons, hc]
      exact congrArg (c :: ·) (ih hw)

/-- The codes of brackets hold no characters that are written as references, nor those that
references begin and end with. -/
lemma of_mem_code {code : List Char} (hcode : code ∈ ["%5b".toList, "%5d".toList])
    (hw : w.map Char.toLower = code) :
    '&' ∉ w ∧ ';' ∉ w ∧ '"' ∉ w ∧ ∀ c ∈ w, escapeChar .inValue c = [c] := by
  have hall : ∀ code ∈ ["%5b".toList, "%5d".toList],
      ('&' ∉ code ∧ ';' ∉ code) ∧ '"' ∉ code ∧ '\u00a0' ∉ code := by decide
  obtain ⟨⟨hamp, hsemi⟩, hquote, hblank⟩ := hall code hcode
  have hnot : ∀ m : Char, m.toLower = m → m ∉ code → m ∉ w := fun m hm hnot hmem =>
    hnot (hw ▸ hm ▸ List.mem_map_of_mem hmem)
  refine ⟨hnot '&' (by decide) hamp, hnot ';' (by decide) hsemi, hnot '"' (by decide) hquote,
    fun c hc => ?_⟩
  have hne : ∀ m : Char, m.toLower = m → m ∉ code → c ≠ m := fun m hm hm' heq =>
    hnot m hm hm' (heq ▸ hc)
  unfold escapeChar
  dsimp only
  rw [if_neg (hne '&' (by decide) hamp), if_neg (hne '\u00a0' (by decide) hblank),
    if_neg (hne '"' (by decide) hquote)]

/-- **Values are in coded brackets** exactly if they are written so. -/
lemma uncoded?_escape (v : List Char) :
    uncoded? (escape .inValue v) = (uncoded? v).map (escape .inValue) := by
  have hself : ∀ {code : List Char}, code ∈ ["%5b".toList, "%5d".toList] →
      ∀ {w : List Char}, w.map Char.toLower = code → escape .inValue w = w :=
    fun hcode _ hw => escape_eq_self (of_mem_code hcode hw).2.2.2
  cases hv : uncoded? v with
  | some b =>
      obtain ⟨o, c, h⟩ := exists_inCodes hv
      refine InCodes.uncoded?_eq ⟨?_, h.opening, h.closing⟩
      rw [h.eq, escape, List.flatMap_append, List.flatMap_append]
      exact congrArg₂ (· ++ escape .inValue b ++ ·) (hself (by simp) h.opening)
        (hself (by simp) h.closing)
  | none =>
      rw [Option.map_none, Option.eq_none_iff_forall_ne_some]
      intro b hb
      obtain ⟨o, c, h⟩ := exists_inCodes hb
      have heq := h.eq
      rw [List.append_assoc] at heq
      obtain ⟨y, rfl, hy⟩ :=
        exists_of_escape_append_left (of_mem_code (by simp) h.opening).1 heq
      obtain ⟨z, rfl, -⟩ :=
        exists_of_escape_append_right (of_mem_code (by simp) h.closing).2.1 hy
      have hcoded : InCodes (o ++ (z ++ c)) o z c := ⟨by simp, h.opening, h.closing⟩
      rw [hcoded.uncoded?_eq] at hv
      simp at hv

/-! ### Bracketed values -/

/-- The link with more text in front. -/
def BracketedLink.behind (x : List Char) (l : BracketedLink) : BracketedLink :=
  { l with lead := x ++ l.lead }

/-- A bracketed value: an `href`, in any letter case, with a quoted text in coded brackets. -/
structure BracketedLink.IsValue (l : BracketedLink) : Prop where
  lead : l.lead.map Char.toLower = "href=\"".toList
  opening : l.opening.map Char.toLower = "%5b".toList
  closing : l.closing.map Char.toLower = "%5d".toList
  body : '"' ∉ l.body

lemma BracketedLink.IsValue.inCodes (hl : l.IsValue) :
    InCodes (l.opening ++ l.body ++ l.closing) l.opening l.body l.closing :=
  ⟨rfl, hl.opening, hl.closing⟩

/-- **A bracketed value is found** where it stands. -/
lemma bracketedValue?_source (hl : l.IsValue) (s : List Char) :
    bracketedValue? (l.source ++ s) = some l := by
  have hquote := (of_mem_code (by simp) hl.closing).2.2.1
  have hh : l.lead.length = 6 := length_of_map hl.lead
  have ho : l.opening.length = 3 := length_of_map hl.opening
  have hc : l.closing.length = 3 := length_of_map hl.closing
  have hsource : l.source ++ s
      = l.lead ++ (l.opening ++ (l.body ++ l.closing ++ '"' :: s)) := by
    simp [BracketedLink.source]
  have hstarts : startsIgnoringCase "href=\"%5b".toList (l.source ++ s) = true := by
    have hmap : (l.lead ++ l.opening).map Char.toLower = "href=\"%5b".toList := by
      rw [List.map_append, hl.lead, hl.opening]
      decide
    rw [hsource, ← List.append_assoc]
    exact startsIgnoringCase_of_map hmap _
  have htake6 : (l.source ++ s).take 6 = l.lead := by
    rw [hsource, ← hh, List.take_left]
  have hdrop6 : (l.source ++ s).drop 6 = l.opening ++ (l.body ++ l.closing ++ '"' :: s) := by
    rw [hsource, ← hh, List.drop_left]
  have hopening : ((l.source ++ s).drop 6).take 3 = l.opening := by
    rw [hdrop6, ← ho, List.take_left]
  have hdrop9 : (l.source ++ s).drop 9 = l.body ++ l.closing ++ '"' :: s := by
    have hsplit : (l.source ++ s).drop (6 + 3) = ((l.source ++ s).drop 6).drop 3 :=
      List.drop_drop.symm
    rw [hsplit, hdrop6, ← ho, List.drop_left]
  have hvalue : (l.body ++ l.closing ++ '"' :: s).takeWhile (· ≠ '"') = l.body ++ l.closing := by
    rw [List.takeWhile_append_of_pos, List.takeWhile_cons_of_neg (by simp), List.append_nil]
    intro m hm
    rcases List.mem_append.mp hm with hm | hm
    · simpa using fun heq : m = '"' => hl.body (heq ▸ hm)
    · simpa using fun heq : m = '"' => hquote (heq ▸ hm)
  have hlast : (l.body ++ l.closing).length - 3 = l.body.length := by
    rw [List.length_append, hc, Nat.add_sub_cancel]
  have hclosing : startsIgnoringCase "%5d".toList l.closing = true := by
    simpa using startsIgnoringCase_of_map hl.closing []
  rw [bracketedValue?, if_pos hstarts, hdrop9, hvalue]
  dsimp only
  rw [hlast, List.drop_left, List.take_left, hclosing, htake6, hopening, if_pos]
  simp [hc]

/-- A text that goes on behind its longest part without quotation marks goes on with one. -/
lemma exists_of_takeWhile_ne (h : s.length ≠ (s.takeWhile (· ≠ '"')).length) :
    ∃ u v, s.takeWhile (· ≠ '"') = u ∧ '"' ∉ u ∧ s = u ++ '"' :: v := by
  have hsplit := List.takeWhile_append_dropWhile (p := (· ≠ '"')) (l := s)
  have hquote : '"' ∉ s.takeWhile (· ≠ '"') := fun hmem => by
    have := List.mem_takeWhile_imp hmem
    simp at this
  cases hdrop : s.dropWhile (· ≠ '"') with
  | nil =>
      rw [hdrop, List.append_nil] at hsplit
      exact absurd (by rw [hsplit]) h
  | cons m v =>
      have hm : m = '"' := by
        have := List.head?_dropWhile_not (· ≠ '"') s
        rw [hdrop] at this
        simpa using this
      rw [hdrop, hm] at hsplit
      exact ⟨_, v, rfl, hquote, hsplit.symm⟩

/-- What is found is a bracketed value at the start of the text. -/
lemma isValue_of_bracketedValue? (h : bracketedValue? s = some l) :
    l.IsValue ∧ ∃ y, s = l.source ++ y := by
  rw [bracketedValue?] at h
  split at h
  · next hstarts =>
      have hsplit : "href=\"%5b".toList = "href=\"".toList ++ "%5b".toList := by decide
      rw [hsplit] at hstarts
      obtain ⟨x, y, rfl, hx, hy⟩ := startsIgnoringCase_append hstarts
      obtain ⟨o, y', rfl, ho⟩ := startsIgnoringCase_iff.mp hy
      have hlx : x.length = 6 := length_of_map hx
      have hlo : o.length = 3 := length_of_map ho
      have hdrop9 : (x ++ (o ++ y')).drop 9 = y' := by
        have hlen : 9 = (x ++ o).length := by
          rw [List.length_append]
          omega
        rw [← List.append_assoc, hlen, List.drop_left]
      have htake6 : (x ++ (o ++ y')).take 6 = x := by rw [← hlx, List.take_left]
      have hopening : ((x ++ (o ++ y')).drop 6).take 3 = o := by
        rw [← hlx, List.drop_left, ← hlo, List.take_left]
      rw [hdrop9, htake6, hopening] at h
      dsimp only at h
      split at h
      · next hcond =>
          simp only [Bool.and_eq_true, decide_eq_true_eq] at hcond
          obtain ⟨⟨hends, hlen⟩, hclosing⟩ := hcond
          obtain ⟨u, v, hu, hquote, rfl⟩ := exists_of_takeWhile_ne hends
          rw [hu] at h hlen hclosing
          have hcodes := InCodes.of_ends ho hlen hclosing
          obtain rfl := Option.some.inj h
          refine ⟨⟨hx, ho, hcodes.closing, fun hmem => hquote (List.mem_of_mem_take hmem)⟩, v, ?_⟩
          have hbody := List.take_append_drop (u.length - 3) u
          simp only [BracketedLink.source, List.append_assoc, List.singleton_append]
          rw [← List.append_assoc (u.take _), hbody]
      · simp at h
  · simp at h

/-- In front of a bracketed value stands a quotation mark. -/
lemma BracketedLink.IsValue.exists_lead (hl : l.IsValue) :
    ∃ x, l.lead = x ++ ['"'] ∧ x.map Char.toLower = "href=".toList := by
  have hsplit : "href=\"".toList = "href=".toList ++ ['"'] := by decide
  obtain ⟨x, q, hlead, hx, hq⟩ := List.map_eq_append_iff.mp (hl.lead.trans hsplit)
  obtain ⟨m, rfl, hm⟩ := List.map_eq_singleton_iff.mp hq
  obtain rfl := eq_of_toLower_lt (by decide) hm
  exact ⟨x, hlead, hx⟩

/-- A bracketed value from quotation mark to quotation mark. -/
lemma exists_quoted_of_bracketedValue? (h : bracketedValue? s = some l) :
    ∃ x u y, s = x ++ '"' :: (u ++ '"' :: y) ∧ x.map Char.toLower = "href=".toList ∧ '"' ∉ u
      ∧ (uncoded? u).isSome := by
  obtain ⟨hl, y, rfl⟩ := isValue_of_bracketedValue? h
  obtain ⟨x, hlead, hx⟩ := hl.exists_lead
  refine ⟨x, l.opening ++ l.body ++ l.closing, y, ?_, hx, ?_, by rw [hl.inCodes.uncoded?_eq]; rfl⟩
  · rw [BracketedLink.source, hlead]
    simp
  · simp [(of_mem_code (by simp) hl.opening).2.2.1, hl.body,
      (of_mem_code (by simp) hl.closing).2.2.1]

/-! ### Links -/

@[simp] lemma BracketedLink.source_behind (x : List Char) (l : BracketedLink) :
    (l.behind x).source = x ++ l.source := by
  simp [source, behind]

lemma BracketedLink.length_source_pos (l : BracketedLink) : 0 < l.source.length := by
  rw [source, List.length_append]
  exact Nat.succ_pos _

@[simp] lemma BracketedLink.restored_behind (x : List Char) (l : BracketedLink) :
    (l.behind x).restored = x ++ l.restored := by
  simp [restored, behind]

/-- A link in coded brackets as it is written: `<a`, a stretch without `>` that begins and ends in a
blank, and a bracketed value. -/
inductive BracketedLink.IsLink : BracketedLink → Prop
  | behind {a : Char} {w : List Char} {l : BracketedLink} (ha : a.toLower = 'a')
      (hfirst : w.head?.any isBlank = true) (hlast : w.getLast?.any isBlank = true) (hw : '>' ∉ w)
      (hl : l.IsValue) : IsLink (l.behind ('<' :: a :: w))

lemma ne_of_isBlank {m : Char} (hm : isBlank m = true) : m ≠ '>' := by
  rintro rfl
  exact absurd hm (by decide)

/-- What is found behind a blank is a bracketed value. -/
lemma exists_value_of_bracketedValueLater? (h : bracketedValueLater? s = some l) :
    ∃ (x : List Char) (m : Char) (v : BracketedLink) (y : List Char), '>' ∉ x ∧ isBlank m = true
      ∧ v.IsValue ∧ l = v.behind (x ++ [m]) ∧ s = l.source ++ y := by
  induction s generalizing l with
  | nil => simp [bracketedValueLater?] at h
  | cons c s ih =>
      rw [bracketedValueLater?] at h
      split at h
      · simp at h
      · next hc =>
          split at h
          · next l' hl' =>
              obtain rfl := Option.some.inj h
              split at hl'
              · next hblank =>
                  obtain ⟨hvalue, y, rfl⟩ := isValue_of_bracketedValue? hl'
                  exact ⟨[], c, l', y, by simp, hblank, hvalue, rfl, by
                    simp [BracketedLink.source, BracketedLink.after]⟩
              · simp at hl'
          · obtain ⟨l', hl', rfl⟩ := Option.map_eq_some_iff.mp h
            obtain ⟨x, m, v, y, hx, hm, hvalue, rfl, rfl⟩ := ih hl'
            refine ⟨c :: x, m, v, y, ?_, hm, hvalue, rfl, ?_⟩
            · simp [hx, Ne.symm hc]
            · simp [BracketedLink.source, BracketedLink.after, BracketedLink.behind]

/-- Behind a blank a bracketed value is found if no `>` stands in front. -/
lemma isSome_bracketedValueLater? {m : Char} (hx : '>' ∉ x) (hm : isBlank m = true)
    (hl : l.IsValue) (s : List Char) :
    (bracketedValueLater? (x ++ m :: (l.source ++ s))).isSome = true := by
  induction x with
  | nil =>
      rw [List.nil_append, bracketedValueLater?, if_neg (ne_of_isBlank hm), if_pos hm,
        bracketedValue?_source hl]
      rfl
  | cons d x ih =>
      obtain ⟨hd, hx⟩ := not_or.mp (List.mem_cons.not.mp hx)
      rw [List.cons_append, bracketedValueLater?, if_neg (Ne.symm hd)]
      split
      · rfl
      · rw [Option.isSome_map]
        exact ih hx

/-- **What is found is a link** at the start of the text. -/
lemma isLink_of_bracketedLink? (h : bracketedLink? s = some l) :
    l.IsLink ∧ ∃ y, s = l.source ++ y := by
  match s, h with
  | [], h | [_], h | [_, _], h => simp [bracketedLink?] at h
  | c :: a :: m :: s, h =>
      by_cases hc : c = '<'
      · subst hc
        rw [bracketedLink?] at h
        split at h
        · next hcond =>
            rw [Bool.and_eq_true, decide_eq_true_eq] at hcond
            obtain ⟨ha, hm⟩ := hcond
            have hbracket := (ne_of_isBlank hm).symm
            obtain ⟨l', hl', rfl⟩ := Option.map_eq_some_iff.mp h
            rcases Option.or_eq_some_iff.mp hl' with hl' | ⟨-, hl'⟩
            · obtain ⟨x, m', v, y, hx, hm', hvalue, rfl, rfl⟩ :=
                exists_value_of_bracketedValueLater? hl'
              have hlast : (m :: (x ++ [m'])).getLast?.any isBlank = true := by
                rw [← List.cons_append, List.getLast?_concat, Option.any_some, hm']
              have hlink : BracketedLink.IsLink (v.behind ('<' :: a :: (m :: (x ++ [m'])))) :=
                .behind ha (by simpa using hm) hlast
                  (by simp [hbracket, hx, (ne_of_isBlank hm').symm]) hvalue
              exact ⟨hlink, y, by simp [BracketedLink.source, BracketedLink.after]⟩
            · obtain ⟨hvalue, y, rfl⟩ := isValue_of_bracketedValue? hl'
              have hlink : BracketedLink.IsLink (l'.behind ('<' :: a :: [m])) :=
                .behind ha (by simpa using hm) (by simpa using hm) (by simp [hbracket]) hvalue
              exact ⟨hlink, y, by simp [BracketedLink.source, BracketedLink.after]⟩
        · simp at h
      · simp [bracketedLink?, hc] at h

/-- **A link is found** where it stands, or another one that begins there. -/
lemma isSome_bracketedLink? (hl : l.IsLink) (s : List Char) :
    (bracketedLink? (l.source ++ s)).isSome = true := by
  obtain @⟨a, w, l, ha, hfirst, hlast, hw, hl⟩ := hl
  cases w with
  | nil => simp at hfirst
  | cons m w =>
      have hm : isBlank m = true := by simpa using hfirst
      have hsource : (l.behind ('<' :: a :: m :: w)).source ++ s
          = '<' :: a :: m :: (w ++ (l.source ++ s)) := by
        simp
      rw [hsource, bracketedLink?, if_pos (by simp [ha, hm]), Option.isSome_map,
        Option.isSome_or, Bool.or_eq_true]
      rcases List.eq_nil_or_concat w with rfl | ⟨x, m', rfl⟩
      · refine .inr ?_
        rw [List.nil_append, bracketedValue?_source hl]
        rfl
      · have hm' : isBlank m' = true := by
          rwa [List.concat_eq_append, ← List.cons_append, List.getLast?_concat] at hlast
        have hx : '>' ∉ x := fun hmem => hw (by simp [hmem])
        have hfound := isSome_bracketedValueLater? hx hm' hl s
        exact .inl (by simpa using hfound)

end RichText
