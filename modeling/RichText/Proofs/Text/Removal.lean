import RichText.Proofs.Text.Occurrences

/-!
Texts from which a part has been taken out.

A part is taken out wherever it stands, in one go from left to right. What is left on both sides
is joined, and can be the part again, or another text that was not there before.

* `Straddles`: whether a part can begin in one text and end in the next;
* `replaceAll_append_of_not_straddles`: **texts are gone through one after the other** where it
  cannot;
* `Interspersed`: a text into which a part has been put, between pieces without it;
* `interspersed_replaceAll`, `Interspersed.replaceAll_eq`: taking the part out undoes that;
* `infix_replaceAll_iff`: **what is left over** when a part in angle brackets has been taken out.
-/

namespace RichText

variable {part s t a b u v x y : List Char} {c : Char}

/-! ### Between two texts -/

/-- Whether an occurrence of the part can begin in `a` and end in `b` if that follows. -/
def Straddles (part a b : List Char) : Prop :=
  ∃ p q, p ≠ [] ∧ q ≠ [] ∧ part = p ++ q ∧ p <:+ a ∧ q <+: b

lemma infix_append_iff_of_not_straddles (hnot : ¬ Straddles part a b) :
    part <:+: a ++ b ↔ part <:+: a ∨ part <:+: b := by
  rw [List.infix_append_iff_ne_nil, ← Straddles]
  tauto

lemma Straddles.of_cons (h : Straddles part a b) (c : Char) : Straddles part (c :: a) b := by
  obtain ⟨p, q, hp, hq, heq, hpa, hqb⟩ := h
  exact ⟨p, q, hp, hq, heq, hpa.trans (List.suffix_cons c a), hqb⟩

/-- A part at the start of two texts is at the start of the first if it does not reach into the
second. -/
lemma isPrefixOf_append_of_not_straddles (hne : a ≠ []) (hnot : ¬ Straddles part a b) :
    part.isPrefixOf (a ++ b) = part.isPrefixOf a := by
  rw [Bool.eq_iff_iff, isPrefixOf_eq_true_iff, isPrefixOf_eq_true_iff]
  constructor
  · rintro ⟨y, hy⟩
    rcases List.append_eq_append_iff.mp hy with ⟨w, rfl, hw⟩ | ⟨w, rfl, hw⟩
    · cases w with
      | nil => exact ⟨[], by simp⟩
      | cons d w =>
          exact absurd ⟨a, d :: w, hne, by simp, rfl, List.suffix_refl a, y, hw.symm⟩ hnot
    · exact ⟨w, rfl⟩
  · rintro ⟨y, rfl⟩
    exact ⟨y ++ b, by simp⟩

/-- Two texts are gone through one after the other, also from within an occurrence. -/
lemma replaceFrom_append_of_not_straddles (hnot : ¬ Straddles part a b) (new : List Char) :
    ∀ skip ≤ a.length, replaceFrom part new skip (a ++ b)
      = replaceFrom part new skip a ++ replaceFrom part new 0 b := by
  induction a with
  | nil =>
      intro skip hskip
      obtain rfl := Nat.le_zero.mp hskip
      simp [replaceFrom]
  | cons c a ih =>
      have hrest := ih fun h => hnot (h.of_cons c)
      rintro (_ | skip) hskip
      · have hsame := isPrefixOf_append_of_not_straddles (by simp) hnot
        rw [List.cons_append] at hsame ⊢
        rw [replaceFrom, replaceFrom, hsame]
        split
        · next hp =>
            obtain ⟨y, hy⟩ := isPrefixOf_eq_true_iff.mp hp
            have hlength := congrArg List.length hy
            rw [List.length_cons, List.length_append] at hlength
            rw [hrest _ (by omega), List.append_assoc]
        · rw [hrest 0 (Nat.zero_le _), List.cons_append]
      · rw [List.cons_append, replaceFrom, replaceFrom]
        exact hrest skip (Nat.le_of_succ_le_succ hskip)

/-- **Two texts are gone through one after the other** if no occurrence of the part can begin in
the first and end in the second. -/
theorem replaceAll_append_of_not_straddles (hne : part ≠ []) (hnot : ¬ Straddles part a b)
    (new : List Char) :
    replaceAll part new (a ++ b) = replaceAll part new a ++ replaceAll part new b := by
  have hpart : ¬ part.isEmpty := by simpa using hne
  simp only [replaceAll, if_neg hpart]
  exact replaceFrom_append_of_not_straddles hnot new 0 (Nat.zero_le _)

/-- A part that does not overlap itself does not begin in front of where it stands. -/
lemma Unbordered.not_straddles (hu : Unbordered part) (a b : List Char) :
    ¬ Straddles part a (part ++ b) := by
  rintro ⟨p, q, hp, hq, heq, -, hqb⟩
  have hqpart : q <+: part := by
    refine List.prefix_of_prefix_length_le hqb (List.prefix_append part b) ?_
    rw [heq, List.length_append]
    exact Nat.le_add_left ..
  have hlength : part.length = p.length + q.length := by rw [heq, List.length_append]
  have hp' := List.length_pos_iff.mpr hp
  have hq' := List.length_pos_iff.mpr hq
  refine hu p.length (by omega) hp' ?_
  calc part.drop p.length
      = q := by rw [heq, List.drop_left]
    _ = part.take q.length := List.prefix_iff_eq_take.mp hqpart
    _ = part.take (part.length - p.length) := by rw [hlength, Nat.add_sub_cancel_left]

/-- An occurrence does not reach into a text whose first character the part has only as its own
first. -/
lemma not_straddles_of_head (hb : ∀ c ∈ b.head?, c ∉ part.tail) (a : List Char) :
    ¬ Straddles part a b := by
  rintro ⟨p, q, hp, hq, rfl, -, hqb⟩
  obtain ⟨d, q, rfl⟩ := List.exists_cons_of_ne_nil hq
  obtain ⟨b', rfl⟩ := hqb
  obtain ⟨d', p, rfl⟩ := List.exists_cons_of_ne_nil hp
  exact hb d rfl (by simp)

/-- An occurrence does not begin in a text whose last character the part has only as its own
last. -/
lemma not_straddles_of_last (ha : ∀ c ∈ a.getLast?, c ∉ part.dropLast) (b : List Char) :
    ¬ Straddles part a b := by
  rintro ⟨p, q, hp, hq, rfl, hpa, -⟩
  obtain ⟨a', rfl⟩ := hpa
  obtain ⟨p, d, rfl⟩ := (List.eq_nil_or_concat p).resolve_left hp
  refine ha d (by simp) ?_
  rw [List.dropLast_append_of_ne_nil hq]
  simp

/-- An occurrence does not begin in a text that does not end like any beginning of the part. -/
lemma not_straddles_of_take (ha : ∀ k < part.length, 0 < k → ¬ part.take k <:+ a) (b : List Char) :
    ¬ Straddles part a b := by
  rintro ⟨p, q, hp, hq, rfl, hpa, -⟩
  have hlength : p.length < (p ++ q).length := by
    rw [List.length_append]
    exact Nat.lt_add_of_pos_right (List.length_pos_iff.mpr hq)
  refine ha p.length hlength (List.length_pos_iff.mpr hp) ?_
  rwa [List.take_left]

/-- The first occurrence is looked for in the second of two texts if there is none in the first. -/
lemma splitFirst?_append_of_not_straddles (ha : ¬ part <:+: a)
    (hnot : ¬ Straddles part a b) :
    splitFirst? part (a ++ b) = (splitFirst? part b).map fun x => (a ++ x.1, x.2) := by
  induction a with
  | nil => simp
  | cons c a ih =>
      have hprefix : ¬ part.isPrefixOf (c :: (a ++ b)) := by
        rw [← List.cons_append, isPrefixOf_append_of_not_straddles (List.cons_ne_nil c a) hnot,
          List.isPrefixOf_iff_prefix]
        exact fun hpre => ha hpre.isInfix
      rw [List.cons_append, splitFirst?, if_neg hprefix,
        ih (fun hin => ha (hin.trans (List.suffix_cons c a).isInfix)) fun h => hnot (h.of_cons c),
        Option.map_map]
      rfl

/-! ### A part put in and taken out -/

/-- `y` is `x` with the part put in between pieces that do not hold it. -/
inductive Interspersed (part : List Char) : List Char → List Char → Prop
  | whole {x : List Char} (hx : ¬ part <:+: x) : Interspersed part x x
  | piece {p x y : List Char} (hp : ¬ part <:+: p) (hxy : Interspersed part x y) :
      Interspersed part (p ++ x) (p ++ part ++ y)

/-- Taking the part out undoes putting it in. -/
lemma Interspersed.replaceAll_eq (hne : part ≠ []) (hu : Unbordered part)
    (hxy : Interspersed part x y) : replaceAll part [] y = x := by
  induction hxy with
  | whole hx => exact replaceAll_eq_self hne hx []
  | @piece p x y hp _ ih =>
      rw [List.append_assoc, replaceAll_append_of_not_straddles hne (hu.not_straddles p y),
        replaceAll_eq_self hne hp, replaceAll_part_append hne, List.nil_append, ih]

/-- A text is what is left of it with the part put in. -/
lemma interspersed_replaceAll (hne : part ≠ []) (hu : Unbordered part) (s : List Char) :
    Interspersed part (replaceAll part [] s) s := by
  -- by induction on the length, from one occurrence to the next
  induction hn : s.length using Nat.strong_induction_on generalizing s with
  | _ n ih =>
      cases hs : splitFirst? part s with
      | none =>
          have hnot : ¬ part <:+: s := by
            rw [← occurs_iff, occurs, hs]
            simp
          rw [replaceAll_eq_self hne hnot]
          exact .whole hnot
      | some found =>
          obtain ⟨p, rest⟩ := found
          have heq := append_of_splitFirst? hs
          have hpart := List.length_pos_iff.mpr hne
          have hp : ¬ part <:+: p := by
            rintro ⟨p', z, hz⟩
            have hle := length_le_of_splitFirst? hs (x := p') (y := z ++ part ++ rest) (by
              rw [← heq, ← hz]
              simp)
            rw [← hz, List.length_append, List.length_append] at hle
            omega
          have hlength := congrArg List.length heq
          rw [List.length_append, List.length_append] at hlength
          have hrest := Interspersed.piece hp (ih rest.length (by omega) rest rfl)
          have hleft := hrest.replaceAll_eq hne hu
          rw [heq] at hrest hleft
          rwa [← hleft] at hrest

/-! ### Parts of what is left -/

/-- What is left at the end comes from the end. -/
lemma Interspersed.exists_behind (hxy : Interspersed part x y) :
    ∀ u t, x = u ++ t → ∃ z, Interspersed part t z ∧ z <:+ y := by
  induction hxy with
  | whole hx =>
      rintro u t rfl
      exact ⟨t, .whole fun h => hx (h.trans List.infix_append_right), List.suffix_append ..⟩
  | @piece p x y hp hxy ih =>
      intro u t heq
      rcases List.append_eq_append_iff.mp heq with ⟨w, rfl, hw⟩ | ⟨w, rfl, rfl⟩
      · obtain ⟨z, hz, hsuffix⟩ := ih w t hw
        exact ⟨z, hz, hsuffix.trans (List.suffix_append ..)⟩
      · exact ⟨w ++ part ++ y, .piece (fun h => hp (h.trans List.infix_append_right)) hxy,
          u, by simp⟩

/-- What is left at the start comes from the start. -/
lemma Interspersed.exists_front (hxy : Interspersed part x y) :
    ∀ t v, x = t ++ v → ∃ z, Interspersed part t z ∧ z <+: y := by
  induction hxy with
  | whole hx =>
      rintro t v rfl
      exact ⟨t, .whole fun h => hx (h.trans List.infix_append_left), List.prefix_append ..⟩
  | @piece p x y hp hxy ih =>
      intro t v heq
      rcases List.append_eq_append_iff.mp heq with ⟨w, rfl, hw⟩ | ⟨w, rfl, rfl⟩
      · obtain ⟨z, hz, hprefix⟩ := ih w v hw
        exact ⟨p ++ part ++ z, .piece hp hz, (List.prefix_append_right_inj _).mpr hprefix⟩
      · refine ⟨t, .whole fun h => hp (h.trans List.infix_append_left), ?_⟩
        rw [List.append_assoc, List.append_assoc]
        exact List.prefix_append ..

/-- What is left somewhere comes from somewhere. -/
lemma Interspersed.exists_within (hxy : Interspersed part x y) (ht : t <:+: x) :
    ∃ z, Interspersed part t z ∧ z <:+: y := by
  obtain ⟨u, v, rfl⟩ := ht
  obtain ⟨z, hz, hsuffix⟩ := hxy.exists_behind u (t ++ v) (by simp)
  obtain ⟨z', hz', hprefix⟩ := hz.exists_front t v rfl
  exact ⟨z', hz', hprefix.isInfix.trans hsuffix.isInfix⟩

/-! ### Angle brackets -/

/-- A text that begins and ends with angle brackets. -/
structure Angled (s : List Char) : Prop where
  ne_nil : s ≠ []
  head : ∀ c ∈ s.head?, c = '<'
  last : ∀ c ∈ s.getLast?, c = '>'

/-- A text in angle brackets that has none inside. -/
def InAngles (s : List Char) : Prop :=
  ∃ inner, s = '<' :: (inner ++ ['>']) ∧ '<' ∉ inner ∧ '>' ∉ inner

namespace InAngles

lemma angled (hs : InAngles s) : Angled s := by
  obtain ⟨inner, rfl, -⟩ := hs
  refine ⟨by simp, by simp, ?_⟩
  rw [← List.cons_append, List.getLast?_concat]
  simp

/-- Behind its start a text in angle brackets has no opening one. -/
lemma notMem_opening (hs : InAngles (u ++ v)) (hu : u ≠ []) : '<' ∉ v := by
  obtain ⟨inner, heq, hopen, -⟩ := hs
  obtain ⟨d, u, rfl⟩ := List.exists_cons_of_ne_nil hu
  have hv : u ++ v = inner ++ ['>'] := (List.cons.inj heq).2
  intro hmem
  have hin : '<' ∈ inner ++ ['>'] := hv ▸ List.mem_append_right u hmem
  simp [hopen] at hin

/-- In front of its end a text in angle brackets has no closing one. -/
lemma notMem_closing (hs : InAngles (u ++ v)) (hv : v ≠ []) : '>' ∉ u := by
  obtain ⟨inner, heq, -, hclose⟩ := hs
  obtain ⟨v, d, rfl⟩ := (List.eq_nil_or_concat v).resolve_left hv
  rw [List.concat_eq_append, ← List.append_assoc, ← List.cons_append] at heq
  have hu : u ++ v = '<' :: inner := (List.append_inj' heq rfl).1
  intro hmem
  have hin : '>' ∈ '<' :: inner := hu ▸ List.mem_append_left v hmem
  simp [hclose] at hin

lemma unbordered (hs : InAngles s) : Unbordered s := by
  intro k hk hpos heq
  have hsplit : InAngles (s.take k ++ s.drop k) := by rwa [List.take_append_drop]
  have htake : s.take k ≠ [] := by
    rw [ne_eq, List.take_eq_nil_iff, not_or]
    exact ⟨by omega, hs.angled.ne_nil⟩
  refine hsplit.notMem_opening htake ?_
  obtain ⟨m, hm⟩ : ∃ m, s.length - k = m + 1 := ⟨s.length - k - 1, by omega⟩
  rw [heq, hm]
  obtain ⟨inner, rfl, -⟩ := hs
  exact List.mem_cons_self

/-- A text in angle brackets does not reach into one that begins with such a bracket. -/
lemma not_straddles_of_head (hs : InAngles s) (hb : ∀ c ∈ b.head?, c = '<') (a : List Char) :
    ¬ Straddles s a b := by
  obtain ⟨d, s, rfl⟩ := List.exists_cons_of_ne_nil hs.angled.ne_nil
  refine RichText.not_straddles_of_head (fun c hc => ?_) a
  rw [hb c hc]
  exact hs.notMem_opening (u := [d]) (by simp)

/-- A text in angle brackets does not begin in one that ends with such a bracket. -/
lemma not_straddles_of_last (hs : InAngles s) (ha : ∀ c ∈ a.getLast?, c = '>') (b : List Char) :
    ¬ Straddles s a b := by
  have hsplit := List.dropLast_concat_getLast hs.angled.ne_nil
  refine RichText.not_straddles_of_last (fun c hc => ?_) b
  rw [ha c hc]
  exact notMem_closing (v := [s.getLast _]) (hsplit.symm ▸ hs) (by simp)

end InAngles

/-! ### What is left over -/

namespace Interspersed

lemma head_eq (hpart : InAngles part) (hxy : Interspersed part x y)
    (hx : ∀ c ∈ x.head?, c = '<') : ∀ c ∈ y.head?, c = '<' := by
  cases hxy with
  | whole => exact hx
  | @piece p =>
      cases p with
      | nil =>
          obtain ⟨inner, rfl, -⟩ := hpart
          simp
      | cons d p => exact hx

lemma last_eq (hpart : InAngles part) (hxy : Interspersed part x y)
    (hx : ∀ c ∈ x.getLast?, c = '>') : ∀ c ∈ y.getLast?, c = '>' := by
  induction hxy with
  | whole => exact hx
  | @piece p x y _ _ ih =>
      have hrest := ih fun c hc => hx c (by
        rw [List.getLast?_append, Option.mem_def.mp hc]
        rfl)
      intro c hc
      rw [List.getLast?_append] at hc
      cases hy : y.getLast? with
      | some d =>
          rw [hy] at hc
          exact hrest c (hy ▸ hc)
      | none =>
          rw [hy, Option.none_or, List.getLast?_append] at hc
          rw [List.getLast?_eq_some_getLast hpart.angled.ne_nil, Option.some_or,
            ← List.getLast?_eq_some_getLast] at hc
          exact hpart.angled.last c hc

/-- Putting a text in angle brackets into one leaves the ends of that in such brackets. -/
lemma angled (hpart : InAngles part) (hxy : Interspersed part x y) (hx : Angled x) :
    Angled y where
  ne_nil := by
    cases hxy with
    | whole => exact hx.ne_nil
    | piece => simp [hpart.angled.ne_nil]
  head := hxy.head_eq hpart hx.head
  last := hxy.last_eq hpart hx.last

end Interspersed

/-- **What is left over when a part has been taken out**: both in angle brackets, a text is there
afterwards if it was there with the part put in. -/
theorem infix_replaceAll_iff (hpart : InAngles part) (hx : Angled x) :
    x <:+: replaceAll part [] s ↔ ∃ y, Interspersed part x y ∧ y <:+: s := by
  have hne := hpart.angled.ne_nil
  have hu := hpart.unbordered
  constructor
  · exact fun h => (interspersed_replaceAll hne hu s).exists_within h
  · rintro ⟨y, hxy, u, v, rfl⟩
    have hy := hxy.angled hpart hx
    have hleft : ¬ Straddles part u (y ++ v) := by
      refine hpart.not_straddles_of_head (fun c hc => hy.head c ?_) u
      rwa [List.head?_append_of_ne_nil _ hy.ne_nil] at hc
    rw [List.append_assoc, replaceAll_append_of_not_straddles hne hleft,
      replaceAll_append_of_not_straddles hne (hpart.not_straddles_of_last hy.last v),
      hxy.replaceAll_eq hne hu]
    exact ⟨_, _, List.append_assoc ..⟩

end RichText
