import Mathlib.Data.List.Infix
import RichText.Text.Find

/-!
Occurrences of a fixed text.

A text of which no proper end is a start cannot overlap itself (`Unbordered`). In a text put
together around such a part, every other occurrence lies on one side of it, so that it is found
where it has been put.

* `splitFirst?_append`, `splitLast?_append`: the part is found unless it occurs before or behind;
* `length_le_of_splitFirst?`, `length_le_of_splitLast?`: no occurrence starts earlier or later;
* `occurs_iff`: occurrences as infixes;
* `replaceAll_eq_self`: nothing is replaced where there is no occurrence.
-/

namespace RichText

variable {part s a b x y : List Char}

/-- No proper end of the text is also its start. -/
def Unbordered (part : List Char) : Prop :=
  ∀ k < part.length, 0 < k → part.drop k ≠ part.take (part.length - k)

instance (part : List Char) : Decidable (Unbordered part) := by
  unfold Unbordered
  infer_instance

/-! ### Where an occurrence can be -/

/-- An occurrence that starts earlier has ended before. -/
lemma Unbordered.eq_of_length_lt (hu : Unbordered part)
    (heq : a ++ part ++ b = x ++ part ++ y) (hlt : x.length < a.length) :
    ∃ z, a = x ++ part ++ z := by
  obtain ⟨d, rfl⟩ : x <+: a := by
    refine List.prefix_of_prefix_length_le (show x <+: a ++ part ++ b from ?_) ?_
      (Nat.le_of_lt hlt)
    · rw [heq, List.append_assoc]
      exact List.prefix_append ..
    · rw [List.append_assoc]
      exact List.prefix_append ..
  have hd : 0 < d.length := by
    rw [List.length_append] at hlt
    omega
  have hrest : d ++ (part ++ b) = part ++ y := by simpa using heq
  by_cases hle : part.length ≤ d.length
  · obtain ⟨z, rfl⟩ : part <+: d := by
      refine List.prefix_of_prefix_length_le (List.prefix_append part y) ?_ hle
      rw [← hrest]
      exact List.prefix_append ..
    exact ⟨z, by simp⟩
  · -- the part would start with its own end behind `d`
    have hk : d.length < part.length := Nat.lt_of_not_le hle
    have h1 : part.drop d.length = (part ++ b).take (part.length - d.length) := by
      have := congrArg (fun l => (l.drop d.length).take (part.length - d.length)) hrest
      simpa [List.drop_append_of_le_length hk.le, List.take_append_of_le_length] using this.symm
    rw [List.take_append_of_le_length (by omega)] at h1
    exact absurd h1 (hu d.length hk hd)

/-- An occurrence that starts later starts behind. -/
lemma Unbordered.eq_of_lt_length (hu : Unbordered part)
    (heq : a ++ part ++ b = x ++ part ++ y) (hlt : a.length < x.length) :
    ∃ z, b = z ++ part ++ y := by
  obtain ⟨z, rfl⟩ := hu.eq_of_length_lt heq.symm hlt
  refine ⟨z, ?_⟩
  simpa using heq

/-! ### What is found -/

lemma isPrefixOf_eq_true_iff : part.isPrefixOf s = true ↔ ∃ y, s = part ++ y := by
  rw [List.isPrefixOf_iff_prefix]
  exact ⟨fun ⟨y, hy⟩ => ⟨y, hy.symm⟩, fun ⟨y, hy⟩ => ⟨y, hy.symm⟩⟩

lemma isSome_splitFirst?_append (part x y : List Char) :
    (splitFirst? part (x ++ part ++ y)).isSome := by
  induction x with
  | nil =>
      have hp : part.isPrefixOf (part ++ y) = true := isPrefixOf_eq_true_iff.mpr ⟨y, rfl⟩
      rw [List.nil_append]
      cases hs : part ++ y with
      | nil =>
          have hpart : part = [] := (List.append_eq_nil_iff.mp hs).1
          simp [splitFirst?, hpart]
      | cons c cs =>
          rw [hs] at hp
          rw [splitFirst?, if_pos hp]
          rfl
  | cons c x ih =>
      rw [List.cons_append, List.cons_append, splitFirst?]
      split
      · rfl
      · rwa [Option.isSome_map]

lemma isSome_splitLast?_append (part x y : List Char) :
    (splitLast? part (x ++ part ++ y)).isSome := by
  induction x with
  | nil =>
      have hp : part.isPrefixOf (part ++ y) = true := isPrefixOf_eq_true_iff.mpr ⟨y, rfl⟩
      rw [List.nil_append]
      cases hs : part ++ y with
      | nil =>
          have hpart : part = [] := (List.append_eq_nil_iff.mp hs).1
          simp [splitLast?, hpart]
      | cons c cs =>
          rw [hs] at hp
          rw [splitLast?]
          split
          · rfl
          · rw [if_pos hp]
            rfl
  | cons c x ih =>
      obtain ⟨⟨before, after⟩, hr⟩ := Option.isSome_iff_exists.mp ih
      rw [List.cons_append, List.cons_append, splitLast?, hr]
      rfl

/-- An occurrence is an infix. -/
lemma occurs_iff : occurs part s = true ↔ part <:+: s := by
  constructor
  · intro hs
    obtain ⟨⟨before, after⟩, hr⟩ := Option.isSome_iff_exists.mp hs
    exact ⟨before, after, append_of_splitFirst? hr⟩
  · rintro ⟨x, y, rfl⟩
    exact isSome_splitFirst?_append part x y

/-- What is found first starts no later than any occurrence. -/
lemma length_le_of_splitFirst? (hs : splitFirst? part s = some (a, b))
    (heq : s = x ++ part ++ y) : a.length ≤ x.length := by
  induction s generalizing a x with
  | nil =>
      rw [splitFirst?] at hs
      split at hs
      · simp_all
      · simp at hs
  | cons c cs ih =>
      rw [splitFirst?] at hs
      split at hs
      · obtain ⟨rfl, rfl⟩ := by simpa using hs
        simp
      · next hp =>
          obtain ⟨⟨a', b'⟩, hs', hab⟩ := Option.map_eq_some_iff.mp hs
          obtain ⟨rfl, rfl⟩ := Prod.mk.inj hab
          cases x with
          | nil => exact absurd (isPrefixOf_eq_true_iff.mpr ⟨y, by simpa using heq⟩) hp
          | cons d x =>
              have := ih hs' (List.cons.inj heq).2
              simpa using this

/-- Whatever stands behind an occurrence stands behind the first one. -/
lemma suffix_of_splitFirst? (hs : splitFirst? part s = some (a, b))
    (heq : s = x ++ part ++ y) : y <:+ b := by
  have hle := length_le_of_splitFirst? hs heq
  have hab : a ++ part ++ b = s := append_of_splitFirst? hs
  refine List.suffix_of_suffix_length_le (show y <:+ s from ⟨x ++ part, heq.symm⟩)
    ⟨a ++ part, hab⟩ ?_
  have := congrArg List.length (hab.trans heq)
  simp only [List.length_append] at this
  omega

/-- What is found last starts no earlier than any occurrence. -/
lemma length_le_of_splitLast? (hs : splitLast? part s = some (a, b))
    (heq : s = x ++ part ++ y) : x.length ≤ a.length := by
  induction s generalizing a x with
  | nil =>
      have : x = [] := by
        have := congrArg List.length heq
        simp only [List.length_nil, List.length_append] at this
        exact List.length_eq_zero_iff.mp (by omega)
      simp [this]
  | cons c cs ih =>
      rw [splitLast?] at hs
      cases x with
      | nil => simp
      | cons d x =>
          have hcs : cs = x ++ part ++ y := (List.cons.inj heq).2
          cases hrec : splitLast? part cs with
          | none =>
              have := isSome_splitLast?_append part x y
              rw [← hcs, hrec] at this
              simp at this
          | some r =>
              rw [hrec] at hs
              obtain ⟨rfl, rfl⟩ := by simpa using hs
              have := ih hrec hcs
              simpa using this

/-- A part is found first where it stands, unless it occurs before. -/
lemma splitFirst?_append (hu : Unbordered part) (ha : ¬ part <:+: a) (b : List Char) :
    splitFirst? part (a ++ part ++ b) = some (a, b) := by
  obtain ⟨⟨a', b'⟩, hr⟩ := Option.isSome_iff_exists.mp (isSome_splitFirst?_append part a b)
  have heq : a ++ part ++ b = a' ++ part ++ b' := (append_of_splitFirst? hr).symm
  have hle := length_le_of_splitFirst? hr rfl
  have hlen : a.length = a'.length := by
    by_contra hne
    obtain ⟨z, hz⟩ := hu.eq_of_length_lt heq (by omega)
    exact ha ⟨a', z, hz.symm⟩
  obtain ⟨h1, h2⟩ := List.append_inj heq (by simp [hlen])
  rw [hr, h2, List.append_cancel_right h1]

/-- If a part occurs in front of where it stands, the first of those occurrences is found. -/
lemma splitFirst?_append_of_infix (hu : Unbordered part) (hne : 0 < part.length)
    (ha : part <:+: a) (b : List Char) :
    ∃ x z, a = x ++ part ++ z ∧ splitFirst? part (a ++ part ++ b) = some (x, z ++ part ++ b) := by
  obtain ⟨u, v, rfl⟩ := ha
  obtain ⟨⟨x, y⟩, hr⟩ := Option.isSome_iff_exists.mp
    (isSome_splitFirst?_append part (u ++ part ++ v) b)
  have heq : u ++ part ++ v ++ part ++ b = x ++ part ++ y := (append_of_splitFirst? hr).symm
  have hle : x.length ≤ u.length :=
    length_le_of_splitFirst? hr (y := v ++ part ++ b) (by simp)
  obtain ⟨z, hz⟩ := hu.eq_of_length_lt heq (by
    simp only [List.length_append]
    omega)
  have hy : y = z ++ part ++ b := by
    rw [hz, List.append_assoc (x ++ part), List.append_assoc (x ++ part)] at heq
    rw [← List.append_cancel_left heq, List.append_assoc]
  exact ⟨x, z, hz, by rw [hr, hy]⟩

/-- A part is found last where it stands, unless it occurs behind. -/
lemma splitLast?_append (hu : Unbordered part) (a : List Char) (hb : ¬ part <:+: b) :
    splitLast? part (a ++ part ++ b) = some (a, b) := by
  obtain ⟨⟨a', b'⟩, hr⟩ := Option.isSome_iff_exists.mp (isSome_splitLast?_append part a b)
  have heq : a ++ part ++ b = a' ++ part ++ b' := (append_of_splitLast? hr).symm
  have hle := length_le_of_splitLast? hr rfl
  have hlen : a.length = a'.length := by
    by_contra hne
    obtain ⟨z, hz⟩ := hu.eq_of_lt_length heq (by omega)
    exact hb ⟨z, b', hz.symm⟩
  obtain ⟨h1, h2⟩ := List.append_inj heq (by simp [hlen])
  rw [hr, h2, List.append_cancel_right h1]

/-! ### Characters in two parts -/

/-- A character in two parts stands in one of them. -/
lemma cut_of_append_eq {α : Type} {s t u v : List α} {a : α} (heq : s ++ t = u ++ a :: v) :
    (∃ w, s = u ++ a :: w ∧ v = w ++ t) ∨ ∃ w, u = s ++ w ∧ t = w ++ a :: v := by
  rcases List.append_eq_append_iff.mp heq with ⟨w, rfl, hw⟩ | ⟨w, rfl, hw⟩
  · exact .inr ⟨w, rfl, hw⟩
  · cases w with
    | nil => exact .inr ⟨[], by simp, hw.symm⟩
    | cons b w =>
        obtain ⟨rfl, hv⟩ := List.cons.inj hw
        exact .inl ⟨w, rfl, hv⟩

/-- A character that a part does not have stands behind the part or in front of it. -/
lemma mem_or_of_append_eq {α : Type} {part x y p q : List α} {a : α} (ha : a ∉ part)
    (heq : x ++ part ++ y = p ++ a :: q) : a ∈ y ∨ ∃ z, q = z ++ part ++ y := by
  have hbehind : ∀ {v : List α}, a ∉ v → a :: q = v ++ y → a ∈ y := fun {v} hv h =>
    (List.mem_append.mp (h ▸ List.mem_cons_self)).resolve_left hv
  rw [List.append_assoc] at heq
  rcases List.append_eq_append_iff.mp heq with ⟨u, rfl, hu⟩ | ⟨u, rfl, hu⟩
  · rcases List.append_eq_append_iff.mp hu with ⟨v, rfl, hv⟩ | ⟨v, rfl, hv⟩
    · exact .inl (hv ▸ by simp)
    · exact .inl (hbehind (fun hmem => ha (List.mem_append_right u hmem)) hv)
  · cases u with
    | nil => exact .inl (hbehind ha hu)
    | cons b u =>
        obtain ⟨rfl, rfl⟩ := List.cons.inj hu
        exact .inr ⟨u, by simp⟩

/-- The first of a character stands no further behind than any other. -/
lemma eq_or_of_append_cons_eq {α : Type} {x p u v : List α} {a : α} (ha : a ∉ p)
    (heq : x ++ a :: u = p ++ a :: v) :
    (x = p ∧ u = v) ∨ ∃ z, x = p ++ a :: z ∧ v = z ++ a :: u := by
  rcases List.append_eq_append_iff.mp heq with ⟨w, rfl, hw⟩ | ⟨w, rfl, hw⟩
  · cases w with
    | nil => exact .inl ⟨by simp, (List.cons.inj hw).2⟩
    | cons b w =>
        obtain ⟨rfl, -⟩ := List.cons.inj hw
        exact absurd (by simp) ha
  · cases w with
    | nil => exact .inl ⟨by simp, (List.cons.inj hw).2.symm⟩
    | cons b w =>
        obtain ⟨rfl, hv⟩ := List.cons.inj hw
        exact .inr ⟨w, rfl, hv⟩

/-! ### What is replaced -/

/-- Where a part does not occur, nothing is replaced. -/
lemma replaceFrom_eq_self (hs : ¬ part <:+: s) (new : List Char) :
    replaceFrom part new 0 s = s := by
  induction s with
  | nil => rfl
  | cons c cs ih =>
      rw [replaceFrom, if_neg fun hp => ?_, ih fun h => hs (h.trans (List.suffix_cons c cs).isInfix)]
      obtain ⟨y, hy⟩ := isPrefixOf_eq_true_iff.mp hp
      exact hs ⟨[], y, by simpa using hy.symm⟩

lemma replaceFrom_length (new x s : List Char) :
    replaceFrom part new x.length (x ++ s) = replaceFrom part new 0 s := by
  induction x with
  | nil => rfl
  | cons c x ih => rw [List.length_cons, List.cons_append, replaceFrom, ih]

lemma replaceAll_eq_self (hne : part ≠ []) (hs : ¬ part <:+: s) (new : List Char) :
    replaceAll part new s = s := by
  rw [replaceAll, if_neg (by simpa using hne), replaceFrom_eq_self hs]

/-- A part at the start of a text is replaced. -/
lemma replaceAll_part_append (hne : part ≠ []) (new s : List Char) :
    replaceAll part new (part ++ s) = new ++ replaceAll part new s := by
  obtain ⟨c, cs, rfl⟩ := List.exists_cons_of_ne_nil hne
  have hprefix : (c :: cs).isPrefixOf (c :: (cs ++ s)) = true :=
    isPrefixOf_eq_true_iff.mpr ⟨s, rfl⟩
  have hpart : ¬ (c :: cs).isEmpty := by simp
  simp only [replaceAll, if_neg hpart]
  rw [List.cons_append, replaceFrom, if_pos hprefix, List.length_cons, Nat.add_sub_cancel,
    replaceFrom_length]

/-- A part at the start of a text in which it does not occur again. -/
lemma replaceAll_append (hne : part ≠ []) (hs : ¬ part <:+: s) (new : List Char) :
    replaceAll part new (part ++ s) = new ++ s := by
  rw [replaceAll_part_append hne, replaceAll_eq_self hne hs]

end RichText
