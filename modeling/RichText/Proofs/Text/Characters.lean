import Mathlib.Data.Bool.AllAny
import Mathlib.Data.List.Basic
import RichText.Html.Serialize
import RichText.Text.Find

/-!
Letter case and the characters of escaped text.

* `eq_of_toLower_eq`: what a character in lower case has been;
* `escapeChar_form`: a character is written as a reference or as it stands;
* `notMem_escape`: characters that are always written as references are not in escaped text;
* `startsIgnoringCase_of_escape`: what an escaped value begins with, the value begins with.
-/

namespace RichText

variable {place : TextPlace} {m : Char} {s : List Char}

/-! ### Letter case -/

/-- A character in lower case has been the same before, or the capital. -/
lemma eq_of_toLower_eq {c d : Char} (h : c.toLower = d) :
    c = d ∨ (65 ≤ c.toNat ∧ c.toNat + 32 = d.toNat) := by
  delta Char.toLower at h
  split at h
  · next hc =>
      right
      have hval := congrArg (fun c : Char => c.val.toNat) h
      have h1 := UInt32.le_iff_toNat_le.mp hc.1
      have h2 := UInt32.le_iff_toNat_le.mp hc.2
      simp [UInt32.toNat_add] at hval h1 h2
      simp only [Char.toNat] at hval h1 h2 ⊢
      omega
  · exact .inl h

/-- What is no small letter is in lower case what it is. -/
lemma eq_of_toLower_lt {c d : Char} (hd : d.toNat < 97) (h : c.toLower = d) : c = d := by
  rcases eq_of_toLower_eq h with h | ⟨hge, hval⟩
  · exact h
  · omega

lemma toLower_ne {c : Char} (hm : m.toNat < 97) (hc : c ≠ m) : c.toLower ≠ m :=
  fun heq => hc (eq_of_toLower_lt hm heq)

/-- Lower case is kept. -/
lemma toLower_toLower (c : Char) : c.toLower.toLower = c.toLower := by
  delta Char.toLower
  split
  · next h =>
      split
      · next h' =>
          exfalso
          simp [UInt32.le_iff_toNat_le, UInt32.toNat_add] at h h'
          omega
      · rfl
  · rfl

lemma toList_toLower (name : String) : name.toLower.toList = name.toList.map Char.toLower := by
  delta String.toLower
  exact String.toList_map

lemma toLower_toLower_name (name : String) : name.toLower.toLower = name.toLower := by
  rw [← String.toList_inj, toList_toLower, toList_toLower, List.map_map]
  exact List.map_congr_left fun c _ => toLower_toLower c

lemma toLower_push {name : String} {c : Char} (hname : name.toLower = name) (hc : c.toLower = c) :
    (name.push c).toLower = name.push c := by
  rw [← String.toList_inj, toList_toLower, String.toList_push, List.map_append, ← toList_toLower,
    hname, List.map_singleton, hc]

lemma startsIgnoringCase_append {p q : List Char} (h : startsIgnoringCase (p ++ q) s = true) :
    ∃ x y, s = x ++ y ∧ x.map Char.toLower = p ∧ startsIgnoringCase q y = true := by
  induction p generalizing s with
  | nil => exact ⟨[], s, rfl, rfl, h⟩
  | cons a p ih =>
      cases s with
      | nil => simp [startsIgnoringCase] at h
      | cons c s =>
          rw [List.cons_append, startsIgnoringCase, Bool.and_eq_true, beq_iff_eq] at h
          obtain ⟨x, y, rfl, hx, hy⟩ := ih h.2
          exact ⟨c :: x, y, rfl, by rw [List.map_cons, h.1, hx], hy⟩

/-! ### Escapes -/

/-- Characters that references are written with. -/
def referenceChars : List Char := "&amp;nbsp;quot;lt;gt;".toList

/-- A character is written as a reference or as it stands. -/
lemma escapeChar_form (place : TextPlace) (c : Char) :
    escapeChar place c = [c]
      ∨ ∃ w, escapeChar place c = '&' :: w ∧ ∀ m ∈ '&' :: w, m ∈ referenceChars := by
  have href : ∀ w : List Char, (∀ m ∈ '&' :: w, m ∈ referenceChars) →
      ∃ w', '&' :: w = '&' :: w' ∧ ∀ m ∈ '&' :: w', m ∈ referenceChars := fun w hw => ⟨w, rfl, hw⟩
  unfold escapeChar
  cases place <;> dsimp only <;> split_ifs
  all_goals
    first
      | exact .inl rfl
      | exact .inr (href _ (List.all_iff_forall_prop.mp (by decide)))

lemma mem_escapeChar {c : Char} (hm : m ∈ escapeChar place c) :
    m ∈ referenceChars ∨ (m = c ∧ escapeChar place c = [c]) := by
  rcases escapeChar_form place c with hself | ⟨w, hw, href⟩
  · rw [hself, List.mem_singleton] at hm
    exact .inr ⟨hm, hself⟩
  · rw [hw] at hm
    exact .inl (href m hm)

/-- Escaped text has the characters of references, and of its own those that are written as they
stand. -/
lemma notMem_escape (hm : m ∉ referenceChars) (hs : m ∈ s → escapeChar place m ≠ [m]) :
    m ∉ escape place s := by
  intro hmem
  obtain ⟨c, hc, hmc⟩ := List.mem_flatMap.mp hmem
  rcases mem_escapeChar hmc with h | ⟨rfl, hself⟩
  · exact hm h
  · exact hs hc hself

/-- What an escaped value begins with, the value itself begins with. -/
lemma startsIgnoringCase_of_escape {part v : List Char} (hpart : ∀ p ∈ part, p ≠ '&' ∧ p ≠ '"')
    (hs : startsIgnoringCase part (escape .inValue v ++ '"' :: s) = true) :
    startsIgnoringCase part v = true := by
  have hkept : ∀ {m : Char} {w : List Char} {p : Char} {ps : List Char}, m.toLower = m → p ≠ m →
      startsIgnoringCase (p :: ps) (m :: w) ≠ true := by
    intro m w p ps hm hp h
    rw [startsIgnoringCase, Bool.and_eq_true, beq_iff_eq, hm] at h
    exact hp h.1.symm
  induction part generalizing v with
  | nil => rfl
  | cons p ps ih =>
      obtain ⟨hp, hps⟩ := List.forall_mem_cons.mp hpart
      cases v with
      | nil => exact absurd hs (hkept (by decide) hp.2)
      | cons c v =>
          rw [escape, List.flatMap_cons] at hs
          rcases escapeChar_form .inValue c with hw | ⟨w, hw, -⟩
          · rw [hw, List.singleton_append, List.cons_append, startsIgnoringCase,
              Bool.and_eq_true] at hs
            rw [startsIgnoringCase, hs.1, Bool.true_and]
            exact ih hps hs.2
          · rw [hw] at hs
            exact absurd hs (hkept (by decide) hp.1)

end RichText
