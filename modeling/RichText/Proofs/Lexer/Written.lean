import Mathlib.Data.List.Basic
import RichText.Html.Lexer.Markup
import RichText.Html.Serialize

/-!
Written text read back.

A character is written as it stands or as a reference. The text behind a reference does not
change what is read, since no name goes on behind a semicolon.

* `Reference.Stands`: what stands behind an ampersand is a reference for a character, whatever
  follows;
* `stands_of_escapeChar`: the references that writing uses;
* `Writes`: the forms in which a character can be written between tags;
* `exists_next_text`: **one unit of written text** is the beginning of the text.
-/

namespace RichText

namespace Reference

/-! ### Names -/

/-- What follows a text does not matter to a name that is not longer, or different before. -/
lemma commonLength_append {name s : List Char}
    (hname : name.length ≤ s.length ∨ commonLength name s < s.length) (rest : List Char) :
    commonLength name (s ++ rest) = commonLength name s := by
  induction name generalizing s with
  | nil => simp [commonLength]
  | cons a name ih =>
      cases s with
      | nil => simp at hname
      | cons b s =>
          rw [List.cons_append, commonLength, commonLength]
          by_cases hab : a = b
          · rw [commonLength, if_pos hab] at hname
            rw [if_pos hab, if_pos hab, ih]
            simpa using hname
          · rw [if_neg hab, if_neg hab]

/-- No name goes on behind a text. -/
def Ends (names : List (String × String)) (s : List Char) : Prop :=
  ∀ n ∈ names, n.1.toList.length ≤ s.length ∨ commonLength n.1.toList s < s.length

instance (names : List (String × String)) (s : List Char) : Decidable (Ends names s) :=
  inferInstanceAs (Decidable (∀ n ∈ names, _))

lemma longest_append {names : List (String × String)} {s : List Char} (hs : Ends names s)
    (rest : List Char) : longest names (s ++ rest) = longest names s := by
  unfold longest
  refine List.foldl_ext _ _ _ fun best n hn => ?_
  simp only [Match.consider, commonLength_append (hs n hn)]

/-- What stands behind an ampersand is a reference for a character, whatever follows. -/
def Stands (s : List Char) (c : Char) : Prop :=
  ∀ (inAttribute : Bool) (rest : List Char), ∃ returned : ℕ,
    read inAttribute (s ++ rest) = { text := [c], consumed := s.length, returned }

/-- A whole name with its semicolon is a reference. -/
lemma stands_of_longest (first : Char) (s : List Char) (value : String) (reach : ℕ) {c : Char}
    (hfirst : first.isAlphanum = true) (hs : Ends (referenceNames first) s)
    (hend : s.getLast? = some ';')
    (hlongest : longest (referenceNames first) s = { length := s.length, value, reach })
    (hvalue : value.toList = [c]) : Stands (first :: s) c := by
  intro inAttribute rest
  have hmark : first ≠ '#' := by
    rintro rfl
    exact absurd hfirst (by decide)
  have hne : s.length ≠ 0 := by
    intro hnil
    rw [List.eq_nil_of_length_eq_zero hnil] at hend
    simp at hend
  have hlast : (s ++ rest)[s.length - 1]? = some ';' := by
    rw [List.getElem?_append_left (by omega), ← List.getLast?_eq_getElem?, hend]
  have hread : read inAttribute (first :: s ++ rest) = readName inAttribute first (s ++ rest) := by
    rw [List.cons_append]
    unfold read
    split
    · next h => simp at h
    · next h => exact absurd (List.cons.inj h).1 hmark
    · next h => exact absurd (List.cons.inj h).1 hmark
    · next c' cs' _ _ h =>
        obtain ⟨rfl, rfl⟩ := List.cons.inj h
        rw [if_pos hfirst]
  refine ⟨min (reach + 1) (s ++ rest).length - s.length, ?_⟩
  rw [hread, readName, longest_append hs, hlongest]
  simp only [hne, if_false, hlast, if_true, hvalue, List.length_cons]

lemma stands_amp : Stands "amp;".toList '&' :=
  stands_of_longest 'a' "mp;".toList "&" 3 (by decide)
    (by decide +kernel) (by decide) (by decide +kernel) (by decide)

lemma stands_nbsp : Stands "nbsp;".toList '\u00a0' :=
  stands_of_longest 'n' "bsp;".toList "\u00a0" 4
    (by decide) (by decide +kernel) (by decide) (by decide +kernel) (by decide)

lemma stands_quot : Stands "quot;".toList '"' :=
  stands_of_longest 'q' "uot;".toList "\"" 4
    (by decide) (by decide +kernel) (by decide) (by decide +kernel) (by decide)

lemma stands_lt : Stands "lt;".toList '<' :=
  stands_of_longest 'l' "t;".toList "<" 2
    (by decide) (by decide +kernel) (by decide) (by decide +kernel) (by decide)

lemma stands_gt : Stands "gt;".toList '>' :=
  stands_of_longest 'g' "t;".toList ">" 2
    (by decide) (by decide +kernel) (by decide) (by decide +kernel) (by decide)

/-- **The references that writing uses** stand for the character that is written. -/
lemma stands_of_escapeChar {place : TextPlace} {c : Char} (hc : escapeChar place c ≠ [c]) :
    ∃ s, escapeChar place c = '&' :: s ∧ Stands s c := by
  unfold escapeChar at hc ⊢
  by_cases hamp : c = '&'
  · subst hamp
    exact ⟨_, rfl, stands_amp⟩
  by_cases hnbsp : c = '\u00a0'
  · subst hnbsp
    exact ⟨_, rfl, stands_nbsp⟩
  rw [if_neg hamp, if_neg hnbsp] at hc ⊢
  cases place with
  | inValue =>
      by_cases hquot : c = '"'
      · subst hquot
        exact ⟨_, rfl, stands_quot⟩
      · exact absurd (if_neg hquot) hc
  | betweenTags =>
      by_cases hlt : c = '<'
      · subst hlt
        exact ⟨_, rfl, stands_lt⟩
      by_cases hgt : c = '>'
      · subst hgt
        exact ⟨_, rfl, stands_gt⟩
      · simp [hlt, hgt] at hc

end Reference

/-! ### Written characters -/

/-- Whether a form writes the characters of a text: each as it stands, if it is neither an
ampersand nor `stop`, or as a reference. -/
def Writes (stop : Char) (form : Char → List Char) (s : List Char) : Prop :=
  ∀ c ∈ s, c ≠ nul ∧ c ≠ '\r' ∧
    (form c = [c] ∧ c ≠ '&' ∧ c ≠ stop ∨ ∃ u, form c = '&' :: u ∧ Reference.Stands u c)

variable {stop : Char} {form : Char → List Char} {s t rest : List Char}

lemma writes_cons {c : Char} :
    Writes stop form (c :: s) ↔ (c ≠ nul ∧ c ≠ '\r' ∧
      (form c = [c] ∧ c ≠ '&' ∧ c ≠ stop ∨ ∃ u, form c = '&' :: u ∧ Reference.Stands u c))
      ∧ Writes stop form s :=
  List.forall_mem_cons

lemma Writes.of_append_right (hs : Writes stop form (s ++ t)) : Writes stop form t :=
  fun c hc => hs c (List.mem_append_right s hc)

/-- The character that a text ends at. -/
def TextPlace.endsAt : TextPlace → Char
  | .betweenTags => '<'
  | .inValue => '"'

/-- Escaping writes a text, between tags and in values. -/
lemma writes_escapeChar (place : TextPlace) (hs : ∀ c ∈ s, c ≠ nul ∧ c ≠ '\r') :
    Writes place.endsAt (escapeChar place) s := by
  intro c hc
  refine ⟨(hs c hc).1, (hs c hc).2, ?_⟩
  by_cases hform : escapeChar place c = [c]
  · refine .inl ⟨hform, ?_, ?_⟩
    · rintro rfl
      cases place <;> exact absurd hform (by decide)
    · cases place <;> (rintro rfl; exact absurd hform (by decide))
  · exact .inr (Reference.stands_of_escapeChar hform)

/-! ### Units of text -/

/-- Characters that stand for themselves are written by themselves. -/
lemma flatMap_eq_self (hs : ∀ c ∈ s, form c = [c]) : s.flatMap form = s := by
  induction s with
  | nil => rfl
  | cons c s ih =>
      rw [List.flatMap_cons, hs c List.mem_cons_self, ih fun a ha => hs a (List.mem_cons_of_mem c ha)]
      rfl

/-- The first characters of a written text that end no run stand for themselves. -/
lemma exists_takeWhile (hs : Writes '<' form s) (hrest : ∀ c ∈ rest.head?, c = '<') :
    ∃ u v, s = u ++ v ∧ (∀ c ∈ u, form c = [c]) ∧
      (s.flatMap form ++ rest).takeWhile (fun c => !endsText c) = u := by
  induction s with
  | nil =>
      refine ⟨[], [], rfl, by simp, ?_⟩
      cases rest with
      | nil => rfl
      | cons c rest =>
          obtain rfl := hrest c rfl
          rfl
  | cons a s ih =>
      obtain ⟨⟨-, -, ha⟩, hs⟩ := writes_cons.mp hs
      rw [List.flatMap_cons, List.append_assoc]
      rcases ha with ⟨hform, -⟩ | ⟨w, hform, -⟩
      · rw [hform, List.singleton_append]
        by_cases hends : endsText a = true
        · exact ⟨[], a :: s, rfl, by simp, List.takeWhile_cons_of_neg (by simp [hends])⟩
        · obtain ⟨u, v, rfl, hu, htake⟩ := ih hs
          refine ⟨a :: u, v, rfl, List.forall_mem_cons.mpr ⟨hform, hu⟩, ?_⟩
          rw [List.takeWhile_cons_of_pos (by simpa using hends), htake]
      · rw [hform]
        exact ⟨[], a :: s, rfl, by simp, List.takeWhile_cons_of_neg (by decide)⟩

/-- A run of written text is the beginning of the text. -/
lemma exists_run (hs : Writes '<' form s) (hrest : ∀ c ∈ rest.head?, c = '<')
    (limit : Option ℕ) :
    ∃ u v limit', s = u ++ v ∧
      run endsText limit (s.flatMap form ++ rest) = (u, v.flatMap form ++ rest, limit') := by
  obtain ⟨u, v, rfl, hu, htake⟩ := exists_takeWhile hs hrest
  have hdrop : ∀ k ≤ u.length, ((u ++ v).flatMap form ++ rest).drop k
      = (u.drop k ++ v).flatMap form ++ rest := by
    intro k hk
    have hu' : ∀ c ∈ u.drop k, form c = [c] := fun c hc => hu c (List.mem_of_mem_drop hc)
    rw [List.flatMap_append, List.flatMap_append, flatMap_eq_self hu, flatMap_eq_self hu',
      List.append_assoc, List.append_assoc, List.drop_append_of_le_length hk]
  have hwhole : ((u ++ v).flatMap form ++ rest).drop u.length = v.flatMap form ++ rest := by
    rw [hdrop _ (Nat.le_refl _), List.drop_length, List.nil_append]
  unfold run
  rw [htake]
  dsimp only
  cases limit with
  | none =>
      dsimp only
      exact ⟨u, v, none, rfl, by rw [hwhole]⟩
  | some n =>
      dsimp only
      split
      · exact ⟨u, v, some (n - u.length), rfl, by rw [hwhole]⟩
      · next hn =>
          refine ⟨u.take n, u.drop n ++ v, none, ?_, ?_⟩
          · rw [← List.append_assoc, List.take_append_drop]
          · rw [hdrop n (Nat.not_lt.mp hn)]

/-- **One unit of written text** is the beginning of the text. -/
theorem exists_next_text (hs : Writes '<' form s) (hne : s ≠ [])
    (hrest : ∀ c ∈ rest.head?, c = '<') (foreign : Bool) (limit : Option ℕ) :
    ∃ c cs u v limit', s.flatMap form ++ rest = c :: cs ∧ s = u ++ v ∧ u ≠ [] ∧
      LexStep.next foreign (.markup limit) c cs
        = { lexeme := { tokens := [.text u], rest := v.flatMap form ++ rest }
            mode := .markup limit' } := by
  cases s with
  | nil => exact absurd rfl hne
  | cons a s =>
      obtain ⟨⟨hnul, hcr, ha⟩, hs⟩ := writes_cons.mp hs
      rw [List.flatMap_cons, List.append_assoc]
      rcases ha with ⟨hform, hamp, hlt⟩ | ⟨w, hform, hstands⟩
      · rw [hform, List.singleton_append]
        by_cases hnewline : a = '\n'
        · subst hnewline
          exact ⟨_, _, ['\n'], s, none, rfl, rfl, by simp, rfl⟩
        · obtain ⟨u, v, limit', rfl, hrun⟩ := exists_run hs hrest (limit.map (· - 1))
          refine ⟨a, _, a :: u, v, limit', rfl, rfl, by simp, ?_⟩
          rw [LexStep.next, LexStep.inMarkup, if_neg hnul, if_neg hamp, if_neg hlt,
            if_neg hnewline, if_neg hcr, hrun]
      · rw [hform, List.cons_append]
        obtain ⟨returned, hread⟩ := hstands false (s.flatMap form ++ rest)
        refine ⟨'&', _, [a], s, if returned = 0 then none else some returned, rfl, rfl, by simp, ?_⟩
        have hamp : LexStep.next foreign (.markup limit) '&' (w ++ (s.flatMap form ++ rest))
            = LexStep.reference (w ++ (s.flatMap form ++ rest)) := rfl
        rw [hamp, LexStep.reference, hread]
        simp [faults]

end RichText
