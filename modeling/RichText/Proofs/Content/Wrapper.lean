import RichText.Content.Recovery
import RichText.Proofs.Text.Occurrences

/-!
The tags of the document around head and body, taken off a text.

They are looked for as fixed texts, which the rest may hold as well.

* `Recovery.stripWrapper_wrapped`: they are taken off if the rest does not hold them;
* `Recovery.stripWrapper_eq_iff`: nothing else is lost exactly if the part in front does not
  hold the tags that open the document, the head not those between it and the body, and nothing
  follows;
* `Recovery.recover_eq_stripWrapper`: the other steps do nothing for content that begins with
  the declaration and ends in a line feed.
-/

namespace RichText

namespace Recovery

/-- The tags in front of the head. -/
def openingTags : List Char := "<html><head>".toList

/-- The tags between head and body. -/
def middleTags : List Char := "</head><body>".toList

/-- The tags behind the body. -/
def closingTags : List Char := "</body></html>".toList

lemma unbordered_openingTags : Unbordered openingTags := by decide

lemma unbordered_middleTags : Unbordered middleTags := by decide

lemma unbordered_closingTags : Unbordered closingTags := by decide

variable {pre head body post : List Char}

/-- A text with the tags of a document in it. -/
def wrapped (pre head body post : List Char) : List Char :=
  pre ++ openingTags ++ (head ++ middleTags ++ (body ++ closingTags ++ post))

lemma stripWrapper_of_found {s x r h b b' c : List Char}
    (hopen : splitFirst? openingTags s = some (x, r))
    (hmiddle : splitFirst? middleTags r = some (h, b))
    (hclose : splitLast? closingTags b = some (b', c)) : stripWrapper s = x ++ h ++ b' := by
  have hopen' : splitFirst? "<html><head>".toList s = some (x, r) := hopen
  have hmiddle' : splitFirst? "</head><body>".toList r = some (h, b) := hmiddle
  have hclose' : splitLast? "</body></html>".toList b = some (b', c) := hclose
  simp only [stripWrapper, hopen', hmiddle', hclose']

/-- **The tags are taken off** if the rest does not hold them; what follows goes with them. -/
lemma stripWrapper_wrapped (hpre : ¬ openingTags <:+: pre) (hhead : ¬ middleTags <:+: head)
    (body : List Char) (hpost : ¬ closingTags <:+: post) :
    stripWrapper (wrapped pre head body post) = pre ++ head ++ body :=
  stripWrapper_of_found (splitFirst?_append unbordered_openingTags hpre _)
    (splitFirst?_append unbordered_middleTags hhead _)
    (splitLast?_append unbordered_closingTags body hpost)

/-- How many characters stand in front of the first hyphen. -/
def beforeHyphen (s : List Char) : ℕ := (s.takeWhile (· ≠ '-')).length

lemma beforeHyphen_append_of_notMem {s t : List Char} (hs : '-' ∉ s) :
    beforeHyphen (s ++ t) = s.length + beforeHyphen t := by
  have hall : ∀ c ∈ s, (c ≠ '-' : Bool) = true := by
    intro c hc
    simp only [ne_eq, decide_not, Bool.not_eq_eq_eq_not, Bool.not_true, decide_eq_false_iff_not]
    rintro rfl
    exact hs hc
  rw [beforeHyphen, List.takeWhile_append_of_pos hall, List.length_append, beforeHyphen]

lemma beforeHyphen_append_of_mem {s : List Char} (hs : '-' ∈ s) (t : List Char) :
    beforeHyphen (s ++ t) = beforeHyphen s := by
  induction s with
  | nil => simp at hs
  | cons c s ih =>
      by_cases hc : c = '-'
      · simp [beforeHyphen, hc]
      · have hs' : '-' ∈ s := by
          rcases List.mem_cons.mp hs with h | h
          · exact absurd h.symm hc
          · exact h
        have := ih hs'
        simp only [beforeHyphen, List.cons_append] at this ⊢
        rw [List.takeWhile_cons_of_pos (by simpa using hc),
          List.takeWhile_cons_of_pos (by simpa using hc), List.length_cons, List.length_cons, this]

/-- The pieces that the tags are looked for between. -/
lemma exists_pieces (pre head body post : List Char) :
    ∃ x r h b b' c, splitFirst? openingTags (wrapped pre head body post) = some (x, r) ∧
      splitFirst? middleTags r = some (h, b) ∧ splitLast? closingTags b = some (b', c) := by
  obtain ⟨⟨x, r⟩, hx⟩ := Option.isSome_iff_exists.mp
    (isSome_splitFirst?_append openingTags pre (head ++ middleTags ++ (body ++ closingTags ++ post)))
  have hr : head ++ middleTags ++ (body ++ closingTags ++ post) <:+ r :=
    suffix_of_splitFirst? hx rfl
  obtain ⟨q, rfl⟩ := hr
  obtain ⟨⟨h, b⟩, hh⟩ := Option.isSome_iff_exists.mp
    (isSome_splitFirst?_append middleTags (q ++ head) (body ++ closingTags ++ post))
  have hb : body ++ closingTags ++ post <:+ b := suffix_of_splitFirst? hh rfl
  obtain ⟨q', rfl⟩ := hb
  obtain ⟨⟨b', c⟩, hb'⟩ := Option.isSome_iff_exists.mp
    (isSome_splitLast?_append closingTags (q' ++ body) post)
  exact ⟨x, _, h, _, b', c, hx, by simpa using hh, by simpa using hb'⟩

/-- A text in which the opening tags stand twice is not the same without the first of them and
without the second, unless they stand behind one another. -/
lemma ne_of_openingTags_twice {y h b r : List Char} (hy : '-' ∈ y)
    (hwith : y ++ openingTags ++ r = h ++ middleTags ++ b)
    (head body : List Char) : openingTags ++ y ++ head ++ body ≠ h ++ b := by
  intro hwithout
  have hopen : '-' ∉ openingTags := by decide
  have hmiddle : '-' ∉ middleTags := by decide
  have h1 : beforeHyphen (h ++ middleTags ++ b) = beforeHyphen y := by
    rw [← hwith, List.append_assoc, beforeHyphen_append_of_mem hy]
  have h2 : beforeHyphen (h ++ b) = openingTags.length + beforeHyphen y := by
    rw [← hwithout, List.append_assoc, List.append_assoc, beforeHyphen_append_of_notMem hopen,
      beforeHyphen_append_of_mem hy]
  have hpos : 0 < openingTags.length := by decide
  rw [List.append_assoc] at h1
  by_cases hh : '-' ∈ h
  · rw [beforeHyphen_append_of_mem hh] at h1 h2
    omega
  · rw [beforeHyphen_append_of_notMem hh] at h1 h2
    rw [beforeHyphen_append_of_notMem hmiddle] at h1
    omega

/-- If the text is as long as it should be, nothing has been dropped behind the closing tags. -/
lemma dropped_eq_nil {x r h b b' c : List Char}
    (hx : splitFirst? openingTags (wrapped pre head body post) = some (x, r))
    (hh : splitFirst? middleTags r = some (h, b)) (hb : splitLast? closingTags b = some (b', c))
    (heq : x ++ h ++ b' = pre ++ head ++ body ++ post) : c = [] := by
  have h1 := append_of_splitFirst? hx
  rw [← append_of_splitFirst? hh, ← append_of_splitLast? hb] at h1
  have hl := congrArg List.length h1
  have hl' := congrArg List.length heq
  simp only [wrapped, List.length_append] at hl hl'
  exact List.length_eq_zero_iff.mp (by omega)

/-- What ends in a comment does not end in the closing tags. -/
lemma post_eq_nil {s : List Char} (hpost : post = [] ∨ "-->".toList <:+ post)
    (hs : post <:+ s) (hclosing : closingTags <:+ s) : post = [] := by
  rcases hpost with hpost | hpost
  · exact hpost
  · -- the closing tags do not end like a comment
    have hle : "-->".toList <:+ closingTags :=
      List.suffix_of_suffix_length_le (hpost.trans hs) hclosing (by decide)
    exact absurd hle (by decide)

/-- Nothing is lost only if the part in front does not hold the opening tags. -/
lemma not_infix_openingTags (hpre : ∀ x y, pre = x ++ openingTags ++ y → '-' ∈ y)
    {x r h b' : List Char} (hx : splitFirst? openingTags (wrapped pre head body []) = some (x, r))
    (hr : h ++ middleTags ++ (b' ++ closingTags) = r)
    (heq : x ++ h ++ b' = pre ++ head ++ body) : ¬ openingTags <:+: pre := by
  intro hin
  obtain ⟨x', z, rfl, hx'⟩ := splitFirst?_append_of_infix unbordered_openingTags (by decide) hin
    (head ++ middleTags ++ (body ++ closingTags ++ []))
  rw [wrapped, hx'] at hx
  obtain ⟨rfl, rfl⟩ := Prod.mk.inj (Option.some.inj hx)
  refine ne_of_openingTags_twice (hpre x' z rfl) ?_ head body ?_ (h := h) (b := b')
    (r := head ++ middleTags ++ body)
  · have hback := hr.symm
    simp only [← List.append_assoc, List.append_nil] at hback
    simpa using List.append_cancel_right hback
  · have hback := heq.symm
    simp only [List.append_assoc] at hback ⊢
    simpa using List.append_cancel_left hback

/-- Nothing is lost only if the head does not hold the middle tags. -/
lemma not_infix_middleTags (hhead : ¬ middleTags <:+ head) {h b' : List Char}
    (hh : splitFirst? middleTags (head ++ middleTags ++ (body ++ closingTags))
      = some (h, b' ++ closingTags))
    (heq : h ++ b' = head ++ body) : ¬ middleTags <:+: head := by
  refine fun hin => hhead ?_
  obtain ⟨h', z, rfl, hh'⟩ := splitFirst?_append_of_infix unbordered_middleTags (by decide) hin
    (body ++ closingTags)
  rw [hh'] at hh
  obtain ⟨rfl, hb⟩ := Prod.mk.inj (Option.some.inj hh)
  have hb' : z ++ middleTags ++ body = b' :=
    List.append_cancel_right (by rwa [List.append_assoc (z ++ middleTags)])
  -- what is between the two pairs of tags commutes with them
  have hswap : z ++ middleTags = middleTags ++ z := by
    rw [← hb'] at heq
    simp only [List.append_assoc] at heq
    have hback := List.append_cancel_left heq
    simp only [← List.append_assoc] at hback
    exact List.append_cancel_right hback
  exact ⟨h' ++ z, by rw [List.append_assoc, List.append_assoc, hswap]⟩

/-- **What stripping the tags keeps.** The text is the same but for the tags exactly if nothing
follows, the part in front does not hold the opening tags, and the head not the middle ones. -/
theorem stripWrapper_eq_iff
    (hpre : ∀ x y, pre = x ++ openingTags ++ y → '-' ∈ y)
    (hhead : ¬ middleTags <:+ head) (hpost : post = [] ∨ "-->".toList <:+ post) :
    stripWrapper (wrapped pre head body post) = pre ++ head ++ body ++ post ↔
      post = [] ∧ ¬ openingTags <:+: pre ∧ ¬ middleTags <:+: head := by
  constructor
  · intro heq
    obtain ⟨x, r, h, b, b', c, hx, hh, hb⟩ := exists_pieces pre head body post
    rw [stripWrapper_of_found hx hh hb] at heq
    have hs := append_of_splitFirst? hx
    have hr := append_of_splitFirst? hh
    obtain rfl : b' ++ closingTags = b := by
      have hlast := append_of_splitLast? hb
      rwa [dropped_eq_nil hx hh hb heq, List.append_nil] at hlast
    have hclosing : closingTags <:+ wrapped pre head body post := by
      rw [← hs, ← hr]
      exact ⟨x ++ openingTags ++ (h ++ middleTags ++ b'), by simp⟩
    obtain rfl : post = [] := by
      refine post_eq_nil hpost
        ⟨pre ++ openingTags ++ (head ++ middleTags ++ (body ++ closingTags)), ?_⟩ hclosing
      simp [wrapped]
    rw [List.append_nil] at heq
    have hopen := not_infix_openingTags hpre hx hr heq
    rw [wrapped, splitFirst?_append unbordered_openingTags hopen] at hx
    obtain ⟨rfl, rfl⟩ := Prod.mk.inj (Option.some.inj hx)
    rw [List.append_nil] at hh
    simp only [List.append_assoc] at heq
    exact ⟨rfl, hopen, not_infix_middleTags hhead hh (List.append_cancel_left heq)⟩
  · rintro ⟨rfl, hopen, hmiddle⟩
    rw [stripWrapper_wrapped hopen hmiddle body (by decide), List.append_nil]

/-- Trimming keeps a first character that is no blank. -/
lemma head?_trim_cons {c : Char} (hc : isBlank c = false) (s : List Char) :
    (trim (c :: s)).head? = some c := by
  have hstart : trimStart (c :: s) = c :: s := List.dropWhile_cons_of_neg (by simp [hc])
  rw [trim, hstart, trimEnd, List.reverse_cons, List.dropWhile_append, List.head?_reverse]
  split
  · simp [hc]
  · exact List.getLast?_concat

/-- The other steps leave alone what comes from content that begins with the declaration and
ends in a line feed. -/
theorem recover_eq_stripWrapper {content : List Char} (hdecl : declaration <+: content)
    (hend : content.getLast? = some '\n') (s : List Char) :
    recover s content false = stripWrapper s := by
  have hpre : declaration.isPrefixOf content = true := List.isPrefixOf_iff_prefix.mpr hdecl
  obtain ⟨rest, rfl⟩ := hdecl
  have hhead : (trim (declaration ++ rest)).head? = some '<' := head?_trim_cons (by decide) _
  simp [recover, dropDeclarations, hpre, unwrapParagraph, hhead, dropNewline, hend]

end Recovery

end RichText
