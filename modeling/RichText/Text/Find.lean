/-!
Finding a fixed text inside another.

* `splitFirst?`, `splitLast?`: what stands before and after the first or the last
  occurrence; put together again they give the text back
  (`append_of_splitFirst?`, `append_of_splitLast?`);
* `occurs`: whether there is an occurrence;
* `stripStart?`, `stripEnd?`: the text without a given start or end;
* `startsIgnoringCase`: whether a text starts with another up to ASCII case;
* `replaceAll`: every occurrence replaced, from left to right and without overlap.
-/

namespace RichText

/-- What stands before and after the first occurrence of `part`. -/
def splitFirst? (part : List Char) : List Char → Option (List Char × List Char)
  | [] => if part.isEmpty then some ([], []) else none
  | c :: cs =>
      if part.isPrefixOf (c :: cs) then some ([], (c :: cs).drop part.length)
      else (splitFirst? part cs).map fun (before, after) => (c :: before, after)

/-- What stands before and after the last occurrence of `part`. -/
def splitLast? (part : List Char) : List Char → Option (List Char × List Char)
  | [] => if part.isEmpty then some ([], []) else none
  | c :: cs =>
      match splitLast? part cs with
      | some (before, after) => some (c :: before, after)
      | none =>
          if part.isPrefixOf (c :: cs) then some ([], (c :: cs).drop part.length) else none

/-- Whether `part` occurs in the text. -/
def occurs (part s : List Char) : Bool :=
  (splitFirst? part s).isSome

/-- The text without `part` at its start. -/
def stripStart? (part s : List Char) : Option (List Char) :=
  if part.isPrefixOf s then some (s.drop part.length) else none

/-- The text without `part` at its end. -/
def stripEnd? (part s : List Char) : Option (List Char) :=
  if part.isSuffixOf s then some (s.take (s.length - part.length)) else none

/-- Whether the text starts with `part`, which is in lower case, up to ASCII case. -/
def startsIgnoringCase : List Char → List Char → Bool
  | [], _ => true
  | _ :: _, [] => false
  | p :: ps, c :: cs => c.toLower == p && startsIgnoringCase ps cs

/-- The occurrences of a nonempty `part` replaced; the first `skip` characters belong to
an occurrence that has been replaced already. -/
def replaceFrom (part substitute : List Char) : Nat → List Char → List Char
  | _, [] => []
  | skip + 1, _ :: cs => replaceFrom part substitute skip cs
  | 0, c :: cs =>
      if part.isPrefixOf (c :: cs) then
        substitute ++ replaceFrom part substitute (part.length - 1) cs
      else c :: replaceFrom part substitute 0 cs

/-- Every occurrence of `part` replaced, from left to right and without overlap. The empty
text occurs between any two characters and at both ends. -/
def replaceAll (part substitute s : List Char) : List Char :=
  if part.isEmpty then substitute ++ s.flatMap fun c => c :: substitute
  else replaceFrom part substitute 0 s

/-- A text that begins with a part is this part and the rest. -/
theorem append_of_isPrefixOf {part s : List Char} (h : part.isPrefixOf s = true) :
    part ++ s.drop part.length = s := by
  obtain ⟨t, rfl⟩ := List.isPrefixOf_iff_prefix.mp h
  simp

/-- The pieces around the first occurrence make up the text. -/
theorem append_of_splitFirst? {part s before after : List Char}
    (h : splitFirst? part s = some (before, after)) : before ++ part ++ after = s := by
  induction s generalizing before with
  | nil =>
      simp only [splitFirst?] at h
      split at h <;> simp_all
  | cons c cs ih =>
      simp only [splitFirst?] at h
      split at h
      · next hp =>
          simp only [Option.some.injEq, Prod.mk.injEq] at h
          obtain ⟨rfl, rfl⟩ := h
          simpa using append_of_isPrefixOf hp
      · simp only [Option.map_eq_some_iff, Prod.mk.injEq, Prod.exists] at h
        obtain ⟨b, a, hs, rfl, rfl⟩ := h
        simpa using ih hs

/-- The pieces around the last occurrence make up the text. -/
theorem append_of_splitLast? {part s before after : List Char}
    (h : splitLast? part s = some (before, after)) : before ++ part ++ after = s := by
  induction s generalizing before after with
  | nil =>
      simp only [splitLast?] at h
      split at h <;> simp_all
  | cons c cs ih =>
      simp only [splitLast?] at h
      split at h
      · next b a hs =>
          simp only [Option.some.injEq, Prod.mk.injEq] at h
          obtain ⟨rfl, rfl⟩ := h
          simpa using ih hs
      · split at h
        · next hp =>
            simp only [Option.some.injEq, Prod.mk.injEq] at h
            obtain ⟨rfl, rfl⟩ := h
            simpa using append_of_isPrefixOf hp
        · simp at h

end RichText
