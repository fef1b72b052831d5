import RichText.Html.Lexer.Tag
import RichText.Text.Find

/-!
Reading the inside of elements that hold text only.

`readRaw` reads from behind the start tag of such an element through its end tag, or to the
end of the text. Markup has no meaning inside. Character references are read in elements
of the escapable kind. In a script, `<!--` opens a part in which `<script` and `</script>`
are counted: an end tag inside such a nested script does not end the element.
-/

namespace RichText

/-- Where in a script the text is: outside of `<!--`, inside it, or in a script nested in it;
inside, `dashes` tells how many hyphens of a closing `-->` have been seen. -/
inductive ScriptPlace where
  | outside
  | inside (nested : Bool) (dashes : Nat)
  deriving DecidableEq, Repr, Inhabited

/-- Whether a character can follow the name of a tag. -/
def endsTagName (c : Char) : Bool :=
  isMarkupSpace c || c = '/' || c = '>'

/-- The text behind a name of a tag, in any letter case, where the name ends. -/
def afterTagName? (name : List Char) (s : List Char) : Option (List Char) :=
  if startsIgnoringCase name s && (s.drop name.length).head?.any endsTagName then
    some (s.drop name.length)
  else none

/-- The text behind the name of an end tag, given the text behind its `<`. -/
def afterEndTagName? (name : String) : List Char → Option (List Char)
  | '/' :: cs => afterTagName? name.toList cs
  | _ => none

/-- Text as a token, unless there is none. -/
def textTokens (s : List Char) : List Token :=
  if s.isEmpty then [] else [.text s]

/-- The place in a script behind one more ordinary character. -/
def ScriptPlace.next : ScriptPlace → Char → ScriptPlace
  | .outside, _ => .outside
  | .inside nested dashes, c =>
      if c = '-' then .inside nested (min 2 (dashes + 1))
      else if c = '>' && dashes = 2 then .outside
      else .inside nested 0

/-- The start of a comment or of a tag in a script that changes the place, given the text
behind its `<`: the number of characters it takes and the new place. -/
def ScriptPlace.jump? : ScriptPlace → List Char → Option (Nat × ScriptPlace)
  | .outside, s => if "!--".toList.isPrefixOf s then some (3, .inside false 2) else none
  | .inside false _, s => (afterTagName? "script".toList s).map fun _ => (7, .inside true 0)
  | .inside true _, s => (afterEndTagName? "script" s).map fun _ => (8, .inside false 0)

/-- Whether an end tag ends the element at this place. -/
def ScriptPlace.canEnd : ScriptPlace → Bool
  | .inside true _ => false
  | _ => true

/-- The faults of a text that ends at this place of a script. -/
def ScriptPlace.faultsAtEnd : ScriptPlace → List ParseError
  | .outside => []
  | .inside _ _ => [.unexpectedEnd]

/-- Reads the inside of an element of the given kind and name, with its end tag. The text read
since the last token is kept in `held`, in reverse. -/
def readRaw (kind : RawKind) (name : String) (place : ScriptPlace) (held : List Char)
    (cs : List Char) : Lexeme :=
  match cs with
  | [] => { tokens := textTokens held.reverse ++ faults place.faultsAtEnd, rest := [] }
  | c :: cs =>
      if c = nul then
        let l := readRaw kind name (place.next c) [Reference.replacement] cs
        { l with tokens := textTokens held.reverse ++ .error .badCharacter :: l.tokens }
      else if kind = .escapable && c = '&' then
        let r := Reference.read false cs
        if r.errors.isEmpty then
          readRaw kind name place (r.text.reverse ++ held) (cs.drop r.consumed)
        else
          let l := readRaw kind name place r.text.reverse (cs.drop r.consumed)
          { l with tokens := textTokens held.reverse ++ faults r.errors ++ l.tokens }
      else if c = '<' then
        match if place.canEnd then afterEndTagName? name cs else none with
        | some rest =>
            let l := readTag .name { closing := true, name } rest
            { l with tokens := textTokens held.reverse ++ l.tokens }
        | none =>
            if kind = .script && cs = ['!'] && place = .outside then
              { tokens := textTokens (held.reverse ++ ['<', '!']) ++ faults [.unexpectedEnd]
                rest := [] }
            else
              match if kind = .script then place.jump? cs else none with
              | some (n, place) =>
                  readRaw kind name place ((cs.take n).map newline |>.reverse.append (c :: held))
                    (cs.drop n)
              | none => readRaw kind name (place.next c) (c :: held) cs
      else readRaw kind name (place.next c) (newline c :: held) cs
termination_by cs.length

/-- What is left behind the name of an end tag is no longer than the text before. -/
theorem length_afterTagName?_le {name s rest : List Char} (h : afterTagName? name s = some rest) :
    rest.length ≤ s.length := by
  simp only [afterTagName?] at h
  split at h
  · obtain rfl := Option.some.inj h
    simp
  · simp at h

/-- What is left behind the start of an end tag is no longer than the text before. -/
theorem length_afterEndTagName?_le {name : String} {s rest : List Char}
    (h : afterEndTagName? name s = some rest) : rest.length ≤ s.length := by
  unfold afterEndTagName? at h
  split at h
  · exact Nat.le_succ_of_le (length_afterTagName?_le h)
  · simp at h

/-- What is left behind the element is no longer than the text before. -/
theorem readRaw_rest_length_le (kind : RawKind) (name : String) (place : ScriptPlace)
    (held cs : List Char) : (readRaw kind name place held cs).rest.length ≤ cs.length := by
  fun_induction readRaw kind name place held cs with
  | case1 => simp
  | case2 place held cs l ih => simpa [l] using Nat.le_succ_of_le ih
  | case3 place held c cs hc hk r hr ih => simp at ih ⊢; omega
  | case4 place held c cs hc hk r hr l ih => simp [l] at ih ⊢; omega
  | case5 place held cs rest h l =>
      have h1 := readTag_rest_length_le .name { closing := true, name } rest
      have h2 : rest.length ≤ cs.length := by
        split at h
        · exact length_afterEndTagName?_le h
        · simp at h
      simp only [l, List.length_cons]
      omega
  | case6 => simp
  | case7 place held cs hc hk h hs n p hj ih => simp at ih ⊢; omega
  | case8 place held cs hc hk h hs hj ih => simp; omega
  | case9 place held c cs hc hk hlt ih => simp; omega

/-- A nonempty text is always read at least in part. -/
theorem readRaw_cons_rest_length_le (kind : RawKind) (name : String) (place : ScriptPlace)
    (held : List Char) (c : Char) (cs : List Char) :
    (readRaw kind name place held (c :: cs)).rest.length ≤ cs.length := by
  have below := fun place held cs => readRaw_rest_length_le kind name place held cs
  rw [readRaw]
  split
  · exact below _ _ _
  split
  · have h := fun held k => Nat.le_trans (below place held (cs.drop k))
      (by simp : (cs.drop k).length ≤ cs.length)
    dsimp only
    split
    · exact h _ _
    · exact h _ _
  split
  · split
    · next rest hr =>
        refine Nat.le_trans (readTag_rest_length_le _ _ _) ?_
        split at hr
        · exact length_afterEndTagName?_le hr
        · simp at hr
    · split
      · simp
      · split
        · exact Nat.le_trans (below _ _ _) (by simp)
        · exact below _ _ _
  · exact below _ _ _

end RichText
