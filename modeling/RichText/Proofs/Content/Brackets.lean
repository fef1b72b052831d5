import RichText.Content.Links
import RichText.Proofs.Content.Plain
import RichText.Proofs.Text.Characters
import RichText.Proofs.Text.Occurrences

/-!
What stands behind the brackets of a written plain forest.

Text is written without opening brackets; the values of attributes are written with them, but
without quotation marks. An opening bracket is thus followed by the rest of an end tag, of a
start tag, or of a value and the start tag that it is in.

* `TagRest`, `BehindBracket`: these three forms;
* `TagRest.not_coded`: no quotation mark of a tag is followed by the code of a bracket, if no
  value begins with one (`Attribute.isCoded`);
* `fenced_serializeNodes`: **every opening bracket** of a written plain forest is followed by one
  of the three.
-/

namespace RichText

/-- Whether the value of an attribute begins with the code of an opening bracket. -/
def Attribute.isCoded (a : Attribute) : Bool :=
  "%5B".toList.isPrefixOf a.value.toList || "%5b".toList.isPrefixOf a.value.toList

mutual

/-- The attributes of a tree and of all trees in it. -/
def Tree.attributes : Tree → List Attribute
  | .element e cs => e.attributes ++ Tree.attributesAll cs
  | .template as cs us => as ++ Tree.attributesAll cs ++ Tree.attributesAll us
  | .document cs => Tree.attributesAll cs
  | _ => []

/-- The attributes of trees and of all trees in them. -/
def Tree.attributesAll : List Tree → List Attribute
  | [] => []
  | t :: ts => Tree.attributes t ++ Tree.attributesAll ts

end

variable {a : Attribute} {as : List Attribute} {s t x y : List Char}

/-! ### Values -/

lemma notMem_escape_inValue (s : List Char) : '"' ∉ escape .inValue s :=
  notMem_escape (by decide) fun _ => by decide

/-- A value that begins with the code of a bracket, in whichever case. -/
lemma Attribute.isCoded_of_starts (h : startsIgnoringCase "%5b".toList a.value.toList = true) :
    a.isCoded = true := by
  have hstart : "%5b".toList = ['%', '5', 'b'] := by decide
  rw [hstart] at h
  rcases hv : a.value.toList with _ | ⟨c, _ | ⟨d, _ | ⟨e, v⟩⟩⟩ <;> rw [hv] at h
  · simp [startsIgnoringCase] at h
  · simp [startsIgnoringCase] at h
  · simp [startsIgnoringCase] at h
  · simp only [startsIgnoringCase, Bool.and_eq_true, beq_iff_eq, and_true] at h
    obtain ⟨hc, hd, he⟩ := h
    obtain rfl := eq_of_toLower_lt (by decide) hc
    obtain rfl := eq_of_toLower_lt (by decide) hd
    rw [Attribute.isCoded, hv, Bool.or_eq_true]
    rcases eq_of_toLower_eq he with rfl | ⟨-, hval⟩
    · exact .inr rfl
    · have hlower : 'b'.toNat = 98 := rfl
      obtain rfl : e = 'B' := by
        rw [← Char.ofNat_toNat e, show e.toNat = 66 by omega]
      exact .inl rfl

/-! ### Tags -/

/-- What is left of a start tag behind its name or behind one of its attributes. -/
inductive TagRest : List Char → Prop
  | close (s : List Char) : TagRest ('>' :: s)
  | behind {a : Attribute} {s : List Char} (ha : a.isPlain = true) (hcoded : a.isCoded = false)
      (hs : TagRest s) : TagRest (attributeText (escapeChar .inValue) a ++ s)

/-- What stands behind an opening bracket: the rest of an end tag, of a start tag, or of a value
and the start tag around it. -/
inductive BehindBracket : List Char → Prop
  | endTag (s : List Char) : BehindBracket ('/' :: s)
  | startTag {name : String} {s : List Char} (hname : isPlainName name = true) (hs : TagRest s) :
      BehindBracket (name.toList ++ s)
  | value {v s : List Char} (hv : '"' ∉ v) (hs : TagRest s) : BehindBracket (v ++ '"' :: s)

/-- A text in which every opening bracket begins or is in a tag. -/
def Fenced (s : List Char) : Prop :=
  ∀ u v, s = u ++ '<' :: v → BehindBracket v

lemma TagRest.append (hs : TagRest s) (t : List Char) : TagRest (s ++ t) := by
  induction hs with
  | close s => exact .close (s ++ t)
  | behind ha hcoded _ ih =>
      rw [List.append_assoc]
      exact .behind ha hcoded ih

lemma BehindBracket.append (hs : BehindBracket s) (t : List Char) : BehindBracket (s ++ t) := by
  cases hs with
  | endTag s => exact .endTag (s ++ t)
  | startTag hname hs =>
      rw [List.append_assoc]
      exact .startTag hname (hs.append t)
  | value hv hs =>
      rw [List.append_assoc]
      exact .value hv (hs.append t)

/-- Behind an attribute comes a blank or the end of the tag. -/
lemma TagRest.head? (hs : TagRest s) : s.head? = some ' ' ∨ s.head? = some '>' := by
  cases hs with
  | close s => exact .inr rfl
  | behind _ _ _ => exact .inl rfl

lemma TagRest.not_starts (hs : TagRest s) : startsIgnoringCase "%5b".toList s = false := by
  obtain ⟨c, hc, hlower⟩ : ∃ c ∈ s.head?, c.toLower ≠ '%' := by
    rcases hs.head? with h | h
    · exact ⟨' ', h, by decide⟩
    · exact ⟨'>', h, by decide⟩
  obtain ⟨s', rfl⟩ := List.head?_eq_some_iff.mp hc
  show startsIgnoringCase ('%' :: "5b".toList) (c :: s') = false
  rw [startsIgnoringCase, beq_eq_false_iff_ne.mpr hlower, Bool.false_and]

/-- The name of an attribute up to the quotation mark. -/
lemma notMem_attributeName {m : Char} (ha : a.isPlain = true) (hm : ¬ KeptInNames m)
    (hmarks : m ≠ ' ' ∧ m ≠ '=') : m ∉ ' ' :: a.name.toList ++ ['='] := by
  have hname : m ∉ a.name.toList := fun hmem =>
    hm ((Attribute.readable_of_isPlain ha).name m hmem)
  simp [hname, hmarks.1, hmarks.2]

lemma attributeText_eq (a : Attribute) (s : List Char) :
    attributeText (escapeChar .inValue) a ++ s = (' ' :: a.name.toList ++ ['='])
      ++ '"' :: (escape .inValue a.value.toList ++ '"' :: s) := by
  simp [attributeText, escape]

/-- **No quotation mark of a start tag** is followed by the code of an opening bracket. -/
lemma TagRest.not_coded (hs : TagRest s) (heq : s = x ++ '"' :: y) (hx : '>' ∉ x) :
    startsIgnoringCase "%5b".toList y = false := by
  induction hs generalizing x with
  | close s =>
      cases x with
      | nil => simp at heq
      | cons c x =>
          obtain ⟨rfl, -⟩ := List.cons.inj heq
          exact absurd List.mem_cons_self hx
  | @behind a s ha hcoded hs ih =>
      have hquote : '"' ∉ ' ' :: a.name.toList ++ ['='] :=
        notMem_attributeName ha (by decide) (by decide)
      rw [attributeText_eq] at heq
      rcases eq_or_of_append_cons_eq hquote heq.symm with ⟨-, rfl⟩ | ⟨z, rfl, hz⟩
      · -- the mark in front of the value
        rw [← Bool.not_eq_true]
        intro hstarts
        have hbare : ∀ m ∈ "%5b".toList, m ≠ '&' ∧ m ≠ '"' := List.all_iff_forall_prop.mp (by decide)
        have := Attribute.isCoded_of_starts (startsIgnoringCase_of_escape hbare hstarts)
        rw [hcoded] at this
        exact absurd this (by decide)
      · rcases eq_or_of_append_cons_eq (notMem_escape_inValue _) hz.symm with ⟨-, rfl⟩ | ⟨w, rfl, hw⟩
        · -- the mark behind the value
          exact hs.not_starts
        · refine ih hw fun hmem => hx ?_
          simp [hmem]

/-! ### Forests -/

lemma Fenced.append (hs : Fenced s) (ht : Fenced t) : Fenced (s ++ t) := by
  intro u v heq
  rcases cut_of_append_eq heq with ⟨w, hw, rfl⟩ | ⟨w, -, hw⟩
  · exact (hs u w hw).append t
  · exact ht w v hw

lemma fenced_of_notMem (hs : '<' ∉ s) : Fenced s := by
  rintro u v rfl
  exact absurd (by simp) hs

lemma Fenced.cons (hs : Fenced s) (hbehind : BehindBracket s) : Fenced ('<' :: s) := by
  intro u v heq
  cases u with
  | nil => exact (List.cons.inj heq).2 ▸ hbehind
  | cons c u => exact hs u v (List.cons.inj heq).2

/-- The brackets in the attributes of a tag are in the values. -/
lemma fenced_attributes (has : ∀ a ∈ as, a.isPlain = true ∧ a.isCoded = false) :
    TagRest (as.flatMap (attributeText (escapeChar .inValue)) ++ ['>'])
      ∧ Fenced (as.flatMap (attributeText (escapeChar .inValue)) ++ ['>']) := by
  induction as with
  | nil => exact ⟨.close [], fenced_of_notMem (by decide)⟩
  | cons a as ih =>
      obtain ⟨⟨ha, hcoded⟩, has⟩ := List.forall_mem_cons.mp has
      obtain ⟨hrest, hfenced⟩ := ih has
      rw [List.flatMap_cons, List.append_assoc]
      refine ⟨.behind ha hcoded hrest, ?_⟩
      have hname : '<' ∉ ' ' :: a.name.toList ++ ['='] :=
        notMem_attributeName ha (by decide) (by decide)
      rw [attributeText_eq]
      refine (fenced_of_notMem hname).append ?_
      intro u v heq
      cases u with
      | nil => simp at heq
      | cons c u =>
          rcases cut_of_append_eq (List.cons.inj heq).2 with ⟨w, hw, rfl⟩ | ⟨w, -, hw⟩
          · refine .value (fun hmem => notMem_escape_inValue a.value.toList ?_) hrest
            simp [hw, hmem]
          · cases w with
            | nil => simp at hw
            | cons c w => exact hfenced w v (List.cons.inj hw).2

lemma fenced_tagText {name : String} (hname : isPlainName name = true)
    (has : ∀ a ∈ as, a.isPlain = true ∧ a.isCoded = false) :
    Fenced (tagText (escapeChar .inValue) name as) := by
  obtain ⟨hrest, hfenced⟩ := fenced_attributes has
  have hnot : '<' ∉ name.toList := fun hmem =>
    absurd ((keptInNames_of_isPlainName hname).1 _ hmem) (by decide)
  rw [tagText, List.cons_append, List.cons_append, List.append_assoc]
  exact ((fenced_of_notMem hnot).append hfenced).cons (.startTag hname hrest)

lemma fenced_endTag {name : String} (hname : isPlainName name = true) :
    Fenced ('<' :: '/' :: name.toList ++ ['>']) := by
  have hnot : '<' ∉ name.toList := fun hmem =>
    absurd ((keptInNames_of_isPlainName hname).1 _ hmem) (by decide)
  exact (fenced_of_notMem (by simp [hnot])).cons (.endTag _)

mutual

/-- Every opening bracket of a written plain tree begins a tag or is in a value. -/
lemma fenced_serializeNode : ∀ {t : Tree} {inParagraph : Bool}, t.isPlain inParagraph = true →
    (∀ a ∈ t.attributes, a.isCoded = false) → Fenced (serializeNode {} t)
  | .element e cs, inParagraph, ht, hcoded => by
      simp only [Tree.isPlain, Bool.and_eq_true] at ht
      obtain ⟨-, hname, has, -⟩ := Element.isPlain_iff.mp ht.1.1
      have has : ∀ a ∈ e.attributes, a.isPlain = true ∧ a.isCoded = false := fun a ha =>
        ⟨has a ha, hcoded a (by simp [Tree.attributes, ha])⟩
      have hcs : Fenced (serialize cs) := fenced_serializeNodes ht.2 fun a ha =>
        hcoded a (by simp [Tree.attributes, ha])
      rw [serializeNode_of_isPlain ht.1.1]
      exact ((fenced_tagText hname has).append hcs).append (fenced_endTag hname)
  | .text x, inParagraph, ht, _ => by
      rw [serializeNode_text]
      exact fenced_of_notMem (notMem_escape (by decide) fun _ => by decide)
  | .template _ _ _, _, ht, _ => absurd ht (by simp [Tree.isPlain])
  | .comment _, _, ht, _ => absurd ht (by simp [Tree.isPlain])
  | .doctype _ _ _, _, ht, _ => absurd ht (by simp [Tree.isPlain])
  | .document _, _, ht, _ => absurd ht (by simp [Tree.isPlain])

/-- **Every opening bracket** of a written plain forest begins a tag or is in a value. -/
lemma fenced_serializeNodes : ∀ {ts : List Tree} {inParagraph : Bool},
    Tree.isPlainAll inParagraph ts = true → (∀ a ∈ Tree.attributesAll ts, a.isCoded = false) →
    Fenced (serializeNodes {} ts)
  | [], _, _, _ => fenced_of_notMem (by simp [serializeNodes])
  | t :: ts, inParagraph, hts, hcoded => by
      obtain ⟨ht, -, hts⟩ := Tree.isPlainAll_cons.mp hts
      rw [serializeNodes]
      exact (fenced_serializeNode ht fun a ha => hcoded a (by simp [Tree.attributesAll, ha])).append
        (fenced_serializeNodes hts fun a ha => hcoded a (by simp [Tree.attributesAll, ha]))

end

end RichText
