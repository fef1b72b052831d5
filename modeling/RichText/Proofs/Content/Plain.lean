import Mathlib.Data.Bool.AllAny
import RichText.Proofs.Lexer.Tags

/-!
Plain forests: text, paragraphs, divisions, spans and custom elements.

* `isHyphenated`: names of custom elements, such as `x-note`;
* `Tree.isPlain`, `Tree.isPlainAll`: plain trees, in which no paragraph or division is below a
  paragraph and no two texts stand side by side;
* `notMem_of_isPlainName`: plain names have no part in lists of other names;
* `serializeNode_of_isPlain`: a plain element is written as its tags around its children.
-/

namespace RichText

/-! ### Names -/

/-- Characters of names apart from hyphens. -/
def isNameChar (c : Char) : Bool :=
  c.isLower || c.isDigit

/-- Whether a text is parts of letters and digits joined by single hyphens; `begun` tells that
a part has begun in front of it. -/
def areParts (begun : Bool) : List Char → Bool
  | [] => begun
  | c :: cs => if c = '-' then begun && areParts false cs else isNameChar c && areParts true cs

/-- Whether a name begins with a letter and has at least two parts joined by hyphens. -/
def isHyphenated (name : List Char) : Bool :=
  name.head?.any Char.isLower && decide ('-' ∈ name) && areParts false name

/-- Names of plain elements. -/
def isPlainName (name : String) : Bool :=
  decide (name ∈ ["p", "div", "span"]) || isHyphenated name.toList

/-- Names of plain attributes. -/
def isPlainAttributeName (name : List Char) : Bool :=
  name.head?.any Char.isLower && name.all fun c => isNameChar c || c == '-'

/-- Whether a text is free of the characters that reading changes. -/
def isClean (s : List Char) : Bool :=
  s.all fun c => c ≠ nul && c ≠ '\r'

/-! ### Trees -/

/-- Whether an attribute is plain. -/
def Attribute.isPlain (a : Attribute) : Bool :=
  decide (a.reserved = .none) && isPlainAttributeName a.name.toList && isClean a.value.toList

/-- Whether an element is plain. -/
def Element.isPlain (e : Element) : Bool :=
  decide (e.vocabulary = .html) && isPlainName e.name && e.attributes.all Attribute.isPlain
    && decide (e.attributes.map (·.name)).Nodup

/-- Whether a tree is text. -/
def Tree.isText : Tree → Bool
  | .text _ => true
  | _ => false

mutual

/-- Whether a tree is plain, inside a paragraph or outside. -/
def Tree.isPlain (inParagraph : Bool) : Tree → Bool
  | .element e cs =>
      e.isPlain && !(inParagraph && decide (e.name ∈ ["p", "div"]))
        && Tree.isPlainAll (inParagraph || e.name = "p") cs
  | .text s => decide (s ≠ "") && isClean s.toList
  | _ => false

/-- Whether sibling trees are plain, with no text next to another. -/
def Tree.isPlainAll (inParagraph : Bool) : List Tree → Bool
  | [] => true
  | t :: ts =>
      Tree.isPlain inParagraph t && !(t.isText && ts.head?.any Tree.isText)
        && Tree.isPlainAll inParagraph ts

end

/-! ### What names are like -/

variable {c : Char} {cs : List Char} {name : String} {e : Element} {ts : List Tree}

/-- Plain names are not among other names. -/
lemma notMem_of_isPlainName (hname : isPlainName name = true) (names : List String)
    (hnames : ∀ n ∈ names, isPlainName n = false) : name ∉ names := by
  intro hmem
  rw [hnames name hmem] at hname
  exact absurd hname (by decide)

lemma toLower_of_isNameChar (hc : isNameChar c = true) : c.toLower = c := by
  delta Char.toLower
  rw [dif_neg]
  rintro ⟨hge, hle⟩
  have h1 := UInt32.le_iff_toNat_le.mp hge
  have h2 := UInt32.le_iff_toNat_le.mp hle
  delta isNameChar Char.isLower at hc
  simp only [Char.isDigit, Bool.or_eq_true, Bool.and_eq_true, decide_eq_true_eq, ge_iff_le,
    UInt32.le_iff_toNat_le] at hc
  simp at h1 h2 hc
  omega

lemma keptInNames_of_isNameChar (hc : isNameChar c = true) : KeptInNames c := by
  refine ⟨?_, fun hmem => ?_, toLower_of_isNameChar hc⟩
  · by_contra hspace
    simp only [isMarkupSpace, Bool.not_eq_false, Bool.or_eq_true, beq_iff_eq] at hspace
    rcases hspace with (((rfl | rfl) | rfl) | rfl) | rfl <;> exact absurd hc (by decide)
  · have hmarks : ∀ m ∈ ['/', '>', '=', nul, '"', '\'', '<', '&'], isNameChar m = false :=
      List.all_iff_forall_prop.mp (by decide)
    rw [hmarks c hmem] at hc
    exact absurd hc (by decide)

lemma keptInNames_of_areParts {begun : Bool} (hcs : areParts begun cs = true) :
    ∀ c ∈ cs, KeptInNames c := by
  induction cs generalizing begun with
  | nil => simp
  | cons c cs ih =>
      rw [areParts] at hcs
      split at hcs
      · next hc =>
          rw [Bool.and_eq_true] at hcs
          exact List.forall_mem_cons.mpr ⟨hc ▸ by decide, ih hcs.2⟩
      · rw [Bool.and_eq_true] at hcs
        exact List.forall_mem_cons.mpr ⟨keptInNames_of_isNameChar hcs.1, ih hcs.2⟩

/-- A plain name is read as it is written. -/
lemma keptInNames_of_isPlainName (hname : isPlainName name = true) :
    (∀ c ∈ name.toList, KeptInNames c) ∧ ∃ c ∈ name.toList.head?, c.isLower = true := by
  rw [isPlainName, Bool.or_eq_true, decide_eq_true_eq] at hname
  rcases hname with hname | hname
  · have hall : ∀ n ∈ ["p", "div", "span"],
        (n.toList.all fun c => KeptInNames c) ∧ n.toList.head?.any Char.isLower := by decide
    obtain ⟨hkept, hhead⟩ := hall name hname
    exact ⟨List.all_iff_forall_prop.mp hkept, (Option.any_eq_true ..).mp hhead⟩
  · rw [isHyphenated, Bool.and_eq_true, Bool.and_eq_true] at hname
    obtain ⟨⟨hhead, -⟩, hparts⟩ := hname
    rw [Option.any_eq_true] at hhead
    exact ⟨keptInNames_of_areParts hparts, hhead⟩

lemma isTagName_of_isPlainName (hname : isPlainName name = true) : IsTagName name := by
  obtain ⟨hkept, c, hc, hlower⟩ := keptInNames_of_isPlainName hname
  refine ⟨fun hnil => ?_, hkept, fun b hb => ?_⟩
  · rw [hnil] at hc
    simp at hc
  · rw [Option.mem_unique hb hc]
    show (c.isUpper || c.isLower) = true
    rw [hlower, Bool.or_true]

lemma isClean_iff {s : List Char} : isClean s = true ↔ ∀ c ∈ s, c ≠ nul ∧ c ≠ '\r' := by
  simp [isClean]

/-- A plain attribute is read back. -/
lemma Attribute.readable_of_isPlain {a : Attribute} (ha : a.isPlain = true) :
    a.Readable (escapeChar .inValue) := by
  simp only [Attribute.isPlain, Bool.and_eq_true, decide_eq_true_eq] at ha
  obtain ⟨⟨hreserved, hname⟩, hvalue⟩ := ha
  simp only [isPlainAttributeName, Bool.and_eq_true, List.all_eq_true, Bool.or_eq_true,
    beq_iff_eq] at hname
  refine ⟨hreserved, ?_, fun c hc => ?_, writes_escapeChar .inValue (isClean_iff.mp hvalue)⟩
  · intro hnil
    rw [hnil] at hname
    exact absurd hname.1 (by decide)
  · rcases hname.2 c hc with h | rfl
    · exact keptInNames_of_isNameChar h
    · decide

/-! ### What is written -/

lemma Element.isPlain_iff : e.isPlain = true ↔ e.vocabulary = .html ∧ isPlainName e.name = true
    ∧ (∀ a ∈ e.attributes, a.isPlain = true) ∧ (e.attributes.map (·.name)).Nodup := by
  simp [Element.isPlain, and_assoc]

/-- A plain element is written as its tags around its children. -/
lemma serializeNode_of_isPlain (he : e.isPlain = true) (cs : List Tree) :
    serializeNode {} (.element e cs) = tagText (escapeChar .inValue) e.name e.attributes
      ++ serialize cs ++ ('<' :: '/' :: e.name.toList ++ ['>']) := by
  obtain ⟨-, hname, has, -⟩ := Element.isPlain_iff.mp he
  have hvoid : e.isVoid = false := by
    have := notMem_of_isPlainName hname voidNames (by decide)
    simp [Element.isVoid, this]
  have hverbatim : e.isVerbatim = false := by
    have := notMem_of_isPlainName hname verbatimNames (by decide)
    simp [Element.isVerbatim, this]
  have htag : e.startTag = tagText (escapeChar .inValue) e.name e.attributes := by
    rw [Element.startTag, tagText]
    congr 2
    refine List.flatMap_congr fun a ha => ?_
    have hreserved := (Attribute.readable_of_isPlain (has a ha)).reserved
    rw [attributeText, Attribute.writtenName, hreserved, escape]
  rw [serializeNode_element, enclose, Surroundings.inside, hvoid, hverbatim, htag]
  simp [Element.endTag, serialize]

/-- What is written for a plain tree that is not text begins with a tag. -/
lemma head?_serializeNode {t : Tree} {inParagraph : Bool} (ht : t.isPlain inParagraph = true)
    (hnot : t.isText = false) : (serializeNode {} t).head? = some '<' := by
  cases t with
  | element n cs =>
      simp only [Tree.isPlain, Bool.and_eq_true] at ht
      rw [serializeNode_of_isPlain ht.1.1]
      rfl
  | text x => simp [Tree.isText] at hnot
  | _ => simp [Tree.isPlain] at ht

lemma Tree.isPlainAll_cons {inParagraph : Bool} {t : Tree} {ts : List Tree} :
    Tree.isPlainAll inParagraph (t :: ts) = true ↔ t.isPlain inParagraph = true
      ∧ (t.isText = true → ts.head?.any Tree.isText = false)
      ∧ Tree.isPlainAll inParagraph ts = true := by
  rw [Tree.isPlainAll, Bool.and_eq_true, Bool.and_eq_true]
  cases t.isText <;> simp [and_assoc]

/-- Behind a plain forest that does not begin with text, or nothing, a tag comes first. -/
lemma head?_serialize_append {inParagraph : Bool} (hts : Tree.isPlainAll inParagraph ts = true)
    (hnot : ts.head?.any Tree.isText = false) {rest : List Char}
    (hrest : ∀ a ∈ rest.head?, a = '<') : ∀ a ∈ (serialize ts ++ rest).head?, a = '<' := by
  cases ts with
  | nil => exact hrest
  | cons t ts =>
      have hhead := head?_serializeNode (Tree.isPlainAll_cons.mp hts).1 (by simpa using hnot)
      intro a ha
      rw [serialize, serializeNodes, List.append_assoc, List.head?_append, hhead] at ha
      exact (Option.some.inj ha).symm

end RichText
