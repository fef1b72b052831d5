import RichText.Proofs.Construction.Build
import RichText.Proofs.Content.CodedLinks

/-!
Tags with links in coded brackets.

* `linking`: the elements as they are read, in which the names of attributes are such that at most
  one is written like `href`, in any letter case;
* `Attribute.bracketed?`: a link with brackets for their codes;
* `Element.isReached`: whether an `<a` and a blank stand open in front of the link of a tag, which
  without angle brackets in front of the link only those of `a` elements do (`isReached_eq`);
* `restoreFrom_startTag`: **the link of a tag** is restored exactly if it is reached.
-/

namespace RichText

variable {s : List Char} {a : Attribute} {as : List Attribute} {e : Element}

/-! ### Names of attributes -/

namespace Attribute

/-- Whether an attribute is written like a link. -/
def isLink (a : Attribute) : Bool := a.writtenName = "href"

/-- Only one attribute is written like a link. -/
lemma isLink_iff : a.isLink = true ↔ a.reserved = .none ∧ a.name = "href" := by
  obtain ⟨name, value, reserved⟩ := a
  have hprefix : ∀ (p : String) (c : Char), p.toList.head? = some c → c ≠ 'h' →
      p ++ name ≠ "href" := by
    intro p c hp hc heq
    have hhead := congrArg (fun s : String => s.toList.head?) heq
    rw [String.toList_append, List.head?_append, hp, Option.some_or] at hhead
    exact hc (Option.some.inj hhead)
  simp only [isLink, writtenName, decide_eq_true_eq]
  cases reserved with
  | none => simp
  | xml => simpa using hprefix "xml:" 'x' rfl (by decide)
  | xmlns =>
      dsimp only
      split
      · next hname => simp [hname]
      · simpa using hprefix "xmlns:" 'x' rfl (by decide)
  | xlink => simpa using hprefix "xlink:" 'x' rfl (by decide)

/-- An attribute that is a link if its written name differs from one in letter case only, and whose
name has `=` only in front. -/
structure IsLinking (a : Attribute) : Prop where
  link : a.writtenName.toLower = "href" → a.isLink = true
  tail : '=' ∉ a.writtenName.toList.tail

end Attribute

/-- The elements of which at most one attribute is a link. -/
structure Element.IsLinking (e : Element) : Prop where
  attributes : ∀ a ∈ e.attributes, a.IsLinking
  once : e.attributes.countP Attribute.isLink ≤ 1

/-- An attribute as it is read. -/
structure Attribute.IsRead (a : Attribute) : Prop where
  reserved : a.reserved = .none
  name : IsAttributeName a.name

lemma Attribute.IsRead.writtenName_eq (ha : a.IsRead) : a.writtenName = a.name := by
  rw [writtenName, ha.reserved]

lemma Attribute.IsRead.isLinking (ha : a.IsRead) : a.IsLinking := by
  constructor
  · rw [ha.writtenName_eq, ha.name.toLower, isLink_iff]
    exact fun hname => ⟨ha.reserved, hname⟩
  · rw [ha.writtenName_eq]
    exact ha.name.tail

/-- Attributes that have been read, at most one of them a link, and the elements that have such. -/
def linking : Naming where
  tag _ := True
  attributes as := (∀ a ∈ as, a.IsRead) ∧ as.countP Attribute.isLink ≤ 1
  element e := e.IsLinking
  doctype _ := True

/-- The names that are recognised as reserved are written as they have been read. -/
lemma writtenName_reservedAttribute (ha : a.reserved = .none) :
    (reservedAttribute a).writtenName = a.writtenName := by
  have htable : ∀ q ∈ reservedAttributes, ∀ value,
      ({ name := q.2.2, value, reserved := q.2.1 } : Attribute).writtenName = q.1 := by
    intro q hq value
    simp only [reservedAttributes, List.mem_cons, List.not_mem_nil, or_false] at hq
    rcases hq with rfl | rfl | rfl | rfl | rfl | rfl | rfl | rfl | rfl | rfl | rfl <;> rfl
  have hname : a.writtenName = a.name := by rw [Attribute.writtenName, ha]
  rw [reservedAttribute]
  cases hfind : reservedAttributes.find? (·.1 = a.name) with
  | none => rfl
  | some q =>
      have hq : q.1 = a.name := by simpa using List.find?_some hfind
      exact (htable q (List.mem_of_find?_eq_some hfind) a.value).trans (hq.trans hname.symm)

/-- The name of an attribute of foreign elements. -/
lemma writtenName_foreign (names : List String) (ha : a.IsRead) :
    (reservedAttribute { a with name := withCapitals names a.name }).writtenName
      = withCapitals names a.name := by
  rw [@writtenName_reservedAttribute { a with name := withCapitals names a.name } ha.reserved,
    Attribute.writtenName, ha.reserved]

/-- The names that are written with capitals are none of links. -/
lemma isLinking_foreign {names : List String}
    (hnames : ∀ name ∈ names, name.toLower ≠ "href" ∧ '=' ∉ name.toList.tail) (ha : a.IsRead) :
    (reservedAttribute { a with name := withCapitals names a.name }).IsLinking ∧
      (reservedAttribute { a with name := withCapitals names a.name }).isLink = a.isLink := by
  have hself : a.isLink = decide (a.name = "href") := by rw [Attribute.isLink, ha.writtenName_eq]
  have hwritten := writtenName_foreign names ha
  rcases withCapitals_eq names a.name with hsame | ⟨hmem, hlower⟩
  · rw [hsame] at hwritten ⊢
    have hlink : (reservedAttribute a).isLink = a.isLink := by rw [hself, Attribute.isLink, hwritten]
    refine ⟨⟨fun h => ?_, ?_⟩, hlink⟩
    · rw [hwritten, ha.name.toLower] at h
      rw [hlink, hself, h, decide_eq_true rfl]
    · rw [hwritten]
      exact ha.name.tail
  · obtain ⟨hne, htail⟩ := hnames _ hmem
    have hcapital : withCapitals names a.name ≠ "href" := by
      intro heq
      rw [heq] at hne
      exact hne (by decide +kernel)
    refine ⟨⟨fun h => absurd (hwritten ▸ h) hne, by rw [hwritten]; exact htail⟩, ?_⟩
    rw [hself, Attribute.isLink, hwritten, decide_eq_false hcapital, decide_eq_false (hlower ▸ hne)]

lemma isLinking_map {f : Attribute → Attribute}
    (hf : ∀ {a : Attribute}, a.IsRead → (f a).IsLinking ∧ (f a).isLink = a.isLink)
    (has : linking.attributes as) {e : Element} (he : e.attributes = as.map f) :
    e.IsLinking := by
  constructor
  · intro a ha
    obtain ⟨b, hb, rfl⟩ := List.mem_map.mp (he ▸ ha)
    exact (hf (has.1 b hb)).1
  · rw [he, List.countP_map]
    refine (List.countP_congr fun b hb => ?_).trans_le has.2
    rw [Function.comp_apply, (hf (has.1 b hb)).2]

lemma linking_closed : linking.Closed where
  implied _ _ := trivial
  bare := ⟨by simp, by simp⟩
  html name as _ has := isLinking_map (f := id) (fun ha => ⟨ha.isLinking, rfl⟩) has (by simp)
  svg name as _ has := by
    have hnames : ∀ name ∈ graphicAttributes, name.toLower ≠ "href" ∧ '=' ∉ name.toList.tail := by
      decide +kernel
    exact isLinking_map (fun ha => isLinking_foreign hnames ha) has (List.map_map ..)
  mathml name as _ has := by
    have hnames : ∀ name ∈ ["definitionURL"],
        name.toLower ≠ "href" ∧ '=' ∉ name.toList.tail := by
      decide +kernel
    exact isLinking_map (fun ha => isLinking_foreign hnames ha) has (List.map_map ..)
  missing e as he has := by
    constructor
    · intro a ha
      rcases List.mem_append.mp ha with ha | ha
      · exact he.attributes a ha
      · exact (has.1 a (List.mem_filter.mp ha).1).isLinking
    · rw [Element.addMissing, List.countP_append]
      by_cases hzero : e.attributes.countP Attribute.isLink = 0
      · rw [hzero, Nat.zero_add]
        exact (List.Sublist.countP_le List.filter_sublist).trans has.2
      · -- an element with a link is given none
        obtain ⟨b, hb, hlink⟩ := List.countP_pos_iff.mp (Nat.pos_of_ne_zero hzero)
        have hnone : (as.filter fun a => !e.attributes.any fun b =>
            b.name = a.name && b.reserved = a.reserved).countP Attribute.isLink = 0 := by
          refine List.countP_eq_zero.mpr fun a ha hlink' => ?_
          have hmissing := (List.mem_filter.mp ha).2
          obtain ⟨hreserved, hname⟩ := Attribute.isLink_iff.mp hlink
          obtain ⟨hreserved', hname'⟩ := Attribute.isLink_iff.mp hlink'
          rw [Bool.not_eq_true', List.any_eq_false] at hmissing
          exact hmissing b hb (by simp [hreserved, hreserved', hname, hname'])
        rw [hnone, Nat.add_zero]
        exact he.once

lemma linking_readable : linking.Readable where
  letter _ _ := trivial
  push _ _ _ _ _ _ := trivial
  bare := ⟨by simp, by simp⟩
  append as name value has hname hnew := by
    refine ⟨List.forall_mem_append.mpr ⟨has.1, by simpa using ⟨rfl, hname⟩⟩, ?_⟩
    rw [List.countP_append, List.countP_singleton]
    split
    · next hlink =>
        -- the names in front are others
        obtain ⟨-, rfl⟩ := Attribute.isLink_iff.mp hlink
        have hzero : as.countP Attribute.isLink = 0 := List.countP_eq_zero.mpr fun a ha hlink' =>
          hnew a ha (Attribute.isLink_iff.mp hlink').2
        rw [hzero]
    · exact has.2
  undeclared := trivial
  pushDoctype _ _ _ _ := trivial

/-! ### Written attributes -/

namespace Attribute

/-- The name and the value of an attribute as they are written. -/
def assignment (a : Attribute) : List Char :=
  a.writtenName.toList ++ '=' :: '"' :: escape .inValue a.value.toList ++ ['"']

/-- An attribute as it is written. -/
def written (a : Attribute) : List Char := ' ' :: a.assignment

/-- A link in coded brackets, with the brackets for their codes. -/
def bracketed? (a : Attribute) : Option Attribute :=
  if a.isLink then
    (uncoded? a.value.toList).map fun v => { a with value := String.ofList ('[' :: v ++ [']']) }
  else none

lemma assignment_eq (a : Attribute) (s : List Char) : a.assignment ++ s
    = (a.writtenName.toList ++ ['=']) ++ '"' :: (escape .inValue a.value.toList ++ '"' :: s) := by
  simp [assignment]

end Attribute

lemma quote_notMem_of_map {x : List Char} (hx : x.map Char.toLower = "href=".toList) : '"' ∉ x :=
  fun hmem => by
    have := List.mem_map_of_mem (f := Char.toLower) hmem
    rw [hx] at this
    exact absurd this (by decide)

/-- Only links in coded brackets are written as such. -/
lemma bracketedValue?_assignment (ha : a.IsLinking) (hnone : a.bracketed? = none) (s : List Char) :
    bracketedValue? (a.assignment ++ s) = none := by
  rw [Option.eq_none_iff_forall_ne_some]
  intro l hl
  obtain ⟨x, u, y, heq, hx, hu, hcoded⟩ := exists_quoted_of_bracketedValue? hl
  have hquote : '"' ∉ x := quote_notMem_of_map hx
  have hequals : '=' ∈ x.tail := by
    have hmap : x.tail.map Char.toLower = "ref=".toList := by rw [List.map_tail, hx]; rfl
    obtain ⟨m, hm, hlower⟩ := List.mem_map.mp (hmap ▸ (by decide : '=' ∈ "ref=".toList))
    obtain rfl := eq_of_toLower_lt (by decide) hlower
    exact hm
  rw [Attribute.assignment_eq] at heq
  rcases eq_or_of_append_cons_eq hquote heq with ⟨hname, hvalue⟩ | ⟨z, hz, -⟩
  · rcases eq_or_of_append_cons_eq hu hvalue with ⟨hu, -⟩ | ⟨z, hz, -⟩
    · have hlower : a.writtenName.toLower = "href" := by
        have hsplit : "href=".toList = "href".toList ++ ['='] := by decide
        rw [← hname, List.map_append, hsplit] at hx
        rw [← String.toList_inj, toList_toLower]
        exact (List.append_inj' hx rfl).1
      rw [Attribute.bracketed?, if_pos (ha.link hlower), Option.map_eq_none_iff] at hnone
      rw [← hu, uncoded?_escape, hnone] at hcoded
      simp at hcoded
    · exact notMem_escape_inValue a.value.toList (by simp [hz])
  · -- a quotation mark in the name, behind an `=`
    rcases cut_of_append_eq hz with ⟨w, hw, -⟩ | ⟨w, -, hw⟩
    · refine ha.tail ?_
      cases x with
      | nil => simp at hequals
      | cons c x =>
          rw [hw]
          exact List.mem_append_left _ hequals
    · have : '"' ∈ ['='] := hw ▸ by simp
      exact absurd this (by decide)

lemma isLink_of_bracketed? {a' : Attribute} (h : a.bracketed? = some a') : a.isLink = true := by
  rw [Attribute.bracketed?] at h
  split at h
  · assumption
  · simp at h

/-- A link in coded brackets is written as a bracketed value, and with the brackets as that
restored. -/
lemma exists_of_bracketed? {a' : Attribute} (h : a.bracketed? = some a') :
    ∃ l : BracketedLink, a.assignment = l.source ∧ a'.assignment = l.restored
      ∧ l.opening.head? = some '%' ∧ ∀ s, bracketedValue? (l.source ++ s) = some l := by
  rw [Attribute.bracketed?] at h
  split at h
  · next hlink =>
      obtain ⟨v, hv, rfl⟩ := Option.map_eq_some_iff.mp h
      obtain ⟨hreserved, hname⟩ := Attribute.isLink_iff.mp hlink
      have hcoded := uncoded?_escape a.value.toList
      rw [hv, Option.map_some] at hcoded
      obtain ⟨o, c, hcodes⟩ := exists_inCodes hcoded
      have hbrackets : escape .inValue (String.ofList ('[' :: v ++ [']'])).toList
          = '[' :: escape .inValue v ++ [']'] := by
        rw [String.toList_ofList]
        simp [escape, escapeChar]
      have hlead : "href=\"".toList = "href".toList ++ ['=', '"'] := by decide
      refine ⟨⟨"href=\"".toList, o, escape .inValue v, c⟩, ?_, ?_, hcodes.head?_opening, fun s => ?_⟩
      · rw [Attribute.assignment, Attribute.writtenName, hreserved, hname, hcodes.eq, hlead]
        simp [BracketedLink.source]
      · rw [Attribute.assignment, Attribute.writtenName, hreserved, hname]
        dsimp only
        rw [hbrackets, hlead]
        simp [BracketedLink.restored]
      · have hlead' : "href=\"".toList.map Char.toLower = "href=\"".toList := by decide
        exact bracketedValue?_source
          ⟨hlead', hcodes.opening, hcodes.closing, notMem_escape_inValue v⟩ s
  · simp at h

/-! ### Stretches of attributes -/

lemma unlinked_of_not_blank {x : List Char} (hx : ∀ m ∈ x, isBlank m = false) (s : List Char) :
    Unlinked x s := by
  intro u m w heq hm
  rw [hx m (heq ▸ by simp)] at hm
  exact absurd hm (by decide)

/-- In a value no bracketed value begins, unless one begins with the quotation mark behind it. -/
lemma unlinked_value (v : List Char) (hs : s.head? ≠ some '%') :
    Unlinked (escape .inValue v ++ ['"']) s := by
  intro u m w heq hm
  rcases cut_of_append_eq heq with ⟨z, hz, rfl⟩ | ⟨z, -, hz⟩
  · have hquote : '"' ∉ z := fun hmem => notMem_escape_inValue v (by simp [hz, hmem])
    rw [Option.eq_none_iff_forall_ne_some]
    intro l hl
    obtain ⟨x, u', y, heq', hx, -, hcoded⟩ := exists_quoted_of_bracketedValue? hl
    rw [List.append_assoc, List.singleton_append] at heq'
    rcases eq_or_of_append_cons_eq (quote_notMem_of_map hx) heq' with ⟨-, rfl⟩ | ⟨z', hz', -⟩
    · obtain ⟨b, hb⟩ := Option.isSome_iff_exists.mp hcoded
      obtain ⟨o, c, hcodes⟩ := exists_inCodes hb
      exact hs (by rw [List.head?_append, hcodes.head?, Option.some_or])
    · exact hquote (by simp [hz'])
  · have hmark : m ∈ ['"'] := hz ▸ by simp
    rw [List.mem_singleton.mp hmark] at hm
    exact absurd hm (by decide)

/-- What follows an attribute begins with a blank or a bracket, and with no code. -/
lemma unlinked_assignment (hname : ∀ m ∈ a.writtenName.toList, isBlank m = false)
    (hs : s.head? ≠ some '%') : Unlinked a.assignment s := by
  have hsplit : a.assignment = (a.writtenName.toList ++ "=\"".toList)
      ++ (escape .inValue a.value.toList ++ ['"']) := by
    simp [Attribute.assignment]
  have hmarks : ∀ m ∈ "=\"".toList, isBlank m = false := List.all_iff_forall_prop.mp (by decide)
  rw [hsplit]
  exact (unlinked_of_not_blank (List.forall_mem_append.mpr ⟨hname, hmarks⟩) _).append
    (unlinked_value _ hs)

lemma unlinked_written (ha : a.IsLinking) (hnone : a.bracketed? = none)
    (hname : ∀ m ∈ a.writtenName.toList, isBlank m = false) (hs : s.head? ≠ some '%') :
    Unlinked a.written s := by
  intro u m w heq hm
  cases u with
  | nil =>
      obtain ⟨-, rfl⟩ := List.cons.inj heq
      exact bracketedValue?_assignment ha hnone s
  | cons c u => exact unlinked_assignment hname hs u m w (List.cons.inj heq).2 hm

lemma head?_attributes (as : List Attribute) (hs : s.head? ≠ some '%') :
    (as.flatMap Attribute.written ++ s).head? ≠ some '%' := by
  cases as with
  | nil => exact hs
  | cons a as => simp [Attribute.written]

lemma unlinked_attributes (has : ∀ a ∈ as, a.IsLinking ∧ a.bracketed? = none)
    (hnames : ∀ a ∈ as, ∀ m ∈ a.writtenName.toList, isBlank m = false) (hs : s.head? ≠ some '%') :
    Unlinked (as.flatMap Attribute.written) s := by
  induction as with
  | nil => exact fun u m w heq => absurd heq (by simp)
  | cons a as ih =>
      obtain ⟨ha, has⟩ := List.forall_mem_cons.mp has
      obtain ⟨hname, hnames⟩ := List.forall_mem_cons.mp hnames
      rw [List.flatMap_cons]
      exact (unlinked_written ha.1 ha.2 hname (head?_attributes as hs)).append (ih has hnames)

/-! ### Tags -/

namespace Element

/-- Whether no name in a tag holds a blank. -/
def hasWholeNames (e : Element) : Bool :=
  e.name.toList.all (!isBlank ·) && e.attributes.all fun a => a.writtenName.toList.all (!isBlank ·)

/-- The element with brackets for their codes in its links. -/
def bracketed (e : Element) : Element :=
  { e with attributes := e.attributes.map fun a => a.bracketed?.getD a }

/-- Whether the link of an element is looked for where it stands in the tag: whether behind an `<a`
and a blank, with no `>` in between. -/
def isReached (e : Element) : Bool :=
  isOpen ('<' :: e.name.toList
    ++ (e.attributes.takeWhile (·.bracketed?.isNone)).flatMap Attribute.written ++ [' '])

/-- An element that is chosen with brackets for their codes. -/
def bracketedIf (p : Element → Bool) (e : Element) : Element :=
  if p e then e.bracketed else e

/-- A tag without further brackets opens a link exactly if its name is an `a`. -/
lemma isOpen_tag {name w : List Char} (hblank : ∀ m ∈ name, isBlank m = false)
    (hname : '<' ∉ name) (hw : ∀ m ∈ ['<', '>'], m ∉ w) :
    isOpen ('<' :: name ++ ' ' :: w) = true ↔ name.map Char.toLower = ['a'] := by
  have hbehind : isOpen (name ++ ' ' :: w) = false := isOpen_of_notMem <| by
    have hnot := hw '<' (by simp)
    simp [hname, hnot]
  have hend := hw '>' (by simp)
  rw [List.cons_append, isOpen, hbehind, Bool.or_false]
  cases name with
  | nil => cases w <;> simp [opensLink]
  | cons c cs =>
      cases cs with
      | nil =>
          have hspace : isBlank ' ' = true := by decide
          simp [opensLink, hspace, hend]
      | cons d cs => simp [opensLink, hblank d (by simp)]

lemma notMem_written {m : Char} (hm : m ∈ ['<', '>'])
    (ha : m ∉ a.writtenName.toList ∧ m ∉ a.value.toList) : m ∉ a.written := by
  have hmarks : ∀ m ∈ ['<', '>'], m ≠ ' ' ∧ m ≠ '=' ∧ m ≠ '"' ∧ m ∉ referenceChars :=
    List.all_iff_forall_prop.mp (by decide)
  obtain ⟨hblank, hequals, hquote, href⟩ := hmarks m hm
  have hescape : m ∉ escape .inValue a.value.toList := notMem_escape href fun h => absurd h ha.2
  simp [Attribute.written, Attribute.assignment, hblank, hequals, hquote, ha.1, hescape]

/-- **In a tag without angle brackets** in front of its link, the link is reached exactly if the
element is an `a`. -/
theorem isReached_eq (hnames : e.hasWholeNames = true) (hname : '<' ∉ e.name.toList)
    (hfront : ∀ a ∈ e.attributes.takeWhile (·.bracketed?.isNone), ∀ m ∈ ['<', '>'],
      m ∉ a.writtenName.toList ∧ m ∉ a.value.toList) :
    e.isReached = decide (e.name.toLower = "a") := by
  have hletter : e.name.toLower = "a" ↔ e.name.toList.map Char.toLower = ['a'] := by
    rw [← String.toList_inj, toList_toLower]
    rfl
  simp only [hasWholeNames, Bool.and_eq_true, List.all_eq_true, Bool.not_eq_true'] at hnames
  obtain ⟨w, hw, hmarks⟩ : ∃ w, (e.attributes.takeWhile (·.bracketed?.isNone)).flatMap
      Attribute.written ++ [' '] = ' ' :: w ∧ ∀ m ∈ ['<', '>'], m ∉ w := by
    have hnot : ∀ m ∈ ['<', '>'], m ∉ (e.attributes.takeWhile (·.bracketed?.isNone)).flatMap
        Attribute.written ++ [' '] := by
      intro m hm hmem
      rcases List.mem_append.mp hmem with hmem | hmem
      · obtain ⟨a, ha, hma⟩ := List.mem_flatMap.mp hmem
        exact notMem_written hm (hfront a ha m hm) hma
      · rw [List.mem_singleton.mp hmem] at hm
        exact absurd hm (by decide)
    cases has : e.attributes.takeWhile (·.bracketed?.isNone) with
    | nil => exact ⟨[], rfl, by simp⟩
    | cons a as =>
        rw [has] at hnot
        exact ⟨_, rfl, fun m hm hmem => hnot m hm (List.mem_cons_of_mem ' ' hmem)⟩
  rw [isReached, List.append_assoc, hw, Bool.eq_iff_iff, decide_eq_true_eq, hletter]
  exact isOpen_tag hnames.1 hname hmarks

lemma startTag_eq (e : Element) : e.startTag
    = '<' :: e.name.toList ++ e.attributes.flatMap Attribute.written ++ ['>'] := rfl

lemma map_bracketed (h : ∀ a ∈ as, a.bracketed? = none) :
    as.map (fun a => a.bracketed?.getD a) = as :=
  (List.map_congr_left fun a ha => by rw [h a ha]; rfl).trans (List.map_id' as)

lemma bracketed_eq_self (h : ∀ a ∈ e.attributes, a.bracketed? = none) : e.bracketed = e := by
  rw [bracketed, map_bracketed h]

/-- The pieces of an element with a link in coded brackets. -/
structure HasCoded (e : Element) (before : List Attribute) (a a' : Attribute)
    (after : List Attribute) : Prop where
  eq : e.attributes = before ++ a :: after
  link : a.bracketed? = some a'
  before : ∀ b ∈ before, b.bracketed? = none
  after : ∀ b ∈ after, b.bracketed? = none

/-- At most one attribute is a link in coded brackets. -/
lemma IsLinking.exists_hasCoded (he : e.IsLinking) : (∀ a ∈ e.attributes, a.bracketed? = none)
    ∨ ∃ before a a' after, e.HasCoded before a a' after := by
  cases hfind : e.attributes.find? (·.bracketed?.isSome) with
  | none =>
      left
      intro a ha
      simpa using List.find?_eq_none.mp hfind a ha
  | some a =>
      right
      obtain ⟨hsome, before, after, heq, hbefore⟩ := List.find?_eq_some_iff_append.mp hfind
      obtain ⟨a', ha'⟩ := Option.isSome_iff_exists.mp hsome
      refine ⟨before, a, a', after, heq, ha', fun b hb => by simpa using hbefore b hb,
        fun b hb => ?_⟩
      by_contra hne
      -- there would be two links
      obtain ⟨b', hb'⟩ := Option.ne_none_iff_exists'.mp hne
      have hpos : 0 < after.countP Attribute.isLink :=
        List.countP_pos_iff.mpr ⟨b, hb, isLink_of_bracketed? hb'⟩
      have honce := he.once
      rw [heq, List.countP_append, List.countP_cons_of_pos (isLink_of_bracketed? ha')] at honce
      omega

lemma HasCoded.isReached {before after : List Attribute} {a a' : Attribute}
    (h : e.HasCoded before a a' after) : e.isReached
      = isOpen ('<' :: e.name.toList ++ before.flatMap Attribute.written ++ [' ']) := by
  have htake : e.attributes.takeWhile (·.bracketed?.isNone) = before := by
    rw [h.eq, List.takeWhile_append_of_pos fun b hb => by rw [h.before b hb]; rfl,
      List.takeWhile_cons_of_neg (by simp [h.link]), List.append_nil]
  rw [Element.isReached, htake]

lemma HasCoded.startTag_bracketed {before after : List Attribute} {a a' : Attribute}
    (h : e.HasCoded before a a' after) : e.bracketed.startTag
      = '<' :: e.name.toList ++ (before ++ a' :: after).flatMap Attribute.written ++ ['>'] := by
  rw [startTag_eq, bracketed]
  dsimp only
  rw [h.eq, List.map_append, List.map_cons, map_bracketed h.before, map_bracketed h.after, h.link,
    Option.getD_some]

end Element

/-- In front of the attributes of a tag no blank stands. -/
lemma unlinked_tagName (hname : ∀ m ∈ e.name.toList, isBlank m = false) (s : List Char) :
    Unlinked ('<' :: e.name.toList) s :=
  unlinked_of_not_blank (List.forall_mem_cons.mpr ⟨by decide, hname⟩) s

/-- A tag without a link in coded brackets stays as it is. -/
lemma restoreFrom_uncodedTag (he : e.IsLinking) (hnone : ∀ a ∈ e.attributes, a.bracketed? = none)
    (hname : ∀ m ∈ e.name.toList, isBlank m = false)
    (hwhole : ∀ a ∈ e.attributes, ∀ m ∈ a.writtenName.toList, isBlank m = false) (s : List Char) :
    restoreFrom 0 (e.startTag ++ s) = e.startTag ++ restoreFrom 0 s := by
  have hattributes := unlinked_attributes (s := '>' :: s)
    (fun b hb => ⟨he.attributes b hb, hnone b hb⟩) hwhole (by simp)
  have htag := (unlinked_tagName hname _).append hattributes
  have hbracket : e.startTag ++ s = '<' :: e.name.toList
      ++ e.attributes.flatMap Attribute.written ++ '>' :: s := by
    simp [Element.startTag_eq]
  rw [hbracket, restoreFrom_bracket htag, Element.startTag_eq]
  simp

/-- The link in coded brackets of a tag is restored if it is reached. -/
lemma restoreFrom_codedTag (he : e.IsLinking) {before after : List Attribute} {a a' : Attribute}
    (hcoded : e.HasCoded before a a' after) (hname : ∀ m ∈ e.name.toList, isBlank m = false)
    (hwhole : ∀ a ∈ e.attributes, ∀ m ∈ a.writtenName.toList, isBlank m = false) (s : List Char) :
    restoreFrom 0 (e.startTag ++ s)
      = (e.bracketedIf Element.isReached).startTag ++ restoreFrom 0 s := by
  obtain ⟨l, hsource, hrestored, -, hl⟩ := exists_of_bracketed? hcoded.link
  have hlinking := he.attributes
  rw [hcoded.eq] at hwhole hlinking
  obtain ⟨hbefore, hwhole⟩ := List.forall_mem_append.mp hwhole
  obtain ⟨ha, hafter⟩ := List.forall_mem_cons.mp hwhole
  have hx : Unlinked ('<' :: e.name.toList ++ before.flatMap Attribute.written)
      (' ' :: (l.source ++ (after.flatMap Attribute.written ++ '>' :: s))) :=
    (unlinked_tagName hname _).append (unlinked_attributes (fun b hb =>
      ⟨hlinking b (List.mem_append_left _ hb), hcoded.before b hb⟩) hbefore (by simp))
  have hr : Unlinked (l.source ++ after.flatMap Attribute.written) ('>' :: s) := by
    rw [← hsource]
    exact (unlinked_assignment ha (head?_attributes after (by simp))).append
      (unlinked_attributes (fun b hb => ⟨hlinking b (by simp [hb]), hcoded.after b hb⟩) hafter
        (by simp))
  have hpieces : e.startTag ++ s = ('<' :: e.name.toList ++ before.flatMap Attribute.written)
      ++ ' ' :: (l.source ++ (after.flatMap Attribute.written ++ '>' :: s)) := by
    rw [Element.startTag_eq, hcoded.eq, ← hsource]
    simp [Attribute.written]
  have hwritten : (e.bracketedIf Element.isReached).startTag
      = ('<' :: e.name.toList ++ before.flatMap Attribute.written)
        ++ ' ' :: ((if e.isReached then l.restored else l.source)
          ++ (after.flatMap Attribute.written ++ ['>'])) := by
    rw [Element.bracketedIf]
    split
    · rw [hcoded.startTag_bracketed, ← hrestored]
      simp [Attribute.written]
    · rw [Element.startTag_eq, hcoded.eq, ← hsource]
      simp [Attribute.written]
  rw [hpieces, restoreFrom_tag hx hr (hl _), ← hcoded.isReached, hwritten]
  simp

/-- **The link of a tag** is restored exactly if it is reached, and nothing else changes. -/
lemma restoreFrom_startTag (he : e.IsLinking) (hnames : e.hasWholeNames = true) (s : List Char) :
    restoreFrom 0 (e.startTag ++ s)
      = (e.bracketedIf Element.isReached).startTag ++ restoreFrom 0 s := by
  simp only [Element.hasWholeNames, Bool.and_eq_true, List.all_eq_true, Bool.not_eq_true'] at hnames
  obtain ⟨hname, hwhole⟩ := hnames
  rcases he.exists_hasCoded with hnone | ⟨before, a, a', after, hcoded⟩
  · have hself : e.bracketedIf Element.isReached = e := by
      rw [Element.bracketedIf, Element.bracketed_eq_self hnone, ite_self]
    rw [hself, restoreFrom_uncodedTag he hnone hname hwhole]
  · exact restoreFrom_codedTag he hcoded hname hwhole s

end RichText
