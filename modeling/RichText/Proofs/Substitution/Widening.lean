import RichText.Proofs.Construction.Kinds
import RichText.Proofs.Content.Fragment
import RichText.Proofs.Substitution.Histories

/-!
Registries with further registrations under empty keys.

No element that has been read has an empty name, and no self-closing tag, so that a registration
under the empty tag is found by nobody. An attribute can be empty, though: a registration under the
empty class is for the elements whose class is written and empty.

* `Registry.Inserted`, `Registry.Widened`: registrations put anywhere into a history, and what
  becomes of the registry;
* `Registry.widened_ofChanges`: **what becomes of a registry**, by induction on the changes;
* `Unaddressed`: the elements that the registrations put in have nothing to do with;
* `unaddressed_readContent`, `unaddressed_readMarkup`: those that have been read, unless they are of
  a class that has been put in.
-/

namespace RichText

/-! ### Registries -/

namespace Registry

/-- A history with registrations put in, in any places. -/
inductive Inserted : List Change → List Registration → List Change → Prop
  | nil : Inserted [] [] []
  | keep {cs ys cs'} (c : Change) (h : Inserted cs ys cs') : Inserted (c :: cs) ys (c :: cs')
  | insert {cs ys cs'} (y : Registration) (h : Inserted cs ys cs') :
      Inserted cs (y :: ys) (.register y :: cs')

/-- A list with further registrations by class among others in it. -/
inductive Padded (ys : List Registration) : List Registration → List Registration → Prop
  | nil : Padded ys [] []
  | keep {xs xs'} (x : Registration) (h : Padded ys xs xs') : Padded ys (x :: xs) (x :: xs')
  | insert {xs xs'} (y : Registration) (hy : y ∈ ys ∧ y.kind = .className) (h : Padded ys xs xs') :
      Padded ys xs (y :: xs')

variable {ys xs xs' us us' : List Registration}

lemma Padded.append (h : Padded ys xs xs') (hu : Padded ys us us') :
    Padded ys (xs ++ us) (xs' ++ us') := by
  induction h with
  | nil => exact hu
  | keep x _ ih => exact .keep x ih
  | insert y hy _ ih => exact .insert y hy ih

lemma Padded.refl (xs : List Registration) : Padded ys xs xs := by
  induction xs with
  | nil => exact .nil
  | cons x xs ih => exact .keep x ih

/-- A registry with further registrations under empty keys: what is found for other tags is the
same, and the registrations by class are among those there. -/
structure Widened (ys : List Registration) (r r' : Registry) : Prop where
  tags : ∀ key, key ≠ "" → r'.forTag? key = r.forTag? key
  classes : Padded ys r.classes r'.classes

lemma classes_registerTag (r : Registry) (tag label : String) (handler : Handler) :
    (r.registerTag tag label handler).classes = r.classes := by
  simp [classes, registerTag]

lemma classes_registerClass (r : Registry) (value label : String) (handler : Handler) :
    (r.registerClass value label handler).classes
      = r.classes ++ [⟨.className, value, label, handler⟩] := by
  simp [classes, registerClass]

variable {r r' : Registry}

/-- The same change on both sides. -/
lemma Widened.change (h : Widened ys r r') (c : Change) :
    Widened ys (r.change c) (r'.change c) := by
  cases c with
  | clear => exact ⟨fun _ _ => rfl, .nil⟩
  | register x =>
      obtain ⟨kind, value, label, handler⟩ := x
      cases kind with
      | tagName =>
          refine ⟨fun key hkey => ?_, ?_⟩
          · show (r'.registerTag value label handler).forTag? key = (r.registerTag ..).forTag? key
            rw [forTag_registerTag, forTag_registerTag, h.tags key hkey]
          · show Padded ys (r.registerTag value label handler).classes (r'.registerTag ..).classes
            rw [classes_registerTag, classes_registerTag]
            exact h.classes
      | className =>
          refine ⟨h.tags, ?_⟩
          show Padded ys (r.registerClass value label handler).classes (r'.registerClass ..).classes
          rw [classes_registerClass, classes_registerClass]
          exact h.classes.append (.refl _)

/-- A registration under an empty key on one side. -/
lemma Widened.insert (h : Widened ys r r') {y : Registration} (hy : y ∈ ys)
    (hempty : y.value = "") : Widened ys r (r'.change (.register y)) := by
  obtain ⟨kind, value, label, handler⟩ := y
  obtain rfl : value = "" := hempty
  cases kind with
  | tagName =>
      refine ⟨fun key hkey => ?_, ?_⟩
      · show (r'.registerTag "" label handler).forTag? key = r.forTag? key
        have hlower : "".toLower = "" := by decide +kernel
        rw [forTag_registerTag, hlower, if_neg (Ne.symm hkey), h.tags key hkey]
      · show Padded ys r.classes (r'.registerTag "" label handler).classes
        rw [classes_registerTag]
        exact h.classes
  | className =>
      refine ⟨h.tags, ?_⟩
      show Padded ys r.classes (r'.registerClass "" label handler).classes
      rw [classes_registerClass]
      simpa using h.classes.append (.insert _ ⟨hy, rfl⟩ .nil)

lemma Widened.foldl {cs cs' : List Change} {zs : List Registration} (hcs : Inserted cs zs cs')
    (hzs : zs ⊆ ys) (hempty : ∀ z ∈ zs, z.value = "") (h : Widened ys r r') :
    Widened ys (cs.foldl Registry.change r) (cs'.foldl Registry.change r') := by
  induction hcs generalizing r r' with
  | nil => exact h
  | keep c _ ih => exact ih hzs hempty (h.change c)
  | insert y _ ih =>
      obtain ⟨hy, hempty⟩ := List.forall_mem_cons.mp hempty
      obtain ⟨hmem, hzs⟩ := List.cons_subset.mp hzs
      exact ih hzs hempty (h.insert hmem hy)

/-- **What becomes of a registry** when registrations under empty keys are put into its history. -/
lemma widened_ofChanges {cs cs' : List Change} (hcs : Inserted cs ys cs')
    (hys : ∀ y ∈ ys, y.value = "") : Widened ys (ofChanges cs) (ofChanges cs') :=
  Widened.foldl hcs (List.Subset.refl ys) hys ⟨fun _ _ => rfl, .nil⟩

end Registry

/-! ### Elements and tags -/

/-- Elements whose class is none that registrations are for. -/
def OtherClass (ys : List Registration) (e : Element) : Prop :=
  ∀ y ∈ ys, y.kind = .className → e.get? "class" ≠ some y.value

/-- Elements that registrations under empty keys have nothing to do with. -/
def Unaddressed (ys : List Registration) (e : Element) : Prop :=
  e.name ≠ "" ∧ OtherClass ys e

/-- Names that are not empty. -/
def nonempty : Naming where
  tag name := name ≠ ""
  attributes _ := True
  element e := e.name ≠ ""
  doctype _ := True

lemma push_ne_empty (s : String) (c : Char) : s.push c ≠ "" := by
  intro h
  have hlist := congrArg String.toList h
  rw [String.toList_push] at hlist
  simp at hlist

lemma nonempty_closed : nonempty.Closed where
  implied := by
    show ∀ name ∈ impliedNames, name ≠ ""
    decide
  bare := trivial
  html _ _ hname _ := hname
  svg _ _ hname _ := by
    have hall : ∀ name ∈ graphicNames, name ≠ "" := by decide
    exact withCapitals_of_forall hname hall
  mathml _ _ hname _ := hname
  missing _ _ he _ := he

lemma nonempty_readable : nonempty.Readable where
  letter _ _ := push_ne_empty "" _
  push _ _ _ _ _ _ := push_ne_empty _ _
  bare := trivial
  append _ _ _ _ _ _ := trivial
  undeclared := trivial
  pushDoctype _ _ _ _ := trivial

lemma name_templateElement_ne (as : List Attribute) : (templateElement as).name ≠ "" :=
  (by decide : "template" ≠ "")

variable {ys : List Registration}

/-- The elements of a document have names. -/
lemma unaddressed_readContent {content : String}
    (hts : Tree.OnlyAll (OtherClass ys) (readContent content)) :
    Tree.OnlyAll (Unaddressed ys) (readContent content) := by
  have hsound : Tree.SoundAll nonempty (readContent content) :=
    Tree.soundAll_iff.mpr (sound_parseDocument nonempty_closed nonempty_readable _)
  exact (hsound.only (fun _ he => he) name_templateElement_ne).and hts

/-- The elements of markup have names. -/
lemma unaddressed_readMarkup {markup : String}
    (hts : Tree.OnlyAll (OtherClass ys) (readMarkup markup).1) :
    Tree.OnlyAll (Unaddressed ys) (readMarkup markup).1 := by
  have hsound : Tree.SoundAll nonempty (readMarkup markup).1 :=
    Tree.soundAll_iff.mpr (sound_parseFragment nonempty_closed nonempty_readable markup.toList)
  exact (hsound.only (fun _ he => he) name_templateElement_ne).and hts

/-- Self-closing tags have names. -/
lemma name_ne_nil_of_selfClosingTag? {s : List Char} {t : SelfClosingTag}
    (ht : selfClosingTag? s = some t) : t.name ≠ [] := by
  unfold selfClosingTag? at ht
  split at ht
  · split at ht
    · dsimp only at ht
      split at ht
      · simp at ht
      · split at ht
        · obtain ⟨x, -, rfl⟩ := Option.map_eq_some_iff.mp ht
          simp
        · split at ht
          · obtain rfl := Option.some.inj ht
            simp
          · simp at ht
    · simp at ht
  · simp at ht

lemma expandFrom_congr {accepts accepts' : String → Bool}
    (h : ∀ name, name ≠ "" → accepts' name = accepts name) (skip : ℕ) (s : List Char) :
    expandFrom accepts' skip s = expandFrom accepts skip s := by
  induction s generalizing skip with
  | nil => cases skip <;> rfl
  | cons c s ih =>
      cases skip with
      | succ skip => exact ih skip
      | zero =>
          rw [expandFrom, expandFrom]
          cases ht : selfClosingTag? (c :: s) with
          | none => simp only [ih]
          | some t =>
              have hname : (String.ofList t.name).toLower ≠ "" := by
                intro hempty
                have hlist := congrArg String.toList hempty
                rw [toList_toLower, String.toList_ofList] at hlist
                exact name_ne_nil_of_selfClosingTag? ht (List.map_eq_nil_iff.mp hlist)
              simp only [ih, h _ hname]

/-- The tags that are written out have names. -/
lemma expandTags_congr {accepts accepts' : String → Bool}
    (h : ∀ name, name ≠ "" → accepts' name = accepts name) (content : String) :
    expandTags accepts' content = expandTags accepts content := by
  rw [expandTags, expandTags, expandFrom_congr h]

end RichText
