import RichText.Proofs.Construction.Opening
import RichText.Proofs.Content.Stripping

/-!
A plain forest written and read as content.

* `notMem_serializeNodes`: writing brings in no characters but those of tags and references;
* `readsDeclared_serialize`: a written forest read behind the declaration;
* `readContent_of_isPlainAll`: **the document of a written plain forest** has the forest in its
  body.
-/

namespace RichText

variable {a : Char} {s : List Char} {ts : List Tree} {inParagraph : Bool}

/-! ### Characters -/

lemma notMem_of_isClean (hs : isClean s = true) : '\r' ∉ s := fun hmem =>
  (isClean_iff.mp hs '\r' hmem).2 rfl

lemma notMem_of_keptInNames (hs : ∀ c ∈ s, KeptInNames c) : '\r' ∉ s := fun hmem =>
  absurd (hs '\r' hmem).1 (by decide)

lemma notMem_attributeText {b : Attribute} (hb : b.isPlain = true) :
    '\r' ∉ attributeText (escapeChar .inValue) b := by
  have hname := notMem_of_keptInNames (Attribute.readable_of_isPlain hb).name
  simp only [Attribute.isPlain, Bool.and_eq_true] at hb
  have hvalue : '\r' ∉ b.value.toList.flatMap (escapeChar .inValue) :=
    notMem_escape (by decide) fun hmem => absurd hmem (notMem_of_isClean hb.2)
  simp [attributeText, hname, hvalue]

mutual

/-- What is written for a plain tree has no carriage return. -/
lemma notMem_serializeNode : ∀ {t : Tree} {inParagraph : Bool}, t.isPlain inParagraph = true →
    '\r' ∉ serializeNode {} t
  | .element n cs, inParagraph, ht => by
      simp only [Tree.isPlain, Bool.and_eq_true] at ht
      obtain ⟨-, hname, has, -⟩ := Element.isPlain_iff.mp ht.1.1
      have hname := notMem_of_keptInNames (keptInNames_of_isPlainName hname).1
      have has : '\r' ∉ n.attributes.flatMap (attributeText (escapeChar .inValue)) := fun hmem => by
        obtain ⟨b, hb, hb'⟩ := List.mem_flatMap.mp hmem
        exact notMem_attributeText (has b hb) hb'
      have hcs : '\r' ∉ serialize cs := notMem_serializeNodes ht.2
      rw [serializeNode_of_isPlain ht.1.1, tagText]
      simp [hname, has, hcs]
  | .text x, inParagraph, ht => by
      simp only [Tree.isPlain, Bool.and_eq_true] at ht
      rw [serializeNode_text]
      exact notMem_escape (by decide) fun hmem => absurd hmem (notMem_of_isClean ht.2)
  | .template _ _ _, _, ht => absurd ht (by simp [Tree.isPlain])
  | .comment _, _, ht => absurd ht (by simp [Tree.isPlain])
  | .doctype _ _ _, _, ht => absurd ht (by simp [Tree.isPlain])
  | .document _, _, ht => absurd ht (by simp [Tree.isPlain])

/-- What is written for a plain forest has no carriage return. -/
lemma notMem_serializeNodes : ∀ {ts : List Tree} {inParagraph : Bool},
    Tree.isPlainAll inParagraph ts = true → '\r' ∉ serializeNodes {} ts
  | [], _, _ => by simp [serializeNodes]
  | t :: ts, inParagraph, hts => by
      obtain ⟨ht, -, hts⟩ := Tree.isPlainAll_cons.mp hts
      rw [serializeNodes, List.mem_append, not_or]
      exact ⟨notMem_serializeNode ht, notMem_serializeNodes hts⟩

end

lemma joinNewlines_eq_self (hs : '\r' ∉ s) : joinNewlines s = s := by
  induction s with
  | nil => rfl
  | cons c s ih =>
      have hc : c ≠ '\r' := fun heq => hs (heq ▸ List.mem_cons_self)
      rw [joinNewlines, ih fun hmem => hs (List.mem_cons_of_mem c hmem)]
      rintro cs rfl -
      exact hc rfl

/-! ### The document -/

/-- Whether a forest begins with text that begins with white space of markup. -/
def Tree.beginsBlank : List Tree → Bool
  | .text x :: _ => x.toList.head?.any isMarkupSpace
  | _ => false

namespace Construction

open Heap

/-- **A written text behind the declaration** that does not begin with white space grows inside the
body. -/
lemma grows_declared_text {form : Char → List Char} (hs : Writes '<' form s) (hne : s ≠ [])
    (hblank : s.head?.any isMarkupSpace = false) {rest : List Char}
    (hrest : ∀ b ∈ rest.head?, b = '<') :
    Grows declared opened bodyElement.id (s.flatMap form) rest [.text (String.ofList s)] := by
  refine grows_text inside_opened.toWithin hs hne hrest fun v hv hprefix => ?_
  obtain ⟨b, w, rfl⟩ := List.exists_cons_of_ne_nil hv
  obtain ⟨u, rfl⟩ := hprefix
  exact feed_declared_text (by simpa using hblank) w

/-- **A plain forest behind the declaration** grows inside the body. -/
lemma grows_declared (hts : Tree.isPlainAll false ts = true) (hne : ts ≠ [])
    (hblank : Tree.beginsBlank ts = false) :
    Grows declared opened bodyElement.id (serialize ts) [] ts := by
  cases ts with
  | nil => exact absurd rfl hne
  | cons t ts =>
      obtain ⟨ht, hnext, hts'⟩ := Tree.isPlainAll_cons.mp hts
      cases t with
      | element n cs =>
          simp only [Tree.isPlain, Bool.and_eq_true] at ht
          obtain ⟨-, hname, has, hnd⟩ := Element.isPlain_iff.mp ht.1.1
          have hstart : BodyStart.of n.name = .block ∨ BodyStart.of n.name = .ordinary :=
            (flows_of_isPlainName hname).2.imp_left fun h => h.1
          have hwritten : serialize (.element n cs :: ts) ++ []
              = tagText (escapeChar .inValue) n.name n.attributes
                ++ (serialize cs ++ ('<' :: '/' :: n.name.toList ++ ['>']) ++ serialize ts) := by
            rw [serialize, serializeNodes, serializeNode_of_isPlain ht.1.1, serialize]
            simp [serialize]
          intro limit
          rw [hwritten, build_declared_startTag (isTagName_of_isPlainName hname)
            (fun a ha => Attribute.readable_of_isPlain (has a ha)) hnd
            (notMem_of_isPlainName hname frontNames (by decide)) hstart, ← hwritten]
          exact grows_forest hts inside_opened (fun _ => hasParagraph_opened)
            (fun _ => not_endsInText_opened) [] (by simp) limit
      | text x =>
          simp only [Tree.isPlain, Bool.and_eq_true, decide_eq_true_eq] at ht
          have hne : x.toList ≠ [] := by
            rw [ne_eq, String.toList_eq_nil_iff]
            exact ht.1
          have hbehind : ∀ b ∈ (serialize ts ++ []).head?, b = '<' :=
            head?_serialize_append hts' (hnext rfl) (by simp)
          have hgrows := Grows.append inside_opened
            (grows_declared_text (writes_escapeChar .betweenTags (isClean_iff.mp ht.2)) hne hblank
              hbehind)
            fun h ok hplanted => grows_forest hts'
              (inside_opened.grown hplanted ok)
              (fun _ => hasParagraph_opened)
              (fun htext => absurd htext (by rw [hnext rfl]; simp)) [] (by simp)
          simpa [serialize, serializeNodes, serializeNode_text, escape] using hgrows
      | _ => exact absurd ht (by simp [Tree.isPlain])

/-- Whether `ts` have been read into the body when a text behind the declaration has been read. -/
def ReadsDeclared (s : List Char) (ts : List Tree) : Prop :=
  ∃ h, (declared.build (.markup none) s).heap = h
    ∧ (declared.build (.markup none) s).root = opened.root
    ∧ PlantedBelow opened.heap h bodyElement.id ts

/-- What has grown at the end of the text is what has been read. -/
lemma Grows.readsDeclared (hgrows : Grows declared opened bodyElement.id s [] ts) :
    ReadsDeclared s ts := by
  obtain ⟨h, ok, limit, hbuild, hplanted⟩ := hgrows none
  have hinside := inside_opened.grown hplanted ok
  rw [List.append_nil, build, hinside.finish_eq rfl] at hbuild
  rw [ReadsDeclared, hbuild, root_checkClosed, heap_checkClosed]
  exact ⟨h, rfl, rfl, hplanted⟩

/-- A text with nothing in it. -/
lemma readsDeclared_nil : ReadsDeclared [] [] := by
  have hturn : opened.turn .endOfText = opened.checkClosed.done := by
    rw [inside_opened.turn_eq]
    rfl
  have hbuild : declared.build (.markup none) [] = opened.checkClosed := by
    have hend : OpensBody .endOfText := trivial
    rw [build, finish, take_declared hend hturn (by simp)]
  rw [ReadsDeclared, hbuild, root_checkClosed, heap_checkClosed]
  exact ⟨_, rfl, rfl, inside_opened.wellFormed.plantedBelow_nil _⟩

/-- A written plain forest read behind the declaration. -/
lemma readsDeclared_serialize (hts : Tree.isPlainAll false ts = true)
    (hblank : Tree.beginsBlank ts = false) : ReadsDeclared (serialize ts) ts := by
  by_cases hne : ts = []
  · subst hne
    exact readsDeclared_nil
  · exact (grows_declared hts hne hblank).readsDeclared

end Construction

open Construction in
/-- The document of content without carriage returns, from what is read behind the declaration. -/
lemma readContent_of_readsDeclared {content : String} (hcontent : '\r' ∉ content.toList)
    (hts : ReadsDeclared content.toList ts) :
    readContent content = [.comment declarationText, documentElement [] ts] := by
  obtain ⟨h, hheap, hroot, hplanted⟩ := hts
  have hjoined : '\r' ∉ declaration ++ content.toList := by
    rw [List.mem_append, not_or]
    exact ⟨by decide, hcontent⟩
  have hprepare : prepare (declaration ++ content.toList) = declaration ++ content.toList := by
    have hmark : withoutByteOrderMark (declaration ++ content.toList)
        = declaration ++ content.toList := rfl
    rw [prepare, hmark, joinNewlines_eq_self hjoined]
  rw [readContent, parseDocument, hprepare, build_declaration, hheap, hroot, forest_opened hplanted]
  rfl

open Construction in
/-- **The document of a written plain forest** has the forest in its body. -/
theorem readContent_of_isPlainAll (hts : Tree.isPlainAll false ts = true)
    (hblank : Tree.beginsBlank ts = false) :
    readContent (writeNodes ts) = [.comment declarationText, documentElement [] ts] := by
  have hwritten : (writeNodes ts).toList = serialize ts := String.toList_ofList
  refine readContent_of_readsDeclared ?_ ?_
  · rw [hwritten]
    exact notMem_serializeNodes hts
  · rw [hwritten]
    exact readsDeclared_serialize hts hblank

end RichText
