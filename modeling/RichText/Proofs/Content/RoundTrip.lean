import RichText.Proofs.Content.Recovering
import RichText.Proofs.Substitution.Unmatched

/-!
Plain forests through the whole of the processing.

* `canonicalForm_writeNodes`: a written plain forest is its own canonical form;
* `Processor.substitute_writeNodes`: **without registrations a written plain forest comes back**,
  at every level of nesting that the limit allows.
-/

namespace RichText

variable {ts : List Tree}

/-- A written plain forest without coded brackets is its own canonical form. -/
lemma canonicalForm_writeNodes (hts : Tree.isPlainAll false ts = true)
    (hblank : Tree.beginsBlank ts = false)
    (hcoded : ∀ a ∈ Tree.attributesAll ts, a.isCoded = false) (restore : Bool) :
    canonicalForm (writeNodes ts) restore = writeNodes ts := by
  have hrecover := Recovery.recover_documentElement hts hcoded restore
  rw [canonicalForm, readContent_of_isPlainAll hts hblank, recoverContent, writeNodes, writeNodes,
    String.toList_ofList, String.toList_ofList, hrecover]

namespace Processor

/-- Without registrations substitution in content gives its canonical form, where nesting is
allowed. -/
lemma yields_substitute_of_empty {p : Processor} {w : World} (hp : p.registry = {})
    (hallows : p.Allows w) (hwf : w.heap.WellFormed) (content : String) :
    ∃ w', p.Yields (fun ask => p.substitute ask content) w
      (.ok (canonicalForm content p.options.restoreShortcodeUrls), w') := by
  have hnot : ∀ tag, (p.registry.forTag? tag).isSome = false := by
    intro tag
    rw [hp, Registry.forTag?]
    simp
  have htags : ∀ (h : Heap) k, p.registers h k = false := by
    intro h k
    rw [registers]
    cases h.tagName k with
    | none => rfl
    | some tag => exact hnot tag
  have hclasses : p.registry.classes = [] := by rw [hp]; rfl
  obtain ⟨n, hn⟩ := yields_substitute_of_unmatched hallows hwf
    (expandTags_of_not_accepted hnot content) rfl (fun k _ => htags _ k) (by simp [hclasses])
  exact ⟨_, hn⟩

/-- **Without registrations a written plain forest comes back** as it was: from reading, writing and
recovering it, whether brackets are restored or not, and from a processor with nothing registered
that may nest one level deeper. Beyond the limit of nesting there is an error instead. -/
theorem substitute_writeNodes (hts : Tree.isPlainAll false ts = true)
    (hblank : Tree.beginsBlank ts = false)
    (hcoded : ∀ a ∈ Tree.attributesAll ts, a.isCoded = false) :
    (∀ restore, canonicalForm (writeNodes ts) restore = writeNodes ts)
      ∧ ∀ (p : Processor) (w : World), p.registry = {} → w.heap.WellFormed →
        ((∀ limit ∈ p.options.maxNestingDepth, w.depth < limit) →
          ∃ w', p.Yields (fun ask => p.substitute ask (writeNodes ts)) w (.ok (writeNodes ts), w'))
        ∧ ∀ limit, p.options.maxNestingDepth = some limit → limit ≤ w.depth →
          p.Yields (fun ask => p.substitute ask (writeNodes ts)) w
            (.error (.nestingTooDeep limit), w) := by
  refine ⟨canonicalForm_writeNodes hts hblank hcoded, fun p w hp hwf => ⟨fun hallows => ?_, ?_⟩⟩
  · have hback := yields_substitute_of_empty hp hallows hwf (writeNodes ts)
    rwa [canonicalForm_writeNodes hts hblank hcoded] at hback
  · intro limit hmax hdepth
    exact Yields.of_outcome fun ask => outcome_guarded_of_limit _ hmax hdepth

/-- A note with brackets, marks and quotation marks in it. -/
theorem substitute_writeNodes_note :
    let ts : List Tree := [.element { name := "x-note", attributes :=
      [{ name := "title", value := "<a href=\"&\">" }] } [.text "1 < 2"], .text " & [b]\n"]
    canonicalForm (writeNodes ts) true = writeNodes ts
      ∧ ∃ w', ({} : Processor).Yields (fun ask => ({} : Processor).substitute ask (writeNodes ts)) {}
        (.ok (writeNodes ts), w') := by
  intro ts
  have hts : Tree.isPlainAll false ts = true := by decide
  have hback := substitute_writeNodes hts (by decide) (by decide)
  exact ⟨hback.1 true, (hback.2 {} {} rfl Heap.wellFormed_empty).1 (by decide)⟩

/-- Where no level of nesting is allowed, not even text comes back. -/
theorem not_substitute_of_limit_zero :
    let p : Processor := { options := { maxNestingDepth := some 0 } }
    Tree.isPlainAll false [.text "x"] = true ∧ Tree.beginsBlank [.text "x"] = false
      ∧ (∀ a ∈ Tree.attributesAll [.text "x"], a.isCoded = false) ∧ p.registry = {}
      ∧ ¬ ∃ w', p.Yields (fun ask => p.substitute ask (writeNodes [.text "x"])) {}
        (.ok (writeNodes [.text "x"]), w') := by
  intro p
  refine ⟨by decide, by decide, by decide, rfl, ?_⟩
  rintro ⟨w', hok⟩
  have herror : p.Yields (fun ask => p.substitute ask (writeNodes [.text "x"])) {}
      (.error (.nestingTooDeep 0), {}) :=
    Yields.of_outcome fun ask => outcome_guarded_of_limit _ rfl (Nat.le_refl 0)
  have := congrArg Prod.fst (hok.unique herror)
  simp at this

end Processor

end RichText
