import RichText.Proofs.Substitution.ByTag

/-!
Content in which nothing is registered.

* `expandTags_of_not_accepted`: self-closing tags of names that are not accepted stay;
* `Processor.yields_substituteAt_of_unmarked`, `Processor.outcome_substituteRegistered_of_unmatched`:
  the passes over elements that nothing is registered for change nothing;
* `Processor.exists_yields_substitute`: substitution in content as the passes over its tree;
* `Processor.yields_substitute_of_unmatched`: **substitution in content without matches** gives
  what reading, writing and recovering give.
-/

namespace RichText

/-! ### Self-closing tags -/

section Expansion

variable {accepts : String → Bool} {s : List Char}

lemma expandFrom_length (x s : List Char) :
    expandFrom accepts x.length (x ++ s) = expandFrom accepts 0 s := by
  induction x with
  | nil => rfl
  | cons c x ih => rw [List.length_cons, List.cons_append, expandFrom, ih]

/-- A tag at the start of a text is expanded or copied. -/
lemma expandFrom_of_selfClosingTag? {t : SelfClosingTag}
    (ht : selfClosingTag? (t.source ++ s) = some t) :
    expandFrom accepts 0 (t.source ++ s)
      = (if accepts (String.ofList t.name).toLower then t.expanded else t.source)
        ++ expandFrom accepts 0 s := by
  have hsource : t.source = '<' :: (t.name ++ t.attributes ++ t.blanks ++ ['/', '>']) := by
    simp [SelfClosingTag.source]
  have hlen : t.source.length - 1
      = (t.name ++ t.attributes ++ t.blanks ++ ['/', '>']).length := by
    rw [hsource, List.length_cons, Nat.add_sub_cancel]
  have hcons : t.source ++ s = '<' :: ((t.name ++ t.attributes ++ t.blanks ++ ['/', '>']) ++ s) := by
    rw [hsource, List.cons_append]
  rw [hcons] at ht ⊢
  rw [expandFrom]
  simp only [ht]
  rw [hlen, expandFrom_length]

/-- Where no self-closing tag of an accepted name is written, nothing is expanded. -/
lemma expandFrom_eq_self : ∀ s : List Char, (∀ v t, v <:+ s → selfClosingTag? v = some t →
    accepts (String.ofList t.name).toLower = false) → expandFrom accepts 0 s = s := by
  intro s
  induction hn : s.length using Nat.strong_induction_on generalizing s with
  | _ n ih =>
    intro hnot
    cases hfound : selfClosingTag? s with
    | none =>
        cases s with
        | nil => rfl
        | cons c cs =>
            rw [expandFrom]
            simp only [hfound]
            rw [ih cs.length (by simp [← hn]) cs rfl fun v t hv =>
              hnot v t (hv.trans (List.suffix_cons c cs))]
    | some t =>
        -- the tag is copied, and what follows it is shorter
        obtain ⟨rest, rfl⟩ := source_prefix_of_selfClosingTag? hfound
        have hshort : rest.length < n := by
          rw [← hn, List.length_append, SelfClosingTag.source]
          simp
        rw [expandFrom_of_selfClosingTag? hfound, hnot _ t (List.suffix_refl _) hfound,
          if_neg Bool.false_ne_true, ih rest.length hshort rest rfl fun v t hv =>
            hnot v t (hv.trans (List.suffix_append _ _))]

/-- **Content without self-closing tags** of accepted names stays as it is. -/
theorem expandTags_eq_self {content : String} (hnot : ∀ v t, v <:+ content.toList →
    selfClosingTag? v = some t → accepts (String.ofList t.name).toLower = false) :
    expandTags accepts content = content := by
  rw [expandTags, expandFrom_eq_self _ hnot, String.ofList_toList]

/-- **Self-closing tags** of names that are not accepted stay as they are. -/
theorem expandTags_of_not_accepted (hnot : ∀ name, accepts name = false) (content : String) :
    expandTags accepts content = content :=
  expandTags_eq_self fun _ _ _ _ => hnot _

end Expansion

namespace Processor

open Heap Run
open Layout (idsAll)

variable {p : Processor} {w : World} {context : Option String} {α : Type}

/-! ### The passes -/

/-- At a node without registered tag the pass does what it does below. -/
lemma yields_substituteAt_of_children {s : Layout} {out : Except Failure Unit × World}
    (hs : w.heap.Carries s) (hnot : p.registers w.heap s.id = false)
    (hbelow : p.Yields (fun ask => substituteEach ask context (s.children.map Layout.id)) w out) :
    p.Yields (fun ask => p.substituteAt ask s.id context) w out := by
  refine Yields.congr (fun ask => ?_) hbelow
  rw [substituteAt_of_not_registers hnot, hs.children_eq]

mutual

/-- The pass by tag changes nothing where no node that is reached has a registered tag. -/
lemma yields_substituteAt_of_unmarked : ∀ {s : Layout}, w.heap.Carries s →
    (∀ k, w.heap.Reaches s.id k → p.registers w.heap k = false) →
    p.Yields (fun ask => p.substituteAt ask s.id context) w (.ok (), w)
  | .node _ _, hs, hnot =>
      yields_substituteAt_of_children hs (hnot _ .refl)
        (yields_substituteEach_of_unmarked hs.carriesAll_children
          fun _ hu k hk => hnot k (hk.head (hs.child_of_mem hu)))
  | .template _ _ _ _, hs, hnot =>
      yields_substituteAt_of_children hs (hnot _ .refl)
        (yields_substituteEach_of_unmarked hs.carriesAll_children
          fun _ hu k hk => hnot k (hk.head (hs.child_of_mem hu)))

lemma yields_substituteEach_of_unmarked : ∀ {ss : List Layout}, w.heap.CarriesAll ss →
    (∀ s ∈ ss, ∀ k, w.heap.Reaches s.id k → p.registers w.heap k = false) →
    p.Yields (fun ask => substituteEach ask context (ss.map Layout.id)) w (.ok (), w)
  | [], _, _ => Yields.of_outcome fun _ => rfl
  | s :: ss, ⟨hs, hss⟩, hnot => by
      have hat : p.Yields (fun ask => p.substituteAt ask s.id context) w (.ok (), w) :=
        yields_substituteAt_of_unmarked hs (hnot s List.mem_cons_self)
      exact (Yields.ask (r := .substituteAt s.id context) hat).bind_ok
        (yields_substituteEach_of_unmarked hss fun u hu => hnot u (List.mem_cons_of_mem _ hu))

end

/-- The pass by class does nothing for classes that no element has. -/
lemma outcome_substituteRegistered_of_unmatched {ask : Answerer} {root : NodeId}
    {rs : List Registration} (hnone : ∀ r ∈ rs, w.heap.withClass r.value root = []) :
    (p.substituteRegistered ask root context rs).outcome w = some (.ok (), w) := by
  induction rs with
  | nil => rfl
  | cons r rs ih =>
      obtain ⟨hr, hrs⟩ := List.forall_mem_cons.mp hnone
      have hmatches : (p.substituteMatches ask r root context
          (w.heap.withClass r.value root)).outcome w = some (.ok (), w) := by
        rw [hr]
        rfl
      rw [substituteRegistered, outcome_bind_ok (outcome_heap w), outcome_bind_ok hmatches, ih hrs]

/-! ### Content -/

/-- What the context source says is of no matter to the heap. -/
lemma outcome_lookupContext (p : Processor) (w : World) :
    ∃ context n, p.lookupContext.outcome w = some (.ok context, { w with lookups := n }) := by
  rw [lookupContext]
  cases p.context with
  | none => exact ⟨none, w.lookups, rfl⟩
  | some source => exact ⟨source (w.lookups + 1), w.lookups + 1, rfl⟩

/-- What is done with content that has been read into the tree of `root`: the two passes, and the
recovery of what they leave. -/
def processed (p : Processor) (ask : Answerer) (content : String) (root : NodeId)
    (context : Option String) : Run String := do
  p.substituteAt ask root context
  p.substituteClassed ask root context
  return recoverContent ((← Run.heap).markup root) content p.options.restoreShortcodeUrls

/-- **Substitution in content** is what is done, one level deeper, with the tree that it has been
read into. -/
lemma exists_yields_substitute (content : String) {expanded : String} (hallows : p.Allows w)
    (hexpanded : expandTags (fun tag => (p.registry.forTag? tag).isSome) content = expanded) :
    ∃ context n, ∀ out w',
      p.Yields (fun ask => p.processed ask content
          (w.heap.plant (.document (readContent expanded))).2 context)
        { w with heap := (w.heap.plant (.document (readContent expanded))).1, depth := w.depth + 1,
                 lookups := n } (out, w') →
      p.Yields (fun ask => p.substitute ask content) w (out, { w' with depth := w'.depth - 1 }) := by
  obtain ⟨context, n, hlookup⟩ := outcome_lookupContext p { w with depth := w.depth + 1 }
  refine ⟨context, n, fun out w' hy => Yields.guarded ?_ hallows⟩
  refine (Yields.of_outcome fun _ => hlookup).bind_ok ?_
  dsimp only
  rw [hexpanded]
  exact (Yields.of_outcome fun _ => outcome_plant _ _).bind_ok hy

/-- **Substitution in content without matches** gives what reading, writing and recovering give,
and runs no handler. -/
theorem yields_substitute_of_unmatched {content expanded : String} {ts : List Tree}
    (hallows : p.Allows w) (hwf : w.heap.WellFormed)
    (hexpanded : expandTags (fun tag => (p.registry.forTag? tag).isSome) content = expanded)
    (hts : readContent expanded = ts)
    (htags : ∀ k, (w.heap.plant (.document ts)).1.Reaches (w.heap.plant (.document ts)).2 k →
      p.registers (w.heap.plant (.document ts)).1 k = false)
    (hclasses : ∀ r ∈ p.registry.classes, (w.heap.plant (.document ts)).1.withClass r.value
      (w.heap.plant (.document ts)).2 = []) :
    ∃ n, p.Yields (fun ask => p.substitute ask content) w
      (.ok (recoverContent (writeNodes ts) content p.options.restoreShortcodeUrls),
        { w with heap := (w.heap.plant (.document ts)).1, lookups := n }) := by
  obtain ⟨context, n, hprocessed⟩ := exists_yields_substitute content hallows hexpanded
  rw [hts] at hprocessed
  obtain ⟨-, -, -, -, s, hid, hs, -⟩ := hwf.plant (.document ts)
  set w' : World :=
    { w with heap := (w.heap.plant (.document ts)).1, depth := w.depth + 1, lookups := n } with hw'
  have hwalk : p.Yields (fun ask => p.substituteAt ask s.id context) w' (.ok (), w') :=
    yields_substituteAt_of_unmarked hs fun k hk => htags k (hid ▸ hk)
  have hscan : p.Yields (fun ask => p.substituteClassed ask s.id context) w' (.ok (), w') :=
    Yields.of_outcome fun ask => outcome_substituteRegistered_of_unmatched (hid ▸ hclasses)
  have hmarkup : w'.heap.markup s.id = writeNodes ts := by
    rw [Heap.markup, hid, forest_planted hwf, writeNodes]
  rw [← hid] at hprocessed
  refine ⟨n, hprocessed _ w' (hwalk.bind_ok (hscan.bind_ok (Yields.of_outcome fun _ => ?_)))⟩
  rw [outcome_bind_ok (outcome_heap w'), hmarkup, outcome_pure]

end Processor

end RichText
