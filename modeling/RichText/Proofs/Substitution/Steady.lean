import RichText.Proofs.Substitution.Splice

/-!
Computations that are the same in a state.

A computation can be put beside a form of it that is cut off at times, such as where something
does not hold that should. `Processor.Steady` says that the form is never cut off in a state, and what
becomes of the heap: the relation `R` holds between the heap before and the heap after, however the
computation ends. The lemmas follow the ways in which computations are put together.
-/

namespace RichText

namespace Processor

open Run

variable {α β : Type} {R R' : Heap → Heap → Prop} {w : World} {x x' : Run α}

/-- Two computations have the same outcome in a state, whose heap is related to the one after. -/
def Steady (R : Heap → Heap → Prop) (w : World) (x x' : Run α) : Prop :=
  x'.outcome w = x.outcome w ∧ ∀ out, x.outcome w = some out → R w.heap out.2.heap

namespace Steady

lemma mono (hx : Steady R w x x') (hR : ∀ h', R w.heap h' → R' w.heap h') : Steady R' w x x' :=
  ⟨hx.1, fun out hout => hR _ (hx.2 out hout)⟩

/-- A computation that leaves the heap as it is. -/
lemma of_still (hR : R w.heap w.heap)
    (hx : ∀ out, x.outcome w = some out → out.2.heap = w.heap) : Steady R w x x := by
  refine ⟨rfl, fun out hout => ?_⟩
  rw [hx out hout]
  exact hR

lemma pure (hR : R w.heap w.heap) (a : α) : Steady R w (pure a : Run α) (Pure.pure a) :=
  of_still hR fun out hout => by
    obtain rfl := Option.some.inj hout
    rfl

lemma throw (hR : R w.heap w.heap) (e : Failure) :
    Steady R w (throw e : Run α) (MonadExcept.throw e) :=
  of_still hR fun out hout => by
    obtain rfl := Option.some.inj hout
    rfl

lemma record (hR : R w.heap w.heap) (e : Event) : Steady R w (Run.record e) (Run.record e) :=
  of_still hR fun out hout => by
    obtain rfl := Option.some.inj hout
    rfl

lemma lookupContext (hR : R w.heap w.heap) (p : Processor) :
    Steady R w p.lookupContext p.lookupContext :=
  of_still hR fun out hout => by
    rw [Processor.lookupContext] at hout
    cases hc : p.context <;> (rw [hc] at hout; obtain rfl := Option.some.inj hout; rfl)

lemma plant {ts : List Tree} (hR : R w.heap (w.heap.plant (.document ts)).1) :
    Steady R w (Run.plant ts) (Run.plant ts) := by
  refine ⟨rfl, fun out hout => ?_⟩
  obtain rfl := Option.some.inj hout
  exact hR

lemma fragment (hR : R w.heap w.heap) (hplant : ∀ ts, R w.heap (w.heap.plant (.document ts)).1)
    (p : Processor) (tag markup : String) :
    Steady R w (p.fragment tag markup) (p.fragment tag markup) := by
  refine ⟨rfl, fun out hout => ?_⟩
  rw [outcome_fragment] at hout
  split at hout
  · obtain rfl := Option.some.inj hout
    exact hR
  · exact (plant (hplant _)).2 out hout

/-- One computation after the other. -/
lemma bind {f f' : α → Run β} (htrans : ∀ h' h'', R w.heap h' → R h' h'' → R w.heap h'')
    (hx : Steady R w x x')
    (hf : ∀ a w', x.outcome w = some (.ok a, w') → R w.heap w'.heap → Steady R w' (f a) (f' a)) :
    Steady R w (x >>= f) (x' >>= f') := by
  constructor
  · rw [outcome_bind, outcome_bind, hx.1]
    cases hout : x.outcome w with
    | none => rfl
    | some out =>
        obtain ⟨result, w'⟩ := out
        cases result with
        | error e => rfl
        | ok a => exact (hf a w' hout (hx.2 _ hout)).1
  · intro out hout
    rcases outcome_bind_eq_some hout with ⟨a, w', hxa, hfa⟩ | ⟨e, w', hxe, rfl⟩
    · exact htrans _ _ (hx.2 _ hxa) ((hf a w' hxa (hx.2 _ hxa)).2 out hfa)
    · exact hx.2 _ hxe

/-- The heap looked at. -/
lemma heap_bind {f f' : Heap → Run α} (hf : Steady R w (f w.heap) (f' w.heap)) :
    Steady R w (Run.heap >>= f) (Run.heap >>= f') := by
  rw [Steady, outcome_bind_ok (outcome_heap w), outcome_bind_ok (outcome_heap w)]
  exact hf

/-- A level of nesting changes no heap. -/
lemma guarded (p : Processor) (hR : R w.heap w.heap)
    (hx : Steady R { w with depth := w.depth + 1 } x x') :
    Steady R w (p.guarded x) (p.guarded x') := by
  rcases p.allows_or_limit w with hallows | ⟨limit, hmax, hle⟩
  · rw [Steady, outcome_guarded _ hallows, outcome_guarded _ hallows, hx.1]
    refine ⟨rfl, fun out hout => ?_⟩
    obtain ⟨⟨result, w'⟩, hx', rfl⟩ := Option.map_eq_some_iff.mp hout
    have hafter := hx.2 _ hx'
    exact hafter
  · rw [Steady, outcome_guarded_of_limit _ hmax hle, outcome_guarded_of_limit _ hmax hle]
    refine ⟨rfl, fun out hout => ?_⟩
    obtain rfl := Option.some.inj hout
    exact hR

end Steady

end Processor

end RichText
