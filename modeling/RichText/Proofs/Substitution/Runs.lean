import Mathlib.Order.Basic
import RichText.Substitution.Processor

/-!
Runs of the processor, step by step.

* `Run.outcome_bind` and the lemmas beside it: the outcome of a computation from those of its
  parts;
* `Processor.Yields`: a computation ends with an outcome once requests may nest deep enough;
* `Processor.Yields.bind_ok`, `Processor.Yields.bind_error`, `Processor.Yields.ask`: how such
  computations are put together;
* `Processor.outcome_guarded`, `Processor.outcome_guarded_of_limit`: a level of nesting, within the
  limit and beyond;
* `Run.Relates`: what a computation does to the state of the run, however it ends;
* `Processor.StepRelation.answer`: a relation that every single step respects is respected by
  whole runs;
* `Processor.stepRelation_trace`, `Processor.stepRelation_depth`: the trace only grows, and the
  level of nesting comes back.
-/

namespace RichText

variable {α β : Type}

namespace Run

/-! ### Outcomes -/

lemma outcome_pure (a : α) (w : World) : (pure a : Run α).outcome w = some (.ok a, w) := rfl

lemma outcome_throw (e : Failure) (w : World) :
    (throw e : Run α).outcome w = some (.error e, w) := rfl

lemma outcome_heap (w : World) : heap.outcome w = some (.ok w.heap, w) := rfl

lemma outcome_modifyHeap (f : Heap → Heap) (w : World) :
    (modifyHeap f).outcome w = some (.ok (), { w with heap := f w.heap }) := rfl

lemma outcome_record (e : Event) (w : World) :
    (record e).outcome w = some (.ok (), { w with trace := w.trace ++ [e] }) := rfl

lemma outcome_plant (ts : List Tree) (w : World) :
    (plant ts).outcome w = some (.ok (w.heap.plant (.document ts)).2,
      { w with heap := (w.heap.plant (.document ts)).1 }) := rfl

/-- A computation goes on from the outcome of its first part, unless that is an error. -/
lemma outcome_bind (x : Run α) (f : α → Run β) (w : World) :
    (x >>= f).outcome w = (x.outcome w).bind fun out =>
      match out with
      | (.ok a, w') => (f a).outcome w'
      | (.error e, w') => some (.error e, w') := by
  show (ExceptT.bind x f) w = _
  simp only [ExceptT.bind, ExceptT.mk, outcome]
  show (StateT.bind x (ExceptT.bindCont f)) w = _
  rw [StateT.bind]
  show Option.bind (x w) _ = _
  congr 1
  funext ⟨r, w'⟩
  cases r <;> rfl

lemma outcome_bind_ok {x : Run α} {f : α → Run β} {w w' : World} {a : α}
    (hx : x.outcome w = some (.ok a, w')) : (x >>= f).outcome w = (f a).outcome w' := by
  rw [outcome_bind, hx]
  rfl

lemma outcome_bind_error {x : Run α} {f : α → Run β} {w w' : World} {e : Failure}
    (hx : x.outcome w = some (.error e, w')) : (x >>= f).outcome w = some (.error e, w') := by
  rw [outcome_bind, hx]
  rfl

/-- The result changed at the end. -/
lemma outcome_bind_pure (x : Run α) (g : α → β) (w : World) :
    (x >>= fun a => pure (g a)).outcome w = (x.outcome w).map fun out => (out.1.map g, out.2) := by
  rw [outcome_bind]
  cases x.outcome w with
  | none => rfl
  | some out =>
      obtain ⟨result, w'⟩ := out
      cases result <;> rfl

/-- What a computation of two parts has done. -/
lemma outcome_bind_eq_some {x : Run α} {f : α → Run β} {w : World} {out : Except Failure β × World}
    (hxf : (x >>= f).outcome w = some out) :
    (∃ a w', x.outcome w = some (.ok a, w') ∧ (f a).outcome w' = some out)
      ∨ ∃ e w', x.outcome w = some (.error e, w') ∧ out = (.error e, w') := by
  rw [outcome_bind, Option.bind_eq_some_iff] at hxf
  obtain ⟨⟨r, w'⟩, hx, hf⟩ := hxf
  cases r with
  | ok a => exact Or.inl ⟨a, w', hx, hf⟩
  | error e => exact Or.inr ⟨e, w', hx, (Option.some.inj hf).symm⟩

/-- A program that makes a request goes on with the reply. -/
lemma outcome_run_ask (ask : Answerer) (r : Request) (next : Except Failure r.Reply → Program α)
    (w : World) :
    ((Program.ask r next).run ask).outcome w
      = ((ask r).outcome w).bind fun out => ((next out.1).run ask).outcome out.2 := by
  rw [Program.run, outcome, outcome]
  cases ask r w <;> rfl

/-! ### What a computation does to the state -/

/-- Whatever a computation does to the state of the run respects the relation. -/
def Relates (R : World → World → Prop) (x : Run α) : Prop :=
  ∀ w out, x.outcome w = some out → R w out.2

variable {R : World → World → Prop}

lemma Relates.bind (htrans : ∀ u v w, R u v → R v w → R u w) {x : Run α} {f : α → Run β}
    (hx : Relates R x) (hf : ∀ a, Relates R (f a)) : Relates R (x >>= f) := by
  intro w out hout
  rcases outcome_bind_eq_some hout with ⟨a, w', hxa, hfa⟩ | ⟨e, w', hxe, rfl⟩
  · exact htrans _ _ _ (hx w _ hxa) (hf a w' _ hfa)
  · exact hx w _ hxe

lemma Relates.pure (hrefl : ∀ w, R w w) (a : α) : Relates R (Pure.pure a : Run α) := by
  intro w out hout
  rw [outcome_pure, Option.some.injEq] at hout
  subst hout
  exact hrefl w

lemma Relates.throw (hrefl : ∀ w, R w w) (e : Failure) : Relates R (MonadExcept.throw e : Run α) := by
  intro w out hout
  rw [outcome_throw, Option.some.injEq] at hout
  subst hout
  exact hrefl w

end Run

namespace Processor

variable {p : Processor}

/-! ### Computations that end -/

/-- A computation that makes requests ends with the given outcome, however deep these may nest
beyond some depth. -/
def Yields (p : Processor) (x : Answerer → Run α) (w : World) (out : Except Failure α × World) :
    Prop :=
  ∃ n : ℕ, ∀ m, n ≤ m → (x (p.answer m)).outcome w = some out

namespace Yields

lemma of_outcome {x : Answerer → Run α} {w : World} {out : Except Failure α × World}
    (hx : ∀ ask, (x ask).outcome w = some out) : p.Yields x w out :=
  ⟨0, fun _ _ => hx _⟩

lemma congr {x y : Answerer → Run α} {w w' : World} {out : Except Failure α × World}
    (hxy : ∀ ask, (x ask).outcome w = (y ask).outcome w') (hy : p.Yields y w' out) :
    p.Yields x w out := by
  obtain ⟨n, hn⟩ := hy
  exact ⟨n, fun m hm => (hxy _).trans (hn m hm)⟩

lemma bind_ok {x : Answerer → Run α} {f : Answerer → α → Run β} {w w' : World} {a : α}
    {out : Except Failure β × World} (hx : p.Yields x w (.ok a, w'))
    (hf : p.Yields (fun ask => f ask a) w' out) : p.Yields (fun ask => x ask >>= f ask) w out := by
  obtain ⟨n, hn⟩ := hx
  obtain ⟨n', hn'⟩ := hf
  refine ⟨max n n', fun m hm => ?_⟩
  rw [Run.outcome_bind_ok (hn m (Nat.le_trans (Nat.le_max_left n n') hm))]
  exact hn' m (Nat.le_trans (Nat.le_max_right n n') hm)

lemma bind_error {x : Answerer → Run α} {f : Answerer → α → Run β} {w w' : World} {e : Failure}
    (hx : p.Yields x w (.error e, w')) : p.Yields (fun ask => x ask >>= f ask) w (.error e, w') := by
  obtain ⟨n, hn⟩ := hx
  exact ⟨n, fun m hm => Run.outcome_bind_error (hn m hm)⟩

/-- A request is answered one level deeper. -/
lemma ask {r : Request} {w : World} {out : Except Failure r.Reply × World}
    (hr : p.Yields (fun ask => p.serve ask r) w out) : p.Yields (fun ask => ask r) w out := by
  obtain ⟨n, hn⟩ := hr
  refine ⟨n + 1, fun m hm => ?_⟩
  obtain ⟨m, rfl⟩ : ∃ m', m = m' + 1 := ⟨m - 1, by omega⟩
  exact hn m (by omega)

/-- A program that makes a request goes on with the reply. -/
lemma run_ask {r : Request} {next : Except Failure r.Reply → Program α} {w w' : World}
    {reply : Except Failure r.Reply} {out : Except Failure α × World}
    (hr : p.Yields (fun ask => ask r) w (reply, w'))
    (hnext : p.Yields (fun ask => (next reply).run ask) w' out) :
    p.Yields (fun ask => (Program.ask r next).run ask) w out := by
  obtain ⟨n, hn⟩ := hr
  obtain ⟨n', hn'⟩ := hnext
  refine ⟨max n n', fun m hm => ?_⟩
  have hreply : p.answer m r w = some (reply, w') := hn m (Nat.le_trans (Nat.le_max_left n n') hm)
  have hrun : (Program.ask r next).run (p.answer m) w = (next reply).run (p.answer m) w' := by
    simp only [Program.run, hreply]
  exact hrun.trans (hn' m (Nat.le_trans (Nat.le_max_right n n') hm))

/-- A computation has one outcome only. -/
lemma unique {x : Answerer → Run α} {w : World} {out out' : Except Failure α × World}
    (h : p.Yields x w out) (h' : p.Yields x w out') : out = out' := by
  obtain ⟨n, hn⟩ := h
  obtain ⟨n', hn'⟩ := h'
  have h1 := hn (max n n') (Nat.le_max_left n n')
  rw [hn' _ (Nat.le_max_right n n')] at h1
  exact (Option.some.inj h1).symm

end Yields

/-! ### Levels of nesting -/

section Levels

variable {w : World}

/-- Whether one more level of nesting is allowed. -/
def Allows (p : Processor) (w : World) : Prop :=
  ∀ limit ∈ p.options.maxNestingDepth, w.depth < limit

lemma allows_or_limit (p : Processor) (w : World) :
    p.Allows w ∨ ∃ limit, p.options.maxNestingDepth = some limit ∧ limit ≤ w.depth := by
  by_cases hallows : p.Allows w
  · exact .inl hallows
  · simp only [Allows, not_forall, Nat.not_lt] at hallows
    obtain ⟨limit, hmax, hle⟩ := hallows
    exact .inr ⟨limit, hmax, hle⟩

lemma exceeded_of_allows (hallows : p.Allows w) :
    p.options.maxNestingDepth.filter (· < w.depth + 1) = none := by
  rw [Option.filter_eq_none_iff]
  intro limit hlimit
  have := hallows limit hlimit
  simp
  omega

lemma exceeded_of_limit {limit : ℕ} (hmax : p.options.maxNestingDepth = some limit)
    (hdepth : limit ≤ w.depth) :
    p.options.maxNestingDepth.filter (· < w.depth + 1) = some limit := by
  rw [hmax, Option.filter_some, if_pos]
  simpa using Nat.lt_succ_of_le hdepth

/-- A level of nesting within the limit. -/
lemma outcome_guarded (x : Run α) (hallows : p.Allows w) :
    (p.guarded x).outcome w = (x.outcome { w with depth := w.depth + 1 }).map fun (result, w) =>
      (result, { w with depth := w.depth - 1 }) := by
  simp only [Run.outcome, Processor.guarded, exceeded_of_allows hallows]

lemma Yields.guarded {x : Answerer → Run α} {out : Except Failure α} {w' : World}
    (hx : p.Yields x { w with depth := w.depth + 1 } (out, w')) (hallows : p.Allows w) :
    p.Yields (fun ask => p.guarded (x ask)) w (out, { w' with depth := w'.depth - 1 }) := by
  obtain ⟨n, hn⟩ := hx
  refine ⟨n, fun m hm => ?_⟩
  dsimp only
  rw [outcome_guarded _ hallows, hn m hm, Option.map_some]

/-- A level of nesting beyond the limit. -/
lemma outcome_guarded_of_limit (x : Run α) {limit : ℕ}
    (hmax : p.options.maxNestingDepth = some limit) (hdepth : limit ≤ w.depth) :
    (p.guarded x).outcome w = some (.error (.nestingTooDeep limit), w) := by
  rw [Run.outcome, guarded, exceeded_of_limit hmax hdepth]

end Levels

/-! ### Relations that every step respects -/

/-- A relation between states of a run that the single steps of any run respect. -/
structure StepRelation (R : World → World → Prop) : Prop where
  refl : ∀ w, R w w
  trans : ∀ u v w, R u v → R v w → R u w
  heap : ∀ (w : World) (f : Heap → Heap), R w { w with heap := f w.heap }
  record : ∀ (w : World) (e : Event), R w { w with trace := w.trace ++ [e] }
  lookup : ∀ w : World, R w { w with lookups := w.lookups + 1 }
  level : ∀ w w' : World, R { w with depth := w.depth + 1 } w' → R w { w' with depth := w'.depth - 1 }

namespace StepRelation

open Run

variable {R : World → World → Prop}

lemma relates_heap (hR : StepRelation R) : Relates R Run.heap := by
  intro w out hout
  rw [outcome_heap, Option.some.injEq] at hout
  subst hout
  exact hR.refl w

lemma relates_modifyHeap (hR : StepRelation R) (f : Heap → Heap) : Relates R (modifyHeap f) := by
  intro w out hout
  rw [outcome_modifyHeap, Option.some.injEq] at hout
  subst hout
  exact hR.heap w f

lemma relates_record (hR : StepRelation R) (e : Event) : Relates R (Run.record e) := by
  intro w out hout
  rw [outcome_record, Option.some.injEq] at hout
  subst hout
  exact hR.record w e

lemma relates_plant (hR : StepRelation R) (ts : List Tree) : Relates R (Run.plant ts) := by
  intro w out hout
  rw [outcome_plant, Option.some.injEq] at hout
  subst hout
  exact hR.heap w fun h => (h.plant (.document ts)).1

lemma relates_pure (hR : StepRelation R) (a : α) : Relates R (pure a : Run α) :=
  Relates.pure hR.refl a

lemma relates_throw (hR : StepRelation R) (e : Failure) : Relates R (throw e : Run α) :=
  Relates.throw hR.refl e

lemma relates_bind (hR : StepRelation R) {x : Run α} {f : α → Run β} (hx : Relates R x)
    (hf : ∀ a, Relates R (f a)) : Relates R (x >>= f) :=
  Relates.bind hR.trans hx hf

/-- The way requests are answered respects a relation. -/
def Respects (R : World → World → Prop) (ask : Answerer) : Prop := ∀ r, Relates R (ask r)

variable {ask : Answerer}

lemma relates_run (hR : StepRelation R) (hask : Respects R ask) (prog : Program α) :
    Relates R (prog.run ask) := by
  induction prog with
  | done a => exact hR.relates_pure a
  | inspect next ih => exact hR.relates_bind hR.relates_heap fun h => ih h
  | change f next ih => exact hR.relates_bind (hR.relates_modifyHeap f) fun _ => ih
  | note s next ih => exact hR.relates_bind (hR.relates_record _) fun _ => ih
  | ask r next ih =>
      intro w out hout
      simp only [Program.run, outcome] at hout
      split at hout
      · simp at hout
      · next reply w' hr => exact hR.trans _ _ _ (hask r w _ hr) (ih reply w' out hout)

lemma relates_fragment (hR : StepRelation R) (tag markup : String) :
    Relates R (p.fragment tag markup) := by
  rw [fragment]
  dsimp only
  split
  · exact hR.relates_bind (hR.relates_throw _) fun _ => hR.relates_plant _
  · exact hR.relates_plant _

lemma relates_runHandler (hR : StepRelation R) (hask : Respects R ask) (r : Registration)
    (node : NodeId) (context : Option String) : Relates R (runHandler ask r node context) := by
  rw [runHandler]
  refine hR.relates_bind hR.relates_heap fun h => hR.relates_bind (hR.relates_record _) fun _ =>
    hR.relates_bind (hR.relates_run hask _) fun result => ?_
  cases result with
  | ok s => exact hR.relates_pure s
  | error e => exact hR.relates_throw e

lemma relates_putReplacement (hR : StepRelation R) (tag : String) (node : NodeId)
    (anchor : Option Position) (replacement : NodeId) :
    Relates R (putReplacement tag node anchor replacement) := by
  rw [putReplacement]
  refine hR.relates_bind hR.relates_heap fun h => ?_
  cases anchor with
  | none => exact hR.relates_pure _
  | some anchor =>
      dsimp only
      split
      · exact hR.relates_bind (hR.relates_throw _) fun _ => hR.relates_modifyHeap _
      · exact hR.relates_modifyHeap _

lemma relates_replaceElement (hR : StepRelation R) (hask : Respects R ask) (r : Registration)
    (tag : String) (node : NodeId) (context : Option String) :
    Relates R (p.replaceElement ask r tag node context) := by
  rw [replaceElement]
  refine hR.relates_bind hR.relates_heap fun h =>
    hR.relates_bind (hR.relates_runHandler hask r node context) fun answer => ?_
  cases answer with
  | keep => exact hR.relates_pure _
  | markup s => exact hR.relates_bind (hR.relates_fragment tag s) fun _ =>
      hR.relates_putReplacement tag node _ _
  | tree replacement => exact hR.relates_putReplacement tag node _ _

lemma relates_substituteEach (hR : StepRelation R) (hask : Respects R ask)
    (context : Option String) (is : List NodeId) : Relates R (substituteEach ask context is) := by
  induction is with
  | nil => exact hR.relates_pure _
  | cons i is ih => exact hR.relates_bind (hask _) fun _ => ih

lemma relates_substituteBelow (hR : StepRelation R) (hask : Respects R ask) (node : NodeId)
    (context : Option String) : Relates R (substituteBelow ask node context) :=
  hR.relates_bind hR.relates_heap fun _ => hR.relates_substituteEach hask context _

lemma relates_substituteAt (hR : StepRelation R) (hask : Respects R ask) (node : NodeId)
    (context : Option String) : Relates R (p.substituteAt ask node context) := by
  rw [substituteAt]
  refine hR.relates_bind hR.relates_heap fun h => ?_
  dsimp only
  split
  · exact hR.relates_replaceElement hask _ _ node context
  · exact hR.relates_substituteBelow hask node context

lemma relates_substituteMatches (hR : StepRelation R) (hask : Respects R ask) (r : Registration)
    (root : NodeId) (context : Option String) (is : List NodeId) :
    Relates R (p.substituteMatches ask r root context is) := by
  induction is with
  | nil => exact hR.relates_pure _
  | cons i is ih =>
      refine hR.relates_bind hR.relates_heap fun h => ?_
      dsimp only
      split
      · exact hR.relates_bind (hR.relates_replaceElement hask r _ i context) fun _ => ih
      · exact ih

lemma relates_substituteRegistered (hR : StepRelation R) (hask : Respects R ask) (root : NodeId)
    (context : Option String) (rs : List Registration) :
    Relates R (p.substituteRegistered ask root context rs) := by
  induction rs with
  | nil => exact hR.relates_pure _
  | cons r rs ih =>
      exact hR.relates_bind hR.relates_heap fun h =>
        hR.relates_bind (hR.relates_substituteMatches hask r root context _) fun _ => ih

lemma relates_guarded (hR : StepRelation R) {x : Run α} (hx : Relates R x) :
    Relates R (p.guarded x) := by
  intro w out hout
  rcases p.allows_or_limit w with hallows | ⟨limit, hmax, hle⟩
  · rw [outcome_guarded x hallows] at hout
    obtain ⟨⟨result, w'⟩, hx', rfl⟩ := Option.map_eq_some_iff.mp hout
    exact hR.level w w' (hx _ _ hx')
  · rw [outcome_guarded_of_limit x hmax hle, Option.some.injEq] at hout
    subst hout
    exact hR.refl w

lemma relates_lookupContext (hR : StepRelation R) : Relates R p.lookupContext := by
  rw [lookupContext]
  cases p.context with
  | none => exact hR.relates_pure _
  | some source =>
      intro w out hout
      have hout' : some (Except.ok (source (w.lookups + 1)),
          { w with lookups := w.lookups + 1 }) = some out := hout
      rw [Option.some.injEq] at hout'
      subst hout'
      exact hR.lookup w

lemma relates_substitute (hR : StepRelation R) (hask : Respects R ask) (content : String) :
    Relates R (p.substitute ask content) := by
  refine hR.relates_guarded (hR.relates_bind hR.relates_lookupContext fun context =>
    hR.relates_bind (hR.relates_plant _) fun root =>
      hR.relates_bind (hR.relates_substituteAt hask root context) fun _ =>
        hR.relates_bind (hR.relates_substituteRegistered hask root context _) fun _ =>
          hR.relates_bind hR.relates_heap fun h => hR.relates_pure _)

/-- The services respect a relation if requests made meanwhile do. -/
lemma serve (hR : StepRelation R) (hask : Respects R ask) : Respects R (p.serve ask) := by
  intro r
  cases r with
  | parse content =>
      exact hR.relates_bind (hR.relates_substitute hask content) fun s => hR.relates_pure _
  | substitute content => exact hR.relates_substitute hask content
  | fragment markup => exact hR.relates_fragment _ markup
  | substituteBelow node context =>
      exact hR.relates_guarded (hR.relates_substituteBelow hask node context)
  | substituteAt node context => exact hR.relates_substituteAt hask node context
  | substituteClassed node context => exact hR.relates_substituteRegistered hask node context _

/-- **What every step respects, every run respects**, by induction on the depth of requests. -/
theorem answer (hR : StepRelation R) (p : Processor) (n : ℕ) : Respects R (p.answer n) := by
  induction n with
  | zero =>
      intro r w out hout
      simp [Processor.answer, outcome] at hout
  | succ n ih => exact fun r => hR.serve ih r

end StepRelation

/-! ### Traces and levels -/

/-- The trace only grows. -/
lemma stepRelation_trace : StepRelation fun w w' => w.trace <+: w'.trace where
  refl _ := List.prefix_rfl
  trans _ _ _ h h' := h.trans h'
  heap _ _ := List.prefix_rfl
  record _ _ := List.prefix_append ..
  lookup _ := List.prefix_rfl
  level _ _ h := h

/-- The level of nesting comes back to what it was. -/
lemma stepRelation_depth : StepRelation fun w w' => w'.depth = w.depth where
  refl _ := rfl
  trans _ _ _ h h' := h'.trans h
  heap _ _ := rfl
  record _ _ := rfl
  lookup _ := rfl
  level _ _ h := by
    simp only at h ⊢
    omega

/-- A relation that every step respects holds from the start to the end of a computation. -/
lemma StepRelation.of_yields {R : World → World → Prop} (hR : StepRelation R)
    {x : Answerer → Run α} {w : World} {out : Except Failure α × World}
    (hx : ∀ ask, Respects R ask → Run.Relates R (x ask)) (hy : p.Yields x w out) : R w out.2 := by
  obtain ⟨n, hn⟩ := hy
  exact hx _ (hR.answer p n) w out (hn n (Nat.le_refl n))

lemma StepRelation.of_yields_run {R : World → World → Prop} (hR : StepRelation R)
    {prog : Program α} {w : World} {out : Except Failure α × World}
    (hy : p.Yields (fun ask => prog.run ask) w out) : R w out.2 :=
  hR.of_yields (fun _ hask => hR.relates_run hask prog) hy

end Processor

end RichText
