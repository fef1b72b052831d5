import RichText.Proofs.Session.Scripts
import RichText.Proofs.Substitution.Splice

/-!
Options relaxed.

Options say only what is refused: a level of nesting beyond the limit, and markup with faults.
With a higher limit, or fragments that are not strict, a run goes the same way as before up to the
first refusal. If handlers end with the errors that they receive, the refusal is the end of the
run, so that a run with another end is the same run.

* `Options.Relaxed`: options that refuse no more than others;
* `Setup.allPassErrors`: scripts pass errors on, whatever they are registered for;
* `Processor.Follows`: a computation does what another does, unless that one has been refused
  something;
* `Processor.follows_run`: programs that pass errors on, by induction on their steps;
* `Processor.follows_serve`: one level of requests, by the parts of a pass;
* `Processor.answer_eq_of_relaxed`: **relaxing the options changes no result** but refusals.
-/

namespace RichText

variable {α β : Type}

/-- Options that refuse no more than others do: faults in fragments are errors only if they were
before, and the limit of nesting, if there is one, is not lower than before. -/
structure Options.Relaxed (o o' : Options) : Prop where
  strict : o'.strictFragments = true → o.strictFragments = true
  limit : ∀ limit' ∈ o'.maxNestingDepth, ∃ limit ∈ o.maxNestingDepth, limit ≤ limit'
  restore : o'.restoreShortcodeUrls = o.restoreShortcodeUrls

/-- Whether an error is a refusal: one that the options decide on. -/
def Failure.isRefusal : Failure → Bool
  | nestingTooDeep _ | malformedMarkup .. => true
  | handler .. | invalidReplacement _ | serialize _ => false

namespace Registry

/-- All registered handlers pass errors on. -/
def AllPassErrors (r : Registry) : Prop :=
  (∀ tag x, r.forTag? tag = some x → PassesErrors x.handler)
    ∧ ∀ x ∈ r.classes, PassesErrors x.handler

end Registry

/-- All handlers of a processor that is set up with scripts pass errors on. -/
lemma Setup.allPassErrors (s : Setup) : s.processor.registry.AllPassErrors :=
  s.every passesErrors_handlerOf

namespace Processor

open Run

/-! ### Computations -/

/-- A computation does what another one does, unless that has ended with a refusal. -/
def Follows (x x' : Run α) : Prop :=
  ∀ w out, x.outcome w = some out →
    x'.outcome w = some out ∨ ∃ e, out.1 = .error e ∧ e.isRefusal = true

namespace Follows

lemma refl (x : Run α) : Follows x x := fun _ _ hout => .inl hout

lemma bind {x x' : Run α} {f f' : α → Run β} (hx : Follows x x')
    (hf : ∀ a, Follows (f a) (f' a)) : Follows (x >>= f) (x' >>= f') := by
  intro w out hout
  rcases outcome_bind_eq_some hout with ⟨a, w', hxa, hfa⟩ | ⟨e, w', hxe, rfl⟩
  · rcases hx w _ hxa with hsame | ⟨e, he, -⟩
    · rw [outcome_bind_ok hsame]
      exact hf a w' out hfa
    · simp at he
  · rcases hx w _ hxe with hsame | hrefused
    · exact .inl (outcome_bind_error hsame)
    · obtain ⟨e', he', hrefusal⟩ := hrefused
      exact .inr ⟨e', by simpa using he', hrefusal⟩

/-- Computations with the same first part. -/
lemma bind_left (x : Run α) {f f' : α → Run β} (hf : ∀ a, Follows (f a) (f' a)) :
    Follows (x >>= f) (x >>= f') :=
  (refl x).bind hf

end Follows

variable {p : Processor} {o : Options} {ask ask' : Answerer}

/-- A level of nesting that is refused no sooner. -/
lemma Follows.guarded (ho : p.options.Relaxed o) {x x' : Run α} (hx : Follows x x') :
    Follows (p.guarded x) (({ p with options := o } : Processor).guarded x') := by
  intro w out hout
  rcases p.allows_or_limit w with hallows | ⟨limit, hmax, hle⟩
  · have hallows' : ({ p with options := o } : Processor).Allows w := by
      intro limit' hlimit'
      obtain ⟨limit, hlimit, hle⟩ := ho.limit limit' hlimit'
      exact Nat.lt_of_lt_of_le (hallows limit hlimit) hle
    rw [outcome_guarded _ hallows] at hout
    obtain ⟨⟨result, w'⟩, hx', rfl⟩ := Option.map_eq_some_iff.mp hout
    rcases hx _ _ hx' with hsame | hrefused
    · rw [outcome_guarded _ hallows', hsame]
      exact .inl rfl
    · exact .inr hrefused
  · rw [outcome_guarded_of_limit _ hmax hle, Option.some.injEq] at hout
    subst hout
    exact .inr ⟨_, rfl, rfl⟩

/-- Markup that is refused for faults only if it was before. -/
lemma follows_fragment (ho : p.options.Relaxed o) (tag markup : String) :
    Follows (p.fragment tag markup) (({ p with options := o } : Processor).fragment tag markup) := by
  intro w out hout
  rw [outcome_fragment] at hout
  split at hout
  · rw [Option.some.injEq] at hout
    subst hout
    exact .inr ⟨_, rfl, rfl⟩
  · next hstrict =>
      have hstrict' : ¬ (o.strictFragments && !(readMarkup markup).2.isEmpty) = true := by
        intro hand
        rw [Bool.and_eq_true] at hand
        exact hstrict (by rw [ho.strict hand.1, hand.2, Bool.and_self])
      rw [outcome_fragment, if_neg hstrict', hout]
      exact .inl rfl

/-! ### Handlers -/

/-- A program that has received an error ends with it. -/
lemma ends_of_passesOn {Ends : Failure → α → Prop} {prog : Program α} {got : List Failure}
    (hprog : prog.PassesOn Ends got) {e : Failure} (he : e ∈ got) {w : World}
    {out : Except Failure α × World} (hout : (prog.run ask).outcome w = some out) :
    ∃ a, out.1 = .ok a ∧ Ends e a := by
  induction prog generalizing got w with
  | done a =>
      obtain rfl := Option.some.inj hout
      exact ⟨a, rfl, hprog e he⟩
  | inspect next ih => exact ih w.heap (hprog w.heap) he hout
  | change f next ih => exact ih hprog he hout
  | note s next ih => exact ih hprog he hout
  | ask r next ih =>
      rw [outcome_run_ask, Option.bind_eq_some_iff] at hout
      obtain ⟨⟨reply, w'⟩, -, hout⟩ := hout
      cases reply with
      | ok a => exact ih (.ok a) (hprog.1 a) he hout
      | error e' => exact ih (.error e') (hprog.2 e') (List.mem_cons_of_mem e' he) hout

/-- **A program that passes errors on** ends as before, or with a refusal. -/
lemma follows_run (hask : ∀ r, Follows (ask r) (ask' r)) {Ends : Failure → α → Prop}
    {prog : Program α} {got : List Failure} (hprog : prog.PassesOn Ends got) {w : World}
    {out : Except Failure α × World} (hout : (prog.run ask).outcome w = some out) :
    (prog.run ask').outcome w = some out
      ∨ ∃ a e, out.1 = .ok a ∧ Ends e a ∧ e.isRefusal = true := by
  induction prog generalizing got w with
  | done a => exact .inl hout
  | inspect next ih => exact ih w.heap (hprog w.heap) hout
  | change f next ih => exact ih hprog hout
  | note s next ih => exact ih hprog hout
  | ask r next ih =>
      rw [outcome_run_ask, Option.bind_eq_some_iff] at hout
      obtain ⟨⟨reply, w'⟩, hr, hout⟩ := hout
      rcases hask r w _ hr with hsame | ⟨e, he, hrefusal⟩
      · rw [outcome_run_ask, hsame, Option.bind_some]
        cases reply with
        | ok a => exact ih (.ok a) (hprog.1 a) hout
        | error e => exact ih (.error e) (hprog.2 e) hout
      · -- the refusal is the reply, and so the end
        obtain rfl : reply = .error e := he
        obtain ⟨a, ha, hends⟩ := ends_of_passesOn (hprog.2 e) List.mem_cons_self hout
        exact .inr ⟨a, e, ha, hends, hrefusal⟩

lemma follows_runHandler (hask : ∀ r, Follows (ask r) (ask' r)) {r : Registration}
    (hr : PassesErrors r.handler) (node : NodeId) (context : Option String) :
    Follows (runHandler ask r node context) (runHandler ask' r node context) := by
  refine .bind_left _ fun h => .bind_left _ fun _ => ?_
  intro w out hout
  rcases outcome_bind_eq_some hout with ⟨result, w', hrun, hrest⟩ | ⟨e, w', hrun, rfl⟩
  · rcases follows_run hask (hr node context) hrun with hsame | ⟨a, e, ha, rfl, hrefusal⟩
    · rw [outcome_bind_ok hsame]
      exact .inl hrest
    · obtain rfl : result = .error e := by simpa using ha
      obtain rfl := Option.some.inj hrest
      exact .inr ⟨e, rfl, hrefusal⟩
  · rcases follows_run hask (hr node context) hrun with hsame | ⟨a, e', ha, -⟩
    · exact .inl (outcome_bind_error hsame)
    · simp at ha

/-! ### Passes -/

lemma follows_splice (ho : p.options.Relaxed o) (tag : String) (node : NodeId)
    (anchor : Option Position) (answer : Rendering) :
    Follows (p.splice tag node anchor answer)
      (({ p with options := o } : Processor).splice tag node anchor answer) := by
  cases answer with
  | keep => exact .refl _
  | markup s => exact (follows_fragment ho tag s).bind fun _ => .refl _
  | tree j => exact .refl _

lemma follows_replaceElement (ho : p.options.Relaxed o) (hask : ∀ r, Follows (ask r) (ask' r))
    {r : Registration} (hr : PassesErrors r.handler) (tag : String) (node : NodeId)
    (context : Option String) :
    Follows (p.replaceElement ask r tag node context)
      (({ p with options := o } : Processor).replaceElement ask' r tag node context) := by
  rw [replaceElement_eq, replaceElement_eq]
  exact .bind_left _ fun h => (follows_runHandler hask hr node context).bind fun answer =>
    follows_splice ho tag node _ answer

lemma follows_substituteEach (hask : ∀ r, Follows (ask r) (ask' r)) (context : Option String)
    (is : List NodeId) : Follows (substituteEach ask context is) (substituteEach ask' context is) := by
  induction is with
  | nil => exact .refl _
  | cons i is ih => exact (hask _).bind fun _ => ih

lemma follows_substituteBelow (hask : ∀ r, Follows (ask r) (ask' r)) (node : NodeId)
    (context : Option String) :
    Follows (substituteBelow ask node context) (substituteBelow ask' node context) :=
  .bind_left _ fun _ => follows_substituteEach hask context _

lemma follows_substituteAt (ho : p.options.Relaxed o) (hall : p.registry.AllPassErrors)
    (hask : ∀ r, Follows (ask r) (ask' r)) (node : NodeId) (context : Option String) :
    Follows (p.substituteAt ask node context)
      (({ p with options := o } : Processor).substituteAt ask' node context) := by
  refine .bind_left _ fun h => ?_
  dsimp only
  cases hmatch : (h.tagName node).bind fun t => (p.registry.forTag? t).map fun r => (t, r) with
  | none => exact follows_substituteBelow hask node context
  | some found =>
      obtain ⟨tag, -, hr⟩ := Option.bind_eq_some_iff.mp hmatch
      obtain ⟨r, hr', rfl⟩ := Option.map_eq_some_iff.mp hr
      exact follows_replaceElement ho hask (hall.1 tag r hr') tag node context

lemma follows_substituteMatches (ho : p.options.Relaxed o) (hask : ∀ r, Follows (ask r) (ask' r))
    {r : Registration} (hr : PassesErrors r.handler) (root : NodeId) (context : Option String)
    (is : List NodeId) :
    Follows (p.substituteMatches ask r root context is)
      (({ p with options := o } : Processor).substituteMatches ask' r root context is) := by
  induction is with
  | nil => exact .refl _
  | cons i is ih =>
      refine .bind_left _ fun h => ?_
      dsimp only
      split
      · exact (follows_replaceElement ho hask hr _ i context).bind fun _ => ih
      · exact ih

lemma follows_substituteRegistered (ho : p.options.Relaxed o)
    (hask : ∀ r, Follows (ask r) (ask' r)) (root : NodeId) (context : Option String)
    (rs : List Registration) (hrs : ∀ r ∈ rs, PassesErrors r.handler) :
    Follows (p.substituteRegistered ask root context rs)
      (({ p with options := o } : Processor).substituteRegistered ask' root context rs) := by
  induction rs with
  | nil => exact .refl _
  | cons r rs ih =>
      obtain ⟨hr, hrs⟩ := List.forall_mem_cons.mp hrs
      exact .bind_left _ fun h =>
        (follows_substituteMatches ho hask hr root context _).bind fun _ => ih hrs

/-! ### Services -/

lemma follows_substitute (ho : p.options.Relaxed o) (hall : p.registry.AllPassErrors)
    (hask : ∀ r, Follows (ask r) (ask' r)) (content : String) :
    Follows (p.substitute ask content)
      (({ p with options := o } : Processor).substitute ask' content) := by
  refine Follows.guarded ho (.bind_left _ fun context => .bind_left _ fun root => ?_)
  refine (follows_substituteAt ho hall hask root context).bind fun _ => ?_
  refine (follows_substituteRegistered ho hask root context _ hall.2).bind fun _ => ?_
  rw [ho.restore]
  exact .refl _

/-- The services follow if the answers to requests made meanwhile do. -/
lemma follows_serve (ho : p.options.Relaxed o) (hall : p.registry.AllPassErrors)
    (hask : ∀ r, Follows (ask r) (ask' r)) (r : Request) :
    Follows (p.serve ask r) (({ p with options := o } : Processor).serve ask' r) := by
  cases r with
  | parse content => exact (follows_substitute ho hall hask content).bind fun _ => .refl _
  | substitute content => exact follows_substitute ho hall hask content
  | fragment markup => exact follows_fragment ho _ markup
  | substituteBelow node context => exact .guarded ho (follows_substituteBelow hask node context)
  | substituteAt node context => exact follows_substituteAt ho hall hask node context
  | substituteClassed node context =>
      exact follows_substituteRegistered ho hask node context _ hall.2

/-- All levels of requests follow, by induction on their number. -/
lemma follows_answer (ho : p.options.Relaxed o) (hall : p.registry.AllPassErrors) (n : ℕ) (r : Request) :
    Follows (p.answer n r) (({ p with options := o } : Processor).answer n r) := by
  induction n generalizing r with
  | zero => exact fun w out hout => by simp [answer, outcome] at hout
  | succ n ih => exact follows_serve ho hall ih r

/-- **Relaxing the options changes no result** but refusals: if handlers pass errors on, a request
that ends well, or with an error that the options have no part in, ends so with relaxed options,
too, in the same state. So the same handlers have been run on the same elements in the same order,
and the context source has been consulted as often. -/
theorem answer_eq_of_relaxed (ho : p.options.Relaxed o) (hall : p.registry.AllPassErrors) {n : ℕ}
    {r : Request} {w : World} {out : Except Failure r.Reply × World}
    (hout : (p.answer n r).outcome w = some out)
    (hkind : ∀ e, out.1 = .error e → e.isRefusal = false) :
    (({ p with options := o } : Processor).answer n r).outcome w = some out := by
  rcases follows_answer ho hall n r w out hout with hsame | ⟨e, he, hrefusal⟩
  · exact hsame
  · rw [hkind e he] at hrefusal
    exact absurd hrefusal Bool.false_ne_true

/-- A script that substitutes below its element and puts a text in its place, with one level of
nesting allowed and with any number of levels. -/
theorem answer_relaxed_script :
    let script : List Step := [.substituteBelow "node", .createText (.literal "b") "t", .tree "t"]
    let setup : Setup :=
      { options := { maxNestingDepth := some 1 }, handlers := [⟨.className, "c", "a", script⟩] }
    let o : Options := { strictFragments := false, maxNestingDepth := none }
    let noted : Element := { name := "div", attributes := [{ name := "class", value := "c" }] }
    let w : World := { heap := (Heap.plant {} (.document [.element noted []])).1 }
    let r : Request := .substituteClassed 0 none
    ∃ out, (setup.processor.answer 2 r).outcome w = some out ∧ out.1.isOk = true
      ∧ out.2.heap.children 0 = [2] ∧ out.2.trace.length = 1
      ∧ (({ setup.processor with options := o } : Processor).answer 2 r).outcome w = some out := by
  intro script setup o noted w r
  have hwith : w.heap.withClass "c" 0 = [1] := by
    have hsize : w.heap.size = 2 := rfl
    have hroot : w.heap.children 0 = [1] ∧ w.heap.hasClass 0 "c" = false := ⟨rfl, rfl⟩
    have hnoted : w.heap.children 1 = [] ∧ w.heap.hasClass 1 "c" = true := ⟨rfl, rfl⟩
    simp [Heap.withClass, Heap.withClassTo, Heap.withClassBelow, hsize, hroot, hnoted]
  have hrun : ((setup.processor.answer 2 r).outcome w).map (fun out =>
      (out.1.isOk, out.2.heap.children 0, out.2.trace.length)) = some (true, [2], 1) := by
    show ((setup.processor.substituteRegistered (setup.processor.answer 1) 0 none
      [⟨.className, "c", "a", handlerOf "a" script⟩]).outcome w).map _ = _
    rw [substituteRegistered, outcome_bind_ok (outcome_heap w), hwith]
    decide +kernel
  obtain ⟨out, hout, hwhat⟩ := Option.map_eq_some_iff.mp hrun
  obtain ⟨hok, hchildren, htrace⟩ : out.1.isOk = true ∧ _ = _ ∧ _ = _ := by
    simpa only [Prod.mk.injEq] using hwhat
  have hrelaxed : setup.processor.options.Relaxed o :=
    ⟨by decide, fun _ hmax => absurd hmax (by simp [o]), rfl⟩
  refine ⟨out, hout, hok, hchildren, htrace,
    answer_eq_of_relaxed hrelaxed setup.allPassErrors hout fun e he => ?_⟩
  rw [he] at hok
  exact absurd hok Bool.false_ne_true

end Processor

end RichText
