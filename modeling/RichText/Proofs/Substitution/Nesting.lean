import Mathlib.Logic.Function.Iterate
import RichText.Proofs.Substitution.Unmatched

/-!
Levels of nesting.

A state carries the level of nesting as a number that calls raise and lower as they begin and end.
`Processor.answerCounted` answers requests as the processor does, but knows the number of open
calls from the calls themselves and allows or refuses a further one by that. It is cut off wherever
the state has another level or one beyond the limit: before and after every request, every step of
a handler, every look at the context and every splice. It never is: both ways to answer agree.
Requests that nest too deep are left to any answerer that keeps the level, so that this holds for
each moment of a run that does not end, too.

* `Processor.Counts`: the level of a state is the number of open calls, within the limit;
* `World.Idle`: the states between calls from outside;
* `Processor.Agrees`: a computation and its counted form have the same outcome, with as many open
  calls as before;
* `Processor.agrees_serve`: one level of requests, by the parts of a pass;
* `Processor.agrees_answer`: all levels, by induction on their number;
* `Processor.answerCounted_eq_answer`: **the level counts the open calls** at every moment, and a
  call beyond the limit does nothing.
-/

namespace RichText

variable {α β : Type}

/-- Whether a service is a level of nesting of its own. -/
def Request.opensLevel : Request → Bool
  | parse _ | substitute _ | substituteBelow .. => true
  | fragment _ | substituteAt .. | substituteClassed .. => false

/-- The states in which a processor can be called from outside: nothing is being processed at the
start, and then there have been calls, of the same processor with other registrations or options
too, and changes to the nodes in between. -/
inductive World.Idle : World → Prop where
  | start (w : World) (hw : w.depth = 0) : Idle w
  | called {w : World} (hw : Idle w) (p : Processor) (n : ℕ) (r : Request)
      {out : Except Failure r.Reply × World} (hout : (p.answer n r).outcome w = some out) :
      Idle out.2
  | changed {w : World} (hw : Idle w) (f : Heap → Heap) : Idle { w with heap := f w.heap }

namespace Processor

open Heap Run

/-! ### Open calls counted -/

section Counted

variable (p : Processor) (frames : ℕ)

/-- Whether the level of a state is the number of open calls, and not beyond the limit. -/
def Counts (w : World) : Prop :=
  w.depth = frames ∧ ∀ limit ∈ p.options.maxNestingDepth, w.depth ≤ limit

instance (w : World) : Decidable (p.Counts frames w) :=
  inferInstanceAs (Decidable (_ ∧ ∀ limit ∈ p.options.maxNestingDepth, _))

/-- A computation that is cut off unless the level counts the open calls before and after it. -/
def counted (x : Run α) : Run α := fun w =>
  if p.Counts frames w then (x.outcome w).filter fun out => p.Counts frames out.2 else none

/-- A computation during which one more call is open. Whether that is allowed, and to which level
it leads and comes back, is told by the number of open calls. -/
def opened (x : Run α) : Run α := fun w =>
  match p.options.maxNestingDepth.filter (· ≤ frames) with
  | some limit => some (.error (.nestingTooDeep limit), w)
  | none =>
      (p.counted (frames + 1) x { w with depth := frames + 1 }).map fun (result, w) =>
        (result, { w with depth := frames })

/-- A program, counted around every step. -/
def runCounted (ask : Answerer) : Program α → Run α
  | .done a => p.counted frames (pure a)
  | .inspect next => p.counted frames do runCounted ask (next (← Run.heap))
  | .change f next => p.counted frames do
      Run.modifyHeap f
      runCounted ask next
  | .note s next => p.counted frames do
      Run.record (.noted s)
      runCounted ask next
  | .ask r next => p.counted frames fun w =>
      match ask r w with
      | none => none
      | some (reply, w) => runCounted ask (next reply) w

/-- The handler of a registration. -/
def runHandlerCounted (ask : Answerer) (r : Registration) (node : NodeId)
    (context : Option String) : Run Rendering := do
  p.counted frames (Run.record (.rendered r.label node ((← Run.heap).tagName node) context))
  match ← p.runCounted frames ask (r.handler node context) with
  | .ok s => return s
  | .error e => throw e

/-- An element replaced. -/
def replaceCounted (ask : Answerer) (r : Registration) (tag : String) (node : NodeId)
    (context : Option String) : Run Unit := do
  let anchor := (← Run.heap).position node
  let answer ← p.runHandlerCounted frames ask r node context
  p.counted frames (p.splice tag node anchor answer)

/-- Substitution by tag at or below a node. -/
def substituteAtCounted (ask : Answerer) (node : NodeId) (context : Option String) : Run Unit := do
  let tag := (← Run.heap).tagName node
  match tag.bind fun t => (p.registry.forTag? t).map fun r => (t, r) with
  | some (tag, r) => p.replaceCounted frames ask r tag node context
  | none => substituteBelow ask node context

/-- Substitution among the matches of a registration. -/
def substituteMatchesCounted (ask : Answerer) (r : Registration) (root : NodeId)
    (context : Option String) : List NodeId → Run Unit
  | [] => return ()
  | i :: is => do
      let h ← Run.heap
      if h.isAncestorOrSelf root i then
        p.replaceCounted frames ask r ((h.tagName i).getD "") i context
      substituteMatchesCounted ask r root context is

/-- Substitution by class for some registrations. -/
def substituteRegisteredCounted (ask : Answerer) (root : NodeId) (context : Option String) :
    List Registration → Run Unit
  | [] => return ()
  | r :: rs => do
      p.substituteMatchesCounted frames ask r root context ((← Run.heap).withClass r.value root)
      substituteRegisteredCounted ask root context rs

/-- Substitution in content, as one more open call. -/
def substituteCounted (ask : ℕ → Answerer) (content : String) : Run String :=
  p.opened frames do
    let context ← p.counted (frames + 1) p.lookupContext
    let expanded := expandTags (fun tag => (p.registry.forTag? tag).isSome) content
    let root ← p.counted (frames + 1) (Run.plant (readContent expanded))
    p.substituteAtCounted (frames + 1) (ask (frames + 1)) root context
    p.substituteRegisteredCounted (frames + 1) (ask (frames + 1)) root context p.registry.classes
    let serialized := (← Run.heap).markup root
    return recoverContent serialized content p.options.restoreShortcodeUrls

/-- The services, while some calls are open, given how further requests are answered while others
are. -/
def serveCounted (ask : ℕ → Answerer) : Answerer
  | .parse content => do return p.shortcodes (← p.substituteCounted frames ask content)
  | .substitute content => p.substituteCounted frames ask content
  | .fragment markup => p.fragment "#fragment" markup
  | .substituteBelow node context =>
      p.opened frames (substituteBelow (ask (frames + 1)) node context)
  | .substituteAt node context => p.substituteAtCounted frames (ask frames) node context
  | .substituteClassed node context =>
      p.substituteRegisteredCounted frames (ask frames) node context p.registry.classes

/-- The services while some calls are open, with requests that nest deeper than a given depth left
to another answerer. -/
def answerCounted (last : Answerer) : ℕ → ℕ → Answerer
  | 0, frames, r => p.counted frames (last r)
  | fuel + 1, frames, r =>
      p.counted frames (p.serveCounted frames (fun frames => answerCounted last fuel frames) r)

end Counted

/-! ### Computations and their counted forms -/

/-- Two computations have the same outcome while some calls are open, and as many are open then. -/
def Agrees (p : Processor) (frames : ℕ) (x x' : Run α) : Prop :=
  ∀ w, p.Counts frames w → x'.outcome w = x.outcome w
    ∧ ∀ out, x.outcome w = some out → p.Counts frames out.2

variable {p : Processor} {frames : ℕ} {ask ask' : Answerer}

namespace Agrees

/-- A computation that leaves the level as it is. -/
lemma of_relates {x : Run α} (hx : Relates (fun w w' => w'.depth = w.depth) x) :
    p.Agrees frames x x := by
  refine fun w hw => ⟨rfl, fun out hout => ?_⟩
  rw [Counts, hx w out hout]
  exact hw

lemma pure (a : α) : p.Agrees frames (pure a : Run α) (Pure.pure a) :=
  of_relates (stepRelation_depth.relates_pure a)

lemma bind {x x' : Run α} {f f' : α → Run β} (hx : p.Agrees frames x x')
    (hf : ∀ a, p.Agrees frames (f a) (f' a)) : p.Agrees frames (x >>= f) (x' >>= f') := by
  intro w hw
  constructor
  · rw [outcome_bind, outcome_bind, (hx w hw).1]
    cases hout : x.outcome w with
    | none => rfl
    | some out =>
        obtain ⟨result, w'⟩ := out
        cases result with
        | error e => rfl
        | ok a => exact (hf a w' ((hx w hw).2 _ hout)).1
  · intro out hout
    rcases outcome_bind_eq_some hout with ⟨a, w', hxa, hfa⟩ | ⟨e, w', hxe, rfl⟩
    · exact (hf a w' ((hx w hw).2 _ hxa)).2 out hfa
    · exact (hx w hw).2 _ hxe

/-- The heap looked at. -/
lemma heap_bind {f f' : Heap → Run α} (hf : ∀ h, p.Agrees frames (f h) (f' h)) :
    p.Agrees frames (Run.heap >>= f) (Run.heap >>= f') :=
  bind (of_relates stepRelation_depth.relates_heap) hf

/-- A computation that agrees is not cut off. -/
lemma counted {x x' : Run α} (hx : p.Agrees frames x x') :
    p.Agrees frames x (p.counted frames x') := by
  intro w hw
  refine ⟨?_, (hx w hw).2⟩
  have hcounted : (p.counted frames x').outcome w
      = (x'.outcome w).filter fun out => p.Counts frames out.2 := if_pos hw
  rw [hcounted, (hx w hw).1]
  cases hout : x.outcome w with
  | none => rfl
  | some out => simp [(hx w hw).2 out hout]

/-- **One more call**: the limit is reached by the level exactly if it is reached by the number of
open calls, and the level comes back to that number. -/
lemma opened {x x' : Run α} (hx : p.Agrees (frames + 1) x x') :
    p.Agrees frames (p.guarded x) (p.opened frames x') := by
  intro w hw
  obtain ⟨hdepth, hlimit⟩ := hw
  cases hfull : p.options.maxNestingDepth.filter (· ≤ frames) with
  | some limit =>
      obtain ⟨hmax, hle⟩ := Option.filter_eq_some_iff.mp hfull
      have hopened : (p.opened frames x').outcome w = some (.error (.nestingTooDeep limit), w) := by
        simp only [outcome, Processor.opened, hfull]
      rw [hopened, outcome_guarded_of_limit x hmax (hdepth ▸ of_decide_eq_true hle)]
      refine ⟨rfl, fun out hout => ?_⟩
      obtain rfl := Option.some.inj hout
      exact ⟨hdepth, hlimit⟩
  | none =>
      have hallows : p.Allows w := fun limit hmem => by
        have hbeyond := Option.filter_eq_none_iff.mp hfull limit hmem
        rw [decide_eq_true_eq] at hbeyond
        omega
      have hroom : p.Counts (frames + 1) { w with depth := frames + 1 } :=
        ⟨rfl, fun limit hmem => Nat.succ_le_of_lt (hdepth ▸ hallows limit hmem)⟩
      have hopened : (p.opened frames x').outcome w
          = ((p.counted (frames + 1) x').outcome { w with depth := frames + 1 }).map
            fun (result, w) => (result, { w with depth := frames }) := by
        simp only [outcome, Processor.opened, hfull]
      obtain ⟨heq, hcounts⟩ := hx.counted _ hroom
      rw [hopened, heq, outcome_guarded x hallows, hdepth]
      cases hout : x.outcome { w with depth := frames + 1 } with
      | none => simp
      | some out =>
          have hback : out.2.depth - 1 = frames := by
            rw [(hcounts out hout).1, Nat.add_sub_cancel]
          refine ⟨by simp [hback], fun out' hout' => ?_⟩
          obtain rfl := Option.some.inj hout'
          refine ⟨hback, fun limit hmem => ?_⟩
          have := hlimit limit hmem
          simp only [hback]
          omega

end Agrees

/-! ### Handlers -/

/-- Two ways to answer requests agree while some calls are open. -/
def Concur (p : Processor) (frames : ℕ) (ask ask' : Answerer) : Prop :=
  ∀ r, p.Agrees frames (ask r) (ask' r)

/-- A program is not cut off, by induction on its steps. -/
lemma agrees_run (hask : p.Concur frames ask ask') (prog : Program α) :
    p.Agrees frames (prog.run ask) (p.runCounted frames ask' prog) := by
  induction prog with
  | done a => exact (Agrees.pure a).counted
  | inspect next ih => exact (Agrees.heap_bind fun h => ih h).counted
  | change f next ih =>
      exact (Agrees.bind (.of_relates (stepRelation_depth.relates_modifyHeap f)) fun _ => ih).counted
  | note s next ih =>
      exact (Agrees.bind (.of_relates (stepRelation_depth.relates_record _)) fun _ => ih).counted
  | ask r next ih =>
      rw [runCounted]
      refine Agrees.counted fun w hw => ?_
      obtain ⟨heq, hcounts⟩ := hask r w hw
      rw [outcome, outcome] at heq
      simp only [outcome, Program.run, heq]
      cases hr : ask r w with
      | none => simp
      | some out => exact ih out.1 out.2 (hcounts out hr)

lemma agrees_runHandler (hask : p.Concur frames ask ask') (r : Registration) (node : NodeId)
    (context : Option String) : p.Agrees frames (runHandler ask r node context)
      (p.runHandlerCounted frames ask' r node context) := by
  rw [runHandler, runHandlerCounted]
  refine Agrees.heap_bind fun h => Agrees.bind (Agrees.of_relates
    (stepRelation_depth.relates_record _)).counted fun _ =>
      Agrees.bind (agrees_run hask _) fun result => ?_
  cases result with
  | ok s => exact Agrees.pure s
  | error e => exact Agrees.of_relates (stepRelation_depth.relates_throw e)

/-! ### Passes -/

lemma agrees_replaceElement (hask : p.Concur frames ask ask') (r : Registration) (tag : String)
    (node : NodeId) (context : Option String) :
    p.Agrees frames (p.replaceElement ask r tag node context)
      (p.replaceCounted frames ask' r tag node context) := by
  rw [replaceElement_eq, replaceCounted]
  exact Agrees.heap_bind fun h => Agrees.bind (agrees_runHandler hask r node context) fun answer =>
    (Agrees.of_relates (stepRelation_depth.relates_splice tag node _ answer)).counted

lemma agrees_substituteEach (hask : p.Concur frames ask ask') (context : Option String)
    (is : List NodeId) :
    p.Agrees frames (substituteEach ask context is) (substituteEach ask' context is) := by
  induction is with
  | nil => exact Agrees.pure _
  | cons i is ih => exact Agrees.bind (hask _) fun _ => ih

lemma agrees_substituteBelow (hask : p.Concur frames ask ask') (node : NodeId)
    (context : Option String) :
    p.Agrees frames (substituteBelow ask node context) (substituteBelow ask' node context) :=
  Agrees.heap_bind fun _ => agrees_substituteEach hask context _

lemma agrees_substituteAt (hask : p.Concur frames ask ask') (node : NodeId)
    (context : Option String) : p.Agrees frames (p.substituteAt ask node context)
      (p.substituteAtCounted frames ask' node context) := by
  rw [substituteAt, substituteAtCounted]
  refine Agrees.heap_bind fun h => ?_
  cases hmatch : (h.tagName node).bind fun t => (p.registry.forTag? t).map fun r => (t, r) with
  | none => simpa only [hmatch] using agrees_substituteBelow hask node context
  | some matched => simpa only [hmatch] using agrees_replaceElement hask _ _ node context

lemma agrees_substituteMatches (hask : p.Concur frames ask ask') (r : Registration)
    (root : NodeId) (context : Option String) (is : List NodeId) :
    p.Agrees frames (p.substituteMatches ask r root context is)
      (p.substituteMatchesCounted frames ask' r root context is) := by
  induction is with
  | nil => exact Agrees.pure _
  | cons i is ih =>
      rw [substituteMatches, substituteMatchesCounted]
      refine Agrees.heap_bind fun h => ?_
      dsimp only
      split
      · exact Agrees.bind (agrees_replaceElement hask r _ i context) fun _ => ih
      · exact ih

lemma agrees_substituteRegistered (hask : p.Concur frames ask ask') (root : NodeId)
    (context : Option String) (rs : List Registration) :
    p.Agrees frames (p.substituteRegistered ask root context rs)
      (p.substituteRegisteredCounted frames ask' root context rs) := by
  induction rs with
  | nil => exact Agrees.pure _
  | cons r rs ih =>
      exact Agrees.heap_bind fun h =>
        Agrees.bind (agrees_substituteMatches hask r root context _) fun _ => ih

/-! ### Services -/

section Services

variable {ask : Answerer} {ask' : ℕ → Answerer}

lemma agrees_substitute (hask : ∀ frames, p.Concur frames ask (ask' frames)) (content : String) :
    p.Agrees frames (p.substitute ask content) (p.substituteCounted frames ask' content) := by
  refine Agrees.opened ?_
  refine Agrees.bind (Agrees.of_relates stepRelation_depth.relates_lookupContext).counted
    fun context => ?_
  refine Agrees.bind (Agrees.of_relates (stepRelation_depth.relates_plant _)).counted fun root => ?_
  refine Agrees.bind (agrees_substituteAt (hask _) root context) fun _ => ?_
  refine Agrees.bind (agrees_substituteRegistered (hask _) root context _) fun _ => ?_
  exact Agrees.heap_bind fun h => Agrees.pure _

/-- The services agree if requests made meanwhile do, however many calls are open. -/
lemma agrees_serve (hask : ∀ frames, p.Concur frames ask (ask' frames)) (frames : ℕ) :
    p.Concur frames (p.serve ask) (p.serveCounted frames ask') := by
  intro r
  cases r with
  | parse content => exact Agrees.bind (agrees_substitute hask content) fun s => Agrees.pure _
  | substitute content => exact agrees_substitute hask content
  | fragment markup => exact Agrees.of_relates (stepRelation_depth.relates_fragment _ markup)
  | substituteBelow node context =>
      exact Agrees.opened (agrees_substituteBelow (hask _) node context)
  | substituteAt node context => exact agrees_substituteAt (hask _) node context
  | substituteClassed node context => exact agrees_substituteRegistered (hask _) node context _

end Services

/-- Both ways to answer requests agree, by induction on the depth of these. -/
lemma agrees_answer (p : Processor) {last : Answerer}
    (hlast : ∀ r, Relates (fun w w' => w'.depth = w.depth) (last r)) (n frames : ℕ) :
    p.Concur frames (p.serve^[n] last) (p.answerCounted last n frames) := by
  induction n generalizing frames with
  | zero => exact fun r => (Agrees.of_relates (hlast r)).counted
  | succ n ih =>
      rw [Function.iterate_succ_apply']
      exact fun r => (agrees_serve (fun frames => ih frames) frames r).counted

lemma answer_eq_iterate (p : Processor) (n : ℕ) :
    p.answer n = p.serve^[n] (fun _ _ => none) := by
  induction n with
  | zero => rfl
  | succ n ih =>
      rw [Function.iterate_succ_apply', ← ih]
      rfl

/-! ### The limit -/

/-- A call that the limit refuses does nothing. -/
lemma outcome_answer_of_limit {n limit : ℕ} {r : Request} {w : World} (hr : r.opensLevel = true)
    (hlimit : p.options.maxNestingDepth = some limit) (hw : limit ≤ w.depth) :
    (p.answer (n + 1) r).outcome w = some (.error (.nestingTooDeep limit), w) := by
  cases r with
  | parse content =>
      exact outcome_bind_error (outcome_guarded_of_limit _ hlimit hw)
  | substitute content => exact outcome_guarded_of_limit _ hlimit hw
  | substituteBelow node context => exact outcome_guarded_of_limit _ hlimit hw
  | fragment => simp [Request.opensLevel] at hr
  | substituteAt => simp [Request.opensLevel] at hr
  | substituteClassed => simp [Request.opensLevel] at hr

lemma depth_answer {n : ℕ} {r : Request} {w : World} {out : Except Failure r.Reply × World}
    (hout : (p.answer n r).outcome w = some out) : out.2.depth = w.depth :=
  stepRelation_depth.answer p n r w out hout

end Processor

/-- Nothing is being processed in an idle state. -/
lemma World.Idle.depth_eq_zero {w : World} (hw : w.Idle) : w.depth = 0 := by
  induction hw with
  | start w hw => exact hw
  | called hw p n r hout ih => rw [Processor.depth_answer hout, ih]
  | changed hw f ih => exact ih

namespace Processor

open Run

/-- **The level of nesting is the number of open calls**, at every moment of every run and within
the limit. A call that opens a level is refused exactly if as many are open as the limit allows,
and then nothing happens; every call, however it ends, leaves the level as it was, so that nothing
is open between calls from outside, whatever came before. -/
theorem answerCounted_eq_answer (p : Processor) (n : ℕ) :
    (∀ last : Answerer, (∀ r, Relates (fun w w' => w'.depth = w.depth) (last r)) →
        ∀ frames r w, p.Counts frames w →
          (p.answerCounted last n frames r).outcome w = (p.serve^[n] last r).outcome w)
      ∧ p.answer n = p.serve^[n] (fun _ _ => none)
      ∧ (∀ r w limit, r.opensLevel = true → p.options.maxNestingDepth = some limit →
        limit ≤ w.depth → (p.answer (n + 1) r).outcome w = some (.error (.nestingTooDeep limit), w))
      ∧ (∀ node context w, w.heap.children node = [] →
        ((p.answer (n + 1) (.substituteBelow node context)).outcome w = some (.ok (), w)
          ↔ p.Allows w))
      ∧ (∀ r w out, (p.answer n r).outcome w = some out → out.2.depth = w.depth)
      ∧ ∀ w, World.Idle w → p.Counts 0 w := by
  refine ⟨fun last hlast frames r w hw => ?_, answer_eq_iterate p n,
    fun r w limit => outcome_answer_of_limit, fun node context w hnone => ⟨fun hok limit hmax => ?_,
    fun hallows => ?_⟩, fun r w out => depth_answer, fun w hw => ?_⟩
  · exact (agrees_answer p hlast n frames r w hw).1
  · by_contra hfull
    have hrefused := outcome_answer_of_limit (n := n) (r := .substituteBelow node context) rfl hmax
      (Nat.le_of_not_lt hfull)
    rw [hok] at hrefused
    simp at hrefused
  · have hbelow : (substituteBelow (p.answer n) node context).outcome
        { w with depth := w.depth + 1 } = some (.ok (), { w with depth := w.depth + 1 }) := by
      rw [substituteBelow, outcome_bind_ok (outcome_heap _), hnone]
      rfl
    refine (outcome_guarded (substituteBelow (p.answer n) node context) hallows).trans ?_
    rw [hbelow]
    rfl
  · have hdepth := hw.depth_eq_zero
    exact ⟨hdepth, fun limit _ => hdepth ▸ Nat.zero_le limit⟩

/-- With one level allowed, a call among no children does nothing, and one from within another is
refused. -/
theorem answerCounted_one_level :
    let p : Processor := { options := { maxNestingDepth := some 1 } }
    let r : Request := .substituteBelow 0 none
    ((p.answerCounted (fun _ _ => none) 1 0 r).outcome {}
        = (p.serve^[1] (fun _ _ => none) r).outcome {})
      ∧ (p.answer 1 r).outcome { depth := 1 }
        = some (.error (.nestingTooDeep 1), { depth := 1 })
      ∧ (p.answer 1 r).outcome {} = some (.ok (), {})
      ∧ p.Counts 0 {} := by
  intro p r
  obtain ⟨hcounted, -, hrefused, hallowed, -, hidle⟩ := answerCounted_eq_answer p 0
  obtain ⟨hcounted', -⟩ := answerCounted_eq_answer p 1
  refine ⟨hcounted' _ (fun r w out hout => ?_) 0 r {} (by decide), hrefused r _ 1 rfl rfl (by decide),
    (hallowed 0 none {} rfl).mpr (by simp [Allows, p]), hidle {} (.start {} rfl)⟩
  simp [outcome] at hout

end Processor

end RichText
