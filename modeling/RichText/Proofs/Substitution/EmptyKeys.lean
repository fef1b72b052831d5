import RichText.Proofs.Substitution.Missed
import RichText.Proofs.Substitution.Steady
import RichText.Proofs.Substitution.Throughout
import RichText.Proofs.Substitution.Widening

/-!
Registrations under empty keys.

A registration under an empty key is for nobody as long as no element of a class comes in that has
been put in. That can be asked of a run, of all heaps that it comes to (`Processor.Throughout`), and
it is so for handlers that bring in no such element whatever they find and get in reply.

* `Program.Spares`: programs that bring in no such element;
* `Processor.spared_serve`: one level of requests with both registries, by the parts of a pass;
* `Processor.throughout_serve`: one level of requests to handlers that bring in no such element;
* `Processor.answer_eq_of_inserted`: **registrations under empty keys change no outcome** as long as
  no element is of a class that has been put in.
-/

namespace RichText

variable {α β ι : Type} {ys : List Registration}

/-! ### Handlers -/

/-- Whether the elements that a request brings in are of other classes. -/
def Processor.Fits (p : Processor) (ys : List Registration) : Request → Prop
  | .parse content => Tree.OnlyAll (OtherClass ys) (readContent (p.expand content))
  | .substitute content => Tree.OnlyAll (OtherClass ys) (readContent (p.expand content))
  | .fragment markup => Tree.OnlyAll (OtherClass ys) (readMarkup markup).1
  | _ => True

/-- Whether a program brings in no element that registrations under empty keys could be for: the
changes that it makes do not, the texts that it has read in do not, and it ends as it should. -/
def Program.Spares (p : Processor) (ys : List Registration) (Ends : α → Prop) : Program α → Prop
  | .done a => Ends a
  | .inspect next => ∀ h : Heap, h.Only (Unaddressed ys) → (next h).Spares p ys Ends
  | .change f next => (∀ h : Heap, h.Only (Unaddressed ys) → (f h).Only (Unaddressed ys))
      ∧ next.Spares p ys Ends
  | .note _ next => next.Spares p ys Ends
  | .ask r next => p.Fits ys r ∧ ∀ reply, (next reply).Spares p ys Ends

/-- Whether the elements that an answer brings in are of other classes. -/
def Rendering.Fits (ys : List Registration) : Except Failure Rendering → Prop
  | .ok (.markup s) => Tree.OnlyAll (OtherClass ys) (readMarkup s).1
  | _ => True

namespace Processor

open Heap Run

/-- Whether a handler brings in no element that registrations under empty keys could be for. -/
def Spares (p : Processor) (ys : List Registration) (handler : Handler) : Prop :=
  ∀ node context, (handler node context).Spares p ys (Rendering.Fits ys)

/-- All registered handlers bring in no such element. -/
def AllSpare (p : Processor) (ys : List Registration) : Prop :=
  (∀ tag x, p.registry.forTag? tag = some x → p.Spares ys x.handler)
    ∧ ∀ x ∈ p.registry.classes, p.Spares ys x.handler

variable {p : Processor} {r : Registry} {asked : Request → World → Prop} {ask ask' : Answerer}
  {w : World} {x x' : Run α}

/-- Two computations have the same outcome in a state, and bring in no element that registrations
under empty keys could be for. -/
def Spared (ys : List Registration) (w : World) (x x' : Run α) : Prop :=
  Steady (fun _ h' => h'.Only (Unaddressed ys)) w x x'

/-- Two ways to answer requests agree in such states, on requests of which `asked` holds. -/
def SparedAll (ys : List Registration) (asked : Request → World → Prop) (ask ask' : Answerer) :
    Prop :=
  ∀ (r : Request) (w : World), asked r w → w.heap.Only (Unaddressed ys) →
    Spared ys w (ask r) (ask' r)

namespace Spared

lemma bind {f f' : α → Run β} (hx : Spared ys w x x')
    (hf : ∀ a w', w'.heap.Only (Unaddressed ys) → Spared ys w' (f a) (f' a)) :
    Spared ys w (x >>= f) (x' >>= f') :=
  Steady.bind (fun _ _ _ h => h) hx fun a w' _ h => hf a w' h

lemma heap_bind {f f' : Heap → Run α} (hf : Spared ys w (f w.heap) (f' w.heap)) :
    Spared ys w (Run.heap >>= f) (Run.heap >>= f') :=
  Steady.heap_bind hf

lemma pure (hw : w.heap.Only (Unaddressed ys)) (a : α) :
    Spared ys w (pure a : Run α) (Pure.pure a) :=
  Steady.pure hw a

lemma throw (hw : w.heap.Only (Unaddressed ys)) (e : Failure) :
    Spared ys w (throw e : Run α) (MonadExcept.throw e) :=
  Steady.throw hw e

lemma plant {ts : List Tree} (hw : w.heap.Only (Unaddressed ys))
    (hts : Tree.OnlyAll (Unaddressed ys) ts) : Spared ys w (Run.plant ts) (Run.plant ts) :=
  Steady.plant (hw.plant (t := .document ts) hts)

lemma fragment (hw : w.heap.Only (Unaddressed ys)) (p : Processor) (tag : String) {markup : String}
    (hts : Tree.OnlyAll (OtherClass ys) (readMarkup markup).1) :
    Spared ys w (p.fragment tag markup) (p.fragment tag markup) := by
  refine ⟨rfl, fun out hout => ?_⟩
  rw [outcome_fragment] at hout
  split at hout
  · obtain rfl := Option.some.inj hout
    exact hw
  · exact (plant hw (unaddressed_readMarkup hts)).2 out hout

/-- A level of nesting, if it is allowed. -/
lemma guarded (p : Processor) (hw : w.heap.Only (Unaddressed ys))
    (hx : p.Allows w → Spared ys { w with depth := w.depth + 1 } x x') :
    Spared ys w (p.guarded x) (p.guarded x') := by
  rcases p.allows_or_limit w with hallows | ⟨limit, hmax, hle⟩
  · exact Steady.guarded p hw (hx hallows)
  · rw [Spared, Steady, outcome_guarded_of_limit _ hmax hle, outcome_guarded_of_limit _ hmax hle]
    refine ⟨rfl, fun out hout => ?_⟩
    obtain rfl := Option.some.inj hout
    exact hw

/-- Steps one after the other. -/
lemma forM {step step' : ι → Run Unit} {good : ι → World → Prop}
    (hstep : ∀ i w, good i w → w.heap.Only (Unaddressed ys) → Spared ys w (step i) (step' i))
    {is : List ι} (his : Each step good is w) (hw : w.heap.Only (Unaddressed ys)) :
    Spared ys w (is.forM step) (is.forM step') := by
  induction is generalizing w with
  | nil => exact pure hw _
  | cons i is ih =>
      exact Steady.bind (fun _ _ _ h => h) (hstep i w his.1 hw) fun _ w' hout hw' =>
        ih (his.2 w' hout) hw'

end Spared

/-! ### With both registries -/

/-- **A program that comes to no such element** does not notice the difference. -/
lemma spared_run (hask : SparedAll ys asked ask ask') {prog : Program α}
    (hprog : prog.Throughout (Heap.Only (Unaddressed ys)) ask asked w)
    (hw : w.heap.Only (Unaddressed ys)) : Spared ys w (prog.run ask) (prog.run ask') := by
  induction prog generalizing w with
  | done a => exact .pure hw a
  | inspect next ih => exact ih w.heap hprog hw
  | change f next ih => exact ih hprog.2 (w := { w with heap := f w.heap }) hprog.1
  | note s next ih =>
      exact ih hprog (w := { w with trace := w.trace ++ [.noted s] }) hw
  | ask r next ih =>
      obtain ⟨hsame, hkept⟩ := hask r w hprog.1 hw
      rw [Spared, Steady]
      simp only [outcome_run_ask, hsame]
      cases hout : (ask r).outcome w with
      | none => simp
      | some out => exact ih out.1 (hprog.2 out hout) (hkept out hout)

lemma spared_replaceElement (hask : SparedAll ys asked ask ask') {x : Registration} {tag : String}
    {node : NodeId} {context : Option String}
    (hx : p.ReplacedThroughout (Heap.Only (Unaddressed ys)) ask asked x tag node context w)
    (hw : w.heap.Only (Unaddressed ys)) :
    Spared ys w (p.replaceElement ask x tag node context)
      (({ p with registry := r } : Processor).replaceElement ask' x tag node context) := by
  have hprogram : ((x.handler node context).run ask').outcome (begun w x node context)
      = ((x.handler node context).run ask).outcome (begun w x node context) :=
    (spared_run hask hx.1 hw).1
  have hrun : (runHandler ask' x node context).outcome w
      = (runHandler ask x node context).outcome w := by
    rw [runHandler, runHandler, outcome_bind_ok (outcome_heap w), outcome_bind_ok (outcome_heap w),
      outcome_bind_ok (outcome_record _ w), outcome_bind_ok (outcome_record _ w), outcome_bind,
      outcome_bind]
    exact congrArg (Option.bind · _) hprogram
  refine ⟨?_, hx.2⟩
  rw [replaceElement_eq, replaceElement_eq, outcome_bind_ok (outcome_heap w),
    outcome_bind_ok (outcome_heap w), outcome_bind, outcome_bind, hrun]
  rfl

lemma spared_substituteBelow (hask : SparedAll ys asked ask ask') {node : NodeId}
    {context : Option String} (hbelow : BelowThroughout ask asked node context w)
    (hw : w.heap.Only (Unaddressed ys)) :
    Spared ys w (substituteBelow ask node context) (substituteBelow ask' node context) := by
  refine .heap_bind ?_
  rw [substituteEach_eq, substituteEach_eq]
  exact .forM (fun i w => hask (.substituteAt i context) w) hbelow hw

/-- The tag of an element is not empty. -/
lemma ne_empty_of_tagName {h : Heap} (hh : h.Only (Unaddressed ys)) {i : NodeId} {tag : String}
    (htag : h.tagName i = some tag) : tag ≠ "" := by
  rw [tagName, Option.map_eq_some_iff] at htag
  obtain ⟨e, he, rfl⟩ := htag
  rw [element?] at he
  split at he
  · next e' hc =>
      obtain rfl := Option.some.inj he
      exact (hh i _ hc).1
  · simp at he

lemma spared_substituteAt (hr : Registry.Widened ys p.registry r)
    (hask : SparedAll ys asked ask ask') {node : NodeId} {context : Option String}
    (hat : p.AtThroughout (Heap.Only (Unaddressed ys)) ask asked node context w)
    (hw : w.heap.Only (Unaddressed ys)) :
    Spared ys w (p.substituteAt ask node context)
      (({ p with registry := r } : Processor).substituteAt ask' node context) := by
  rw [substituteAt, substituteAt]
  refine .heap_bind ?_
  have hfound : ((w.heap.tagName node).bind fun t => (r.forTag? t).map fun x => (t, x))
      = (w.heap.tagName node).bind fun t => (p.registry.forTag? t).map fun x => (t, x) := by
    cases htag : w.heap.tagName node with
    | none => rfl
    | some tag => simp [hr.tags tag (ne_empty_of_tagName hw htag)]
  dsimp only
  rw [AtThroughout] at hat
  rw [hfound]
  cases hmatch : (w.heap.tagName node).bind fun t =>
      (p.registry.forTag? t).map fun x => (t, x) with
  | none =>
      rw [hmatch] at hat
      exact spared_substituteBelow hask hat hw
  | some found =>
      rw [hmatch] at hat
      exact spared_replaceElement hask hat hw

lemma spared_substituteMatch (hask : SparedAll ys asked ask ask') {x : Registration} {root : NodeId}
    {context : Option String} {i : NodeId}
    (hi : w.heap.isAncestorOrSelf root i = true → p.ReplacedThroughout (Heap.Only (Unaddressed ys))
      ask asked x ((w.heap.tagName i).getD "") i context w)
    (hw : w.heap.Only (Unaddressed ys)) :
    Spared ys w (p.substituteMatch ask x root context i)
      (({ p with registry := r } : Processor).substituteMatch ask' x root context i) := by
  refine .heap_bind ?_
  split
  · next hbelow => exact spared_replaceElement hask (hi hbelow) hw
  · exact .pure hw _

lemma spared_substituteAllMatches (hask : SparedAll ys asked ask ask') {root : NodeId}
    {context : Option String} {x : Registration}
    (hx : p.MatchesThroughout (Heap.Only (Unaddressed ys)) ask asked root context x w)
    (hw : w.heap.Only (Unaddressed ys)) :
    Spared ys w (p.substituteAllMatches ask root context x)
      (({ p with registry := r } : Processor).substituteAllMatches ask' root context x) := by
  refine .heap_bind ?_
  rw [substituteMatches_eq, substituteMatches_eq]
  refine Spared.forM ?_ hx hw
  exact fun i w => spared_substituteMatch hask

/-- No element is of a class that registrations under empty keys are for. -/
lemma withClass_eq_nil {h : Heap} (hh : h.Only (Unaddressed ys)) {y : Registration} (hy : y ∈ ys)
    (hkind : y.kind = .className) (root : NodeId) : h.withClass y.value root = [] := by
  rw [List.eq_nil_iff_forall_not_mem]
  intro i hi
  obtain ⟨-, hclass⟩ := of_mem_withClassTo hi
  rw [hasClass, attribute?, decide_eq_true_eq] at hclass
  obtain ⟨e, he, hvalue⟩ := Option.bind_eq_some_iff.mp hclass
  rw [element?] at he
  split at he
  · next e' hc =>
      obtain rfl := Option.some.inj he
      exact (hh i _ hc).2 y hy hkind hvalue
  · simp at he

lemma spared_substituteRegistered (hask : SparedAll ys asked ask ask') {root : NodeId}
    {context : Option String} {xs xs' : List Registration} (hxs : Registry.Padded ys xs xs')
    (hall : Each (p.substituteAllMatches ask root context)
      (p.MatchesThroughout (Heap.Only (Unaddressed ys)) ask asked root context) xs w)
    (hw : w.heap.Only (Unaddressed ys)) :
    Spared ys w (p.substituteRegistered ask root context xs)
      (({ p with registry := r } : Processor).substituteRegistered ask' root context xs') := by
  rw [substituteRegistered_eq, substituteRegistered_eq]
  induction hxs generalizing w with
  | nil => exact .pure hw _
  | keep x _ ih =>
      exact Steady.bind (fun _ _ _ h => h) (spared_substituteAllMatches hask hall.1 hw)
        fun _ w' hout hw' => ih (hall.2 w' hout) hw'
  | insert y hy _ ih =>
      obtain ⟨hsame, hkept⟩ := ih hall hw
      refine ⟨?_, hkept⟩
      have hnone : (({ p with registry := r } : Processor).substituteAllMatches ask' root context
          y).outcome w = some (.ok (), w) := by
        rw [substituteAllMatches, outcome_bind_ok (outcome_heap w), withClass_eq_nil hw hy.1 hy.2]
        rfl
      exact (outcome_bind_ok hnone).trans hsame

lemma expand_eq_of_widened (hr : Registry.Widened ys p.registry r) (content : String) :
    expandTags (fun tag => (r.forTag? tag).isSome) content = p.expand content :=
  expandTags_congr (fun name hname => by rw [hr.tags name hname]) content

lemma spared_substitute (hr : Registry.Widened ys p.registry r)
    (hask : SparedAll ys asked ask ask') {content : String}
    (hcontent : p.ContentThroughout (Heap.Only (Unaddressed ys)) ask asked content w)
    (hw : w.heap.Only (Unaddressed ys)) :
    Spared ys w (p.substitute ask content)
      (({ p with registry := r } : Processor).substitute ask' content) := by
  have hexpand : expandTags
      (fun tag => (({ p with registry := r } : Processor).registry.forTag? tag).isSome) content
      = p.expand content := expand_eq_of_widened hr content
  rw [substitute, substitute]
  simp only [hexpand]
  refine .guarded p hw fun hallows => ?_
  refine Steady.bind (fun _ _ _ h => h) (Steady.lookupContext hw p) fun context w₁ hlookup hw₁ => ?_
  have hafter := hcontent hallows context w₁ hlookup
  refine Steady.bind (fun _ _ _ h => h) ⟨rfl, fun out hout => ?_⟩ fun root w₂ hplant hw₂ => ?_
  · obtain rfl := Option.some.inj hout
    exact (hafter _ _ rfl).1
  obtain ⟨-, hat, hclassed⟩ := hafter root w₂ hplant
  refine Steady.bind (fun _ _ _ h => h) (spared_substituteAt hr hask hat hw₂) fun _ w₃ hout hw₃ => ?_
  refine Spared.bind (spared_substituteRegistered hask hr.classes (hclassed w₃ hout) hw₃)
    fun _ w₄ hw₄ => ?_
  exact .heap_bind (.pure hw₄ _)

/-- The services agree if requests made meanwhile do. -/
lemma spared_serve (hr : Registry.Widened ys p.registry r) (hask : SparedAll ys asked ask ask') :
    SparedAll ys (p.ServedThroughout (Heap.Only (Unaddressed ys)) ask asked) (p.serve ask)
      (({ p with registry := r } : Processor).serve ask') := by
  intro request w hserved hw
  cases request with
  | parse content =>
      exact (spared_substitute hr hask hserved hw).bind fun s _ hw' => .pure hw' _
  | substitute content => exact spared_substitute hr hask hserved hw
  | fragment markup => exact ⟨rfl, hserved⟩
  | substituteBelow node context =>
      exact .guarded p hw fun hallows => spared_substituteBelow
        (w := { w with depth := w.depth + 1 }) hask (hserved hallows) hw
  | substituteAt node context => exact spared_substituteAt hr hask hserved hw
  | substituteClassed node context => exact spared_substituteRegistered hask hr.classes hserved hw

/-- All levels of requests agree, by induction on their number. -/
lemma sparedAll_answer (hr : Registry.Widened ys p.registry r) (n : ℕ) :
    SparedAll ys (p.Throughout (Heap.Only (Unaddressed ys)) n) (p.answer n)
      (({ p with registry := r } : Processor).answer n) := by
  induction n with
  | zero => exact fun _ w _ _ => ⟨rfl, fun out hout => by simp [answer, outcome] at hout⟩
  | succ n ih => exact spared_serve hr ih

/-! ### Handlers that bring in no such element -/

/-- Whether requests that bring in no element of such a class are among those of which `asked`
holds. -/
def Covers (p : Processor) (ys : List Registration) (asked : Request → World → Prop) : Prop :=
  ∀ (r : Request) (w : World), p.Fits ys r → w.heap.Only (Unaddressed ys) → asked r w

/-- A program that brings in no such element comes to none, and ends as it should. -/
lemma throughout_run (hself : SparedAll ys asked ask ask) (hcovers : p.Covers ys asked)
    {Ends : α → Prop} {prog : Program α} (hprog : prog.Spares p ys Ends)
    (hw : w.heap.Only (Unaddressed ys)) :
    prog.Throughout (Heap.Only (Unaddressed ys)) ask asked w
      ∧ ∀ a w', (prog.run ask).outcome w = some (.ok a, w') → Ends a := by
  induction prog generalizing w with
  | done a =>
      refine ⟨trivial, fun b w' hout => ?_⟩
      rw [Program.run, outcome_pure, Option.some.injEq, Prod.mk.injEq, Except.ok.injEq] at hout
      exact hout.1 ▸ hprog
  | inspect next ih => exact ih w.heap (hprog w.heap hw) hw
  | change f next ih =>
      have hf := hprog.1 _ hw
      obtain ⟨hthroughout, hends⟩ := ih hprog.2 (w := { w with heap := f w.heap }) hf
      exact ⟨⟨hf, hthroughout⟩, hends⟩
  | note s next ih =>
      exact ih hprog (w := { w with trace := w.trace ++ [.noted s] }) hw
  | ask r next ih =>
      have hasked := hcovers r w hprog.1 hw
      have hkept := (hself r w hasked hw).2
      refine ⟨⟨hasked, fun out hout => (ih out.1 (hprog.2 out.1) (hkept out hout)).1⟩,
        fun a w' hrun => ?_⟩
      rw [outcome_run_ask] at hrun
      obtain ⟨out, hout, hnext⟩ := Option.bind_eq_some_iff.mp hrun
      exact (ih out.1 (hprog.2 out.1) (hkept out hout)).2 a w' hnext

/-- Nodes put in place of an element are moved only. -/
lemma spared_putReplacement (hw : w.heap.Only (Unaddressed ys)) (tag : String) (node : NodeId)
    (anchor : Option Position) (replacement : NodeId) :
    Spared ys w (putReplacement tag node anchor replacement)
      (putReplacement tag node anchor replacement) := by
  refine ⟨rfl, fun out hout => ?_⟩
  rw [outcome_putReplacement] at hout
  cases anchor with
  | none =>
      obtain rfl := Option.some.inj hout
      exact hw
  | some place =>
      dsimp only at hout
      split at hout
      · obtain rfl := Option.some.inj hout
        exact hw
      · obtain rfl := Option.some.inj hout
        show (putInPlace ..).Only _
        rw [putInPlace]
        split
        · exact hw.replaceWith _ _
        · exact hw.insertAt _ _ _

lemma spared_splice {answer : Rendering} (hanswer : Rendering.Fits ys (.ok answer))
    (hw : w.heap.Only (Unaddressed ys)) (tag : String) (node : NodeId) (anchor : Option Position) :
    Spared ys w (p.splice tag node anchor answer) (p.splice tag node anchor answer) := by
  cases answer with
  | keep => exact .pure hw _
  | markup s =>
      exact (Spared.fragment hw p tag hanswer).bind fun _ w₂ hw₂ =>
        spared_putReplacement hw₂ tag node _ _
  | tree j => exact spared_putReplacement hw tag node _ j

lemma replacedThroughout (hself : SparedAll ys asked ask ask) (hcovers : p.Covers ys asked)
    {x : Registration} (hx : p.Spares ys x.handler) (hw : w.heap.Only (Unaddressed ys))
    (tag : String) (node : NodeId) (context : Option String) :
    p.ReplacedThroughout (Heap.Only (Unaddressed ys)) ask asked x tag node context w := by
  obtain ⟨hthroughout, hends⟩ :=
    throughout_run hself hcovers (hx node context) (w := begun w x node context) hw
  have hkept := (spared_run hself hthroughout hw).2
  refine ⟨hthroughout, fun out hout => ?_⟩
  rw [replaceElement_eq, outcome_bind_ok (outcome_heap w)] at hout
  rcases outcome_bind_eq_some hout with ⟨answer, w₁, hanswer, hsplice⟩ | ⟨e, w₁, herror, rfl⟩
  · obtain ⟨end_, hend, rfl, hgiven⟩ := exists_outcome_run hanswer
    have hfits : Rendering.Fits ys (.ok answer) :=
      hends _ end_.2 (by rw [hend, ← hgiven answer rfl])
    exact (spared_splice hfits (hkept end_ hend) tag node _).2 out hsplice
  · obtain ⟨end_, hend, rfl, -⟩ := exists_outcome_run herror
    exact hkept end_ hend

/-- Steps that are good in such states, and lead to such states. -/
lemma each_of_forall {step : ι → Run Unit} {good : ι → World → Prop} {is : List ι}
    (hgood : ∀ i ∈ is, ∀ w : World, w.heap.Only (Unaddressed ys) →
      good i w ∧ ∀ out, (step i).outcome w = some out → out.2.heap.Only (Unaddressed ys))
    (hw : w.heap.Only (Unaddressed ys)) : Each step good is w := by
  induction is generalizing w with
  | nil => exact trivial
  | cons i is ih =>
      obtain ⟨hi, hkept⟩ := hgood i List.mem_cons_self w hw
      exact ⟨hi, fun w' hout => ih (fun j hj => hgood j (List.mem_cons_of_mem i hj)) (hkept _ hout)⟩

lemma belowThroughout (hself : SparedAll ys asked ask ask) (hcovers : p.Covers ys asked)
    (hw : w.heap.Only (Unaddressed ys)) (node : NodeId) (context : Option String) :
    BelowThroughout ask asked node context w := by
  refine each_of_forall (fun i _ w hw => ?_) hw
  have hasked := hcovers (.substituteAt i context) w trivial hw
  exact ⟨hasked, (hself _ w hasked hw).2⟩

lemma atThroughout (hall : p.AllSpare ys) (hself : SparedAll ys asked ask ask)
    (hcovers : p.Covers ys asked) (hw : w.heap.Only (Unaddressed ys)) (node : NodeId)
    (context : Option String) :
    p.AtThroughout (Heap.Only (Unaddressed ys)) ask asked node context w := by
  rw [AtThroughout]
  cases hmatch : (w.heap.tagName node).bind fun t =>
      (p.registry.forTag? t).map fun x => (t, x) with
  | none => exact belowThroughout hself hcovers hw node context
  | some found =>
      obtain ⟨tag, -, hmap⟩ := Option.bind_eq_some_iff.mp hmatch
      obtain ⟨x, hx, rfl⟩ := Option.map_eq_some_iff.mp hmap
      exact replacedThroughout hself hcovers (hall.1 tag x hx) hw tag node context

lemma classedThroughout (hall : p.AllSpare ys) (hself : SparedAll ys asked ask ask)
    (hcovers : p.Covers ys asked) (hw : w.heap.Only (Unaddressed ys)) (root : NodeId)
    (context : Option String) :
    p.ClassedThroughout (Heap.Only (Unaddressed ys)) ask asked root context w := by
  refine each_of_forall (fun x hx w hw => ?_) hw
  have hmatches : p.MatchesThroughout (Heap.Only (Unaddressed ys)) ask asked root context x w := by
    refine each_of_forall (fun i _ w hw => ?_) hw
    have hi := replacedThroughout hself hcovers (hall.2 x hx) hw ((w.heap.tagName i).getD "") i
      context
    exact ⟨fun _ => hi, (spared_substituteMatch (r := p.registry) hself (fun _ => hi) hw).2⟩
  exact ⟨hmatches, (spared_substituteAllMatches (r := p.registry) hself hmatches hw).2⟩

/-- A registry beside itself. -/
lemma widened_refl (p : Processor) : Registry.Widened ys p.registry p.registry :=
  ⟨fun _ _ => rfl, .refl _⟩

lemma contentThroughout (hall : p.AllSpare ys) (hself : SparedAll ys asked ask ask)
    (hcovers : p.Covers ys asked) {content : String}
    (hcontent : Tree.OnlyAll (OtherClass ys) (readContent (p.expand content)))
    (hw : w.heap.Only (Unaddressed ys)) :
    p.ContentThroughout (Heap.Only (Unaddressed ys)) ask asked content w := by
  intro _ context w₁ hlookup expanded root w₂ hplant
  have hw₁ : w₁.heap.Only (Unaddressed ys) :=
    (Steady.lookupContext (w := { w with depth := w.depth + 1 })
      (R := fun _ h' => h'.Only (Unaddressed ys)) hw p).2 _ hlookup
  have hw₂ := (Spared.plant hw₁ (unaddressed_readContent hcontent)).2 _ hplant
  have hat := atThroughout hall hself hcovers hw₂ root context
  exact ⟨hw₂, hat, fun w₃ hout => classedThroughout hall hself hcovers
    ((spared_substituteAt p.widened_refl hself hat hw₂).2 _ hout) root context⟩

/-- A service that brings in no such element comes to none. -/
lemma throughout_serve (hall : p.AllSpare ys) (hself : SparedAll ys asked ask ask)
    (hcovers : p.Covers ys asked) :
    p.Covers ys (p.ServedThroughout (Heap.Only (Unaddressed ys)) ask asked) := by
  intro request w hfits hw
  cases request with
  | parse content => exact contentThroughout hall hself hcovers hfits hw
  | substitute content => exact contentThroughout hall hself hcovers hfits hw
  | fragment markup => exact (Spared.fragment hw p _ hfits).2
  | substituteBelow node context =>
      exact fun _ => belowThroughout (w := { w with depth := w.depth + 1 }) hself hcovers hw node
        context
  | substituteAt node context => exact atThroughout hall hself hcovers hw node context
  | substituteClassed node context => exact classedThroughout hall hself hcovers hw node context

/-- **Handlers that bring in no such element** keep it out, by induction on the depth of requests. -/
lemma throughout_of_allSpare (hall : p.AllSpare ys) (n : ℕ) :
    p.Covers ys (p.Throughout (Heap.Only (Unaddressed ys)) n) := by
  induction n with
  | zero => exact fun _ _ _ _ => trivial
  | succ n ih => exact throughout_serve hall (sparedAll_answer p.widened_refl n) ih

/-! ### The result -/

open Registry in
/-- **Registrations under empty keys change no outcome**, wherever they are put into the history of
a registry, as long as no element comes up in the run that is of a class among them: every request
has the same answer, with the same handlers run on the same elements. That is so in all runs if
neither the request nor any handler brings in such an element. Under an empty tag alone no element
is left out by that. Under an empty class some are: an element whose class is written and empty is
of that class. -/
theorem answer_eq_of_inserted {cs cs' : List Change} (hcs : Inserted cs ys cs')
    (hys : ∀ y ∈ ys, y.value = "") (n : ℕ) (request : Request)
    (hw : w.heap.Only (Unaddressed ys)) :
    (({ p with registry := ofChanges cs } : Processor).AllSpare ys →
        ({ p with registry := ofChanges cs } : Processor).Fits ys request →
          ({ p with registry := ofChanges cs } : Processor).Throughout
            (Heap.Only (Unaddressed ys)) n request w)
      ∧ (({ p with registry := ofChanges cs } : Processor).Throughout
            (Heap.Only (Unaddressed ys)) n request w →
        (({ p with registry := ofChanges cs' } : Processor).answer n request).outcome w
            = (({ p with registry := ofChanges cs } : Processor).answer n request).outcome w
          ∧ ∀ out, (({ p with registry := ofChanges cs } : Processor).answer n request).outcome w
            = some out → out.2.heap.Only (Unaddressed ys)) :=
  ⟨fun hall hfits => throughout_of_allSpare hall n request w hfits hw,
    fun hthroughout => sparedAll_answer (p := { p with registry := ofChanges cs })
      (widened_ofChanges hcs hys) n request w hthroughout hw⟩

open Registry in
/-- An element whose handler answers with markup, among registrations under the empty tag and the
empty class. -/
theorem answer_eq_of_inserted_custom :
    let custom : Registration :=
      ⟨.tagName, "x-a", "a", fun _ _ => .done (.ok (.markup (writeNodes
        [.element { name := "span", attributes := [{ name := "class", value := "b" }] }
          [.text "b"]])))⟩
    let tag : Registration := ⟨.tagName, "", "t", fun _ _ => .done (.ok (.markup "t"))⟩
    let cls : Registration := ⟨.className, "", "c", fun _ _ => .done (.ok (.markup "c"))⟩
    let p : Processor := { registry := ofChanges [.register custom] }
    let p' : Processor :=
      { registry := ofChanges [.register tag, .register custom, .register cls] }
    let content := writeNodes [.element { name := "x-a", attributes := [] } [.text "x"]]
    p.registry.size = 1 ∧ p'.registry.size = 3
      ∧ (p'.answer 3 (.substitute content)).outcome {}
        = (p.answer 3 (.substitute content)).outcome {} := by
  intro custom tag cls p p' content
  have hother : ∀ e : Element, e.get? "class" ≠ some "" → OtherClass [tag, cls] e := by
    intro e he y hy hkind
    simp only [List.mem_cons, List.not_mem_nil, or_false] at hy
    rcases hy with rfl | rfl
    · cases hkind
    · exact he
  have hmarkup : Tree.OnlyAll (OtherClass [tag, cls]) (readMarkup (writeNodes
      [.element { name := "span", attributes := [{ name := "class", value := "b" }] }
        [.text "b"]])).1 := by
    rw [readMarkup_writeNodes (by decide) (by decide)]
    exact ⟨⟨hother _ (by decide), trivial, trivial⟩, trivial⟩
  have hforTag : ∀ name, p.registry.forTag? name = if "x-a" = name then some custom else none := by
    intro name
    have hlower : "x-a".toLower = "x-a" := by decide +kernel
    show ((({} : Registry).registerTag "x-a" "a" custom.handler).forTag? name) = _
    rw [forTag_registerTag, hlower, forTag?_empty]
  have hall : p.AllSpare [tag, cls] :=
    every_empty.register (fun _ _ => hmarkup) .tagName "x-a" "a"
  have hexpand : p.expand content = content := by
    rw [expand, show (fun tag => (p.registry.forTag? tag).isSome) = fun tag => decide ("x-a" = tag)
      from funext fun name => by rw [hforTag]; split <;> simp_all]
    decide +kernel
  have hfits : p.Fits [tag, cls] (.substitute content) := by
    show Tree.OnlyAll _ (readContent (p.expand content))
    rw [hexpand, readContent_of_isPlainAll (by decide) (by decide)]
    exact ⟨trivial, ⟨hother _ (by decide), ⟨hother _ (by decide), trivial⟩,
      ⟨hother _ (by decide), ⟨hother _ (by decide), trivial, trivial⟩, trivial⟩, trivial⟩, trivial⟩
  have hinserted : Inserted [.register custom] [tag, cls]
      [.register tag, .register custom, .register cls] := .insert tag (.keep _ (.insert cls .nil))
  obtain ⟨hthroughout, hsame⟩ := answer_eq_of_inserted (p := {}) hinserted (by decide) 3
    (.substitute content) (w := {}) Heap.only_empty
  exact ⟨rfl, rfl, (hsame (hthroughout hall hfits)).1⟩

/-- An element whose class is written and empty is of the empty class. -/
example :
    let paragraph : Element := { name := "p", attributes := [{ name := "class", value := "" }] }
    (Heap.plant {} (.element paragraph [])).1.hasClass 0 "" = true := by
  decide

end Processor

end RichText
