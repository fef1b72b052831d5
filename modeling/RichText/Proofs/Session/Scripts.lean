import Mathlib.Tactic.Lemma
import RichText.Session.Calls

/-!
Handlers made from scripts.

A script does what its steps do, one after the other, and stops at the first error that it receives.
What is true of all handlers made from scripts is shown by the ways in which their steps are put
together.

* `Program.PassesOn`, `PassesErrors`: programs and handlers that end with every error they receive;
* `Program.Fits`, `HandsOn`: programs and handlers that make requests only with the context they
  are run in;
* `StepProgram.Made`: pieces of scripts, as they are put together;
* `Expr.made_eval`, `Step.made_run`: all texts and steps are put together so;
* `passesErrors_handlerOf`: **handlers made from scripts pass errors on**;
* `handsOn_handlerOf`: **handlers made from scripts hand on their context**;
* `Setup.every`: what holds for handlers made from scripts holds for all that are set up.
-/

namespace RichText

variable {α β : Type} {frame : Option (Option String)} {context : Option String} {r : Request}

/-! ### Errors passed on -/

/-- Whether a program ends with every error that it receives from a service, and with those in
`got` that it has received before. `Ends e a` tells that a result `a` is the end with `e`. -/
def Program.PassesOn (Ends : Failure → α → Prop) (got : List Failure) : Program α → Prop
  | .done a => ∀ e ∈ got, Ends e a
  | .inspect next => ∀ h, (next h).PassesOn Ends got
  | .change _ next => next.PassesOn Ends got
  | .note _ next => next.PassesOn Ends got
  | .ask _ next => (∀ reply, (next (.ok reply)).PassesOn Ends got)
      ∧ ∀ e, (next (.error e)).PassesOn Ends (e :: got)

/-- **A handler that passes errors on**: it ends with every error that a service gives to it. -/
def PassesErrors (handler : Handler) : Prop :=
  ∀ node context, (handler node context).PassesOn (fun e result => result = .error e) []

/-- Programs put one after the other end with the errors received, if what follows an end with an
error does. -/
lemma Program.PassesOn.bind {Ends : Failure → α → Prop} {Ends' : Failure → β → Prop}
    {prog : Program α} {f : α → Program β} {got : List Failure} (hprog : prog.PassesOn Ends got)
    (hf : ∀ a got', (∀ e ∈ got', Ends e a) → (f a).PassesOn Ends' got') :
    (prog.bind f).PassesOn Ends' got := by
  induction prog generalizing got with
  | done a => exact hf a got hprog
  | inspect next ih => exact fun h => ih h (hprog h)
  | change g next ih => exact ih hprog
  | note s next ih => exact ih hprog
  | ask r next ih => exact ⟨fun reply => ih _ (hprog.1 reply), fun e => ih _ (hprog.2 e)⟩

/-! ### Contexts handed on -/

/-- The context that a request carries. -/
def Request.context? : Request → Option (Option String)
  | parse _ | substitute _ | fragment _ => none
  | substituteBelow _ context | substituteAt _ context | substituteClassed _ context => some context

/-- Whether a request carries no other context than that in which it is made, if it is made in
one. -/
def Request.Fits (frame : Option (Option String)) (r : Request) : Prop :=
  ∀ c ∈ frame, ∀ c' ∈ r.context?, c' = c

/-- Whether all requests of a program carry no other context than that in which it is run. -/
def Program.Fits (frame : Option (Option String)) : Program α → Prop
  | .done _ => True
  | .inspect next => ∀ h, (next h).Fits frame
  | .change _ next => next.Fits frame
  | .note _ next => next.Fits frame
  | .ask r next => r.Fits frame ∧ ∀ reply, (next reply).Fits frame

/-- **A handler that hands on the context** which it is handed. -/
def HandsOn (handler : Handler) : Prop :=
  ∀ node context, (handler node context).Fits (some context)

lemma Request.fits_of_none (hr : r.context? = none) : r.Fits frame := fun c _ c' hc' => by
  rw [hr] at hc'
  exact absurd hc' (by simp)

lemma Request.fits_of_context (hr : context ∈ r.context?) : r.Fits (some context) := by
  intro c hc c' hc'
  rw [Option.mem_unique hc' hr, Option.some.inj hc]

/-- A program that is run in no context may make any requests. -/
lemma Program.fits_none (prog : Program α) : prog.Fits none := by
  induction prog with
  | done a => trivial
  | inspect next ih => exact fun h => ih h
  | change f next ih => exact ih
  | note s next ih => exact ih
  | ask r next ih => exact ⟨fun c hc => absurd hc (by simp), fun reply => ih reply⟩

lemma Program.Fits.bind {prog : Program α} {f : α → Program β} (hprog : prog.Fits frame)
    (hf : ∀ a, (f a).Fits frame) : (prog.bind f).Fits frame := by
  induction prog with
  | done a => exact hf a
  | inspect next ih => exact fun h => ih h (hprog h)
  | change g next ih => exact ih hprog
  | note s next ih => exact ih hprog
  | ask r next ih => exact ⟨hprog.1, fun reply => ih reply (hprog.2 reply)⟩

/-! ### Pieces of scripts -/

namespace StepProgram

/-- Pieces of scripts, as they are put together: from what is done with names and with the heap, and
from requests that carry no other context than the given one. -/
inductive Made (context : Option String) : {α : Type} → StepProgram α → Prop
  | pure {α : Type} (a : α) : Made context (pure a : StepProgram α)
  | throw {α : Type} (h : Halt) : Made context (throw h : StepProgram α)
  | bind {α β : Type} {x : StepProgram α} {f : α → StepProgram β} (hx : Made context x)
      (hf : ∀ a, Made context (f a)) : Made context (x >>= f)
  | get : Made context (get : StepProgram Names)
  | modify (f : Names → Names) : Made context (modify f : StepProgram PUnit)
  | heap : Made context heap
  | modifyHeap (f : Heap → Heap) : Made context (modifyHeap f)
  | newNode (content : Content) : Made context (newNode content)
  | note (s : String) : Made context (note s)
  | request (r : Request) (hr : r.Fits (some context)) : Made context (request r)

lemma made_updateHeap (f : Heap → Heap × α) : Made context (updateHeap f) :=
  Made.heap.bind fun _ => (Made.modifyHeap _).bind fun _ => Made.pure _

lemma made_node (name : String) : Made context (node name) := by
  refine Made.get.bind fun ns => ?_
  split
  · exact Made.pure _
  · exact Made.throw _

lemma made_nodes (names : List String) : Made context (nodes names) := by
  induction names with
  | nil => exact Made.pure _
  | cons name names ih => exact (made_node name).bind fun _ => ih.bind fun _ => Made.pure _

lemma made_setNode (name : String) (i : Option NodeId) : Made context (setNode name i) := by
  refine (Made.modify _).bind fun _ => ?_
  cases i with
  | none => exact Made.pure _
  | some i => exact Made.heap.bind fun _ => Made.pure _

end StepProgram

open StepProgram

section Steps

variable (context : Option String)

mutual

/-- Texts are put together so. -/
lemma Expr.made_eval : ∀ e : Expr, (e.eval context).Made context
  | .literal _ => Made.pure _
  | .attribute n _ => (made_node n).bind fun _ => Made.heap.bind fun _ => Made.pure _
  | .text n => (made_node n).bind fun _ => Made.heap.bind fun _ => Made.pure _
  | .tag n => (made_node n).bind fun _ => Made.heap.bind fun _ => Made.pure _
  | .markup n => (made_node n).bind fun _ => Made.heap.bind fun _ => Made.pure _
  | .context _ => Made.pure _
  | .variable name => by
      refine Made.get.bind fun ns => ?_
      split
      · exact Made.pure _
      · exact Made.throw _
  | .parse e => (Expr.made_eval e).bind fun s => Made.request (.parse s) (Request.fits_of_none rfl)
  | .substitute e => (Expr.made_eval e).bind fun s =>
      Made.request (.substitute s) (Request.fits_of_none rfl)
  | .upper e => (Expr.made_eval e).bind fun _ => Made.pure _
  | .concat es => Expr.made_evalConcat es

lemma Expr.made_evalConcat : ∀ es : List Expr, (Expr.evalConcat context es).Made context
  | [] => Made.pure _
  | e :: es => (Expr.made_eval e).bind fun _ => (Expr.made_evalConcat es).bind fun _ => Made.pure _

end

lemma made_evalAttributes (values : List (String × Expr)) :
    (evalAttributes context values).Made context := by
  induction values with
  | nil => exact Made.pure _
  | cons value values ih =>
      exact (Expr.made_eval context value.2).bind fun _ => ih.bind fun _ => Made.pure _

mutual

/-- **Every step** is put together so, by cases of its kind. -/
lemma Step.made_run : ∀ s : Step, (s.run context).Made context
  | .newFragment as => (Made.newNode _).bind fun _ => made_setNode as _
  | .createElement _ values as => (made_evalAttributes context values).bind fun _ =>
      (Made.newNode _).bind fun _ => made_setNode as _
  | .createText value as => (value.made_eval context).bind fun _ =>
      (Made.newNode _).bind fun _ => made_setNode as _
  | .readContent value as => (value.made_eval context).bind fun _ =>
      (made_updateHeap _).bind fun _ => made_setNode as _
  | .parseFragment value as => (value.made_eval context).bind fun s =>
      (Made.request (.fragment s) (Request.fits_of_none rfl)).bind fun i => made_setNode as (some i)
  | .parent n as => (made_node n).bind fun _ => Made.heap.bind fun _ => made_setNode as _
  | .child n _ as => (made_node n).bind fun _ => Made.heap.bind fun _ => made_setNode as _
  | .isFragment n => (made_node n).bind fun _ => Made.heap.bind fun _ => Made.pure _
  | .tagName n => (made_node n).bind fun _ => Made.heap.bind fun _ => Made.pure _
  | .attributes n => (made_node n).bind fun _ => Made.heap.bind fun _ => Made.pure _
  | .textContent n => (made_node n).bind fun _ => Made.heap.bind fun _ => Made.pure _
  | .getAttribute n _ => (made_node n).bind fun _ => Made.heap.bind fun _ => Made.pure _
  | .hasClass n _ => (made_node n).bind fun _ => Made.heap.bind fun _ => Made.pure _
  | .setAttribute n _ value => (made_node n).bind fun _ => (value.made_eval context).bind fun _ =>
      (Made.modifyHeap _).bind fun _ => Made.pure _
  | .children n => (made_node n).bind fun _ => Made.heap.bind fun _ => Made.pure _
  | .standIns n => (made_node n).bind fun _ => Made.heap.bind fun _ => Made.pure _
  | .position n => by
      refine (made_node n).bind fun i => Made.heap.bind fun h => ?_
      split
      · exact Made.pure _
      · exact Made.pure _
  | .isAncestorOrSelf candidate n => (made_node candidate).bind fun _ =>
      (made_node n).bind fun _ => Made.heap.bind fun _ => Made.pure _
  | .detach n => (made_node n).bind fun _ => (Made.modifyHeap _).bind fun _ => Made.pure _
  | .appendChild n c => (made_node n).bind fun _ => (made_node c).bind fun _ =>
      (Made.modifyHeap _).bind fun _ => Made.pure _
  | .moveChildren source target => (made_node source).bind fun _ =>
      (made_node target).bind fun _ => (Made.modifyHeap _).bind fun _ => Made.pure _
  | .insertAt n _ names => (made_node n).bind fun _ => (made_nodes names).bind fun _ =>
      (Made.modifyHeap _).bind fun _ => Made.pure _
  | .replaceWith n names => (made_node n).bind fun _ => (made_nodes names).bind fun _ =>
      (made_updateHeap _).bind fun _ => Made.pure _
  | .replaceByStandIns n replacement => (made_node n).bind fun _ =>
      (made_node replacement).bind fun _ => (made_updateHeap _).bind fun _ => Made.pure _
  | .same a b => (made_node a).bind fun _ => (made_node b).bind fun _ => Made.pure _
  | .serialize n => (made_node n).bind fun _ => Made.heap.bind fun _ => Made.pure _
  | .dump n => (made_node n).bind fun _ => Made.heap.bind fun _ => Made.pure _
  | .substituteBelow n => (made_node n).bind fun i =>
      (Made.request (.substituteBelow i context) (Request.fits_of_context rfl)).bind fun _ =>
        Made.pure _
  | .substitute n => (made_node n).bind fun i =>
      (Made.request (.substituteAt i context) (Request.fits_of_context rfl)).bind fun _ =>
        Made.pure _
  | .substituteClassed n => (made_node n).bind fun i =>
      (Made.request (.substituteClassed i context) (Request.fits_of_context rfl)).bind fun _ =>
        Made.pure _
  | .assign value _ => (value.made_eval context).bind fun _ =>
      (Made.modify _).bind fun _ => Made.pure _
  | .log value => (value.made_eval context).bind fun s => (Made.note s).bind fun _ => Made.pure _
  | .branch value is yes no => by
      refine (value.made_eval context).bind fun s => ?_
      dsimp only
      split
      · exact (Step.made_runAll yes).bind fun _ => Made.pure _
      · exact (Step.made_runAll no).bind fun _ => Made.pure _
  | .markup value => (value.made_eval context).bind fun _ => Made.throw _
  | .tree n => (made_node n).bind fun _ => Made.throw _
  | .keep => Made.throw _
  | .fail tag message => (tag.made_eval context).bind fun _ =>
      (message.made_eval context).bind fun _ => Made.throw _

lemma Step.made_runAll : ∀ ss : List Step, (Step.runAll context ss).Made context
  | [] => Made.pure _
  | s :: ss => (Step.made_run s).bind fun _ => Step.made_runAll ss

end

end Steps

/-! ### What is true of all scripts -/

namespace StepProgram

/-- Two pieces one after the other: behind an error nothing follows. -/
lemma start_bind (x : StepProgram α) (f : α → StepProgram β) (ns : Names) :
    (x >>= f).start ns = (x.start ns).bind fun out => match out.1 with
      | .ok a => (f a).start out.2
      | .error h => .done (.error h, out.2) := by
  show Program.bind (x ns) _ = Program.bind (x ns) _
  congr 1
  funext ⟨result, ns'⟩
  cases result <;> rfl

/-- A piece of a script stops with every error that a service gives to it. -/
lemma Made.passesOn {x : StepProgram α} (hx : x.Made context) (ns : Names) :
    (x.start ns).PassesOn (fun e out => out.1 = .error (.error (.failed e))) [] := by
  induction hx generalizing ns with
  | pure | throw | get | modify | modifyHeap | note => exact fun e he => absurd he (by simp)
  | heap => exact fun _ e he => absurd he (by simp)
  | newNode => exact fun _ e he => absurd he (by simp)
  | request r _ =>
      refine ⟨fun reply e he => absurd he (by simp), fun e e' he' => ?_⟩
      obtain rfl : e' = e := by simpa using he'
      rfl
  | bind _ _ ihx ihf =>
      rw [start_bind]
      refine (ihx ns).bind fun ⟨result, ns'⟩ got hgot => ?_
      cases result with
      | ok a =>
          obtain rfl : got = [] := List.eq_nil_iff_forall_not_mem.mpr fun e he => by
            simpa using hgot e he
          exact ihf a ns'
      | error h => exact fun e he => by simpa using hgot e he

/-- A piece of a script makes requests only with its context. -/
lemma Made.fits {x : StepProgram α} (hx : x.Made context) (ns : Names) :
    (x.start ns).Fits (some context) := by
  induction hx generalizing ns with
  | pure | throw | get | modify | modifyHeap | note => trivial
  | heap => exact fun _ => trivial
  | newNode => exact fun _ => trivial
  | request r hr =>
      refine ⟨hr, fun reply => ?_⟩
      cases reply <;> trivial
  | bind _ _ ihx ihf =>
      rw [start_bind]
      refine (ihx ns).bind fun ⟨result, ns'⟩ => ?_
      cases result with
      | ok a => exact ihf a ns'
      | error h => trivial

end StepProgram

/-- **Handlers made from scripts pass errors on.** -/
theorem passesErrors_handlerOf (label : String) (steps : List Step) :
    PassesErrors (handlerOf label steps) := by
  intro node context
  refine ((Step.made_runAll context steps).passesOn { nodes := [("node", node)] }).bind
    fun ⟨result, _⟩ got hgot e he => ?_
  obtain rfl : result = .error (.error (.failed e)) := hgot e he
  rfl

/-- **Handlers made from scripts hand on their context.** -/
theorem handsOn_handlerOf (label : String) (steps : List Step) :
    HandsOn (handlerOf label steps) := fun node context =>
  ((Step.made_runAll context steps).fits { nodes := [("node", node)] }).bind fun _ => trivial

/-! ### Processors set up with scripts -/

/-- What holds for handlers made from scripts holds for all handlers of a processor that is set up
with scripts. -/
lemma Setup.every {P : Handler → Prop} (hP : ∀ label steps, P (handlerOf label steps))
    (s : Setup) : s.processor.registry.Every P := by
  have hfold : ∀ (hs : List HandlerSetup) (r : Registry), r.Every P →
      (hs.foldl Registry.add r).Every P := by
    intro hs
    induction hs with
    | nil => exact fun r hr => hr
    | cons h hs ih =>
        exact fun r hr => ih _ (hr.register (hP h.label h.steps) h.kind h.value h.label)
  exact hfold s.handlers {} Registry.every_empty

end RichText
