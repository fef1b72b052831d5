import RichText.Proofs.Session.Scripts
import RichText.Proofs.Substitution.Recounted

/-!
Contexts of calls.

Each call that processes content consults the context source once, before anything else happens, and
all handlers that run in its passes are handed what the source gave. Handlers ask for services in
turn, so that many calls can be open at a time; in a recount what happens during a call is told as
a part of it, and each handler stands inside the call that it is run for.

* `Disciplined`: happenings in which each handler is handed the context of the call that it is run
  for;
* `Happening.Accounts`: happenings that tell all that the trace tells, and all consultations;
* `Recounts`: a computation and its recount, which accounts for it and keeps the discipline;
* `Processor.recounts_run`: programs that hand on their context, by induction on their steps;
* `Processor.recounted_content`, `Processor.recounted_nodes`: calls that process content, and calls
  that work on nodes in a context;
* `Processor.tells_serve`: one level of requests, by the kinds of these;
* `Processor.recounts_calls`: **the discipline of contexts** in whole runs, by induction on the
  depth of requests.
-/

namespace RichText

variable {α β : Type} {source : ℕ → Option String} {frame : Option (Option String)}
  {w w' w'' : World} {hs hs' inside : List Happening} {r : Request} {context : Option String}

/-! ### The discipline -/

/-- Whether happenings keep the discipline, where `frame` is the context of the call during which
they happen, if there is one. A handler that runs is handed that context, and what it asks for in a
context is asked for in the same. A call that processes content first consults the source, and what
the source gives is the context inside; nothing else consults it. A call that is refused does
nothing. -/
inductive Disciplined (source : ℕ → Option String) :
    Option (Option String) → List Happening → Prop
  | nil (frame : Option (Option String)) : Disciplined source frame []
  | noted {frame : Option (Option String)} {hs : List Happening} (s : String)
      (hrest : Disciplined source frame hs) : Disciplined source frame (.noted s :: hs)
  | ran {context : Option String} {inside hs : List Happening} (label : String) (node : NodeId)
      (tag : Option String) (hinside : Disciplined source (some context) inside)
      (hrest : Disciplined source (some context) hs) :
      Disciplined source (some context) (.ran label node tag context inside :: hs)
  | content {frame : Option (Option String)} {r : Request} {inside hs : List Happening}
      (hr : r.isContent = true) (number : ℕ)
      (hinside : Disciplined source (some (source number)) inside)
      (hrest : Disciplined source frame hs) : Disciplined source frame
        (.called r true (.consulted number (source number) :: inside) :: hs)
  | nodes {frame : Option (Option String)} {r : Request} {context : Option String}
      {inside hs : List Happening} (hr : context ∈ r.context?) (hframe : ∀ c ∈ frame, context = c)
      (hinside : Disciplined source (some context) inside)
      (hrest : Disciplined source frame hs) : Disciplined source frame (.called r true inside :: hs)
  | fragment {frame : Option (Option String)} {hs : List Happening} (markup : String)
      (hrest : Disciplined source frame hs) :
      Disciplined source frame (.called (.fragment markup) true [] :: hs)
  | refused {frame : Option (Option String)} {r : Request} {hs : List Happening}
      (hr : r.opensLevel = true) (hrest : Disciplined source frame hs) :
      Disciplined source frame (.called r false [] :: hs)

lemma Disciplined.append (h : Disciplined source frame hs) (h' : Disciplined source frame hs') :
    Disciplined source frame (hs ++ hs') := by
  induction h with
  | nil => exact h'
  | noted s _ ih => exact .noted s (ih h')
  | ran label node tag hinside _ _ ih => exact .ran label node tag hinside (ih h')
  | content hr number hinside _ _ ih => exact .content hr number hinside (ih h')
  | nodes hr hframe hinside _ _ ih => exact .nodes hr hframe hinside (ih h')
  | fragment markup _ ih => exact .fragment markup (ih h')
  | refused hr _ ih => exact .refused hr (ih h')

/-! ### Accounts -/

namespace Happening

lemma begunAll_append (hs hs' : List Happening) :
    begunAll (hs ++ hs') = begunAll hs ++ begunAll hs' := by
  induction hs with
  | nil => rfl
  | cons h hs ih => rw [List.cons_append, begunAll, begunAll, ih, List.append_assoc]

/-- Happenings between two states that tell all that the trace tells and all consultations, which
are counted on, one for each time content is let in. -/
structure Accounts (w w' : World) (hs : List Happening) : Prop where
  trace : w'.trace = w.trace ++ events hs
  consulted : numbers hs = List.range' (w.lookups + 1) (entries hs)
  lookups : w'.lookups = w.lookups + entries hs

namespace Accounts

/-- Where nothing is told, nothing has happened. -/
lemma nil (htrace : w'.trace = w.trace) (hlookups : w'.lookups = w.lookups) : Accounts w w' [] :=
  ⟨by simp [htrace, events, begunAll], rfl, hlookups⟩

lemma append (h : Accounts w w' hs) (h' : Accounts w' w'' hs') : Accounts w w'' (hs ++ hs') := by
  have hentries : entries (hs ++ hs') = entries hs + entries hs' := by
    rw [entries, begunAll_append, List.countP_append, entries, entries]
  refine ⟨?_, ?_, ?_⟩
  · rw [h'.trace, h.trace, events, events, events, begunAll_append, List.filterMap_append,
      List.append_assoc]
  · have hnumbers : numbers (hs ++ hs') = numbers hs ++ numbers hs' := by
      rw [numbers, begunAll_append, List.filterMap_append, numbers, numbers]
    rw [hnumbers, h.consulted, h'.consulted, h.lookups, hentries, Nat.add_right_comm,
      List.range'_append_1]
  · rw [h'.lookups, h.lookups, hentries, Nat.add_assoc]

lemma noted (w : World) (s : String) :
    Accounts w { w with trace := w.trace ++ [.noted s] } [.noted s] :=
  ⟨rfl, rfl, rfl⟩

/-- A handler that is run is told with what happens meanwhile. -/
lemma ran {label : String} {node : NodeId} {tag : Option String}
    (h : Accounts { w with trace := w.trace ++ [.rendered label node tag context] } w' inside) :
    Accounts w w' [.ran label node tag context inside] := by
  refine ⟨?_, ?_, ?_⟩
  · rw [h.trace]
    simp [events, begunAll, begun, event?]
  · simpa [numbers, entries, begunAll, begun, List.filterMap_cons, number?, isEntry]
      using h.consulted
  · simpa [entries, begunAll, begun, isEntry] using h.lookups

/-- A call that processes no content is told with what happens meanwhile. -/
lemma called {letIn : Bool} (hr : (r.isContent && letIn) = false) (h : Accounts w w' inside) :
    Accounts w w' [.called r letIn inside] := by
  refine ⟨?_, ?_, ?_⟩
  · rw [h.trace]
    simp [events, begunAll, begun, List.filterMap_cons, event?]
  · simpa [numbers, entries, begunAll, begun, List.filterMap_cons, number?, isEntry, hr]
      using h.consulted
  · simpa [entries, begunAll, begun, isEntry, hr] using h.lookups

/-- A call that processes content is told with its consultation. -/
lemma content (hr : r.isContent = true) (context : Option String)
    (h : Accounts { w with lookups := w.lookups + 1 } w' inside) :
    Accounts w w' [.called r true (.consulted (w.lookups + 1) context :: inside)] := by
  have hentries : entries [.called r true (.consulted (w.lookups + 1) context :: inside)]
      = entries inside + 1 := by
    simp [entries, begunAll, begun, isEntry, hr]
  refine ⟨?_, ?_, ?_⟩
  · rw [h.trace]
    simp [events, begunAll, begun, List.filterMap_cons, event?]
  · have hnumbers : numbers [.called r true (.consulted (w.lookups + 1) context :: inside)]
        = (w.lookups + 1) :: numbers inside := by
      simp [numbers, begunAll, begun, List.filterMap_cons, number?]
    rw [hnumbers, hentries, h.consulted, List.range'_succ]
  · rw [h.lookups, hentries]
    show w.lookups + 1 + entries inside = _
    omega

end Accounts

end Happening

open Happening

/-! ### Computations and their recounts -/

/-- An outcome, from a state on, and what is told of it: the same outcome, and happenings that
account for what is new in the state and keep the discipline. -/
def Recounted (source : ℕ → Option String) (frame : Option (Option String)) (w : World)
    (out : Option (Except Failure α × World))
    (told : Option ((Except Failure α × World) × List Happening)) : Prop :=
  told.map Prod.fst = out ∧ ∀ result w' hs, told = some ((result, w'), hs) →
    Disciplined source frame hs ∧ Accounts w w' hs

/-- A computation and its recount, which has the same outcome in every state. -/
def Recounts (source : ℕ → Option String) (frame : Option (Option String)) (x : Run α)
    (x' : Recount α) : Prop :=
  ∀ w, Recounted source frame w (x.outcome w) (x'.outcome w)

/-- An outcome at hand, with what is told of it. -/
lemma Recounted.of_some {result : Except Failure α} (hdisciplined : Disciplined source frame hs)
    (haccounts : Accounts w w' hs) :
    Recounted source frame w (some (result, w')) (some ((result, w'), hs)) := by
  refine ⟨rfl, fun result' w'' hs' hout => ?_⟩
  obtain ⟨heq, rfl⟩ := Prod.mk.inj (Option.some.inj hout)
  obtain ⟨-, rfl⟩ := Prod.mk.inj heq
  exact ⟨hdisciplined, haccounts⟩

/-- What happens onward is told behind what happened before. -/
lemma Recounted.bind {out : Option (Except Failure α × World)}
    {told : Option ((Except Failure α × World) × List Happening)}
    {k : Except Failure α × World → Option (Except Failure β × World)}
    {k' : Except Failure α × World → Option ((Except Failure β × World) × List Happening)}
    (h : Recounted source frame w out told)
    (hk : ∀ out, Recounted source frame out.2 (k out) (k' out)) :
    Recounted source frame w (out.bind k) (told.bind (Recount.onward k')) := by
  obtain ⟨rfl, htold⟩ := h
  cases told with
  | none => exact ⟨rfl, by simp⟩
  | some told =>
      obtain ⟨⟨result, w'⟩, hs⟩ := told
      obtain ⟨hfirst, haccounts⟩ := htold result w' hs rfl
      obtain ⟨heq, hnext⟩ := hk (result, w')
      refine ⟨?_, fun result' w'' hs' hout => ?_⟩
      · rw [Option.bind_some, Recount.onward, Option.map_map, Option.map_some, Option.bind_some,
          ← heq]
        rfl
      · obtain ⟨⟨out', hs''⟩, hout', heq'⟩ := Option.map_eq_some_iff.mp hout
        obtain ⟨rfl, rfl⟩ := Prod.mk.inj heq'
        obtain ⟨hdisciplined, haccounts'⟩ := hnext _ _ _ hout'
        exact ⟨hfirst.append hdisciplined, haccounts.append haccounts'⟩

/-- An outcome changed, and what is told of it told anew. -/
lemma Recounted.retold {w₁ : World} {frame₁ : Option (Option String)}
    {out : Option (Except Failure α × World)}
    {told : Option ((Except Failure α × World) × List Happening)}
    {g : Except Failure α × World → Except Failure β × World}
    {k : List Happening → List Happening} (h : Recounted source frame₁ w₁ out told)
    (hk : ∀ out hs, Disciplined source frame₁ hs → Accounts w₁ out.2 hs →
      Disciplined source frame (k hs) ∧ Accounts w (g out).2 (k hs)) :
    Recounted source frame w (out.map g) (told.map fun out => (g out.1, k out.2)) := by
  obtain ⟨rfl, htold⟩ := h
  refine ⟨by rw [Option.map_map, Option.map_map]; rfl, fun result w' hs hout => ?_⟩
  obtain ⟨⟨out, hs⟩, htold', heq⟩ := Option.map_eq_some_iff.mp hout
  obtain ⟨hout', rfl⟩ := Prod.mk.inj heq
  obtain ⟨hdisciplined, haccounts⟩ := htold _ _ _ htold'
  have hnew := hk out hs hdisciplined haccounts
  rwa [hout'] at hnew

/-- What is done to an outcome at the end is done in the recount, too. -/
lemma Recounted.map {out : Option (Except Failure α × World)}
    {told : Option ((Except Failure α × World) × List Happening)}
    {g : Except Failure α × World → Except Failure β × World}
    (hg : ∀ out, (g out).2.trace = out.2.trace ∧ (g out).2.lookups = out.2.lookups)
    (h : Recounted source frame w out told) :
    Recounted source frame w (out.map g) (told.map fun out => (g out.1, out.2)) :=
  h.retold (k := id) fun out _ hdisciplined haccounts => ⟨hdisciplined,
    (hg out).1.trans haccounts.trace, haccounts.consulted, (hg out).2.trans haccounts.lookups⟩

/-- What has happened is told in another way. -/
lemma Recounted.within {w₁ : World} {frame₁ : Option (Option String)}
    {out : Option (Except Failure α × World)}
    {told : Option ((Except Failure α × World) × List Happening)}
    (h : Recounted source frame₁ w₁ out told) {k : List Happening → List Happening}
    (hk : ∀ w' hs, Disciplined source frame₁ hs → Accounts w₁ w' hs →
      Disciplined source frame (k hs) ∧ Accounts w w' (k hs)) :
    Recounted source frame w out (told.map fun out => (out.1, k out.2)) := by
  simpa using h.retold (g := id) fun out => hk out.2

/-- A computation that leaves the trace and the consultations as they are. -/
def Quiet (x : Run α) : Prop :=
  Run.Relates (fun w w' => w'.trace = w.trace ∧ w'.lookups = w.lookups) x

namespace Quiet

open Processor

lemma of_heap {x : Run α}
    (hx : ∀ w out, x.outcome w = some out → ∃ h, out.2 = { w with heap := h }) : Quiet x := by
  intro w out hout
  obtain ⟨h, hh⟩ := hx w out hout
  rw [hh]
  exact ⟨rfl, rfl⟩

lemma heap : Quiet Run.heap := of_heap fun w out hout => by
  obtain rfl := Option.some.inj hout
  exact ⟨w.heap, rfl⟩

lemma modifyHeap (f : Heap → Heap) : Quiet (Run.modifyHeap f) := of_heap fun w out hout => by
  obtain rfl := Option.some.inj hout
  exact ⟨f w.heap, rfl⟩

lemma plant (ts : List Tree) : Quiet (Run.plant ts) := of_heap fun w out hout => by
  obtain rfl := Option.some.inj hout
  exact ⟨(w.heap.plant (.document ts)).1, rfl⟩

lemma fragment (p : Processor) (tag markup : String) : Quiet (p.fragment tag markup) := by
  intro w out hout
  rw [outcome_fragment] at hout
  split at hout
  · obtain rfl := Option.some.inj hout
    exact ⟨rfl, rfl⟩
  · exact plant _ w out hout

lemma putReplacement (tag : String) (node : NodeId) (anchor : Option Position)
    (replacement : NodeId) : Quiet (putReplacement tag node anchor replacement) := by
  refine of_heap fun w out hout => ?_
  rw [outcome_putReplacement] at hout
  split at hout
  · obtain rfl := Option.some.inj hout
    exact ⟨w.heap, rfl⟩
  · split at hout
    · obtain rfl := Option.some.inj hout
      exact ⟨w.heap, rfl⟩
    · obtain rfl := Option.some.inj hout
      exact ⟨_, rfl⟩

lemma splice (p : Processor) (tag : String) (node : NodeId) (anchor : Option Position)
    (answer : Rendering) : Quiet (p.splice tag node anchor answer) := by
  cases answer with
  | keep => exact Run.Relates.pure (fun _ => ⟨rfl, rfl⟩) ()
  | markup s =>
      exact Run.Relates.bind (fun _ _ _ h h' => ⟨h'.1.trans h.1, h'.2.trans h.2⟩)
        (fragment p tag s) fun i => putReplacement tag node anchor i
  | tree i => exact putReplacement tag node anchor i

end Quiet

namespace Recounts

variable {x : Run α} {x' : Recount α}

/-- A computation of which there is nothing to tell. -/
lemma silent (hx : Quiet x) : Recounts source frame x (Recount.silent x) := by
  intro w
  rw [Recount.outcome_silent]
  refine ⟨by rw [Option.map_map]; exact Option.map_id' .., fun result w' hs hout => ?_⟩
  obtain ⟨out, hx', heq⟩ := Option.map_eq_some_iff.mp hout
  obtain ⟨rfl, rfl⟩ := Prod.mk.inj heq
  obtain ⟨htrace, hlookups⟩ := hx w _ hx'
  exact ⟨.nil frame, .nil htrace hlookups⟩

lemma pure (a : α) : Recounts source frame (pure a : Run α) (Pure.pure a) := fun _ =>
  .of_some (.nil frame) (.nil rfl rfl)

lemma throw (e : Failure) :
    Recounts source frame (throw e : Run α) (MonadExcept.throw e) := fun _ =>
  .of_some (.nil frame) (.nil rfl rfl)

/-- One computation after the other. -/
lemma bind {f : α → Run β} {f' : α → Recount β} (hx : Recounts source frame x x')
    (hf : ∀ a, Recounts source frame (f a) (f' a)) :
    Recounts source frame (x >>= f) (x' >>= f') := by
  intro w
  rw [Run.outcome_bind, Recount.outcome_bind]
  refine (hx w).bind fun ⟨result, w'⟩ => ?_
  cases result with
  | ok a => exact hf a w'
  | error e => exact throw (α := β) e w'

/-- The heap looked at. -/
lemma heap_bind {f : Heap → Run α} {f' : Heap → Recount α}
    (hf : ∀ h, Recounts source frame (f h) (f' h)) :
    Recounts source frame (Run.heap >>= f) (Recount.heap >>= f') :=
  bind (silent Quiet.heap) hf

/-- What happens while a handler runs is told as a part of that. -/
lemma ran (hx : Recounts source (some context) x x') (label : String) (node : NodeId)
    (tag : Option String) : Recounts source (some context)
      (Run.record (.rendered label node tag context) >>= fun _ => x)
      (Recount.within (.ran label node tag context) do
        Recount.silent (Run.record (.rendered label node tag context))
        x') := by
  intro w
  rw [Run.outcome_bind_ok (Run.outcome_record _ w), Recount.outcome_within,
    Recount.outcome_silent_bind (Run.outcome_record _ w)]
  exact (hx _).within fun w' hs hdisciplined haccounts =>
    ⟨.ran label node tag hdisciplined (.nil _), haccounts.ran⟩

/-- A note is told. -/
lemma noted (hx : Recounts source frame x x') (s : String) : Recounts source frame
      (Run.record (.noted s) >>= fun _ => x)
      (do
        Recount.silent (Run.record (.noted s))
        Recount.tell (.noted s)
        x') := by
  intro w
  rw [Run.outcome_bind_ok (Run.outcome_record _ w),
    Recount.outcome_silent_bind (Run.outcome_record _ w), Recount.outcome_tell_bind]
  exact (hx _).within fun w' hs hdisciplined haccounts =>
    ⟨.noted s hdisciplined, (Accounts.noted w s).append haccounts⟩

/-- A further level of nesting, or none. -/
lemma guarded (hx : Recounts source frame x x') (p : Processor) :
    Recounts source frame (p.guarded x) (p.recountGuarded x') := by
  intro w
  rcases p.allows_or_limit w with hallows | ⟨limit, hmax, hle⟩
  · rw [Processor.outcome_guarded x hallows, Processor.outcome_recountGuarded x' hallows]
    obtain ⟨heq, htold⟩ := hx { w with depth := w.depth + 1 }
    have hlevel : Recounted source frame w (x.outcome { w with depth := w.depth + 1 })
        (x'.outcome { w with depth := w.depth + 1 }) := ⟨heq, fun result w' hs hout =>
      have ⟨hdisciplined, haccounts⟩ := htold result w' hs hout
      ⟨hdisciplined, haccounts.trace, haccounts.consulted, haccounts.lookups⟩⟩
    exact hlevel.map fun _ => ⟨rfl, rfl⟩
  · rw [Processor.outcome_guarded_of_limit x hmax hle,
      Processor.outcome_recountGuarded_of_limit x' hmax hle]
    exact throw (.nestingTooDeep limit) w

end Recounts

namespace Processor

variable {p : Processor} {ask : Answerer} {ask' : Recounter}

/-- A way to answer requests and a way to recount that, for requests that fit the context in which
they are made. -/
def Tells (source : ℕ → Option String) (ask : Answerer) (ask' : Recounter) : Prop :=
  ∀ frame r, r.Fits frame → Recounts source frame (ask r) (ask' r)

/-! ### Handlers -/

/-- A program is recounted, by induction on its steps. -/
lemma recounts_run (hask : Tells source ask ask') {prog : Program α} (hprog : prog.Fits frame) :
    Recounts source frame (prog.run ask) (prog.recount ask') := by
  induction prog with
  | done a => exact Recounts.pure a
  | inspect next ih => exact Recounts.heap_bind fun h => ih h (hprog h)
  | change f next ih =>
      exact Recounts.bind (.silent (Quiet.modifyHeap f)) fun _ => ih hprog
  | note s next ih => exact (ih hprog).noted s
  | ask r next ih =>
      intro w
      rw [Run.outcome_run_ask, Program.recount, Recount.outcome_settled_bind]
      exact (hask frame r hprog.1 w).bind fun out => ih out.1 (hprog.2 out.1) out.2

lemma recounts_runHandler (hask : Tells source ask ask') {r : Registration}
    (hr : HandsOn r.handler) (node : NodeId) (context : Option String) :
    Recounts source (some context) (runHandler ask r node context)
      (recountHandler ask' r node context) := by
  rw [runHandler, recountHandler]
  refine Recounts.heap_bind fun h => Recounts.ran ?_ r.label node (h.tagName node)
  refine Recounts.bind (recounts_run hask (hr node context)) fun result => ?_
  cases result with
  | ok s => exact Recounts.pure s
  | error e => exact Recounts.throw e

/-! ### Passes -/

lemma recounts_replaceElement (hask : Tells source ask ask') {r : Registration}
    (hr : HandsOn r.handler) (tag : String) (node : NodeId) (context : Option String) :
    Recounts source (some context) (p.replaceElement ask r tag node context)
      (p.recountElement ask' r tag node context) := by
  rw [replaceElement_eq, recountElement]
  exact Recounts.heap_bind fun h => Recounts.bind (recounts_runHandler hask hr node context)
    fun answer => .silent (Quiet.splice p tag node _ answer)

lemma recounts_substituteEach (hask : Tells source ask ask') (context : Option String)
    (is : List NodeId) : Recounts source (some context) (substituteEach ask context is)
      (recountEach ask' context is) := by
  induction is with
  | nil => exact Recounts.pure _
  | cons i is ih => exact Recounts.bind (hask _ _ (Request.fits_of_context rfl)) fun _ => ih

lemma recounts_substituteBelow (hask : Tells source ask ask') (node : NodeId)
    (context : Option String) : Recounts source (some context) (substituteBelow ask node context)
      (recountBelow ask' node context) :=
  Recounts.heap_bind fun _ => recounts_substituteEach hask context _

lemma recounts_substituteAt (hp : p.registry.Every HandsOn) (hask : Tells source ask ask')
    (node : NodeId) (context : Option String) : Recounts source (some context)
      (p.substituteAt ask node context) (p.recountAt ask' node context) := by
  rw [substituteAt, recountAt]
  refine Recounts.heap_bind fun h => ?_
  cases hmatch : (h.tagName node).bind fun t => (p.registry.forTag? t).map fun r => (t, r) with
  | none => simpa only [hmatch] using recounts_substituteBelow hask node context
  | some matched =>
      obtain ⟨t, -, hmatched⟩ := Option.bind_eq_some_iff.mp hmatch
      obtain ⟨r, hr, rfl⟩ := Option.map_eq_some_iff.mp hmatched
      simpa only [hmatch] using recounts_replaceElement hask (hp.1 t r hr) t node context

lemma recounts_substituteMatches (hask : Tells source ask ask') {r : Registration}
    (hr : HandsOn r.handler) (root : NodeId) (context : Option String) (is : List NodeId) :
    Recounts source (some context) (p.substituteMatches ask r root context is)
      (p.recountMatches ask' r root context is) := by
  induction is with
  | nil => exact Recounts.pure _
  | cons i is ih =>
      rw [substituteMatches, recountMatches]
      refine Recounts.heap_bind fun h => ?_
      dsimp only
      split
      · exact Recounts.bind (recounts_replaceElement hask hr _ i context) fun _ => ih
      · exact ih

lemma recounts_substituteRegistered (hask : Tells source ask ask') (root : NodeId)
    (context : Option String) {rs : List Registration} (hrs : ∀ r ∈ rs, HandsOn r.handler) :
    Recounts source (some context) (p.substituteRegistered ask root context rs)
      (p.recountRegistered ask' root context rs) := by
  induction rs with
  | nil => exact Recounts.pure _
  | cons r rs ih =>
      obtain ⟨hr, hrs⟩ := List.forall_mem_cons.mp hrs
      exact Recounts.heap_bind fun h =>
        Recounts.bind (recounts_substituteMatches hask hr root context _) fun _ => ih hrs

/-! ### Services -/

/-- A call that the limit refuses. -/
lemma recounted_refused {x : Run α} {x' : Recount α} (hr : r.opensLevel = true) {limit : ℕ}
    (hmax : p.options.maxNestingDepth = some limit) (hle : limit ≤ w.depth) :
    Recounted source frame w ((p.guarded x).outcome w)
      (((p.recountGuarded x').outcome w).map fun out =>
        (out.1, [.called r (p.letsIn w r) out.2])) := by
  have hnot : p.letsIn w r = false := by
    rw [Bool.eq_false_iff, ne_eq, letsIn_iff, not_forall]
    exact ⟨hr, fun hallows => Nat.not_lt.mpr hle (hallows limit hmax)⟩
  rw [outcome_guarded_of_limit x hmax hle, outcome_recountGuarded_of_limit x' hmax hle, hnot]
  exact .of_some (.refused hr (.nil _)) ((Accounts.nil rfl rfl).called (Bool.and_false _))

/-- The context that the source gives. -/
lemma outcome_lookupContext_source (hsource : p.context = some source) (w : World) :
    p.lookupContext.outcome w
      = some (.ok (source (w.lookups + 1)), { w with lookups := w.lookups + 1 }) := by
  rw [lookupContext, hsource]
  rfl

/-- **A call that processes content** consults the source before anything else. -/
lemma recounted_content (hsource : p.context = some source) {f : Option String → Run α}
    {f' : Option String → Recount α}
    (hf : ∀ context, Recounts source (some context) (f context) (f' context))
    (hr : r.isContent = true) :
    Recounted source frame w ((p.guarded (p.lookupContext >>= f)).outcome w)
      (((p.recountGuarded (p.recountContext >>= f')).outcome w).map fun out =>
        (out.1, [.called r (p.letsIn w r) out.2])) := by
  rcases p.allows_or_limit w with hallows | ⟨limit, hmax, hle⟩
  · have hlet : p.letsIn w r = true := letsIn_iff.mpr fun _ => hallows
    set c := source (w.lookups + 1) with hc
    set w₁ : World := { w with depth := w.depth + 1, lookups := w.lookups + 1 } with hw₁
    have hcontent : Recounted source frame w ((f c).outcome w₁) (((f' c).outcome w₁).map fun out =>
        (out.1, [.called r true (.consulted (w.lookups + 1) c :: out.2)])) :=
      (hf c w₁).within fun w' hs hdisciplined haccounts => ⟨.content hr _ hdisciplined (.nil _),
        .content hr c ⟨haccounts.trace, haccounts.consulted, haccounts.lookups⟩⟩
    rw [outcome_guarded _ hallows, outcome_recountGuarded _ hallows, hlet,
      Run.outcome_bind_ok (outcome_lookupContext_source hsource _), Recount.outcome_bind,
      outcome_recountContext hsource]
    have hleft := hcontent.map (g := fun out => (out.1, { out.2 with depth := out.2.depth - 1 }))
      fun _ => ⟨rfl, rfl⟩
    simpa [Recount.onward, Option.map_map, Function.comp_def] using hleft
  · have hopens : r.opensLevel = true := by
      cases r <;> first | rfl | simp [Request.isContent] at hr
    exact recounted_refused hopens hmax hle

/-- Substitution in content, told as a call. -/
lemma recounted_substitute (hsource : p.context = some source) (hp : p.registry.Every HandsOn)
    (hask : Tells source ask ask') (content : String) (hr : r.isContent = true) :
    Recounted source frame w ((p.substitute ask content).outcome w)
      (((p.recountSubstitute ask' content).outcome w).map fun out =>
        (out.1, [.called r (p.letsIn w r) out.2])) := by
  refine recounted_content hsource (fun context => ?_) hr
  refine Recounts.bind (.silent (Quiet.plant _)) fun root => ?_
  refine Recounts.bind (recounts_substituteAt hp hask root context) fun _ => ?_
  refine Recounts.bind (recounts_substituteRegistered hask root context hp.2) fun _ => ?_
  exact Recounts.heap_bind fun h => Recounts.pure _

/-- What is done to the result of a call is not told. -/
lemma recounted_bind_pure {x : Run α} {x' : Recount α} {whole : List Happening → Happening}
    (h : Recounted source frame w (x.outcome w)
      ((x'.outcome w).map fun out => (out.1, [whole out.2]))) (g : α → β) :
    Recounted source frame w ((x >>= fun a => pure (g a)).outcome w)
      (((x' >>= fun a => pure (g a)).outcome w).map fun out => (out.1, [whole out.2])) := by
  have hmapped := h.map (g := fun out => (out.1.map g, out.2)) fun _ => ⟨rfl, rfl⟩
  rw [Run.outcome_bind_pure, Recount.outcome_bind_pure]
  simpa [Option.map_map, Function.comp_def] using hmapped

/-- A computation of which there is nothing to tell but the call. -/
lemma recounted_fragment (tag markup : String) :
    Recounted source frame w ((p.fragment tag markup).outcome w)
      (((Recount.silent (p.fragment tag markup)).outcome w).map fun out =>
        (out.1, [.called (.fragment markup) true out.2])) := by
  rw [Recount.outcome_silent, Option.map_map]
  refine ⟨by rw [Option.map_map]; exact Option.map_id' .., fun result w' hs hout => ?_⟩
  obtain ⟨out, hout', heq⟩ := Option.map_eq_some_iff.mp hout
  obtain ⟨rfl, rfl⟩ := Prod.mk.inj heq
  obtain ⟨htrace, hlookups⟩ := Quiet.fragment p tag markup w _ hout'
  exact ⟨.fragment markup (.nil _), (Accounts.nil htrace hlookups).called rfl⟩

/-- A call that works on nodes in a context, told as a whole. -/
lemma recounted_nodes {x : Run α} {x' : Recount α} (hr : context ∈ r.context?)
    (hfits : r.Fits frame) (hx : Recounts source (some context) x x') :
    Recounted source frame w (x.outcome w)
      ((x'.outcome w).map fun out => (out.1, [.called r true out.2])) := by
  have hcontent : r.isContent = false := by
    cases r <;> first | rfl | simp [Request.context?] at hr
  exact (hx w).within fun w' hs hdisciplined haccounts =>
    ⟨.nodes hr (fun c hc => hfits c hc context hr) hdisciplined (.nil _),
      haccounts.called (by rw [hcontent, Bool.false_and])⟩

/-- **One level of requests** is recounted if requests made meanwhile are. -/
lemma tells_serve (hsource : p.context = some source) (hp : p.registry.Every HandsOn)
    (hask : Tells source ask ask') : Tells source (p.serve ask) (p.recountServe ask') := by
  intro frame r hr w
  rw [outcome_recountServe]
  cases r with
  | parse content =>
      exact recounted_bind_pure (recounted_substitute hsource hp hask content rfl) p.shortcodes
  | substitute content => exact recounted_substitute hsource hp hask content rfl
  | fragment markup => exact recounted_fragment "#fragment" markup
  | substituteBelow node context =>
      have hbelow := recounts_substituteBelow hask node context
      rcases p.allows_or_limit w with hallows | ⟨limit, hmax, hle⟩
      · rw [letsIn_iff.mpr fun _ => hallows]
        exact recounted_nodes (by rfl) hr (hbelow.guarded p)
      · exact recounted_refused rfl hmax hle
  | substituteAt node context =>
      exact recounted_nodes (by rfl) hr (recounts_substituteAt hp hask node context)
  | substituteClassed node context =>
      exact recounted_nodes (by rfl) hr (recounts_substituteRegistered hask node context hp.2)

/-- All levels, by induction on their number. -/
lemma tells_answer (hsource : p.context = some source) (hp : p.registry.Every HandsOn) (n : ℕ) :
    Tells source (p.answer n) (p.recountAnswer n) := by
  induction n with
  | zero =>
      refine fun frame r _ w => ⟨rfl, fun result w' hs hout => ?_⟩
      simp [recountAnswer, Recount.outcome] at hout
  | succ n ih => exact tells_serve hsource hp ih

/-- **The discipline of contexts.** Whatever a program calls from outside, in any order, the run of
a processor with a context source can be recounted. The recount has the same outcome in every state,
with an error or without; it tells the handlers and notes of the trace, and one consultation for
each time content is let in, numbered on from those before; and in it each handler is handed
what the source gave to the call that it is run for. -/
theorem recounts_calls (hsource : p.context = some source) (hp : p.registry.Every HandsOn)
    (calls : Program α) (n : ℕ) :
    Recounts source none (calls.run (p.answer n)) (calls.recount (p.recountAnswer n)) :=
  recounts_run (tells_answer hsource hp n) calls.fits_none

/-- Scripts that parse further content and then substitute below their elements, with a source that
counts. -/
theorem recounts_calls_scripts :
    let setup : Setup :=
      { context := .counting "c"
        handlers :=
          [⟨.tagName, "x-a", "a",
            [.assign (.parse (.literal "<x-b></x-b>")) "t", .substituteBelow "node"]⟩,
          ⟨.className, "c", "b", [.substituteClassed "node", .log (.context "")]⟩] }
    let source : ℕ → Option String := fun n => some ("c" ++ toString n)
    let calls : Program (Except Failure String) :=
      .ask (.parse "<x-a><x-b></x-b></x-a>") fun _ => .ask (.substitute "<p class=\"c\">") .done
    setup.processor.context = some source ∧ setup.processor.registry.Every HandsOn
      ∧ Recounts source none (calls.run (setup.processor.answer 9))
        (calls.recount (setup.processor.recountAnswer 9)) := by
  intro setup source calls
  have hsource : setup.processor.context = some source := rfl
  have hscripts := setup.every handsOn_handlerOf
  exact ⟨hsource, hscripts, recounts_calls hsource hscripts calls 9⟩

end Processor

end RichText
