import Mathlib.Data.List.DropRight
import RichText.Proofs.Substitution.LetterCase
import RichText.Session.Calls

/-!
Registries and their histories.

A registry comes about by registrations, by removing all of them at once, and by copying another
registry. It keeps a list and a map side by side. Both tell of the registrations since the last
removal: the list of all in order, the map of the last one of each tag. A processor consults less
than that, namely the last handler of each tag and the registrations by class.

* `Registry.registries`, `Registry.histories`: several registries that are created, changed and
  copied, and the changes that each of them has been through;
* `Registry.sinceClear`: the registrations since the last removal;
* `Registry.registries_eq_map`: each registry is made by its own history;
* `Registry.shows_ofChanges`: what a registry shows of its history, by induction on the changes;
* `Registry.forall₂_shows`: **every registry shows its history**;
* `Processor.serve_eq_of_registry`: what a processor consults of its registry;
* `Processor.answer_eq_of_agree`: **histories that agree** on the last handlers of tags and on the
  registrations by class are not told apart.
-/

namespace RichText

/-- A registration as it is kept: a tag in lower case, a class as it is. -/
def Registration.kept (x : Registration) : Registration :=
  match x.kind with
  | .tagName => { x with value := x.value.toLower }
  | .className => x

lemma Registration.kind_kept (x : Registration) : x.kept.kind = x.kind := by
  obtain ⟨kind, value, label, handler⟩ := x
  cases kind <;> rfl

namespace Registry

/-! ### Changes -/

/-- A change to a registry: a handler registered, under a name as it is given, or everything
removed. -/
inductive Change where
  | register (x : Registration)
  | clear

/-- The registry after a change. -/
def change (r : Registry) : Change → Registry
  | .register x => r.register x.kind x.value x.label x.handler
  | .clear => {}

/-- The registry that changes lead to. -/
def ofChanges (cs : List Change) : Registry :=
  cs.foldl change {}

/-- The registration that a change makes. -/
def Change.registration? : Change → Option Registration
  | .register x => some x
  | .clear => none

/-- The registrations since the last removal in order, with their names as they were given. -/
def sinceClear (cs : List Change) : List Registration :=
  (cs.rtakeWhile (·.registration?.isSome)).filterMap Change.registration?

lemma sinceClear_register (cs : List Change) (x : Registration) :
    sinceClear (cs ++ [.register x]) = sinceClear cs ++ [x] := by
  rw [sinceClear, List.rtakeWhile_concat_pos _ _ _ rfl, List.filterMap_append, ← sinceClear]
  rfl

lemma sinceClear_clear (cs : List Change) : sinceClear (cs ++ [.clear]) = [] := by
  rw [sinceClear, List.rtakeWhile_concat_neg _ _ _ (by simp [Change.registration?])]
  rfl

lemma ofChanges_append (cs : List Change) (c : Change) :
    ofChanges (cs ++ [c]) = (ofChanges cs).change c := by
  rw [ofChanges, List.foldl_append, List.foldl_cons, List.foldl_nil, ← ofChanges]

lemma built_ofChanges (cs : List Change) : (ofChanges cs).Built := by
  induction cs using List.reverseRecOn with
  | nil => exact .empty
  | append_singleton cs c ih =>
      rw [ofChanges_append]
      cases c with
      | register x => exact .register x.kind x.value x.label x.handler ih
      | clear => exact .empty

/-! ### What is shown -/

/-- The last registration for a tag that is written in lower case like `key`. -/
def lastOfTag? (xs : List Registration) (key : String) : Option Registration :=
  xs.reverse.find? fun x => x.kind = .tagName ∧ x.value.toLower = key

/-- What a registry shows if `xs` are its registrations, with their names as they were given. -/
structure Shows (r : Registry) (xs : List Registration) : Prop where
  toList : r.toList = xs.map Registration.kept
  size : r.size = xs.length
  isEmpty : r.isEmpty = xs.isEmpty
  forTag : ∀ key, r.forTag? key = (lastOfTag? xs key).map Registration.kept
  capital : ∀ key, (∃ c ∈ key.toList, c.isUpper = true) → r.forTag? key = none
  classes : r.classes = xs.filter (·.kind = .className)

lemma toList_change_register (r : Registry) (x : Registration) :
    (r.change (.register x)).toList = r.toList ++ [x.kept] := by
  obtain ⟨kind, value, label, handler⟩ := x
  cases kind <;> rfl

/-- The list holds the registrations since the last removal. -/
lemma toList_ofChanges (cs : List Change) :
    (ofChanges cs).toList = (sinceClear cs).map Registration.kept := by
  induction cs using List.reverseRecOn with
  | nil => rfl
  | append_singleton cs c ih =>
      rw [ofChanges_append]
      cases c with
      | register x => rw [toList_change_register, ih, sinceClear_register, List.map_append]; rfl
      | clear => rw [sinceClear_clear]; rfl

/-- The name of a registration by tag is kept in lower case. -/
lemma kept_of_lastOfTag? {xs : List Registration} {key : String} {x : Registration}
    (hx : lastOfTag? xs key = some x) : x.kept = ⟨.tagName, key, x.label, x.handler⟩ := by
  obtain ⟨hkind, hvalue⟩ : x.kind = .tagName ∧ x.value.toLower = key := by
    simpa using List.find?_some hx
  rw [Registration.kept, hkind, hvalue]

/-- Names in lower case are the only ones under which something is found. -/
lemma lastOfTag?_eq_none {key : String} (hkey : key.toLower ≠ key) (xs : List Registration) :
    lastOfTag? xs key = none := by
  refine List.find?_eq_none.mpr fun x _ hx => hkey ?_
  obtain ⟨-, hvalue⟩ := of_decide_eq_true hx
  rw [← hvalue, toLower_toLower_name]

/-- The map holds the last registration of each tag. -/
lemma forTag?_ofChanges (cs : List Change) (key : String) :
    (ofChanges cs).forTag? key = (lastOfTag? (sinceClear cs) key).map Registration.kept := by
  rw [(built_ofChanges cs).forTag?_eq]
  split
  · next hkey =>
      rw [latest?, toList_ofChanges, hkey, ← List.map_reverse, List.find?_map, lastOfTag?]
      congr 2
      funext x
      obtain ⟨kind, value, label, handler⟩ := x
      cases kind <;> rfl
  · next hkey => rw [lastOfTag?_eq_none hkey]; rfl

lemma toLower_ne_of_isUpper {c : Char} (hc : c.isUpper = true) : c.toLower ≠ c := by
  delta Char.isUpper at hc
  delta Char.toLower
  rw [dif_pos (of_decide_eq_true hc)]
  intro hsame
  have hval := congrArg (fun c : Char => c.val.toNat) hsame
  simp [UInt32.toNat_add] at hval
  omega

/-- A name with a capital letter is not in lower case. -/
lemma toLower_ne_of_mem {key : String} {c : Char} (hc : c ∈ key.toList)
    (hupper : c.isUpper = true) :
    key.toLower ≠ key := by
  intro hkey
  have hmap : key.toList.map Char.toLower = key.toList.map id := by
    rw [← toList_toLower, hkey, List.map_id]
  exact toLower_ne_of_isUpper hupper (List.map_inj_left.mp hmap c hc)

/-- **What a registry shows** are the registrations since the last removal. -/
lemma shows_ofChanges (cs : List Change) : (ofChanges cs).Shows (sinceClear cs) where
  toList := toList_ofChanges cs
  size := by
    have hlist := congrArg List.length (toList_ofChanges cs)
    rwa [List.length_map] at hlist
  isEmpty := by
    have hlist := congrArg List.isEmpty (toList_ofChanges cs)
    rwa [List.isEmpty_map] at hlist
  forTag := forTag?_ofChanges cs
  capital key := by
    rintro ⟨c, hc, hupper⟩
    rw [forTag?_ofChanges, lastOfTag?_eq_none (toLower_ne_of_mem hc hupper)]
    rfl
  classes :=
    calc (ofChanges cs).classes
        = ((sinceClear cs).map Registration.kept).filter (·.kind = .className) := by
          rw [← toList_ofChanges]
          rfl
      _ = ((sinceClear cs).filter (·.kind = .className)).map Registration.kept := by
          rw [List.filter_map]
          congr 2
          funext x
          rw [Function.comp_apply, Registration.kind_kept]
      _ = (sinceClear cs).filter (·.kind = .className) := by
          refine (List.map_congr_left fun x hx => ?_).trans (List.map_id _)
          rw [Registration.kept, of_decide_eq_true (List.mem_filter.mp hx).2]
          rfl

/-! ### Several registries -/

/-- What can be done with several registries: one more is created, one is copied, or one is
changed. They are counted in the order in which they have come about. -/
inductive Action where
  | create
  | copy (i : ℕ)
  | change (i : ℕ) (c : Change)

/-- What an action does to several things that can be changed. -/
def Action.act {α : Type} (new : α) (f : α → Change → α) (as : List α) : Action → List α
  | .create => as ++ [new]
  | .copy i => as ++ as[i]?.toList
  | .change i c => as.modify i (f · c)

/-- The registries that actions lead to. -/
def registries (actions : List Action) : List Registry :=
  actions.foldl (Action.act {} Registry.change) []

/-- The changes that each of these registries has been through, those to a registry before it was
copied included. -/
def histories (actions : List Action) : List (List Change) :=
  actions.foldl (Action.act [] fun cs c => cs ++ [c]) []

/-- An action on registries that histories have led to. -/
lemma act_map_ofChanges (hs : List (List Change)) (a : Action) :
    a.act {} Registry.change (hs.map ofChanges)
      = (a.act [] (fun cs c => cs ++ [c]) hs).map ofChanges := by
  cases a with
  | create => simp [Action.act, ofChanges]
  | copy i => simp [Action.act, Option.toList_map]
  | change i c =>
      refine List.ext_getElem? fun j => ?_
      rw [Action.act, Action.act, List.getElem?_modify, List.getElem?_map, List.getElem?_map,
        List.getElem?_modify]
      cases hs[j]? with
      | none => rfl
      | some cs =>
          by_cases hij : i = j
          · simp [hij, ofChanges_append]
          · simp [hij]

/-- **Each registry is made by its own history**, whatever has become of its copies. -/
lemma registries_eq_map (actions : List Action) :
    registries actions = (histories actions).map ofChanges := by
  rw [registries, histories, ← List.foldl_hom (List.map ofChanges) act_map_ofChanges, List.map_nil]

/-- **Every registry shows its history**: of registries that have been created, copied and changed
in any order, each tells of the registrations since its own last removal, in the list of all, in
their number, in the last handler of each tag and in the registrations by class. -/
theorem forall₂_shows (actions : List Action) :
    List.Forall₂ (fun r cs => r.Shows (sinceClear cs)) (registries actions)
      (histories actions) := by
  rw [registries_eq_map, List.forall₂_map_left_iff]
  exact List.forall₂_same.mpr fun cs _ => shows_ofChanges cs

/-! ### Histories that agree -/

/-- Registrations that agree: the last handler of every tag, in any letter case, is the same, and
so are the registrations by class, in order. -/
structure HistoriesAgree (xs xs' : List Registration) : Prop where
  tags : ∀ key, (lastOfTag? xs key).map (fun x => (x.label, x.handler))
    = (lastOfTag? xs' key).map fun x => (x.label, x.handler)
  classes : xs.filter (·.kind = .className) = xs'.filter (·.kind = .className)

lemma Shows.forTag?_eq_map {r : Registry} {xs : List Registration} (hr : r.Shows xs)
    (key : String) : r.forTag? key = ((lastOfTag? xs key).map fun x => (x.label, x.handler)).map
      fun y => ⟨.tagName, key, y.1, y.2⟩ := by
  rw [hr.forTag, Option.map_map]
  cases hx : lastOfTag? xs key with
  | none => rfl
  | some x => exact congrArg some (kept_of_lastOfTag? hx)

/-- Registries of histories that agree are consulted alike. -/
lemma HistoriesAgree.forTag?_eq {r r' : Registry} {xs xs' : List Registration}
    (hxs : HistoriesAgree xs xs') (hr : r.Shows xs) (hr' : r'.Shows xs') :
    r.forTag? = r'.forTag? := by
  funext key
  rw [hr.forTag?_eq_map, hr'.forTag?_eq_map, hxs.tags]

lemma HistoriesAgree.classes_eq {r r' : Registry} {xs xs' : List Registration}
    (hxs : HistoriesAgree xs xs') (hr : r.Shows xs) (hr' : r'.Shows xs') :
    r.classes = r'.classes := by
  rw [hr.classes, hr'.classes, hxs.classes]

end Registry

/-! ### What a processor consults -/

namespace Processor

variable {p : Processor} {r r' : Registry}

lemma substituteMatches_registry (p : Processor) (r : Registry) (ask : Answerer) (x : Registration)
    (root : NodeId) (context : Option String) (is : List NodeId) :
    ({ p with registry := r } : Processor).substituteMatches ask x root context is
      = p.substituteMatches ask x root context is := by
  induction is with
  | nil => rfl
  | cons i is ih =>
      rw [substituteMatches, substituteMatches, ih]
      rfl

lemma substituteRegistered_registry (p : Processor) (r : Registry) (ask : Answerer) (root : NodeId)
    (context : Option String) (xs : List Registration) :
    ({ p with registry := r } : Processor).substituteRegistered ask root context xs
      = p.substituteRegistered ask root context xs := by
  induction xs with
  | nil => rfl
  | cons x xs ih =>
      rw [substituteRegistered, substituteRegistered, ih]
      simp only [substituteMatches_registry]

/-- **What a processor consults** of its registry is what is found for tags, and the registrations
by class. -/
lemma serve_eq_of_registry (htags : p.registry.forTag? = r.forTag?)
    (hclasses : p.registry.classes = r.classes) (ask : Answerer) :
    ({ p with registry := r } : Processor).serve ask = p.serve ask := by
  have hat : ∀ node context, ({ p with registry := r } : Processor).substituteAt ask node context
      = p.substituteAt ask node context := by
    intro node context
    rw [substituteAt, substituteAt, htags]
    rfl
  have hclassed : ∀ root context,
      ({ p with registry := r } : Processor).substituteClassed ask root context
        = p.substituteClassed ask root context := by
    intro root context
    rw [substituteClassed, substituteClassed, substituteRegistered_registry, hclasses]
  have hsubstitute : ∀ content, ({ p with registry := r } : Processor).substitute ask content
      = p.substitute ask content := by
    intro content
    rw [substitute, substitute, htags]
    simp only [hat, hclassed]
    rfl
  funext request
  cases request with
  | parse content => rw [serve, serve, hsubstitute]
  | substitute content => exact hsubstitute content
  | fragment markup => rfl
  | substituteBelow node context => rfl
  | substituteAt node context => exact hat node context
  | substituteClassed node context => exact hclassed node context

/-- Processors whose registries are consulted alike answer alike, by induction on the depth of
requests. -/
lemma answer_eq_of_registry (htags : p.registry.forTag? = r.forTag?)
    (hclasses : p.registry.classes = r.classes) (n : ℕ) :
    ({ p with registry := r } : Processor).answer n = p.answer n := by
  induction n with
  | zero => rfl
  | succ n ih =>
      funext request
      rw [answer, answer, ih, serve_eq_of_registry htags hclasses]

end Processor

/-! ### Sequences of calls -/

/-- Whether a call processes content. -/
def Call.isContent : Call → Bool
  | .parse _ | .substitute _ => true
  | _ => false

namespace Seat

variable {α : Type} {p : Processor}

/-- What lasts of a computation is the number of consultations. -/
lemma perform_processor (s : Seat) (x : Run α) (toValue : World → α → Value) :
    (s.perform x toValue).2 = { s with lookups := (s.perform x toValue).2.lookups } := by
  rw [perform]
  cases x.outcome { lookups := s.lookups } <;> rfl

lemma perform_with (s : Seat) (x : Run α) (toValue : World → α → Value) :
    ({ s with processor := p } : Seat).perform x toValue
      = ((s.perform x toValue).1, { (s.perform x toValue).2 with processor := p }) := by
  rw [perform, perform]
  cases x.outcome { lookups := s.lookups } <;> rfl

lemma call_processor {s : Seat} {c : Call} (hc : c.isContent = true) :
    (s.call c).2 = { s with lookups := (s.call c).2.lookups } := by
  cases c with
  | parse content => exact perform_processor s _ _
  | substitute content => exact perform_processor s _ _
  | _ => exact absurd hc Bool.false_ne_true

/-- A processor that answers alike takes the place of another one. -/
lemma call_with {s : Seat} {c : Call} (hc : c.isContent = true)
    (hanswer : p.answer requestDepth = s.processor.answer requestDepth) :
    ({ s with processor := p } : Seat).call c
      = ((s.call c).1, { (s.call c).2 with processor := p }) := by
  cases c with
  | parse content =>
      rw [call, request, hanswer]
      exact perform_with s _ _
  | substitute content =>
      rw [call, request, hanswer]
      exact perform_with s _ _
  | _ => exact absurd hc Bool.false_ne_true

end Seat

namespace Session

lemma call_singleton (s : Seat) {c : Call} (hc : c.isContent = true) :
    (⟨[s]⟩ : Session).call 0 c = ((s.call c).1, ⟨[(s.call c).2]⟩) := by
  cases c with
  | parse content => rfl
  | substitute content => rfl
  | _ => exact absurd hc Bool.false_ne_true

/-- Processors that answer alike give the same answers in a sequence of calls. -/
lemma callAll_eq {p p' : Processor}
    (hanswer : p'.answer Seat.requestDepth = p.answer Seat.requestDepth) {cs : List Call}
    (hcs : ∀ c ∈ cs, c.isContent = true) (k : ℕ) :
    (⟨[⟨p', k⟩]⟩ : Session).callAll (cs.map (0, ·))
      = (⟨[⟨p, k⟩]⟩ : Session).callAll (cs.map (0, ·)) := by
  induction cs generalizing k with
  | nil => rfl
  | cons c cs ih =>
      obtain ⟨hc, hcs⟩ := List.forall_mem_cons.mp hcs
      have hcall := Seat.call_with (s := ⟨p, k⟩) hc hanswer
      rw [List.map_cons, callAll, callAll, call_singleton _ hc, call_singleton _ hc, hcall]
      dsimp only
      rw [Seat.call_processor hc]
      exact congrArg _ (ih hcs _)

end Session

namespace Processor

open Registry

/-- **Registries show their histories, and processors tell no more of them apart** than the last
handler of each tag and the registrations by class. Of registries that have been created, copied
and changed in any order, each shows the registrations since its last removal. Two of them whose
registrations agree are the same to a processor: every request has the same outcome with both, in
every state, and every sequence of calls that process content has the same answers, with the same
handlers run on the same elements. -/
theorem answer_eq_of_agree (actions : List Action) :
    List.Forall₂ (fun r cs => r.Shows (sinceClear cs)) (registries actions) (histories actions)
      ∧ ∀ {r r' : Registry} {cs cs' : List Change},
        (r, cs) ∈ (registries actions).zip (histories actions) →
        (r', cs') ∈ (registries actions).zip (histories actions) →
        HistoriesAgree (sinceClear cs) (sinceClear cs') → ∀ p : Processor,
          (∀ n, ({ p with registry := r' } : Processor).answer n
              = ({ p with registry := r } : Processor).answer n)
            ∧ ∀ calls : List Call, (∀ c ∈ calls, c.isContent = true) → ∀ lookups,
              (⟨[⟨{ p with registry := r' }, lookups⟩]⟩ : Session).callAll (calls.map (0, ·))
                = (⟨[⟨{ p with registry := r }, lookups⟩]⟩ : Session).callAll
                  (calls.map (0, ·)) := by
  have hshows := forall₂_shows actions
  refine ⟨hshows, fun {r r' cs cs'} hr hr' hagree p => ?_⟩
  have hanswer : ∀ n, ({ p with registry := r' } : Processor).answer n
      = ({ p with registry := r } : Processor).answer n :=
    answer_eq_of_registry (p := { p with registry := r })
      (hagree.forTag?_eq (List.forall₂_zip hshows hr) (List.forall₂_zip hshows hr'))
      (hagree.classes_eq (List.forall₂_zip hshows hr) (List.forall₂_zip hshows hr'))
  exact ⟨hanswer, fun calls hcalls lookups => Session.callAll_eq (hanswer _) hcalls lookups⟩

/-- A registry in which the handler of a tag is overridden, and a copy of it that is made before
and filled anew in another order and another letter case. -/
theorem answer_eq_of_agree_overridden :
    let a : Registration := ⟨.tagName, "X-A", "a", fun _ _ => .done (.ok .keep)⟩
    let b : Registration := ⟨.tagName, "x-a", "b", fun _ _ => .done (.ok (.markup "b"))⟩
    let note : Registration := ⟨.className, "Note", "n", fun _ _ => .done (.ok .keep)⟩
    let actions : List Action := [.create, .change 0 (.register a), .copy 0,
      .change 0 (.register note), .change 0 (.register b), .change 1 .clear,
      .change 1 (.register { b with value := "X-a" }), .change 1 (.register note)]
    let calls : List Call := [.parse "<x-a/><p class=\"Note\">x</p>", .substitute "<X-A>"]
    ∃ r r', registries actions = [r, r'] ∧ r.size = 3 ∧ r'.size = 2
      ∧ (r.toList.map (·.value)) = ["x-a", "Note", "x-a"]
      ∧ (⟨[⟨{ registry := r' }, 0⟩]⟩ : Session).callAll (calls.map (0, ·))
        = (⟨[⟨{ registry := r }, 0⟩]⟩ : Session).callAll (calls.map (0, ·)) := by
  intro a b note actions calls
  let cs : List Change := [.register a, .register note, .register b]
  let cs' : List Change :=
    [.register a, .clear, .register { b with value := "X-a" }, .register note]
  have hhistories : histories actions = [cs, cs'] := rfl
  have hregistries : registries actions = [ofChanges cs, ofChanges cs'] := by
    rw [registries_eq_map, hhistories]
    rfl
  have hzip : (registries actions).zip (histories actions)
      = [(ofChanges cs, cs), (ofChanges cs', cs')] := by
    rw [hregistries, hhistories]
    rfl
  have hlower : "X-A".toLower = "x-a" ∧ "X-a".toLower = "x-a" ∧ "x-a".toLower = "x-a" := by
    decide +kernel
  have hagree : HistoriesAgree (sinceClear cs) (sinceClear cs') := by
    show HistoriesAgree [a, note, b] [{ b with value := "X-a" }, note]
    refine ⟨fun key => ?_, rfl⟩
    rcases eq_or_ne "x-a" key with rfl | hkey
    · simp [lastOfTag?, a, b, note, hlower]
    · simp [lastOfTag?, a, b, note, hlower, hkey]
  obtain ⟨hshows, hsame⟩ := answer_eq_of_agree actions
  obtain ⟨-, hcalls⟩ := hsame (hzip ▸ List.mem_cons_self)
    (hzip ▸ List.mem_cons_of_mem _ List.mem_cons_self) hagree {}
  rw [hregistries, hhistories, List.forall₂_cons, List.forall₂_cons] at hshows
  refine ⟨_, _, hregistries, hshows.1.size, hshows.2.1.size, ?_, hcalls calls (by decide) 0⟩
  rw [hshows.1.toList]
  show [a.value.toLower, note.value, b.value.toLower] = _
  simp [a, b, note, hlower]

end Processor

end RichText
