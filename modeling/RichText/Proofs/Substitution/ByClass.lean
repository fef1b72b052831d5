import RichText.Proofs.Substitution.Local

/-!
Substitution by class with local handlers.

For each registration the pass collects the elements of its class first, in document order, and
then goes through that list, in which elements are left out that are no longer attached. This does
what rewriting plain trees from outside does: a matching element that is replaced takes the
matches inside of it out of the document, and one that stays leaves them to be met next.

* `Tree.hasClass`, `Tree.offered`: the trees that a handler is run on;
* `Processor.exchanging`, `Processor.swept`: what comes of a tree for one registration, and of
  trees for several in order, up to the first failure;
* `Processor.Matched`: a handler has been run on a matching element that was attached;
* `Processor.sweeps_at`, `Processor.sweeps_each`: one registration, by induction on the trees;
* `Processor.substituteClassed_eq_swept`: all registrations.
-/

namespace RichText

open Layout (idsAll marked markedAll)
open RichText.Tree (rewrite rewriteAll substituted)

/-! ### Plain trees -/

namespace Tree

/-- Whether a tree is an element whose class is exactly `value`. -/
def hasClass (value : String) : Tree → Bool
  | element e _ => e.get? "class" = some value
  | template as _ _ => (templateElement as).get? "class" = some value
  | _ => false

section Offered

variable (mark : Tree → Bool) (render : Tree → Option (Except Failure (List Tree)))

mutual

/-- The marked trees that are met from outside, if those for which `render` has something are not
entered. -/
def offered : Tree → List Tree
  | t@(element _ cs) =>
      (if mark t then [t] else []) ++ if (render t).isNone then offeredAll cs else []
  | t@(template _ cs _) =>
      (if mark t then [t] else []) ++ if (render t).isNone then offeredAll cs else []
  | t@(document cs) =>
      (if mark t then [t] else []) ++ if (render t).isNone then offeredAll cs else []
  | t => if mark t then [t] else []

/-- The marked trees that are met in several trees. -/
def offeredAll : List Tree → List Tree
  | [] => []
  | t :: ts => offered t ++ offeredAll ts

end

lemma offered_eq (t : Tree) :
    offered mark render t
      = (if mark t then [t] else [])
        ++ if (render t).isNone then offeredAll mark render t.children else [] := by
  cases t <;> simp [offered, children, offeredAll]

end Offered

end Tree

namespace Heap

variable {h : Heap}

/-- The class of a tree is that of its root. -/
lemma hasClass_read (value : String) {s : Layout} (hs : h.Carries s) :
    (h.read s).hasClass value = h.hasClass s.id value := by
  cases s with
  | node i cs =>
      cases hc : h.content i <;>
        simp [read, Layout.id, hasClass, attribute?, element?, hc, Tree.hasClass]
  | template i cs inner us =>
      obtain ⟨-, -, ⟨as, has⟩, -⟩ := hs
      have hsame : templateElement (templateElement as).attributes = templateElement as := rfl
      simp [read, Layout.id, hasClass, attribute?, element?, has, Tree.hasClass, hsame]

lemma hasClass_congr {h' : Heap} {i : NodeId} (value : String) (hi : h'.content i = h.content i) :
    h'.hasClass i value = h.hasClass i value := by
  rw [hasClass, hasClass, attribute?, attribute?, element?, element?, hi]

/-- A node with a class is an element. -/
lemma exists_tagName_of_hasClass {i : NodeId} {value : String} (hi : h.hasClass i value = true) :
    ∃ tag, h.tagName i = some tag := by
  rw [hasClass, attribute?, decide_eq_true_eq, Option.bind_eq_some_iff] at hi
  obtain ⟨e, he, -⟩ := hi
  exact ⟨e.name, by rw [tagName, he, Option.map_some]⟩

end Heap

namespace Processor

open Heap Run

variable {p : Processor} {context : Option String}

/-- What comes of a tree for one registration by class: nothing, if it does not match or is to
stay. -/
def exchanging (p : Processor) (verdict : Tree → Option String → Verdict) (context : Option String)
    (value : String) (t : Tree) : Option (Except Failure (List Tree)) :=
  if t.hasClass value then
    match verdict t context with
    | .keep => none
    | answer => some (p.replacement (t.name?.getD "") t answer)
  else none

lemma exchanging_of_keep {verdict : Tree → Option String → Verdict} {value : String} {t : Tree}
    (hkeep : verdict t context = .keep) : p.exchanging verdict context value t = none := by
  rw [exchanging, hkeep]
  split <;> rfl

lemma exchanging_of_ne_keep {verdict : Tree → Option String → Verdict} {value tag : String}
    {t : Tree} (ht : t.hasClass value = true) (htag : t.name? = some tag)
    (hne : verdict t context ≠ .keep) :
    p.exchanging verdict context value t = some (p.replacement tag t (verdict t context)) := by
  rw [exchanging, if_pos ht, htag]
  cases hv : verdict t context with
  | keep => exact absurd hv hne
  | _ => rfl

lemma takenOut_of_leaves {tag : String} {t : Tree} {h h' : Heap} {i : NodeId} {verdict : Verdict}
    (hleaves : p.Leaves tag t h h' i verdict) (hne : verdict ≠ .keep) {ts : List Tree}
    (hts : p.replacement tag t verdict = .ok ts) : h.TakenOut h' i := by
  cases verdict with
  | keep => exact absurd rfl hne
  | _ => exact hleaves ts hts

/-- The handler of a registration by class has been run on an element of the class that was
attached at or below `root` then, and whose tree was `t`. -/
def Matched (p : Processor) (root : NodeId) (level : ℕ) (context : Option String)
    (r : Registration) (v : Visit) (t : Tree) : Prop :=
  v.registration = r ∧ ∃ w w' result, w.depth = level ∧ w.heap.WellFormed
    ∧ w.heap.Reaches root v.node ∧ w.heap.hasClass v.node r.value = true
    ∧ w.heap.tagName v.node = some v.tag ∧ w.heap.tree v.node = t
    ∧ p.Yields (fun ask => (r.handler v.node context).run ask) w (.ok result, w')
    ∧ w'.trace = w.trace ++ v.own

/-! ### Runs over matches -/

section Matches

variable {ask : Answerer} {r : Registration} {root i : NodeId} {is js : List NodeId} {w : World}

lemma outcome_substituteMatches_attached (hi : w.heap.isAncestorOrSelf root i = true) :
    (p.substituteMatches ask r root context (i :: is)).outcome w
      = (p.replaceElement ask r ((w.heap.tagName i).getD "") i context >>= fun _ =>
          p.substituteMatches ask r root context is).outcome w := by
  rw [substituteMatches, outcome_bind_ok (outcome_heap w)]
  simp only [hi, if_true]

lemma outcome_substituteMatches_unattached (hi : w.heap.isAncestorOrSelf root i = false) :
    (p.substituteMatches ask r root context (i :: is)).outcome w
      = (p.substituteMatches ask r root context is).outcome w := by
  rw [substituteMatches, outcome_bind_ok (outcome_heap w)]
  simp only [hi, Bool.false_eq_true, if_false]

/-- Nothing is done for nodes that are no longer attached. -/
lemma outcome_substituteMatches_of_unattached
    (his : ∀ i ∈ is, w.heap.isAncestorOrSelf root i = false) :
    (p.substituteMatches ask r root context is).outcome w = some (.ok (), w) := by
  induction is with
  | nil => rfl
  | cons i is ih =>
      obtain ⟨hi, his⟩ := List.forall_mem_cons.mp his
      rw [outcome_substituteMatches_unattached hi, ih his]

/-- Some matches and then others. -/
lemma outcome_substituteMatches_append :
    (p.substituteMatches ask r root context (is ++ js)).outcome w
      = (p.substituteMatches ask r root context is >>= fun _ =>
          p.substituteMatches ask r root context js).outcome w := by
  induction is generalizing w with
  | nil => rfl
  | cons i is ih =>
      rw [List.cons_append]
      cases hi : w.heap.isAncestorOrSelf root i with
      | true =>
          rw [outcome_substituteMatches_attached hi, outcome_bind, outcome_bind,
            outcome_substituteMatches_attached hi, outcome_bind]
          cases (p.replaceElement ask r ((w.heap.tagName i).getD "") i context).outcome w with
          | none => rfl
          | some out =>
              obtain ⟨result, w'⟩ := out
              cases result with
              | error e => rfl
              | ok _ => exact ih.trans (outcome_bind ..)
      | false =>
          rw [outcome_substituteMatches_unattached hi, ih, outcome_bind, outcome_bind,
            outcome_substituteMatches_unattached hi]

end Matches

/-! ### One registration -/

section Sweep

variable (p : Processor) (verdict : Tree → Option String → Verdict) (context : Option String)
  (root : NodeId) (r : Registration) (level : ℕ)

/-- What the pass for a registration has done to the part `ss` of the child list of `q`. The
handler has been run on elements of its class that were attached, and, if it has not failed, on
the trees `us` in order. -/
structure Sweeps (w w' : World) (q : ℕ) (pre post : List NodeId) (ss : List Layout)
    (x : Rewriting) (us : List Tree) : Prop where
  heap : Rewritten w.heap w'.heap q pre post ss x.trees
  visits : ∃ (vs : List Visit) (ts : List Tree),
    w'.trace = w.trace ++ vs.flatMap (Visit.events context)
      ∧ List.Forall₂ (p.Matched root level context r) vs ts ∧ (x.failure = none → ts = us)

/-- The pass rewrites a tree that is attached below `root`, when it goes through its matches. -/
def SweepsAt (s : Layout) : Prop :=
  ∀ (w : World) (q : ℕ) (pre post : List NodeId), w.depth = level →
    Holds w.heap q pre post [s] → w.heap.Reaches root q →
      ∃ w', p.Yields (fun ask => p.substituteMatches ask r root context
            (marked (w.heap.hasClass · r.value) s)) w
          ((rewrite (p.exchanging verdict context r.value) (w.heap.read s)).result, w')
        ∧ p.Sweeps context root r level w w' q pre post [s]
          (rewrite (p.exchanging verdict context r.value) (w.heap.read s))
          (Tree.offered (Tree.hasClass r.value) (p.exchanging verdict context r.value)
            (w.heap.read s))

/-- The pass rewrites trees that stand side by side below `root`. -/
def SweepsEach (ss : List Layout) : Prop :=
  ∀ (w : World) (q : ℕ) (pre post : List NodeId), w.depth = level →
    Holds w.heap q pre post ss → w.heap.Reaches root q →
      ∃ w', p.Yields (fun ask => p.substituteMatches ask r root context
            (markedAll (w.heap.hasClass · r.value) ss)) w
          ((rewriteAll (p.exchanging verdict context r.value) (w.heap.readAll ss)).result, w')
        ∧ p.Sweeps context root r level w w' q pre post ss
          (rewriteAll (p.exchanging verdict context r.value) (w.heap.readAll ss))
          (Tree.offeredAll (Tree.hasClass r.value) (p.exchanging verdict context r.value)
            (w.heap.readAll ss))

end Sweep

section Step

variable {verdict : Tree → Option String → Verdict} {root : NodeId} {r : Registration} {level : ℕ}
  {s : Layout} {ss : List Layout} {w w₁ : World} {q : ℕ} {pre post : List NodeId}

/-- The matches below a node that stays, in a heap extended meanwhile. -/
lemma SweepsEach.below (hch : p.SweepsEach verdict context root r level s.children)
    (hs : Holds w.heap q pre post [s]) (hroot : w.heap.Reaches root s.id)
    (hext : w.heap.Extends w₁.heap) (hwf₁ : w₁.heap.WellFormed) (hlevel : w₁.depth = level) :
    let x := rewriteAll (p.exchanging verdict context r.value) (w.heap.readAll s.children)
    ∃ w', p.Yields (fun ask => p.substituteMatches ask r root context
          (markedAll (w.heap.hasClass · r.value) s.children)) w₁ (x.result, w')
      ∧ Rewritten w.heap w'.heap q pre post [s] [(w.heap.read s).withChildren x.trees]
      ∧ ∃ (vs : List Visit) (ts : List Tree),
        w'.trace = w₁.trace ++ vs.flatMap (Visit.events context)
          ∧ List.Forall₂ (p.Matched root level context r) vs ts
          ∧ (x.failure = none → ts = Tree.offeredAll (Tree.hasClass r.value)
            (p.exchanging verdict context r.value) (w.heap.readAll s.children)) := by
  intro x
  have hsame : ∀ k ∈ idsAll s.children, w₁.heap.content k = w.heap.content k := fun k hk =>
    content_congr (hext.node_eq k (hs.carries.1.carriesAll_children.lt_size k hk))
  obtain ⟨w', hy, hrew, hvisits⟩ := hch w₁ s.id [] [] hlevel (hs.children.of_extends hext hwf₁)
    (hext.reaches hroot)
  have hmarks : markedAll (w₁.heap.hasClass · r.value) s.children
      = markedAll (w.heap.hasClass · r.value) s.children :=
    Layout.markedAll_congr fun k hk => hasClass_congr r.value (hsame k hk)
  rw [readAll_congr hsame] at hy hrew hvisits
  rw [hmarks] at hy
  have hnil : s.children = [] → x.trees = [] := by
    intro hcs
    simp only [x, hcs]
    rfl
  exact ⟨w', hy, Rewritten.below hs (Rewritten.of_extends_left hs.children hext hrew) hnil, hvisits⟩

/-- The handler is run on an element that matches, and the element is replaced as it answers. -/
lemma replaceElement_matched (hloc : p.IsLocal level r.handler verdict) (hlevel : w.depth = level)
    (hs : Holds w.heap q pre post [s]) (hroot : w.heap.Reaches root s.id) {tag : String}
    (htag : w.heap.tagName s.id = some tag) (hclass : w.heap.hasClass s.id r.value = true)
    (context : Option String) :
    let x := Rewriting.ofTree (w.heap.read s)
      (some (p.replacement tag (w.heap.read s) (verdict (w.heap.read s) context))) { trees := [] }
    ∃ w₁ v, p.Yields (fun ask => p.replaceElement ask r tag s.id context) w (x.result, w₁)
      ∧ Rewritten w.heap w₁.heap q pre post [s] x.trees
      ∧ p.Leaves tag (w.heap.read s) w.heap w₁.heap s.id (verdict (w.heap.read s) context)
      ∧ w₁.trace = w.trace ++ v.events context
      ∧ p.Matched root level context r v (w.heap.read s) := by
  obtain ⟨w₁, own, w₂, result, hy, hrew, hleaves, htrace, hrun, hown⟩ :=
    replaceElement_ran context hloc hlevel htag hs { trees := [] }
  exact ⟨w₁, { registration := r, node := s.id, tag, own }, hy, hrew, hleaves, htrace, rfl,
    begun w r s.id context, w₂, result, hlevel, hs.wellFormed, hroot, hclass, htag,
    tree_eq_read hs.carries.1 hs.nodup_ids, hrun, hown⟩

/-- The matches below an element that has been taken out are not attached. -/
lemma unattached_of_takenOut (hs : Holds w.heap q pre post [s]) (hroot : w.heap.Reaches root q)
    (hwf₁ : w₁.heap.WellFormed) (htaken : w.heap.TakenOut w₁.heap s.id) :
    ∀ i ∈ markedAll (w.heap.hasClass · r.value) s.children,
      w₁.heap.isAncestorOrSelf root i = false := by
  intro i hi
  have hbelow := hs.carries.1.carriesAll_children.reaches_of_mem_markedAll
    (fun c hc => hs.carries.1.child_of_mem hc) hi
  rw [← Bool.not_eq_true, isAncestorOrSelf_iff hwf₁]
  exact hs.wellFormed.not_reaches_of_takenOut hwf₁ hs.parent_eq htaken hroot hbelow

/-- **A tree that matches** is rewritten if those of its children are: it is replaced, and its
matches are not attached then; or it stays, and they are met next. -/
lemma SweepsEach.at_of_hasClass (hloc : p.IsLocal level r.handler verdict)
    (hch : p.SweepsEach verdict context root r level s.children) (hlevel : w.depth = level)
    (hs : Holds w.heap q pre post [s]) (hroot : w.heap.Reaches root q)
    (hclass : w.heap.hasClass s.id r.value = true) :
    ∃ w', p.Yields (fun ask => p.substituteMatches ask r root context
          (s.id :: markedAll (w.heap.hasClass · r.value) s.children)) w
        ((rewrite (p.exchanging verdict context r.value) (w.heap.read s)).result, w')
      ∧ p.Sweeps context root r level w w' q pre post [s]
        (rewrite (p.exchanging verdict context r.value) (w.heap.read s))
        (Tree.offered (Tree.hasClass r.value) (p.exchanging verdict context r.value)
          (w.heap.read s)) := by
  have hcarries := hs.carries.1
  have hreach := hs.reaches hroot
  have hmark : (w.heap.read s).hasClass r.value = true := by rw [hasClass_read _ hcarries, hclass]
  obtain ⟨tag, htag⟩ := exists_tagName_of_hasClass hclass
  obtain ⟨w₁, v, hy, hrew, hleaves, htrace, hmatched⟩ :=
    replaceElement_matched hloc hlevel hs hreach htag hclass context
  have hattached : ∀ ask, (p.substituteMatches ask r root context
      (s.id :: markedAll (w.heap.hasClass · r.value) s.children)).outcome w
        = (p.replaceElement ask r tag s.id context >>= fun _ => p.substituteMatches ask r root context
          (markedAll (w.heap.hasClass · r.value) s.children)).outcome w := fun ask => by
    rw [outcome_substituteMatches_attached ((isAncestorOrSelf_iff hs.wellFormed).mpr hreach), htag,
      Option.getD_some]
  have hvisits : w₁.trace = w.trace ++ [v].flatMap (Visit.events context) := by simpa using htrace
  rw [Tree.rewrite_eq, Tree.offered_eq, children_read hcarries, if_pos hmark]
  by_cases hkeep : verdict (w.heap.read s) context = .keep
  · rw [exchanging_of_keep hkeep]
    rw [hkeep] at hy hrew hleaves
    have hdepth : w₁.depth = w.depth := stepRelation_depth.of_yields
      (fun _ hresp => stepRelation_depth.relates_replaceElement hresp r tag s.id context) hy
    obtain ⟨w', hy', hrew', vs, ts, htrace', hmatched', hall⟩ := hch.below hs hreach hleaves
      hrew.wellFormed (hdepth.trans hlevel)
    refine ⟨w', Yields.congr hattached (hy.bind_ok hy'), hrew', v :: vs, w.heap.read s :: ts, ?_,
      .cons hmatched hmatched', fun hf => ?_⟩
    · rw [htrace', htrace, List.flatMap_cons, List.append_assoc]
    · rw [hall hf]
      rfl
  · rw [exchanging_of_ne_keep hmark ((name?_read hcarries).trans htag) hkeep]
    cases hreplacement : p.replacement tag (w.heap.read s) (verdict (w.heap.read s) context) with
    | error e =>
        rw [hreplacement] at hy hrew
        exact ⟨w₁, Yields.congr hattached hy.bind_error, hrew, _, _, hvisits,
          .cons hmatched .nil, fun hf => by simp [Rewriting.ofTree] at hf⟩
    | ok ts =>
        rw [hreplacement] at hy hrew
        have hgone := unattached_of_takenOut (r := r) hs hroot hrew.wellFormed
          (takenOut_of_leaves hleaves hkeep hreplacement)
        exact ⟨w₁, Yields.congr hattached (hy.bind_ok (Yields.of_outcome fun ask =>
          outcome_substituteMatches_of_unattached hgone)), hrew, _, _, hvisits,
          .cons hmatched .nil, fun _ => rfl⟩

/-- A tree is rewritten if those of its children are. -/
lemma SweepsEach.sweepsAt (hloc : p.IsLocal level r.handler verdict)
    (hch : p.SweepsEach verdict context root r level s.children) :
    p.SweepsAt verdict context root r level s := by
  intro w q pre post hlevel hs hroot
  have hcarries := hs.carries.1
  rw [Layout.marked_eq]
  by_cases hclass : w.heap.hasClass s.id r.value = true
  · rw [if_pos hclass]
    exact hch.at_of_hasClass hloc hlevel hs hroot hclass
  · have hnot : (w.heap.read s).hasClass r.value = false := by
      rw [hasClass_read _ hcarries]
      exact Bool.not_eq_true _ ▸ hclass
    have hrender : p.exchanging verdict context r.value (w.heap.read s) = none := by
      rw [exchanging, hnot]
      rfl
    rw [if_neg hclass, Tree.rewrite_eq, Tree.offered_eq, children_read hcarries, hnot, hrender]
    obtain ⟨w', hy, hrew, hvisits⟩ := hch.below hs (hs.reaches hroot) (.refl _) hs.wellFormed hlevel
    exact ⟨w', hy, hrew, hvisits⟩

lemma sweepsEach_nil : p.SweepsEach verdict context root r level [] := by
  intro w q pre post _ hs _
  exact ⟨w, Yields.of_outcome fun _ => rfl, Rewritten.of_extends hs (.refl _) hs.wellFormed, [], [],
    by simp, .nil, fun _ => rfl⟩

/-- Trees are rewritten one after the other, up to a failure. -/
lemma SweepsAt.cons (hs : p.SweepsAt verdict context root r level s)
    (hss : p.SweepsEach verdict context root r level ss) :
    p.SweepsEach verdict context root r level (s :: ss) := by
  intro w q pre post hlevel hh hroot
  obtain ⟨w₁, hy₁, hrew₁, vs, ts, htrace₁, hmatched₁, hall₁⟩ :=
    hs w q pre (ss.map Layout.id ++ post) hlevel hh.head hroot
  rw [readAll, rewriteAll, markedAll, Tree.offeredAll]
  cases hf : (rewrite (p.exchanging verdict context r.value) (w.heap.read s)).failure with
  | some e =>
      rw [Rewriting.result, hf] at hy₁
      simp only [Rewriting.andThen, hf, Rewriting.result]
      exact ⟨w₁, Yields.congr (fun ask => outcome_substituteMatches_append) hy₁.bind_error,
        hrew₁.cons_stays hh, vs, ts, htrace₁, hmatched₁, by simp⟩
  | none =>
      rw [Rewriting.result, hf] at hy₁
      have hdepth : w₁.depth = w.depth := stepRelation_depth.of_yields
        (fun _ hresp => stepRelation_depth.relates_substituteMatches hresp r root context _) hy₁
      obtain ⟨pre', hrest, hthen⟩ := hrew₁.rest hh
      obtain ⟨w₂, hy₂, hrew₂, vs', ts', htrace₂, hmatched₂, hall₂⟩ :=
        hss w₁ q pre' post (hdepth.trans hlevel) hrest
          (hrew₁.reaches hh.head hroot)
      have hmarks : markedAll (w₁.heap.hasClass · r.value) ss
          = markedAll (w.heap.hasClass · r.value) ss :=
        Layout.markedAll_congr fun k hk => hasClass_congr r.value
          (content_congr (hh.node_eq_tail hrew₁ k hk))
      rw [hh.readAll_tail hrew₁] at hy₂ hrew₂ hall₂
      rw [hmarks] at hy₂
      simp only [Rewriting.andThen, hf, Rewriting.result]
      refine ⟨w₂, Yields.congr (fun ask => outcome_substituteMatches_append) (hy₁.bind_ok hy₂),
        hthen hrew₂, vs ++ vs', ts ++ ts', ?_, List.rel_append hmatched₁ hmatched₂, fun hf₂ => ?_⟩
      · rw [htrace₂, htrace₁, List.flatMap_append, List.append_assoc]
      · rw [hall₁ hf, hall₂ hf₂]

mutual

/-- The pass for a registration rewrites every tree. -/
theorem sweeps_at (hloc : p.IsLocal level r.handler verdict) :
    ∀ s : Layout, p.SweepsAt verdict context root r level s
  | .node _ cs => SweepsEach.sweepsAt hloc (sweeps_each hloc cs)
  | .template _ cs _ _ => SweepsEach.sweepsAt hloc (sweeps_each hloc cs)

/-- The pass for a registration rewrites all trees side by side. -/
theorem sweeps_each (hloc : p.IsLocal level r.handler verdict) :
    ∀ ss : List Layout, p.SweepsEach verdict context root r level ss
  | [] => sweepsEach_nil
  | s :: ss => (sweeps_at hloc s).cons (sweeps_each hloc ss)

end

end Step

/-! ### All registrations -/

section Registrations

variable {verdicts : Registration → Tree → Option String → Verdict} {level : ℕ}

/-- What trees become for several registrations in order, up to the first failure, and how that
ends. -/
def swept (p : Processor) (verdicts : Registration → Tree → Option String → Verdict)
    (context : Option String) : List Registration → List Tree → List Tree × Except Failure Unit
  | [], ts => (ts, .ok ())
  | r :: rs, ts =>
      let x := rewriteAll (p.exchanging (verdicts r) context r.value) ts
      match x.failure with
      | none => swept p verdicts context rs x.trees
      | some e => (x.trees, .error e)

/-- What a tree becomes for one registration by class: an element of the class is replaced as its
handler answers, or stays with its children exchanged; all else has its children exchanged. -/
def exchanged (p : Processor) (verdicts : Registration → Tree → Option String → Verdict)
    (context : Option String) (r : Registration) (t : Tree) : List Tree :=
  substituted (p.exchanging (verdicts r) context r.value) t

/-- The trees that the handlers of registrations by class are run on, if none fails. -/
def presented (p : Processor) (verdicts : Registration → Tree → Option String → Verdict)
    (context : Option String) : List Registration → List Tree → List (Registration × Tree)
  | [], _ => []
  | r :: rs, ts =>
      (Tree.offeredAll (Tree.hasClass r.value) (p.exchanging (verdicts r) context r.value) ts).map
          (r, ·)
        ++ presented p verdicts context rs (ts.flatMap (p.exchanged verdicts context r))

/-- Without a failure a registration acts on each tree. -/
lemma trees_exchanging {r : Registration} {ts : List Tree}
    (hok : (rewriteAll (p.exchanging (verdicts r) context r.value) ts).failure = none) :
    (rewriteAll (p.exchanging (verdicts r) context r.value) ts).trees
      = ts.flatMap (p.exchanged verdicts context r) := by
  rw [Tree.trees_rewriteAll hok, Tree.substitutedAll_eq_flatMap]
  rfl

/-- Without a failure the registrations act one after the other. -/
lemma swept_eq_foldl {rs : List Registration} {ts : List Tree}
    (hok : (p.swept verdicts context rs ts).2 = .ok ()) :
    (p.swept verdicts context rs ts).1
      = rs.foldl (fun ts r => ts.flatMap (p.exchanged verdicts context r)) ts := by
  induction rs generalizing ts with
  | nil => rfl
  | cons r rs ih =>
      rw [swept] at hok ⊢
      cases hx : (rewriteAll (p.exchanging (verdicts r) context r.value) ts).failure with
      | some e => simp [hx] at hok
      | none =>
          simp only [hx] at hok ⊢
          rw [ih hok, trees_exchanging hx, List.foldl_cons]

/-- **A registration** acts on a tree: what is below its root is rewritten. -/
lemma sweeps_registration {r : Registration} {verdict : Tree → Option String → Verdict}
    (hloc : p.IsLocal level r.handler verdict) {w : World} {s : Layout} (hlevel : w.depth = level)
    (hwf : w.heap.WellFormed) (hs : w.heap.Carries s) (hnd : s.ids.Nodup)
    (hroot : w.heap.hasClass s.id r.value = false) (context : Option String) :
    let x := rewriteAll (p.exchanging verdict context r.value) (w.heap.readAll s.children)
    ∃ (w' : World) (us : List Layout) (vs : List Visit) (ts : List Tree),
      p.Yields (fun ask => p.substituteMatches ask r s.id context (w.heap.withClass r.value s.id)) w
          (x.result, w')
        ∧ Refilled w.heap w'.heap s us x.trees
        ∧ w'.trace = w.trace ++ vs.flatMap (Visit.events context)
        ∧ List.Forall₂ (p.Matched s.id level context r) vs ts
        ∧ (x.failure = none → ts = Tree.offeredAll (Tree.hasClass r.value)
          (p.exchanging verdict context r.value) (w.heap.readAll s.children)) := by
  intro x
  have hmarks : w.heap.withClass r.value s.id
      = markedAll (w.heap.hasClass · r.value) s.children := by
    rw [withClass_eq_marked r.value hs hnd, Layout.marked_eq, hroot, if_neg Bool.false_ne_true,
      List.nil_append]
  rw [hmarks]
  obtain ⟨w', hy, hrew, vs, ts, htrace, hmatched, hall⟩ :=
    sweeps_each hloc s.children w s.id [] [] hlevel (.of_carries hwf hs hnd) .refl
  have hnil : s.children = [] → x.trees = [] := by
    intro hcs
    simp only [x, hcs]
    rfl
  obtain ⟨us, hrefilled⟩ := hrew.refilled hs hnd hnil
  exact ⟨w', us, vs, ts, hy, hrefilled, htrace, hmatched, hall⟩

/-- **Several registrations** act on a tree one after the other: what is below its root becomes
what the trees are swept to. -/
lemma sweeps_registered {rs : List Registration}
    (hloc : ∀ r ∈ rs, p.IsLocal level r.handler (verdicts r)) {w : World} {s : Layout}
    (hlevel : w.depth = level) (hwf : w.heap.WellFormed) (hs : w.heap.Carries s)
    (hnd : s.ids.Nodup) (hroot : ∀ r ∈ rs, w.heap.hasClass s.id r.value = false) :
    let x := p.swept verdicts context rs (w.heap.readAll s.children)
    ∃ (w' : World) (us : List Layout) (vs : List Visit) (rts : List (Registration × Tree)),
      p.Yields (fun ask => p.substituteRegistered ask s.id context rs) w (x.2, w')
        ∧ Refilled w.heap w'.heap s us x.1
        ∧ w'.trace = w.trace ++ vs.flatMap (Visit.events context)
        ∧ List.Forall₂ (fun v rt => rt.1 ∈ rs ∧ p.Matched s.id level context rt.1 v rt.2) vs rts
        ∧ (x.2 = .ok () →
          rts = p.presented verdicts context rs (w.heap.readAll s.children)) := by
  induction rs generalizing w s with
  | nil =>
      exact ⟨w, s.children, [], [], Yields.of_outcome fun _ => rfl, .refl hwf hs hnd, by simp,
        .nil, fun _ => rfl⟩
  | cons r rs ih =>
      obtain ⟨hlocr, hlocrs⟩ := List.forall_mem_cons.mp hloc
      obtain ⟨hrootr, hrootrs⟩ := List.forall_mem_cons.mp hroot
      have hfirst : ∀ ask, (p.substituteRegistered ask s.id context (r :: rs)).outcome w
          = (p.substituteMatches ask r s.id context (w.heap.withClass r.value s.id) >>= fun _ =>
              p.substituteRegistered ask s.id context rs).outcome w := fun ask => by
        rw [substituteRegistered, outcome_bind_ok (outcome_heap w)]
      obtain ⟨w₁, us, vs, ts, hy₁, hrefilled, htrace₁, hmatched₁, hall₁⟩ :=
        sweeps_registration hlocr hlevel hwf hs hnd hrootr context
      have hpairs : List.Forall₂ (fun v rt => rt.1 ∈ r :: rs
          ∧ p.Matched s.id level context rt.1 v rt.2) vs (ts.map (r, ·)) := by
        rw [List.forall₂_map_right_iff]
        exact hmatched₁.imp fun v t hm => ⟨List.mem_cons_self, hm⟩
      simp only [swept, presented]
      cases hf : (rewriteAll (p.exchanging (verdicts r) context r.value)
          (w.heap.readAll s.children)).failure with
      | some e =>
          rw [Rewriting.result, hf] at hy₁
          exact ⟨w₁, us, vs, _, Yields.congr hfirst hy₁.bind_error, hrefilled, htrace₁, hpairs,
            by simp⟩
      | none =>
          rw [Rewriting.result, hf] at hy₁
          have hdepth : w₁.depth = w.depth := stepRelation_depth.of_yields
            (fun _ hresp => stepRelation_depth.relates_substituteMatches hresp r s.id context _) hy₁
          have hclass : ∀ r' ∈ rs, w₁.heap.hasClass (s.withChildren us).id r'.value = false := by
            intro r' hr'
            rw [Layout.id_withChildren, hasClass_congr r'.value hrefilled.content_eq]
            exact hrootrs r' hr'
          obtain ⟨w₂, us', vs', rts, hy₂, hrefilled', htrace₂, hmatched₂, hall₂⟩ :=
            ih hlocrs (hdepth.trans hlevel) hrefilled.wellFormed hrefilled.carries hrefilled.nodup
              hclass
          rw [Layout.id_withChildren] at hy₂ hmatched₂
          rw [Layout.children_withChildren, hrefilled.readAll_eq] at hy₂ hrefilled' hall₂
          have hlater : List.Forall₂ (fun v rt => rt.1 ∈ r :: rs
              ∧ p.Matched s.id level context rt.1 v rt.2) vs' rts :=
            hmatched₂.imp fun v rt hm => ⟨List.mem_cons_of_mem r hm.1, hm.2⟩
          refine ⟨w₂, us', vs ++ vs', _, Yields.congr hfirst (hy₁.bind_ok hy₂),
            hrefilled.trans hrefilled', ?_, List.rel_append hpairs hlater, fun hf₂ => ?_⟩
          · rw [htrace₂, htrace₁, List.flatMap_append, List.append_assoc]
          · rw [hall₁ hf, hall₂ hf₂, trees_exchanging hf]

/-- **Substitution by class is sweeping the trees** for the registrations in order. Below a root
that has none of the classes, without a failure, each registration has acted on what the earlier
ones have left: an element of its class has become what its handler answered, which has not been
looked at again, or has stayed with its children swept; and all else is as it was. Handlers have
been run on matching elements only, and only on such as were attached below the root then, from
outside and in document order. -/
theorem substituteClassed_eq_swept {w : World} {s : Layout} (hwf : w.heap.WellFormed)
    (hs : w.heap.Carries s) (hnd : s.ids.Nodup)
    (hloc : ∀ r ∈ p.registry.classes, p.IsLocal w.depth r.handler (verdicts r))
    (hroot : ∀ r ∈ p.registry.classes, w.heap.hasClass s.id r.value = false)
    (context : Option String) :
    let x := p.swept verdicts context p.registry.classes (w.heap.forest s.id)
    ∃ (w' : World) (vs : List Visit) (rts : List (Registration × Tree)),
      p.Yields (fun ask => p.substituteClassed ask s.id context) w (x.2, w')
        ∧ w'.heap.WellFormed
        ∧ w'.heap.tree s.id = (w.heap.tree s.id).withChildren x.1
        ∧ w'.heap.forest s.id = x.1
        ∧ (x.2 = .ok () → w'.heap.forest s.id = p.registry.classes.foldl
          (fun ts r => ts.flatMap (p.exchanged verdicts context r)) (w.heap.forest s.id))
        ∧ w'.trace = w.trace ++ vs.flatMap (Visit.events context)
        ∧ List.Forall₂ (fun v rt => rt.1 ∈ p.registry.classes
          ∧ p.Matched s.id w.depth context rt.1 v rt.2) vs rts
        ∧ (x.2 = .ok () →
          rts = p.presented verdicts context p.registry.classes (w.heap.forest s.id)) := by
  rw [hs.forest_eq hnd]
  intro x
  obtain ⟨w', us, vs, rts, hy, hrefilled, htrace, hmatched, hall⟩ :=
    sweeps_registered hloc rfl hwf hs hnd hroot
  refine ⟨w', vs, rts, hy, hrefilled.wellFormed, hrefilled.tree_eq hs hnd, hrefilled.forest_eq,
    fun hok => ?_, htrace, hmatched, hall⟩
  rw [hrefilled.forest_eq]
  exact swept_eq_foldl hok

end Registrations

/-- An element of a class replaced by a new text, with another one inside of it. -/
theorem substituteClassed_newText :
    let noted : List Attribute := [{ name := "class", value := "c" }]
    let ts : List Tree := [.element { name := "div", attributes := noted }
      [.element { name := "span", attributes := noted } []], .text "b"]
    let p : Processor := { registry := Registry.registerClass {} "c" "a" (newText "a") }
    ∃ w', p.Yields (fun ask => p.substituteClassed ask 0 none)
        { heap := (Heap.plant {} (.document ts)).1 } (.ok (), w')
      ∧ w'.heap.forest 0 = [.text "a", .text "b"] := by
  intro noted ts p
  have hclasses : p.registry.classes = [⟨.className, "c", "a", newText "a"⟩] := rfl
  have hpl := wellFormed_empty.plant (.document ts)
  obtain ⟨s, hid, hs, hnd, -, hread⟩ := hpl.carries
  have hzero : s.id = 0 := hid
  let verdicts : Registration → Tree → Option String → Verdict := fun _ _ _ => .tree (.text "a")
  have hloc : ∀ r ∈ p.registry.classes, p.IsLocal 0 r.handler (verdicts r) := by
    rw [hclasses]
    simpa using isLocal_newText p 0 "a"
  have hroot : ∀ r ∈ p.registry.classes,
      (Heap.plant {} (.document ts)).1.hasClass s.id r.value = false := by
    intro r _
    rw [← hasClass_read _ hs, hread]
    rfl
  obtain ⟨w', -, -, hy, -, -, hforest, -⟩ := substituteClassed_eq_swept
    (w := { heap := (Heap.plant {} (.document ts)).1 }) hpl.wellFormed hs hnd hloc hroot none
  have hbefore : (Heap.plant {} (.document ts)).1.forest s.id = ts := by
    rw [hid]
    exact forest_planted wellFormed_empty ts
  have hswept : p.swept verdicts none p.registry.classes ts
      = ([.text "a", .text "b"], .ok ()) := by
    rw [hclasses]
    simp [ts, noted, verdicts, swept, rewriteAll, rewrite, exchanging, Tree.hasClass, Element.get?,
      replacement, Rewriting.ofTree, Rewriting.andThen, Tree.standIns, Tree.withChildren]
  rw [hbefore, hswept, hzero] at hy
  rw [hbefore, hswept, hzero] at hforest
  exact ⟨w', hy, hforest⟩

end Processor

end RichText
