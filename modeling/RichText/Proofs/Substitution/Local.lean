import RichText.Proofs.Heap.Attached
import RichText.Proofs.Substitution.Rewriting
import RichText.Proofs.Substitution.Splice

/-!
Local handlers.

A handler is local if it leaves all nodes as they are and answers as its element and the context
say: that the element stays, with markup, with a tree of new nodes, or with an error
(`Verdict`, `Processor.IsLocal`).

* `Processor.replacement`: what goes in place of an element for such an answer;
* `Processor.Leaves`: whether the element stays or is taken out;
* `Processor.replaceElement_ran`: one element is replaced so, and the handler is run on it once;
* `Processor.replaceElement_of_local`: the same for the handler of its tag.
-/

namespace RichText

open Layout (idsAll)

/-- What a local handler answers for an element. -/
inductive Verdict where
  /-- The element stays. -/
  | keep
  /-- Markup goes in its place. -/
  | markup (s : String)
  /-- A tree of new nodes goes in its place. -/
  | tree (t : Tree)
  /-- The handler fails. -/
  | error (e : Failure)

/-- Whether a handler that has taken a heap `h` to `h'` has answered so. The nodes of a tree are
new, and each is used once. -/
def Verdict.Told (h h' : Heap) : Verdict → Except Failure Rendering → Prop
  | .keep, .ok .keep => True
  | .markup s, .ok (.markup s') => s' = s
  | .tree t, .ok (.tree i) => ∃ u : Layout, u.id = i ∧ h'.Carries u ∧ u.ids.Nodup
      ∧ (∀ k : ℕ, k ∈ u.ids → h.size ≤ k) ∧ h'.read u = t
  | .error e, .error e' => e' = e
  | _, _ => False

namespace Processor

open Heap Run

variable {p : Processor} {level : ℕ} {context : Option String}

/-- **A local handler**, at a level of nesting: it ends, has changed no node that was there, and
has answered as the tree of the element and the context say. -/
def IsLocal (p : Processor) (level : ℕ) (handler : Handler)
    (verdict : Tree → Option String → Verdict) : Prop :=
  ∀ (w : World) (s : Layout) (context : Option String), w.depth = level → w.heap.WellFormed →
    w.heap.Carries s → s.ids.Nodup → (w.heap.tagName s.id).isSome →
      ∃ result w', p.Yields (fun ask => (handler s.id context).run ask) w (.ok result, w')
        ∧ w.heap.Extends w'.heap ∧ w'.heap.WellFormed
        ∧ (verdict (w.heap.read s) context).Told w.heap w'.heap result

/-- What goes in place of an element, or the failure that its handler ends in. -/
def replacement (p : Processor) (tag : String) (t : Tree) : Verdict → Except Failure (List Tree)
  | .keep => .ok [t]
  | .markup s =>
      if p.options.strictFragments && !(readMarkup s).2.isEmpty then
        .error (.malformedMarkup tag (readMarkup s).2)
      else .ok (readMarkup s).1
  | .tree u => .ok u.standIns
  | .error e => .error e

/-- What an answer leaves of an element and of the heap: the element stays while the heap is
extended, or it is taken out for its replacement. -/
def Leaves (p : Processor) (tag : String) (t : Tree) (h h' : Heap) (i : NodeId) : Verdict → Prop
  | .keep => h.Extends h'
  | verdict => ∀ ts, p.replacement tag t verdict = .ok ts → h.TakenOut h' i

/-- A run of a handler on an element, with what has happened meanwhile. -/
structure Visit where
  registration : Registration
  node : NodeId
  tag : String
  own : List Event

/-- What a run of a handler leaves in the trace. -/
def Visit.events (context : Option String) (v : Visit) : List Event :=
  .rendered v.registration.label v.node (some v.tag) context :: v.own

/-- The handler registered for an element has been run on it. -/
def Visited (p : Processor) (level : ℕ) (context : Option String) (v : Visit) : Prop :=
  p.registry.forTag? v.tag = some v.registration ∧ ∃ w w' result, w.depth = level
    ∧ w.heap.tagName v.node = some v.tag
    ∧ p.Yields (fun ask => (v.registration.handler v.node context).run ask) w (.ok result, w')
    ∧ w'.trace = w.trace ++ v.own

lemma isLocal_newText (p : Processor) (level : ℕ) (text : String) :
    p.IsLocal level (newText text) fun _ _ => .tree (.text text) := by
  intro w s context _ hwf _ _ _
  have hpl := hwf.plant (.text text)
  rw [Heap.plant] at hpl
  exact ⟨.ok (.tree w.heap.size), { w with heap := w.heap.push { content := .text text } },
    Yields.of_outcome fun _ => rfl, hpl.extends_, hpl.wellFormed, hpl.carries⟩

/-! ### The answer of a local handler -/

section Splice

variable {w w' : World} {q : ℕ} {pre post : List NodeId} {s : Layout} {tag : String}

/-- A new tree is put in place of an element, or its children if it is a container. -/
lemma putReplacement_new (tag : String) (w' : World) {u : Layout}
    (hs : Holds w.heap q pre post [s]) (hext : w.heap.Extends w'.heap) (hwf' : w'.heap.WellFormed)
    (hu : w'.heap.Carries u) (hnd : u.ids.Nodup) (hnew : ∀ k : ℕ, k ∈ u.ids → w.heap.size ≤ k) :
    ∃ w'', (putReplacement tag s.id (w.heap.position s.id) u.id).outcome w' = some (.ok (), w'')
      ∧ Rewritten w.heap w''.heap q pre post [s] (w'.heap.read u).standIns
      ∧ w.heap.TakenOut w''.heap s.id ∧ w''.trace = w'.trace := by
  obtain ⟨us, hj, hus, hndu, hsub, hread⟩ := standIns_of_carries hu hnd
  have hnewu : ∀ k : ℕ, k ∈ idsAll us → w.heap.size ≤ k := fun k hk => hnew k (hsub hk)
  have hparent : w'.heap.parent s.id = some q := by
    rw [parent_congr (hext.node_eq s.id hs.carries.1.id_lt), hs.parent_eq]
  have hany : ((us.map Layout.id).any fun n => w'.heap.isAncestorOrSelf n q) = false := by
    refine List.any_eq_false.mpr fun n hn hc => ?_
    have hnot := hext.not_reaches hs.wellFormed hwf' (hnewu n (Layout.id_mem_idsAll hn)) hs.lt_size
    exact hnot ((isAncestorOrSelf_iff hwf').mp hc)
  have htaken := hext.takenOut_replaceWith hs.wellFormed hwf' hs.parent_eq (Layout.nodup_map_id hndu)
    (fun k hk => hnewu k (Layout.id_mem_idsAll hk)) fun k hk => hus.lt_size k (Layout.id_mem_idsAll hk)
  refine ⟨{ w' with heap := (w'.heap.replaceWith s.id (us.map Layout.id)).1 }, ?_,
    hread ▸ hs.replace_new hext hwf' hus hndu hnewu, htaken, rfl⟩
  rw [outcome_putReplacement, hs.wellFormed.position_eq_some hs.children_eq_cons]
  simp only [hj, hany, Bool.false_eq_true, if_false, putInPlace, hparent, if_true]

/-- **The answer of a local handler** is put in place of the element, which stays if there is
none or if markup is refused. -/
lemma splice_of_told (p : Processor) (tag : String) {verdict : Verdict} {answer : Rendering}
    (hs : Holds w.heap q pre post [s]) (hext : w.heap.Extends w'.heap) (hwf' : w'.heap.WellFormed)
    (htold : verdict.Told w.heap w'.heap (.ok answer)) (x : Rewriting) :
    ∃ w'', (p.splice tag s.id (w.heap.position s.id) answer).outcome w'
        = some ((Rewriting.ofTree (w.heap.read s)
            (some (p.replacement tag (w.heap.read s) verdict)) x).result, w'')
      ∧ Rewritten w.heap w''.heap q pre post [s] (Rewriting.ofTree (w.heap.read s)
          (some (p.replacement tag (w.heap.read s) verdict)) x).trees
      ∧ p.Leaves tag (w.heap.read s) w.heap w''.heap s.id verdict ∧ w''.trace = w'.trace := by
  have hstays := Rewritten.of_extends hs hext hwf'
  cases verdict with
  | keep =>
      cases answer with
      | keep => exact ⟨w', rfl, hstays, hext, rfl⟩
      | markup m => exact htold.elim
      | tree i => exact htold.elim
  | markup m =>
      cases answer with
      | keep => exact htold.elim
      | markup m' =>
          obtain rfl : m' = m := htold
          have hfragment := outcome_fragment p tag m' w'
          rw [replacement]
          split
          · next hstrict =>
              rw [if_pos hstrict] at hfragment
              exact ⟨w', outcome_bind_error hfragment, hstays, by simp [Leaves, replacement, hstrict],
                rfl⟩
          · next hstrict =>
              rw [if_neg hstrict, outcome_plant] at hfragment
              have hpl := hwf'.plant (.document (readMarkup m').1)
              obtain ⟨u, hid, hu, hnd, hge, hread⟩ := hpl.carries
              obtain ⟨w'', hw'', hrew, htaken, htrace⟩ := putReplacement_new tag
                { w' with heap := (w'.heap.plant (.document (readMarkup m').1)).1 } hs
                (hext.trans hpl.extends_) hpl.wellFormed hu hnd
                fun k hk => hext.size_le.trans (hge k hk)
              rw [hid] at hw''
              rw [hread, Tree.standIns] at hrew
              exact ⟨w'', (outcome_bind_ok hfragment).trans hw'', hrew, fun _ _ => htaken, htrace⟩
      | tree i => exact htold.elim
  | tree t =>
      cases answer with
      | keep => exact htold.elim
      | markup m => exact htold.elim
      | tree i =>
          obtain ⟨u, rfl, hu, hnd, hge, hread⟩ := htold
          obtain ⟨w'', hw'', hrew, htaken, htrace⟩ :=
            putReplacement_new tag w' hs hext hwf' hu hnd hge
          rw [hread] at hrew
          exact ⟨w'', hw'', hrew, fun _ _ => htaken, htrace⟩
  | error e => cases answer <;> exact htold.elim

/-- **One element is replaced** as its local handler answers, and the handler is run on it once. -/
theorem replaceElement_ran (context : Option String) {r : Registration}
    {verdict : Tree → Option String → Verdict}
    (hloc : p.IsLocal level r.handler verdict) (hlevel : w.depth = level)
    (htag : w.heap.tagName s.id = some tag) (hs : Holds w.heap q pre post [s]) (x : Rewriting) :
    ∃ w' own w₁ result, p.Yields (fun ask => p.replaceElement ask r tag s.id context) w
        ((Rewriting.ofTree (w.heap.read s) (some (p.replacement tag (w.heap.read s)
          (verdict (w.heap.read s) context))) x).result, w')
      ∧ Rewritten w.heap w'.heap q pre post [s] (Rewriting.ofTree (w.heap.read s)
          (some (p.replacement tag (w.heap.read s) (verdict (w.heap.read s) context))) x).trees
      ∧ p.Leaves tag (w.heap.read s) w.heap w'.heap s.id (verdict (w.heap.read s) context)
      ∧ w'.trace = w.trace
        ++ Visit.events context { registration := r, node := s.id, tag, own }
      ∧ p.Yields (fun ask => (r.handler s.id context).run ask) (begun w r s.id context)
        (.ok result, w₁)
      ∧ w₁.trace = (begun w r s.id context).trace ++ own := by
  obtain ⟨result, w₁, hrun, hext, hwf₁, htold⟩ := hloc (begun w r s.id context) s context hlevel
    hs.wellFormed hs.carries.1 hs.nodup_ids (by simp [begun, htag])
  obtain ⟨own, hown⟩ := stepRelation_trace.of_yields_run hrun
  have htrace : w₁.trace = w.trace
      ++ Visit.events context { registration := r, node := s.id, tag, own } := by
    rw [← hown, begun, htag, List.append_assoc]
    rfl
  have hhandler := yields_runHandler hrun
  cases result with
  | error e =>
      have hverdict : verdict (w.heap.read s) context = .error e := by
        have htold' : (verdict (w.heap.read s) context).Told w.heap w₁.heap (.error e) := htold
        cases hv : verdict (w.heap.read s) context with
        | error e' =>
            rw [hv] at htold'
            rw [show e = e' from htold']
        | keep => rw [hv] at htold'; exact htold'.elim
        | markup m => rw [hv] at htold'; exact htold'.elim
        | tree t => rw [hv] at htold'; exact htold'.elim
      rw [hverdict]
      exact ⟨w₁, own, w₁, .error e, yields_replaceElement_error hhandler,
        Rewritten.of_extends hs hext hwf₁, by simp [Leaves, replacement], htrace, hrun, hown.symm⟩
  | ok answer =>
      obtain ⟨w₂, hsplice, hrew, hleaves, htrace₂⟩ := splice_of_told p tag hs hext hwf₁ htold x
      exact ⟨w₂, own, w₁, .ok answer, yields_replaceElement hhandler hsplice, hrew, hleaves,
        htrace₂.trans htrace, hrun, hown.symm⟩

/-- An element whose tag is registered is replaced as the handler of its tag answers. -/
lemma replaceElement_of_local (context : Option String) {r : Registration}
    {verdict : Tree → Option String → Verdict}
    (hloc : p.IsLocal level r.handler verdict) (hlevel : w.depth = level)
    (htag : w.heap.tagName s.id = some tag) (hr : p.registry.forTag? tag = some r)
    (hs : Holds w.heap q pre post [s]) (x : Rewriting) :
    ∃ w' v, p.Yields (fun ask => p.replaceElement ask r tag s.id context) w
        ((Rewriting.ofTree (w.heap.read s) (some (p.replacement tag (w.heap.read s)
          (verdict (w.heap.read s) context))) x).result, w')
      ∧ Rewritten w.heap w'.heap q pre post [s] (Rewriting.ofTree (w.heap.read s)
          (some (p.replacement tag (w.heap.read s) (verdict (w.heap.read s) context))) x).trees
      ∧ w'.trace = w.trace ++ v.events context ∧ v.node = s.id ∧ p.Visited level context v := by
  obtain ⟨w', own, w₁, result, hy, hrew, -, htrace, hrun, hown⟩ :=
    replaceElement_ran context hloc hlevel htag hs x
  exact ⟨w', { registration := r, node := s.id, tag, own }, hy, hrew, htrace, rfl, hr,
    begun w r s.id context, w₁, result, hlevel, htag, hrun, hown⟩

end Splice

end Processor

end RichText
