import RichText.Proofs.Content.Fragment
import RichText.Proofs.Heap.Placing
import RichText.Proofs.Substitution.Spliced

/-!
Markup and trees as answers.

Markup without faults and a container of new nodes that are the same trees are put in the same
place, so that every document has become the same (`replaceElement_markup_eq_tree`). What the
handlers have done before they answer may be anything, as long as both have done it.

* `Processor.PutsIn`: where new nodes go that are put in place of a node;
* `Processor.Answers`: a handler has run and given an answer;
* `Processor.splice_tree_new`, `Processor.splice_markup_new`: both kinds of answer.
-/

namespace RichText

open Layout (idsAll)

namespace Processor

open Heap Run

variable {p : Processor} {w : World} {h : Heap} {node : NodeId} {anchor : Position}
  {as bs : List NodeId} {ts : List Tree}

/-- In every heap that extends `h`, new nodes put in place of a node go between `as` and `bs`. -/
def PutsIn (h : Heap) (node : NodeId) (anchor : Position) (as bs : List NodeId) : Prop :=
  ∀ ⦃k : Heap⦄ ⦃us : List Layout⦄, h.Extends k → k.WellFormed → k.CarriesAll us →
    (idsAll us).Nodup → (∀ j : ℕ, j ∈ idsAll us → h.size ≤ j) →
      PutIn h (putInPlace k node anchor (us.map Layout.id)) anchor.parent as bs us

/-- New nodes that are put in place of a node have a place. -/
lemma exists_putsIn (hwf : h.WellFormed) (hnode : node < h.size) (hanchor : anchor.parent < h.size) :
    ∃ as bs, PutsIn h node anchor as bs := by
  by_cases hi : h.parent node = some anchor.parent
  · obtain ⟨as, bs, hput⟩ := hwf.putIn_replaceWith hi
    refine ⟨as, bs, fun k us hext hwfk hus hnd hnew => ?_⟩
    have hk : k.parent node = some anchor.parent := by rw [parent_congr (hext.node_eq node hnode), hi]
    rw [putInPlace, if_pos hk]
    exact hput hext hwfk hus hnd hnew
  · refine ⟨h.childrenBefore anchor.parent anchor.index, h.childrenBehind anchor.parent anchor.index,
      fun k us hext hwfk hus hnd hnew => ?_⟩
    have hk : k.parent node ≠ some anchor.parent := by
      rwa [parent_congr (hext.node_eq node hnode)]
    rw [putInPlace, if_neg hk]
    exact hext.putIn_insertAt hwf hwfk hanchor anchor.index hus hnd hnew

lemma bare_putInPlace (hwf : h.WellFormed) (node : NodeId) (anchor : Position) (is : List NodeId)
    (j : NodeId) : (putInPlace h node anchor is).bare j = h.bare j := by
  rw [putInPlace]
  split
  · exact hwf.bare_replaceWith node is j
  · exact hwf.bare_insertAt ..

/-- **A container of new nodes** is put in place of a node. -/
lemma splice_tree_new (p : Processor) (tag : String) (hputs : PutsIn h node anchor as bs)
    (hwf : h.WellFormed) (hanchor : anchor.parent < h.size) (hext : h.Extends w.heap)
    (hwfw : w.heap.WellFormed) {u : Layout} (hu : w.heap.Carries u) (hnd : u.ids.Nodup)
    (hnew : ∀ k : ℕ, k ∈ u.ids → h.size ≤ k) :
    ∃ w' us, (p.splice tag node (some anchor) (.tree u.id)).outcome w = some (.ok (), w')
      ∧ w'.heap.WellFormed ∧ PutIn h w'.heap anchor.parent as bs us
      ∧ w'.heap.readAll us = (w.heap.read u).standIns := by
  obtain ⟨us, hstand, hus, hndu, hsub, hread⟩ := standIns_of_carries hu hnd
  have hnewu : ∀ k : ℕ, k ∈ idsAll us → h.size ≤ k := fun k hk => hnew k (hsub hk)
  have hover : ∀ n ∈ us.map Layout.id, ¬ w.heap.Reaches n anchor.parent := fun n hn =>
    hext.not_reaches hwf hwfw (hnewu n (Layout.id_mem_idsAll hn)) hanchor
  have hany : ((us.map Layout.id).any fun n => w.heap.isAncestorOrSelf n anchor.parent) = false :=
    List.any_eq_false.mpr fun n hn hc => hover n hn ((isAncestorOrSelf_iff hwfw).mp hc)
  have hput := hputs hext hwfw hus hndu hnewu
  refine ⟨{ w with heap := putInPlace w.heap node anchor (us.map Layout.id) }, us, ?_, ?_, hput, ?_⟩
  · rw [splice, outcome_putReplacement]
    simp only [hstand, hany, Bool.false_eq_true, if_false]
  · exact (hwfw.putInPlace anchor.index (lt_of_lt_of_le hanchor hext.size_le)
      (Layout.nodup_map_id hndu) (fun k hk => hus.lt_size k (Layout.id_mem_idsAll hk)) hover).1
  · rw [← hread]
    exact readAll_congr fun k _ => congrArg Prod.fst (bare_putInPlace hwfw node anchor _ k)

/-- **Markup without faults** is put in place of a node. -/
lemma splice_markup_new (p : Processor) (tag : String) (hputs : PutsIn h node anchor as bs)
    (hwf : h.WellFormed) (hanchor : anchor.parent < h.size) (hext : h.Extends w.heap)
    (hwfw : w.heap.WellFormed) {s : String} (hs : readMarkup s = (ts, [])) :
    ∃ w' us, (p.splice tag node (some anchor) (.markup s)).outcome w = some (.ok (), w')
      ∧ w'.heap.WellFormed ∧ PutIn h w'.heap anchor.parent as bs us ∧ w'.heap.readAll us = ts := by
  have hpl := hwfw.plant (.document ts)
  obtain ⟨u, hid, hu, hnd, hge, hread⟩ := hpl.carries
  have hfragment : (p.fragment tag s).outcome w = some (.ok u.id,
      { w with heap := (w.heap.plant (.document ts)).1 }) := by
    rw [outcome_fragment, hs, hid]
    simp [outcome_plant]
  obtain ⟨w', us, hsplice, hwf', hput, hreadu⟩ := splice_tree_new p tag hputs hwf hanchor
    (w := { w with heap := (w.heap.plant (.document ts)).1 }) (hext.trans hpl.extends_)
    hpl.wellFormed hu hnd fun k hk => hext.size_le.trans (hge k hk)
  refine ⟨w', us, ?_, hwf', hput, by rw [hreadu, hread, Tree.standIns]⟩
  rw [splice, outcome_bind_ok hfragment]
  exact hsplice

/-! ### Handlers -/

/-- A handler run on a node in `w` has ended in `w'` with an answer. It has changed what was there
to the heap `h`, and has made new nodes besides. -/
structure Answers (p : Processor) (r : Registration) (node : NodeId) (context : Option String)
    (w w' : World) (h : Heap) (answer : Rendering) : Prop where
  yields : p.Yields (fun ask => (r.handler node context).run ask) (begun w r node context)
    (.ok (.ok answer), w')
  extends_ : h.Extends w'.heap
  wellFormed : w'.heap.WellFormed

/-- A handler that answers with markup. -/
def newMarkup (s : String) : Handler := fun _ _ => .done (.ok (.markup s))

/-- A handler that has markup read and answers with the fragment container. -/
def newFragment (s : String) : Handler := fun _ _ =>
  .ask (.fragment s) fun
    | .ok j => .done (.ok (.tree j))
    | .error e => .done (.error e)

lemma answers_newMarkup (p : Processor) (r : Registration) {s : String}
    (hr : r.handler = newMarkup s) (hwf : w.heap.WellFormed) (node : NodeId)
    (context : Option String) :
    Answers p r node context w (begun w r node context) w.heap (.markup s) := by
  refine ⟨?_, .refl _, hwf⟩
  rw [hr]
  exact Yields.of_outcome fun _ => rfl

lemma answers_newFragment (p : Processor) (r : Registration) {s : String}
    (hr : r.handler = newFragment s) (hs : readMarkup s = (ts, [])) (hwf : w.heap.WellFormed)
    (node : NodeId) (context : Option String) :
    ∃ w' u, Answers p r node context w w' w.heap (.tree u.id) ∧ w'.heap.Carries u ∧ u.ids.Nodup
      ∧ (∀ k : ℕ, k ∈ u.ids → w.heap.size ≤ k) ∧ w'.heap.read u = .document ts := by
  have hpl := hwf.plant (.document ts)
  obtain ⟨u, hid, hu, hnd, hge, hread⟩ := hpl.carries
  refine ⟨{ begun w r node context with heap := (w.heap.plant (.document ts)).1 }, u,
    ⟨?_, hpl.extends_, hpl.wellFormed⟩, hu, hnd, hge, hread⟩
  have hfragment : p.Yields (fun ask => ask (.fragment s)) (begun w r node context)
      (.ok u.id, { begun w r node context with heap := (w.heap.plant (.document ts)).1 }) := by
    refine Yields.ask (Yields.of_outcome fun ask => ?_)
    show (p.fragment "#fragment" s).outcome _ = _
    rw [outcome_fragment, hs, hid, if_neg (by simp)]
    rfl
  rw [hr]
  exact hfragment.run_ask (Yields.of_outcome fun _ => rfl)

/-- **Markup and trees as answers agree.** A written plain forest is read back without faults. An
attached element for which one handler answers with this markup and another one with a container
of new nodes that are the forest is replaced in both cases, strictly or not, and every document
is the same tree then. -/
theorem replaceElement_markup_eq_tree (hts : Tree.isPlainAll false ts = true)
    (hmark : (serialize ts).head? ≠ some '\ufeff') :
    readMarkup (writeNodes ts) = (ts, [])
      ∧ ∀ {p₁ p₂ : Processor} {r₁ r₂ : Registration} {w w₁ w₂ : World} {h : Heap} {node : NodeId}
        {u : Layout} (tag : String) (context : Option String),
        w.heap.WellFormed → (w.heap.parent node).isSome → h.WellFormed → w.heap.size ≤ h.size →
        Answers p₁ r₁ node context w w₁ h (.markup (writeNodes ts)) →
        Answers p₂ r₂ node context w w₂ h (.tree u.id) → w₂.heap.Carries u → u.ids.Nodup →
        (∀ k : ℕ, k ∈ u.ids → h.size ≤ k) → w₂.heap.read u = .document ts →
          ∃ w₁' w₂',
            p₁.Yields (fun ask => p₁.replaceElement ask r₁ tag node context) w (.ok (), w₁')
              ∧ p₂.Yields (fun ask => p₂.replaceElement ask r₂ tag node context) w (.ok (), w₂')
              ∧ w₁'.heap.WellFormed ∧ w₂'.heap.WellFormed
              ∧ ∀ s : Layout, h.Carries s → s.ids.Nodup →
                w₁'.heap.tree s.id = w₂'.heap.tree s.id := by
  have hread := readMarkup_writeNodes hts hmark
  refine ⟨hread, fun {p₁ p₂ r₁ r₂ w w₁ w₂ h node u} tag context hwfw hattached hwf hsize ha₁ ha₂
    hu hnd hnew htree => ?_⟩
  obtain ⟨anchor, hanchor⟩ := Option.isSome_iff_exists.mp (hwfw.isSome_position_iff.mpr hattached)
  obtain ⟨before, behind, hch, -⟩ := children_of_position hanchor
  have hmem : node ∈ w.heap.children anchor.parent := by rw [hch]; simp
  have hlt : anchor.parent < h.size := lt_of_lt_of_le (lt_size_of_child hmem) hsize
  obtain ⟨as, bs, hputs⟩ :=
    exists_putsIn hwf (lt_of_lt_of_le (hwfw.lt_size_of_mem hmem) hsize) hlt
  obtain ⟨w₁', us₁, hsplice₁, hwf₁, hput₁, hread₁⟩ :=
    splice_markup_new p₁ tag hputs hwf hlt ha₁.extends_ ha₁.wellFormed hread
  obtain ⟨w₂', us₂, hsplice₂, hwf₂, hput₂, hread₂⟩ :=
    splice_tree_new p₂ tag hputs hwf hlt ha₂.extends_ ha₂.wellFormed hu hnd hnew
  rw [htree, Tree.standIns] at hread₂
  rw [← hanchor] at hsplice₁ hsplice₂
  exact ⟨w₁', w₂', yields_replaceElement (yields_runHandler ha₁.yields) hsplice₁,
    yields_replaceElement (yields_runHandler ha₂.yields) hsplice₂, hwf₁, hwf₂,
    fun s hs hnds => hput₁.tree_eq hput₂ (hread₁.trans hread₂.symm) hs hnds⟩

/-- A paragraph in place of an element, as markup and as a tree. -/
theorem replaceElement_newMarkup_eq_newFragment :
    let ts : List Tree := [.element { name := "p" } [.text "a"]]
    let w : World := { heap := (Heap.plant {} (.document [.element { name := "x-a" } []])).1 }
    let r₁ : Registration := ⟨.tagName, "x-a", "a", newMarkup (writeNodes ts)⟩
    let r₂ : Registration := ⟨.tagName, "x-a", "a", newFragment (writeNodes ts)⟩
    ∃ w₁ w₂, Yields {} (fun ask => replaceElement {} ask r₁ "x-a" 1 none) w (.ok (), w₁)
      ∧ Yields {} (fun ask => replaceElement {} ask r₂ "x-a" 1 none) w (.ok (), w₂)
      ∧ w₁.heap.tree 0 = w₂.heap.tree 0 := by
  intro ts w r₁ r₂
  have hpl := wellFormed_empty.plant (.document [.element { name := "x-a" } []])
  obtain ⟨s, hid, hs, hnd, -⟩ := hpl.carries
  have hplain : Tree.isPlainAll false ts = true := by decide
  obtain ⟨hread, hagree⟩ := replaceElement_markup_eq_tree hplain (by decide)
  obtain ⟨w₂, u, ha₂, hu, hndu, hnew, htree⟩ :=
    answers_newFragment {} r₂ rfl hread hpl.wellFormed (w := w) 1 none
  obtain ⟨w₁', w₂', hy₁, hy₂, -, -, hsame⟩ := hagree "x-a" none hpl.wellFormed rfl hpl.wellFormed
    le_rfl (answers_newMarkup {} r₁ rfl hpl.wellFormed 1 none) ha₂ hu hndu hnew htree
  have hroot := hsame s hs hnd
  rw [hid] at hroot
  exact ⟨w₁', w₂', hy₁, hy₂, hroot⟩

end Processor

end RichText
