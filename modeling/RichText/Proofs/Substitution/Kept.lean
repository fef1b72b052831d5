import RichText.Proofs.Substitution.Unmatched

/-!
The pass by tag when every element is kept.

If all handlers leave the nodes as they are and answer that their element stays, the pass goes
through the document as it was read, and all that is left of it are the runs of the handlers.

* `Processor.Toured`: what such a pass has done to the state of the run;
* `Processor.exists_toured_substituteAt`, `Processor.exists_toured_substituteEach`: **the pass** at
  a tree and over several, by induction on these;
* `Heap.Carries.mem_outermost_iff`: which marked nodes are the outermost.
-/

namespace RichText

open Layout (idsAll outermost outermostAll)

/-! ### The outermost marked nodes -/

namespace Layout

variable {marked : NodeId → Bool}

lemma mem_outermostAll {ss : List Layout} {k : NodeId} :
    k ∈ outermostAll marked ss ↔ ∃ s ∈ ss, k ∈ outermost marked s := by
  induction ss with
  | nil => simp [outermostAll]
  | cons s ss ih => simp [outermostAll, ih]

mutual

lemma outermost_subset_ids : ∀ s : Layout, outermost marked s ⊆ s.ids
  | node i cs => by
      rw [outermost, ids]
      split
      · simp
      · exact List.subset_cons_of_subset i (outermostAll_subset_idsAll cs)
  | template i cs inner us => by
      rw [outermost, ids]
      split
      · simp
      · exact List.subset_cons_of_subset i
          (List.Subset.trans (outermostAll_subset_idsAll cs) (List.subset_append_left _ _))

lemma outermostAll_subset_idsAll : ∀ ss : List Layout, outermostAll marked ss ⊆ idsAll ss
  | [] => List.Subset.refl _
  | s :: ss => by
      rw [outermostAll, idsAll]
      exact List.append_subset.mpr
        ⟨List.Subset.trans (outermost_subset_ids s) (List.subset_append_left _ _),
          List.Subset.trans (outermostAll_subset_idsAll ss) (List.subset_append_right _ _)⟩

lemma marked_of_mem_outermost : ∀ {s : Layout} {k : NodeId}, k ∈ outermost marked s →
    marked k = true
  | node i cs, k, hk => by
      rw [outermost] at hk
      split at hk
      · next hi => exact List.mem_singleton.mp hk ▸ hi
      · exact marked_of_mem_outermostAll hk
  | template i cs inner us, k, hk => by
      rw [outermost] at hk
      split at hk
      · next hi => exact List.mem_singleton.mp hk ▸ hi
      · exact marked_of_mem_outermostAll hk

lemma marked_of_mem_outermostAll : ∀ {ss : List Layout} {k : NodeId}, k ∈ outermostAll marked ss →
    marked k = true
  | s :: ss, k, hk => by
      rw [outermostAll, List.mem_append] at hk
      exact hk.elim marked_of_mem_outermost marked_of_mem_outermostAll

end

end Layout

namespace Heap

variable {h : Heap} {marked : NodeId → Bool}

/-- **A node that is reached** and lies below no marked node is among the outermost marked nodes
exactly if it is marked. -/
lemma Carries.mem_outermost_iff {s : Layout} {i : NodeId} (hs : h.Carries s)
    (hi : h.Reaches s.id i) (hfree : ∀ j, h.Reaches j i → j ≠ i → marked j = false) :
    i ∈ outermost marked s ↔ marked i = true := by
  refine ⟨Layout.marked_of_mem_outermost, fun hmark => ?_⟩
  obtain ⟨a, ha⟩ : ∃ a, a = s.id := ⟨_, rfl⟩
  rw [← ha] at hi
  induction hi using Relation.ReflTransGen.head_induction_on generalizing s with
  | refl =>
      rw [Layout.outermost_eq, ← ha, if_pos hmark]
      exact List.mem_singleton_self i
  | @head a b hchild hbelow ih =>
      rw [Layout.outermost_eq, ← ha]
      by_cases hai : a = i
      · rw [hai, if_pos hmark]
        exact List.mem_singleton_self i
      · rw [hfree a (hbelow.head hchild) hai, if_neg Bool.false_ne_true]
        rw [Child, ha, hs.children_eq] at hchild
        obtain ⟨c, hc, rfl⟩ := List.mem_map.mp hchild
        exact Layout.mem_outermostAll.mpr ⟨c, hc, ih (hs.carriesAll_children.of_mem hc) rfl⟩

end Heap

namespace Processor

open Heap Run

variable {p : Processor} {w w₁ w₂ : World} {context : Option String} {level : ℕ} {s : Layout}

/-- What a pass has done that has kept every element: the heap has at most grown, and handlers have
been run, each on an element with the tag that it is registered for. -/
structure Toured (p : Processor) (context : Option String) (w w' : World) (vs : List Visit) :
    Prop where
  extends_ : w.heap.Extends w'.heap
  wellFormed : w'.heap.WellFormed
  depth : w'.depth = w.depth
  trace : w'.trace = w.trace ++ vs.flatMap (Visit.events context)
  visited : ∀ v ∈ vs, p.Visited w.depth context v ∧ w.heap.tagName v.node = some v.tag

lemma Toured.refl (hwf : w.heap.WellFormed) : p.Toured context w w [] where
  extends_ := Extends.refl _
  wellFormed := hwf
  depth := rfl
  trace := by simp
  visited := by simp

lemma Toured.trans {vs vs' : List Visit} (h₁ : p.Toured context w w₁ vs)
    (h₂ : p.Toured context w₁ w₂ vs') (hold : ∀ v ∈ vs', v.node < w.heap.size) :
    p.Toured context w w₂ (vs ++ vs') where
  extends_ := h₁.extends_.trans h₂.extends_
  wellFormed := h₂.wellFormed
  depth := h₂.depth.trans h₁.depth
  trace := by rw [h₂.trace, h₁.trace, List.flatMap_append, List.append_assoc]
  visited v hv := by
    rcases List.mem_append.mp hv with hv | hv
    · exact h₁.visited v hv
    · obtain ⟨hvisited, htag⟩ := h₂.visited v hv
      have hnode := h₁.extends_.node_eq v.node (hold v hv)
      rw [tagName, element?, content_congr hnode] at htag
      exact ⟨h₁.depth ▸ hvisited, htag⟩

lemma eq_keep_of_told {h h' : Heap} {result : Except Failure Rendering}
    (htold : Verdict.keep.Told h h' result) : result = .ok .keep := by
  cases result with
  | error e => exact htold.elim
  | ok answer =>
      cases answer with
      | keep => rfl
      | markup s => exact htold.elim
      | tree i => exact htold.elim

/-- An element that its handler keeps: the handler has been run, and that is all. -/
lemma exists_toured_replaceElement (context : Option String) {r : Registration} {tag : String}
    (hloc : p.IsLocal level r.handler fun _ _ => .keep) (hlevel : w.depth = level)
    (hwf : w.heap.WellFormed) (hs : w.heap.Carries s) (hnd : s.ids.Nodup)
    (htag : w.heap.tagName s.id = some tag) (hr : p.registry.forTag? tag = some r) :
    ∃ w' v, p.Yields (fun ask => p.replaceElement ask r tag s.id context) w (.ok (), w')
      ∧ p.Toured context w w' [v] ∧ v.node = s.id := by
  obtain ⟨result, w', hrun, hext, hwf', htold⟩ := hloc (begun w r s.id context) s context hlevel
    hwf hs hnd (by simp [begun, htag])
  obtain rfl := eq_keep_of_told htold
  obtain ⟨own, hown⟩ := stepRelation_trace.of_yields_run hrun
  have hdepth : w'.depth = w.depth := stepRelation_depth.of_yields_run hrun
  have hreplace : p.Yields (fun ask => p.replaceElement ask r tag s.id context) w (.ok (), w') :=
    yields_replaceElement (yields_runHandler hrun) rfl
  refine ⟨w', { registration := r, node := s.id, tag, own }, hreplace, ?_, rfl⟩
  refine ⟨hext, hwf', hdepth, ?_, ?_⟩
  · rw [← hown, begun, htag, List.append_assoc]
    simp [Visit.events]
  · intro v hv
    obtain rfl := List.mem_singleton.mp hv
    exact ⟨⟨hr, begun w r s.id context, w', _, rfl, htag, hrun, hown.symm⟩, htag⟩

lemma isLocal_keep (p : Processor) (level : ℕ) :
    p.IsLocal level (fun _ _ => .done (.ok .keep)) fun _ _ => .keep :=
  fun w _ _ _ hwf _ _ _ =>
    ⟨.ok .keep, w, Yields.of_outcome fun _ => rfl, Extends.refl _, hwf, trivial⟩

/-! ### The pass -/

/-- At one tree the pass runs the handler of its root, or goes on below it. -/
lemma exists_toured_of_children (hloc : p.AllLocal level fun _ _ _ => .keep)
    (hlevel : w.depth = level) (hwf : w.heap.WellFormed) (hs : w.heap.Carries s)
    (hnd : s.ids.Nodup)
    (hbelow : ∃ w' vs, p.Yields (fun ask => substituteEach ask context (s.children.map Layout.id)) w
        (.ok (), w')
      ∧ p.Toured context w w' vs
      ∧ vs.map Visit.node = outermostAll (p.registers w.heap) s.children) :
    ∃ w' vs, p.Yields (fun ask => p.substituteAt ask s.id context) w (.ok (), w')
      ∧ p.Toured context w w' vs ∧ vs.map Visit.node = outermost (p.registers w.heap) s := by
  rw [Layout.outermost_eq]
  by_cases hreg : p.registers w.heap s.id = true
  · obtain ⟨tag, htag, hsome⟩ := (Option.any_eq_true _ _).mp hreg
    obtain ⟨r, hr⟩ := Option.isSome_iff_exists.mp hsome
    obtain ⟨w', v, hy, htoured, hnode⟩ := exists_toured_replaceElement context (hloc tag r hr)
      hlevel hwf hs hnd htag hr
    refine ⟨w', [v], Yields.congr (fun ask => substituteAt_of_registered htag hr) hy, htoured, ?_⟩
    rw [if_pos hreg, ← hnode]
    rfl
  · rw [Bool.not_eq_true] at hreg
    obtain ⟨w', vs, hy, htoured, hnodes⟩ := hbelow
    rw [hreg, if_neg Bool.false_ne_true]
    exact ⟨w', vs, yields_substituteAt_of_children hs hreg hy, htoured, hnodes⟩

mutual

/-- **The pass at a tree** runs the handlers of the outermost elements with registered tags. -/
lemma exists_toured_substituteAt (hloc : p.AllLocal level fun _ _ _ => .keep) :
    ∀ (s : Layout) {w : World}, w.depth = level → w.heap.WellFormed → w.heap.Carries s →
      s.ids.Nodup → ∃ w' vs, p.Yields (fun ask => p.substituteAt ask s.id context) w (.ok (), w')
        ∧ p.Toured context w w' vs ∧ vs.map Visit.node = outermost (p.registers w.heap) s
  | .node _ cs, _, hlevel, hwf, hs, hnd =>
      exists_toured_of_children hloc hlevel hwf hs hnd (exists_toured_substituteEach hloc cs hlevel
        hwf hs.carriesAll_children (Layout.nodup_idsAll_children hnd))
  | .template _ cs _ _, _, hlevel, hwf, hs, hnd =>
      exists_toured_of_children hloc hlevel hwf hs hnd (exists_toured_substituteEach hloc cs hlevel
        hwf hs.carriesAll_children (Layout.nodup_idsAll_children hnd))

/-- **The pass over several trees** takes one after the other. -/
lemma exists_toured_substituteEach (hloc : p.AllLocal level fun _ _ _ => .keep) :
    ∀ (ss : List Layout) {w : World}, w.depth = level → w.heap.WellFormed → w.heap.CarriesAll ss →
      (idsAll ss).Nodup →
      ∃ w' vs, p.Yields (fun ask => substituteEach ask context (ss.map Layout.id)) w (.ok (), w')
        ∧ p.Toured context w w' vs ∧ vs.map Visit.node = outermostAll (p.registers w.heap) ss
  | [], w, _, hwf, _, _ => ⟨w, [], Yields.of_outcome fun _ => rfl, .refl hwf, rfl⟩
  | s :: ss, w, hlevel, hwf, hcs, hnd => by
      obtain ⟨hs, hss⟩ := hcs
      obtain ⟨hnds, hndss, -⟩ := List.nodup_append.mp hnd
      obtain ⟨w₁, vs, hy₁, htoured₁, hnodes₁⟩ :=
        exists_toured_substituteAt hloc s hlevel hwf hs hnds
      -- what is still to be visited stands as before
      have hsame : ∀ k ∈ idsAll ss, w₁.heap.node k = w.heap.node k := fun k hk =>
        htoured₁.extends_.node_eq k (hss.lt_size k hk)
      have hss₁ : w₁.heap.CarriesAll ss := carriesAll_congr htoured₁.extends_.size_le
        (fun k hk => .of_node_eq (hsame k hk)) hss
      obtain ⟨w₂, vs', hy₂, htoured₂, hnodes₂⟩ := exists_toured_substituteEach hloc ss
        (htoured₁.depth.trans hlevel) htoured₁.wellFormed hss₁ hndss
      have hmarks : outermostAll (p.registers w₁.heap) ss = outermostAll (p.registers w.heap) ss :=
        Layout.outermostAll_congr fun k hk => by
          rw [registers, registers, tagName, tagName, element?, element?,
            content_congr (hsame k hk)]
      rw [hmarks] at hnodes₂
      refine ⟨w₂, vs ++ vs', (Yields.ask (r := .substituteAt s.id context) hy₁).bind_ok hy₂,
        htoured₁.trans htoured₂ fun v hv => ?_, ?_⟩
      · have hmem : v.node ∈ vs'.map Visit.node := List.mem_map_of_mem hv
        rw [hnodes₂] at hmem
        exact hss.lt_size _ (Layout.outermostAll_subset_idsAll ss hmem)
      · rw [List.map_append, hnodes₁, hnodes₂, outermostAll]

end

end Processor

end RichText
