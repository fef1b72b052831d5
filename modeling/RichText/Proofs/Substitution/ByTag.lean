import RichText.Proofs.Substitution.Local

/-!
Substitution by tag with local handlers.

The pass changes child lists while it goes through the lists that it has noted before, at every
level of the tree. Between the nodes that it has put in (`pre`) and what it still has to visit,
nothing is in its way (`Holds`), so that it does what rewriting plain trees does.

* `Processor.rendering`: what comes of rendering a tree, by the registered tags;
* `Processor.Rewrites`: what the pass has done to a part of a child list, with the handlers run;
* `Processor.rewrites_substituteAt`, `Processor.rewrites_substituteEach`: the pass at a tree and
  over several, by induction on these;
* `Processor.substituteBelow_eq_rewriteAll`: the pass among the children of a node.
-/

namespace RichText

open Layout (idsAll outermost outermostAll)
open RichText.Tree (rewrite rewriteAll substituted)

namespace Processor

open Heap Run

variable {p : Processor} {context : Option String}
  {verdicts : String → Tree → Option String → Verdict}

/-- All handlers registered by tag are local. -/
def AllLocal (p : Processor) (level : ℕ) (verdicts : String → Tree → Option String → Verdict) :
    Prop :=
  ∀ tag r, p.registry.forTag? tag = some r → p.IsLocal level r.handler (verdicts tag)

/-- What comes of rendering a tree, if its tag is registered. -/
def rendering (p : Processor) (verdicts : String → Tree → Option String → Verdict)
    (context : Option String) (t : Tree) : Option (Except Failure (List Tree)) := do
  let tag ← t.name?
  let _ ← p.registry.forTag? tag
  return p.replacement tag t (verdicts tag t context)

/-- Whether a node is an element with a registered tag. -/
def registers (p : Processor) (h : Heap) (i : NodeId) : Bool :=
  (h.tagName i).any fun tag => (p.registry.forTag? tag).isSome

/-- What the pass has done to the part `ss` of the child list of `q`. Handlers have been run on
the outermost elements with registered tags, as far as the pass got. -/
structure Rewrites (p : Processor) (context : Option String) (w w' : World) (q : ℕ)
    (pre post : List NodeId) (ss : List Layout) (x : Rewriting) : Prop where
  heap : Rewritten w.heap w'.heap q pre post ss x.trees
  visits : ∃ vs : List Visit, w'.trace = w.trace ++ vs.flatMap (Visit.events context)
    ∧ vs.length = x.rendered
    ∧ vs.map Visit.node <+: outermostAll (p.registers w.heap) ss
    ∧ (x.failure = none → vs.map Visit.node = outermostAll (p.registers w.heap) ss)
    ∧ ∀ v ∈ vs, p.Visited w.depth context v

/-- The pass rewrites a tree, wherever it stands. -/
def RewritesAt (p : Processor) (verdicts : String → Tree → Option String → Verdict)
    (context : Option String) (level : ℕ) (s : Layout) : Prop :=
  ∀ (w : World) (q : ℕ) (pre post : List NodeId), w.depth = level →
    Holds w.heap q pre post [s] →
      ∃ w', p.Yields (fun ask => p.substituteAt ask s.id context) w
          ((rewrite (p.rendering verdicts context) (w.heap.read s)).result, w')
        ∧ p.Rewrites context w w' q pre post [s]
          (rewrite (p.rendering verdicts context) (w.heap.read s))

/-- The pass rewrites trees that stand side by side. -/
def RewritesEach (p : Processor) (verdicts : String → Tree → Option String → Verdict)
    (context : Option String) (level : ℕ) (ss : List Layout) : Prop :=
  ∀ (w : World) (q : ℕ) (pre post : List NodeId), w.depth = level →
    Holds w.heap q pre post ss →
      ∃ w', p.Yields (fun ask => substituteEach ask context (ss.map Layout.id)) w
          ((rewriteAll (p.rendering verdicts context) (w.heap.readAll ss)).result, w')
        ∧ p.Rewrites context w w' q pre post ss
          (rewriteAll (p.rendering verdicts context) (w.heap.readAll ss))

/-! ### One tree -/

/-- At an element with a registered tag the pass replaces it. -/
lemma substituteAt_of_registered {ask : Answerer} {node : NodeId} {w : World} {tag : String}
    {r : Registration} (htag : w.heap.tagName node = some tag)
    (hr : p.registry.forTag? tag = some r) :
    (p.substituteAt ask node context).outcome w
      = (p.replaceElement ask r tag node context).outcome w := by
  rw [substituteAt, outcome_bind_ok (outcome_heap w)]
  simp [htag, hr]

/-- At any other node the pass goes on below it. -/
lemma substituteAt_of_not_registers {ask : Answerer} {node : NodeId} {w : World}
    (hnot : p.registers w.heap node = false) :
    (p.substituteAt ask node context).outcome w
      = (substituteEach ask context (w.heap.children node)).outcome w := by
  have hbelow : (substituteBelow ask node context).outcome w
      = (substituteEach ask context (w.heap.children node)).outcome w := by
    rw [substituteBelow, outcome_bind_ok (outcome_heap w)]
  rw [substituteAt, outcome_bind_ok (outcome_heap w)]
  cases htag : w.heap.tagName node with
  | none => simpa [htag] using hbelow
  | some tag =>
      rw [registers, htag, Option.any_some, Option.isSome_eq_false_iff, Option.isNone_iff_eq_none]
        at hnot
      simpa [htag, hnot] using hbelow

lemma rendering_of_registered {h : Heap} {s : Layout} {tag : String} {r : Registration}
    (hs : h.Carries s) (htag : h.tagName s.id = some tag) (hr : p.registry.forTag? tag = some r) :
    p.rendering verdicts context (h.read s)
      = some (p.replacement tag (h.read s) (verdicts tag (h.read s) context)) := by
  rw [rendering, name?_read hs, htag]
  simp [hr]

lemma rendering_of_not_registers {h : Heap} {s : Layout} (hs : h.Carries s)
    (hnot : p.registers h s.id = false) : p.rendering verdicts context (h.read s) = none := by
  rw [rendering, name?_read hs]
  cases htag : h.tagName s.id with
  | none => rfl
  | some tag =>
      rw [registers, htag, Option.any_some, Option.isSome_eq_false_iff, Option.isNone_iff_eq_none]
        at hnot
      simp [hnot]

/-- A tree is rewritten if the trees of its children are. -/
lemma RewritesEach.rewritesAt {s : Layout} (hloc : p.AllLocal level verdicts)
    (hch : p.RewritesEach verdicts context level s.children) :
    p.RewritesAt verdicts context level s := by
  intro w q pre post hlevel hs
  have hcarries := hs.carries.1
  rw [Tree.rewrite_eq, children_read hcarries]
  have hsingle : outermostAll (p.registers w.heap) [s] = outermost (p.registers w.heap) s := by
    simp [outermostAll]
  by_cases hreg : p.registers w.heap s.id = true
  · obtain ⟨tag, htag, hsome⟩ := Option.any_eq_true _ _ |>.mp hreg
    obtain ⟨r, hr⟩ := Option.isSome_iff_exists.mp hsome
    obtain ⟨w', v, hy, hrew, htrace, hnode, hvisited⟩ := replaceElement_of_local context
      (hloc tag r hr) hlevel htag hr hs (rewriteAll (p.rendering verdicts context)
        (w.heap.readAll s.children))
    rw [rendering_of_registered hcarries htag hr]
    have hnodes : [v].map Visit.node = outermostAll (p.registers w.heap) [s] := by
      rw [hsingle, Layout.outermost_eq, if_pos hreg, ← hnode]
      rfl
    refine ⟨w', Yields.congr (fun ask => substituteAt_of_registered htag hr) hy, hrew, [v], ?_, ?_,
      ?_, fun _ => hnodes, ?_⟩
    · simpa using htrace
    · rw [Rewriting.rendered_ofTree_some]
      rfl
    · rw [hnodes]
    · simpa [hlevel] using hvisited
  · rw [Bool.not_eq_true] at hreg
    obtain ⟨w', hy, hrew, vs, htrace, hlen, hpre, hall, hvisited⟩ :=
      hch w s.id [] [] hlevel hs.children
    rw [← hcarries.children_eq] at hy
    have hnil : s.children = [] →
        (rewriteAll (p.rendering verdicts context) (w.heap.readAll s.children)).trees = [] := by
      intro hcs
      rw [hcs]
      rfl
    rw [rendering_of_not_registers hcarries hreg]
    have houter : outermostAll (p.registers w.heap) [s]
        = outermostAll (p.registers w.heap) s.children := by
      rw [hsingle, Layout.outermost_eq, hreg, if_neg Bool.false_ne_true]
    refine ⟨w', Yields.congr (fun ask => substituteAt_of_not_registers hreg) hy,
      Rewritten.below hs hrew hnil, vs, htrace, hlen, ?_, ?_, hvisited⟩
    · rw [houter]
      exact hpre
    · rw [houter]
      exact hall

/-! ### Several trees -/

lemma rewritesEach_nil (level : ℕ) : p.RewritesEach verdicts context level [] := by
  intro w q pre post _ hs
  exact ⟨w, Yields.of_outcome fun _ => rfl,
    Rewritten.of_extends hs (Extends.refl w.heap) hs.wellFormed, [], by simp, rfl, by simp,
    fun _ => rfl, by simp⟩

/-- Trees are rewritten one after the other, up to a failure. -/
lemma RewritesAt.cons {s : Layout} {ss : List Layout} {level : ℕ}
    (hs : p.RewritesAt verdicts context level s) (hss : p.RewritesEach verdicts context level ss) :
    p.RewritesEach verdicts context level (s :: ss) := by
  intro w q pre post hlevel hh
  obtain ⟨w₁, hy₁, hrew₁, vs, htrace₁, hlen₁, hpre₁, hall₁, hvisited₁⟩ :=
    hs w q pre (ss.map Layout.id ++ post) hlevel hh.head
  have hask := hy₁.ask (r := .substituteAt s.id context)
  have houter : outermostAll (p.registers w.heap) (s :: ss)
      = outermostAll (p.registers w.heap) [s] ++ outermostAll (p.registers w.heap) ss := by
    simp [outermostAll]
  rw [readAll, Tree.rewriteAll]
  cases hf : (rewrite (p.rendering verdicts context) (w.heap.read s)).failure with
  | some e =>
      rw [Rewriting.result, hf] at hask
      simp only [Rewriting.andThen, hf, Rewriting.result]
      refine ⟨w₁, hask.bind_error, hrew₁.cons_stays hh, vs, htrace₁, hlen₁, ?_, by simp, hvisited₁⟩
      rw [houter]
      exact hpre₁.trans (List.prefix_append ..)
  | none =>
      rw [Rewriting.result, hf] at hask
      have hdepth : w₁.depth = w.depth := stepRelation_depth.of_yields
        (fun _ hresp => stepRelation_depth.relates_substituteAt hresp s.id context) hy₁
      obtain ⟨pre', hrest, hthen⟩ := hrew₁.rest hh
      obtain ⟨w₂, hy₂, hrew₂, vs', htrace₂, hlen₂, hpre₂, hall₂, hvisited₂⟩ :=
        hss w₁ q pre' post (hdepth.trans hlevel) hrest
      have hmarks : outermostAll (p.registers w₁.heap) ss = outermostAll (p.registers w.heap) ss :=
        Layout.outermostAll_congr fun k hk => by
          rw [registers, registers, tagName, tagName, element?, element?,
            content_congr (hh.node_eq_tail hrew₁ k hk)]
      rw [hh.readAll_tail hrew₁] at hy₂ hrew₂ hlen₂ hall₂
      rw [hmarks] at hpre₂ hall₂
      simp only [Rewriting.andThen, hf, Rewriting.result]
      refine ⟨w₂, hask.bind_ok hy₂, hthen hrew₂, vs ++ vs', ?_, ?_, ?_, fun hf₂ => ?_, ?_⟩
      · rw [htrace₂, htrace₁, List.flatMap_append, List.append_assoc]
      · rw [List.length_append, hlen₁, hlen₂]
      · rw [houter, List.map_append, hall₁ hf]
        exact List.prefix_append_right_inj _ |>.mpr hpre₂
      · rw [houter, List.map_append, hall₁ hf, hall₂ hf₂]
      · intro v hv
        rcases List.mem_append.mp hv with hv | hv
        · exact hvisited₁ v hv
        · rw [← hdepth]
          exact hvisited₂ v hv

/-! ### All trees -/

mutual

/-- The pass rewrites every tree. -/
theorem rewrites_substituteAt {level : ℕ} (hloc : p.AllLocal level verdicts) :
    ∀ s : Layout, p.RewritesAt verdicts context level s
  | .node _ cs => RewritesEach.rewritesAt hloc (rewrites_substituteEach hloc cs)
  | .template _ cs _ _ => RewritesEach.rewritesAt hloc (rewrites_substituteEach hloc cs)

/-- The pass rewrites all trees side by side. -/
theorem rewrites_substituteEach {level : ℕ} (hloc : p.AllLocal level verdicts) :
    ∀ ss : List Layout, p.RewritesEach verdicts context level ss
  | [] => rewritesEach_nil level
  | s :: ss => (rewrites_substituteAt hloc s).cons (rewrites_substituteEach hloc ss)

end

/-- **Substitution among the children of a node does what rewriting their trees does.** Without a
failure each outermost element with a registered tag has become what its handler answered, and
all else has stayed; with a failure this holds of what stands before. The handlers have been run
on these elements only, on each once, in document order. -/
theorem substituteBelow_eq_rewriteAll {w : World} {s : Layout} (hwf : w.heap.WellFormed)
    (hs : w.heap.Carries s) (hnd : s.ids.Nodup) (hloc : p.AllLocal w.depth verdicts)
    (context : Option String) :
    let x := rewriteAll (p.rendering verdicts context) (w.heap.forest s.id)
    let outer := outermostAll (p.registers w.heap) s.children
    ∃ (w' : World) (vs : List Visit),
      p.Yields (fun ask => substituteBelow ask s.id context) w (x.result, w')
      ∧ (w.heap.content s.id = .document →
          p.Yields (fun ask => p.substituteAt ask s.id context) w (x.result, w'))
      ∧ w'.heap.WellFormed
      ∧ w'.heap.forest s.id = x.trees
      ∧ (x.failure = none → w'.heap.forest s.id
          = (w.heap.forest s.id).flatMap (substituted (p.rendering verdicts context)))
      ∧ w'.trace = w.trace ++ vs.flatMap (Visit.events context)
      ∧ vs.map Visit.node = outer.take x.rendered
      ∧ (x.failure = none → vs.map Visit.node = outer)
      ∧ ∀ v ∈ vs, p.Visited w.depth context v := by
  intro x outer
  have hholds : Holds w.heap s.id [] [] s.children := by
    refine ⟨hwf, hs.id_lt, ?_, hs.carriesAll_children, Layout.nodup_idsAll_children hnd,
      Layout.id_notMem_idsAll_children hnd⟩
    rw [hs.children_eq]
    simp
  have hforest : w.heap.forest s.id = w.heap.readAll s.children :=
    forest_eq_readAll hs.children_eq hs.carriesAll_children (Layout.nodup_idsAll_children hnd)
  obtain ⟨w', hy, hrew, vs, htrace, hlen, hpre, hall, hvisited⟩ :=
    rewrites_substituteEach hloc s.children w s.id [] [] rfl hholds
  rw [← hforest] at hy hlen hall hrew
  rw [← hs.children_eq] at hy
  obtain ⟨us, hch, hus, hndu, -, hread⟩ := hrew.carries
  rw [List.nil_append, List.append_nil] at hch
  have htrees : w'.heap.forest s.id = x.trees := by
    rw [forest_eq_readAll hch hus hndu, hread]
  have hbelow : ∀ ask, (substituteBelow ask s.id context).outcome w
      = (substituteEach ask context (w.heap.children s.id)).outcome w := fun ask => by
    rw [substituteBelow, outcome_bind_ok (outcome_heap w)]
  refine ⟨w', vs, Yields.congr hbelow hy, fun hdoc => Yields.congr (fun ask => ?_) hy,
    hrew.wellFormed, htrees, fun hf => ?_, htrace, ?_, hall, hvisited⟩
  · exact substituteAt_of_not_registers (by simp [registers, tagName, element?, hdoc])
  · rw [htrees, Tree.trees_rewriteAll hf, Tree.substitutedAll_eq_flatMap]
  · calc vs.map Visit.node
        = outer.take (vs.map Visit.node).length := List.prefix_iff_eq_take.mp hpre
      _ = outer.take x.rendered := by rw [List.length_map, hlen]

/-- An element replaced by a new text. -/
theorem substituteBelow_newText :
    ∃ w', ({ registry := Registry.registerTag {} "x-a" "a" (newText "a") } : Processor).Yields
        (fun ask => substituteBelow ask 0 none)
        { heap := (Heap.plant {} (.document [.element { name := "x-a" } [], .text "b"])).1 }
        (.ok (), w')
      ∧ w'.heap.forest 0 = [.text "a", .text "b"] := by
  set p : Processor := { registry := Registry.registerTag {} "x-a" "a" (newText "a") } with hp
  have hloc : p.AllLocal 0 fun _ _ _ => .tree (.text "a") := by
    intro tag r hr
    rw [hp, Registry.forTag_registerTag] at hr
    split at hr
    · obtain rfl := Option.some.inj hr
      exact isLocal_newText p 0 "a"
    · simp [Registry.forTag?] at hr
  have hpl := wellFormed_empty.plant (.document [.element { name := "x-a" } [], .text "b"])
  obtain ⟨s, hid, hs, hnd, -, hread⟩ := hpl.carries
  have hroot : s.id = 0 := hid
  obtain ⟨w', vs, hy, -, -, hforest, -⟩ := substituteBelow_eq_rewriteAll
    (w := { heap := (Heap.plant {} (.document [.element { name := "x-a" } [], .text "b"])).1 })
    hpl.wellFormed hs hnd hloc none
  have hbefore : (Heap.plant {} (.document [.element { name := "x-a" } [], .text "b"])).1.forest s.id
      = [.element { name := "x-a" } [], .text "b"] := by
    rw [forest_eq_readAll hs.children_eq hs.carriesAll_children
      (Layout.nodup_idsAll_children hnd), ← children_read hs, hread]
    rfl
  have hregistered : p.registry.forTag? "x-a"
      = some { kind := .tagName, value := "x-a", label := "a", handler := newText "a" } := by
    rw [hp, Registry.forTag_registerTag_self _ (by decide +kernel)]
  have hrewriting : rewriteAll (p.rendering (fun _ _ _ => .tree (.text "a")) none)
      [.element { name := "x-a" } [], .text "b"]
      = { trees := [.text "a", .text "b"], rendered := 1 } := by
    simp [rewriteAll, rewrite, rendering, Tree.name?, hregistered, replacement, Rewriting.ofTree,
      Rewriting.andThen, Tree.standIns, Tree.withChildren]
  rw [hbefore, hrewriting] at hy hforest
  rw [hroot] at hy hforest
  exact ⟨w', hy, hforest⟩

end Processor

end RichText
