import RichText.Proofs.Heap.Inserting
import RichText.Proofs.Substitution.Spliced

/-!
Elements that their handlers have moved.

The place of an element is noted before its handler runs, as a number of siblings. If the handler
moves the element, the replacement goes in behind that many of the siblings that are left, so that
it is where the element was only if that place is found among them.

* `parent_ne_of_siblings`: an element that is no longer among its siblings;
* `splice_moved`: the answer put at the place that has been noted;
* `replaceElement_moved`: **where the replacement of a moved element stands**.
-/

namespace RichText

namespace Processor

open Heap Run

variable {p : Processor} {w w₁ : World} {h : Heap} {r : Registration} {node q : NodeId}
  {tag : String} {context : Option String} {answer : Rendering}
  {as bs as' bs' nodes : List NodeId}

/-- Whether an answer is accepted: markup with faults is not if fragments are strict. -/
def Accepts (p : Processor) (answer : Rendering) : Prop :=
  ∀ s, answer = .markup s → p.options.strictFragments = true → (readMarkup s).2 = []

/-- A node is not below a parent of which only some of its siblings are left as children. -/
lemma parent_ne_of_siblings {h' : Heap} (hwf : h.WellFormed) (hch : h.children q = as ++ node :: bs)
    (hwf' : h'.WellFormed) (has : as'.Sublist as) (hbs : bs'.Sublist bs)
    (hch' : h'.children q = as' ++ bs') : h'.parent node ≠ some q := by
  intro hparent
  have hnd := hwf.nodup q
  rw [hch] at hnd
  have hmem := hwf'.mem_of_parent hparent
  rw [hch', List.mem_append] at hmem
  rcases hmem with hmem | hmem
  · exact (List.nodup_append.mp hnd).2.2 node (has.subset hmem) node (by simp) rfl
  · exact (List.nodup_cons.mp (List.nodup_append.mp hnd).2.1).1 (hbs.subset hmem)

/-- A node as the answer for an element that is below another parent is inserted at the place that
has been noted. -/
lemma outcome_putReplacement_moved {j : NodeId} {anchor : Position} (hwf : w.heap.WellFormed)
    (hmoved : w.heap.parent node ≠ some anchor.parent)
    (hnot : ∀ n ∈ w.heap.standIns j, ¬ w.heap.Reaches n anchor.parent) :
    (putReplacement tag node (some anchor) j).outcome w
      = some (.ok (), { w with
          heap := w.heap.insertAt anchor.parent anchor.index (w.heap.standIns j) }) := by
  have hany : ((w.heap.standIns j).any fun n => w.heap.isAncestorOrSelf n anchor.parent) = false :=
    List.any_eq_false.mpr fun n hn hc => hnot n hn ((isAncestorOrSelf_iff hwf).mp hc)
  rw [outcome_putReplacement]
  simp only [hany, Bool.false_eq_true, if_false, putInPlace, if_neg hmoved]

/-- **An answer for an element that is below another parent** is inserted at the place that has
been noted: the nodes that it offers, in the heap in which it offers them. -/
lemma splice_moved (p : Processor) (tag : String) (anchor : Position) (hwf : w.heap.WellFormed)
    (hanchor : anchor.parent < w.heap.size) (hmoved : w.heap.parent node ≠ some anchor.parent)
    (hoffered : offered w.heap answer = some (h, nodes))
    (hnot : ∀ n ∈ nodes, ¬ h.Reaches n anchor.parent) (haccepts : p.Accepts answer) :
    h.WellFormed ∧ h.children anchor.parent = w.heap.children anchor.parent
      ∧ anchor.parent < h.size
      ∧ (p.splice tag node (some anchor) answer).outcome w
        = some (.ok (), { w with heap := h.insertAt anchor.parent anchor.index nodes }) := by
  cases answer with
  | keep => simp [offered] at hoffered
  | tree j =>
      obtain ⟨rfl, rfl⟩ := by simpa [offered] using hoffered
      exact ⟨hwf, rfl, hanchor, outcome_putReplacement_moved hwf hmoved hnot⟩
  | markup s =>
      obtain ⟨rfl, rfl⟩ := by simpa [offered] using hoffered
      have hpl := hwf.plant (.document (readMarkup s).1)
      have hchildren := children_congr (hpl.extends_.node_eq anchor.parent hanchor)
      have hfragment : (p.fragment tag s).outcome w
          = some (.ok (w.heap.plant (.document (readMarkup s).1)).2,
            { w with heap := (w.heap.plant (.document (readMarkup s).1)).1 }) := by
        rw [outcome_fragment, if_neg, outcome_plant]
        simpa using haccepts s rfl
      refine ⟨hpl.wellFormed, hchildren, lt_of_lt_of_le hanchor hpl.extends_.size_le, ?_⟩
      rw [splice, outcome_bind_ok hfragment]
      refine outcome_putReplacement_moved (w := { w with heap := _ }) hpl.wellFormed ?_ hnot
      -- the new nodes leave the child list of the parent as it was
      intro hparent
      have hmem := hpl.wellFormed.mem_of_parent hparent
      rw [hchildren] at hmem
      exact hmoved (hwf.parent_of_mem hmem)

/-- **The replacement of an element that its handler has moved** is put in, and stands where the
element was, between what is left of the siblings in front of it (`as'`) and behind it (`bs'`),
exactly if that place is found among these by the number of siblings that were in front. -/
theorem replaceElement_moved (tag : String) (hwf : w.heap.WellFormed)
    (hch : w.heap.children q = as ++ node :: bs)
    (hran : p.Yields (fun ask => (r.handler node context).run ask) (begun w r node context)
      (.ok (.ok answer), w₁))
    (hwf₁ : w₁.heap.WellFormed) (hq : q < w₁.heap.size) (has : as'.Sublist as)
    (hbs : bs'.Sublist bs) (hch₁ : w₁.heap.children q = as' ++ bs')
    (hoffered : offered w₁.heap answer = some (h, nodes)) (hnot : ∀ n ∈ nodes, ¬ h.Reaches n q)
    (haccepts : p.Accepts answer) :
    ∃ w₂, p.Yields (fun ask => p.replaceElement ask r tag node context) w (.ok (), w₂)
      ∧ (w₂.heap.children q = between as' nodes bs' ↔ PlaceFound as' bs' as.length nodes) := by
  have hmoved := parent_ne_of_siblings hwf hch hwf₁ has hbs hch₁
  obtain ⟨hwfh, hchildren, hqh, hsplice⟩ := splice_moved p tag
    { parent := q, index := as.length } hwf₁ hq hmoved hoffered hnot haccepts
  rw [← hwf.position_eq_some hch] at hsplice
  refine ⟨_, yields_replaceElement (yields_runHandler hran) hsplice, ?_⟩
  exact hwfh.children_insertAt_eq_between_iff hqh (hchildren.trans hch₁) has.length_le nodes

/-- A handler that puts nodes and the element behind them into a new element, with which it
answers. -/
def gathered (is : List NodeId) : Handler := fun node _ =>
  .inspect fun h => .change (·.push { content := .element { name := "x-b" } })
    (.change (fun h' => (is ++ [node]).foldl (fun h' i => h'.appendChild h.size i) h')
      (.done (.ok (.tree h.size))))

/-- An element between two texts. A handler that puts it into a new element has that where the
element was; one that takes the text in front of it along has the new element behind the other
text. -/
theorem replaceElement_moved_gathered :
    let w : World :=
      { heap := (Heap.plant {} (.document [.text "a", .element { name := "x-a" } [], .text "b"])).1 }
    let r (is : List NodeId) : Registration := ⟨.tagName, "x-a", "a", gathered is⟩
    (∃ w₂, Yields {} (fun ask => replaceElement {} ask (r []) "x-a" 2 none) w (.ok (), w₂)
        ∧ w₂.heap.children 0 = between [1] [4] [3])
      ∧ ∃ w₂, Yields {} (fun ask => replaceElement {} ask (r [1]) "x-a" 2 none) w (.ok (), w₂)
        ∧ w₂.heap.children 0 ≠ between [] [4] [3] := by
  intro w r
  have hwf : w.heap.WellFormed := (wellFormed_empty.plant
    (.document [.text "a", .element { name := "x-a" } [], .text "b"])).wellFormed
  -- what the handlers leave, as runs of edits
  let fresh := w.heap.push { content := .element { name := "x-b" } }
  let alone := fresh.appendChild 4 2
  let both := (fresh.appendChild 4 1).appendChild 4 2
  have hfresh : fresh.WellFormed := hwf.push rfl rfl
  have halone : alone.WellFormed := hfresh.apply (e := .appendChild 4 2) ⟨by decide, by decide,
    fun hr => absurd ((isAncestorOrSelf_iff hfresh).mpr hr) (by decide)⟩
  have hfirst : (fresh.appendChild 4 1).WellFormed := hfresh.apply (e := .appendChild 4 1)
    ⟨by decide, by decide, fun hr => absurd ((isAncestorOrSelf_iff hfresh).mpr hr) (by decide)⟩
  have hboth : both.WellFormed := hfirst.apply (e := .appendChild 4 2) ⟨by decide, by decide,
    fun hr => absurd ((isAncestorOrSelf_iff hfirst).mpr hr) (by decide)⟩
  have hran₁ : Yields {} (fun ask => ((r []).handler 2 none).run ask) (begun w (r []) 2 none)
      (.ok (.ok (.tree 4)), { begun w (r []) 2 none with heap := alone }) :=
    Yields.of_outcome fun _ => rfl
  have hran₂ : Yields {} (fun ask => ((r [1]).handler 2 none).run ask) (begun w (r [1]) 2 none)
      (.ok (.ok (.tree 4)), { begun w (r [1]) 2 none with heap := both }) :=
    Yields.of_outcome fun _ => rfl
  have hfree₁ : ∀ n ∈ [4], ¬ alone.Reaches n 0 := fun n hn hr => by
    rw [List.mem_singleton.mp hn, ← isAncestorOrSelf_iff halone] at hr
    exact absurd hr (by decide)
  have hfree₂ : ∀ n ∈ [4], ¬ both.Reaches n 0 := fun n hn hr => by
    rw [List.mem_singleton.mp hn, ← isAncestorOrSelf_iff hboth] at hr
    exact absurd hr (by decide)
  have hoffered₁ : offered alone (.tree 4) = some (alone, [4]) := by
    rw [offered, show alone.standIns 4 = [4] by decide]
  have hoffered₂ : offered both (.tree 4) = some (both, [4]) := by
    rw [offered, show both.standIns 4 = [4] by decide]
  have haccepts : Accepts {} (.tree 4) := by simp [Accepts]
  have hchildren : w.heap.children 0 = [1] ++ 2 :: [3] := by decide
  obtain ⟨w₂, hy₂, hplace₂⟩ := replaceElement_moved "x-a" hwf hchildren hran₁ halone (by decide)
    (List.Sublist.refl [1]) (List.Sublist.refl [3]) (by decide) hoffered₁ hfree₁ haccepts
  obtain ⟨w₃, hy₃, hplace₃⟩ := replaceElement_moved "x-a" hwf hchildren hran₂ hboth (by decide)
    (List.nil_sublist [1]) (List.Sublist.refl [3]) (by decide) hoffered₂ hfree₂ haccepts
  exact ⟨⟨w₂, hy₂, hplace₂.mpr (by simp [PlaceFound])⟩, w₃, hy₃,
    mt hplace₃.mp (by simp [PlaceFound])⟩

end Processor

end RichText
