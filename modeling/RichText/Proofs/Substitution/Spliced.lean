import RichText.Proofs.Heap.Ownership
import RichText.Proofs.Heap.Splicing
import RichText.Proofs.Substitution.Splice

/-!
What a splice does to the heap that a handler leaves.

The handler may have moved the element, its siblings or their parent. Whatever it has done, as
long as it leaves a well-formed heap and the node that was the parent, a splice either fails and
changes nothing, or puts the nodes of the answer side by side below that parent (`Placed`).

* `WellFormed.putInPlace`: both ways to put nodes in;
* `placed_putReplacement`: a node as the answer;
* `placed_splice`: any answer;
* `Processor.Spliced`: what is left when the nodes have been given up that were held meanwhile.
-/

namespace RichText

namespace Heap

variable {h : Heap} {i p q : ℕ}

/-- A node that is no container is a node of the heap. -/
lemma lt_size_of_mem_standIns (hwf : h.WellFormed) {n j : NodeId} (hn : n ∈ h.standIns j) :
    n < h.size := by
  rw [standIns] at hn
  split at hn
  · exact hwf.lt_size_of_mem hn
  · next hc =>
      rw [List.mem_singleton] at hn
      subst hn
      by_contra hlt
      exact hc (by rw [isContainer, content, node_of_size_le (Nat.le_of_not_lt hlt)])

lemma nodup_standIns (hwf : h.WellFormed) (j : NodeId) : (h.standIns j).Nodup := by
  rw [standIns]
  split
  · exact hwf.nodup j
  · exact List.nodup_singleton j

/-- Nodes that do not lead to `q` stand side by side below it after a move. -/
lemma WellFormed.exists_children_insertAt (hwf : h.WellFormed) (hq : q < h.size) (index : ℕ)
    (is : List NodeId) :
    ∃ as bs, (h.insertAt q index is).children q = as ++ is ++ bs
      ∧ ∀ k, k ∈ as ++ bs → k ∈ h.children q := by
  refine ⟨((h.children q).filter (· ∉ is)).take (h.insertionPlace q index is),
    ((h.children q).filter (· ∉ is)).drop (h.insertionPlace q index is), ?_, fun k hk => ?_⟩
  · rw [hwf.children_insertAt hq, if_pos rfl]
  · rw [List.take_append_drop] at hk
    exact (List.mem_filter.mp hk).1

/-- **Both ways to put nodes in place of `i`** put them side by side below `q`. The heap stays
well-formed, `i` has left `q` unless it is among the nodes, and the replacement of a node that
stands below `q` is not refused. -/
theorem WellFormed.putInPlace (hwf : h.WellFormed) (index : ℕ) (hq : q < h.size)
    {is : List NodeId} (hnd : is.Nodup) (his : ∀ k ∈ is, k < h.size)
    (ha : ∀ k ∈ is, ¬ h.Reaches k q) :
    (Processor.putInPlace h i { parent := q, index } is).WellFormed
      ∧ (Processor.putInPlace h i { parent := q, index } is).size = h.size
      ∧ (∃ as bs, (Processor.putInPlace h i { parent := q, index } is).children q = as ++ is ++ bs)
      ∧ (i ∈ (Processor.putInPlace h i { parent := q, index } is).children q → i ∈ is)
      ∧ (h.parent i = some q → (h.replaceWith i is).2 = true) := by
  by_cases hi : h.parent i = some q
  · obtain ⟨as, bs, hch⟩ := List.append_of_mem (hwf.mem_of_parent hi)
    have hreplace := hwf.replaceWith_eq hch is ha
    have hput : Processor.putInPlace h i { parent := q, index } is = (h.replaceWith i is).1 := by
      rw [Processor.putInPlace, if_pos hi]
    rw [hput, hreplace]
    by_cases hself : is = [i]
    · rw [if_pos hself]
      refine ⟨hwf, rfl, ⟨as, bs, ?_⟩, fun _ => by simp [hself], fun _ => rfl⟩
      rw [hch, hself]
      simp
    · rw [if_neg hself]
      have hwf' := hwf.detach i
      have hq' : q < (h.detach i).size := by simpa using hq
      obtain ⟨as', bs', hch', hsub⟩ := hwf'.exists_children_insertAt hq' as.length is
      refine ⟨?_, by rw [hwf'.size_insertAt, size_detach], ⟨as', bs', hch'⟩, fun hmem => ?_,
        fun _ => rfl⟩
      · refine hwf'.insertAt hq' _ hnd (by simpa using his) fun k hk hr => ha k hk ?_
        exact hwf.reaches_of_detachAll (show (h.detachAll [i]).Reaches _ _ from hr)
      · by_contra hnot
        rw [hch'] at hmem
        have hold := hsub i (by simp only [List.mem_append] at hmem ⊢; tauto)
        rw [hwf.children_detach] at hold
        simp at hold
  · have hput : Processor.putInPlace h i { parent := q, index } is = h.insertAt q index is := by
      rw [Processor.putInPlace, if_neg hi]
    rw [hput]
    obtain ⟨as, bs, hch, hsub⟩ := hwf.exists_children_insertAt hq index is
    refine ⟨hwf.insertAt hq index hnd his ha, hwf.size_insertAt .., ⟨as, bs, hch⟩, fun hmem => ?_,
      fun hp => absurd hp hi⟩
    by_contra hnot
    rw [hch] at hmem
    have hold := hsub i (by simp only [List.mem_append] at hmem ⊢; tauto)
    exact hi (hwf.parent_of_mem hold)

end Heap

namespace Processor

open Heap Run

variable {p : Processor} {w w' : World} {node : NodeId} {tag : String}

/-- The heap in which the nodes of an answer stand, and these nodes. -/
def offered (h : Heap) : Rendering → Option (Heap × List NodeId)
  | .keep => none
  | .markup s =>
      some ((h.plant (.document (readMarkup s).1)).1,
        (h.plant (.document (readMarkup s).1)).1.standIns (h.plant (.document (readMarkup s).1)).2)
  | .tree j => some (h, h.standIns j)

/-- **What a splice does** to the heap `h` that a handler has left, for an element that had the
given parent when its handler started: the heap is well-formed. With an error it is as the handler
left it. Otherwise the nodes of the answer stand side by side, in order, below the parent that
the element had; the element is not below it unless it is one of them; and if it was replaced
where it stood, this has not been refused. -/
structure Placed (node : NodeId) (parent? : Option NodeId) (answer : Rendering) (h : Heap)
    (result : Except Failure Unit) (h' : Heap) : Prop where
  wellFormed : h'.WellFormed
  size_le : h.size ≤ h'.size
  of_error : ∀ e, result = .error e → h' = h
  of_ok : result = .ok () → ∀ q, parent? = some q → ∀ h₁ nodes, offered h answer = some (h₁, nodes) →
    (∃ as bs, h'.children q = as ++ nodes ++ bs)
      ∧ (node ∈ h'.children q → node ∈ nodes)
      ∧ (h₁.parent node = some q → (h₁.replaceWith node nodes).2 = true)

variable {anchor : Option Position} {result : Except Failure Unit}

/-- A node put in place of another that stood below a node of the heap. -/
lemma placed_putReplacement {j : NodeId} (hwf : w.heap.WellFormed)
    (hanchor : ∀ place, anchor = some place → place.parent < w.heap.size)
    (hout : (putReplacement tag node anchor j).outcome w = some (result, w')) :
    Placed node (anchor.map (·.parent)) (.tree j) w.heap result w'.heap := by
  rw [outcome_putReplacement] at hout
  cases anchor with
  | none =>
      obtain ⟨rfl, rfl⟩ := by simpa using hout
      exact ⟨hwf, le_rfl, by simp, by simp⟩
  | some place =>
      dsimp only at hout
      split at hout
      · obtain ⟨rfl, rfl⟩ := by simpa using hout
        exact ⟨hwf, le_rfl, by simp, by simp⟩
      · next hany =>
          have hover : ∀ n ∈ w.heap.standIns j, ¬ w.heap.Reaches n place.parent := fun n hn hr =>
            hany (List.any_eq_true.mpr ⟨n, hn, (isAncestorOrSelf_iff hwf).mpr hr⟩)
          obtain ⟨hwf', hsize, hside, hleft, hdone⟩ := hwf.putInPlace place.index (i := node)
            (hanchor place rfl) (nodup_standIns hwf j) (fun k hk => lt_size_of_mem_standIns hwf hk)
            hover
          obtain ⟨rfl, rfl⟩ := by simpa using hout
          refine ⟨hwf', hsize.ge, by simp, fun _ q hq h₁ nodes hoff => ?_⟩
          obtain rfl := Option.some.inj hq
          obtain ⟨rfl, rfl⟩ := by simpa [offered] using hoff
          exact ⟨hside, hleft, hdone⟩

/-- Markup is never above the place in which it is put. -/
lemma ok_of_putReplacement_plant {h : Heap} {ts : List Tree} (hwf : h.WellFormed)
    (hanchor : ∀ place, anchor = some place → place.parent < h.size)
    (hheap : w.heap = (h.plant (.document ts)).1)
    (hout : (putReplacement tag node anchor (h.plant (.document ts)).2).outcome w
      = some (result, w')) : result = .ok () := by
  have hpl := hwf.plant (.document ts)
  rw [← hheap] at hpl
  obtain ⟨u, hid, hu, hnd, hnew, -⟩ := hpl.carries
  obtain ⟨us, hstand, -, -, hsub, -⟩ := standIns_of_carries hu hnd
  rw [hid] at hstand
  rw [outcome_putReplacement, hstand] at hout
  cases anchor with
  | none =>
      obtain ⟨rfl, -⟩ := by simpa using hout
      rfl
  | some place =>
      dsimp only at hout
      split at hout
      · next hany =>
          obtain ⟨n, hn, hr⟩ := List.any_eq_true.mp hany
          exact absurd ((isAncestorOrSelf_iff hpl.wellFormed).mp hr)
            (hpl.extends_.not_reaches hwf hpl.wellFormed (hnew n (hsub (Layout.id_mem_idsAll hn)))
              (hanchor place rfl))
      · obtain ⟨rfl, -⟩ := by simpa using hout
        rfl

/-- **Every splice** does what `Placed` says. -/
theorem placed_splice {answer : Rendering} (hwf : w.heap.WellFormed)
    (hanchor : ∀ place, anchor = some place → place.parent < w.heap.size)
    (hout : (p.splice tag node anchor answer).outcome w = some (result, w')) :
    Placed node (anchor.map (·.parent)) answer w.heap result w'.heap := by
  cases answer with
  | keep =>
      rw [splice, outcome_pure, Option.some.injEq, Prod.mk.injEq] at hout
      obtain ⟨rfl, rfl⟩ := hout
      exact ⟨hwf, le_rfl, by simp, by simp [offered]⟩
  | tree j => exact placed_putReplacement hwf hanchor hout
  | markup s =>
      rw [splice, outcome_bind, outcome_fragment] at hout
      split at hout
      · obtain ⟨rfl, rfl⟩ := by simpa using hout
        exact ⟨hwf, le_rfl, by simp, by simp⟩
      · have hpl := hwf.plant (.document (readMarkup s).1)
        have hext := hpl.extends_
        have hput := placed_putReplacement (w := { w with heap := _ }) hpl.wellFormed
          (fun place hplace => lt_of_lt_of_le (hanchor place hplace) hext.size_le) hout
        refine ⟨hput.wellFormed, hext.size_le.trans hput.size_le, fun e he => ?_,
          fun hok q hq h₁ nodes hoff => ?_⟩
        · rw [ok_of_putReplacement_plant (w := { w with heap := _ }) hwf hanchor rfl hout] at he
          simp at he
        · obtain ⟨rfl, rfl⟩ := by simpa [offered] using hoff
          exact hput.of_ok hok q hq _ _ rfl

/-- **What a splice has done** when the nodes have been given up that were held for it alone: the
nodes are placed as `Placed` says, and afterwards nothing has changed that others hold, or that is
below what they hold. -/
def Spliced (held : Set NodeId) (node : NodeId) (parent? : Option NodeId) (answer : Rendering)
    (h : Heap) (result : Except Failure Unit) (h' : Heap) : Prop :=
  ∃ h₁, Placed node parent? answer h result h₁ ∧ Shed held h₁ h'

end Processor

end RichText
