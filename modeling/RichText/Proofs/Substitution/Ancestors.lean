import RichText.Proofs.Substitution.Spliced

/-!
Ancestors as the answer for an element.

An ancestor of an element cannot be put in its place. The test for this is made on the nodes that
are put in, which are the children of a container and any other node itself. A container above the
parent has a child that leads to the parent, and is refused like any other ancestor; but of the
children of the parent itself none does, so that the parent is taken for an answer if it is a
container. It gives its own children then, which leaves all of them where they are.

* `any_standIns_iff`: **the nodes that are refused**, told by the node that was answered;
* `putInPlace_children`: the children of a node in place of one of them change nothing;
* `replaceElement_unchanged`: any node as the answer of a handler that changes nothing.
-/

namespace RichText

namespace Heap

variable {h : Heap} {j n q : NodeId} {as bs : List NodeId}

/-! ### The nodes that are refused -/

/-- What leads to a node from another leads there through a child. -/
lemma exists_mem_children_of_reaches (hr : h.Reaches j q) (hne : j ≠ q) :
    ∃ n ∈ h.children j, h.Reaches n q := by
  rcases Relation.ReflTransGen.cases_head hr with heq | ⟨n, hn, hnq⟩
  · exact absurd heq hne
  · exact ⟨n, hn, hnq⟩

/-- **The nodes that stand for a node are refused** if it is the parent or above it, unless it is
the parent and a container. -/
lemma any_standIns_iff (hwf : h.WellFormed) :
    ((h.standIns j).any fun n => h.isAncestorOrSelf n q) = true
      ↔ h.Reaches j q ∧ ¬ (j = q ∧ h.isContainer q = true) := by
  simp only [List.any_eq_true, isAncestorOrSelf_iff hwf]
  rw [standIns]
  split
  · next hcontainer =>
      constructor
      · rintro ⟨n, hn, hr⟩
        refine ⟨.head hn hr, ?_⟩
        rintro ⟨rfl, -⟩
        exact hwf.not_reaches_parent hn hr
      · rintro ⟨hr, hnot⟩
        refine exists_mem_children_of_reaches hr ?_
        rintro rfl
        exact hnot ⟨rfl, hcontainer⟩
  · next hcontainer =>
      simp only [List.mem_singleton, exists_eq_left]
      refine ⟨fun hr => ⟨hr, ?_⟩, And.left⟩
      rintro ⟨rfl, hc⟩
      exact hcontainer hc

/-! ### The parent as a container -/

/-- The children of a node, taken out and put back, are where they were. -/
lemma WellFormed.insertAt_children (hwf : h.WellFormed) (hch : h.children q = as ++ n :: bs)
    (index : ℕ) : (h.detach n).insertAt q index (as ++ n :: bs) = h := by
  have hwf' := hwf.detach n
  have hq : q < h.size := lt_size_of_child (i := n) (by rw [hch]; simp)
  have hmem : ∀ {k}, k ∈ as ++ n :: bs ↔ h.parent k = some q := fun {k} => by
    rw [hwf.parent_iff, hch]
  have hsize : ∀ k ∈ as ++ n :: bs, k < (h.detach n).size := fun k hk => by
    rw [size_detach]
    exact lt_size_of_parent (hmem.mp hk)
  -- nothing is left below the node, and elsewhere none of its children has stood
  have hgone : ∀ {p}, p ≠ q →
      ((h.detach n).children p).filter (· ∉ as ++ n :: bs) = h.children p := by
    intro p hp
    have hother : ∀ k ∈ h.children p, k ∉ as ++ n :: bs := fun k hk hk' =>
      hp (Option.some.inj ((hwf.parent_of_mem hk).symm.trans (hmem.mp hk')))
    rw [hwf.children_detach, List.filter_eq_self.mpr, List.filter_eq_self.mpr]
    · refine fun k hk => decide_eq_true ?_
      rintro rfl
      exact hother k hk (by simp)
    · exact fun k hk => decide_eq_true (hother k (List.mem_filter.mp hk).1)
  have hempty : ((h.detach n).children q).filter (· ∉ as ++ n :: bs) = [] := by
    rw [hwf.children_detach, hch]
    exact List.filter_eq_nil_iff.mpr fun k hk hnot =>
      of_decide_eq_true hnot (List.mem_filter.mp hk).1
  refine ext_node (by rw [hwf'.size_insertAt, size_detach]) fun k => node_eq_of_bare ?_ ?_ ?_
  · rw [hwf'.bare_insertAt, bare_detach]
  · rw [hwf'.parent_insertAt hsize, parent_detach]
    split
    · next hk => exact (hmem.mp hk).symm
    · next hk =>
        have hkn : k ≠ n := by
          rintro rfl
          exact hk (by simp)
        rw [if_neg hkn]
  · rw [hwf'.children_insertAt (by rwa [size_detach])]
    split
    · next hk =>
        rw [hempty, hk, hch]
        simp
    · next hk => exact hgone hk

end Heap

namespace Processor

open Heap Run

variable {p : Processor} {w w₁ : World} {h : Heap} {r : Registration} {j node q : NodeId}
  {tag : String} {context : Option String}

/-- The children of a node in place of one of them change nothing. -/
lemma putInPlace_children (hwf : h.WellFormed) (hparent : h.parent node = some q) (index : ℕ) :
    putInPlace h node { parent := q, index } (h.children q) = h := by
  obtain ⟨as, bs, hch⟩ := List.append_of_mem (hwf.mem_of_parent hparent)
  have hnot : ∀ k ∈ h.children q, ¬ h.Reaches k q := fun k hk => hwf.not_reaches_parent hk
  rw [putInPlace, if_pos hparent, hwf.replaceWith_eq hch _ hnot]
  split
  · rfl
  · rw [hch]
    exact hwf.insertAt_children hch _

/-- **Any node as the answer of a handler that changes nothing**, for an element below `q`: the
replacement ends, and fails with that error exactly if the node is refused. If it fails, and also
if the node is `q` as a container, the tree is as it was. -/
theorem replaceElement_unchanged (tag : String) (hwf : w.heap.WellFormed)
    (hparent : w.heap.parent node = some q)
    (hran : p.Yields (fun ask => (r.handler node context).run ask) (begun w r node context)
      (.ok (.ok (.tree j)), w₁))
    (hsame : w₁.heap = w.heap) :
    ∃ result w₂, p.Yields (fun ask => p.replaceElement ask r tag node context) w (result, w₂)
      ∧ (result = .error (.invalidReplacement tag)
          ↔ w.heap.Reaches j q ∧ ¬ (j = q ∧ w.heap.isContainer q = true))
      ∧ (result ≠ .error (.invalidReplacement tag) → result = .ok ())
      ∧ (w.heap.Reaches j q → w₂.heap = w.heap) := by
  obtain ⟨as, bs, hch⟩ := List.append_of_mem (hwf.mem_of_parent hparent)
  have hsplice := outcome_putReplacement tag node (some { parent := q, index := as.length }) j w₁
  simp only [hsame] at hsplice
  rw [← hwf.position_eq_some hch] at hsplice
  by_cases hrefused : w.heap.Reaches j q ∧ ¬ (j = q ∧ w.heap.isContainer q = true)
  · rw [if_pos ((any_standIns_iff hwf).mpr hrefused)] at hsplice
    exact ⟨_, _, yields_replaceElement (yields_runHandler hran) hsplice, iff_of_true rfl hrefused,
      fun hne => absurd rfl hne, fun _ => hsame⟩
  · rw [if_neg (mt (any_standIns_iff hwf).mp hrefused)] at hsplice
    refine ⟨_, _, yields_replaceElement (yields_runHandler hran) hsplice,
      iff_of_false (by simp) hrefused, fun _ => rfl, fun hr => ?_⟩
    -- an ancestor that is not refused is the parent, as a container
    obtain ⟨rfl, hcontainer⟩ := not_not.mp fun hnot => hrefused ⟨hr, hnot⟩
    rw [standIns, if_pos hcontainer]
    exact putInPlace_children hwf hparent _

/-- A handler that answers with a fixed node. -/
def answering (j : NodeId) : Handler := fun _ _ => .done (.ok (.tree j))

/-- An element in an element in a document. The inner element cannot be replaced by the outer one,
nor by the document; the outer one by the document is taken to be replaced, and stays. -/
theorem replaceElement_unchanged_document :
    let w : World := { heap := (Heap.plant {} (.document
      [.element { name := "p" } [.element { name := "x-a" } [], .text "b"]])).1 }
    let r (j : NodeId) : Registration := ⟨.tagName, "x-a", "a", answering j⟩
    (∃ w₂, Yields {} (fun ask => replaceElement {} ask (r 1) "x-a" 2 none) w
        (.error (.invalidReplacement "x-a"), w₂) ∧ w₂.heap = w.heap)
      ∧ (∃ w₂, Yields {} (fun ask => replaceElement {} ask (r 0) "x-a" 2 none) w
        (.error (.invalidReplacement "x-a"), w₂) ∧ w₂.heap = w.heap)
      ∧ ∃ w₂, Yields {} (fun ask => replaceElement {} ask (r 0) "p" 1 none) w (.ok (), w₂)
        ∧ w₂.heap = w.heap := by
  intro w r
  have hwf : w.heap.WellFormed := (wellFormed_empty.plant (.document
    [.element { name := "p" } [.element { name := "x-a" } [], .text "b"]])).wellFormed
  have hran : ∀ i j, Yields {} (fun ask => ((r j).handler i none).run ask) (begun w (r j) i none)
      (.ok (.ok (.tree j)), begun w (r j) i none) := fun i j => Yields.of_outcome fun _ => rfl
  have hreaches : ∀ {j q : NodeId}, w.heap.isAncestorOrSelf j q = true → w.heap.Reaches j q :=
    fun hc => (isAncestorOrSelf_iff hwf).mp hc
  obtain ⟨result₁, w₁, hy₁, hfails₁, -, hsame₁⟩ :=
    replaceElement_unchanged (q := 1) "x-a" hwf (by decide) (hran 2 1) rfl
  obtain ⟨result₂, w₂, hy₂, hfails₂, -, hsame₂⟩ :=
    replaceElement_unchanged (q := 1) "x-a" hwf (by decide) (hran 2 0) rfl
  obtain ⟨result₃, w₃, hy₃, hfails₃, hends₃, hsame₃⟩ :=
    replaceElement_unchanged (q := 0) "p" hwf (by decide) (hran 1 0) rfl
  have hr₁ : w.heap.Reaches 1 1 := hreaches (by decide)
  have hr₂ : w.heap.Reaches 0 1 := hreaches (by decide)
  have hr₃ : w.heap.Reaches 0 0 := hreaches (by decide)
  obtain rfl := hfails₁.mpr ⟨hr₁, by decide⟩
  obtain rfl := hfails₂.mpr ⟨hr₂, by decide⟩
  obtain rfl := hends₃ fun hc => (hfails₃.mp hc).2 ⟨rfl, by decide⟩
  exact ⟨⟨w₁, hy₁, hsame₁ hr₁⟩, ⟨w₂, hy₂, hsame₂ hr₂⟩, w₃, hy₃, hsame₃ hr₃⟩

end Processor

end RichText
