import RichText.Proofs.Heap.DocumentOrder
import RichText.Proofs.Heap.Edits

/-!
Walks through a heap that no bound cuts off.

The way up from a node follows the parents for as long as there are any, and the way down goes
into every child. Here nothing but the heap itself stops them: the rules say one by one how a walk
goes on and how it ends, and a walk ends if it has a result by these rules. In a well-formed heap
all walks end, and find what is found by those that are cut off beyond the number of nodes.

* `Heap.Climbs`, `Heap.Rises`: the way up, from a node that may be missing and from a node; they
  are the same in every heap (`rises_iff_climbs`);
* `not_rises`: among nodes whose parents are among them the way up does not end;
* `Heap.Gathers`: the way down, on which the elements of a class are gathered;
* `WellFormed.climbs_iff`, `WellFormed.gathers_iff`: in a well-formed heap **the walks end**, with
  one result each;
* `WellFormed.walks_agree`: **the upward and the downward view agree**.
-/

namespace RichText

namespace Heap

variable {h : Heap} {c i n root : NodeId} {is found out : List NodeId} {value : String} {met : Bool}

/-! ### The way up -/

/-- Whether `candidate` is met on the way up from a node, if there is one. -/
inductive Climbs (h : Heap) (candidate : NodeId) : Option NodeId → Bool → Prop where
  | gone : Climbs h candidate none false
  | met : Climbs h candidate (some candidate) true
  | up {i : NodeId} {met : Bool} (hne : i ≠ candidate) (hup : Climbs h candidate (h.parent i) met) :
      Climbs h candidate (some i) met

/-- Whether `root` is met on the way up from a node. -/
inductive Rises (h : Heap) (root : NodeId) : NodeId → Bool → Prop where
  | met : Rises h root root true
  | up {i p : NodeId} {met : Bool} (hne : i ≠ root) (hp : h.parent i = some p)
      (hup : Rises h root p met) : Rises h root i met
  | top {i : NodeId} (hne : i ≠ root) (hp : h.parent i = none) : Rises h root i false

lemma climbs_none_iff : h.Climbs c none met ↔ met = false := by
  constructor
  · rintro ⟨⟩
    rfl
  · rintro rfl
    exact .gone

/-- At a node the way up ends if it is the one looked for, and else goes on with its parent. -/
lemma climbs_some_iff :
    h.Climbs c (some i) met ↔ if i = c then met = true else h.Climbs c (h.parent i) met := by
  split
  · next hi =>
      subst hi
      constructor
      · intro hc
        cases hc with
        | met => rfl
        | up hne => exact absurd rfl hne
      · rintro rfl
        exact .met
  · next hne =>
      constructor
      · intro hc
        cases hc with
        | met => exact absurd rfl hne
        | up _ hup => exact hup
      · exact .up hne

/-- **The two ways up are the same** in every heap, whether or not they end. -/
theorem rises_iff_climbs : h.Rises root i met ↔ h.Climbs root (some i) met := by
  constructor
  · intro hr
    induction hr with
    | met => exact .met
    | up hne hp _ ih => exact .up hne (hp ▸ ih)
    | top hne hp => exact .up hne (hp ▸ .gone)
  · intro hc
    generalize hstart : some i = start at hc
    induction hc generalizing i with
    | gone => simp at hstart
    | met =>
        obtain rfl := Option.some.inj hstart
        exact .met
    | @up j met hne hup ih =>
        obtain rfl := Option.some.inj hstart
        cases hp : h.parent i with
        | none =>
            rw [hp, climbs_none_iff] at hup
            exact hup ▸ .top hne hp
        | some p => exact .up hne hp (ih hp.symm)

/-- Among nodes whose parents are among them, other than the one looked for, the way up does not
end. -/
theorem not_rises {P : NodeId → Prop}
    (hP : ∀ k, P k → k ≠ root ∧ ∃ p, h.parent k = some p ∧ P p) (hi : P i) :
    ¬ h.Rises root i met := by
  intro hr
  induction hr with
  | met => exact (hP root hi).1 rfl
  | @up k p met _ hp _ ih =>
      obtain ⟨-, q, hq, hPq⟩ := hP k hi
      rw [hp, Option.some.injEq] at hq
      exact ih (hq ▸ hPq)
  | @top k _ hp =>
      obtain ⟨-, q, hq, -⟩ := hP k hi
      simp [hp] at hq

namespace WellFormed

/-- Another node is looked for above a node as it is from the parent on. -/
lemma isAncestorOrSelf_eq (hwf : h.WellFormed) (hne : i ≠ c) :
    h.isAncestorOrSelf c i = (h.parent i).any (h.isAncestorOrSelf c) := by
  rw [Bool.eq_iff_iff, isAncestorOrSelf_iff hwf]
  constructor
  · intro hr
    rcases Relation.ReflTransGen.cases_tail hr with heq | ⟨p, hcp, hpi⟩
    · exact absurd heq hne
    · rw [hwf.parent_of_mem hpi]
      exact (isAncestorOrSelf_iff hwf).mpr hcp
  · intro hany
    cases hp : h.parent i with
    | none => simp [hp] at hany
    | some p =>
        rw [hp] at hany
        exact ((isAncestorOrSelf_iff hwf).mp hany).tail (hwf.mem_of_parent hp)

/-- **The way up ends** in a well-formed heap, and says whether the node is an ancestor. -/
theorem climbs_iff (hwf : h.WellFormed) :
    h.Climbs c (some i) met ↔ met = h.isAncestorOrSelf c i := by
  induction i using hwf.above_induction with
  | _ i ih =>
      rw [climbs_some_iff]
      split
      · next hi =>
          subst hi
          rw [(isAncestorOrSelf_iff hwf).mpr .refl]
      · next hne =>
          rw [hwf.isAncestorOrSelf_eq hne]
          cases hp : h.parent i with
          | none => rw [climbs_none_iff, Option.any_none]
          | some p => rw [ih p hp, Option.any_some]

end WellFormed

/-! ### The way down -/

mutual

/-- What has been found when the nodes of a class at or below a node have been put behind those
found before. -/
inductive Gathers (h : Heap) (value : String) : List NodeId → NodeId → List NodeId → Prop where
  | node {found out : List NodeId} {i : NodeId}
      (hall : GathersAll h value (if h.hasClass i value then found ++ [i] else found)
        (h.children i) out) :
      Gathers h value found i out

/-- What has been found when that has been done for several nodes in order. -/
inductive GathersAll (h : Heap) (value : String) :
    List NodeId → List NodeId → List NodeId → Prop where
  | nil {found : List NodeId} : GathersAll h value found [] found
  | cons {found next out : List NodeId} {i : NodeId} {is : List NodeId}
      (hi : Gathers h value found i next) (his : GathersAll h value next is out) :
      GathersAll h value found (i :: is) out

end

lemma gathers_iff_children :
    h.Gathers value found i out ↔
      h.GathersAll value (if h.hasClass i value then found ++ [i] else found) (h.children i) out :=
  ⟨fun ⟨hall⟩ => hall, .node⟩

/-- If all is gathered below each of some nodes, then also one after the other. -/
lemma gathersAll_iff (his : ∀ i ∈ is, ∀ found out,
      h.Gathers value found i out ↔ out = found ++ h.withClass value i) :
    h.GathersAll value found is out ↔ out = found ++ is.flatMap (h.withClass value) := by
  induction is generalizing found with
  | nil =>
      rw [List.flatMap_nil, List.append_nil]
      constructor
      · rintro ⟨⟩
        rfl
      · rintro rfl
        exact .nil
  | cons i is ih =>
      obtain ⟨hi, his⟩ := List.forall_mem_cons.mp his
      rw [List.flatMap_cons, ← List.append_assoc, ← ih his]
      constructor
      · intro hall
        cases hall with
        | cons hfirst hrest => rwa [(hi _ _).mp hfirst] at hrest
      · exact .cons ((hi _ _).mpr rfl)

namespace WellFormed

/-- **The way down ends** in a well-formed heap, with what is found for the class behind what was
found before. -/
theorem gathers_iff (hwf : h.WellFormed) :
    h.Gathers value found i out ↔ out = found ++ h.withClass value i := by
  induction i using hwf.below_induction generalizing found out with
  | _ i ih =>
      rw [gathers_iff_children, gathersAll_iff fun j hj _ _ => ih j hj, hwf.withClass_eq]
      split <;> simp

/-! ### Both views -/

/-- **The upward and the downward view of a heap agree.** The two ways up end, and meet a node
exactly if the start is reached from it through child lists; the place of a node is the child list
that names it, with its index there; and the way down ends with the nodes at or below its start
whose first attribute named `class` has the value, each once and in document order. -/
theorem walks_agree (hwf : h.WellFormed) (c n root : NodeId) (value : String) :
    (∀ met, h.Climbs c (some n) met ↔ met = h.isAncestorOrSelf c n)
      ∧ (∀ met, h.Rises c n met ↔ met = h.isAncestorOrSelf c n)
      ∧ (h.isAncestorOrSelf c n = true ↔ h.Reaches c n)
      ∧ (∀ p index, h.position n = some { parent := p, index }
          ↔ (h.children p)[index]? = some n)
      ∧ (∀ found out, h.Gathers value found root out ↔ out = found ++ h.withClass value root)
      ∧ ∀ l, l = h.withClass value root ↔ l.Nodup ∧ l.Pairwise h.Precedes ∧
          ∀ k, k ∈ l ↔ h.Reaches root k ∧ (h.attributes k).lookup "class" = some value :=
  ⟨fun _ => hwf.climbs_iff, fun _ => rises_iff_climbs.trans hwf.climbs_iff,
    isAncestorOrSelf_iff hwf, fun _ _ => hwf.position_eq_some_iff, fun _ _ => hwf.gathers_iff,
    fun _ => hwf.eq_withClass_iff⟩

/-- An element moved into its later sibling, so that it comes behind it. -/
theorem walks_agree_moved :
    let noted : Element := { name := "b", attributes := [{ name := "class", value := "c" }] }
    let t : Tree := .element noted [.element noted [.text "x"], .element noted []]
    let h := (Heap.plant {} t).1.appendChild 3 1
    h.WellFormed ∧ h.Climbs 3 (some 2) true ∧ h.Rises 2 3 false
      ∧ h.position 1 = some { parent := 3, index := 0 } ∧ h.Gathers "c" [2] 0 [2, 0, 3, 1] := by
  intro noted t h
  have hplanted : (Heap.plant {} t).1.WellFormed := (wellFormed_empty.plant t).wellFormed
  have hallowed : Edit.Allowed (Heap.plant {} t).1 (.appendChild 3 1) := by
    refine ⟨by decide, by decide, fun hr => ?_⟩
    exact absurd ((isAncestorOrSelf_iff hplanted).mpr hr) (by decide)
  have hwf : h.WellFormed := by simpa only [Edit.apply] using hplanted.apply hallowed
  obtain ⟨hclimbs, -, -, -, hgathers, -⟩ := hwf.walks_agree 3 2 0 "c"
  obtain ⟨-, hrises, -⟩ := hwf.walks_agree 2 3 0 "c"
  obtain ⟨-, -, -, hposition, -⟩ := hwf.walks_agree 0 1 0 "c"
  have hfound : h.withClass "c" 0 = [0, 3, 1] := by
    obtain ⟨h0, h1, h2, h3⟩ : h.children 0 = [3] ∧ h.children 1 = [2] ∧ h.children 2 = []
        ∧ h.children 3 = [1] := by decide
    have hclass : h.hasClass 0 "c" = true ∧ h.hasClass 1 "c" = true ∧ h.hasClass 2 "c" = false
        ∧ h.hasClass 3 "c" = true := by decide
    simp [hwf.withClass_eq, h0, h1, h2, h3, hclass]
  exact ⟨hwf, (hclimbs true).mpr (by decide), (hrises false).mpr (by decide),
    (hposition 3 0).mpr (by decide), (hgathers [2] _).mpr (by rw [hfound]; rfl)⟩

end WellFormed

end Heap

end RichText
