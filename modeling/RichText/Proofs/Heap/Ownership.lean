import Mathlib.Data.Set.Insert
import RichText.Proofs.Heap.WellFormed

/-!
Nodes that nobody holds any more.

A node lives as long as somebody holds it, or a node that lives owns it: has it for a child, or
keeps it as the contents of a template. When the last hold on a node is given up, it dies, and
everything below it is taken apart, also what lives on because somebody holds it (`Heap.release`).

* `Heap.Owner`, `Heap.Owns`: what lives by what;
* `Heap.Lost`, `Heap.Dies`: the node that is given up, and the nodes below it;
* `Heap.Clean`: a node can be given up without anything below it living on;
* `Heap.Shed`: what the giving up of nodes leaves as it was, for those who hold others;
* `WellFormed.shed_release`: **giving up nodes does no harm** as long as it is clean;
* `WellFormed.release_unseen_iff`: **and only then**: what lives on is as it was exactly if it is
  clean.
-/

namespace RichText

namespace Heap

variable {h h' h'' : Heap} {held : Set NodeId} {a b i j t x : NodeId}

/-! ### What lives by what -/

/-- Whether `b` lives if `a` does: it is a child of `a`, or the contents of the template `a`. -/
def Owner (h : Heap) (a b : NodeId) : Prop :=
  b ∈ h.children a ∨ (h.node a).contents = some b

/-- Whether `b` is `a` or below it, contents of templates included. -/
def Owns (h : Heap) (a b : NodeId) : Prop := Relation.ReflTransGen h.Owner a b

/-- Whether a node dies when a hold on it is given up: it is not among those held otherwise, and
no node owns it. -/
def Lost (h : Heap) (held : Set NodeId) (t : NodeId) : Prop :=
  t ∉ held ∧ ∀ a, ¬ h.Owner a t

/-- Whether `x` dies when a hold on `t` is given up: it is below `t`, which dies, nobody holds it,
and it has no owner that is not below `t`. -/
def Dies (h : Heap) (held : Set NodeId) (t x : NodeId) : Prop :=
  h.Lost held t ∧ h.Owns t x ∧ x ∉ held ∧ ∀ a, h.Owner a x → h.Owns t a

open Classical in
/-- The heap when a hold on `t` has been given up, with the nodes that are held otherwise. If `t`
dies, all nodes below it lose their children and their contents, and a parent that has died is no
parent any more. -/
noncomputable def release (h : Heap) (held : Set NodeId) (t : NodeId) : Heap :=
  if h.Lost held t then
    { nodes := h.nodes.mapIdx fun i n =>
        { n with
          parent := n.parent.filter fun p => ¬ h.Dies held t p
          children := if h.Owns t i then [] else n.children
          contents := if h.Owns t i then none else n.contents } }
  else h

/-- **A node is given up cleanly** if it lives on, or if everything below it dies with it. -/
def Clean (h : Heap) (held : Set NodeId) (t : NodeId) : Prop :=
  h.Lost held t → ∀ x, h.Owns t x → h.Dies held t x

lemma release_of_not_lost (hlost : ¬ h.Lost held t) : h.release held t = h := if_neg hlost

/-- A node that somebody else holds does not die. -/
lemma not_lost_of_mem (ht : t ∈ held) : ¬ h.Lost held t := fun hlost => hlost.1 ht

/-- A node that dies dies, too, when less is held. -/
lemma Lost.mono {held' : Set NodeId} (hsub : held' ⊆ held) (hlost : h.Lost held t) :
    h.Lost held' t :=
  ⟨fun ht => hlost.1 (hsub ht), hlost.2⟩

/-- Only nodes of the heap own others. -/
lemma lost_of_forall_lt (ht : t ∉ held)
    (hfree : ∀ a < h.size, t ∉ h.children a ∧ (h.node a).contents ≠ some t) : h.Lost held t := by
  refine ⟨ht, fun a ha => ?_⟩
  have hlt : a < h.size := by
    by_contra hle
    simp [Owner, children, node_of_size_le (Nat.le_of_not_lt hle)] at ha
  exact ha.elim (hfree a hlt).1 (hfree a hlt).2

/-- A node without children and contents owns nothing but itself. -/
lemma eq_of_owns (hch : h.children t = []) (hcont : (h.node t).contents = none)
    (hx : h.Owns t x) : x = t := by
  rcases Relation.ReflTransGen.cases_head hx with rfl | ⟨b, hb, -⟩
  · rfl
  · simp [Owner, hch, hcont] at hb

/-- A node with nothing below it is given up cleanly. -/
lemma clean_of_alone (hch : h.children t = []) (hcont : (h.node t).contents = none) :
    h.Clean held t := by
  intro hlost x hx
  obtain rfl := eq_of_owns hch hcont hx
  exact ⟨hlost, .refl, hlost.1, fun a ha => absurd ha (hlost.2 a)⟩

lemma size_release (h : Heap) (held : Set NodeId) (t : NodeId) :
    (h.release held t).size = h.size := by
  rw [release]
  split <;> simp [size]

open Classical in
/-- What becomes of each node when `t` dies. -/
lemma node_release (hlost : h.Lost held t) (i : NodeId) :
    (h.release held t).node i = { h.node i with
      parent := (h.parent i).filter fun p => ¬ h.Dies held t p
      children := if h.Owns t i then [] else h.children i
      contents := if h.Owns t i then none else (h.node i).contents } := by
  rw [release, if_pos hlost, parent, children]
  simp only [node, Array.getD_eq_getD_getElem?, Array.getElem?_mapIdx]
  cases h.nodes[i]? with
  | some n => rfl
  | none => simp

lemma children_release (hlost : h.Lost held t) (hx : ¬ h.Owns t x) :
    (h.release held t).children x = h.children x := by
  rw [children, node_release hlost]
  exact if_neg hx

lemma children_release_of_owns (hlost : h.Lost held t) (hx : h.Owns t x) :
    (h.release held t).children x = [] := by
  rw [children, node_release hlost]
  exact if_pos hx

/-- A node keeps its parent unless that dies. -/
lemma parent_release_eq_some_iff (hlost : h.Lost held t) :
    (h.release held t).parent i = some b ↔ h.parent i = some b ∧ ¬ h.Dies held t b := by
  rw [parent, node_release hlost]
  simp [Option.filter_eq_some_iff]

namespace WellFormed

/-- The child of a node below `t` is below `t`. -/
lemma owns_of_parent (hwf : h.WellFormed) (hp : h.parent i = some b) (hb : h.Owns t b) :
    h.Owns t i :=
  hb.tail (.inl (hwf.mem_of_parent hp))

open Classical in
/-- What is not below a node is left as it is when that is given up. -/
lemma node_release_of_not_owns (hwf : h.WellFormed) (hx : ¬ h.Owns t x) :
    (h.release held t).node x = h.node x := by
  by_cases hlost : h.Lost held t
  · have hparent : (h.parent x).filter (fun p => ¬ h.Dies held t p) = h.parent x := by
      cases hp : h.parent x with
      | none => rfl
      | some p =>
          have hlives : ¬ h.Dies held t p := fun hdies => hx (hwf.owns_of_parent hp hdies.2.1)
          simp [hlives]
    rw [node_release hlost, if_neg hx, if_neg hx, hparent]
    rfl
  · rw [release_of_not_lost hlost]

/-- **A heap stays well-formed** when a node is given up cleanly. -/
lemma release (hwf : h.WellFormed) (hclean : h.Clean held t) :
    (h.release held t).WellFormed := by
  by_cases hlost : h.Lost held t
  swap
  · rwa [release_of_not_lost hlost]
  have hsub : ∀ q c, c ∈ (h.release held t).children q → c ∈ h.children q := by
    intro q c hc
    by_cases hq : h.Owns t q
    · rw [children_release_of_owns hlost hq] at hc
      simp at hc
    · rwa [children_release hlost hq] at hc
  refine ⟨fun q => ?_, fun i q => ?_, fun i hi => hwf.acyclic i (Relation.TransGen.mono hsub i i hi)⟩
  · by_cases hq : h.Owns t q
    · rw [children_release_of_owns hlost hq]
      exact List.nodup_nil
    · rw [children_release hlost hq]
      exact hwf.nodup q
  · rw [parent_release_eq_some_iff hlost, hwf.parent_iff]
    by_cases hq : h.Owns t q
    · simp [children_release_of_owns hlost hq, hclean hlost q hq]
    · rw [children_release hlost hq, and_iff_left fun hdies => hq hdies.2.1]

end WellFormed

/-! ### What holders see -/

/-- **What the giving up of nodes has left** of `h`, for those who hold the nodes in `held`: the
heap is well-formed, and whatever is held or below a node that is held is as it was. -/
structure Shed (held : Set NodeId) (h h' : Heap) : Prop where
  wellFormed : h'.WellFormed
  size_eq : h'.size = h.size
  node_eq : ∀ i ∈ held, ∀ j, h.Owns i j → h'.node j = h.node j

/-- A node is as much an owner as its record says. -/
lemma owner_congr (ha : h'.node a = h.node a) : h'.Owner a b ↔ h.Owner a b := by
  rw [Owner, Owner, children, children, ha]

namespace Shed

lemma refl (hwf : h.WellFormed) : Shed held h h := ⟨hwf, rfl, fun _ _ _ _ => rfl⟩

/-- What was below a node that is held is still below it. -/
lemma owns (hshed : Shed held h h') (hi : i ∈ held) (hij : h.Owns i j) : h'.Owns i j := by
  induction hij with
  | refl => exact .refl
  | tail hib hbc ih => exact ih.tail ((owner_congr (hshed.node_eq i hi _ hib)).mpr hbc)

lemma trans (hshed : Shed held h h') (hshed' : Shed held h' h'') : Shed held h h'' where
  wellFormed := hshed'.wellFormed
  size_eq := hshed'.size_eq.trans hshed.size_eq
  node_eq i hi j hij :=
    (hshed'.node_eq i hi j (hshed.owns hi hij)).trans (hshed.node_eq i hi j hij)

lemma mono {held' : Set NodeId} (hsub : held' ⊆ held) (hshed : Shed held h h') :
    Shed held' h h' :=
  ⟨hshed.wellFormed, hshed.size_eq, fun i hi => hshed.node_eq i (hsub hi)⟩

end Shed

/-- Nothing that is below a node held by somebody is below a node that dies cleanly. -/
lemma Clean.not_owns (hclean : h.Clean held t) (hlost : h.Lost held t) (hi : i ∈ held)
    (hij : h.Owns i j) : ¬ h.Owns t j := by
  induction hij with
  | refl => exact fun hti => (hclean hlost i hti).2.2.1 hi
  | tail _ hbc ih => exact fun htc => ih ((hclean hlost _ htc).2.2.2 _ hbc)

/-- **Giving up a node cleanly** leaves whatever is held, and what is below it, as it was. -/
theorem WellFormed.shed_release (hwf : h.WellFormed) (hclean : h.Clean held t) :
    Shed held h (h.release held t) where
  wellFormed := hwf.release hclean
  size_eq := size_release ..
  node_eq i hi j hij := by
    by_cases hlost : h.Lost held t
    · exact hwf.node_release_of_not_owns (hclean.not_owns hlost hi hij)
    · rw [release_of_not_lost hlost]

/-- **The exact condition**: where no template contents are below `t`, giving up a hold on it
leaves all nodes that live on as they were exactly if it is clean. -/
theorem WellFormed.release_unseen_iff (hwf : h.WellFormed)
    (hcontents : ∀ a, h.Owns t a → (h.node a).contents = none) :
    (∀ x, ¬ h.Dies held t x → (h.release held t).node x = h.node x) ↔ h.Clean held t := by
  constructor
  · intro hsame hlost x hx
    -- from `t` down: a child that lived on would lose its parent
    induction hx with
    | refl => exact ⟨hlost, .refl, hlost.1, fun a ha => absurd ha (hlost.2 a)⟩
    | @tail a b hta hab ih =>
        have hchild : b ∈ h.children a := by
          rcases hab with hchild | hcont
          · exact hchild
          · rw [hcontents a hta] at hcont
            simp at hcont
        by_contra hlives
        have hp : (h.release held t).parent b = some a := by
          rw [parent, hsame b hlives]
          exact hwf.parent_of_mem hchild
        exact ((parent_release_eq_some_iff hlost).mp hp).2 ih
  · intro hclean x hx
    by_cases hlost : h.Lost held t
    · exact hwf.node_release_of_not_owns fun htx => hx (hclean hlost x htx)
    · rw [release_of_not_lost hlost]

end Heap

end RichText
