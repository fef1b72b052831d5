import RichText.Proofs.Heap.Splicing
import RichText.Substitution.Failure

/-!
Trees with some elements replaced.

`render` says of a tree whether it is to be rendered, and what comes of that: the trees put in
its place, or a failure. The outermost trees to be rendered are replaced, and neither their
inside nor what is put in place is looked at.

* `Tree.substituted`: a tree with these replaced, where failures count as no answer;
* `Tree.rewrite`, `Tree.rewriteAll`: the same from the front up to the first failure, with the
  number of trees rendered;
* `Tree.trees_rewriteAll`: without a failure the two agree;
* `Layout.outermost`: the nodes that are rendered then.
-/

namespace RichText

namespace Tree

/-- The tag name of the element that a tree is. -/
def name? : Tree → Option String
  | element e _ => some e.name
  | template as _ _ => some (templateElement as).name
  | _ => none

/-- What stands for a tree, given what comes of rendering it and its children when they are
substituted. -/
def replaced (t : Tree) : Option (Except Failure (List Tree)) → List Tree → List Tree
  | some (.ok ts), _ => ts
  | some (.error _), _ => [t]
  | none, cs => [t.withChildren cs]

end Tree

/-- How far trees have been rewritten: what they have become, how many elements have been
rendered, and the failure that has ended it. -/
structure Rewriting where
  trees : List Tree
  rendered : ℕ := 0
  failure : Option Failure := none

namespace Rewriting

/-- Whether the end has been reached. -/
def result (x : Rewriting) : Except Failure Unit :=
  match x.failure with
  | none => .ok ()
  | some e => .error e

/-- One rewriting followed by that of further trees, which stay as they are after a failure. -/
def andThen (x : Rewriting) (ts : List Tree) (y : Rewriting) : Rewriting :=
  match x.failure with
  | none => { trees := x.trees ++ y.trees, rendered := x.rendered + y.rendered, failure := y.failure }
  | some _ => { x with trees := x.trees ++ ts }

/-- A tree rewritten, given what comes of rendering it and the rewriting of its children. -/
def ofTree (t : Tree) : Option (Except Failure (List Tree)) → Rewriting → Rewriting
  | some (.ok ts), _ => { trees := ts, rendered := 1 }
  | some (.error e), _ => { trees := [t], rendered := 1, failure := some e }
  | none, x => { x with trees := [t.withChildren x.trees] }

lemma rendered_ofTree_some (t : Tree) (r : Except Failure (List Tree)) (x : Rewriting) :
    (ofTree t (some r) x).rendered = 1 := by
  cases r <;> rfl

end Rewriting

namespace Tree

section Render

variable (render : Tree → Option (Except Failure (List Tree)))

mutual

/-- What a tree becomes when the outermost trees to be rendered are replaced. -/
def substituted : Tree → List Tree
  | t@(element _ cs) => t.replaced (render t) (substitutedAll cs)
  | t@(template _ cs _) => t.replaced (render t) (substitutedAll cs)
  | t@(document cs) => t.replaced (render t) (substitutedAll cs)
  | t => t.replaced (render t) []

/-- What several trees become. -/
def substitutedAll : List Tree → List Tree
  | [] => []
  | t :: ts => substituted t ++ substitutedAll ts

end

mutual

/-- A tree rewritten from the front. -/
def rewrite : Tree → Rewriting
  | t@(element _ cs) => .ofTree t (render t) (rewriteAll cs)
  | t@(template _ cs _) => .ofTree t (render t) (rewriteAll cs)
  | t@(document cs) => .ofTree t (render t) (rewriteAll cs)
  | t => .ofTree t (render t) { trees := [] }

/-- Trees rewritten one after the other. -/
def rewriteAll : List Tree → Rewriting
  | [] => { trees := [] }
  | t :: ts => (rewrite t).andThen ts (rewriteAll ts)

end

lemma substituted_eq (t : Tree) :
    substituted render t = t.replaced (render t) (substitutedAll render t.children) := by
  cases t <;> simp only [substituted, children, substitutedAll]

lemma rewrite_eq (t : Tree) :
    rewrite render t = .ofTree t (render t) (rewriteAll render t.children) := by
  cases t <;> simp only [rewrite, children, rewriteAll]

lemma substitutedAll_eq_flatMap (ts : List Tree) :
    substitutedAll render ts = ts.flatMap (substituted render) := by
  induction ts with
  | nil => rfl
  | cons t ts ih => rw [substitutedAll, ih, List.flatMap_cons]

/-! ### The two agree -/

variable {render}

lemma trees_ofTree {t : Tree} {r : Option (Except Failure (List Tree))} {x : Rewriting}
    {cs : List Tree} (hx : x.failure = none → x.trees = cs)
    (hf : (Rewriting.ofTree t r x).failure = none) :
    (Rewriting.ofTree t r x).trees = t.replaced r cs := by
  rcases r with _ | _ | ts
  · simp only [Rewriting.ofTree, replaced, hx hf]
  · simp [Rewriting.ofTree] at hf
  · rfl

mutual

/-- Without a failure a tree is rewritten to what it becomes. -/
lemma trees_rewrite : ∀ {t : Tree}, (rewrite render t).failure = none →
    (rewrite render t).trees = substituted render t
  | element e cs, hf => by
      rw [rewrite_eq] at hf ⊢
      rw [substituted_eq]
      exact trees_ofTree (fun hcs : (rewriteAll render cs).failure = none => trees_rewriteAll hcs) hf
  | template as cs us, hf => by
      rw [rewrite_eq] at hf ⊢
      rw [substituted_eq]
      exact trees_ofTree (fun hcs : (rewriteAll render cs).failure = none => trees_rewriteAll hcs) hf
  | document cs, hf => by
      rw [rewrite_eq] at hf ⊢
      rw [substituted_eq]
      exact trees_ofTree (fun hcs : (rewriteAll render cs).failure = none => trees_rewriteAll hcs) hf
  | text s, hf => by
      rw [rewrite_eq] at hf ⊢
      rw [substituted_eq]
      exact trees_ofTree (fun _ => rfl) hf
  | comment s, hf => by
      rw [rewrite_eq] at hf ⊢
      rw [substituted_eq]
      exact trees_ofTree (fun _ => rfl) hf
  | doctype name publicId systemId, hf => by
      rw [rewrite_eq] at hf ⊢
      rw [substituted_eq]
      exact trees_ofTree (fun _ => rfl) hf

/-- **Without a failure** trees are rewritten to what they become. -/
theorem trees_rewriteAll : ∀ {ts : List Tree}, (rewriteAll render ts).failure = none →
    (rewriteAll render ts).trees = substitutedAll render ts
  | [], _ => rfl
  | t :: ts, hf => by
      rw [rewriteAll, Rewriting.andThen] at hf ⊢
      cases ht : (rewrite render t).failure with
      | none =>
          simp only [ht] at hf ⊢
          rw [substitutedAll, trees_rewrite ht, trees_rewriteAll hf]
      | some e => simp [ht] at hf

end

end Render

end Tree

/-! ### The nodes that are rendered -/

namespace Layout

section Outermost

variable (marked : NodeId → Bool)

mutual

/-- The outermost marked nodes of a layout, in document order. -/
def outermost : Layout → List NodeId
  | node i cs => if marked i then [i] else outermostAll cs
  | template i cs _ _ => if marked i then [i] else outermostAll cs

/-- The outermost marked nodes of several layouts. -/
def outermostAll : List Layout → List NodeId
  | [] => []
  | s :: ss => outermost s ++ outermostAll ss

end

lemma outermost_eq (s : Layout) :
    outermost marked s = if marked s.id then [s.id] else outermostAll marked s.children := by
  cases s <;> rfl

end Outermost

variable {marked marked' : NodeId → Bool}

mutual

/-- Only the nodes of a layout have to be marked alike. -/
lemma outermost_congr : ∀ {s : Layout}, (∀ k ∈ s.ids, marked k = marked' k) →
    outermost marked s = outermost marked' s
  | node i cs, hk => by
      rw [outermost, outermost, hk i (by simp [ids]),
        outermostAll_congr fun k hmem => hk k (by simp [ids, hmem])]
  | template i cs inner us, hk => by
      rw [outermost, outermost, hk i (by simp [ids]),
        outermostAll_congr fun k hmem => hk k (by simp [ids, hmem])]

lemma outermostAll_congr : ∀ {ss : List Layout}, (∀ k ∈ idsAll ss, marked k = marked' k) →
    outermostAll marked ss = outermostAll marked' ss
  | [], _ => rfl
  | s :: ss, hk => by
      rw [outermostAll, outermostAll, outermost_congr fun k hmem => hk k (by simp [idsAll, hmem]),
        outermostAll_congr fun k hmem => hk k (by simp [idsAll, hmem])]

end

end Layout

namespace Heap

variable {h h' : Heap}

/-- The name of a tree is that of its root. -/
lemma name?_read {s : Layout} (hs : h.Carries s) : (h.read s).name? = h.tagName s.id := by
  cases s with
  | node i cs =>
      simp only [read, Layout.id, tagName, element?]
      cases h.content i <;> rfl
  | template i cs inner us =>
      obtain ⟨-, -, ⟨as, has⟩, -⟩ := hs
      simp only [read, Layout.id, tagName, element?, has]
      rfl

end Heap

end RichText
