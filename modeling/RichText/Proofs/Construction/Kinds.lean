import RichText.Dom.Planting
import RichText.Proofs.Construction.Build

/-!
Heaps all of whose elements are of a kind.

No move makes an element of another one, so that the elements of a heap stay of a kind as long as
new ones are of that kind as well.

* `Tree.Only`, `Heap.Only`: all elements are of a kind, the contents of templates included;
* `Tree.Sound.only`: elements that are allowed in a document are of the kind of those;
* `Heap.Only.of_bare`: nodes that are moved stay what they are;
* `Heap.Only.plant`: **trees of a kind planted** in a heap of that kind.
-/

namespace RichText

variable {K K' : Element → Prop}

/-! ### Trees -/

mutual

/-- Whether all elements of a tree are of a kind. -/
def Tree.Only (K : Element → Prop) : Tree → Prop
  | .element e cs => K e ∧ Tree.OnlyAll K cs
  | .template as cs us => K (templateElement as) ∧ Tree.OnlyAll K cs ∧ Tree.OnlyAll K us
  | .document cs => Tree.OnlyAll K cs
  | .text _ => True
  | .comment _ => True
  | .doctype .. => True

/-- Whether all elements of several trees are of a kind. -/
def Tree.OnlyAll (K : Element → Prop) : List Tree → Prop
  | [] => True
  | t :: ts => t.Only K ∧ Tree.OnlyAll K ts

end

namespace Tree

mutual

/-- Elements of two kinds. -/
lemma Only.and : ∀ {t : Tree}, t.Only K → t.Only K' → t.Only fun e => K e ∧ K' e
  | element _ _, ⟨he, hcs⟩, ⟨he', hcs'⟩ => ⟨⟨he, he'⟩, OnlyAll.and hcs hcs'⟩
  | template _ _ _, ⟨he, hcs, hus⟩, ⟨he', hcs', hus'⟩ =>
      ⟨⟨he, he'⟩, OnlyAll.and hcs hcs', OnlyAll.and hus hus'⟩
  | document cs, hcs, hcs' => show OnlyAll _ cs from OnlyAll.and hcs hcs'
  | text _, _, _ => trivial
  | comment _, _, _ => trivial
  | doctype _ _ _, _, _ => trivial

lemma OnlyAll.and : ∀ {ts : List Tree}, OnlyAll K ts → OnlyAll K' ts →
    OnlyAll (fun e => K e ∧ K' e) ts
  | [], _, _ => trivial
  | _ :: _, ⟨ht, hts⟩, ⟨ht', hts'⟩ => ⟨Only.and ht ht', OnlyAll.and hts hts'⟩

end

variable {N : Naming}

mutual

/-- Elements that are allowed are of a kind if all that are allowed are, and so are templates. -/
lemma Sound.only (hN : ∀ e, N.element e → K e) (htemplate : ∀ as, K (templateElement as)) :
    ∀ {t : Tree}, t.Sound N → t.Only K
  | element e _, ⟨he, _, hcs⟩ => ⟨hN e he, SoundAll.only hN htemplate hcs⟩
  | template as _ _, ⟨_, hcs, hus⟩ =>
      ⟨htemplate as, SoundAll.only hN htemplate hcs, SoundAll.only hN htemplate hus⟩
  | document cs, hcs => show OnlyAll K cs from SoundAll.only hN htemplate hcs
  | text _, _ => trivial
  | comment _, _ => trivial
  | doctype _ _ _, _ => trivial

lemma SoundAll.only (hN : ∀ e, N.element e → K e) (htemplate : ∀ as, K (templateElement as)) :
    ∀ {ts : List Tree}, SoundAll N ts → OnlyAll K ts
  | [], _ => trivial
  | _ :: _, ⟨ht, hts⟩ => ⟨Sound.only hN htemplate ht, SoundAll.only hN htemplate hts⟩

end

end Tree

/-! ### Heaps -/

namespace Heap

/-- Whether all elements of a heap are of a kind. -/
def Only (K : Element → Prop) (h : Heap) : Prop :=
  ∀ i e, h.content i = .element e → K e

variable {h h' : Heap}

lemma only_empty : Only K {} := by
  intro i e he
  have hnode : ({} : Heap).content i = .document :=
    congrArg Node.content (node_of_size_le (Nat.zero_le i))
  rw [hnode] at he
  cases he

namespace Only

/-- Moves do not change what nodes are. -/
lemma of_bare (hh : h.Only K) (hbare : ∀ i, h'.bare i = h.bare i) : h'.Only K := fun i e he =>
  hh i e ((congrArg Prod.fst (hbare i)).symm.trans he)

lemma push (hh : h.Only K) {n : Node} (hn : ∀ e, n.content = .element e → K e) :
    (h.push n).Only K := by
  intro i e he
  rw [content_push] at he
  split at he
  · exact hn e he
  · exact hh i e he

lemma appendChild (hh : h.Only K) (p i : NodeId) : (h.appendChild p i).Only K :=
  hh.of_bare fun j => by rw [Heap.appendChild, bare_setChildren, bare_setParent, bare_detach]

lemma insertAt (hh : h.Only K) (p : NodeId) (index : ℕ) (is : List NodeId) :
    (h.insertAt p index is).Only K :=
  hh.of_bare fun j => by rw [Heap.insertAt, bare_setChildren, bare_setParents, bare_detachAll]

lemma replaceWith (hh : h.Only K) (i : NodeId) (is : List NodeId) :
    (h.replaceWith i is).1.Only K := by
  unfold Heap.replaceWith
  split
  · exact hh
  · split
    · exact hh
    · split
      · exact hh
      · exact insertAt (hh.of_bare fun j => by rw [bare_setParent, bare_setChildren]) _ _ _

mutual

/-- **Trees of a kind planted** in a heap of that kind. -/
theorem plant : ∀ {t : Tree} {h : Heap}, h.Only K → t.Only K → (h.plant t).1.Only K
  | .element e cs, h, hh, ht => by
      rw [Heap.plant]
      exact plantBelow (hh.push fun e' he' => by cases he'; exact ht.1) ht.2 _
  | .template as cs us, h, hh, ht => by
      rw [Heap.plant]
      have hroot : (h.push { content := .element (templateElement as),
                             contents := some (h.size + 1) }).Only K :=
        hh.push fun e' he' => by cases he'; exact ht.1
      exact plantBelow (plantBelow (hroot.push (by simp)) ht.2.2 _) ht.2.1 _
  | .document cs, h, hh, ht => by
      rw [Heap.plant]
      exact plantBelow (hh.push (by simp)) ht _
  | .text s, h, hh, _ => by
      rw [Heap.plant]
      exact hh.push (by simp)
  | .comment s, h, hh, _ => by
      rw [Heap.plant]
      exact hh.push (by simp)
  | .doctype _ _ _, h, hh, _ => by
      rw [Heap.plant]
      exact hh.push (by simp)

lemma plantBelow : ∀ {ts : List Tree} {h : Heap}, h.Only K → Tree.OnlyAll K ts →
    ∀ p : NodeId, (h.plantBelow p ts).Only K
  | [], h, hh, _, p => by
      rw [Heap.plantBelow]
      exact hh
  | t :: ts, h, hh, ⟨ht, hts⟩, p => by
      rw [Heap.plantBelow]
      exact plantBelow ((plant hh ht).appendChild p _) hts p

end

end Only

end Heap

end RichText
