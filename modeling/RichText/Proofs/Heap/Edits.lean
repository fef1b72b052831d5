import RichText.Proofs.Heap.Planting

/-!
Runs of edits.

Child lists and parents say the same twice, and each move updates both on its own. As long as
no caller puts a node below itself, they agree after any number of moves, in any order.

* `Edit`, `Edit.Allowed`: the operations, and what their callers have to see to;
* `Heap.Confined`: only some lists have changed, and only some nodes have moved;
* `WellFormed.appendChild_eq`, `WellFormed.moveChildren_eq`: both are moves to the end of a list;
* `WellFormed.replaceWith_eq_false_iff`: when a replacement is refused;
* `WellFormed.apply`, `WellFormed.confined`: one edit;
* `wellFormed_applyAll`: **runs of edits**, by induction on them.
-/

namespace RichText

/-- An operation on the nodes of a heap. -/
inductive Edit where
  | create (c : Content)
  | detach (i : NodeId)
  | appendChild (p i : NodeId)
  | moveChildren (source target : NodeId)
  | insertAt (p : NodeId) (index : ℕ) (is : List NodeId)
  | replaceWith (i : NodeId) (is : List NodeId)
  | setAttribute (i : NodeId) (name value : String)

namespace Edit

/-- The heap after an edit. -/
def apply (h : Heap) : Edit → Heap
  | create c => h.push { content := c }
  | detach i => h.detach i
  | appendChild p i => h.appendChild p i
  | moveChildren source target => h.moveChildren source target
  | insertAt p index is => h.insertAt p index is
  | replaceWith i is => (h.replaceWith i is).1
  | setAttribute i name value => h.setAttribute i name value

/-- The heap after several edits. -/
def applyAll (h : Heap) (es : List Edit) : Heap :=
  es.foldl apply h

/-- What the caller of an edit has to see to: its nodes are nodes of the heap, none is given
twice, and none is put below itself. A replacement sees to the last of these by itself. -/
def Allowed (h : Heap) : Edit → Prop
  | create _ | detach _ | setAttribute .. => True
  | appendChild p i => p < h.size ∧ i < h.size ∧ ¬ h.Reaches i p
  | moveChildren source target => target < h.size ∧ ¬ Relation.TransGen h.Child source target
  | insertAt p _ is =>
      p < h.size ∧ is.Nodup ∧ (∀ i ∈ is, i < h.size) ∧ ∀ i ∈ is, ¬ h.Reaches i p
  | replaceWith _ is => is.Nodup ∧ ∀ i ∈ is, i < h.size

/-- Every edit is allowed when its turn has come. -/
def AllAllowed : Heap → List Edit → Prop
  | _, [] => True
  | h, e :: es => e.Allowed h ∧ AllAllowed (e.apply h) es

/-- The nodes that an edit is given to move. -/
def given (h : Heap) : Edit → List NodeId
  | create _ | setAttribute .. => []
  | detach i => [i]
  | appendChild _ i => [i]
  | moveChildren source _ => h.children source
  | insertAt _ _ is => is
  | replaceWith i is => i :: is

/-- The parent below which an edit puts nodes, unless that is the parent of one of them. -/
def target : Edit → Option NodeId
  | create _ | detach _ | replaceWith .. | setAttribute .. => none
  | appendChild p _ | moveChildren _ p | insertAt p .. => some p

end Edit

namespace Heap

variable {h h' h'' : Heap} {i p q : NodeId} {is : List NodeId}

/-- Between two heaps only the child lists of the `target` and of the parents of the nodes `is`
have changed, and only these nodes have moved: any other has the same parent and stands in the
same order as before among the others. -/
structure Confined (h h' : Heap) (is : List NodeId) (target : Option NodeId) : Prop where
  children_eq : ∀ q, target ≠ some q → (∀ i ∈ is, h.parent i ≠ some q) →
    h'.children q = h.children q
  parent_eq : ∀ k, k ∉ is → h'.parent k = h.parent k
  order_eq : ∀ q, (h'.children q).filter (· ∉ is) = (h.children q).filter (· ∉ is)

lemma Confined.of_same (hchildren : ∀ q, h'.children q = h.children q)
    (hparent : ∀ k, h'.parent k = h.parent k) (is : List NodeId) (target : Option NodeId) :
    Confined h h' is target :=
  ⟨fun q _ _ => hchildren q, fun k _ => hparent k, fun q => by rw [hchildren]⟩

/-! ### Single moves -/

lemma children_setAttribute (h : Heap) (i : NodeId) (name value : String) (q : NodeId) :
    (h.setAttribute i name value).children q = h.children q := by
  rw [setAttribute]
  cases h.element? i with
  | none => rfl
  | some e =>
      simp only [children, node_update]
      split <;> rfl

lemma parent_setAttribute (h : Heap) (i : NodeId) (name value : String) (k : NodeId) :
    (h.setAttribute i name value).parent k = h.parent k := by
  rw [setAttribute]
  cases h.element? i with
  | none => rfl
  | some e =>
      simp only [parent, node_update]
      split <;> rfl

/-- A replacement that is refused changes nothing. -/
lemma replaceWith_of_eq_false (hfalse : (h.replaceWith i is).2 = false) :
    (h.replaceWith i is).1 = h := by
  cases hpos : h.position i with
  | none => simp [replaceWith, hpos]
  | some place =>
      simp only [replaceWith, hpos] at hfalse ⊢
      split
      · rfl
      · split
        · rfl
        · next hself hany => simp [hself, hany] at hfalse

namespace WellFormed

/-- A heap with the same lists and parents as a well-formed one is well-formed. -/
lemma of_same (hwf : h.WellFormed) (hchildren : ∀ q, h'.children q = h.children q)
    (hparent : ∀ k, h'.parent k = h.parent k) : h'.WellFormed where
  nodup q := by
    rw [hchildren]
    exact hwf.nodup q
  parent_iff k q := by rw [hparent, hchildren, hwf.parent_iff]
  acyclic := acyclic_of_child (fun q k hk => by rwa [Child, hchildren] at hk) hwf.acyclic

/-- A list without nodes that have other parents. -/
lemma filter_notMem_eq (hwf : h.WellFormed) (his : ∀ i ∈ is, h.parent i ≠ some q) :
    (h.children q).filter (· ∉ is) = h.children q := by
  refine List.filter_eq_self.mpr fun k hk => decide_eq_true fun hmem => ?_
  exact his k hmem (hwf.parent_of_mem hk)

lemma confined_detach (hwf : h.WellFormed) (i : NodeId) : Confined h (h.detach i) [i] none where
  children_eq q _ hi := by rw [hwf.children_detach, hwf.filter_ne_eq (hi i (by simp))]
  parent_eq k hk := by
    rw [List.mem_singleton] at hk
    rw [parent_detach, if_neg hk]
  order_eq q := by
    rw [hwf.children_detach, List.filter_filter]
    refine List.filter_congr fun k _ => ?_
    by_cases hk : k = i <;> simp [hk]

lemma confined_insertAt (hwf : h.WellFormed) (hp : p < h.size) (index : ℕ)
    (his : ∀ i ∈ is, i < h.size) : Confined h (h.insertAt p index is) is (some p) where
  children_eq q hq hi := by
    have hqp : q ≠ p := fun hqp => hq (by rw [hqp])
    rw [hwf.children_insertAt hp, if_neg hqp, hwf.filter_notMem_eq hi]
  parent_eq k hk := by rw [hwf.parent_insertAt his, if_neg hk]
  order_eq q := by
    rw [hwf.children_insertAt hp]
    split
    · next hq =>
        have hnone : is.filter (· ∉ is) = [] := List.filter_eq_nil_iff.mpr (by simp)
        rw [List.filter_append, List.filter_append, hnone, List.append_nil, ← List.filter_append,
          List.take_append_drop, List.filter_filter, hq]
        simp
    · rw [List.filter_filter]
      simp

/-- A node taken out, and nodes put below the parent that it had. -/
lemma confined_detach_insertAt (hwf : h.WellFormed) (hi : h.parent i = some p) (index : ℕ)
    (his : ∀ k ∈ is, k < h.size) :
    Confined h ((h.detach i).insertAt p index is) (i :: is) none := by
  have hp : p < (h.detach i).size := by
    rw [size_detach]
    exact lt_size_of_child (hwf.mem_of_parent hi)
  have hout := hwf.confined_detach i
  have hsize : ∀ k ∈ is, k < (h.detach i).size := fun k hk => size_detach h i ▸ his k hk
  have hin := (hwf.detach i).confined_insertAt hp index hsize
  have hsplit : ∀ l : List NodeId,
      l.filter (· ∉ i :: is) = (l.filter (· ∉ is)).filter (· ∉ [i]) := by
    intro l
    rw [List.filter_filter]
    refine List.filter_congr fun k _ => ?_
    by_cases hk : k = i <;> by_cases hks : k ∈ is <;> simp [hk, hks]
  have hswap : ∀ l : List NodeId,
      (l.filter (· ∉ is)).filter (· ∉ [i]) = (l.filter (· ∉ [i])).filter (· ∉ is) := by
    intro l
    rw [List.filter_filter, List.filter_filter]
    exact List.filter_congr fun k _ => Bool.and_comm ..
  refine ⟨fun q _ hall => ?_, fun k hk => ?_, fun q => ?_⟩
  · have hqp : some p ≠ some q := hi ▸ hall i (by simp)
    rw [hin.children_eq q hqp fun k hk => ?_, hout.children_eq q (by simp) fun k hk => ?_]
    · rw [List.mem_singleton.mp hk, hi]
      exact hqp
    · rw [parent_detach]
      split
      · simp
      · exact hall k (List.mem_cons_of_mem i hk)
  · rw [List.mem_cons, not_or] at hk
    rw [hin.parent_eq k hk.2, hout.parent_eq k (by simpa using hk.1)]
  · rw [hsplit, hin.order_eq, hswap, hout.order_eq, ← hswap, ← hsplit]

/-! ### Moves to the end -/

/-- A place behind all children stays there when some of them are taken out. -/
lemma insertAt_end (hwf : h.WellFormed) (p : NodeId) (is : List NodeId) :
    h.insertAt p (h.children p).length is
      = (h.detachAll is).attach p is ((h.detachAll is).children p ++ is) := by
  have hplace : h.insertionPlace p (h.children p).length is
      = ((h.children p).filter (· ∉ is)).length := by
    rw [insertionPlace, List.getElem?_eq_none (Nat.le_refl _)]
    exact Nat.min_eq_right (List.length_filter_le ..)
  rw [hwf.insertAt_eq, hplace, hwf.children_detachAll, List.take_length, List.drop_length,
    List.append_nil]

/-- **A node appended** is moved behind all children. -/
lemma appendChild_eq (hwf : h.WellFormed) (p i : NodeId) :
    h.appendChild p i = h.insertAt p (h.children p).length [i] := by
  rw [hwf.insertAt_end, appendChild, children_setParent]
  rfl

/-- **All children of a node moved** are moved behind all children of the other, even if that is
the same node. -/
lemma moveChildren_eq (hwf : h.WellFormed) (source : NodeId) {target : NodeId}
    (ht : target < h.size) : h.moveChildren source target
      = h.insertAt target (h.children target).length (h.children source) := by
  rw [hwf.insertAt_end]
  have hlt : ∀ k, k ∈ h.children source → k < h.size := fun k hk => hwf.lt_size_of_mem hk
  have hlists : ∀ q, (h.detachAll (h.children source)).children q
      = (h.setChildren source []).children q := by
    intro q
    rw [hwf.children_detachAll, children_setChildren]
    by_cases hq : source = q
    · subst hq
      have hnil : (h.children source).filter (· ∉ h.children source) = [] :=
        List.filter_eq_nil_iff.mpr (by simp)
      rw [hnil]
      by_cases hsize : source < h.size
      · rw [if_pos ⟨rfl, hsize⟩]
      · rw [if_neg fun hs => hsize hs.2, children, node_of_size_le (Nat.le_of_not_lt hsize)]
    · rw [if_neg fun hs => hq hs.1]
      refine hwf.filter_notMem_eq fun k hk hkq => hq ?_
      rw [hwf.parent_of_mem hk, Option.some.injEq] at hkq
      exact hkq
  refine ext_node (by simp [moveChildren]) fun k => node_eq_of_bare ?_ ?_ ?_
  · rw [bare_attach, bare_detachAll, moveChildren, bare_setChildren, bare_setParents,
      bare_setChildren]
  · rw [parent_attach, parent_detachAll, size_detachAll, moveChildren, parent_setChildren,
      parent_setParents, size_setChildren, parent_setChildren]
    by_cases hk : k ∈ h.children source
    · simp [hk, hlt k hk]
    · simp [hk]
  · have ht' : target < (h.detachAll (h.children source)).size := by simpa using ht
    rw [children_attach ht', moveChildren, children_setChildren, children_setParents,
      children_setParents, hlists, hlists]
    by_cases hk : k = target
    · subst hk
      simp [ht]
    · rw [if_neg hk, if_neg fun hs => hk hs.1.symm]

/-- No child of a node is above another that the node is not above. -/
lemma not_reaches_of_child {source target : NodeId} (hwf : h.WellFormed)
    (hnot : ¬ Relation.TransGen h.Child source target) :
    ∀ i ∈ h.children source, i < h.size ∧ ¬ h.Reaches i target :=
  fun _ hi => ⟨hwf.lt_size_of_mem hi, fun hr => hnot (Relation.TransGen.head' hi hr)⟩

/-! ### Replacements -/

/-- **A replacement is refused** exactly if there is no place to put it, or if it would put a node
below itself. -/
lemma replaceWith_eq_false_iff (hwf : h.WellFormed) (i : NodeId) (is : List NodeId) :
    (h.replaceWith i is).2 = false ↔
      h.parent i = none ∨ is ≠ [i] ∧ ∃ p, h.parent i = some p ∧ ∃ k ∈ is, h.Reaches k p := by
  cases hi : h.parent i with
  | none =>
      have hnone : h.position i = none := by
        rw [← Option.not_isSome_iff_eq_none, hwf.isSome_position_iff, hi]
        simp
      simp [replaceWith, hnone]
  | some p =>
      obtain ⟨as, bs, hch⟩ := List.append_of_mem (hwf.mem_of_parent hi)
      have habove : (is.any fun k => h.isAncestorOrSelf k p) = true ↔ ∃ k ∈ is, h.Reaches k p := by
        simp only [List.any_eq_true, isAncestorOrSelf_iff hwf]
      simp only [replaceWith, hwf.position_eq_some hch]
      by_cases hself : is = [i]
      · simp [hself]
      · by_cases hany : (is.any fun k => h.isAncestorOrSelf k p) = true
        · simpa [hself, hany] using habove.mp hany
        · simpa [hself, hany] using fun k hk hr => hany (habove.mpr ⟨k, hk, hr⟩)

/-- A replacement that is not refused takes the node out and puts the others in, unless the node
replaces itself. -/
lemma exists_of_replaceWith (hwf : h.WellFormed) (htrue : (h.replaceWith i is).2 = true) :
    ∃ p index, h.parent i = some p ∧ (∀ k ∈ is, is ≠ [i] → ¬ h.Reaches k p)
      ∧ (h.replaceWith i is).1 = if is = [i] then h else (h.detach i).insertAt p index is := by
  have hnot := mt (hwf.replaceWith_eq_false_iff i is).mpr (by simp [htrue])
  rw [not_or] at hnot
  obtain ⟨p, hi⟩ := Option.ne_none_iff_exists'.mp hnot.1
  have hfree : ∀ k ∈ is, is ≠ [i] → ¬ h.Reaches k p := fun k hk hself hr =>
    hnot.2 ⟨hself, p, hi, k, hk, hr⟩
  obtain ⟨as, bs, hch⟩ := List.append_of_mem (hwf.mem_of_parent hi)
  refine ⟨p, as.length, hi, hfree, ?_⟩
  by_cases hself : is = [i]
  · subst hself
    simp [replaceWith, hwf.position_eq_some hch]
  · rw [hwf.replaceWith_eq hch is fun k hk => hfree k hk hself, if_neg hself, if_neg hself]

/-! ### Edits -/

/-- **An edit** keeps a heap well-formed. -/
theorem apply (hwf : h.WellFormed) {e : Edit} (he : e.Allowed h) : (e.apply h).WellFormed := by
  cases e with
  | create c => exact hwf.push rfl rfl
  | detach i => exact hwf.detach i
  | appendChild p i =>
      obtain ⟨hp, hi, hnot⟩ := he
      rw [Edit.apply, hwf.appendChild_eq]
      exact hwf.insertAt hp _ (by simp) (by simpa using hi) (by simpa using hnot)
  | moveChildren source target =>
      obtain ⟨ht, hnot⟩ := he
      have hchild := hwf.not_reaches_of_child hnot
      rw [Edit.apply, hwf.moveChildren_eq source ht]
      exact hwf.insertAt ht _ (hwf.nodup source) (fun i hi => (hchild i hi).1)
        fun i hi => (hchild i hi).2
  | insertAt p index is =>
      obtain ⟨hp, hnd, his, hnot⟩ := he
      exact hwf.insertAt hp index hnd his hnot
  | replaceWith i is =>
      obtain ⟨hnd, his⟩ := he
      rw [Edit.apply]
      cases hdone : (h.replaceWith i is).2 with
      | false => rwa [replaceWith_of_eq_false hdone]
      | true =>
          obtain ⟨p, index, hi, hfree, heq⟩ := hwf.exists_of_replaceWith hdone
          rw [heq]
          split
          · exact hwf
          · next hself =>
              have hp : p < h.size := lt_size_of_child (hwf.mem_of_parent hi)
              refine (hwf.detach i).insertAt (by simpa using hp) index hnd (by simpa using his)
                fun k hk hr => hfree k hk hself ?_
              exact hwf.reaches_of_detachAll (show (h.detachAll [i]).Reaches _ _ from hr)
  | setAttribute i name value =>
      exact hwf.of_same (children_setAttribute h i name value) (parent_setAttribute h i name value)

/-- **An edit** changes only the lists of the parents involved and moves only the nodes that it is
given. -/
theorem confined (hwf : h.WellFormed) {e : Edit} (he : e.Allowed h) :
    Confined h (e.apply h) (e.given h) e.target := by
  cases e with
  | create c => exact .of_same (children_push rfl) (parent_push rfl) _ _
  | detach i => exact hwf.confined_detach i
  | appendChild p i =>
      obtain ⟨hp, hi, -⟩ := he
      rw [Edit.apply, hwf.appendChild_eq]
      exact hwf.confined_insertAt hp _ (by simpa using hi)
  | moveChildren source target =>
      rw [Edit.apply, hwf.moveChildren_eq source he.1]
      exact hwf.confined_insertAt he.1 _ fun i hi => hwf.lt_size_of_mem hi
  | insertAt p index is => exact hwf.confined_insertAt he.1 index he.2.2.1
  | replaceWith i is =>
      rw [Edit.apply]
      cases hdone : (h.replaceWith i is).2 with
      | false =>
          rw [replaceWith_of_eq_false hdone]
          exact .of_same (fun _ => rfl) (fun _ => rfl) _ _
      | true =>
          obtain ⟨p, index, hi, -, heq⟩ := hwf.exists_of_replaceWith hdone
          rw [heq]
          split
          · exact .of_same (fun _ => rfl) (fun _ => rfl) _ _
          · exact hwf.confined_detach_insertAt hi index he.2
  | setAttribute i name value =>
      exact .of_same (children_setAttribute h i name value) (parent_setAttribute h i name value) _ _

/-- Edits that are allowed one after the other keep a heap well-formed. -/
lemma applyAll (hwf : h.WellFormed) {es : List Edit} (hes : Edit.AllAllowed h es) :
    (Edit.applyAll h es).WellFormed := by
  induction es generalizing h with
  | nil => exact hwf
  | cons e es ih => exact ih (hwf.apply hes.1) hes.2

end WellFormed

/-- **Runs of edits of any length keep a heap well-formed.** Each edit changes only the child lists
of the parents involved and moves only the nodes that it is given. A replacement is refused
exactly if the node has no parent, or if a node other than itself would be put in that is its
parent or above; then nothing changes. -/
theorem wellFormed_applyAll (hwf : h.WellFormed) :
    (∀ es, Edit.AllAllowed h es → (Edit.applyAll h es).WellFormed)
      ∧ (∀ e : Edit, e.Allowed h → Confined h (e.apply h) (e.given h) e.target)
      ∧ ∀ i is, ((h.replaceWith i is).2 = false ↔
            h.parent i = none ∨ is ≠ [i] ∧ ∃ p, h.parent i = some p ∧ ∃ k ∈ is, h.Reaches k p)
          ∧ ((h.replaceWith i is).2 = false → (h.replaceWith i is).1 = h) :=
  ⟨fun _ hes => hwf.applyAll hes, fun _ he => hwf.confined he,
    fun i is => ⟨hwf.replaceWith_eq_false_iff i is, replaceWith_of_eq_false⟩⟩

/-- A text moved into an element, the text of which is then replaced by both. -/
theorem wellFormed_applyAll_texts :
    let h := (Heap.plant {} (.document [.element { name := "a" } [.text "x"], .text "y"])).1
    let es : List Edit := [.appendChild 1 3, .replaceWith 2 [3, 2], .detach 3]
    (Edit.applyAll h es).WellFormed ∧ Confined h (h.appendChild 1 3) [3] (some 1)
      ∧ (h.replaceWith 2 [0]).2 = false := by
  intro h es
  have hwf : h.WellFormed :=
    (wellFormed_empty.plant (.document [.element { name := "a" } [.text "x"], .text "y"])).wellFormed
  obtain ⟨hrun, hconfined, hrefused⟩ := wellFormed_applyAll hwf
  have hfirst : Edit.Allowed h (.appendChild 1 3) := by
    refine ⟨by decide, by decide, fun hr => ?_⟩
    exact absurd ((isAncestorOrSelf_iff hwf).mpr hr) (by decide)
  have hreaches : h.Reaches 0 1 := (isAncestorOrSelf_iff hwf).mp (by decide)
  refine ⟨hrun es ⟨hfirst, ⟨by decide, by decide⟩, trivial, trivial⟩, hconfined _ hfirst, ?_⟩
  exact (hrefused 2 [0]).1.mpr (.inr ⟨by decide, 1, by decide, 0, by simp, hreaches⟩)

end Heap

end RichText
