import RichText.Html.Construction.Basic
import RichText.Html.Serialize
import RichText.Proofs.Heap.Moves

/-!
What a parsed heap holds.

The heaps that the construction of a tree comes through obey two rules: the elements in them are
such as markup can carry, and only documents and elements that are written with an end tag have
children. Which names and attributes those are is left open (`Naming`).

* `Heap.CanHold`: a node that may have children;
* `Heap.Sound`: the two rules, kept by every move (`Sound.detach`, `Sound.appendChild`,
  `Sound.insertAt`, `Sound.moveChildren`) and by new nodes (`Sound.push`);
* `Sound.putNode`, `Sound.putText`: nodes and text put in their place.
-/

namespace RichText

/-- The names and the attributes that tags may have, the elements, and the names of document
types. -/
structure Naming where
  tag : String → Prop
  attributes : List Attribute → Prop
  element : Element → Prop
  doctype : String → Prop

/-- Whether what a node is has been allowed. -/
def Content.Named (N : Naming) : Content → Prop
  | .element e => N.element e
  | .doctype name _ _ => N.doctype name
  | _ => True

/-- Whether what a node is lets it have children. -/
def Content.Holds : Content → Prop
  | .document => True
  | .element e => e.isVoid = false
  | _ => False

namespace Heap

variable {N : Naming} {h h' : Heap} {i j p : ℕ}

/-- A node that may have children. -/
def CanHold (h : Heap) (i : ℕ) : Prop := i < h.size ∧ (h.content i).Holds

/-- What is in the heap is allowed, and only what may have children has some. -/
structure Sound (N : Naming) (h : Heap) : Prop where
  named : ∀ i, (h.content i).Named N
  holds : ∀ i, h.children i ≠ [] → h.CanHold i
  contents : ∀ i j, (h.node i).contents = some j → h.CanHold j

/-- Nodes that may have children still may. -/
def Keeps (h h' : Heap) : Prop := ∀ i, h.CanHold i → h'.CanHold i

lemma Keeps.refl (h : Heap) : h.Keeps h := fun _ hi => hi

lemma Keeps.trans {h'' : Heap} (h₁ : h.Keeps h') (h₂ : h'.Keeps h'') : h.Keeps h'' :=
  fun i hi => h₂ i (h₁ i hi)

/-! ### Moves -/

lemma canHold_of_bare (hsize : h'.size = h.size) (hbare : h'.bare i = h.bare i) :
    h'.CanHold i ↔ h.CanHold i := by
  have hcontent : h'.content i = h.content i := congrArg Prod.fst hbare
  rw [CanHold, CanHold, hsize, hcontent]

/-- The rules are about what nodes are and which have children. -/
lemma Sound.of_bare (hs : h.Sound N) (hsize : h'.size = h.size)
    (hbare : ∀ i, h'.bare i = h.bare i) (hch : ∀ i, h'.children i ≠ [] → h.CanHold i) :
    h'.Sound N where
  named i := by
    have hcontent : h'.content i = h.content i := congrArg Prod.fst (hbare i)
    rw [hcontent]
    exact hs.named i
  holds i hi := (canHold_of_bare hsize (hbare i)).mpr (hch i hi)
  contents i j hj := by
    have hcontents : (h'.node i).contents = (h.node i).contents := congrArg Prod.snd (hbare i)
    exact (canHold_of_bare hsize (hbare j)).mpr (hs.contents i j (hcontents ▸ hj))

@[simp] lemma canHold_setParent {o : Option NodeId} :
    (h.setParent i o).CanHold j ↔ h.CanHold j :=
  canHold_of_bare (size_setParent ..) (bare_setParent ..)

@[simp] lemma canHold_setChildren {cs : List NodeId} :
    (h.setChildren i cs).CanHold j ↔ h.CanHold j :=
  canHold_of_bare (size_setChildren ..) (bare_setChildren ..)

@[simp] lemma canHold_setParents {is : List NodeId} :
    (h.setParents is p).CanHold j ↔ h.CanHold j :=
  canHold_of_bare (size_setParents ..) (bare_setParents ..)

@[simp] lemma canHold_detach : (h.detach i).CanHold j ↔ h.CanHold j :=
  canHold_of_bare (size_detach ..) (bare_detach ..)

@[simp] lemma canHold_detachAll {is : List NodeId} : (h.detachAll is).CanHold j ↔ h.CanHold j :=
  canHold_of_bare (size_detachAll ..) (bare_detachAll ..)

lemma Sound.setParent (hs : h.Sound N) (i : NodeId) (o : Option NodeId) :
    (h.setParent i o).Sound N :=
  hs.of_bare (size_setParent ..) (bare_setParent h i · o) fun j hj =>
    hs.holds j (by rwa [children_setParent] at hj)

lemma Sound.setParents (hs : h.Sound N) (is : List NodeId) (p : NodeId) :
    (h.setParents is p).Sound N :=
  hs.of_bare (size_setParents ..) (bare_setParents h is p) fun j hj =>
    hs.holds j (by rwa [children_setParents] at hj)

/-- Children may be given to a node that may have some. -/
lemma Sound.setChildren (hs : h.Sound N) {cs : List NodeId} (hcs : cs ≠ [] → h.CanHold i) :
    (h.setChildren i cs).Sound N := by
  refine hs.of_bare (size_setChildren ..) (bare_setChildren h i · cs) fun j hj => ?_
  rw [children_setChildren] at hj
  split at hj
  · next hij => exact hij.1 ▸ hcs hj
  · exact hs.holds j hj

lemma Sound.clear (hs : h.Sound N) (i : ℕ) : (h.setChildren i []).Sound N :=
  hs.setChildren fun hnil => absurd rfl hnil

lemma Sound.detach (hs : h.Sound N) (i : NodeId) : (h.detach i).Sound N := by
  cases hp : h.parent i with
  | none => rwa [detach_of_parent_eq_none hp]
  | some p =>
      rw [detach_of_parent_eq_some hp]
      refine (hs.setParent i none).setChildren fun hcs => ?_
      refine canHold_setParent.mpr (hs.holds p fun hnil => hcs ?_)
      rw [hnil, List.filter_nil]

lemma Sound.detachAll (hs : h.Sound N) (is : List NodeId) : (h.detachAll is).Sound N := by
  induction is generalizing h with
  | nil => exact hs
  | cons i is ih => exact ih (hs.detach i)

lemma Sound.appendChild (hs : h.Sound N) (hp : h.CanHold p) (i : NodeId) :
    (h.appendChild p i).Sound N :=
  ((hs.detach i).setParent i (some p)).setChildren fun _ =>
    canHold_setParent.mpr (canHold_detach.mpr hp)

lemma canHold_appendChild : (h.appendChild p i).CanHold j ↔ h.CanHold j := by
  simp [Heap.appendChild]

lemma Sound.insertAt (hs : h.Sound N) (hp : h.CanHold p) (index : ℕ) (is : List NodeId) :
    (h.insertAt p index is).Sound N :=
  ((hs.detachAll is).setParents is p).setChildren fun _ =>
    canHold_setParents.mpr (canHold_detachAll.mpr hp)

lemma canHold_insertAt {index : ℕ} {is : List NodeId} :
    (h.insertAt p index is).CanHold j ↔ h.CanHold j := by
  simp [Heap.insertAt]

lemma Sound.moveChildren (hs : h.Sound N) {target : ℕ} (ht : h.CanHold target)
    (source : NodeId) : (h.moveChildren source target).Sound N :=
  ((hs.clear source).setParents _ _).setChildren fun _ =>
    canHold_setParents.mpr (canHold_setChildren.mpr ht)

lemma canHold_moveChildren {source target : NodeId} :
    (h.moveChildren source target).CanHold j ↔ h.CanHold j := by
  simp [Heap.moveChildren]

/-! ### New and changed nodes -/

lemma content_push (h : Heap) (n : Node) (i : ℕ) :
    (h.push n).content i = if i = h.size then n.content else h.content i := by
  rw [content, node_push]
  split <;> rfl

lemma keeps_push (h : Heap) (n : Node) : h.Keeps (h.push n) := by
  intro i hi
  refine ⟨by simpa using Nat.lt_succ_of_lt hi.1, ?_⟩
  rw [content_push, if_neg (Nat.ne_of_lt hi.1)]
  exact hi.2

/-- A new node without children. -/
lemma Sound.push (hs : h.Sound N) {n : Node} (hn : n.content.Named N) (hch : n.children = [])
    (hcontents : ∀ j, n.contents = some j → (h.push n).CanHold j) : (h.push n).Sound N where
  named i := by
    rw [content_push]
    split
    · exact hn
    · exact hs.named i
  holds i hi := by
    rw [children, node_push] at hi
    split at hi
    · exact absurd hch hi
    · exact keeps_push h n i (hs.holds i hi)
  contents i j hj := by
    rw [node_push] at hj
    split at hj
    · exact hcontents j hj
    · exact keeps_push h n j (hs.contents i j hj)

/-- A new node whose contents stand below a second one. -/
lemma Sound.pushHolder (hs : h.Sound N) {c : Content} (hc : c.Named N) :
    ((h.push { content := c, contents := some (h.size + 1) }).push
      { content := .document }).Sound N := by
  have hk : h.Keeps ((h.push { content := c, contents := some (h.size + 1) }).push
      { content := .document }) := (keeps_push _ _).trans (keeps_push _ _)
  constructor
  · intro i
    rw [content_push]
    split
    · trivial
    · rw [content_push]
      split
      · exact hc
      · exact hs.named i
  · intro i hi
    refine hk i (hs.holds i fun hnil => hi ?_)
    rw [children, node_push, node_push]
    split
    · rfl
    · split
      · rfl
      · exact hnil
  · intro i j hj
    rw [node_push, node_push] at hj
    split at hj
    · simp at hj
    · split at hj
      · obtain rfl := Option.some.inj hj
        refine ⟨by simp, ?_⟩
        rw [content_push, if_pos (by simp)]
        trivial
      · exact hk j (hs.contents i j hj)

lemma content_update (h : Heap) (i j : ℕ) (f : Node → Node) :
    (h.update i f).content j
      = if i = j ∧ j < h.size then (f (h.node j)).content else h.content j := by
  rw [content, node_update]
  split <;> rfl

/-- A node turned into another of its kind. -/
lemma keeps_update {c : Content} (hc : (h.content i).Holds → c.Holds) :
    h.Keeps (h.update i fun n => { n with content := c }) := by
  intro j hj
  refine ⟨by simpa using hj.1, ?_⟩
  rw [content_update]
  split
  · next hij => exact hc (hij.1 ▸ hj.2)
  · exact hj.2

lemma Sound.update (hs : h.Sound N) {c : Content} (hn : c.Named N)
    (hc : (h.content i).Holds → c.Holds) :
    (h.update i fun n => { n with content := c }).Sound N where
  named j := by
    rw [content_update]
    split
    · exact hn
    · exact hs.named j
  holds j hj := by
    refine keeps_update hc j (hs.holds j ?_)
    rw [children, node_update] at hj
    split at hj <;> exact hj
  contents j k hk := by
    refine keeps_update hc k (hs.contents j k ?_)
    rw [node_update] at hk
    split at hk <;> exact hk

end Heap

namespace Construction

variable {N : Naming} {h : Heap}

/-! ### Places -/

/-- A place that leads to a node that may have children. -/
def Place.Sound (h : Heap) : Place → Prop
  | .inside p => h.CanHold p
  | .beforeTable _ around => h.CanHold around

lemma Place.Sound.keeps {h' : Heap} {place : Place} (hp : place.Sound h) (hk : h.Keeps h') :
    place.Sound h' := by
  cases place with
  | inside p => exact hk p hp
  | beforeTable table around => exact hk around hp

/-- The parent of a table may have children, since it has one. -/
lemma canHold_of_besideTable? (hs : h.Sound N) {table p : NodeId} {index : ℕ}
    (hb : besideTable? h table = some (p, index)) : h.CanHold p := by
  simp only [besideTable?, Option.bind_eq_bind, Option.bind_eq_some_iff, Option.pure_def,
    Option.some.injEq, Prod.mk.injEq] at hb
  obtain ⟨q, -, k, hk, rfl, rfl⟩ := hb
  refine hs.holds q fun hnil => ?_
  rw [hnil] at hk
  simp at hk

lemma keeps_putNode (h : Heap) (i : NodeId) (place : Place) : h.Keeps (putNode h i place) := by
  intro j hj
  cases place with
  | inside p => exact Heap.canHold_appendChild.mpr hj
  | beforeTable table around =>
      rw [putNode]
      split
      · exact Heap.canHold_insertAt.mpr hj
      · exact Heap.canHold_appendChild.mpr hj

/-- A node put in its place. -/
lemma sound_putNode (hs : h.Sound N) (i : NodeId) {place : Place} (hp : place.Sound h) :
    (putNode h i place).Sound N := by
  cases place with
  | inside p => exact hs.appendChild hp i
  | beforeTable table around =>
      rw [putNode]
      split
      · next hb => exact hs.insertAt (canHold_of_besideTable? hs hb) _ _
      · exact hs.appendChild hp i

lemma keeps_putTextBehind (h : Heap) (p : NodeId) (previous : Option NodeId) (index : ℕ)
    (s : String) : h.Keeps (putTextBehind h p previous index s) := by
  unfold putTextBehind
  split
  · next i t hi =>
      obtain ⟨j, -, hj⟩ := Option.map_eq_some_iff.mp hi
      obtain ⟨rfl, ht⟩ := Prod.mk.inj hj
      exact Heap.keeps_update fun hh => by simp [ht, Content.Holds] at hh
  · exact (Heap.keeps_push _ _).trans fun j hj => Heap.canHold_insertAt.mpr hj

lemma sound_putTextBehind (hs : h.Sound N) {p : NodeId} (hp : h.CanHold p)
    (previous : Option NodeId) (index : ℕ) (s : String) :
    (putTextBehind h p previous index s).Sound N := by
  unfold putTextBehind
  split
  · next i t hi =>
      obtain ⟨j, -, hj⟩ := Option.map_eq_some_iff.mp hi
      obtain ⟨rfl, ht⟩ := Prod.mk.inj hj
      exact hs.update trivial fun hh => by simp [ht, Content.Holds] at hh
  · exact (hs.push (n := { content := .text s }) trivial rfl (by simp)).insertAt
      (Heap.keeps_push _ _ p hp) _ _

lemma keeps_putText (h : Heap) (s : String) (place : Place) : h.Keeps (putText h s place) := by
  cases place with
  | inside p => exact keeps_putTextBehind h p _ _ s
  | beforeTable table around =>
      rw [putText]
      split <;> exact keeps_putTextBehind h _ _ _ s

/-- Text put in its place. -/
lemma sound_putText (hs : h.Sound N) (s : String) {place : Place} (hp : place.Sound h) :
    (putText h s place).Sound N := by
  cases place with
  | inside p => exact sound_putTextBehind hs hp ..
  | beforeTable table around =>
      rw [putText]
      split
      · next hb => exact sound_putTextBehind hs (canHold_of_besideTable? hs hb) ..
      · exact sound_putTextBehind hs hp ..

end Construction

end RichText
