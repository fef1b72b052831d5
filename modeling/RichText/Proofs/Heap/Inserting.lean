import RichText.Proofs.Heap.Edits

/-!
Where nodes go that are put into a child list.

The place between two parts of a list is told by an index. The nodes may have stood in the list
before, so that taking them out moves the place; it is found again by the child that stood at the
index. If that child is itself one of the nodes, what is left is counted instead, and the place is
missed if some of the nodes stood in front of it and others than the nodes stood behind.

* `between`: nodes between two parts of a list, from which they have been taken out;
* `PlaceFound`: whether an index that is not in front of a place leads to it; `PlaceKept`: whether
  the index of the place itself does;
* `WellFormed.children_insertAt_eq_between_iff`: **nodes go between two parts** exactly if their
  place is found;
* `WellFormed.children_insertAt_iff`: insertions at an index, and replacements.
-/

namespace RichText

namespace Heap

variable {h : Heap} {i p : NodeId} {as bs is : List NodeId} {index : ℕ}

/-- The nodes `is` between two parts of a child list, from which they have been taken out. -/
def between (as is bs : List NodeId) : List NodeId :=
  as.filter (· ∉ is) ++ is ++ bs.filter (· ∉ is)

/-- Whether nodes that go in at an index come to stand between `as` and `bs`, where the index is
not in front of that place. The child at the index shows where they go: those that it passes over
must be among the nodes. A child that is among the nodes shows nothing, and then no place may have
moved. Where none of `bs` is left, any index will do. -/
def PlaceFound (as bs : List NodeId) (index : ℕ) (is : List NodeId) : Prop :=
  is = [] ∨ (∀ k ∈ bs, k ∈ is)
    ∨ if bs[index - as.length]?.any (· ∈ is) then index = as.length ∧ ∀ k ∈ as, k ∉ is
      else ∀ k ∈ bs.take (index - as.length), k ∈ is

/-- Whether nodes that go in between `as` and `bs` leave the others on their sides: the child
behind the place stays, or none of the nodes comes from the front, or nothing else is behind. -/
def PlaceKept (as bs is : List NodeId) : Prop :=
  (∀ k ∈ as, k ∉ is) ∨ (∀ k ∈ bs, k ∈ is) ∨ ∀ k ∈ bs.head?, k ∉ is

/-- The index of the place itself leads to it if the place is kept. -/
lemma placeFound_length_iff : PlaceFound as bs as.length is ↔ PlaceKept as bs is := by
  rw [PlaceFound, PlaceKept, Nat.sub_self, List.take_zero]
  cases bs with
  | nil => simp
  | cons b bs =>
      by_cases hb : b ∈ is
      · have hne : is ≠ [] := List.ne_nil_of_mem hb
        simp [hb, hne, or_comm]
      · simp [hb]

/-- At the end of a list nothing is behind the place. -/
lemma placeFound_nil : PlaceFound as [] index is :=
  .inr (.inl (by simp))

/-! ### One place in a list -/

/-- Nodes stand at one place of a list only. -/
lemma eq_of_take_append_drop_eq {rest : List NodeId} {m n : ℕ} (hne : is ≠ [])
    (hfree : ∀ k ∈ is, k ∉ rest) (hm : m ≤ rest.length) (hn : n ≤ rest.length)
    (heq : rest.take m ++ is ++ rest.drop m = rest.take n ++ is ++ rest.drop n) : m = n := by
  obtain ⟨a, is, rfl⟩ := List.exists_cons_of_ne_nil hne
  have ha : a ∉ rest := hfree a (by simp)
  -- both sides have the first of the nodes behind as many others as were taken
  have hidx : ∀ j ≤ rest.length,
      (rest.take j ++ a :: is ++ rest.drop j).idxOf? a = some j := by
    intro j hj
    rw [List.append_assoc, List.cons_append,
      idxOf?_append_cons fun hmem => ha (List.mem_of_mem_take hmem), List.length_take,
      Nat.min_eq_left hj]
  have h1 := hidx m hm
  rw [heq, hidx n hn, Option.some.injEq] at h1
  exact h1.symm

/-- The place that is counted or shown when the nodes have been taken out is in the list. -/
lemma insertionIndex_le (siblings : List NodeId) (next : Option NodeId) (index : ℕ) :
    insertionIndex siblings next index ≤ siblings.length := by
  rw [insertionIndex]
  split
  · next i hi =>
      obtain ⟨n, -, hn⟩ := Option.bind_eq_some_iff.mp hi
      obtain ⟨hlt, -⟩ := List.idxOf?_eq_some_iff.mp hn
      exact Nat.le_of_lt hlt
  · exact Nat.min_le_right ..

lemma length_filter_eq_iff {cs : List NodeId} :
    (cs.filter (· ∉ is)).length = cs.length ↔ ∀ k ∈ cs, k ∉ is := by
  rw [List.length_filter_eq_length_iff]
  simp

/-- The place that is found by the child at the index is behind those that have been passed over
and are left. -/
lemma insertionIndex_of_notMem {b : NodeId} {cs bs : List NodeId} (hnd : (cs ++ b :: bs).Nodup)
    (hb : b ∉ is) :
    insertionIndex ((cs ++ b :: bs).filter (· ∉ is)) (some b) index
      = (cs.filter (· ∉ is)).length := by
  have hbc : b ∉ cs.filter (· ∉ is) := fun hmem =>
    (List.nodup_append.mp hnd).2.2 b (List.mem_filter.mp hmem).1 b (by simp) rfl
  have hfilter : (cs ++ b :: bs).filter (· ∉ is)
      = cs.filter (· ∉ is) ++ b :: bs.filter (· ∉ is) := by
    rw [List.filter_append, List.filter_cons_of_pos (by simpa using hb)]
  rw [insertionIndex, hfilter, Option.bind_some, idxOf?_append_cons hbc]

/-- Without a child that shows the place, what is left is counted. -/
lemma insertionIndex_of_forall_mem {cs : List NodeId} {next : Option NodeId}
    (hnext : ∀ k ∈ next, k ∈ is) :
    insertionIndex (cs.filter (· ∉ is)) next index = min index (cs.filter (· ∉ is)).length := by
  cases next with
  | none => rfl
  | some b =>
      have hb : (cs.filter (· ∉ is)).idxOf? b = none :=
        List.idxOf?_eq_none_iff.mpr fun hmem =>
          of_decide_eq_true (List.mem_filter.mp hmem).2 (hnext b rfl)
      rw [insertionIndex, Option.bind_some, hb]

/-- **The place is found** exactly if what has been passed over does not count. -/
lemma insertionIndex_eq_iff (hnd : (as ++ bs).Nodup) (hindex : as.length ≤ index)
    (hne : is ≠ []) :
    insertionIndex ((as ++ bs).filter (· ∉ is)) (as ++ bs)[index]? index
        = (as.filter (· ∉ is)).length
      ↔ PlaceFound as bs index is := by
  have hget : (as ++ bs)[index]? = bs[index - as.length]? := List.getElem?_append_right hindex
  have hfront : (as.filter (· ∉ is)).length ≤ as.length := List.length_filter_le ..
  have hbehind : (bs.filter (· ∉ is)).length ≤ bs.length := List.length_filter_le ..
  have hlength : ((as ++ bs).filter (· ∉ is)).length
      = (as.filter (· ∉ is)).length + (bs.filter (· ∉ is)).length := by
    rw [List.filter_append, List.length_append]
  have hnone : (bs.filter (· ∉ is)).length = 0 ↔ ∀ k ∈ bs, k ∈ is := by
    simp [List.length_eq_zero_iff, List.filter_eq_nil_iff]
  rw [hget, PlaceFound, or_iff_right hne]
  by_cases hall : ∀ k ∈ bs, k ∈ is
  · rw [insertionIndex_of_forall_mem fun k hk => hall k (List.mem_of_getElem? hk), hlength,
      hnone.mpr hall, iff_true_right (.inl hall)]
    omega
  rw [or_iff_right hall]
  have hleft := mt hnone.mp hall
  split
  · next hany =>
      -- the child at the index is among the nodes: only an index that counts all in front is right
      obtain ⟨b, hb, hmem⟩ := Option.any_eq_true _ _ |>.mp hany
      rw [insertionIndex_of_forall_mem fun k hk => by
        rw [hb, Option.mem_some_iff] at hk
        exact hk ▸ of_decide_eq_true hmem, hlength, ← length_filter_eq_iff]
      omega
  · next hany =>
      cases hb : bs[index - as.length]? with
      | none =>
          -- the index is behind the list
          have hle := List.getElem?_eq_none_iff.mp hb
          rw [insertionIndex_of_forall_mem (by simp), hlength, List.take_of_length_le hle,
            iff_false_right hall]
          omega
      | some b =>
          have hbi : b ∉ is := fun hmem => hany (by
            rw [hb, Option.any_some]
            exact decide_eq_true hmem)
          obtain ⟨hlt, hbs⟩ := List.getElem?_eq_some_iff.mp hb
          have hsplit : as ++ bs
              = as ++ bs.take (index - as.length) ++ b :: bs.drop (index - as.length + 1) := by
            rw [List.append_assoc, ← hbs, List.cons_getElem_drop_succ, List.take_append_drop]
          have hpassed : ((bs.take (index - as.length)).filter (· ∉ is)).length = 0
              ↔ ∀ k ∈ bs.take (index - as.length), k ∈ is := by
            simp [List.length_eq_zero_iff, List.filter_eq_nil_iff]
          rw [hsplit] at hnd ⊢
          rw [insertionIndex_of_notMem hnd hbi, List.filter_append, List.length_append, ← hpassed]
          omega

/-! ### Child lists -/

/-- **Nodes go between two parts of a child list**, with the others on their sides, exactly if
the place is found by the index. -/
theorem WellFormed.children_insertAt_eq_between_iff (hwf : h.WellFormed) (hp : p < h.size)
    (hch : h.children p = as ++ bs) (hindex : as.length ≤ index) (is : List NodeId) :
    (h.insertAt p index is).children p = between as is bs ↔ PlaceFound as bs index is := by
  have hnd := hwf.nodup p
  rw [hch] at hnd
  rw [hwf.children_insertAt hp, if_pos rfl, insertionPlace, hch]
  by_cases hne : is = []
  · subst hne
    simp [between, PlaceFound]
  -- the list that is claimed has the nodes behind what is left of `as`
  have hbetween : between as is bs
      = ((as ++ bs).filter (· ∉ is)).take (as.filter (· ∉ is)).length ++ is
        ++ ((as ++ bs).filter (· ∉ is)).drop (as.filter (· ∉ is)).length := by
    rw [between, List.filter_append, List.take_left, List.drop_left]
  rw [← insertionIndex_eq_iff hnd hindex hne, hbetween]
  refine ⟨fun heq => ?_, fun heq => by rw [heq]⟩
  refine eq_of_take_append_drop_eq hne (fun k hk hmem => ?_) (insertionIndex_le ..) ?_ heq
  · exact of_decide_eq_true (List.mem_filter.mp hmem).2 hk
  · rw [List.filter_append, List.length_append]
    exact Nat.le_add_right ..

/-- A replacement that is not refused puts the nodes between the siblings exactly if the place is
kept. -/
lemma WellFormed.children_replaceWith_eq_between_iff (hwf : h.WellFormed)
    (hch : h.children p = as ++ i :: bs) (htrue : (h.replaceWith i is).2 = true) :
    (h.replaceWith i is).1.children p = between as is bs ↔ PlaceKept as bs is := by
  have hmem : i ∈ h.children p := by rw [hch]; simp
  have hnd := hwf.nodup p
  rw [hch] at hnd
  by_cases hself : is = [i]
  · -- the node stays, and is no sibling of itself
    subst hself
    have hcut := filter_ne_append_cons hnd
    have has : ∀ k ∈ as, k ≠ i := fun k hk => (List.nodup_append.mp hnd).2.2 k hk i (by simp)
    have hbs : ∀ k ∈ bs, k ≠ i := by
      rintro k hk rfl
      exact (List.nodup_cons.mp (List.nodup_append.mp hnd).2.1).1 hk
    have hstays : (h.replaceWith i [i]).1 = h := by
      simp [replaceWith, hwf.position_eq_some hch]
    rw [hstays, hch, between, List.filter_eq_self.mpr (by simpa using has),
      List.filter_eq_self.mpr (by simpa using hbs)]
    simpa using (show PlaceKept as bs [i] from .inl (by simpa using has))
  · have hfree : ∀ n ∈ is, ¬ h.Reaches n p := by
      obtain ⟨p', -, hp', hnot, -⟩ := hwf.exists_of_replaceWith htrue
      rw [hwf.parent_of_mem hmem, Option.some.injEq] at hp'
      exact fun n hn => hp' ▸ hnot n hn hself
    have hcut : (h.detach i).children p = as ++ bs := by
      rw [hwf.children_detach, hch, filter_ne_append_cons hnd]
    rw [hwf.replaceWith_eq hch is hfree, if_neg hself, ← placeFound_length_iff]
    exact (hwf.detach i).children_insertAt_eq_between_iff
      (by simpa using lt_size_of_child hmem) hcut (Nat.le_refl _) is

/-- **Nodes put in at an index, or in place of a node, leave the others on their sides** exactly if
the place is kept: the child behind it is not moved, or none of the nodes has stood in front, or
nothing else has stood behind. -/
theorem WellFormed.children_insertAt_iff (hwf : h.WellFormed) (hp : p < h.size)
    (is : List NodeId) :
    (∀ index, (h.insertAt p index is).children p
          = between ((h.children p).take index) is ((h.children p).drop index)
        ↔ PlaceKept ((h.children p).take index) ((h.children p).drop index) is)
      ∧ ∀ i as bs, h.children p = as ++ i :: bs → (h.replaceWith i is).2 = true →
        ((h.replaceWith i is).1.children p = between as is bs ↔ PlaceKept as bs is) := by
  refine ⟨fun index => ?_, fun i as bs hch htrue =>
    hwf.children_replaceWith_eq_between_iff hch htrue⟩
  have hlength : ((h.children p).take index).length ≤ index := by
    rw [List.length_take]
    exact Nat.min_le_left ..
  rw [hwf.children_insertAt_eq_between_iff hp (List.take_append_drop index _).symm hlength,
    ← placeFound_length_iff]
  rcases Nat.le_total index (h.children p).length with hle | hle
  · rw [List.length_take, Nat.min_eq_left hle]
  · rw [List.drop_of_length_le hle]
    exact iff_of_true placeFound_nil placeFound_nil

/-- Four texts. The first goes where it is to when it is put in front of the third. The second and
the first, put where the second stands, come to stand behind the third, and the first and the third,
put in place of the second, behind the fourth. -/
theorem WellFormed.children_insertAt_iff_texts :
    let h := (Heap.plant {} (.document [.text "a", .text "b", .text "c", .text "d"])).1
    (h.insertAt 0 2 [1]).children 0 = between [1, 2] [1] [3, 4]
      ∧ (h.insertAt 0 1 [2, 1]).children 0 ≠ between [1] [2, 1] [3, 4]
      ∧ (h.replaceWith 2 [1, 3]).1.children 0 ≠ between [1] [1, 3] [4] := by
  intro h
  have hwf : h.WellFormed :=
    (wellFormed_empty.plant (.document [.text "a", .text "b", .text "c", .text "d"])).wellFormed
  have hput := fun is => hwf.children_insertAt_iff (p := 0) (by decide) is
  refine ⟨((hput [1]).1 2).mpr ?_, mt ((hput [2, 1]).1 1).mp ?_,
    mt ((hput [1, 3]).2 2 [1] [3, 4] (by decide) (by decide)).mp ?_⟩
  all_goals
    simp only [PlaceKept]
    decide

end Heap

end RichText
