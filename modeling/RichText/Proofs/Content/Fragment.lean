import RichText.Proofs.Content.Reading

/-!
A plain forest written and read as a fragment.

A fragment is read inside its outermost element from the start, in the mode of a body.

* `inside_startFragment`: the construction begins inside the outermost element;
* `forest_startFragment`: the document, when trees have grown there;
* `parseFragment_serialize`, `readMarkup_writeNodes`: **a written plain forest** is read back as
  it was, without faults.
-/

namespace RichText

variable {ts : List Tree}

lemma withoutByteOrderMark_eq_self {s : List Char} (hs : s.head? ≠ some '\ufeff') :
    withoutByteOrderMark s = s := by
  rw [withoutByteOrderMark]
  rintro s rfl
  exact hs rfl

namespace Construction

open Heap

/-- The outermost element of a fragment, which is open from the start. -/
def fragmentElement : OpenElement := { id := 1, name := "html" }

/-- The nodes in front of a fragment. -/
def fragmentNodes : Heap where
  nodes := #[{ content := .document, children := [1] },
    { content := .element { name := "html" }, parent := some 0 }]

lemma heap_startFragment : startFragment.heap = fragmentNodes := rfl

lemma plant_fragmentNodes :
    (Heap.plant {} (.document [.element { name := "html" } []])).1 = fragmentNodes := rfl

/-- A fragment is read inside its outermost element. -/
lemma inside_startFragment : startFragment.Inside fragmentElement [] fragmentElement.id where
  stack := rfl
  mode_or := .inl rfl
  mode := rfl
  settled f hf := by
    have hnone : startFragment.formatting = [] := rfl
    simp [hnone] at hf
  fostering := rfl
  dropsNewline := rfl
  vocabulary := rfl
  holder_eq := rfl
  wellFormed := by
    rw [heap_startFragment, ← plant_fragmentNodes]
    exact (Heap.wellFormed_empty.plant _).wellFormed
  open_lt := by decide
  id_lt := by decide

lemma hasParagraph_startFragment : startFragment.hasParagraph = false := rfl

lemma not_endsInText_startFragment : ¬ startFragment.heap.EndsInText fragmentElement.id := by
  rintro ⟨i, x, hlast, -⟩
  exact absurd hlast
    (by simp [heap_startFragment, fragmentNodes, Heap.children, Heap.node, fragmentElement])

/-- The document when trees have grown inside the outermost element. -/
lemma forest_startFragment {h : Heap}
    (hts : Heap.PlantedBelow startFragment.heap h fragmentElement.id ts) :
    h.forest startFragment.root = [.element { name := "html" } ts] := by
  obtain ⟨ss, hch, hss, hnd, hge, hread⟩ := hts.carries
  rw [heap_startFragment] at hts hch hge
  have h₀ : h.node 0 = fragmentNodes.node 0 := hts.node_eq 0 (by decide) (by decide)
  have hbare : h.bare 1 = (.element { name := "html" }, none) := hts.bare_eq
  rw [Heap.bare, Prod.mk.injEq] at hbare
  have hcontent : h.content 1 = .element { name := "html" } := hbare.1
  have hchildren : h.children startFragment.root = [Layout.node 1 ss].map Layout.id :=
    Heap.children_congr h₀
  have hlt : 1 < h.size := Nat.lt_of_lt_of_le (by decide) hts.size_le
  have hcarries : h.CarriesAll [.node 1 ss] :=
    ⟨⟨hlt, hbare.2, by simp [hcontent, Content.isLeaf], hch, hss⟩, trivial⟩
  have hfresh : (Layout.idsAll [.node 1 ss]).Nodup := by
    have hnot : 1 ∉ Layout.idsAll ss := fun hmem => Nat.not_lt.mpr (hge 1 hmem) (by decide)
    simp [Layout.idsAll, Layout.ids, hnd, hnot]
  rw [Heap.forest_eq_readAll hchildren hcarries hfresh]
  simp only [Heap.readAll, Heap.read, hcontent, hread]

/-- No element is missing its end tag when only the outermost element of a fragment is open. -/
lemma errors_checkClosed_grown (h : Heap) (ok : Bool) :
    (startFragment.grown h ok).checkClosed.errors = [] := rfl

end Construction

open Construction in
/-- **A written plain forest is read back** as a fragment, without faults. -/
theorem parseFragment_serialize (hts : Tree.isPlainAll false ts = true)
    (hmark : (serialize ts).head? ≠ some '\ufeff') : parseFragment (serialize ts) = (ts, []) := by
  obtain ⟨h, ok, limit, hbuild, hplanted⟩ := grows_forest hts inside_startFragment
    (fun _ => hasParagraph_startFragment) (fun _ => not_endsInText_startFragment) [] (by simp) none
  have hinside := inside_startFragment.grown hplanted ok
  rw [List.append_nil, build, hinside.finish_eq rfl] at hbuild
  have hjoined : '\r' ∉ serialize ts := notMem_serializeNodes hts
  have hprepare : prepare (serialize ts) = serialize ts := by
    rw [prepare, withoutByteOrderMark_eq_self hmark, joinNewlines_eq_self hjoined]
  rw [parseFragment, hprepare, hbuild, heap_checkClosed, root_checkClosed, errors_checkClosed_grown,
    heap_grown]
  have hforest : h.forest (startFragment.grown h ok).root = [.element { name := "html" } ts] :=
    forest_startFragment hplanted
  rw [hforest]
  simp [unroot]

/-- **A written plain forest is read back** as markup, without faults. -/
theorem readMarkup_writeNodes (hts : Tree.isPlainAll false ts = true)
    (hmark : (serialize ts).head? ≠ some '\ufeff') : readMarkup (writeNodes ts) = (ts, []) := by
  have hwritten : (writeNodes ts).toList = serialize ts := String.toList_ofList
  rw [readMarkup, hwritten, parseFragment_serialize hts hmark]
  rfl

end RichText
