import RichText.Proofs.Construction.Flow
import RichText.Proofs.Content.Plain

/-!
Plain forests read inside an element of a body.

* `Grows`: a text that has been read has grown as trees inside an element, where the
  construction goes on;
* `grows_text`: a written text grows as one node;
* `grows_tree`, `grows_forest`: **a written plain forest grows** behind what is there.
-/

namespace RichText

namespace Construction

open Heap

variable {c c' : Construction} {e : OpenElement} {es : List OpenElement} {p : NodeId}
  {form : Char → List Char} {s rest : List Char}

/-- A unit that is a single token. -/
lemma build_cons {mode mode' : LexMode} {a : Char} {t : Token}
    (hnext : LexStep.next c.inForeignElement mode a s
      = { lexeme := { tokens := [t], rest }, mode := mode' })
    (hfeed : c.feed t = (c', .markup)) : c.build mode (a :: s) = c'.build mode' rest := by
  rw [build]
  simp only [hnext, feedAll, hfeed, Notice.lexMode]

/-! ### Growing -/

/-- Whether a text that is read from `c` on has grown as trees below the node `p` of `c'` when it
has been read. -/
def Grows (c c' : Construction) (p : NodeId) (written rest : List Char) (ts : List Tree) : Prop :=
  ∀ limit, ∃ h ok limit', c.build (.markup limit) (written ++ rest)
      = (c'.grown h ok).build (.markup limit') rest
    ∧ PlantedBelow c'.heap h p ts

/-- **Trees behind trees** that have grown. The rules may change between them, but not the nodes. -/
lemma Grows.trans {c'' : Construction} {written written' : List Char} {ts us : List Tree}
    (hp : p < c'.heap.size) (hheap : c''.heap = c'.heap)
    (hts : Grows c c' p written (written' ++ rest) ts)
    (hus : ∀ h ok, PlantedBelow c'.heap h p ts →
      Grows (c'.grown h ok) (c''.grown h ok) p written' rest us) :
    Grows c c'' p (written ++ written') rest (ts ++ us) := by
  intro limit
  obtain ⟨h, ok, limit', hbuild, hplanted⟩ := hts limit
  obtain ⟨h', ok', limit'', hbuild', hplanted'⟩ := hus h ok hplanted limit'
  refine ⟨h', ok', limit'', ?_, hheap ▸ hplanted.trans hplanted' hp⟩
  rw [List.append_assoc, hbuild, hbuild']
  rfl

/-- Trees behind trees that have grown by the same rules. -/
lemma Grows.append {written written' : List Char} {ts us : List Tree} (hc : c'.Inside e es p)
    (hts : Grows c c' p written (written' ++ rest) ts)
    (hus : ∀ h ok, PlantedBelow c'.heap h p ts →
      Grows (c'.grown h ok) (c'.grown h ok) p written' rest us) :
    Grows c c' p (written ++ written') rest (ts ++ us) :=
  hts.trans hc.id_lt rfl hus

/-! ### Text -/

/-- The rest of a written text, behind its first piece. -/
lemma grows_moreText (hc : c'.Within e es p) (hs : Writes '<' form s)
    (hrest : ∀ a ∈ rest.head?, a = '<') {x : String} {h : Heap} (ok : Bool)
    (hx : PlantedBelow c'.heap h p [.text x]) (limit : Option ℕ) :
    ∃ h' ok' limit', (c'.grown h ok).build (.markup limit) (s.flatMap form ++ rest)
        = (c'.grown h' ok').build (.markup limit') rest
      ∧ PlantedBelow c'.heap h' p [.text (x ++ String.ofList s)] := by
  induction hn : s.length using Nat.strong_induction_on generalizing s x h ok limit with
  | _ n ih =>
      by_cases hne : s = []
      · subst hne
        exact ⟨h, ok, limit, rfl, by simpa using hx⟩
      · have hc' := hc.grown hx ok
        obtain ⟨a, cs, u, v, limit', htext, rfl, hu, hnext⟩ :=
          exists_next_text hs hne hrest (c'.grown h ok).inForeignElement limit
        obtain ⟨ok', hfeed⟩ := hc'.feed_text hu
        have hlt : v.length < n := by
          have := List.length_pos_iff.mpr hu
          rw [List.length_append] at hn
          omega
        obtain ⟨h', ok'', limit'', hbuild, hplanted⟩ := ih v.length hlt hs.of_append_right ok'
          (hx.putText hc.id_lt (String.ofList u)) limit' rfl
        refine ⟨h', ok'', limit'', ?_, ?_⟩
        · rw [htext, build_cons hnext hfeed]
          exact hbuild
        · rwa [String.append_assoc, ← String.ofList_append] at hplanted

/-- **A written text** grows as one node, if every run that it can begin with does. -/
theorem grows_text (hc : c'.Within e es p) (hs : Writes '<' form s) (hne : s ≠ [])
    (hrest : ∀ a ∈ rest.head?, a = '<')
    (hfirst : ∀ u, u ≠ [] → u <+: s → ∃ h ok, c.feed (.text u) = (c'.grown h ok, .markup)
      ∧ PlantedBelow c'.heap h p [.text (String.ofList u)]) :
    Grows c c' p (s.flatMap form) rest [.text (String.ofList s)] := by
  intro limit
  obtain ⟨a, cs, u, v, limit', htext, rfl, hu, hnext⟩ :=
    exists_next_text hs hne hrest c.inForeignElement limit
  obtain ⟨h, ok, hfeed, hplanted⟩ := hfirst u hu (List.prefix_append u v)
  obtain ⟨h', ok', limit'', hbuild, hplanted'⟩ :=
    grows_moreText hc hs.of_append_right hrest ok hplanted limit'
  refine ⟨h', ok', limit'', ?_, ?_⟩
  · rw [htext, build_cons hnext hfeed, hbuild]
  · rwa [← String.ofList_append] at hplanted'

/-- Inside an element, text grows behind what is not text. -/
lemma Within.feed_firstText (hc : c.Within e es p) (hends : ¬ c.heap.EndsInText p)
    {u : List Char} (hu : u ≠ []) : ∃ h ok, c.feed (.text u) = (c.grown h ok, .markup)
      ∧ PlantedBelow c.heap h p [.text (String.ofList u)] := by
  obtain ⟨ok, hfeed⟩ := hc.feed_text hu
  exact ⟨_, ok, hfeed, hc.wellFormed.plantedBelow_putText hc.id_lt hends (String.ofList u)⟩

/-- A written plain text grows behind what is not text. -/
lemma grows_plainText (hc : c.Within e es p) {x : String} {inParagraph : Bool}
    (hx : (Tree.text x).isPlain inParagraph = true) (hends : ¬ c.heap.EndsInText p)
    (hrest : ∀ a ∈ rest.head?, a = '<') :
    Grows c c p (serializeNode {} (.text x)) rest [.text x] := by
  simp only [Tree.isPlain, Bool.and_eq_true, decide_eq_true_eq] at hx
  have hne : x.toList ≠ [] := by
    rw [ne_eq, String.toList_eq_nil_iff]
    exact hx.1
  have := grows_text hc (writes_escapeChar .betweenTags (isClean_iff.mp hx.2)) hne hrest
    fun u hu _ => hc.feed_firstText hends hu
  simpa [serializeNode_text, escape] using this

/-! ### Elements -/

/-- What the tags of plain names do. -/
lemma flows_of_isPlainName {name : String} (hname : isPlainName name = true) :
    Flows name ∧ (BodyStart.of name = .block ∧ name ∈ ["p", "div"]
      ∨ BodyStart.of name = .ordinary) := by
  rw [isPlainName, Bool.or_eq_true, decide_eq_true_eq] at hname
  rcases hname with hname | hname
  · have hall : ∀ n ∈ ["p", "div", "span"], (n = "p"
        ∨ BodyStart.of n = .block ∧ BodyEnd.of n = .block ∧ n ∉ OpenElement.impliedEnds
        ∨ BodyStart.of n = .ordinary ∧ BodyEnd.of n = .ordinary)
        ∧ (BodyStart.of n = .block ∧ n ∈ ["p", "div"] ∨ BodyStart.of n = .ordinary) := by decide
    exact hall name hname
  · have hother : ∀ {names : List String}, (∀ n ∈ names, isHyphenated n.toList = false) →
        name ∉ names := by
      intro names hall hmem
      rw [hall name hmem] at hname
      exact absurd hname (by decide)
    have hstart : BodyStart.of name = .ordinary := by
      have hall : ∀ r ∈ bodyStarts, ∀ n ∈ r.2, isHyphenated n.toList = false := by decide
      have hnone : bodyStarts.find? (fun r => decide (name ∈ r.2)) = none :=
        List.find?_eq_none.mpr fun r hr => by simpa using hother (hall r hr)
      rw [BodyStart.of, hnone]
      rfl
    have hend : BodyEnd.of name = .ordinary := by
      have hall : ∀ r ∈ bodyEnds, ∀ n ∈ r.2, isHyphenated n.toList = false := by decide
      have hnone : bodyEnds.find? (fun r => decide (name ∈ r.2)) = none :=
        List.find?_eq_none.mpr fun r hr => by simpa using hother (hall r hr)
      rw [BodyEnd.of, hnone]
      rfl
    exact ⟨.inr (.inr ⟨hstart, hend⟩), .inr hstart⟩

lemma elementOf_eq {n : Element} (hn : n.vocabulary = .html) :
    elementOf { name := n.name, attributes := n.attributes } = n := by
  cases n
  simp_all [elementOf]

/-- Inside an element that has just been opened. -/
lemma Inside.opened (hc : c.Inside e es p) {n : Element} (hname : n.name ≠ "template") :
    ({ c with
      heap := c.heap.grow p (.element n)
      stack := { id := c.heap.size, name := n.name } :: c.stack } : Construction).Inside
        { id := c.heap.size, name := n.name } c.stack c.heap.size where
  stack := rfl
  mode_or := .inl hc.mode
  mode := hc.mode
  settled := hc.settled
  fostering := hc.fostering
  dropsNewline := hc.dropsNewline
  vocabulary := rfl
  holder_eq := holder_of_name _ hname
  wellFormed := (hc.wellFormed.plantedBelow_grow (t := .element n []) hc.id_lt
    (by rw [Heap.plant, Heap.plantBelow])).wellFormed
  open_lt := by simp
  id_lt := by simp

/-- An element that has just been opened does not end in text. -/
lemma Inside.not_endsInText_grow (hc : c.Inside e es p) (n : Element) :
    ¬ (c.heap.grow p (.element n)).EndsInText c.heap.size := by
  rintro ⟨i, x, hlast, -⟩
  rw [children_grow hc.id_lt, if_neg (Nat.ne_of_gt hc.id_lt), Heap.children,
    node_of_size_le (Nat.le_refl _)] at hlast
  simp at hlast

/-- **An element** written as its tags grows with its children. -/
theorem grows_tags (hc : c.Inside e es p) {n : Element} (hvocabulary : n.vocabulary = .html)
    (hname : IsTagName n.name) (has : ∀ a ∈ n.attributes, a.Readable form)
    (hnd : (n.attributes.map (·.name)).Nodup) (hflows : Flows n.name)
    (hstart : BodyStart.of n.name = .block ∧ c.hasParagraph = false
      ∨ BodyStart.of n.name = .ordinary) {inside : List Char} {cs : List Tree}
    (hcs : ∀ c' : Construction, c'.Inside { id := c.heap.size, name := n.name } c.stack c.heap.size →
      ¬ c'.heap.EndsInText c.heap.size →
      Grows c' c' c.heap.size inside
        ('<' :: '/' :: n.name.toList ++ '>' :: rest) cs) :
    Grows c c p (tagText form n.name n.attributes ++ inside
      ++ ('<' :: '/' :: n.name.toList ++ ['>'])) rest [.element n cs] := by
  intro limit
  have htemplate : n.name ≠ "template" := by
    intro heq
    rw [heq] at hstart
    rcases hstart with ⟨h, -⟩ | h <;> exact absurd h (by decide)
  have hopened := hc.opened htemplate
  set c' : Construction := { c with
    heap := c.heap.grow p (.element n)
    stack := { id := c.heap.size, name := n.name } :: c.stack } with hc'
  -- the start tag, what is inside, the end tag
  obtain ⟨text, htext, hnext⟩ := next_startTag hname has hnd c.inForeignElement limit
    (inside ++ ('<' :: '/' :: n.name.toList ++ '>' :: rest))
  have hfeed : c.feed (.startTag { name := n.name, attributes := n.attributes })
      = (c', .markup) := by
    rw [hc.feed_startTag hstart rfl, elementOf_eq hvocabulary]
  obtain ⟨h, ok, limit', hbuild, hplanted⟩ := hcs c' hopened (hc.not_endsInText_grow n) none
  have hinside := hopened.grown hplanted ok
  have hend : (c'.grown h ok).feed (.endTag { name := n.name }) = (c.grown h ok, .markup) :=
    hinside.feed_endTag hflows
  refine ⟨h, ok, none, ?_, PlantedBelow.element hc.wellFormed hc.id_lt hplanted⟩
  have hwritten : tagText form n.name n.attributes ++ inside
      ++ ('<' :: '/' :: n.name.toList ++ ['>']) ++ rest = '<' :: text := by
    rw [← htext]
    simp
  rw [hwritten, build_cons hnext hfeed, hbuild]
  exact build_cons (next_endTag hname _ limit' rest) hend

/-- A plain element grows with its children. -/
lemma grows_element (hc : c.Inside e es p) {n : Element} (hn : n.isPlain = true)
    (hparagraph : n.name ∈ ["p", "div"] → c.hasParagraph = false) {cs : List Tree}
    (hcs : ∀ c' : Construction, c'.Inside { id := c.heap.size, name := n.name } c.stack c.heap.size →
      ¬ c'.heap.EndsInText c.heap.size →
      Grows c' c' c.heap.size (serialize cs)
        ('<' :: '/' :: n.name.toList ++ '>' :: rest) cs) :
    Grows c c p (serializeNode {} (.element n cs)) rest [.element n cs] := by
  obtain ⟨hvocabulary, hname, has, hnd⟩ := Element.isPlain_iff.mp hn
  obtain ⟨hflows, hstart⟩ := flows_of_isPlainName hname
  rw [serializeNode_of_isPlain hn]
  exact grows_tags hc hvocabulary (isTagName_of_isPlainName hname)
    (fun a ha => Attribute.readable_of_isPlain (has a ha)) hnd hflows
    (hstart.imp_left fun h => ⟨h.1, hparagraph h.2⟩) hcs

mutual

/-- **A written plain tree grows.** -/
theorem grows_tree : ∀ {t : Tree} {inParagraph : Bool}, t.isPlain inParagraph = true →
    ∀ {c : Construction} {e : OpenElement} {es : List OpenElement} {p : NodeId}, c.Inside e es p →
      (inParagraph = false → c.hasParagraph = false) →
      (t.isText = true → ¬ c.heap.EndsInText p) →
      ∀ rest : List Char, (t.isText = true → ∀ a ∈ rest.head?, a = '<') →
        Grows c c p (serializeNode {} t) rest [t]
  | .element n cs, inParagraph, ht, c, e, es, p, hc, hparagraph, _, rest, _ => by
      simp only [Tree.isPlain, Bool.and_eq_true, Bool.not_eq_true', Bool.and_eq_false_iff,
        decide_eq_false_iff_not] at ht
      obtain ⟨⟨hn, hblock⟩, hcs⟩ := ht
      refine grows_element hc hn (fun hmem => hparagraph (hblock.resolve_right (not_not.mpr hmem)))
        fun c' hc' hempty => grows_forest hcs hc' (fun hnone => ?_) (fun _ => hempty) _ (by simp)
      obtain ⟨hoff, hname⟩ := Bool.or_eq_false_iff.mp hnone
      have hnamed : ({ id := c.heap.size, name := n.name } : OpenElement).named "p" = false := by
        simpa [OpenElement.named] using hname
      have hbefore := hparagraph hoff
      rw [hasParagraph] at hbefore
      rw [hasParagraph, hc'.stack, inScope, hnamed, hbefore, Bool.and_false, Bool.or_false]
  | .text x, inParagraph, ht, c, e, es, p, hc, _, hends, rest, hrest =>
      grows_plainText hc.toWithin ht (hends rfl) (hrest rfl)
  | .template _ _ _, _, ht, _, _, _, _, _, _, _, _, _ => absurd ht (by simp [Tree.isPlain])
  | .comment _, _, ht, _, _, _, _, _, _, _, _, _ => absurd ht (by simp [Tree.isPlain])
  | .doctype _ _ _, _, ht, _, _, _, _, _, _, _, _, _ => absurd ht (by simp [Tree.isPlain])
  | .document _, _, ht, _, _, _, _, _, _, _, _, _ => absurd ht (by simp [Tree.isPlain])

/-- **A written plain forest grows.** -/
theorem grows_forest : ∀ {ts : List Tree} {inParagraph : Bool},
    Tree.isPlainAll inParagraph ts = true →
    ∀ {c : Construction} {e : OpenElement} {es : List OpenElement} {p : NodeId}, c.Inside e es p →
      (inParagraph = false → c.hasParagraph = false) →
      (ts.head?.any Tree.isText = true → ¬ c.heap.EndsInText p) →
      ∀ rest : List Char, (∀ a ∈ rest.head?, a = '<') → Grows c c p (serialize ts) rest ts
  | [], _, _, c, e, es, p, hc, _, _, rest, _ => fun limit =>
      ⟨c.heap, c.framesetOk, limit, rfl, hc.wellFormed.plantedBelow_nil p⟩
  | t :: ts, inParagraph, hts, c, e, es, p, hc, hparagraph, hends, rest, hrest => by
      obtain ⟨ht, hnext, hts⟩ := Tree.isPlainAll_cons.mp hts
      have hbehind : t.isText = true → ∀ a ∈ (serialize ts ++ rest).head?, a = '<' :=
        fun htext => head?_serialize_append hts (hnext htext) hrest
      refine Grows.append hc
        (grows_tree ht hc hparagraph (fun h => hends (by simpa using h)) _ hbehind)
        fun h ok hplanted => ?_
      refine grows_forest hts (hc.grown hplanted ok) hparagraph
        (fun htext => hplanted.not_endsInText ?_) rest hrest
      rintro x rfl
      rw [hnext rfl] at htext
      exact absurd htext (by simp)

end

end Construction

end RichText
