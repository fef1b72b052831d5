import RichText.Proofs.Construction.Build
import RichText.Proofs.Substitution.Kept
import RichText.Proofs.Substitution.Missed
import RichText.Proofs.Text.Characters

/-!
Registered tags and letter case.

A registry keeps tags in lower case, so that a registration counts for them in any letter case. The
names of elements that have been read are in lower case, too, but for the graphical elements that
are given back their capital letters. The pass by tag compares names as they are: it finds the
registrations of all elements but these.

* `Registry.latest?`: the registration that counts for a tag in any letter case;
* `Registry.Built.forTag?_eq`: what the registry finds for a name, by induction on registrations;
* `lowerCase`: the names of elements in a document, by the rules of construction;
* `Processor.visited_iff_not_graphic`: **which elements the handler of their tag is run on**.
-/

namespace RichText

/-! ### Registries -/

namespace Registry

variable {r : Registry}

/-- The registries that registrations lead to. -/
inductive Built : Registry → Prop where
  | empty : Built {}
  | register {r : Registry} (kind : MatchKind) (value label : String) (handler : Handler)
      (hr : Built r) : Built (r.register kind value label handler)

/-- The latest registration for a tag, in any letter case. -/
def latest? (r : Registry) (tag : String) : Option Registration :=
  r.toList.reverse.find? fun x => x.kind = .tagName ∧ x.value = tag.toLower

lemma latest?_registerTag (tag label key : String) (handler : Handler) :
    (r.registerTag tag label handler).latest? key
      = if tag.toLower = key.toLower then
          some { kind := .tagName, value := tag.toLower, label, handler }
        else r.latest? key := by
  rw [latest?, toList_registerTag, List.reverse_append, List.reverse_singleton,
    List.singleton_append, List.find?_cons]
  by_cases hkey : tag.toLower = key.toLower
  · simp [hkey]
  · simp [hkey, latest?]

lemma latest?_registerClass (class_ label key : String) (handler : Handler) :
    (r.registerClass class_ label handler).latest? key = r.latest? key := by
  rw [latest?, toList_registerClass, List.reverse_append, List.reverse_singleton,
    List.singleton_append, List.find?_cons]
  simp [latest?]

/-- **What is found for a name**: the latest registration, if the name is in lower case, and
nothing else. -/
lemma Built.forTag?_eq (hr : r.Built) (key : String) :
    r.forTag? key = if key.toLower = key then r.latest? key else none := by
  induction hr with
  | empty => simp [forTag?_empty, latest?, toList]
  | @register r kind value label handler _ ih =>
      cases kind with
      | className => rw [Registry.register, forTag_registerClass, latest?_registerClass, ih]
      | tagName =>
          rw [Registry.register, forTag_registerTag, latest?_registerTag, ih]
          by_cases hvalue : value.toLower = key
          · rw [← hvalue, toLower_toLower_name]
            simp
          · rw [if_neg hvalue]
            by_cases hkey : key.toLower = key
            · simp [hkey, hvalue]
            · simp [hkey]

end Registry

/-! ### Names of elements -/

/-- Names in lower case, and those of graphical elements that have capital letters. -/
def lowerCase : Naming where
  tag name := name.toLower = name
  attributes _ := True
  element e := e.name.toLower = e.name ∨ e.vocabulary = .svg ∧ e.name ∈ graphicNames
  doctype _ := True

lemma lowerCase_closed : lowerCase.Closed where
  implied := by
    show ∀ name ∈ impliedNames, name.toLower = name
    decide +kernel
  bare := trivial
  html _ _ hname _ := .inl hname
  svg name _ hname _ := by
    show (graphicName name).toLower = graphicName name ∨ _ ∧ graphicName name ∈ graphicNames
    rcases withCapitals_eq graphicNames name with hself | ⟨hmem, -⟩
    · rw [graphicName, hself]
      exact .inl hname
    · exact .inr ⟨rfl, hmem⟩
  mathml _ _ hname _ := .inl hname
  missing _ _ he _ := he

lemma lowerCase_readable : lowerCase.Readable where
  letter c _ := @toLower_push "" _ (by decide +kernel) (toLower_toLower c)
  push _ c hname _ _ _ := toLower_push hname (toLower_toLower c)
  bare := trivial
  append _ _ _ _ _ _ := trivial
  undeclared := trivial
  pushDoctype _ _ _ _ := trivial

/-- A graphical element with capital letters is not found in lower case. -/
lemma toLower_ne_of_mem_graphicNames : ∀ name ∈ graphicNames, name.toLower ≠ name := by
  decide +kernel

namespace Tree

variable {N : Naming}

mutual

/-- The trees below a sound tree are sound. -/
lemma Sound.of_mem_nodes : ∀ {t u : Tree}, t.Sound N → u ∈ t.nodes → u.Sound N
  | element e cs, u, ht, hu => by
      rw [nodes] at hu
      rcases List.mem_cons.mp hu with rfl | hu
      · exact ht
      · exact SoundAll.of_mem_nodesAll ht.2.2 hu
  | template as cs us, u, ht, hu => by
      rw [nodes] at hu
      rcases List.mem_cons.mp hu with rfl | hu
      · exact ht
      · exact SoundAll.of_mem_nodesAll ht.2.1 hu
  | document cs, u, ht, hu => by
      rw [nodes] at hu
      rcases List.mem_cons.mp hu with rfl | hu
      · exact ht
      · exact SoundAll.of_mem_nodesAll ht hu
  | text s, u, ht, hu => by
      rw [nodes] at hu
      · exact List.mem_singleton.mp hu ▸ ht
      all_goals simp
  | comment s, u, ht, hu => by
      rw [nodes] at hu
      · exact List.mem_singleton.mp hu ▸ ht
      all_goals simp
  | doctype name publicId systemId, u, ht, hu => by
      rw [nodes] at hu
      · exact List.mem_singleton.mp hu ▸ ht
      all_goals simp

lemma SoundAll.of_mem_nodesAll : ∀ {ts : List Tree} {u : Tree}, SoundAll N ts → u ∈ nodesAll ts →
    u.Sound N
  | t :: ts, u, hts, hu => by
      rw [nodesAll, List.mem_append] at hu
      exact hu.elim (Sound.of_mem_nodes hts.1) (SoundAll.of_mem_nodesAll hts.2)

end

end Tree

namespace Heap

variable {h : Heap}

/-- The element at the root of a tree is named as the tree says; that of a template is in lower
case. -/
lemma Carries.lowerCase_element {s : Layout} {e : Element} (hs : h.Carries s)
    (hsound : (h.read s).Sound lowerCase) (he : h.element? s.id = some e) :
    lowerCase.element e := by
  rw [element?] at he
  cases s with
  | node i cs =>
      rw [read] at hsound
      simp only [Layout.id] at he
      cases hc : h.content i with
      | element e' =>
          simp only [hc] at he hsound
          exact Option.some.inj he ▸ hsound.1
      | document => simp [hc] at he
      | text => simp [hc] at he
      | comment => simp [hc] at he
      | doctype => simp [hc] at he
  | template i cs inner us =>
      obtain ⟨-, -, ⟨as, has⟩, -⟩ := hs
      simp only [Layout.id, has, Option.some.injEq] at he
      subst he
      have hname : "template".toLower = "template" := by decide +kernel
      exact .inl hname

end Heap

namespace Processor

open Heap Run

variable {p : Processor} {w : World} {content t : String} {r : Registration}

/-- The heap that substitution in some content goes through, and the root of the document. -/
def planted (p : Processor) (w : World) (content : String) : Heap × NodeId :=
  w.heap.plant (.document (readContent (p.expand content)))

/-- An element of a document that has been read is in lower case, or a graphical element with
capital letters. -/
lemma lowerCase_planted (hwf : w.heap.WellFormed) {i : NodeId} {e : Element}
    (hi : (p.planted w content).1.Reaches (p.planted w content).2 i)
    (he : (p.planted w content).1.element? i = some e) : lowerCase.element e := by
  obtain ⟨s, hid, hs, -, -, hread⟩ := (hwf.plant (.document (readContent (p.expand content)))).carries
  obtain ⟨u, hu, rfl, hmem⟩ := hs.exists_of_reaches (hid ▸ hi)
  rw [hread] at hmem
  have hall : (Tree.document (readContent (p.expand content))).Sound lowerCase :=
    Tree.sound_document.mpr (Tree.soundAll_iff.mpr
      (sound_parseDocument lowerCase_closed lowerCase_readable _))
  exact hu.lowerCase_element (hall.of_mem_nodes hmem) he

/-- **Which elements the handler of their tag is run on.** Let all handlers by tag keep their
elements, and `r` be the latest registration for a tag. The pass by tag in the substitution of some
content ends, and of the elements with this tag, in any letter case, that lie in no element with a
registered tag, in any letter case, its handler has been run exactly on those that are not
graphical elements with capital letters. -/
theorem visited_iff_not_graphic (hbuilt : p.registry.Built) (hr : p.registry.latest? t = some r)
    (hallows : p.Allows w) (hwf : w.heap.WellFormed)
    (hkeep : p.AllLocal (w.depth + 1) fun _ _ _ => .keep) :
    let h := (p.planted w content).1
    let root := (p.planted w content).2
    ∃ (context : Option String) (lookups : ℕ) (w₁ : World) (vs : List Visit),
      let w₀ := { w with heap := h, depth := w.depth + 1, lookups }
      (∀ out w₂, p.Yields (fun ask => p.processed ask content root context) w₀ (out, w₂) →
        p.Yields (fun ask => p.substitute ask content) w
          (out, { w₂ with depth := w₂.depth - 1 }))
      ∧ p.Yields (fun ask => p.substituteAt ask root context) w₀ (.ok (), w₁)
      ∧ w₁.trace = w.trace ++ vs.flatMap (Visit.events context)
      ∧ (∀ v ∈ vs, p.Visited (w.depth + 1) context v)
      ∧ ∀ i e, h.Reaches root i → h.element? i = some e → e.name.toLower = t.toLower →
        (∀ j e', h.Reaches j i → j ≠ i → h.element? j = some e' →
          p.registry.latest? e'.name = none) →
        ((∃ v ∈ vs, v.node = i ∧ v.registration = r)
          ↔ ¬ (e.vocabulary = .svg ∧ e.name ∈ graphicNames)) := by
  intro h root
  obtain ⟨context, n, hprocessed⟩ := exists_yields_substitute content hallows rfl
  obtain ⟨s, hid, hs, hnd, -⟩ := (hwf.plant (.document (readContent (p.expand content)))).carries
  have hroot : s.id = root := hid
  obtain ⟨w₁, vs, hy, htoured, hnodes⟩ := exists_toured_substituteAt hkeep s
    (w := { w with heap := h, depth := w.depth + 1, lookups := n }) rfl
    (hwf.plant (.document (readContent (p.expand content)))).wellFormed hs hnd
  refine ⟨context, n, w₁, vs, hprocessed, hroot ▸ hy, htoured.trace,
    fun v hv => (htoured.visited v hv).1, fun i e hi he hname hfree => ?_⟩
  have htag : h.tagName i = some e.name := by rw [tagName, he, Option.map_some]
  -- the name finds the registration exactly if it is in lower case
  have hfound : p.registry.forTag? e.name = if e.name.toLower = e.name then some r else none := by
    rw [hbuilt.forTag?_eq, Registry.latest?, hname, ← Registry.latest?, hr]
  have hregisters : p.registers h i = true ↔ e.name.toLower = e.name := by
    rw [registers, htag, Option.any_some, hfound]
    by_cases hlower : e.name.toLower = e.name <;> simp [hlower]
  have hoff : ∀ j, h.Reaches j i → j ≠ i → p.registers h j = false := by
    intro j hj hne
    rw [registers, tagName]
    cases he' : h.element? j with
    | none => rfl
    | some e' =>
        rw [Option.map_some, Option.any_some, hbuilt.forTag?_eq, hfree j e' hj hne he', ite_self]
        rfl
  have hvisits : i ∈ vs.map Visit.node ↔ e.name.toLower = e.name := by
    rw [hnodes, ← hregisters]
    exact hs.mem_outermost_iff (hroot ▸ hi) hoff
  constructor
  · rintro ⟨v, hv, hnode, -⟩ ⟨-, hcapital⟩
    exact toLower_ne_of_mem_graphicNames e.name hcapital
      (hvisits.mp (hnode ▸ List.mem_map_of_mem hv))
  · intro hnot
    have hlower : e.name.toLower = e.name := (lowerCase_planted hwf hi he).resolve_right hnot
    obtain ⟨v, hv, hnode⟩ := List.mem_map.mp (hvisits.mpr hlower)
    obtain ⟨⟨hregistration, -⟩, hvtag⟩ := htoured.visited v hv
    have hsame : h.tagName v.node = some v.tag := hvtag
    rw [hnode, htag, Option.some.injEq] at hsame
    rw [← hsame, hfound, if_pos hlower, Option.some.injEq] at hregistration
    exact ⟨v, hv, hnode, hregistration.symm⟩

/-- The document of a paragraph. -/
def paragraphDocument : List Tree :=
  [.comment Construction.declarationText, documentElement [] [.element { name := "p" } [.text "x"]]]

/-- A tag registered in capital letters, and a paragraph. -/
theorem visited_iff_not_graphic_paragraph :
    let keep : Handler := fun _ _ => .done (.ok .keep)
    let p : Processor := { registry := Registry.registerTag {} "P" "a" keep }
    let content := writeNodes [.element { name := "p" } [.text "x"]]
    ∃ (context : Option String) (lookups : ℕ) (w₁ : World) (vs : List Visit),
      p.Yields (fun ask => p.substituteAt ask (p.planted {} content).2 context)
          { heap := (p.planted {} content).1, depth := 1, lookups } (.ok (), w₁)
        ∧ w₁.trace = vs.flatMap (Visit.events context)
        ∧ ∃ v ∈ vs, (p.planted {} content).1.tagName v.node = some "p"
          ∧ v.registration.label = "a" := by
  intro keep p content
  have hlower : "P".toLower = "p" := by decide +kernel
  have htag : ∀ tag, p.registry.forTag? tag
      = if "p" = tag then some ⟨.tagName, "p", "a", keep⟩ else none := by
    intro tag
    rw [Registry.forTag_registerTag, hlower, Registry.forTag?_empty]
  have hexpand : p.expand content = content := by
    have haccepts : ∀ tag, (p.registry.forTag? tag).isSome = decide ("p" = tag) := by
      intro tag
      rw [htag]
      by_cases hp : "p" = tag <;> simp [hp]
    rw [expand, funext haccepts]
    decide +kernel
  have hplanted : p.planted {} content = Heap.plant {} (.document paragraphDocument) := by
    rw [planted, hexpand, readContent_of_isPlainAll (by decide) (by decide), paragraphDocument]
  have hkeep : p.AllLocal 1 fun _ _ _ => .keep := by
    intro tag r hr
    rw [htag, Option.ite_none_right_eq_some, Option.some.injEq] at hr
    exact hr.2 ▸ isLocal_keep p 1
  have hlatest : ∀ name, p.registry.latest? name
      = if "p" = name.toLower then some ⟨.tagName, "p", "a", keep⟩ else none := by
    intro name
    rw [Registry.latest?_registerTag, hlower]
    rfl
  have hallows : p.Allows {} := (by decide : ∀ limit ∈ some 32, 0 < limit)
  have hlatestP : p.registry.latest? "P" = some ⟨.tagName, "p", "a", keep⟩ := by
    rw [hlatest, hlower, if_pos rfl]
  have hbuilt : p.registry.Built := .register .tagName "P" "a" keep .empty
  obtain ⟨context, lookups, w₁, vs, -, hy, htrace, -, hvisited⟩ :=
    @visited_iff_not_graphic p {} content "P" _ hbuilt hlatestP hallows wellFormed_empty hkeep
  refine ⟨context, lookups, w₁, vs, hy, htrace, ?_⟩
  rw [hplanted] at hvisited ⊢
  have hwf := (wellFormed_empty.plant (.document paragraphDocument)).wellFormed
  -- the paragraph is the node 5, and the elements around it are the outermost and the body
  have hreaches : (Heap.plant {} (.document paragraphDocument)).1.Reaches 0 5 :=
    (isAncestorOrSelf_iff hwf).mp (by decide)
  have hname : "p".toLower = "P".toLower := by decide +kernel
  have habove : ∀ j < (Heap.plant {} (.document paragraphDocument)).1.size,
      (Heap.plant {} (.document paragraphDocument)).1.isAncestorOrSelf j 5 = true → j ≠ 5 →
      ∀ e ∈ (Heap.plant {} (.document paragraphDocument)).1.element? j,
        e.name ∈ ["html", "body"] := by
    decide
  obtain ⟨v, hv, hnode, hr⟩ := (hvisited 5 { name := "p" } hreaches (by decide) hname
    fun j e hj hne he => by
      obtain rfl | ⟨k, hchild, -⟩ := Relation.ReflTransGen.cases_head hj
      · exact absurd rfl hne
      · have hmem := habove j (lt_size_of_child hchild) ((isAncestorOrSelf_iff hwf).mpr hj) hne e he
        have hother : ∀ name ∈ ["html", "body"], "p" ≠ name.toLower := by decide +kernel
        rw [hlatest, if_neg (hother e.name hmem)]).mpr (by decide)
  exact ⟨v, hv, by rw [hnode]; decide, by rw [hr]⟩

end Processor

end RichText
