import RichText.Proofs.Content.RoundTrip
import RichText.Proofs.Substitution.ByClass

/-!
Registrations that match nothing.

A registry has a part in three places: its tags are looked for in the content, where self-closing
tags are written out, and both passes look for elements. If the elements of the document that is
read match nothing, the passes do nothing, and then only the written out tags are left to make a
difference.

* `Tree.nodes`: a tree and the trees below it;
* `Processor.Misses`: nothing is registered for a tree;
* `Heap.Carries.exists_of_reaches`: what is reached in a heap are nodes of the tree held there;
* `Processor.yields_substitute_of_missed`: **a document that is missed** is written as it was read;
* `Processor.substitute_eq_of_missed`: a registry that matches nothing is not seen, if the document
  is the one that is read without it;
* `Processor.substitute_eq_of_unwritten`: it is so if no self-closing tag of a registered name is
  written in the content.
-/

namespace RichText

/-! ### Nodes of a tree -/

namespace Tree

mutual

/-- A tree and all trees below it in document order, apart from the contents of templates. -/
def nodes : Tree → List Tree
  | t@(element _ cs) => t :: nodesAll cs
  | t@(template _ cs _) => t :: nodesAll cs
  | t@(document cs) => t :: nodesAll cs
  | t => [t]

/-- Several trees and all trees below them. -/
def nodesAll : List Tree → List Tree
  | [] => []
  | t :: ts => nodes t ++ nodesAll ts

end

variable {t c : Tree} {ts : List Tree}

lemma nodes_eq (t : Tree) : t.nodes = t :: nodesAll t.children := by
  cases t <;> simp [nodes, children, nodesAll]

lemma mem_nodesAll : t ∈ nodesAll ts ↔ ∃ c ∈ ts, t ∈ c.nodes := by
  induction ts with
  | nil => simp [nodesAll]
  | cons c ts ih => simp [nodesAll, ih]

lemma self_mem_nodes (t : Tree) : t ∈ t.nodes := by
  rw [nodes_eq]
  exact List.mem_cons_self

lemma nodes_subset_of_mem_children (hc : c ∈ t.children) : c.nodes ⊆ t.nodes := fun u hu => by
  rw [nodes_eq t]
  exact List.mem_cons_of_mem t (mem_nodesAll.mpr ⟨c, hc, hu⟩)

end Tree

namespace Heap

variable {h : Heap}

/-- **What is reached** from the root of a tree are nodes of the tree. -/
lemma Carries.exists_of_reaches {s : Layout} {k : NodeId} (hs : h.Carries s)
    (hk : h.Reaches s.id k) : ∃ u, h.Carries u ∧ u.id = k ∧ h.read u ∈ (h.read s).nodes := by
  obtain ⟨i, hi⟩ : ∃ i, i = s.id := ⟨_, rfl⟩
  rw [← hi] at hk
  induction hk using Relation.ReflTransGen.head_induction_on generalizing s with
  | refl => exact ⟨s, hs, hi.symm, Tree.self_mem_nodes _⟩
  | @head i j hchild _ ih =>
      rw [Child, hi, hs.children_eq] at hchild
      obtain ⟨c, hc, rfl⟩ := List.mem_map.mp hchild
      obtain ⟨u, hu, hk, hmem⟩ := ih (hs.carriesAll_children.of_mem hc) rfl
      have hread : h.read c ∈ (h.read s).children := by
        rw [children_read hs, readAll_eq_map]
        exact List.mem_map_of_mem hc
      exact ⟨u, hu, hk, Tree.nodes_subset_of_mem_children hread hmem⟩

end Heap

/-! ### Documents in which nothing matches -/

lemma Registry.forTag?_empty (tag : String) : ({} : Registry).forTag? tag = none := by
  simp [Registry.forTag?]

namespace Processor

open Heap Run

variable {p : Processor} {w : World} {content : String} {ts : List Tree}

/-- Whether nothing is registered for a tree, neither for its tag nor for its class. -/
structure Misses (p : Processor) (t : Tree) : Prop where
  tag : ∀ tag ∈ t.name?, p.registry.forTag? tag = none
  classes : ∀ r ∈ p.registry.classes, t.hasClass r.value = false

/-- The content with the self-closing tags of registered names written out. -/
def expand (p : Processor) (content : String) : String :=
  expandTags (fun tag => (p.registry.forTag? tag).isSome) content

/-- Nothing is written out of content without self-closing tags of registered names. -/
lemma expand_eq_self (htags : ∀ v t, v <:+ content.toList → selfClosingTag? v = some t →
    p.registry.forTag? (String.ofList t.name).toLower = none) : p.expand content = content :=
  expandTags_eq_self fun v t hv ht => by rw [htags v t hv ht, Option.isSome_none]

/-- **A document that is missed** by all registrations is written as it was read, and no handler
is run. -/
theorem yields_substitute_of_missed (hallows : p.Allows w) (hwf : w.heap.WellFormed)
    (hts : readContent (p.expand content) = ts) (hmissed : ∀ t ∈ Tree.nodesAll ts, p.Misses t) :
    ∃ n, p.Yields (fun ask => p.substitute ask content) w
      (.ok (recoverContent (writeNodes ts) content p.options.restoreShortcodeUrls),
        { w with heap := (w.heap.plant (.document ts)).1, lookups := n }) := by
  obtain ⟨s, hid, hs, -, -, hread⟩ := (hwf.plant (.document ts)).carries
  have hmissed : ∀ t ∈ (Tree.document ts).nodes, p.Misses t := by
    intro t ht
    rw [Tree.nodes_eq] at ht
    rcases List.mem_cons.mp ht with rfl | ht
    · exact ⟨fun tag htag => absurd htag (by simp [Tree.name?]), fun r _ => rfl⟩
    · exact hmissed t ht
  refine yields_substitute_of_unmatched hallows hwf rfl hts (fun k hk => ?_) fun r hr => ?_
  · obtain ⟨u, hu, rfl, hmem⟩ := hs.exists_of_reaches (hid ▸ hk)
    have htag := (hmissed _ (hread ▸ hmem)).tag
    rw [name?_read hu] at htag
    rw [registers, Option.any_eq_false]
    exact fun tag h => by rw [htag tag h]; rfl
  · rw [List.eq_nil_iff_forall_not_mem]
    intro k hk
    obtain ⟨hk, hclass⟩ := of_mem_withClassTo hk
    obtain ⟨u, hu, rfl, hmem⟩ := hs.exists_of_reaches (hid ▸ hk)
    have hnot := (hmissed _ (hread ▸ hmem)).classes r hr
    rw [hasClass_read r.value hu, hclass] at hnot
    exact absurd hnot (by decide)

/-- The processor with the same options and nothing registered. -/
def unregistered (p : Processor) : Processor :=
  { p with registry := {} }

lemma unregistered_misses (p : Processor) (t : Tree) : p.unregistered.Misses t where
  tag tag _ := Registry.forTag?_empty tag
  classes r hr := absurd hr (by simp [unregistered, Registry.classes])

lemma expand_unregistered (p : Processor) (content : String) :
    p.unregistered.expand content = content :=
  expandTags_of_not_accepted (fun name => by rw [unregistered, Registry.forTag?_empty]; rfl) content

/-- With nothing registered, content is written as it was read. -/
lemma yields_substitute_unregistered (p : Processor) (hallows : p.Allows w) (hwf : w.heap.WellFormed) :
    ∃ n, p.unregistered.Yields (fun ask => p.unregistered.substitute ask content) w
      (.ok (recoverContent (writeNodes (readContent content)) content
        p.options.restoreShortcodeUrls),
        { w with heap := (w.heap.plant (.document (readContent content))).1, lookups := n }) :=
  yields_substitute_of_missed hallows hwf (congrArg readContent (p.expand_unregistered content))
    fun t _ => p.unregistered_misses t

/-- **A registry that matches nothing** is not seen. If the elements of the document of some
content are missed by all registrations, and the document is the same when the self-closing tags
of registered names are written out, the content becomes what it becomes with nothing registered.
Apart from the heap and the number of lookups nothing has changed: no handler is run. -/
theorem substitute_eq_of_missed (hallows : p.Allows w) (hwf : w.heap.WellFormed)
    (hmissed : ∀ t ∈ Tree.nodesAll (readContent content), p.Misses t)
    (hsame : readContent (p.expand content) = readContent content) :
    ∃ out h n m,
      p.Yields (fun ask => p.substitute ask content) w (.ok out, { w with heap := h, lookups := n })
        ∧ p.unregistered.Yields (fun ask => p.unregistered.substitute ask content) w
          (.ok out, { w with heap := h, lookups := m }) := by
  obtain ⟨n, hn⟩ := yields_substitute_of_missed hallows hwf hsame hmissed
  obtain ⟨m, hm⟩ := p.yields_substitute_unregistered hallows hwf
  exact ⟨_, _, n, m, hn, hm⟩

/-- A paragraph with a class and a self-closing tag in its title, none of which is registered. -/
theorem substitute_eq_of_missed_paragraph :
    let p : Processor := { registry := (({} : Registry).registerTag "x-a" "a" fun _ _ =>
      .done (.ok .keep)).registerClass "note" "n" fun _ _ => .done (.ok .keep) }
    let content := writeNodes [.element { name := "p", attributes :=
      [{ name := "class", value := "notes" }, { name := "title", value := "<x-b/>" }] } [.text "x"]]
    ∃ out h n m,
      p.Yields (fun ask => p.substitute ask content) {} (.ok out, { heap := h, lookups := n })
        ∧ p.unregistered.Yields (fun ask => p.unregistered.substitute ask content) {}
          (.ok out, { heap := h, lookups := m }) := by
  intro p content
  have htag : ∀ tag, (p.registry.forTag? tag).isSome = decide ("x-a" = tag) := by
    intro tag
    have hlower : "x-a".toLower = "x-a" := by decide +kernel
    rw [Registry.forTag_registerClass, Registry.forTag_registerTag, hlower]
    by_cases htag : "x-a" = tag <;> simp [htag, Registry.forTag?_empty]
  have hclasses : p.registry.classes.map (·.value) = ["note"] := rfl
  have hexpand : p.expand content = content := by
    rw [expand, funext htag]
    decide +kernel
  have hnodes : ∀ t ∈ Tree.nodesAll [.comment Construction.declarationText, documentElement []
      [.element { name := "p", attributes := [{ name := "class", value := "notes" },
        { name := "title", value := "<x-b/>" }] } [.text "x"]]],
      t.name? ≠ some "x-a" ∧ t.hasClass "note" = false := by decide
  have hallows : p.Allows {} := (by decide : ∀ limit ∈ some 32, 0 < limit)
  refine substitute_eq_of_missed hallows wellFormed_empty ?_ (by rw [hexpand])
  rw [readContent_of_isPlainAll (by decide) (by decide)]
  refine fun t ht => ⟨fun tag h => ?_, fun r hr => ?_⟩
  · rw [← Option.not_isSome_iff_eq_none, htag, decide_eq_true_eq]
    rintro rfl
    exact (hnodes t ht).1 h
  · have hvalue := List.mem_map_of_mem (f := (·.value)) hr
    rw [hclasses, List.mem_singleton] at hvalue
    rw [hvalue]
    exact (hnodes t ht).2

/-- **Content without registered names** is left alone: if no self-closing tag of a registered name
is written anywhere in it, not in an attribute value or a comment either, and the elements of its
document are missed by all registrations, then it becomes what it becomes with nothing registered,
and no handler is run. -/
theorem substitute_eq_of_unwritten (hallows : p.Allows w) (hwf : w.heap.WellFormed)
    (hmissed : ∀ t ∈ Tree.nodesAll (readContent content), p.Misses t)
    (htags : ∀ v t, v <:+ content.toList → selfClosingTag? v = some t →
      p.registry.forTag? (String.ofList t.name).toLower = none) :
    ∃ out h n m,
      p.Yields (fun ask => p.substitute ask content) w (.ok out, { w with heap := h, lookups := n })
        ∧ p.unregistered.Yields (fun ask => p.unregistered.substitute ask content) w
          (.ok out, { w with heap := h, lookups := m }) := by
  obtain ⟨n, hn⟩ := yields_substitute_of_missed hallows hwf
    (congrArg readContent (expand_eq_self htags)) hmissed
  obtain ⟨m, hm⟩ := p.yields_substitute_unregistered hallows hwf
  exact ⟨_, _, n, m, hn, hm⟩

/-- A tag in a quoted value is written out, too, and then the document is another one. -/
example : expandTags (· == "x-a") "<p title=\"<x-a/>\">x</p>"
    = "<p title=\"<x-a></x-a>\">x</p>" := by
  decide +kernel

end Processor

end RichText
