import RichText.Content.Links
import RichText.Proofs.Content.LinkTags
import RichText.Proofs.Content.Reading

/-!
Links in coded brackets, in the text of a document and in its tree.

The links that are restored are looked for in the text that is written. What is found there is the
links of those elements in whose tag an `<a` stands open in front of the link (`Element.isReached`),
provided that outside of tags there is nothing that looks like a link (`Tree.isQuiet`).

* `Tree.bracketLinks`: the tree with the links of chosen elements restored;
* `restoreFrom_serializeNode`: what is restored in the text of a tree;
* `serializeNode_bracketLinks_iff`: the text tells which links have been restored, and where it ends;
* `restoreLinks_serialize_readContent`: **the links that are restored** in a document are those that
  are reached, and they are those of HTML `a` elements only if the same elements are reached.
-/

namespace RichText

variable {around : Surroundings} {e : Element} {p q : Element → Bool} {x y : List Char}

/-! ### Links in trees -/

/-- Whether an element has a link in coded brackets. -/
def Element.hasCodedLink (e : Element) : Bool := e.attributes.any (·.bracketed?.isSome)

/-- Whether an element is an HTML link. -/
def Element.isAnchor (e : Element) : Bool := e.vocabulary = .html && e.name = "a"

namespace Tree

mutual

/-- The tree with brackets for their codes in the links of the chosen elements. -/
def bracketLinks (p : Element → Bool) : Tree → Tree
  | element e cs => element (e.bracketedIf p) (bracketLinksAll p cs)
  | template as cs us =>
      template ((templateElement as).bracketedIf p).attributes (bracketLinksAll p cs)
        (bracketLinksAll p us)
  | text s => text s
  | comment s => comment s
  | doctype name publicId systemId => doctype name publicId systemId
  | document cs => document (bracketLinksAll p cs)

/-- Sibling trees with brackets for their codes in the links of the chosen elements. -/
def bracketLinksAll (p : Element → Bool) : List Tree → List Tree
  | [] => []
  | t :: ts => bracketLinks p t :: bracketLinksAll p ts

end

mutual

/-- The elements whose tags are written, in their order. -/
def elements : Tree → List Element
  | element e cs => e :: elementsAll cs
  | template as cs _ => templateElement as :: elementsAll cs
  | document cs => elementsAll cs
  | _ => []

/-- The elements of sibling trees whose tags are written. -/
def elementsAll : List Tree → List Element
  | [] => []
  | t :: ts => elements t ++ elementsAll ts

end

mutual

/-- Whether no name in a tag holds a blank, and no link begins in the comments, the document types
and the texts that are written as they stand. -/
def isQuiet (around : Surroundings) : Tree → Bool
  | element e cs => e.hasWholeNames && isQuietAll (around.inside e) cs
  | template as cs _ =>
      (templateElement as).hasWholeNames && isQuietAll (around.inside (templateElement as)) cs
  | text s => !around.verbatim || opensNoLink s.toList
  | comment s => opensNoLink (s.toList ++ "-->".toList)
  | doctype name _ _ => opensNoLink (name.toList ++ ['>'])
  | document cs => isQuietAll around cs

/-- Whether sibling trees are quiet. -/
def isQuietAll (around : Surroundings) : List Tree → Bool
  | [] => true
  | t :: ts => isQuiet around t && isQuietAll around ts

end

end Tree

namespace Element

lemma vocabulary_bracketedIf (p : Element → Bool) (e : Element) :
    (e.bracketedIf p).vocabulary = e.vocabulary := by
  rw [bracketedIf]
  split <;> rfl

lemma name_bracketedIf (p : Element → Bool) (e : Element) :
    (e.bracketedIf p).name = e.name := by
  rw [bracketedIf]
  split <;> rfl

@[simp] lemma isVoid_bracketedIf (p : Element → Bool) (e : Element) :
    (e.bracketedIf p).isVoid = e.isVoid := by
  rw [isVoid, vocabulary_bracketedIf, name_bracketedIf, isVoid]

@[simp] lemma inside_bracketedIf (around : Surroundings) (p : Element → Bool) (e : Element) :
    around.inside (e.bracketedIf p) = around.inside e := by
  simp only [Surroundings.inside, isVoid_bracketedIf, isVerbatim, vocabulary_bracketedIf,
    name_bracketedIf]

@[simp] lemma endTag_bracketedIf (p : Element → Bool) (e : Element) :
    (e.bracketedIf p).endTag = e.endTag := by
  rw [endTag, name_bracketedIf, endTag]

lemma templateElement_bracketedIf (p : Element → Bool) (as : List Attribute) :
    templateElement ((templateElement as).bracketedIf p).attributes
      = (templateElement as).bracketedIf p := by
  rw [bracketedIf]
  split <;> rfl

end Element

/-! ### What is restored -/

/-- An element in whose inside certain links are restored. -/
lemma restoreFrom_enclose (he : e.IsLinking) (hnames : e.hasWholeNames = true)
    {inner inner' : List Char}
    (hinner : ∀ s, restoreFrom 0 (inner ++ s) = inner' ++ restoreFrom 0 s) (s : List Char) :
    restoreFrom 0 (enclose around e inner ++ s)
      = enclose around (e.bracketedIf Element.isReached) inner' ++ restoreFrom 0 s := by
  have hend : opensNoLink e.endTag = true := by
    simp only [Element.hasWholeNames, Bool.and_eq_true, List.all_eq_true,
      Bool.not_eq_true'] at hnames
    have hname := opensNoLink_name hnames.1
    simpa [Element.endTag, opensNoLink, beginsElse] using hname
  rw [enclose, enclose, Element.isVoid_bracketedIf, Element.endTag_bracketedIf]
  split
  · exact hinner s
  · split
    · rw [List.append_assoc, restoreFrom_startTag he hnames, hinner, List.append_assoc]
    · rw [List.append_assoc, List.append_assoc, restoreFrom_startTag he hnames, hinner,
        restoreFrom_of_opensNoLink hend, List.append_assoc, List.append_assoc]

mutual

/-- **What is restored** in the text of a quiet tree is the links that are reached. -/
lemma restoreFrom_serializeNode : ∀ {t : Tree} {around : Surroundings}, t.Sound linking →
    t.isQuiet around = true → ∀ s, restoreFrom 0 (serializeNode around t ++ s)
      = serializeNode around (t.bracketLinks Element.isReached) ++ restoreFrom 0 s
  | .element e cs, around, ht, hquiet, s => by
      obtain ⟨he, -, hcs⟩ := Tree.sound_element.mp ht
      rw [Tree.isQuiet, Bool.and_eq_true] at hquiet
      rw [Tree.bracketLinks, serializeNode_element, serializeNode_element,
        Element.inside_bracketedIf]
      exact restoreFrom_enclose he hquiet.1 (restoreFrom_serializeNodes hcs hquiet.2) s
  | .template as cs us, around, ht, hquiet, s => by
      obtain ⟨⟨e, he, rfl⟩, hcs, -⟩ := ht
      have he' : (templateElement e.attributes).IsLinking := ⟨he.attributes, he.once⟩
      rw [Tree.isQuiet, Bool.and_eq_true] at hquiet
      rw [Tree.bracketLinks, serializeNode_template, serializeNode_template,
        Element.templateElement_bracketedIf, Element.inside_bracketedIf]
      exact restoreFrom_enclose he' hquiet.1 (restoreFrom_serializeNodes hcs hquiet.2) s
  | .text t, around, _, hquiet, s => by
      rw [Tree.bracketLinks]
      refine restoreFrom_of_opensNoLink ?_ s
      rw [serializeNode_text]
      split
      · next hverbatim => simpa [Tree.isQuiet, hverbatim] using hquiet
      · exact opensNoLink_of_notMem (notMem_escape (by decide) fun _ => by decide)
  | .comment t, around, _, hquiet, s => by
      rw [Tree.bracketLinks]
      refine restoreFrom_of_opensNoLink ?_ s
      rw [serializeNode_comment, List.append_assoc]
      exact opensNoLink_append (by decide) hquiet
  | .doctype name _ _, around, _, hquiet, s => by
      rw [Tree.bracketLinks]
      refine restoreFrom_of_opensNoLink ?_ s
      rw [serializeNode_doctype, List.append_assoc]
      exact opensNoLink_append (by decide) hquiet
  | .document cs, around, ht, hquiet, s => by
      rw [Tree.bracketLinks, serializeNode_document, serializeNode_document]
      exact restoreFrom_serializeNodes (Tree.sound_document.mp ht) hquiet s

/-- What is restored in the text of quiet siblings. -/
lemma restoreFrom_serializeNodes : ∀ {ts : List Tree} {around : Surroundings},
    Tree.SoundAll linking ts → Tree.isQuietAll around ts = true →
    ∀ s, restoreFrom 0 (serializeNodes around ts ++ s)
      = serializeNodes around (Tree.bracketLinksAll Element.isReached ts) ++ restoreFrom 0 s
  | [], _, _, _, _ => rfl
  | t :: ts, around, hts, hquiet, s => by
      rw [Tree.isQuietAll, Bool.and_eq_true] at hquiet
      rw [Tree.bracketLinksAll, serializeNodes, serializeNodes, List.append_assoc,
        restoreFrom_serializeNode hts.1 hquiet.1, restoreFrom_serializeNodes hts.2 hquiet.2,
        List.append_assoc]

end

/-! ### What the text tells -/

/-- A link in coded brackets is not written as one with brackets. -/
lemma Attribute.assignment_append_ne {a a' : Attribute} (h : a.bracketed? = some a')
    (x y : List Char) : a.assignment ++ x ≠ a'.assignment ++ y := by
  obtain ⟨l, hsource, hrestored, hopening, -⟩ := exists_of_bracketed? h
  rw [hsource, hrestored, BracketedLink.source, BracketedLink.restored]
  intro heq
  simp only [List.append_assoc, List.append_cancel_left_eq] at heq
  have hhead := congrArg List.head? heq
  rw [List.head?_append, hopening, Option.some_or] at hhead
  simp at hhead

namespace Element

lemma HasCoded.hasCodedLink {before after : List Attribute} {a a' : Attribute}
    (h : e.HasCoded before a a' after) : e.hasCodedLink = true :=
  List.any_eq_true.mpr ⟨a, h.eq ▸ by simp, by rw [h.link]; rfl⟩

lemma HasCoded.startTag_append_ne {before after : List Attribute} {a a' : Attribute}
    (h : e.HasCoded before a a' after) (x y : List Char) :
    e.startTag ++ x ≠ e.bracketed.startTag ++ y := by
  rw [h.startTag_bracketed, startTag_eq, h.eq]
  intro heq
  simp only [List.flatMap_append, List.flatMap_cons, List.append_assoc,
    List.append_cancel_left_eq, Attribute.written, List.cons_append, List.cons.injEq,
    true_and] at heq
  exact Attribute.assignment_append_ne h.link _ _ heq

/-- A tag tells whether its link has been restored. -/
lemma IsLinking.startTag_append_iff (he : e.IsLinking) (x y : List Char) :
    (e.bracketedIf p).startTag ++ x = (e.bracketedIf q).startTag ++ y
      ↔ (e.hasCodedLink = true → p e = q e) ∧ x = y := by
  rcases he.exists_hasCoded with hnone | ⟨before, a, a', after, hcoded⟩
  · have hself : ∀ p, e.bracketedIf p = e := fun p => by
      rw [bracketedIf, bracketed_eq_self hnone, ite_self]
    have hnot : e.hasCodedLink = false := by
      simpa [hasCodedLink] using hnone
    rw [hself, hself, List.append_cancel_left_eq]
    simp [hnot]
  · have hlink := hcoded.hasCodedLink
    rw [bracketedIf, bracketedIf]
    cases hp : p e <;> cases hq : q e
    · simp
    · simpa [hlink] using hcoded.startTag_append_ne x y
    · simpa [hlink] using (hcoded.startTag_append_ne y x).symm
    · simp

end Element

/-- An element tells whether its link has been restored, and what its inside tells. -/
lemma enclose_append_iff (htagless : around.tagless = false) (he : e.IsLinking)
    {inner inner' : List Char} {P : Prop}
    (hinner : ∀ x y, inner ++ x = inner' ++ y ↔ P ∧ x = y) (x y : List Char) :
    enclose around (e.bracketedIf p) inner ++ x = enclose around (e.bracketedIf q) inner' ++ y
      ↔ ((e.hasCodedLink = true → p e = q e) ∧ P) ∧ x = y := by
  rw [enclose, enclose, htagless, Element.isVoid_bracketedIf, Element.isVoid_bracketedIf,
    Element.endTag_bracketedIf, Element.endTag_bracketedIf]
  simp only [Bool.false_eq_true, if_false]
  split
  · rw [List.append_assoc, List.append_assoc, he.startTag_append_iff, hinner, and_assoc]
  · rw [List.append_assoc, List.append_assoc, List.append_assoc, List.append_assoc,
      he.startTag_append_iff, hinner, List.append_cancel_left_eq, and_assoc]

mutual

/-- **The text of a tree tells** which links have been restored, and where it ends. -/
lemma serializeNode_bracketLinks_iff : ∀ {t : Tree} {around : Surroundings},
    around.tagless = false → t.Sound linking →
    ∀ x y, serializeNode around (t.bracketLinks p) ++ x = serializeNode around (t.bracketLinks q) ++ y
      ↔ (∀ e ∈ t.elements, e.hasCodedLink = true → p e = q e) ∧ x = y
  | .element e cs, around, htagless, ht, x, y => by
      obtain ⟨he, hvoid, hcs⟩ := Tree.sound_element.mp ht
      have hbelow : (around.inside e).tagless = true → cs = [] := fun h =>
        hvoid (by simpa [Surroundings.inside, htagless] using h)
      rw [Tree.bracketLinks, Tree.bracketLinks, serializeNode_element, serializeNode_element,
        Element.inside_bracketedIf, Element.inside_bracketedIf, Tree.elements,
        List.forall_mem_cons]
      exact enclose_append_iff htagless he (serializeNodes_bracketLinks_iff hbelow hcs) x y
  | .template as cs us, around, htagless, ht, x, y => by
      obtain ⟨⟨e, he, rfl⟩, hcs, -⟩ := ht
      have he' : (templateElement e.attributes).IsLinking := ⟨he.attributes, he.once⟩
      have hbelow : (around.inside (templateElement e.attributes)).tagless = true → cs = [] :=
        fun h => by
          have hvoid : (templateElement e.attributes).isVoid = false := rfl
          simp [Surroundings.inside, htagless, hvoid] at h
      rw [Tree.bracketLinks, Tree.bracketLinks, serializeNode_template, serializeNode_template,
        Element.templateElement_bracketedIf, Element.templateElement_bracketedIf,
        Element.inside_bracketedIf, Element.inside_bracketedIf, Tree.elements,
        List.forall_mem_cons]
      exact enclose_append_iff htagless he' (serializeNodes_bracketLinks_iff hbelow hcs) x y
  | .text t, around, _, _, x, y => by
      rw [Tree.bracketLinks, Tree.bracketLinks, List.append_cancel_left_eq]
      simp [Tree.elements]
  | .comment t, around, _, _, x, y => by
      rw [Tree.bracketLinks, Tree.bracketLinks, List.append_cancel_left_eq]
      simp [Tree.elements]
  | .doctype name _ _, around, _, _, x, y => by
      rw [Tree.bracketLinks, Tree.bracketLinks, List.append_cancel_left_eq]
      simp [Tree.elements]
  | .document cs, around, htagless, ht, x, y => by
      rw [Tree.bracketLinks, Tree.bracketLinks, serializeNode_document, serializeNode_document,
        Tree.elements]
      exact serializeNodes_bracketLinks_iff (fun h => by simp [htagless] at h)
        (Tree.sound_document.mp ht) x y

/-- The text of siblings tells which links have been restored, and where it ends. -/
lemma serializeNodes_bracketLinks_iff : ∀ {ts : List Tree} {around : Surroundings},
    (around.tagless = true → ts = []) → Tree.SoundAll linking ts →
    ∀ x y, serializeNodes around (Tree.bracketLinksAll p ts) ++ x
        = serializeNodes around (Tree.bracketLinksAll q ts) ++ y
      ↔ (∀ e ∈ Tree.elementsAll ts, e.hasCodedLink = true → p e = q e) ∧ x = y
  | [], _, _, _, x, y => by simp [Tree.bracketLinksAll, Tree.elementsAll, serializeNodes]
  | t :: ts, around, htagless, hts, x, y => by
      have hfalse : around.tagless = false := by
        cases h : around.tagless with
        | false => rfl
        | true => exact absurd (htagless h) (by simp)
      rw [Tree.bracketLinksAll, Tree.bracketLinksAll, serializeNodes, serializeNodes,
        List.append_assoc, List.append_assoc, serializeNode_bracketLinks_iff hfalse hts.1,
        serializeNodes_bracketLinks_iff (fun h => by simp [hfalse] at h) hts.2, ← and_assoc,
        Tree.elementsAll, List.forall_mem_append]

end

/-! ### Documents -/

/-- **The links that are restored** in the text of a document are those that are reached, provided
that no name in a tag holds a blank and no link begins outside of tags. They are those of the HTML
`a` elements exactly if, among the elements with a link in coded brackets, these are the ones that
are reached. -/
theorem restoreLinks_serialize_readContent {content : String}
    (hquiet : Tree.isQuietAll {} (readContent content) = true) :
    let document := readContent content
    restoreLinks (serialize document) = serialize (Tree.bracketLinksAll Element.isReached document)
      ∧ (restoreLinks (serialize document)
          = serialize (Tree.bracketLinksAll Element.isAnchor document)
        ↔ ∀ e ∈ Tree.elementsAll document, e.hasCodedLink = true → e.isReached = e.isAnchor) := by
  intro document
  have hsound : Tree.SoundAll linking document :=
    Tree.soundAll_iff.mpr (sound_parseDocument linking_closed linking_readable _)
  have hreached : restoreLinks (serialize document)
      = serialize (Tree.bracketLinksAll Element.isReached document) := by
    have := restoreFrom_serializeNodes hsound hquiet []
    simpa [restoreLinks, restoreFrom, serialize] using this
  refine ⟨hreached, ?_⟩
  have htells := @serializeNodes_bracketLinks_iff Element.isReached Element.isAnchor document {}
    (fun h => absurd h (by decide)) hsound [] []
  rw [List.append_nil, List.append_nil, and_iff_left rfl] at htells
  rw [hreached, serialize, serialize, htells]

/-- A paragraph whose link is restored, since the value in front of it looks like the beginning of
a link. -/
theorem restoreLinks_serialize_readContent_paragraph :
    let paragraph : Element :=
      { name := "p"
        attributes := [{ name := "title", value := "<a " }, { name := "href", value := "%5Bx%5D" }] }
    let document := readContent (writeNodes [.element paragraph [.text "y"]])
    Tree.isQuietAll {} document = true ∧ restoreLinks (serialize document)
      ≠ serialize (Tree.bracketLinksAll Element.isAnchor document) := by
  intro paragraph document
  have hdocument : document
      = [.comment Construction.declarationText, documentElement [] [.element paragraph [.text "y"]]] :=
    readContent_of_isPlainAll (by decide) (by decide)
  have hquiet : Tree.isQuietAll {} document = true := by
    rw [hdocument]
    decide
  have hmem : paragraph ∈ Tree.elementsAll document := by
    rw [hdocument]
    decide
  refine ⟨hquiet, fun h => ?_⟩
  have hagree := (restoreLinks_serialize_readContent hquiet).2.mp h paragraph hmem (by decide)
  exact absurd hagree (by decide)

end RichText
