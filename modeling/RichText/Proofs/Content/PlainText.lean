import RichText.Proofs.Substitution.Missed

/-!
Plain text through the whole of the processing.

* `isPlainText`: text without markup, without the characters that reading changes, and without
  white space in front;
* `readContent_of_isPlainText`: the document of such text has it in its body;
* `recover_congr`: of content without brackets only the last character matters to recovering;
* `Processor.substitute_of_isPlainText`: **plain text comes back** with two characters written as
  references, whatever is registered for elements other than those around a body.
-/

namespace RichText

variable {s u v : List Char} {content : String}

/-- Whether a text has no brackets, no references and none of the characters that reading changes,
and does not begin with white space of markup. -/
def isPlainText (s : List Char) : Bool :=
  (s.all fun c => c ≠ '<' && c ≠ '&' && c ≠ nul && c ≠ '\r') && !s.head?.any isMarkupSpace

lemma isPlainText_iff : isPlainText s = true ↔
    (∀ c ∈ s, c ≠ '<' ∧ c ≠ '&' ∧ c ≠ nul ∧ c ≠ '\r') ∧ s.head?.any isMarkupSpace = false := by
  simp [isPlainText, and_assoc]

/-- A character of plain text as it is written in the end. -/
def plainForm (c : Char) : List Char :=
  if c = '>' then "&gt;".toList else if c = '\u00a0' then "&nbsp;".toList else [c]

lemma escape_of_isPlainText (hs : isPlainText s = true) :
    escape .betweenTags s = s.flatMap plainForm := by
  refine List.flatMap_congr fun c hc => ?_
  obtain ⟨hlt, hamp, -⟩ := (isPlainText_iff.mp hs).1 c hc
  by_cases hgt : c = '>'
  · rw [hgt]
    decide
  · rw [escapeChar, plainForm, if_neg hamp, if_neg hgt, if_neg hlt, if_neg hgt]

/-! ### Reading -/

/-- A text as trees: one, or none for the empty text. -/
def textTrees (content : String) : List Tree :=
  if content = "" then [] else [.text content]

lemma isPlainAll_textTrees (hs : isPlainText content.toList = true) :
    Tree.isPlainAll false (textTrees content) = true := by
  have hclean : isClean content.toList = true :=
    isClean_iff.mpr fun c hc => ((isPlainText_iff.mp hs).1 c hc).2.2
  rw [textTrees]
  split
  · rfl
  · next hne => simp [Tree.isPlainAll, Tree.isPlain, hclean, hne]

lemma attributesAll_textTrees (content : String) : Tree.attributesAll (textTrees content) = [] := by
  rw [textTrees]
  split <;> rfl

lemma serialize_textTrees (content : String) :
    serialize (textTrees content) = escape .betweenTags content.toList := by
  rw [textTrees]
  split
  · next hempty =>
      rw [hempty]
      rfl
  · simp [serialize, serializeNodes, serializeNode_text]

open Construction in
/-- **The document of plain text** has the text in its body. -/
theorem readContent_of_isPlainText (hs : isPlainText content.toList = true) :
    readContent content
      = [.comment declarationText, documentElement [] (textTrees content)] := by
  obtain ⟨hchars, hblank⟩ := isPlainText_iff.mp hs
  refine readContent_of_readsDeclared (fun hmem => (hchars _ hmem).2.2.2 rfl) ?_
  rw [textTrees]
  split
  · next hempty =>
      rw [hempty]
      exact readsDeclared_nil
  · next hempty =>
      have hwrites : Writes '<' (fun c => [c]) content.toList := fun c hc => by
        obtain ⟨hlt, hamp, hnul, hcr⟩ := hchars c hc
        exact ⟨hnul, hcr, .inl ⟨rfl, hamp, hlt⟩⟩
      have hne : content.toList ≠ [] := by rwa [ne_eq, String.toList_eq_nil_iff]
      have hgrows : Grows declared opened bodyElement.id _ [] _ :=
        grows_declared_text hwrites hne hblank (by simp)
      rw [flatMap_eq_self fun _ _ => rfl, String.ofList_toList] at hgrows
      exact hgrows.readsDeclared

/-! ### Recovering -/

namespace Recovery

lemma subset_of_trim (s : List Char) : trim s ⊆ s := fun c hc => by
  have hc := (List.dropWhile_sublist _).subset (List.mem_reverse.mp hc)
  exact (List.dropWhile_sublist _).subset (List.mem_reverse.mp hc)

/-- **Of content without brackets** only the last character matters to recovering. -/
lemma recover_congr (hu : '<' ∉ u) (hv : '<' ∉ v)
    (hlast : u.getLast? = some '\n' ↔ v.getLast? = some '\n') (written : List Char)
    (restore : Bool) : recover written u restore = recover written v restore := by
  have hstart : ∀ {x : List Char}, '<' ∉ x → declaration.isPrefixOf x = false := fun hx => by
    rw [← Bool.not_eq_true, List.isPrefixOf_iff_prefix]
    exact fun h => hx (h.subset (by decide))
  have hhead : ∀ {x : List Char}, '<' ∉ x → (trim x).head? ≠ some '<' := fun hx h =>
    hx (subset_of_trim _ (List.mem_of_head? h))
  rw [recover, recover]
  simp only [dropDeclarations, unwrapParagraph, dropNewline, hstart hu, hstart hv, hhead hu, hhead hv,
    if_false, ne_eq, hlast]

end Recovery

/-- Escaped text ends with a line feed exactly if the text does. -/
lemma getLast?_escape (place : TextPlace) (s : List Char) :
    (escape place s).getLast? = some '\n' ↔ s.getLast? = some '\n' := by
  rcases List.eq_nil_or_concat s with rfl | ⟨s, c, rfl⟩
  · simp [escape]
  · rw [List.concat_eq_append, escape, List.flatMap_append, List.flatMap_singleton,
      List.getLast?_append, List.getLast?_append]
    rcases escapeChar_form place c with hself | ⟨w, hw, href⟩
    · simp [hself]
    · have hform : (escapeChar place c).getLast? ≠ some '\n' := fun h => by
        rw [hw] at h
        exact absurd (href _ (List.mem_of_getLast? h)) (by decide)
      have hc : c ≠ '\n' := by
        rintro rfl
        have hself : escapeChar place '\n' = ['\n'] := by cases place <;> decide
        exact absurd (hself.symm.trans hw) (by simp)
      have hsome : (escapeChar place c).getLast?.isSome := by rw [hw]; simp
      obtain ⟨m, hm⟩ := Option.isSome_iff_exists.mp hsome
      rw [hm] at hform ⊢
      simpa [hc] using hform

/-- **Plain text read, written and recovered** is the text as it is written between tags. -/
lemma canonicalForm_of_isPlainText (hs : isPlainText content.toList = true) (restore : Bool) :
    canonicalForm content restore = String.ofList (content.toList.flatMap plainForm) := by
  have hbracket : '<' ∉ content.toList := fun hmem => ((isPlainText_iff.mp hs).1 _ hmem).1 rfl
  have hescaped : '<' ∉ escape .betweenTags content.toList :=
    notMem_escape (by decide) fun hmem => absurd hmem hbracket
  have hrecover := Recovery.recover_documentElement (isPlainAll_textTrees hs)
    (fun a ha => absurd ha (by simp [attributesAll_textTrees])) restore
  rw [serialize_textTrees, Recovery.recover_congr hescaped hbracket
    (getLast?_escape .betweenTags content.toList)] at hrecover
  rw [canonicalForm, readContent_of_isPlainText hs, recoverContent, writeNodes,
    String.toList_ofList, hrecover, escape_of_isPlainText hs]

/-! ### Processing -/

namespace Processor

open Run

variable {p : Processor} {w : World}

/-- **Plain text comes back** as it is written between tags, and no handler is run, unless
something is registered for the elements around a body. Shortcodes are then expanded in it. -/
theorem substitute_of_isPlainText (hs : isPlainText content.toList = true) (hallows : p.Allows w)
    (hwf : w.heap.WellFormed) (htags : ∀ tag ∈ ["html", "head", "body"],
      p.registry.forTag? tag = none) :
    ∃ h n,
      p.Yields (fun ask => p.substitute ask content) w
          (.ok (String.ofList (content.toList.flatMap plainForm)),
            { w with heap := h, lookups := n })
        ∧ p.Yields (fun ask => p.serve ask (.parse content)) w
          (.ok (p.shortcodes (String.ofList (content.toList.flatMap plainForm))),
            { w with heap := h, lookups := n }) := by
  have hbracket : '<' ∉ content.toList := fun hmem => ((isPlainText_iff.mp hs).1 _ hmem).1 rfl
  have hexpand : p.expand content = content := expand_eq_self fun v t hv ht => by
    obtain ⟨rest, rfl⟩ := source_prefix_of_selfClosingTag? ht
    exact absurd (hv.subset (by simp [SelfClosingTag.source])) hbracket
  have hmissed : ∀ t ∈ Tree.nodesAll (readContent content), p.Misses t := by
    have hnodes : ∀ t ∈ Tree.nodesAll (readContent content),
        (∀ tag ∈ t.name?, tag ∈ ["html", "head", "body"]) ∧ ∀ value, t.hasClass value = false := by
      rw [readContent_of_isPlainText hs, textTrees]
      split <;> simp [documentElement, Tree.nodesAll, Tree.nodes, Tree.name?, Tree.hasClass,
        Element.get?]
    exact fun t ht => ⟨fun tag h => htags tag ((hnodes t ht).1 tag h), fun r _ => (hnodes t ht).2 _⟩
  obtain ⟨n, hn⟩ := yields_substitute_of_missed hallows hwf (by rw [hexpand]) hmissed
  have hform := canonicalForm_of_isPlainText hs p.options.restoreShortcodeUrls
  rw [canonicalForm] at hform
  rw [hform] at hn
  exact ⟨_, n, hn, hn.bind_ok (Yields.of_outcome fun _ => rfl)⟩

/-- Text that looks like the end of a tag and like a link, with line feeds at the end, in a
processor that allows no nesting. -/
theorem substitute_of_isPlainText_arrow :
    let p : Processor := { options := { maxNestingDepth := some 1, strictFragments := false },
                           registry := ({} : Registry).registerTag "x-a" "a" fun _ _ => .done (.ok .keep),
                           shortcodes := fun s => s ++ "!" }
    let content := "x-a/> href=\"%5Ba\u00a0;\n\n"
    ∃ h n,
      p.Yields (fun ask => p.substitute ask content) {}
          (.ok "x-a/&gt; href=\"%5Ba&nbsp;;\n\n", { heap := h, lookups := n })
        ∧ p.Yields (fun ask => p.serve ask (.parse content)) {}
          (.ok "x-a/&gt; href=\"%5Ba&nbsp;;\n\n!", { heap := h, lookups := n }) := by
  intro p content
  have htags : ∀ tag ∈ ["html", "head", "body"], p.registry.forTag? tag = none := by
    intro tag htag
    rw [Registry.forTag_registerTag, if_neg, Registry.forTag?_empty]
    rintro rfl
    exact absurd htag (by decide +kernel)
  have hout : String.ofList (content.toList.flatMap plainForm)
      = "x-a/&gt; href=\"%5Ba&nbsp;;\n\n" := by decide +kernel
  have hplain : isPlainText content.toList = true := by decide +kernel
  have hallows : p.Allows {} := (by decide : ∀ limit ∈ some 1, 0 < limit)
  have hback := substitute_of_isPlainText hplain hallows Heap.wellFormed_empty htags
  rw [hout] at hback
  exact hback

end Processor

end RichText
