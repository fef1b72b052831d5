import RichText.Proofs.Construction.Templates
import RichText.Proofs.Content.RoundTrip

/-!
Templates in content.

The contents of a template are kept apart from its children, and writing goes through children only.

* `templateContent`: content that is a division with a template, and a forest inside of that;
* `readContent_templateContent`: the forest is read as the contents of the template;
* `Processor.substitute_templateContent`: **what is inside of a template is lost**, whatever forest
  it is, so that the content comes back exactly if the template is empty.
-/

namespace RichText

variable {ts : List Tree}

/-- Content that is a division with a template around a written forest. -/
def templateContent (ts : List Tree) : String :=
  "<div><template>" ++ writeNodes ts ++ "</template></div>"

lemma toList_templateContent (ts : List Tree) : (templateContent ts).toList
    = "<div><template>".toList ++ serialize ts ++ "</template></div>".toList := by
  have hwritten : (writeNodes ts).toList = serialize ts := String.toList_ofList
  rw [templateContent, String.toList_append, String.toList_append, hwritten]

/-- A written plain forest is empty only if it has no trees. -/
lemma serialize_eq_nil_iff (hts : Tree.isPlainAll false ts = true) :
    serialize ts = [] ↔ ts = [] := by
  refine ⟨fun hnil => ?_, fun h => h ▸ rfl⟩
  cases ts with
  | nil => rfl
  | cons t ts =>
      obtain ⟨ht, -⟩ := Tree.isPlainAll_cons.mp hts
      have hnil : serializeNode {} t = [] := (List.append_eq_nil_iff.mp hnil).1
      cases htext : t.isText with
      | false => exact absurd (head?_serializeNode ht htext) (by simp [hnil])
      | true =>
          cases t with
          | text x =>
              simp only [Tree.isPlain, Bool.and_eq_true, decide_eq_true_eq] at ht
              obtain ⟨a, as, hx⟩ := List.exists_cons_of_ne_nil
                (mt String.toList_eq_nil_iff.mp ht.1)
              have hescape : escapeChar .betweenTags a ≠ [] := by
                simp only [escapeChar]
                split_ifs <;> simp
              rw [serializeNode_text, hx] at hnil
              exact absurd (List.append_eq_nil_iff.mp hnil).1 hescape
          | _ => exact absurd htext (by simp [Tree.isText])

/-! ### Reading -/

namespace Construction

/-- A template in a division, read behind the declaration. -/
lemma readsDeclared_template (hts : Tree.isPlainAll false ts = true) :
    ReadsDeclared (templateContent ts).toList
      [.element { name := "div" } [.template [] [] ts]] := by
  have hplain : isPlainName "div" = true := by decide
  have hname : IsTagName "div" := isTagName_of_isPlainName hplain
  obtain ⟨hflows, hstart⟩ := flows_of_isPlainName hplain
  have hgrows : Grows opened opened bodyElement.id
      (tagText (escapeChar .inValue) "div" []
        ++ (tagText (escapeChar .inValue) "template" [] ++ serialize ts ++ "</template>".toList)
        ++ ('<' :: '/' :: "div".toList ++ ['>'])) []
      [.element { name := "div" } [.template [] [] ts]] := by
    refine grows_tags (n := { name := "div" }) inside_opened rfl hname (by simp) (by simp) hflows
      (hstart.imp_left fun h => ⟨h.1, hasParagraph_opened⟩) fun c' hc' _ => ?_
    exact grows_template hc' (by rw [hc'.stack]; rfl) (by simp) (by simp) hts
  have hdeclared : Grows declared opened bodyElement.id (templateContent ts).toList []
      [.element { name := "div" } [.template [] [] ts]] := by
    intro limit
    have hwritten : (templateContent ts).toList ++ [] = tagText (escapeChar .inValue) "div" []
        ++ ("<template>".toList ++ serialize ts ++ "</template></div>".toList) := by
      rw [toList_templateContent]
      simp [tagText]
    obtain ⟨h, ok, limit', hbuild, hplanted⟩ := hgrows limit
    refine ⟨h, ok, limit', ?_, hplanted⟩
    rw [hwritten, build_declared_startTag hname (by simp) (by simp) (by decide)
      (hstart.imp_left And.left), ← hbuild]
    simp [tagText]
  exact hdeclared.readsDeclared

end Construction

/-- **The forest is read** as the contents of the template. -/
theorem readContent_templateContent (hts : Tree.isPlainAll false ts = true) :
    readContent (templateContent ts) = [.comment Construction.declarationText,
      documentElement [] [.element { name := "div" } [.template [] [] ts]]] := by
  refine readContent_of_readsDeclared ?_ (Construction.readsDeclared_template hts)
  have hmarks : '\r' ∉ "<div><template>".toList ∧ '\r' ∉ "</template></div>".toList := by decide
  rw [toList_templateContent, List.mem_append, List.mem_append, not_or, not_or]
  exact ⟨⟨hmarks.1, notMem_serializeNodes hts⟩, hmarks.2⟩

/-! ### Writing -/

namespace Recovery

/-- The contents are not among what is recovered. -/
lemma recover_template (content : List Char) (hstart : declaration.isPrefixOf content = false)
    (hhead : (trim content).head? = some '<') (restore : Bool) :
    recover (serialize [.comment Construction.declarationText,
        documentElement [] [.element { name := "div" } [.template [] [] ts]]]) content restore
      = "<div><template></template></div>".toList := by
  have hwritten : serialize [.element { name := "div" } [.template [] [] ts]]
      = "<div><template></template></div>".toList := rfl
  have hlinks : (if restore then
        restoreLinks (declarationComment ++ "<div><template></template></div>".toList)
      else declarationComment ++ "<div><template></template></div>".toList)
      = declarationComment ++ "<div><template></template></div>".toList := by
    cases restore
    · rfl
    · decide
  have hdrop : dropDeclarations content
      (declarationComment ++ "<div><template></template></div>".toList)
      = "<div><template></template></div>".toList := by
    rw [dropDeclarations, hstart]
    decide
  rw [recover, stripWrapper_documentElement, hwritten, hlinks, hdrop, unwrapParagraph, if_pos hhead]
  exact if_neg (by simp)

end Recovery

/-- **The contents are not written.** -/
lemma canonicalForm_templateContent (hts : Tree.isPlainAll false ts = true) (restore : Bool) :
    canonicalForm (templateContent ts) restore = templateContent [] := by
  have hcontent := toList_templateContent ts
  have hstart : declaration.isPrefixOf (templateContent ts).toList = false := by
    rw [hcontent]
    rfl
  have hhead : (trim (templateContent ts).toList).head? = some '<' := by
    rw [hcontent]
    exact Recovery.head?_trim_cons (by decide) _
  rw [canonicalForm, readContent_templateContent hts, recoverContent, writeNodes,
    String.toList_ofList, Recovery.recover_template _ hstart hhead]
  rfl

/-! ### Processing -/

namespace Processor

/-- **What is inside of a template is lost.** A division with a template around a plain forest is
read with the forest as the contents of the template, and comes back without it: from reading,
writing and recovering it, and from a processor with nothing registered that may nest one level
deeper. So it comes back as it was exactly if the forest is empty. -/
theorem substitute_templateContent (hts : Tree.isPlainAll false ts = true) :
    readContent (templateContent ts) = [.comment Construction.declarationText,
        documentElement [] [.element { name := "div" } [.template [] [] ts]]]
      ∧ (∀ restore, canonicalForm (templateContent ts) restore = templateContent [])
      ∧ (∀ (p : Processor) (w : World), p.registry = {} → w.heap.WellFormed → p.Allows w →
          ∃ w', p.Yields (fun ask => p.substitute ask (templateContent ts)) w
            (.ok (templateContent []), w'))
      ∧ (templateContent [] = templateContent ts ↔ ts = []) := by
  refine ⟨readContent_templateContent hts, canonicalForm_templateContent hts,
    fun p w hp hwf hallows => ?_, ⟨fun heq => ?_, fun h => by rw [h]⟩⟩
  · have hback := yields_substitute_of_empty hp hallows hwf (templateContent ts)
    rwa [canonicalForm_templateContent hts] at hback
  · have hlist := congrArg String.toList heq
    rw [toList_templateContent, toList_templateContent, List.append_cancel_right_eq,
      List.append_cancel_left_eq] at hlist
    exact (serialize_eq_nil_iff hts).mp hlist.symm

/-- A paragraph and text inside a template. -/
theorem substitute_templateContent_note :
    let ts : List Tree := [.element { name := "p" } [.text "1 < 2"], .text " and more"]
    let content := "<div><template><p>1 &lt; 2</p> and more</template></div>"
    templateContent ts = content
      ∧ (∀ restore, canonicalForm content restore = "<div><template></template></div>")
      ∧ ∃ w', ({} : Processor).Yields (fun ask => ({} : Processor).substitute ask content) {}
        (.ok "<div><template></template></div>", w') := by
  intro ts content
  have hallows : ({} : Processor).Allows {} := (by decide : ∀ limit ∈ some 32, 0 < limit)
  have hcontent : templateContent ts = content := by decide
  have hempty : templateContent [] = "<div><template></template></div>" := by decide
  have hplain : Tree.isPlainAll false ts = true := by decide
  have hlost := substitute_templateContent hplain
  rw [hcontent, hempty] at hlost
  exact ⟨hcontent, hlost.2.1, hlost.2.2.1 {} {} rfl Heap.wellFormed_empty hallows⟩

end Processor

end RichText
