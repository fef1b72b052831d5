import RichText.Proofs.Heap.Wrapping
import RichText.Proofs.Substitution.Missed

/-!
Nested elements, each wrapped in another.

The handler of a tag moves all that is below its element into a new one, has elements substituted
there, and answers with the new element (`Processor.wrapper`). The pass goes down through the
handler, the processor and itself, one level of nesting for each element in another.

* `Tree.nesting`: how many elements of a tag stand in one another;
* `Tree.wrapped`: a tree in which each of them has become another element;
* `Processor.nested`: whether so many levels are within the limit;
* `Processor.wraps_substituteAt`, `Processor.wraps_substituteEach`: the pass at a tree and over
  several, by induction on these, at any level;
* `Processor.substituteBelow_wrapper`: **every element is wrapped**, up to exactly the limit.
-/

namespace RichText

namespace Tree

/-! ### Elements in one another -/

section Tag

variable (tag : String)

mutual

/-- The greatest number of elements of a tag on a way down from the root of a tree. -/
def nesting : Tree → ℕ
  | t@(element _ cs) => nestingAll cs + if t.name? = some tag then 1 else 0
  | t@(template _ cs _) => nestingAll cs + if t.name? = some tag then 1 else 0
  | document cs => nestingAll cs
  | _ => 0

/-- The greatest number of elements of a tag on a way down from the root of one of several trees. -/
def nestingAll : List Tree → ℕ
  | [] => 0
  | t :: ts => max (nesting t) (nestingAll ts)

end

variable (e : Element)

mutual

/-- The tree with another element, around the same children, for each element of a tag. -/
def wrapped : Tree → Tree
  | t@(element _ cs) =>
      if t.name? = some tag then element e (wrappedAll cs) else t.withChildren (wrappedAll cs)
  | t@(template _ cs _) =>
      if t.name? = some tag then element e (wrappedAll cs) else t.withChildren (wrappedAll cs)
  | document cs => document (wrappedAll cs)
  | t => t

/-- Trees with another element for each element of a tag. -/
def wrappedAll : List Tree → List Tree
  | [] => []
  | t :: ts => wrapped t :: wrappedAll ts

end

end Tag

variable {tag : String} {e : Element} {t c : Tree} {ts : List Tree}

lemma nesting_eq (tag : String) (t : Tree) :
    nesting tag t = nestingAll tag t.children + if t.name? = some tag then 1 else 0 := by
  cases t <;> simp [nesting, children, nestingAll, name?]

lemma wrapped_eq (tag : String) (e : Element) (t : Tree) :
    wrapped tag e t = if t.name? = some tag then element e (wrappedAll tag e t.children)
      else t.withChildren (wrappedAll tag e t.children) := by
  cases t <;> simp [wrapped, children, name?, withChildren]

/-- A way down from the root of a tree, from each node to one of its children. -/
inductive Way : Tree → List Tree → Prop
  | stop (t : Tree) : Way t [t]
  | down {t c : Tree} {ts : List Tree} (hc : c ∈ t.children) (hw : Way c ts) : Way t (t :: ts)

/-- How many nodes of a list are elements of a tag. -/
def tagged (tag : String) (ts : List Tree) : ℕ :=
  ts.countP fun t => t.name? = some tag

lemma nesting_le_nestingAll (hc : c ∈ ts) : nesting tag c ≤ nestingAll tag ts := by
  induction ts with
  | nil => simp at hc
  | cons t ts ih =>
      rw [nestingAll]
      rcases List.mem_cons.mp hc with rfl | hc
      · exact le_max_left ..
      · exact (ih hc).trans (le_max_right ..)

lemma Way.tagged_le (hw : Way t ts) : tagged tag ts ≤ nesting tag t := by
  induction hw with
  | stop t =>
      rw [nesting_eq, tagged, List.countP_singleton]
      simp
  | @down t c ts hc _ ih =>
      rw [tagged] at ih
      have hle := ih.trans (nesting_le_nestingAll hc)
      rw [nesting_eq, tagged, List.countP_cons]
      simpa using hle

lemma exists_way_of_children (tag : String) (t : Tree)
    (hcs : nestingAll tag t.children = 0
      ∨ ∃ c ∈ t.children, ∃ ts, Way c ts ∧ tagged tag ts = nestingAll tag t.children) :
    ∃ ts, Way t ts ∧ tagged tag ts = nesting tag t := by
  rcases hcs with hzero | ⟨c, hc, ts, hw, heq⟩
  · refine ⟨[t], .stop t, ?_⟩
    rw [nesting_eq, hzero, tagged, List.countP_singleton]
    simp
  · refine ⟨t :: ts, .down hc hw, ?_⟩
    rw [nesting_eq, ← heq, tagged, tagged, List.countP_cons]
    simp

mutual

/-- Some way down meets that many elements. -/
lemma exists_way (tag : String) : ∀ t : Tree, ∃ ts, Way t ts ∧ tagged tag ts = nesting tag t
  | element e cs => exists_way_of_children tag (element e cs) (exists_way_all tag cs)
  | template as cs us => exists_way_of_children tag (template as cs us) (exists_way_all tag cs)
  | document cs => exists_way_of_children tag (document cs) (exists_way_all tag cs)
  | text s => exists_way_of_children tag (text s) (.inl rfl)
  | comment s => exists_way_of_children tag (comment s) (.inl rfl)
  | doctype name publicId systemId =>
      exists_way_of_children tag (doctype name publicId systemId) (.inl rfl)

lemma exists_way_all (tag : String) : ∀ cs : List Tree,
    nestingAll tag cs = 0 ∨ ∃ c ∈ cs, ∃ ts, Way c ts ∧ tagged tag ts = nestingAll tag cs
  | [] => .inl rfl
  | c :: cs => by
      rw [nestingAll]
      rcases le_total (nestingAll tag cs) (nesting tag c) with hle | hle
      · obtain ⟨ts, hw, heq⟩ := exists_way tag c
        exact .inr ⟨c, List.mem_cons_self, ts, hw, by rw [heq, max_eq_left hle]⟩
      · rw [max_eq_right hle]
        refine (exists_way_all tag cs).imp_right fun ⟨b, hb, ts, hw, heq⟩ => ?_
        exact ⟨b, List.mem_cons_of_mem _ hb, ts, hw, heq⟩

end

/-- **The number of elements in one another** is the largest number on a way down. -/
theorem nestingAll_le_iff {cs : List Tree} {n : ℕ} :
    nestingAll tag cs ≤ n ↔ ∀ c ∈ cs, ∀ ts, Way c ts → tagged tag ts ≤ n := by
  constructor
  · exact fun hle c hc ts hw => hw.tagged_le.trans ((nesting_le_nestingAll hc).trans hle)
  · intro hall
    rcases exists_way_all tag cs with hzero | ⟨c, hc, ts, hw, heq⟩
    · rw [hzero]
      exact Nat.zero_le n
    · rw [← heq]
      exact hall c hc ts hw

end Tree

namespace Processor

open Heap Run
open Layout (idsAll)
open RichText.Tree (nesting nestingAll wrapped wrappedAll)

variable {p : Processor} {context : Option String} {tag : String} {e : Element} {w w' : World}

/-! ### The handler -/

/-- The handler that moves all that is below its element into a new one, has elements substituted
there, and answers with the new element. -/
def wrapper (e : Element) : Handler := fun node context => do
  let u ← Program.newNode (.element e)
  Program.modifyHeap (·.moveChildren node u)
  match ← Program.request (.substituteBelow u context) with
  | .ok _ => return .ok (.tree u)
  | .error failure => return .error failure

/-- The elements of one tag are registered for that handler, and no others. -/
structure Wraps (p : Processor) (tag : String) (e : Element) : Prop where
  registered : ∃ r, p.registry.forTag? tag = some r ∧ r.handler = wrapper e
  other : ∀ name, name ≠ tag → p.registry.forTag? name = none

lemma Wraps.registers_eq_false (hp : p.Wraps tag e) {h : Heap} {i : NodeId}
    (htag : h.tagName i ≠ some tag) : p.registers h i = false := by
  cases hname : h.tagName i with
  | none => simp [registers, hname]
  | some name =>
      have hother := hp.other name fun heq => htag (hname.trans (by rw [heq]))
      simp [registers, hname, hother]

/-- What the handler does is what substituting below the new element does. -/
lemma yields_wrapper {i : NodeId} {result : Except Failure Unit}
    (hy : p.Yields (fun ask => p.guarded (substituteBelow ask w.heap.size context))
      { w with heap := w.heap.wrapChildren e i } (result, w')) :
    p.Yields (fun ask => (wrapper e i context).run ask) w
      (.ok (result.map fun _ => .tree w.heap.size), w') := by
  have hask := hy.ask (r := .substituteBelow w.heap.size context)
  refine Yields.congr (fun _ => rfl) (hask.run_ask ?_)
  cases result <;> exact Yields.of_outcome fun _ => rfl

/-! ### The limit -/

/-- What comes of elements that stand `d` deep in one another and each take a level. -/
def nested (p : Processor) (level d : ℕ) : Except Failure Unit :=
  match p.options.maxNestingDepth.filter fun limit => d ≠ 0 ∧ limit < level + d with
  | none => .ok ()
  | some limit => .error (.nestingTooDeep limit)

lemma nested_of_none (hmax : p.options.maxNestingDepth = none) (level d : ℕ) :
    p.nested level d = .ok () := by
  simp [nested, hmax]

lemma nested_of_some {limit : ℕ} (hmax : p.options.maxNestingDepth = some limit) (level d : ℕ) :
    p.nested level d
      = if d ≠ 0 ∧ limit < level + d then .error (.nestingTooDeep limit) else .ok () := by
  by_cases hd : d ≠ 0 ∧ limit < level + d <;> simp [nested, hmax, Option.filter_some, hd]

lemma nested_eq_ok {level d : ℕ}
    (hd : d = 0 ∨ ∀ limit ∈ p.options.maxNestingDepth, level + d ≤ limit) :
    p.nested level d = .ok () := by
  cases hmax : p.options.maxNestingDepth with
  | none => rw [nested_of_none hmax]
  | some limit =>
      have := hd.imp_right fun h => h limit hmax
      rw [nested_of_some hmax, if_neg (by omega)]

lemma nested_zero (p : Processor) (level : ℕ) : p.nested level 0 = .ok () :=
  nested_eq_ok (.inl rfl)

/-- Elements side by side take their levels one after the other. -/
lemma nested_max (p : Processor) (level a b : ℕ) :
    p.nested level (max a b) = p.nested level a >>= fun _ => p.nested level b := by
  cases hmax : p.options.maxNestingDepth with
  | none =>
      simp only [nested_of_none hmax]
      rfl
  | some limit =>
      simp only [nested_of_some hmax]
      split_ifs <;> first | rfl | omega

/-- An element takes a level, and those in it take theirs from there. -/
lemma nested_succ_of_allows (hallows : p.Allows w) (d : ℕ) :
    p.nested w.depth (d + 1) = p.nested (w.depth + 1) d := by
  cases hmax : p.options.maxNestingDepth with
  | none => simp only [nested_of_none hmax]
  | some limit =>
      have hlt : w.depth < limit := hallows limit hmax
      simp only [nested_of_some hmax]
      split_ifs <;> first | rfl | omega

/-! ### One tree -/

/-- The pass wraps the elements of a tag in trees that stand side by side, or fails if they stand
too deep in one another. -/
def WrapsEach (p : Processor) (tag : String) (e : Element) (context : Option String)
    (ss : List Layout) : Prop :=
  ∀ (w : World) (q : ℕ) (pre post : List NodeId), Holds w.heap q pre post ss →
    ∃ w', p.Yields (fun ask => substituteEach ask context (ss.map Layout.id)) w
        (p.nested w.depth (nestingAll tag (w.heap.readAll ss)), w')
      ∧ (p.nested w.depth (nestingAll tag (w.heap.readAll ss)) = .ok () →
        Rewritten w.heap w'.heap q pre post ss (wrappedAll tag e (w.heap.readAll ss)))

/-- The same for one tree, wherever it stands. -/
def WrapsAt (p : Processor) (tag : String) (e : Element) (context : Option String)
    (s : Layout) : Prop :=
  ∀ (w : World) (q : ℕ) (pre post : List NodeId), Holds w.heap q pre post [s] →
    ∃ w', p.Yields (fun ask => p.substituteAt ask s.id context) w
        (p.nested w.depth (nesting tag (w.heap.read s)), w')
      ∧ (p.nested w.depth (nesting tag (w.heap.read s)) = .ok () →
        Rewritten w.heap w'.heap q pre post [s] [wrapped tag e (w.heap.read s)])

section At

variable {q : ℕ} {pre post : List NodeId} {s : Layout} {ts : List Tree}

/-- The new element is put in place of the element. -/
lemma outcome_splice_wrap (hs : Holds w.heap q pre post [s])
    (hrew : Rewritten (w.heap.wrapChildren e s.id) w'.heap w.heap.size [] [] s.children ts) :
    (p.splice tag s.id (w.heap.position s.id) (.tree w.heap.size)).outcome w'
      = some (.ok (), { w' with heap := (w'.heap.replaceWith s.id [w.heap.size]).1 }) := by
  obtain ⟨hparent, hstand, hnot, -⟩ := hs.wrap hrew
  have hany : ([w.heap.size].any fun n => w'.heap.isAncestorOrSelf n q) = false := by
    rw [List.any_eq_false]
    intro n hn hc
    obtain rfl := List.mem_singleton.mp hn
    exact hnot ((isAncestorOrSelf_iff hrew.wellFormed).mp hc)
  rw [splice, outcome_putReplacement, hs.wellFormed.position_eq_some hs.children_eq_cons]
  simp only [hstand, hany, Bool.false_eq_true, if_false, putInPlace, hparent, if_true]

/-- **An element is wrapped**, if one more level is allowed and those in it can be. -/
lemma WrapsEach.replaceElement (hch : p.WrapsEach tag e context s.children) {r : Registration}
    (hr : r.handler = wrapper e) (hs : Holds w.heap q pre post [s]) (name : String) :
    ∃ w', p.Yields (fun ask => p.replaceElement ask r name s.id context) w
        (p.nested w.depth (nestingAll tag (w.heap.readAll s.children) + 1), w')
      ∧ (p.nested w.depth (nestingAll tag (w.heap.readAll s.children) + 1) = .ok () →
        Rewritten w.heap w'.heap q pre post [s]
          [.element e (wrappedAll tag e (w.heap.readAll s.children))]) := by
  have hwf := hs.wellFormed
  have hcarries := hs.carries.1
  have hnd := hs.nodup_ids
  rcases p.allows_or_limit w with hallows | ⟨limit, hmax, hle⟩
  · -- the children are substituted one level deeper, below the new element
    have hin := Holds.wrapChildren hwf hcarries hnd e
    have hread := readAll_wrapChildren hwf hcarries hnd e
    set w₁ : World := { begun w r s.id context with heap := w.heap.wrapChildren e s.id } with hw₁
    obtain ⟨w₂, hy, hrew⟩ := hch { w₁ with depth := w.depth + 1 } w.heap.size [] [] hin
    rw [hread] at hy hrew
    rw [nested_succ_of_allows hallows]
    have hbelow : p.Yields (fun ask => substituteBelow ask w.heap.size context)
        { w₁ with depth := w.depth + 1 }
        (p.nested (w.depth + 1) (nestingAll tag (w.heap.readAll s.children)), w₂) := by
      refine Yields.congr (fun ask => ?_) hy
      rw [substituteBelow, outcome_bind_ok (outcome_heap _), hin.children_eq, List.nil_append,
        List.append_nil]
    have hhandler := yields_runHandler (hr ▸ yields_wrapper (hbelow.guarded hallows))
    cases hres : p.nested (w.depth + 1) (nestingAll tag (w.heap.readAll s.children)) with
    | error failure =>
        rw [hres] at hhandler
        exact ⟨_, yields_replaceElement_error hhandler, by simp⟩
    | ok _ =>
        rw [hres] at hhandler
        have hplaced := hrew hres
        exact ⟨_, yields_replaceElement hhandler (outcome_splice_wrap hs hplaced),
          fun _ => (hs.wrap hplaced).2.2.2⟩
  · have hrefused : p.Yields (fun ask => (wrapper e s.id context).run ask) (begun w r s.id context)
        (.ok (.error (.nestingTooDeep limit)),
          { begun w r s.id context with heap := w.heap.wrapChildren e s.id }) :=
      yields_wrapper (w := begun w r s.id context)
        (Yields.of_outcome fun ask => outcome_guarded_of_limit _ hmax hle)
    have hhandler := yields_runHandler (hr ▸ hrefused)
    rw [nested_of_some hmax, if_pos (by omega)]
    exact ⟨_, yields_replaceElement_error hhandler, by simp⟩

/-- A tree is wrapped if the trees of its children are. -/
lemma WrapsEach.wrapsAt (hp : p.Wraps tag e) (hch : p.WrapsEach tag e context s.children) :
    p.WrapsAt tag e context s := by
  intro w q pre post hs
  have hcarries := hs.carries.1
  rw [Tree.nesting_eq, Tree.wrapped_eq, children_read hcarries, name?_read hcarries]
  by_cases htag : w.heap.tagName s.id = some tag
  · obtain ⟨r, hr, hhandler⟩ := hp.registered
    simp only [htag, if_true]
    obtain ⟨w', hy, hrew⟩ := hch.replaceElement hhandler hs tag
    exact ⟨w', Yields.congr (fun ask => substituteAt_of_registered htag hr) hy, hrew⟩
  · simp only [htag, if_false, Nat.add_zero]
    obtain ⟨w', hy, hrew⟩ := hch w s.id [] [] hs.children
    refine ⟨w', yields_substituteAt_of_children hcarries (hp.registers_eq_false htag) hy,
      fun hok => ?_⟩
    refine Rewritten.below hs (hrew hok) fun hcs => ?_
    rw [hcs]
    rfl

end At

/-! ### All trees -/

lemma wrapsEach_nil : p.WrapsEach tag e context [] := fun w q pre post hs =>
  ⟨w, Yields.of_outcome fun _ => by
      rw [readAll, nestingAll, nested_zero]
      rfl,
    fun _ => Rewritten.of_extends hs (Extends.refl w.heap) hs.wellFormed⟩

/-- Trees are wrapped one after the other, up to a failure. -/
lemma WrapsAt.cons {s : Layout} {ss : List Layout} (hs : p.WrapsAt tag e context s)
    (hss : p.WrapsEach tag e context ss) : p.WrapsEach tag e context (s :: ss) := by
  intro w q pre post hh
  obtain ⟨w₁, hy₁, hrew₁⟩ := hs w q pre (ss.map Layout.id ++ post) hh.head
  have hask := hy₁.ask (r := .substituteAt s.id context)
  rw [readAll, nestingAll, nested_max]
  cases hres : p.nested w.depth (nesting tag (w.heap.read s)) with
  | error failure =>
      rw [hres] at hask
      exact ⟨w₁, hask.bind_error, fun hok =>
        absurd (show Except.error failure = .ok () from hok) (by simp)⟩
  | ok _ =>
      rw [hres] at hask
      have hplaced := hrew₁ hres
      obtain ⟨pre', hrest, hthen⟩ := hplaced.rest hh
      have hdepth : w₁.depth = w.depth := stepRelation_depth.of_yields
        (fun _ hresp => stepRelation_depth.relates_substituteAt hresp s.id context) hy₁
      obtain ⟨w₂, hy₂, hrew₂⟩ := hss w₁ q pre' post hrest
      rw [hh.readAll_tail hplaced, hdepth] at hy₂ hrew₂
      exact ⟨w₂, hask.bind_ok hy₂, fun hok => hthen (hrew₂ hok)⟩

mutual

/-- The pass wraps every tree, down to the limit. -/
theorem wraps_substituteAt (hp : p.Wraps tag e) : ∀ s : Layout, p.WrapsAt tag e context s
  | .node _ cs => WrapsEach.wrapsAt hp (wraps_substituteEach hp cs)
  | .template _ cs _ _ => WrapsEach.wrapsAt hp (wraps_substituteEach hp cs)

/-- The pass wraps all trees side by side. -/
theorem wraps_substituteEach (hp : p.Wraps tag e) :
    ∀ ss : List Layout, p.WrapsEach tag e context ss
  | [] => wrapsEach_nil
  | s :: ss => (wraps_substituteAt hp s).cons (wraps_substituteEach hp ss)

end

/-- The children of a node are wrapped. -/
lemma Wraps.below (hp : p.Wraps tag e) (context : Option String) {s : Layout}
    (hwf : w.heap.WellFormed) (hs : w.heap.Carries s) (hnd : s.ids.Nodup) :
    ∃ w', p.Yields (fun ask => substituteEach ask context (w.heap.children s.id)) w
        (p.nested w.depth (nestingAll tag (w.heap.forest s.id)), w')
      ∧ (p.nested w.depth (nestingAll tag (w.heap.forest s.id)) = .ok () → w'.heap.WellFormed
        ∧ w'.heap.forest s.id = wrappedAll tag e (w.heap.forest s.id)) := by
  obtain ⟨w', hy, hrew⟩ := wraps_substituteEach hp s.children w s.id [] []
    (Holds.of_carries hwf hs hnd)
  rw [← hs.forest_eq hnd] at hy hrew
  rw [← hs.children_eq] at hy
  refine ⟨w', hy, fun hok => ?_⟩
  obtain ⟨us, hch, hus, hndu, -, hread⟩ := (hrew hok).carries
  rw [List.nil_append, List.append_nil] at hch
  exact ⟨(hrew hok).wellFormed, by rw [forest_eq_readAll hch hus hndu, hread]⟩

/-! ### Content -/

/-- Content takes one level more than the elements in it. -/
lemma Wraps.yields_substitute (hp : p.Wraps tag e) (hclasses : p.registry.classes = [])
    (hwf : w.heap.WellFormed) (content : String) :
    ∃ w', p.Yields (fun ask => p.substitute ask content) w
      ((p.nested w.depth (nestingAll tag (readContent (p.expand content)) + 1)).map fun _ =>
        recoverContent (writeNodes (wrappedAll tag e (readContent (p.expand content)))) content
          p.options.restoreShortcodeUrls, w') := by
  rcases p.allows_or_limit w with hallows | ⟨limit, hmax, hle⟩
  · obtain ⟨context, n, hprocessed⟩ := exists_yields_substitute content hallows rfl
    set ts := readContent (p.expand content)
    have hpl := hwf.plant (.document ts)
    obtain ⟨s, hid, hs, hnd, -, hread⟩ := hpl.carries
    set w₁ : World :=
      { w with heap := (w.heap.plant (.document ts)).1, depth := w.depth + 1, lookups := n } with hw₁
    have hforest : w₁.heap.forest s.id = ts := by rw [hid, hw₁, forest_planted hwf]
    have hroot : w₁.heap.tagName s.id ≠ some tag := by
      rw [← name?_read hs, hread]
      simp [Tree.name?]
    obtain ⟨w₂, hy, hwrapped⟩ := hp.below (w := w₁) context hpl.wellFormed hs hnd
    rw [hforest] at hy hwrapped
    have hwalk := Yields.congr
      (fun ask => substituteAt_of_not_registers (hp.registers_eq_false hroot)) hy
    rw [nested_succ_of_allows hallows]
    refine ⟨{ w₂ with depth := w₂.depth - 1 }, hprocessed _ w₂ ?_⟩
    cases hres : p.nested (w.depth + 1) (nestingAll tag ts) with
    | error failure =>
        rw [hres] at hwalk
        exact hid ▸ hwalk.bind_error
    | ok _ =>
        rw [hres] at hwalk
        have hscan : p.Yields (fun ask => p.substituteClassed ask s.id context) w₂ (.ok (), w₂) :=
          Yields.of_outcome fun ask =>
            outcome_substituteRegistered_of_unmatched (by simp [hclasses])
        refine hid ▸ hwalk.bind_ok (hscan.bind_ok (Yields.of_outcome fun _ => ?_))
        rw [outcome_bind_ok (outcome_heap w₂), Heap.markup, (hwrapped hres).2]
        rfl
  · refine ⟨w, Yields.of_outcome fun ask => ?_⟩
    rw [nested_of_some hmax, if_pos (by omega)]
    exact outcome_guarded_of_limit _ hmax hle

/-! ### The limit reached -/

lemma wraps_registerTag {t label : String}
    (hp : p.registry = Registry.registerTag {} t label (wrapper e)) : p.Wraps t.toLower e where
  registered := ⟨_, by rw [hp, Registry.forTag_registerTag, if_pos rfl], rfl⟩
  other name hname := by
    rw [hp, Registry.forTag_registerTag, if_neg (Ne.symm hname), Registry.forTag?_empty]

/-- **Every element of a tag is wrapped**, at every level, exactly if the limit allows it. -/
theorem substituteBelow_wrapper {t label : String}
    (hp : p.registry = Registry.registerTag {} t label (wrapper e)) {s : Layout}
    (hwf : w.heap.WellFormed) (hs : w.heap.Carries s) (hnd : s.ids.Nodup)
    (context : Option String) :
    let d := nestingAll t.toLower (w.heap.forest s.id)
    ((d = 0 ∨ ∀ limit ∈ p.options.maxNestingDepth, w.depth + d ≤ limit) →
        ∃ w', p.Yields (fun ask => substituteBelow ask s.id context) w (.ok (), w')
          ∧ w'.heap.WellFormed
          ∧ w'.heap.forest s.id = wrappedAll t.toLower e (w.heap.forest s.id))
      ∧ (∀ limit ∈ p.options.maxNestingDepth, d ≠ 0 → limit < w.depth + d →
        ∃ w', p.Yields (fun ask => substituteBelow ask s.id context) w
          (.error (.nestingTooDeep limit), w'))
      ∧ ∀ content,
        let ts := readContent (p.expand content)
        let n := nestingAll t.toLower ts
        ((∀ limit ∈ p.options.maxNestingDepth, w.depth + 1 + n ≤ limit) →
          ∃ w', p.Yields (fun ask => p.serve ask (.parse content)) w
            (.ok (p.shortcodes (recoverContent (writeNodes (wrappedAll t.toLower e ts)) content
              p.options.restoreShortcodeUrls)), w'))
        ∧ ∀ limit ∈ p.options.maxNestingDepth, limit < w.depth + 1 + n →
          ∃ w', p.Yields (fun ask => p.serve ask (.parse content)) w
            (.error (.nestingTooDeep limit), w') := by
  intro d
  have hwraps := wraps_registerTag hp
  have hclasses : p.registry.classes = [] := by
    rw [hp]
    rfl
  obtain ⟨w', hy, hwrapped⟩ := hwraps.below context hwf hs hnd
  have hbelow : p.Yields (fun ask => substituteBelow ask s.id context) w (p.nested w.depth d, w') :=
    Yields.congr (fun ask => by rw [substituteBelow, outcome_bind_ok (outcome_heap w)]) hy
  refine ⟨fun hd => ?_, fun limit hmax hd hlt => ?_, fun content => ?_⟩
  · have hok := nested_eq_ok hd
    rw [hok] at hbelow
    exact ⟨w', hbelow, hwrapped hok⟩
  · rw [nested_of_some hmax, if_pos ⟨hd, hlt⟩] at hbelow
    exact ⟨w', hbelow⟩
  · intro ts n
    obtain ⟨w'', hy⟩ := hwraps.yields_substitute hclasses hwf content
    have hlevel : w.depth + (n + 1) = w.depth + 1 + n := by rw [Nat.add_right_comm, Nat.add_assoc]
    constructor
    · intro hfits
      rw [nested_eq_ok (.inr fun limit hmax => hlevel.trans_le (hfits limit hmax))] at hy
      exact ⟨w'', hy.bind_ok (Yields.of_outcome fun _ => rfl)⟩
    · intro limit hmax hlt
      rw [nested_of_some hmax, if_pos ⟨Nat.succ_ne_zero n, hlevel ▸ hlt⟩] at hy
      exact ⟨w'', hy.bind_error⟩

/-- Two elements in one another, with a limit of two levels: they are wrapped, but not from within a
level. -/
theorem substituteBelow_wrapper_twice :
    let p : Processor := { options := { maxNestingDepth := some 2 },
                           registry := Registry.registerTag {} "x-a" "a" (wrapper { name := "b" }) }
    let h := (Heap.plant {} (.document
      [.element { name := "x-a" } [.element { name := "x-a" } [.text "x"]]])).1
    (∃ w', p.Yields (fun ask => substituteBelow ask 0 none) { heap := h } (.ok (), w')
        ∧ w'.heap.forest 0 = [.element { name := "b" } [.element { name := "b" } [.text "x"]]])
      ∧ ∃ w', p.Yields (fun ask => substituteBelow ask 0 none) { heap := h, depth := 1 }
        (.error (.nestingTooDeep 2), w') := by
  intro p h
  have hpl := wellFormed_empty.plant (.document
    [.element { name := "x-a" } [.element { name := "x-a" } [.text "x"]]])
  obtain ⟨s, hid, hs, hnd, -, hread⟩ := hpl.carries
  have hroot : s.id = 0 := hid
  have hlower : "x-a".toLower = "x-a" := by decide +kernel
  have hforest : h.forest 0
      = [.element { name := "x-a" } [.element { name := "x-a" } [.text "x"]]] :=
    forest_planted wellFormed_empty _
  have hnesting : nestingAll "x-a" (h.forest 0) = 2 := by
    rw [hforest]
    rfl
  have hwrapped : wrappedAll "x-a" { name := "b" } (h.forest 0)
      = [.element { name := "b" } [.element { name := "b" } [.text "x"]]] := by
    rw [hforest]
    rfl
  obtain ⟨hfits, -⟩ := substituteBelow_wrapper (p := p) (w := { heap := h }) rfl hpl.wellFormed
    hs hnd none
  obtain ⟨-, htoo, -⟩ := substituteBelow_wrapper (p := p) (w := { heap := h, depth := 1 }) rfl
    hpl.wellFormed hs hnd none
  simp only [hroot, hlower, hnesting, hwrapped] at hfits htoo
  obtain ⟨w', hy, -, hw'⟩ := hfits (.inr (by simp [p]))
  exact ⟨⟨w', hy, hw'⟩, htoo 2 rfl (by decide) (by decide)⟩

end Processor

end RichText
