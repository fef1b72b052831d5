import RichText.Proofs.Construction.Lasting
import RichText.Proofs.Construction.Opening

/-!
Text in front of the first tag.

What stands in front of the first tag, comment or document type of content opens the body, unless it
is white space or U+0000, and is the first that stands there. Whatever follows comes behind it.

* `leadingText`: the text in front of the first tag;
* `shows`: the characters that are seen at the start of what is written;
* `Led`: where the construction is behind a leading text;
* `Led.feed`, `Led.build`: **the leading text is taken in**;
* `beyond_openedWith`: what has been built then lasts.
-/

namespace RichText

/-! ### Leading text -/

/-- The text in front of the first tag, with references read; the first `skip` characters belong to
a reference that has been read already. -/
def leadingFrom : ℕ → List Char → List Char
  | _, [] => []
  | skip + 1, _ :: cs => leadingFrom skip cs
  | 0, c :: cs =>
      if c = '<' then []
      else if c = '&' then
        (Reference.read false cs).text ++ leadingFrom (Reference.read false cs).consumed cs
      else newline c :: leadingFrom 0 cs

/-- **The text in front of the first tag** of a text whose line ends have been joined. -/
def leadingText (s : List Char) : List Char :=
  leadingFrom 0 s

/-- Whether a character is seen at the start of what is written. U+0000 is not written in a body,
and blanks are trimmed, but for the one that is written as a reference. -/
def shows (c : Char) : Bool :=
  c ≠ nul && (!isBlank c || c = '\u00a0')

lemma shows_eq_false_of_isMarkupSpace {c : Char} (hc : isMarkupSpace c = true) :
    shows c = false := by
  have hblank := isBlank_of_isMarkupSpace hc
  have hne : c ≠ '\u00a0' := by
    rintro rfl
    exact absurd hc (by decide)
  simp [shows, hblank, hne]

variable {a : Char} {s u : List Char}

lemma leadingFrom_eq_drop (n : ℕ) (s : List Char) : leadingFrom n s = leadingText (s.drop n) := by
  induction s generalizing n with
  | nil => cases n <;> rfl
  | cons c cs ih =>
      cases n with
      | zero => rfl
      | succ n => rw [leadingFrom, ih, List.drop_succ_cons]

lemma leadingText_reference (cs : List Char) :
    leadingText ('&' :: cs) = (Reference.read false cs).text
      ++ leadingText (cs.drop (Reference.read false cs).consumed) := by
  rw [← leadingFrom_eq_drop]
  rfl

lemma leadingText_cons (hopen : a ≠ '<') (href : a ≠ '&') (cs : List Char) :
    leadingText (a :: cs) = newline a :: leadingText cs := by
  rw [leadingText, leadingFrom, if_neg hopen, if_neg href]
  rfl

/-- A run of text belongs to the leading text as it stands. -/
lemma leadingText_run (hu : ∀ x ∈ u, endsText x = false) (s : List Char) :
    leadingText (u ++ s) = u ++ leadingText s := by
  induction u with
  | nil => rfl
  | cons c u ih =>
      obtain ⟨hc, hu⟩ := List.forall_mem_cons.mp hu
      simp only [endsText, Bool.or_eq_false_iff, decide_eq_false_iff_not] at hc
      obtain ⟨⟨⟨⟨hreturn, -⟩, href⟩, hopen⟩, -⟩ := hc
      rw [List.cons_append, leadingText_cons hopen href, ih hu, newline, if_neg hreturn]
      rfl

/-! ### Cutting the leading text -/

/-- The text that a token is. -/
def Token.chars : Token → List Char
  | .text s => s
  | .null => [nul]
  | _ => []

/-- Whether a token is text or a fault in it. -/
def Token.IsLeading : Token → Prop
  | .text s => s ≠ []
  | .null => True
  | .error _ => True
  | _ => False

lemma isLeading_faults (es : List ParseError) : ∀ t ∈ faults es, t.IsLeading := by
  intro t ht
  obtain ⟨e, -, rfl⟩ := List.mem_map.mp ht
  exact trivial

lemma chars_faults (es : List ParseError) : (faults es).flatMap Token.chars = [] := by
  rw [List.flatMap_eq_nil_iff]
  intro t ht
  obtain ⟨e, -, rfl⟩ := List.mem_map.mp ht
  rfl

/-- A run is the beginning of a text. -/
lemma run_eq_take (ends : Char → Bool) (limit : Option ℕ) (cs : List Char) :
    ∃ k limit', run ends limit cs = (cs.take k, cs.drop k, limit')
      ∧ ∀ x ∈ cs.take k, ends x = false := by
  obtain ⟨whole, hwhole⟩ : ∃ whole, cs.takeWhile (fun c => !ends c) = whole := ⟨_, rfl⟩
  have htake : whole = cs.take whole.length :=
    hwhole ▸ List.prefix_iff_eq_take.mp (List.takeWhile_prefix _)
  have hall : ∀ x ∈ whole, ends x = false := fun x hx => by
    have hx' := List.all_eq_true.mp (List.all_takeWhile (p := fun c => !ends c) (l := cs)) x
      (hwhole ▸ hx)
    simpa using hx'
  unfold run
  dsimp only
  rw [hwhole]
  cases limit with
  | none => exact ⟨whole.length, none, by rw [← htake], by rwa [← htake]⟩
  | some n =>
      by_cases hlt : whole.length < n
      · refine ⟨whole.length, some (n - whole.length), ?_, by rwa [← htake]⟩
        dsimp only
        rw [if_pos hlt, ← htake]
      · have hn : whole.take n = cs.take n := by
          rw [htake, List.take_take, Nat.min_eq_left (Nat.not_lt.mp hlt)]
        refine ⟨n, none, ?_, fun x hx => hall x (List.mem_of_mem_take (hn ▸ hx))⟩
        dsimp only
        rw [if_neg hlt, hn]

/-- **What is cut off the leading text** is text or a fault in it. -/
lemma next_leading (hopen : a ≠ '<') (foreign : Bool) (limit : Option ℕ) (cs : List Char) :
    ∃ limit' ts rest, LexStep.next foreign (.markup limit) a cs = ⟨⟨ts, rest⟩, .markup limit'⟩
      ∧ (∀ t ∈ ts, t.IsLeading)
      ∧ leadingText (a :: cs) = ts.flatMap Token.chars ++ leadingText rest := by
  rw [LexStep.next, LexStep.inMarkup]
  by_cases hnul : a = nul
  · subst hnul
    rw [if_pos rfl]
    refine ⟨_, _, _, rfl, by simp [Token.IsLeading], ?_⟩
    rw [leadingText_cons (by decide) (by decide)]
    rfl
  by_cases href : a = '&'
  · subst href
    rw [if_neg (by decide), if_pos rfl, LexStep.reference]
    refine ⟨_, _, _, rfl, ?_, ?_⟩
    · intro t ht
      rcases List.mem_append.mp ht with ht | ht
      · exact isLeading_faults _ t ht
      · obtain ⟨x, -, rfl⟩ := List.mem_map.mp ht
        exact List.cons_ne_nil _ _
    · rw [leadingText_reference, List.flatMap_append, chars_faults, List.nil_append,
        List.flatMap_map]
      simp [Token.chars]
  rw [if_neg hnul, if_neg href, if_neg hopen, leadingText_cons hopen href]
  by_cases hfeed : a = '\n'
  · subst hfeed
    rw [if_pos rfl]
    exact ⟨_, _, _, rfl, by simp [Token.IsLeading], rfl⟩
  by_cases hreturn : a = '\r'
  · subst hreturn
    rw [if_neg (by decide), if_pos rfl]
    exact ⟨_, _, _, rfl, by simp [Token.IsLeading], rfl⟩
  rw [if_neg hfeed, if_neg hreturn]
  obtain ⟨k, limit', hrun, hu⟩ := run_eq_take endsText (limit.map (· - 1)) cs
  rw [hrun]
  refine ⟨_, _, _, rfl, by simp [Token.IsLeading], ?_⟩
  have hrest := leadingText_run hu (cs.drop k)
  rw [List.take_append_drop] at hrest
  rw [hrest, newline, if_neg hreturn]
  simp [Token.chars]

namespace Construction

open Heap

variable {c : Construction} {w : List Char}

/-! ### Where the leading text leads -/

/-- **Where the construction is** behind a leading text: in front of the body as long as there has
been white space only, or else inside the body, behind all that shows. -/
inductive Led (u : List Char) : Construction → Prop
  | ahead (hu : ∀ x ∈ u, isMarkupSpace x = true) (fs : List ParseError) :
      Led u (declared.withErrors fs)
  | inside (w : List Char) (hw : ∀ x ∈ u, shows x = true → x ∈ w) (fs : List ParseError) :
      Led u (openedWith w fs)

/-- White space in front of the body is dropped. -/
lemma takeText_declared_of_space (ha : isMarkupSpace a = true) (s : List Char) (n : ℕ)
    (fs : List ParseError) :
    takeText (a :: s) (n + 1) (declared.withErrors fs)
      = takeText (s.dropWhile isMarkupSpace) n (declared.withErrors fs) := by
  have hkind : kindOf a = .blank := by rw [kindOf, ha]; rfl
  have hblank : ∀ v, (declared.withErrors fs).take (.text .blank v)
      = (declared.withErrors fs, .done) := fun v =>
    take_of_turn (by rw [turn_of_nil rfl]; rfl) (by simp)
  have hrun : (fun x => isMarkupSpace x == isMarkupSpace a) = isMarkupSpace := by
    funext x
    simp [ha]
  rw [takeText_of_split _ (take_mixed_declared _ fs), hkind, hblank, hrun,
    List.dropWhile_cons_of_pos ha]

/-- Text behind a leading text that is not in the body yet. -/
lemma led_takeText (hu : ∀ x ∈ u, isMarkupSpace x = true) (hs : s ≠ []) (fs : List ParseError) :
    Led (u ++ s) (takeText s (s.length + 1) (declared.withErrors fs)) := by
  have hinside : ∀ (v w : List Char) fs, (∀ x ∈ v, isMarkupSpace x = true) →
      Led (u ++ (v ++ w)) (openedWith w fs) := by
    intro v w fs hv
    refine .inside w (fun x hx hshows => ?_) fs
    have hspace : isMarkupSpace x ≠ true := fun h =>
      absurd (shows_eq_false_of_isMarkupSpace h) (by simp [hshows])
    simp only [List.mem_append] at hx
    exact (hx.resolve_left fun h => hspace (hu x h)).resolve_left fun h => hspace (hv x h)
  obtain ⟨a, s, rfl⟩ := List.exists_cons_of_ne_nil hs
  cases ha : isMarkupSpace a with
  | false =>
      rw [List.length_cons, takeText_declared ha]
      exact hinside [] (a :: s) _ (by simp)
  | true =>
      rw [List.length_cons, takeText_declared_of_space ha]
      have hsplit : a :: s = (a :: s.takeWhile isMarkupSpace) ++ s.dropWhile isMarkupSpace := by
        rw [List.cons_append, List.takeWhile_append_dropWhile]
      have hspaces : ∀ x ∈ a :: s.takeWhile isMarkupSpace, isMarkupSpace x = true :=
        List.forall_mem_cons.mpr ⟨ha, List.all_eq_true.mp List.all_takeWhile⟩
      cases hrest : s.dropWhile isMarkupSpace with
      | nil =>
          rw [hrest, List.append_nil] at hsplit
          rw [hsplit]
          refine .ahead (fun x hx => ?_) fs
          exact (List.mem_append.mp hx).elim (hu x) (hspaces x)
      | cons b r =>
          have hb : isMarkupSpace b = false := by
            have hhead := List.head?_dropWhile_not isMarkupSpace s
            rw [hrest] at hhead
            simpa using hhead
          obtain ⟨n, hn⟩ : ∃ n, s.length = n + 1 := by
            refine Nat.exists_eq_succ_of_ne_zero fun hzero => ?_
            rw [List.length_eq_zero_iff.mp hzero] at hrest
            cases hrest
          rw [hrest] at hsplit
          rw [hsplit, hn, takeText_declared hb]
          exact hinside _ _ _ hspaces

/-- **What belongs to the leading text** leads on. -/
lemma Led.feed {t : Token} (hc : Led u c) (ht : t.IsLeading) :
    ∃ c', c.feed t = (c', .markup) ∧ Led (u ++ t.chars) c' := by
  cases t with
  | doctype d => exact ht.elim
  | startTag t => exact ht.elim
  | endTag t => exact ht.elim
  | comment s => exact ht.elim
  | error e =>
      have hchars : u ++ (Token.error e).chars = u := List.append_nil u
      rw [hchars]
      cases hc with
      | ahead hu fs => exact ⟨_, rfl, .ahead hu (fs ++ [e])⟩
      | inside w hw fs => exact ⟨_, rfl, .inside w hw (fs ++ [e])⟩
  | null =>
      have hshown : ∀ w : List Char, (∀ x ∈ u, shows x = true → x ∈ w) →
          ∀ x ∈ u ++ [nul], shows x = true → x ∈ w := by
        intro w hw x hx hshows
        rcases List.mem_append.mp hx with hx | hx
        · exact hw x hx hshows
        · rw [List.mem_singleton.mp hx] at hshows
          exact absurd hshows (by decide)
      have hturn : ∀ w fs, (openedWith w fs).turn .null
          = (openedWith w (fs ++ [.unexpectedToken]), .done) := fun w fs =>
        (inside_openedWith w fs).turn_eq .null
      rw [Token.chars]
      cases hc with
      | ahead hu fs =>
          have hopens : OpensBody .null := trivial
          have hnull := hturn [] (fs ++ [.unexpectedToken])
          rw [← withErrors_opened] at hnull
          have htake := take_declared_withErrors hopens fs hnull (by simp)
          refine ⟨_, congrArg (fun r : Turn => (r.1, Notice.markup)) htake, .inside [] ?_ _⟩
          refine hshown [] fun x hx hshows => ?_
          exact absurd (shows_eq_false_of_isMarkupSpace (hu x hx)) (by simp [hshows])
      | inside w hw fs =>
          have htake := take_of_turn (hturn w fs) (by simp)
          exact ⟨_, congrArg (fun r : Turn => (r.1, Notice.markup)) htake,
            .inside w (hshown w hw) _⟩
  | text s =>
      rw [Token.chars]
      cases hc with
      | ahead hu fs => exact ⟨_, feed_text_of_takeText rfl rfl, led_takeText hu ht fs⟩
      | inside w hw fs =>
          have htake := take_text_openedWith ht .mixed w fs
          refine ⟨_, feed_text_of_takeText rfl (takeText_of_take ht _ htake (by simp)),
            .inside (w ++ s) (fun x hx hshows => ?_) fs⟩
          exact List.mem_append.mpr ((List.mem_append.mp hx).imp_left fun h => hw x h hshows)

lemma Led.feedAll {ts : List Token} (hc : Led u c) (hts : ∀ t ∈ ts, t.IsLeading) (mode : LexMode) :
    ∃ c', c.feedAll mode ts = (c', mode) ∧ Led (u ++ ts.flatMap Token.chars) c' := by
  induction ts generalizing c u with
  | nil => exact ⟨c, rfl, by simpa using hc⟩
  | cons t ts ih =>
      obtain ⟨ht, hts⟩ := List.forall_mem_cons.mp hts
      obtain ⟨d, hfeed, hd⟩ := hc.feed ht
      obtain ⟨c', hall, hc'⟩ := ih hd hts
      refine ⟨c', ?_, by rwa [List.append_assoc, ← List.flatMap_cons] at hc'⟩
      rw [Construction.feedAll, hfeed]
      exact hall

/-- **The leading text is taken in** before anything else. -/
theorem Led.build (hc : Led u c) (limit : Option ℕ) (s : List Char) :
    ∃ c' limit' s', c.build (.markup limit) s = c'.build (.markup limit') s'
      ∧ Led (u ++ leadingText s) c' := by
  induction hn : s.length using Nat.strongRecOn generalizing s c u limit with
  | ind n ih =>
      cases s with
      | nil => exact ⟨c, limit, [], rfl, by simpa [leadingText, leadingFrom] using hc⟩
      | cons a cs =>
          by_cases hopen : a = '<'
          · subst hopen
            exact ⟨c, limit, '<' :: cs, rfl, by simpa [leadingText, leadingFrom] using hc⟩
          obtain ⟨limit₁, ts, rest, hnext, hts, htext⟩ :=
            next_leading hopen c.inForeignElement limit cs
          obtain ⟨d, hfeed, hd⟩ := hc.feedAll hts (.markup limit₁)
          have hlength := LexStep.length_next_rest_le c.inForeignElement (.markup limit) a cs
          rw [hnext] at hlength
          obtain ⟨c', limit', s', hbuild, hc'⟩ :=
            ih rest.length (hn ▸ Nat.lt_succ_of_le hlength) hd limit₁ rest rfl
          refine ⟨c', limit', s', ?_, by rwa [htext, ← List.append_assoc]⟩
          rw [Construction.build, hnext, ← hbuild]
          simp only [hfeed]

/-! ### What comes behind -/

lemma not_isMarkupSpace_of_shows (ha : shows a = true) : isMarkupSpace a = false := by
  rw [← Bool.not_eq_true]
  intro hspace
  rw [shows_eq_false_of_isMarkupSpace hspace] at ha
  cases ha

/-- The nodes do not lead elsewhere with another text. -/
lemma node_frontNodesWith (x y : String) (i : NodeId) :
    ((frontNodesWith x).node i).children = ((frontNodesWith y).node i).children
      ∧ ((frontNodesWith x).node i).contents = ((frontNodesWith y).node i).contents := by
  match i with
  | 0 | 1 | 2 | 3 | 4 | 5 => exact ⟨rfl, rfl⟩
  | n + 6 => exact ⟨rfl, rfl⟩

/-- **Text in the body lasts** once it shows. -/
lemma beyond_openedWith (hw : ∃ x ∈ w, shows x = true) (fs : List ParseError) :
    (openedWith w fs).Beyond [0, 2, 4] (frontNodesWith (String.ofList w)) := by
  obtain ⟨x, hx, hshows⟩ := hw
  have hheap : (openedWith w fs).heap = frontNodesWith (String.ofList w) :=
    frontText_of_ne_nil (List.ne_nil_of_mem hx)
  have hsolid : hasSolid w = true :=
    List.any_eq_true.mpr ⟨x, hx, by simp [not_isMarkupSpace_of_shows hshows]⟩
  have hok : (openedWith w fs).framesetOk = false := by
    show (!hasSolid w) = false
    rw [hsolid]
    rfl
  have hwithin : ∀ i < 6, ∀ j ∈ (frontNodesWith "").children i, j < 6 := by decide
  have hcontents : ∀ i < 6, ((frontNodesWith "").node i).contents = none := by decide
  exact
    { heap := by
        rw [hheap]
        refine .self (fun i hi => ?_) fun i hi => ?_
        · rw [Heap.children, (node_frontNodesWith _ "" i).1]
          exact hwithin i hi
        · rw [(node_frontNodesWith _ "" i).2]
          exact hcontents i hi
      root := ⟨rfl, by decide⟩
      stack := fun e he => by
        have hopen : e = bodyElement ∨ e = htmlElement := List.mem_pair.mp he
        rcases hopen with rfl | rfl
        · exact ⟨.inl (by decide), fun h => absurd h (by decide)⟩
        · exact ⟨.inl (by decide), fun h => absurd h (by decide)⟩
      order := by
        have hopen : ¬ (frontNodesWith (String.ofList w)).size ≤ htmlElement.id :=
          Nat.not_le.mpr (show 2 < 6 by decide)
        exact List.pairwise_pair.mpr fun h => absurd h hopen
      formatting := fun f hf => by cases hf
      head := fun e he => by
        obtain rfl : { id := 3, name := "head" } = e := Option.some.inj he
        exact ⟨rfl, hheap ▸ show 3 < 6 by decide⟩
      frameset := fun hframes => by
        rw [hok] at hframes
        cases hframes }

end Construction

end RichText
