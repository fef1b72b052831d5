import RichText.Proofs.Content.Recovering

/-!
Where links in coded brackets are looked for.

What is read at one place of a text depends on what follows, up to the next closing bracket, so the
lemmas about a stretch of text are stated with the text behind it.

* `Unlinked`: a stretch in which no value in coded brackets follows a blank;
* `restoreFrom_of_opensNoLink`: a stretch in which no link begins is left as it is;
* `restoreFrom_bracket`, `restoreFrom_tag`: **a stretch up to a closing bracket**, without a link
  and with one, which is restored if an `<a` and a blank stand open in front of it (`isOpen`).
-/

namespace RichText

variable {b o c r s t u v w x y z : List Char} {l : BracketedLink}

/-! ### Stretches without links -/

/-- In a text that stands in front of another no bracketed value follows a blank. -/
def Unlinked (x s : List Char) : Prop :=
  ∀ u m w, x = u ++ m :: w → isBlank m = true → bracketedValue? (w ++ s) = none

lemma Unlinked.append (hx : Unlinked x (y ++ s)) (hy : Unlinked y s) : Unlinked (x ++ y) s := by
  intro u m w heq hm
  rcases cut_of_append_eq heq with ⟨v, rfl, rfl⟩ | ⟨v, -, rfl⟩
  · rw [List.append_assoc]
    exact hx u m v rfl hm
  · exact hy v m w rfl hm

lemma Unlinked.of_append (h : Unlinked (x ++ y) s) : Unlinked y s := fun u m w heq hm =>
  h (x ++ u) m w (by rw [heq, List.append_assoc]) hm

lemma Unlinked.tail {c : Char} (h : Unlinked (c :: x) s) : Unlinked x s :=
  of_append (x := [c]) h

/-- What is found behind such a text has not been cut off by a bracket in it. -/
lemma bracketedValueLater?_append (h : Unlinked x s) : bracketedValueLater? (x ++ s)
    = if '>' ∈ x then none else (bracketedValueLater? s).map (·.behind x) := by
  induction x with
  | nil =>
      have hid : (fun l : BracketedLink => l.behind []) = id := rfl
      rw [List.nil_append, if_neg (by simp), hid, Option.map_id, id]
  | cons c x ih =>
      rw [List.cons_append, bracketedValueLater?]
      by_cases hc : c = '>'
      · rw [if_pos hc, if_pos (by simp [hc])]
      · have hhere : (if isBlank c = true then bracketedValue? (x ++ s) else none) = none := by
          split
          · next hblank => exact h [] c x rfl hblank
          · rfl
        rw [if_neg hc, hhere, ih h.tail]
        by_cases hx : '>' ∈ x
        · simp [hx]
        · rw [if_neg hx, if_neg (by simp [hx, Ne.symm hc])]
          simp only [Option.map_map]
          rfl

lemma bracketedValueLater?_blank (hs : bracketedValueLater? s = none) :
    bracketedValueLater? (' ' :: s) = (bracketedValue? s).map (·.after ' ') := by
  have hblank : isBlank ' ' = true := by decide
  rw [bracketedValueLater?, if_neg (by simp), hblank, if_pos rfl, hs]
  cases bracketedValue? s <;> rfl

/-- Whether a text begins with `<a` and a blank, and no `>` follows. -/
def opensLink : List Char → Bool
  | '<' :: a :: m :: w => a.toLower = 'a' && isBlank m && '>' ∉ w
  | _ => false

/-- Whether links are looked for behind a text: whether an `<a` and a blank stand in it, and no `>`
behind them. -/
def isOpen : List Char → Bool
  | [] => false
  | c :: s => opensLink (c :: s) || isOpen s

lemma isOpen_of_notMem (hs : '<' ∉ s) : isOpen s = false := by
  induction s with
  | nil => rfl
  | cons c s ih =>
      obtain ⟨hc, hs⟩ := not_or.mp (List.mem_cons.not.mp hs)
      rw [isOpen, ih hs, Bool.or_false]
      simp [opensLink, Ne.symm hc]

/-- Right behind `<a` a link follows a blank. -/
lemma bracketedLink?_short {a m : Char}
    (ht : m = '>' ∨ m = ' ' ∧ bracketedValueLater? t = none) : bracketedLink? ('<' :: a :: m :: t)
      = if opensLink ['<', a, m] then (bracketedValueLater? (m :: t)).map (·.behind ['<', a])
        else none := by
  rw [bracketedLink?, opensLink]
  rcases ht with rfl | ⟨rfl, ht⟩
  · have hbracket : isBlank '>' = false := by decide
    simp [hbracket]
  · have hblank : isBlank ' ' = true := by decide
    rw [ht, bracketedValueLater?_blank ht, hblank, Option.none_or, Option.map_map]
    by_cases ha : a.toLower = 'a'
    · simp [ha]
      rfl
    · simp [ha]

/-- Further behind `<a` and a blank a link comes before any bracket. -/
lemma bracketedLink?_long {a b m : Char} (h : Unlinked ('<' :: a :: b :: x) (m :: t))
    (hm : m = '>' ∨ m = ' ') : bracketedLink? ('<' :: a :: b :: (x ++ m :: t))
      = if opensLink ('<' :: a :: b :: (x ++ [m])) then
          (bracketedValueLater? (m :: t)).map (·.behind ('<' :: a :: b :: x))
        else none := by
  rw [bracketedLink?, opensLink]
  by_cases hab : (decide (a.toLower = 'a') && isBlank b) = true
  · rw [Bool.and_eq_true, decide_eq_true_eq] at hab
    have hvalue : bracketedValue? (x ++ m :: t) = none := h ['<', a] b x rfl hab.2
    rw [hvalue, Option.or_none, bracketedValueLater?_append h.tail.tail.tail]
    by_cases hx : '>' ∈ x
    · simp [hab, hx]
    · rw [if_neg hx]
      rcases hm with rfl | rfl
      · simp [bracketedValueLater?]
      · simp [hab, hx]
        rfl
  · rw [Bool.not_eq_true] at hab
    rw [hab]
    simp

/-- A link begins where one is looked for from there on. -/
lemma bracketedLink?_append {c m : Char} (h : Unlinked (c :: x) (m :: t))
    (ht : m = '>' ∨ m = ' ' ∧ bracketedValueLater? t = none) : bracketedLink? (c :: (x ++ m :: t))
      = if opensLink (c :: (x ++ [m])) then (bracketedValueLater? (m :: t)).map (·.behind (c :: x))
        else none := by
  by_cases hc : c = '<'
  · subst hc
    match x, h with
    | [], _ =>
        have hm : m.toLower ≠ 'a' := by
          rcases ht with rfl | ⟨rfl, -⟩ <;> decide
        cases t with
        | nil => rfl
        | cons b t =>
            show bracketedLink? ('<' :: m :: b :: t) = none
            rw [bracketedLink?, if_neg (by simp [hm])]
    | [a], _ => exact bracketedLink?_short ht
    | a :: b :: x, h => exact bracketedLink?_long h (ht.imp_right And.left)
  · have hopens : opensLink (c :: (x ++ [m])) = false := by simp [opensLink, hc]
    have hnone : bracketedLink? (c :: (x ++ m :: t)) = none := by simp [bracketedLink?, hc]
    rw [hopens, hnone, if_neg (by decide)]

lemma restoreFrom_drop (n : ℕ) (s : List Char) : restoreFrom n s = restoreFrom 0 (s.drop n) := by
  induction n generalizing s with
  | zero => rfl
  | succ n ih =>
      cases s with
      | nil => simp [restoreFrom]
      | cons c s => rw [restoreFrom, ih, List.drop_succ_cons]

/-- Up to a bracket without a link, nothing changes. -/
lemma restoreFrom_bracket (h : Unlinked x ('>' :: s)) :
    restoreFrom 0 (x ++ '>' :: s) = x ++ '>' :: restoreFrom 0 s := by
  have hlater : bracketedValueLater? ('>' :: s) = none := rfl
  induction x with
  | nil => exact restoreFrom_cons (by simp [bracketedLink?])
  | cons c x ih =>
      have hnone : bracketedLink? (c :: (x ++ '>' :: s)) = none := by
        have := bracketedLink?_append h (.inl rfl)
        rwa [hlater, Option.map_none, ite_self] at this
      rw [List.cons_append, restoreFrom_cons hnone, ih h.tail, List.cons_append]

/-- **Up to a link** nothing changes, and the link is restored if links are looked for. -/
lemma restoreFrom_link (h : Unlinked x (' ' :: (l.source ++ r)))
    (hlater : bracketedValueLater? (l.source ++ r) = none)
    (hl : bracketedValue? (l.source ++ r) = some l) :
    restoreFrom 0 (x ++ ' ' :: (l.source ++ r)) = x ++ ' ' ::
      (if isOpen (x ++ [' ']) then l.restored ++ restoreFrom 0 r
      else restoreFrom 0 (l.source ++ r)) := by
  induction x with
  | nil => exact restoreFrom_cons (by simp [bracketedLink?])
  | cons c x ih =>
      have hlink := bracketedLink?_append h (.inr ⟨rfl, hlater⟩)
      rw [bracketedValueLater?_blank hlater, hl, Option.map_some, Option.map_some] at hlink
      have hcons : isOpen (c :: x ++ [' ']) = (opensLink (c :: (x ++ [' '])) || isOpen (x ++ [' '])) :=
        rfl
      rw [hcons, List.cons_append, List.cons_append]
      by_cases hopens : opensLink (c :: (x ++ [' '])) = true
      · rw [if_pos hopens] at hlink
        have hsource : ((l.after ' ').behind (c :: x)).source = c :: (x ++ ' ' :: l.source) := by
          simp [BracketedLink.source, BracketedLink.after, BracketedLink.behind]
        have hrestored : ((l.after ' ').behind (c :: x)).restored
            = c :: (x ++ ' ' :: l.restored) := by
          simp [BracketedLink.restored, BracketedLink.after, BracketedLink.behind]
        have hrest : x ++ ' ' :: (l.source ++ r) = (x ++ ' ' :: l.source) ++ r := by simp
        rw [hopens, Bool.true_or, if_pos rfl, restoreFrom, hlink]
        dsimp only
        rw [restoreFrom_drop, hsource, hrestored, List.length_cons, Nat.add_sub_cancel, hrest,
          List.drop_left]
        simp
      · rw [if_neg hopens] at hlink
        rw [Bool.not_eq_true] at hopens
        rw [hopens, Bool.false_or, restoreFrom_cons hlink, ih h.tail]

/-- **One tag with a link**: the text up to its closing bracket. -/
lemma restoreFrom_tag (hx : Unlinked x (' ' :: (l.source ++ (r ++ '>' :: s))))
    (hr : Unlinked (l.source ++ r) ('>' :: s))
    (hl : bracketedValue? (l.source ++ (r ++ '>' :: s)) = some l) :
    restoreFrom 0 (x ++ ' ' :: (l.source ++ (r ++ '>' :: s)))
      = x ++ ' ' :: ((if isOpen (x ++ [' ']) then l.restored else l.source)
        ++ (r ++ '>' :: restoreFrom 0 s)) := by
  have hlater : bracketedValueLater? (l.source ++ (r ++ '>' :: s)) = none := by
    rw [← List.append_assoc, bracketedValueLater?_append hr]
    exact ite_self none
  rw [restoreFrom_link hx hlater hl, restoreFrom_bracket hr.of_append]
  split
  · rfl
  · rw [← List.append_assoc, restoreFrom_bracket hr, List.append_assoc]

/-! ### Stretches in which no link begins -/

/-- Whether a text begins with something else than an `a` and a blank, whatever follows. -/
def beginsElse : List Char → Bool
  | [] => false
  | a :: s => a.toLower ≠ 'a' || s.head?.any fun m => !isBlank m

/-- Whether no `<a` with a blank begins in a text, whatever follows. -/
def opensNoLink : List Char → Bool
  | [] => true
  | c :: s => (c ≠ '<' || beginsElse s) && opensNoLink s

lemma opensNoLink_append (hx : opensNoLink x = true) (hy : opensNoLink y = true) :
    opensNoLink (x ++ y) = true := by
  induction x with
  | nil => exact hy
  | cons c x ih =>
      rw [opensNoLink, Bool.and_eq_true, Bool.or_eq_true] at hx
      have hbegins : beginsElse x = true → beginsElse (x ++ y) = true := fun h => by
        match x, h with
        | a :: [], h =>
            have ha : a.toLower ≠ 'a' := by simpa [beginsElse] using h
            simp [beginsElse, ha]
        | a :: m :: x, h => exact h
      rw [List.cons_append, opensNoLink, ih hx.2, Bool.and_true, Bool.or_eq_true]
      exact hx.1.imp_right hbegins

lemma opensNoLink_of_notMem (hx : '<' ∉ x) : opensNoLink x = true := by
  induction x with
  | nil => rfl
  | cons c x ih =>
      obtain ⟨hc, hx⟩ := not_or.mp (List.mem_cons.not.mp hx)
      simp [opensNoLink, Ne.symm hc, ih hx]

/-- In a name without blanks no link begins. -/
lemma opensNoLink_name (hx : ∀ m ∈ x, isBlank m = false) : opensNoLink (x ++ ['>']) = true := by
  have hbracket : isBlank '>' = false := by decide
  induction x with
  | nil => decide
  | cons c x ih =>
      obtain ⟨-, hx⟩ := List.forall_mem_cons.mp hx
      have hbegins : beginsElse (x ++ ['>']) = true := by
        match x, hx with
        | [], _ => decide
        | [a], _ => simp [beginsElse, hbracket]
        | a :: m :: x, hx => simp [beginsElse, hx m (by simp)]
      rw [List.cons_append, opensNoLink, hbegins, Bool.or_true, Bool.true_and]
      exact ih hx

/-- Nothing changes in such a stretch. -/
lemma restoreFrom_of_opensNoLink (hx : opensNoLink x = true) (s : List Char) :
    restoreFrom 0 (x ++ s) = x ++ restoreFrom 0 s := by
  induction x with
  | nil => rfl
  | cons c x ih =>
      rw [opensNoLink, Bool.and_eq_true, Bool.or_eq_true, decide_eq_true_eq] at hx
      have hnone : bracketedLink? (c :: (x ++ s)) = none := by
        rcases hx.1 with hc | hbegins
        · simp [bracketedLink?, hc]
        · cases x with
          | nil => exact absurd hbegins (by decide)
          | cons a x =>
              cases x with
              | nil =>
                  have ha : a.toLower ≠ 'a' := by simpa [beginsElse] using hbegins
                  cases s with
                  | nil => simp [bracketedLink?]
                  | cons m s => by_cases hc : c = '<' <;> simp [bracketedLink?, hc, ha]
              | cons m x =>
                  have hnot : (decide (a.toLower = 'a') && isBlank m) = false := by
                    simpa [beginsElse, Decidable.imp_iff_not_or] using hbegins
                  by_cases hc : c = '<'
                  · subst hc
                    rw [List.cons_append, List.cons_append, bracketedLink?, hnot,
                      if_neg (by decide)]
                  · simp [bracketedLink?, hc]
      rw [List.cons_append, restoreFrom_cons hnone, ih hx.2, List.cons_append]

end RichText
