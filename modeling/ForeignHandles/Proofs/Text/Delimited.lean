import ForeignHandles.Text.Digits

/-!
  Texts that can be read off the front.

  A text is made of parts that follow each other without any mark of where one ends, so it
  determines its parts only if each part says by itself where it ends, perhaps with the help of what
  comes next.  That is `Delimited`: of two texts that begin with a written thing, and go on in a way
  that is allowed after one, the things are the same if the texts are, and so are the rests.

  1. **Parts.**  What is made of characters of one sort ends where another sort begins
     (`Delimited.of_run`), and what can be read back is delimited whatever follows
     (`Delimited.of_read`).

  2. **Texts of parts.**  Parts in a row (`Delimited.pair`), lists whose end has a mark of its own
     (`Delimited.closed_list`), and lists with separators (`Delimited.separated_list`).

  3. **Numbers** in base ten, up to the first character that is no digit.

  Nothing here is about a particular text. Whether a printer is faithful comes down to choosing, for
  each of its parts, what may follow it, and to checking at each seam that what does follow is among
  that; the printers of attributes and of metadata are both treated this way.
-/
namespace ForeignHandles

variable {α β : Type} {f : α → List Char} {g : β → List Char} {after after' : List Char → Prop}

/-- A way of writing that can be read off the front of a text, given what may come after. The
condition on the rests is on both texts, for they may go on differently. -/
def Delimited (after : List Char → Prop) (f : α → List Char) : Prop :=
  ∀ ⦃a b r s⦄, after r → after s → f a ++ r = f b ++ s → a = b ∧ r = s

/-- Any text may follow. -/
def Anything : List Char → Prop := fun _ => True

/-- What follows does not begin with a character of this sort. -/
def Stops (p : Char → Bool) (r : List Char) : Prop := ∀ c ∈ r.head?, p c = false

/-- Nothing begins with no character at all, -/
theorem Stops.nil (p : Char → Bool) : Stops p [] := nofun

/-- and a character of another sort stops a run. -/
theorem Stops.cons {p : Char → Bool} {c : Char} (hc : p c = false) (r : List Char) :
    Stops p (c :: r) := by
  rintro d ⟨⟩
  exact hc

/-- The run ends where it is stopped. -/
theorem Stops.takeWhile {p : Char → Bool} {r : List Char} (h : Stops p r) : r.takeWhile p = [] := by
  cases r with
  | nil => rfl
  | cons c r =>
    have hc : p c = false := h c rfl
    rw [List.takeWhile_cons, hc, if_neg Bool.false_ne_true]

/-- A text that is not empty and begins with another character than the mark. -/
def BeginsOff (mark : Char) (l : List Char) : Prop := ∃ c cs, l = c :: cs ∧ c ≠ mark

/-- Such a text is not mistaken for the mark, whatever follows either. -/
theorem BeginsOff.ne {mark : Char} {l : List Char} (h : BeginsOff mark l) (r s : List Char) :
    l ++ r ≠ mark :: s := by
  obtain ⟨c, cs, rfl, hc⟩ := h
  intro heq
  exact hc (List.cons.inj heq).1

namespace Delimited

/-- What can be read off the front of a text can be read if there is nothing behind it. This is
what the notion is for. -/
theorem injective (h : Delimited after f) (hnil : after []) : Function.Injective f := by
  intro a b hab
  have hnils : f a ++ [] = f b ++ [] := by rw [hab]
  exact (h hnil hnil hnils).1

/-! ## Parts -/

/-- A run of characters of one sort ends where another sort begins. -/
theorem of_run {p : Char → Bool} (hinj : Function.Injective f) (hrun : ∀ a, ∀ c ∈ f a, p c = true) :
    Delimited (Stops p) f := by
  intro a b r s hr hs heq
  have htake (a : α) {r : List Char} (hr : Stops p r) : (f a ++ r).takeWhile p = f a := by
    rw [List.takeWhile_append_of_pos (hrun a), hr.takeWhile, List.append_nil]
  have hab : f a = f b := by rw [← htake a hr, heq, htake b hs]
  obtain rfl := hinj hab
  exact ⟨rfl, List.append_cancel_left heq⟩

/-- What a reader gets back is delimited, whatever follows. -/
theorem of_read {read : List Char → Option (α × List Char)}
    (h : ∀ a r, read (f a ++ r) = some (a, r)) : Delimited Anything f := by
  intro a b r s _ _ heq
  have hread : some (a, r) = some (b, s) := by rw [← h a r, heq, h b s]
  exact Prod.mk.inj (Option.some.inj hread)

/-- Writing something by writing what determines it. -/
theorem comap (h : Delimited after f) {k : β → α} (hk : Function.Injective k) :
    Delimited after (fun b => f (k b)) := by
  intro a b r s hr hs heq
  obtain ⟨hab, hrs⟩ := h hr hs heq
  exact ⟨hk hab, hrs⟩

/-! ## Texts of parts -/

/-- A fixed text in front changes nothing, -/
theorem behind (h : Delimited after f) (before : List Char) :
    Delimited after (fun a => before ++ f a) := by
  intro a b r s hr hs heq
  rw [List.append_assoc, List.append_assoc] at heq
  exact h hr hs (List.append_cancel_left heq)

/-- and a fixed text at the end that is allowed there allows for anything after it. -/
theorem enclosed (h : Delimited after f) {close : List Char} (hclose : ∀ r, after (close ++ r)) :
    Delimited Anything (fun a => f a ++ close) := by
  intro a b r s _ _ heq
  rw [List.append_assoc, List.append_assoc] at heq
  obtain ⟨hab, hrs⟩ := h (hclose r) (hclose s) heq
  exact ⟨hab, List.append_cancel_left hrs⟩

/-- Two parts in a row, if the second is among what may follow the first. -/
theorem pair (hf : Delimited after f) (hg : Delimited after' g) (hfg : ∀ b r, after (g b ++ r)) :
    Delimited after' (fun p : α × β => f p.1 ++ g p.2) := by
  -- the first part is read off, which leaves the second in front
  rintro ⟨a, b⟩ ⟨a', b'⟩ r s hr hs heq
  rw [List.append_assoc, List.append_assoc] at heq
  obtain ⟨rfl, hrest⟩ := hf (hfg b r) (hfg b' s) heq
  obtain ⟨rfl, hrs⟩ := hg hr hs hrest
  exact ⟨rfl, hrs⟩

/-- A list ends at a mark that none of its elements begins with. -/
theorem closed_list {mark : Char} (h : Delimited after f) (hmark : ∀ a, BeginsOff mark (f a))
    (hafter : ∀ (as : List α) r, after (as.flatMap f ++ mark :: r)) :
    Delimited Anything (fun as : List α => as.flatMap f ++ [mark]) := by
  intro as bs r s _ _ heq
  rw [List.append_assoc, List.append_assoc, List.singleton_append, List.singleton_append] at heq
  -- along both lists at once: one of them may end before the other only where the mark is
  induction as generalizing bs with
  | nil =>
    cases bs with
    | nil => exact ⟨rfl, (List.cons.inj heq).2⟩
    | cons b bs =>
      rw [List.flatMap_cons, List.append_assoc] at heq
      exact absurd heq.symm ((hmark b).ne _ _)
  | cons a as ih =>
    rw [List.flatMap_cons, List.append_assoc] at heq
    cases bs with
    | nil => exact absurd heq ((hmark a).ne _ _)
    | cons b bs =>
      rw [List.flatMap_cons, List.append_assoc] at heq
      obtain ⟨rfl, hrest⟩ := h (hafter as r) (hafter bs s) heq
      obtain ⟨rfl, hrs⟩ := ih hrest
      exact ⟨rfl, hrs⟩

/-- A separator stands before every element but the first. -/
theorem intercalate_map_cons (sep : List Char) (a : α) (as : List α) :
    sep.intercalate ((a :: as).map f) = f a ++ as.flatMap (fun b => sep ++ f b) := by
  induction as generalizing a with
  | nil => simp
  | cons b bs ih =>
    rw [List.map_cons, List.map_cons, List.intercalate_cons_cons, ← List.map_cons, ih,
      List.flatMap_cons, List.append_assoc, List.append_assoc]

/-- A list with separators that do not begin with the mark either ends there too. -/
theorem separated_list {mark c : Char} {sep : List Char} (h : Delimited after f)
    (hmark : ∀ a, BeginsOff mark (f a)) (hsep : c ≠ mark)
    (hafter : ∀ d r, d = mark ∨ d = c → after (d :: r)) :
    Delimited Anything (fun as : List α => (c :: sep).intercalate (as.map f) ++ [mark]) := by
  -- what comes after the first element is a list that is closed
  let rest (as : List α) : List Char := as.flatMap (fun a => (c :: sep) ++ f a)
  have hbegins (as : List α) (r : List Char) : after (rest as ++ mark :: r) := by
    cases as with
    | nil => exact hafter mark r (.inl rfl)
    | cons a as => exact hafter c _ (.inr rfl)
  have hrest : Delimited Anything (fun as => rest as ++ [mark]) :=
    (h.behind (c :: sep)).closed_list (fun a => ⟨c, sep ++ f a, rfl, hsep⟩) hbegins
  have hcons (a : α) (as : List α) (r : List Char) :
      (c :: sep).intercalate ((a :: as).map f) ++ [mark] ++ r = f a ++ (rest as ++ [mark] ++ r) := by
    rw [intercalate_map_cons, List.append_assoc, List.append_assoc, List.append_assoc]
  have hafterRest (as : List α) (r : List Char) : after (rest as ++ [mark] ++ r) := by
    rw [List.append_assoc]
    exact hbegins as r
  intro as bs r s _ _ heq
  cases as with
  | nil =>
    cases bs with
    | nil => exact ⟨rfl, (List.cons.inj heq).2⟩
    | cons b bs => exact absurd (heq.trans (hcons b bs s)).symm ((hmark b).ne _ _)
  | cons a as =>
    cases bs with
    | nil => exact absurd ((hcons a as r).symm.trans heq) ((hmark a).ne _ _)
    | cons b bs =>
      rw [hcons, hcons] at heq
      obtain ⟨rfl, htail⟩ := h (hafterRest as r) (hafterRest bs s) heq
      obtain ⟨rfl, hrs⟩ := hrest trivial trivial htail
      exact ⟨rfl, hrs⟩

end Delimited

/-! ## Numbers -/

/-- A number is written with digits, -/
theorem isDigit_of_mem_toString {n : Nat} {c : Char} (hc : c ∈ (toString n).toList) :
    c.isDigit = true := by
  rw [Nat.toString_eq_repr, Nat.toList_repr] at hc
  exact Nat.isDigit_of_mem_toDigits (by decide) (by decide) hc

/-- and its end is where there are no more of them. -/
theorem delimited_nat : Delimited (Stops Char.isDigit) (fun n : Nat => (toString n).toList) := by
  refine .of_run (fun m n hmn => ?_) fun n c => isDigit_of_mem_toString
  simp only [Nat.toString_eq_repr, Nat.toList_repr] at hmn
  rw [← @Nat.ofDigitChars_ten_toDigits m, hmn, Nat.ofDigitChars_ten_toDigits]

/-- A number without a sign does not look as if it had one. -/
theorem beginsOff_toString (n : Nat) : BeginsOff '-' (toString n).toList := by
  obtain ⟨c, cs, hcs⟩ := List.exists_cons_of_ne_nil (@Nat.toDigits_ne_nil n 10)
  rw [← Nat.toList_repr, ← Nat.toString_eq_repr] at hcs
  refine ⟨c, cs, hcs, ?_⟩
  rintro rfl
  have hminus : '-'.isDigit = true := isDigit_of_mem_toString (hcs ▸ List.mem_cons_self)
  cases hminus

/-- A number is what its digits say, or it is behind a sign, which is no digit. -/
theorem toList_toString_int (n : Int) : (toString n).toList =
    if 0 ≤ n then (toString n.toNat).toList else '-' :: (toString (-n).toNat).toList := by
  rw [Int.toString_eq_repr, Int.repr_eq_if]
  split
  · rfl
  · rw [String.toList_append]
    rfl

/-- The sign is told from a digit, and after it the two cases are as for natural numbers. -/
theorem delimited_int : Delimited (Stops Char.isDigit) (fun n : Int => (toString n).toList) := by
  intro m n r s hr hs heq
  simp only [toList_toString_int] at heq
  -- four cases, of which two are absurd since one text begins with a sign
  by_cases hm : 0 ≤ m
  · rw [if_pos hm] at heq
    by_cases hn : 0 ≤ n
    · rw [if_pos hn] at heq
      obtain ⟨hmn, hrs⟩ := delimited_nat hr hs heq
      exact ⟨by omega, hrs⟩
    · rw [if_neg hn] at heq
      exact absurd heq ((beginsOff_toString m.toNat).ne _ _)
  · rw [if_neg hm] at heq
    by_cases hn : 0 ≤ n
    · rw [if_pos hn] at heq
      exact absurd heq.symm ((beginsOff_toString n.toNat).ne _ _)
    · rw [if_neg hn] at heq
      obtain ⟨hmn, hrs⟩ := delimited_nat hr hs (List.cons.inj heq).2
      exact ⟨by omega, hrs⟩

end ForeignHandles
