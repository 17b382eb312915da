import ForeignHandles.Proofs.Text.Message
import ForeignHandles.Text.Quoted

/-!
  Quoted text can be read back.

  Between the quotes every character is written so that it can be read back from the front
  (`unescape?_escape`), and no character is written with a quote in front, so the closing quote is the
  first one that is not behind a backslash (`delimited_quote`).  No NUL is written.

  A character is written in one of three ways, and all that is proved here goes by these three: by a
  sign behind a backslash, as itself, or by its number in braces. The reader `unescape?` is not part
  of the program. It is there to show that a quoted text determines the text that was quoted, also
  when something is written behind it.
-/
namespace ForeignHandles

/-! ## Numbers in base sixteen -/

/-- Whether a character is a digit of base sixteen. -/
def isHexDigit (c : Char) : Bool := (hexValue? c).isSome

/-- The number that digits of base sixteen write. -/
def hexNumber (cs : List Char) : Nat := cs.foldl (fun n c => 16 * n + (hexValue? c).getD 0) 0

/-- Digits are written from the front: those of the quotient by the base, and one for the
remainder. -/
theorem hexDigits_eq (n : Nat) :
    hexDigits n = if n < 16 then [lowerHex n] else hexDigits (n / 16) ++ [lowerHex (n % 16)] :=
  Nat.toDigits_eq_if (by decide)

/-- Digits write the number that they were made from. The induction is along the division by the
base. -/
theorem hexNumber_hexDigits (n : Nat) : hexNumber (hexDigits n) = n := by
  induction n using Nat.strongRecOn with
  | ind n ih =>
    rw [hexDigits_eq]
    split
    · rename_i hlt
      simp [hexNumber, hexValue?_lowerHex n hlt]
    · have hhigh : hexNumber (hexDigits (n / 16)) = n / 16 := ih (n / 16) (by omega)
      rw [hexNumber, List.foldl_append, ← hexNumber, hhigh]
      simp only [List.foldl_cons, List.foldl_nil, hexValue?_lowerHex (n % 16) (by omega),
        Option.getD_some]
      omega

/-- All of them are digits, so they end at the first character that is none. -/
theorem isHexDigit_of_mem_hexDigits {n : Nat} : ∀ c ∈ hexDigits n, isHexDigit c = true := by
  have hlower {k : Nat} (hk : k < 16) : isHexDigit (lowerHex k) = true := by
    rw [isHexDigit, hexValue?_lowerHex k hk]
    rfl
  induction n using Nat.strongRecOn with
  | ind n ih =>
    intro c hc
    rw [hexDigits_eq] at hc
    split at hc
    · obtain rfl := List.mem_singleton.1 hc
      exact hlower (by assumption)
    · rcases List.mem_append.1 hc with hc | hc
      · exact ih (n / 16) (by omega) c hc
      · obtain rfl := List.mem_singleton.1 hc
        exact hlower (by omega)

/-! ## Characters between the quotes -/

/-- Reads a character off the front, and what is left. -/
def unescape? : List Char → Option (Char × List Char)
  | [] => none
  | c :: cs =>
    if c ≠ '\\' then some (c, cs)
    else match cs with
      | [] => none
      | d :: ds =>
        if d = '0' then some ('\x00', ds)
        else if d = 't' then some ('\t', ds)
        else if d = 'r' then some ('\r', ds)
        else if d = 'n' then some ('\n', ds)
        else if d = 'u' then
          -- the number stands between braces
          some (Char.ofNat (hexNumber (ds.tail.takeWhile isHexDigit)),
            (ds.tail.dropWhile isHexDigit).tail)
        else some (d, ds)

/-- The number of a character is read up to the brace. -/
theorem unescape?_number (n : Nat) (r : List Char) :
    unescape? (['\\', 'u', '\x7b'] ++ hexDigits n ++ ['\x7d'] ++ r) = some (Char.ofNat n, r) := by
  have htake : (hexDigits n ++ '\x7d' :: r).takeWhile isHexDigit = hexDigits n := by
    rw [List.takeWhile_append_of_pos isHexDigit_of_mem_hexDigits,
      (Stops.cons (by decide) r).takeWhile, List.append_nil]
  have hdrop : (hexDigits n ++ '\x7d' :: r).dropWhile isHexDigit = '\x7d' :: r := by
    rw [List.dropWhile_append_of_pos isHexDigit_of_mem_hexDigits]
    rfl
  simp [unescape?, htake, hdrop, hexNumber_hexDigits]

/-- How a character is written: by a sign behind a backslash, as itself, or by its number. -/
theorem escape_cases (c : Char) :
    (∃ d, escape c = ['\\', d] ∧ d ≠ '\x00' ∧ ∀ r, unescape? ('\\' :: d :: r) = some (c, r)) ∨
      (escape c = [c] ∧ isPrintable c = true ∧ c ≠ '"' ∧ c ≠ '\\') ∨
      escape c = ['\\', 'u', '\x7b'] ++ hexDigits c.toNat ++ ['\x7d'] := by
  by_cases hsign : c ∈ ['\x00', '\t', '\r', '\n', '"', '\\']
  · left
    simp only [List.mem_cons, List.not_mem_nil, or_false] at hsign
    rcases hsign with rfl | rfl | rfl | rfl | rfl | rfl
    all_goals exact ⟨_, rfl, by decide, fun _ => rfl⟩
  · right
    simp only [List.mem_cons, List.not_mem_nil, or_false, not_or] at hsign
    obtain ⟨hnul, htab, hreturn, hnewline, hquote, hbackslash⟩ := hsign
    simp only [escape, if_neg hnul, if_neg htab, if_neg hreturn, if_neg hnewline, if_neg hquote,
      if_neg hbackslash]
    -- what has no sign is written as it is, if it can be printed
    by_cases hprint : isPrintable c = true
    · exact .inl ⟨if_pos hprint, hprint, hquote, hbackslash⟩
    · exact .inr (if_neg hprint)

/-- **A written character is read back off the front**, whatever follows it. -/
theorem unescape?_escape (c : Char) (r : List Char) : unescape? (escape c ++ r) = some (c, r) := by
  rcases escape_cases c with ⟨d, hc, -, hread⟩ | ⟨hc, -, -, hbackslash⟩ | hc
  · rw [hc]
    exact hread r
  · rw [hc]
    exact if_pos hbackslash
  · rw [hc, unescape?_number, Char.ofNat_toNat]

/-- No character is written with a quote in front; the quote itself has a backslash before it. -/
theorem beginsOff_escape (c : Char) : BeginsOff '"' (escape c) := by
  rcases escape_cases c with ⟨d, hc, -, -⟩ | ⟨hc, -, hquote, -⟩ | hc
  · exact ⟨_, _, hc, by decide⟩
  · exact ⟨_, _, hc, hquote⟩
  · exact ⟨_, _, hc, by decide⟩

/-- The NUL is written as a sign, and it is not printable, so it is nowhere in what is written. -/
theorem nul_not_mem_escape (c : Char) : '\x00' ∉ escape c := by
  intro hmem
  rcases escape_cases c with ⟨d, hc, hd, -⟩ | ⟨hc, hprint, -, -⟩ | hc
  · rw [hc] at hmem
    simp [hd.symm] at hmem
  · rw [hc] at hmem
    obtain rfl := List.mem_singleton.1 hmem
    cases hprint
  -- a NUL among the digits would be a digit
  · have hhex : '\x00' ∈ hexDigits c.toNat := by simpa [hc] using hmem
    have hdigit : isHexDigit '\x00' = true := isHexDigit_of_mem_hexDigits _ hhex
    cases hdigit

/-! ## Quoted text -/

/-- A quoted text is its characters, written one after the other, between two quotes. -/
theorem toList_quote (s : String) : (quote s).toList = ['"'] ++ (s.toList.flatMap escape ++ ['"']) :=
  String.toList_ofList

/-- **Quoted text can be read off the front**, whatever follows. -/
theorem delimited_quote : Delimited Anything (fun s : String => (quote s).toList) := by
  have hbody : Delimited Anything (fun cs : List Char => cs.flatMap escape ++ ['"']) :=
    (Delimited.of_read unescape?_escape).closed_list beginsOff_escape fun _ _ => trivial
  simp only [toList_quote]
  exact (hbody.behind ['"']).comap fun s t => String.toList_inj.1

/-- So no NUL is written. -/
theorem nulFree_quote (s : String) : NulFree (quote s) := by
  simp [NulFree, toList_quote, nul_not_mem_escape]

end ForeignHandles
