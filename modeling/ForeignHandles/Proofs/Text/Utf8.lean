import Mathlib.Tactic.IntervalCases
import Mathlib.Tactic.SplitIfs
import ForeignHandles.Proofs.Text.Message
import ForeignHandles.Text.Utf8

/-!
  Reading back what was written.

  The bytes of a character take the automaton through one sequence.  Its lead byte has the highest bits
  and says how many bytes are owed (`start_two`, `start_three`, `start_four`); the bytes that continue it
  bring six bits each (`next_owed`).  Only the byte after the lead byte has to lie in a narrower range,
  and it does for the very reasons for which the range is narrowed: the sequence is not overlong, the
  character is no surrogate, and it is not beyond the last code point.

  So a text is read as its characters (`lossy_encode`), and lenient reading gives a text whose bytes are
  those that were read exactly if these were the bytes of some text (`encode_lossy_iff`).

  The automaton works on bytes and knows nothing of characters, while the encoder computes its bytes
  from the number of a character by division and remainder. The two meet in the numbers: a state of
  the automaton inside a sequence is the number of the bits seen so far, and each byte multiplies it
  by 64 and adds its own. A character is read by running through its one to four bytes in this way,
  which the chains of equations in `scan_utf8EncodeChar` do step by step.

  The lead bytes are few, so what they do is settled by going through them.
-/
namespace ForeignHandles.Utf8

/-! ## Lead bytes -/

section

variable {n : Nat}

/-- A byte with its highest bit clear is a character by itself. -/
theorem start_one (h : n ≤ 0x7F) : start (UInt8.ofNat n) = ([.char (Char.ofNat n) 1], none) := by
  have hbyte : (UInt8.ofNat n).toNat = n :=
    UInt8.toNat_ofNat_of_lt' (Nat.lt_of_le_of_lt h (by decide))
  simp only [start, UInt8.lt_iff_toNat_lt, hbyte]
  exact if_pos (Nat.lt_succ_of_le h)

/-- A lead byte of two: five bits, and one byte is owed. The first two such bytes would make an
overlong sequence and start nothing. -/
theorem start_two (hlow : 2 ≤ n) (hhigh : n < 32) :
    start (UInt8.ofNat (n % 32 + 0xC0)) = ([], some ⟨n, 1, .tail, []⟩) := by
  interval_cases n <;> rfl

/-- The range that is owed after a lead byte with these bits, if two bytes are owed in all, -/
def owedOfTwo (n : Nat) : Owed :=
  if n = 0 then ⟨0xA0, 0xBF⟩ else if n = 13 then ⟨0x80, 0x9F⟩ else .tail

/-- A lead byte of three has four bits. The range of the next byte depends on them. -/
theorem start_three (h : n < 16) :
    start (UInt8.ofNat (n % 16 + 0xE0)) = ([], some ⟨n, 1, owedOfTwo n, [.tail]⟩) := by
  interval_cases n <;> rfl

/-- and if three are. -/
def owedOfThree (n : Nat) : Owed :=
  if n = 0 then ⟨0x90, 0xBF⟩ else if n = 4 then ⟨0x80, 0x8F⟩ else .tail

/-- A lead byte of four has three bits, of which the values up to four are used. -/
theorem start_four (h : n < 5) :
    start (UInt8.ofNat (n % 8 + 0xF0)) = ([], some ⟨n, 1, owedOfThree n, [.tail, .tail]⟩) := by
  interval_cases n <;> rfl

end

/-! ## The bytes after them -/

/-- The byte that carries the lowest six bits of a number is in the range. -/
def Owed.Has (o : Owed) (n : Nat) : Prop :=
  o.low.toNat ≤ n % 64 + 0x80 ∧ n % 64 + 0x80 ≤ o.high.toNat

section

variable {n taken : Nat} {owed owed' : Owed} {more : List Owed}

/-- Every continuing byte is in the full range; it is the narrowed ones that have to be checked. -/
theorem tail_has (n : Nat) : Owed.tail.Has n := by
  change 0x80 ≤ n % 64 + 0x80 ∧ n % 64 + 0x80 ≤ 0xBF
  omega

/-- A byte that is owed adds its bits to those that are there. -/
theorem next_owed (h : owed.Has n) :
    Open.next ⟨n / 64, taken, owed, more⟩ (UInt8.ofNat (n % 64 + 0x80)) =
      match more with
      | [] => ([.char (Char.ofNat n) (taken + 1)], none)
      | owed' :: more => ([], some ⟨n, taken + 1, owed', more⟩) := by
  have hsmall : n % 64 + 0x80 < 256 := by omega
  have hbyte : (UInt8.ofNat (n % 64 + 0x80)).toNat = n % 64 + 0x80 :=
    UInt8.toNat_ofNat_of_lt' hsmall
  have hbits : n / 64 * 64 + (n % 64 + 0x80 - 0x80) = n := by omega
  simp only [Open.next, UInt8.le_iff_toNat_le, hbyte, hbits]
  exact if_pos h

/-- The last byte of a sequence completes its character, -/
theorem scan_last (h : owed.Has n) (r : List UInt8) :
    scan (some ⟨n / 64, taken, owed, []⟩) (UInt8.ofNat (n % 64 + 0x80) :: r) =
      .char (Char.ofNat n) (taken + 1) :: scan none r := by
  rw [scan, next_owed h]
  rfl

/-- and any other leads on to the next. -/
theorem scan_more (h : owed.Has n) (r : List UInt8) :
    scan (some ⟨n / 64, taken, owed, owed' :: more⟩) (UInt8.ofNat (n % 64 + 0x80) :: r) =
      scan (some ⟨n, taken + 1, owed', more⟩) r := by
  rw [scan, next_owed h]
  rfl

end

/-! ## Characters -/

/-- What is owed after the lead byte of a character that is not overlong and no surrogate, -/
theorem owedOfTwo_has {n : Nat} (hlow : 0x7FF < n) (hscalar : n < 0xD800 ∨ 0xDFFF < n) :
    (owedOfTwo (n / 64 / 64)).Has (n / 64) := by
  unfold owedOfTwo
  split_ifs
  · change 0xA0 ≤ n / 64 % 64 + 0x80 ∧ n / 64 % 64 + 0x80 ≤ 0xBF
    omega
  · change 0x80 ≤ n / 64 % 64 + 0x80 ∧ n / 64 % 64 + 0x80 ≤ 0x9F
    omega
  · exact tail_has _

/-- and of one that is not overlong and not too large. -/
theorem owedOfThree_has {n : Nat} (hlow : 0xFFFF < n) (hhigh : n < 0x110000) :
    (owedOfThree (n / 64 / 64 / 64)).Has (n / 64 / 64) := by
  unfold owedOfThree
  split_ifs
  · change 0x90 ≤ n / 64 / 64 % 64 + 0x80 ∧ n / 64 / 64 % 64 + 0x80 ≤ 0xBF
    omega
  · change 0x80 ≤ n / 64 / 64 % 64 + 0x80 ∧ n / 64 / 64 % 64 + 0x80 ≤ 0x8F
    omega
  · exact tail_has _

/-- A lead byte opens a sequence. -/
theorem scan_lead {b : UInt8} {o : Open} (h : start b = ([], some o)) (bs : List UInt8) :
    scan none (b :: bs) = scan (some o) bs := by
  rw [scan, h]
  rfl

/-- The bytes of a character are read as that character, whatever follows. -/
theorem scan_utf8EncodeChar (c : Char) (r : List UInt8) :
    ∃ width, scan none (String.utf8EncodeChar c ++ r) = .char c width :: scan none r := by
  -- a character is no surrogate and not beyond the last code point, which the narrowed ranges ask
  -- for
  have hscalar : c.val.toNat < 0xD800 ∨ 0xDFFF < c.val.toNat ∧ c.val.toNat < 0x110000 := c.valid
  have hchar : Char.ofNat c.val.toNat = c := Char.ofNat_toNat c
  unfold String.utf8EncodeChar
  dsimp only
  generalize c.val.toNat = n at hscalar hchar
  subst hchar
  -- the encoder divides once, and the automaton six bits at a time
  have htwo : n / 4096 = n / 64 / 64 := by omega
  have hthree : n / 262144 = n / 64 / 64 / 64 := by omega
  split
  · rename_i hone
    refine ⟨1, ?_⟩
    rw [List.singleton_append, scan, start_one hone]
    rfl
  split
  · refine ⟨2, ?_⟩
    calc scan none (UInt8.ofNat (n / 64 % 32 + 0xC0) :: UInt8.ofNat (n % 64 + 0x80) :: r)
        = scan (some ⟨n / 64, 1, .tail, []⟩) (UInt8.ofNat (n % 64 + 0x80) :: r) :=
          scan_lead (start_two (by omega) (by omega)) _
      _ = .char (Char.ofNat n) 2 :: scan none r := scan_last (tail_has n) r
  split
  · refine ⟨3, ?_⟩
    rw [htwo]
    calc scan none (UInt8.ofNat (n / 64 / 64 % 16 + 0xE0) :: UInt8.ofNat (n / 64 % 64 + 0x80) ::
          UInt8.ofNat (n % 64 + 0x80) :: r)
        = scan (some ⟨n / 64 / 64, 1, owedOfTwo (n / 64 / 64), [.tail]⟩)
            (UInt8.ofNat (n / 64 % 64 + 0x80) :: UInt8.ofNat (n % 64 + 0x80) :: r) :=
          scan_lead (start_three (by omega)) _
      _ = scan (some ⟨n / 64, 2, .tail, []⟩) (UInt8.ofNat (n % 64 + 0x80) :: r) :=
          scan_more (owedOfTwo_has (by omega) (by omega)) _
      _ = .char (Char.ofNat n) 3 :: scan none r := scan_last (tail_has n) r
  · refine ⟨4, ?_⟩
    rw [htwo, hthree]
    calc scan none (UInt8.ofNat (n / 64 / 64 / 64 % 8 + 0xF0) ::
          UInt8.ofNat (n / 64 / 64 % 64 + 0x80) :: UInt8.ofNat (n / 64 % 64 + 0x80) ::
          UInt8.ofNat (n % 64 + 0x80) :: r)
        = scan (some ⟨n / 64 / 64 / 64, 1, owedOfThree (n / 64 / 64 / 64), [.tail, .tail]⟩)
            (UInt8.ofNat (n / 64 / 64 % 64 + 0x80) :: UInt8.ofNat (n / 64 % 64 + 0x80) ::
              UInt8.ofNat (n % 64 + 0x80) :: r) :=
          scan_lead (start_four (by omega)) _
      _ = scan (some ⟨n / 64 / 64, 2, .tail, [.tail]⟩)
            (UInt8.ofNat (n / 64 % 64 + 0x80) :: UInt8.ofNat (n % 64 + 0x80) :: r) :=
          scan_more (owedOfThree_has (by omega) (by omega)) _
      _ = scan (some ⟨n / 64, 3, .tail, []⟩) (UInt8.ofNat (n % 64 + 0x80) :: r) :=
          scan_more (tail_has (n / 64)) _
      _ = .char (Char.ofNat n) 4 :: scan none r := scan_last (tail_has n) r

/-! ## Texts -/

/-- **A text is read as its characters.** The induction is on the characters; each is read off the
front with all others behind it. -/
theorem lossy_encode (s : String) : lossy (encode s) = s := by
  -- the pieces that are read are the characters, and a character is replaced by itself
  have hchars (cs : List Char) :
      (scan none (cs.flatMap String.utf8EncodeChar)).map Piece.lossy = cs := by
    induction cs with
    | nil => rfl
    | cons c cs ih =>
      obtain ⟨width, hscan⟩ := scan_utf8EncodeChar c (cs.flatMap String.utf8EncodeChar)
      rw [List.flatMap_cons, hscan, List.map_cons, ih]
      rfl
  rw [lossy, encode, hchars, String.ofList_toList]

/-- Bytes that are the UTF-8 of some text. -/
def Valid (bytes : List UInt8) : Prop := bytes.toByteArray.IsValidUTF8

/-- Bytes are UTF-8 if they are those of a text. -/
theorem valid_iff {bytes : List UInt8} : Valid bytes ↔ ∃ s, encode s = bytes := by
  constructor
  · rintro ⟨cs, hcs⟩
    refine ⟨String.ofList cs, ?_⟩
    rw [encode_ofList, ← List.toList_data_toByteArray (l := bytes), hcs]
    exact List.toList_data_toByteArray.symm
  · rintro ⟨s, rfl⟩
    exact ⟨s.toList, rfl⟩

/-- The bytes of a text are. -/
theorem valid_encode (s : String) : Valid (encode s) := valid_iff.2 ⟨s, rfl⟩

/-- Lenient reading changes nothing but what is no UTF-8. -/
theorem encode_lossy_iff {bytes : List UInt8} : encode (lossy bytes) = bytes ↔ Valid bytes := by
  constructor
  · intro h
    exact h ▸ valid_encode _
  · intro h
    obtain ⟨s, rfl⟩ := valid_iff.1 h
    rw [lossy_encode]

end ForeignHandles.Utf8
