import Mathlib.Algebra.Group.Nat.Defs
import ForeignHandles.Flags

/-!
  The mask of a bit field at its boundaries.

  Where a field fits, the checked steps of the mask all go through: its sum is a small number, and only
  a width from 1 to 63 reaches the shifts, which then leave something for the predecessor to take one
  from (`bitMask_of_fits`).  Where it does not fit, the sum already says so, or there is no sum.  What a
  mask has is said bit by bit (`IsFieldMask`), and that is enough to put two adjacent fields together.

  The program computes a mask by shifting one to the left, taking one away and shifting again. In 64
  bits each of these steps can go wrong: a shift by 64 is refused, nothing can be taken from zero,
  and the sum of place and width may not fit the type of both. Widths 0 and 64 are caught before,
  which is exactly what keeps the other widths out of trouble.
-/
namespace ForeignHandles

/-- The word has the bits of the field and no others. -/
def IsFieldMask (mask : BitVec 64) (pos width : Nat) : Prop :=
  ∀ i, mask.getLsbD i = true ↔ pos ≤ i ∧ i < pos + width

/-! ## The checked steps -/

section

variable {w : Nat} (hw : w < 64)
include hw

/-- One moved to a place within the word is a power of two, -/
theorem toNat_one_shiftLeft : (1#64 <<< w).toNat = 2 ^ w := by
  rw [← BitVec.twoPow_eq, BitVec.toNat_twoPow_of_lt hw]

/-- so there is something to take one from. -/
theorem checkedPred_one_shiftLeft : checkedPred (1#64 <<< w) = .ok (1#64 <<< w - 1) := by
  refine if_neg fun hzero => ?_
  have hpow := toNat_one_shiftLeft hw
  rw [hzero] at hpow
  exact absurd hpow (Nat.ne_of_lt (Nat.two_pow_pos w))

/-- One less than a power of two has all the bits below it. -/
theorem getLsbD_one_shiftLeft_pred (i : Nat) :
    (1#64 <<< w - 1).getLsbD i = decide (i < w) := by
  have hle : 1#64 ≤ 1#64 <<< w := by
    rw [BitVec.le_def, toNat_one_shiftLeft hw]
    exact Nat.two_pow_pos w
  have hnat : (1#64 <<< w - 1#64).toNat = 2 ^ w - 1 := by
    rw [BitVec.toNat_sub_of_le hle, toNat_one_shiftLeft hw]
    rfl
  exact (congrArg (Nat.testBit · i) hnat).trans (Nat.testBit_two_pow_sub_one w i)

end

/-! ## Masks -/

section

variable {pos w : Nat}

/-- Nothing is the mask of an empty field, wherever that is, -/
theorem isFieldMask_zero (pos : Nat) : IsFieldMask 0 pos 0 := by
  intro i
  have hclear : (0 : BitVec 64).getLsbD i = false := BitVec.getLsbD_zero
  rw [hclear]
  constructor
  · intro hbit
    cases hbit
  · rintro ⟨hfrom, hto⟩
    exact absurd hto (Nat.not_lt.2 hfrom)

/-- and the whole word that of a field as wide as the word. -/
theorem isFieldMask_allOnes : IsFieldMask (BitVec.allOnes 64) 0 64 := by
  intro i
  rw [BitVec.getLsbD_allOnes, decide_eq_true_iff, Nat.zero_add]
  exact (and_iff_right (Nat.zero_le i)).symm

/-- A field is a number of low bits that are moved to its place, and none is lost on the way. -/
theorem isFieldMask_shifted (hw : w < 64) (hfits : pos + w ≤ 64) :
    IsFieldMask ((1#64 <<< w - 1) <<< pos) pos w := by
  intro i
  rw [BitVec.getLsbD_shiftLeft, getLsbD_one_shiftLeft_pred hw]
  simp only [Bool.and_eq_true, Bool.not_eq_true', decide_eq_true_eq, decide_eq_false_iff_not]
  omega

end

section

variable {pos width : UInt32}

/-- A sum that does not fit its type is a fault of its own, before anything is looked at. -/
theorem bitMask_of_overflow (h : 4294967296 ≤ pos.toNat + width.toNat) :
    bitMask pos width = .error .additionOverflow := by
  rw [bitMask, checkedSum_of_ge h]
  rfl

/-- A sum that exists decides whether the field fits. -/
theorem bitMask_of_sum (h : pos.toNat + width.toNat < 4294967296) :
    bitMask pos width =
      if 64 < pos.toNat + width.toNat then .error .fieldTooWide
      else if width = 0 then .ok 0
      else if width = 64 then .ok (BitVec.allOnes 64)
      else (do
        let above ← checkedShift 1 width
        let below ← checkedPred above
        checkedShift below pos) := by
  have hfits : 64 < pos + width ↔ 64 < pos.toNat + width.toNat := by
    rw [UInt32.lt_iff_toNat_lt, toNat_sum h]
    rfl
  rw [bitMask, checkedSum_of_lt h]
  exact ite_congr (propext hfits) (fun _ => rfl) fun _ => rfl

/-- A field that reaches beyond the word is refused by the check. -/
theorem bitMask_of_tooWide (hsum : pos.toNat + width.toNat < 4294967296)
    (hwide : 64 < pos.toNat + width.toNat) : bitMask pos width = .error .fieldTooWide :=
  (bitMask_of_sum hsum).trans (if_pos hwide)

/-- Where nothing goes beyond the word, the shifts and the predecessor are what they are without a
check. -/
theorem shifts_of_lt (hwidth : width.toNat < 64) (hpos : pos.toNat < 64) :
    (do
      let above ← checkedShift 1 width
      let below ← checkedPred above
      checkedShift below pos) = .ok ((1#64 <<< width.toNat - 1) <<< pos.toNat) :=
  calc (do
        let above ← checkedShift 1 width
        let below ← checkedPred above
        checkedShift below pos)
      = (do
        let below ← checkedPred (1#64 <<< width.toNat)
        checkedShift below pos) := by rw [checkedShift_of_lt hwidth]; rfl
    _ = checkedShift (1#64 <<< width.toNat - 1) pos := by
        rw [checkedPred_one_shiftLeft hwidth]; rfl
    _ = .ok ((1#64 <<< width.toNat - 1) <<< pos.toNat) := checkedShift_of_lt hpos

/-- A field that fits has a mask with just its bits. -/
theorem bitMask_of_fits (h : pos.toNat + width.toNat ≤ 64) :
    ∃ mask, bitMask pos width = .ok mask ∧ IsFieldMask mask pos.toNat width.toNat := by
  rw [bitMask_of_sum (by omega), if_neg (Nat.not_lt.2 h)]
  by_cases hzero : width = 0
  · subst hzero
    exact ⟨0, if_pos rfl, isFieldMask_zero _⟩
  rw [if_neg hzero]
  by_cases hfull : width = 64
  · subst hfull
    -- a field as wide as the word starts at its first bit
    have hword : (64 : UInt32).toNat = 64 := rfl
    have hpos : pos.toNat = 0 := by omega
    rw [hpos]
    exact ⟨_, if_pos rfl, isFieldMask_allOnes⟩
  rw [if_neg hfull]
  have hnonzero : width.toNat ≠ 0 := fun heq => hzero (UInt32.toNat_inj.1 heq)
  have hne : width.toNat ≠ 64 := fun heq => hfull (UInt32.toNat_inj.1 heq)
  exact ⟨_, shifts_of_lt (by omega) (by omega), isFieldMask_shifted (by omega) h⟩

/-- A field that does not fit is refused, and nothing else is. -/
theorem bitMask_error_iff {fault : Fault} :
    bitMask pos width = .error fault ↔
      64 < pos.toNat + width.toNat ∧
        fault = if 4294967296 ≤ pos.toNat + width.toNat then .additionOverflow else .fieldTooWide := by
  by_cases hfits : pos.toNat + width.toNat ≤ 64
  · obtain ⟨mask, hmask, -⟩ := bitMask_of_fits hfits
    rw [hmask]
    constructor
    · intro h
      cases h
    · rintro ⟨hwide, -⟩
      exact absurd hfits (Nat.not_le.2 hwide)
  have hwide : 64 < pos.toNat + width.toNat := Nat.not_le.1 hfits
  -- which of the two faults it is
  by_cases hover : 4294967296 ≤ pos.toNat + width.toNat
  · rw [bitMask_of_overflow hover, if_pos hover, Except.error.injEq, eq_comm]
    exact (and_iff_right hwide).symm
  · rw [bitMask_of_tooWide (Nat.not_le.1 hover) hwide, if_neg hover, Except.error.injEq, eq_comm]
    exact (and_iff_right hwide).symm

end

/-! ## Adjacent fields -/

section

variable {whole low high : BitVec 64} {pos m n : Nat}

/-- The bits of a field are those of its parts together, -/
theorem IsFieldMask.or_eq (hwhole : IsFieldMask whole pos (m + n)) (hlow : IsFieldMask low pos m)
    (hhigh : IsFieldMask high (pos + m) n) : low ||| high = whole := by
  refine BitVec.eq_of_getLsbD_eq fun i _ => ?_
  rw [BitVec.getLsbD_or, Bool.eq_iff_iff, Bool.or_eq_true, hlow i, hhigh i, hwhole i]
  omega

/-- and the parts have none in common. -/
theorem IsFieldMask.and_eq_zero (hlow : IsFieldMask low pos m)
    (hhigh : IsFieldMask high (pos + m) n) : low &&& high = 0 := by
  refine BitVec.eq_of_getLsbD_eq fun i _ => ?_
  -- a place is below the seam or not
  have hboth : ¬ (low.getLsbD i = true ∧ high.getLsbD i = true) := by
    rw [hlow i, hhigh i]
    omega
  rw [← Bool.and_eq_true, Bool.not_eq_true] at hboth
  exact BitVec.getLsbD_and.trans (hboth.trans BitVec.getLsbD_zero.symm)

end

/-- **A bit mask has the bits of its field**, at every boundary.

A mask is refused exactly if its field reaches beyond bit 63: by the check, or by the sum before it if
that does not fit 32 bits.  No other step of it can fail.  Otherwise the bits that are set are those of
the field, none if it is empty, wherever that is, and all of them if it fills the word.

So a field is the union of the two it is split into, which have no bit in common. -/
theorem bit_masks_are_exact :
    (∀ pos width : UInt32,
      (∀ fault, bitMask pos width = .error fault ↔
        64 < pos.toNat + width.toNat ∧
          fault =
            if 4294967296 ≤ pos.toNat + width.toNat then .additionOverflow else .fieldTooWide) ∧
      (pos.toNat + width.toNat ≤ 64 →
        ∃ mask, bitMask pos width = .ok mask ∧
          ∀ i, mask.getLsbD i = true ↔ pos.toNat ≤ i ∧ i < pos.toNat + width.toNat)) ∧
    ∀ (value : BitVec 64) (pos width w₁ w₂ : UInt32), width.toNat = w₁.toNat + w₂.toNat →
      pos.toNat + width.toNat ≤ 64 →
      ∃ whole low high,
        bitField value pos width = .ok whole ∧ bitField value pos w₁ = .ok low ∧
        bitField value (pos + w₁) w₂ = .ok high ∧ low ||| high = whole ∧ low &&& high = 0 := by
  refine ⟨fun pos width => ⟨fun _ => bitMask_error_iff, bitMask_of_fits⟩, ?_⟩
  intro value pos width w₁ w₂ hsplit hfits
  -- the upper part starts where the lower one ends, which is within the word
  have hmiddle : (pos + w₁).toNat = pos.toNat + w₁.toNat := toNat_sum (by omega)
  have hfitsLow : pos.toNat + w₁.toNat ≤ 64 := by omega
  have hfitsHigh : (pos + w₁).toNat + w₂.toNat ≤ 64 := by omega
  obtain ⟨whole, hwhole, hbits⟩ := bitMask_of_fits hfits
  obtain ⟨low, hlow, hlowBits⟩ := bitMask_of_fits hfitsLow
  obtain ⟨high, hhigh, hhighBits⟩ := bitMask_of_fits hfitsHigh
  rw [hsplit] at hbits
  rw [hmiddle] at hhighBits
  refine ⟨value &&& whole, value &&& low, value &&& high, ?_, ?_, ?_, ?_, ?_⟩
  · rw [bitField, hwhole]
    rfl
  · rw [bitField, hlow]
    rfl
  · rw [bitField, hhigh]
    rfl
  · rw [← BitVec.and_or_distrib_left, hbits.or_eq hlowBits hhighBits]
  · calc value &&& low &&& (value &&& high)
        = value &&& (low &&& high) := by ac_rfl
      _ = 0 := by rw [hlowBits.and_eq_zero hhighBits]; exact BitVec.and_zero

/-- Just below the end of the word, bits 61 to 63 make up a field of which bit 61 and bits 62 and 63 are
the parts; an empty field at its end is no fault, and one bit there is one. -/
theorem field_at_end_split :
    (3 : UInt32).toNat = (1 : UInt32).toNat + (2 : UInt32).toNat ∧
    (61 : UInt32).toNat + (3 : UInt32).toNat ≤ 64 ∧
    (∃ whole low high,
      bitField (BitVec.allOnes 64) 61 3 = .ok whole ∧ bitField (BitVec.allOnes 64) 61 1 = .ok low ∧
      bitField (BitVec.allOnes 64) (61 + 1) 2 = .ok high ∧ low ||| high = whole ∧ low &&& high = 0) ∧
    (∃ mask, bitMask 64 0 = .ok mask) ∧ bitMask 64 1 = .error .fieldTooWide := by
  have hsplit : (3 : UInt32).toNat = (1 : UInt32).toNat + (2 : UInt32).toNat := by decide
  have hfits : (61 : UInt32).toNat + (3 : UInt32).toNat ≤ 64 := by decide
  obtain ⟨hmask, hfield⟩ := bit_masks_are_exact
  obtain ⟨mask, hempty, -⟩ := (hmask 64 0).2 (by decide)
  exact ⟨hsplit, hfits, hfield _ _ _ _ _ hsplit hfits, ⟨mask, hempty⟩,
    ((hmask 64 1).1 _).2 (by decide)⟩

end ForeignHandles
