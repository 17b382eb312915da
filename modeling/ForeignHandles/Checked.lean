import ForeignHandles.Error

/-!
  Checked arithmetic.

  A machine word has room for so many numbers, and an operation whose result is none of them is a
  fault of the one who asked for it: nothing wraps around.  Three operations are needed.  Sums of
  32-bit numbers can overflow, both where the end of a bit field is computed and where something is
  counted; a predecessor can fall below zero; and a shift can be by more bits than there are, which
  is not the same as a shift that loses bits at the top.

  What each operation does is said by the numbers of its words: where the result fits, the word of
  the result has its number.
-/
namespace ForeignHandles

/-- The sum of two 32-bit numbers. -/
def checkedSum (m n : UInt32) : Except Fault UInt32 :=
  if 4294967296 ≤ m.toNat + n.toNat then .error .additionOverflow else .ok (m + n)

/-- One less than a 64-bit word. -/
def checkedPred (x : BitVec 64) : Except Fault (BitVec 64) :=
  if x = 0 then .error .subtractionOverflow else .ok (x - 1)

/-- A 64-bit word shifted to the left, by fewer bits than it has. -/
def checkedShift (x : BitVec 64) (amount : UInt32) : Except Fault (BitVec 64) :=
  if amount < 64 then .ok (x <<< amount.toNat) else .error .shiftOverflow

section
variable {m n : UInt32}

/-- A sum for which there is no room is the fault of an addition, -/
theorem checkedSum_of_ge (h : 4294967296 ≤ m.toNat + n.toNat) :
    checkedSum m n = .error .additionOverflow :=
  if_pos h

/-- and every other sum is there, -/
theorem checkedSum_of_lt (h : m.toNat + n.toNat < 4294967296) : checkedSum m n = .ok (m + n) :=
  if_neg (Nat.not_le.2 h)

/-- with the number that it should have. -/
theorem toNat_sum (h : m.toNat + n.toNat < 4294967296) : (m + n).toNat = m.toNat + n.toNat := by
  rw [UInt32.toNat_add]
  exact Nat.mod_eq_of_lt h

/-- A shift by fewer bits than a word has is there, whatever is lost at the top. -/
theorem checkedShift_of_lt {x : BitVec 64} (h : n.toNat < 64) :
    checkedShift x n = .ok (x <<< n.toNat) :=
  if_pos (UInt32.lt_iff_toNat_lt.2 h)

end

end ForeignHandles
