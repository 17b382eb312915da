import Mathlib.Algebra.Group.Nat.Defs
import Mathlib.Data.List.Nodup
import ForeignHandles.Flags

/-!
  The algebra of flag sets, with bits that no flag declares.

  What the operations do is said bit by bit.  Those on two sets do not ask whether a bit is declared, so
  the laws that hold of words hold of sets; the complement does ask, so taking it twice loses the bits
  that are not declared (`complement_complement`).

  Questions are put to the word widened to 64 bits.  A set that is no wider loses nothing by that
  (`word_inj`), so a question about a mask is one about an intersection, and a question about a single
  bit is one about that bit of the set.  How many bits are set decides whether the set, as a number, is
  a power of two (`onesCount_eq_one_iff`).

  The order of the file is that of the argument. First come words: clearing, and the number of bits
  that are set, without any flags. Then sets, by extensionality on bits. Then questions, which need
  the assumption that a set fits the word it is widened to; it is made once, for a section. The main
  theorem at the end only puts these together.
-/
namespace ForeignHandles

section

variable {w k : Nat} {x : BitVec w}

/-- Clearing bits leaves the other ones; beyond the word there are none. -/
theorem getLsbD_and_not (x y : BitVec w) (i : Nat) :
    (x &&& ~~~y).getLsbD i = (x.getLsbD i && !y.getLsbD i) := by
  rw [BitVec.getLsbD_and, BitVec.getLsbD_not]
  by_cases hi : i < w
  · rw [decide_eq_true hi, Bool.true_and]
  · rw [BitVec.getLsbD_of_ge x i (Nat.not_lt.1 hi), Bool.false_and, Bool.false_and]

/-! ## How many bits are set -/

/-- No bit is set in zero, and in nothing else. -/
theorem onesCount_eq_zero_iff : onesCount x = 0 ↔ x.toNat = 0 := by
  rw [onesCount, List.countP_eq_zero]
  constructor
  · intro h
    -- a word without set bits is zero, bit by bit
    have hzero : x = 0#w := by
      refine BitVec.eq_of_getLsbD_eq fun i hi => ?_
      rw [Bool.eq_false_iff.2 (h i (List.mem_range.2 hi)), BitVec.getLsbD_zero]
    rw [hzero, BitVec.toNat_zero]
  · intro h i _
    rw [← BitVec.testBit_toNat, h, Nat.zero_testBit]
    exact Bool.false_ne_true

/-- A power of two has its one bit: counting is the same as counting the places that are equal to
that one. -/
theorem onesCount_twoPow (hk : k < w) : onesCount (BitVec.twoPow w k) = 1 := by
  have hbit (i : Nat) : (BitVec.twoPow w k).getLsbD i = (i == k) := by
    rw [BitVec.getLsbD_twoPow, decide_eq_true hk, Bool.true_and, Bool.beq_eq_decide_eq]
    exact decide_eq_decide.2 eq_comm
  rw [onesCount, funext hbit]
  exact List.count_eq_one_of_mem List.nodup_range (List.mem_range.2 hk)

/-- A word in which only one place is set is the power of two of that place. The list of places
that are set says both which bit it is and that there is no other. -/
theorem eq_twoPow_of_filter (h : (List.range w).filter x.getLsbD = [k]) :
    k < w ∧ x = BitVec.twoPow w k := by
  have hset (i : Nat) : i < w ∧ x.getLsbD i = true ↔ i = k := by
    rw [← List.mem_range, ← List.mem_filter, h, List.mem_singleton]
  have hk : k < w := ((hset k).2 rfl).1
  refine ⟨hk, BitVec.eq_of_getLsbD_eq fun i hi => ?_⟩
  rw [BitVec.getLsbD_twoPow, decide_eq_true hk, Bool.true_and, Bool.eq_iff_iff, decide_eq_true_iff,
    @eq_comm _ k i, ← hset i]
  exact (and_iff_right hi).symm

/-- Powers of two have one bit that is set, and nothing else has. -/
theorem onesCount_eq_one_iff : onesCount x = 1 ↔ ∃ k, x.toNat = 2 ^ k := by
  constructor
  · intro h
    rw [onesCount, List.countP_eq_length_filter] at h
    obtain ⟨k, hfilter⟩ := List.length_eq_one_iff.1 h
    obtain ⟨hk, rfl⟩ := eq_twoPow_of_filter hfilter
    exact ⟨k, BitVec.toNat_twoPow_of_lt hk⟩
  · rintro ⟨k, hx⟩
    -- the exponent is below the width, since the power fits the word
    have hk : k < w := (Nat.pow_lt_pow_iff_right (by decide)).1 (hx ▸ x.isLt)
    obtain rfl : x = BitVec.twoPow w k :=
      BitVec.eq_of_toNat_eq (hx.trans (BitVec.toNat_twoPow_of_lt hk).symm)
    exact onesCount_twoPow hk

end

namespace Flags

variable {f : FlagFamily} {a b : Flags f} {i : Nat}

/-! ## Bit by bit -/

/-- Sets with the same bits are the same set; this is how every law below is proved. -/
theorem ext_bits (h : ∀ i, a.bits.getLsbD i = b.bits.getLsbD i) : a = b := by
  cases a
  cases b
  exact congrArg mk (BitVec.eq_of_getLsbD_eq fun i _ => h i)

/-- Clearing takes the bits of the mask away, and keeps bits that no flag declares. -/
theorem mem_clear (a b : Flags f) (i : Nat) :
    (a.clear b).bits.getLsbD i = (a.bits.getLsbD i && !b.bits.getLsbD i) :=
  getLsbD_and_not a.bits b.bits i

/-- The complement has what is declared and not set. -/
theorem mem_complement (a : Flags f) (i : Nat) :
    a.complement.bits.getLsbD i = (f.declared.getLsbD i && !a.bits.getLsbD i) := by
  rw [complement, truncate, BitVec.and_comm]
  exact getLsbD_and_not f.declared a.bits i

/-- The empty set has no bits. -/
theorem mem_empty (i : Nat) : (empty : Flags f).bits.getLsbD i = false := BitVec.getLsbD_zero

/-- A union, cut down to one of its sets, is that set. -/
theorem union_inter_self (a b : Flags f) : (a.union b).inter a = a := by
  refine ext_bits fun i => ?_
  rw [mem_inter, mem_union]
  cases a.bits.getLsbD i <;> simp

/-- A mask divides a set into what they share and what is left, -/
theorem inter_union_clear (a b : Flags f) : (a.inter b).union (a.clear b) = a := by
  refine ext_bits fun i => ?_
  rw [mem_union, mem_inter, mem_clear, ← Bool.and_or_distrib_left, Bool.or_not_self, Bool.and_true]

/-- and these two parts have no bit in common. -/
theorem inter_inter_clear (a b : Flags f) : (a.inter b).inter (a.clear b) = empty := by
  refine ext_bits fun i => ?_
  rw [mem_inter, mem_inter, mem_clear, mem_empty]
  cases b.bits.getLsbD i <;> simp

/-- What is not declared is lost in the first complement. -/
theorem complement_complement (a : Flags f) : a.complement.complement = a.truncate := by
  refine ext_bits fun i => ?_
  rw [mem_complement, mem_complement, mem_truncate]
  cases a.bits.getLsbD i <;> cases f.declared.getLsbD i <;> rfl

/-- To clear a set with a mask leaves nothing if the set is within the mask. -/
theorem clear_eq_empty_iff : b.clear a = empty ↔ a.inter b = b := by
  constructor
  · intro h
    refine ext_bits fun i => ?_
    have hbit := mem_clear b a i
    rw [h, mem_empty] at hbit
    rw [mem_inter]
    revert hbit
    cases a.bits.getLsbD i <;> cases b.bits.getLsbD i <;> simp
  · intro h
    refine ext_bits fun i => ?_
    rw [← h, mem_clear, mem_inter, mem_empty]
    cases a.bits.getLsbD i <;> simp

/-! ## Questions -/

/-- A single bit is not zero, provided the word has that bit; shifted further, it would be. -/
theorem single_ne_zero (hi : i < 64) : single i ≠ 0 := by
  intro h
  have hbit := congrArg (BitVec.getLsbD · i) h
  simp [single, hi] at hbit

/-- Widening commutes with intersection. -/
theorem word_inter (a b : Flags f) : (a.inter b).word = a.word &&& b.word := BitVec.setWidth_and

section

variable (hwidth : f.width ≤ 64)
include hwidth

/-- A set that fits has the same bits when it is widened, and none beyond. -/
theorem getLsbD_word (a : Flags f) (i : Nat) : a.word.getLsbD i = a.bits.getLsbD i := by
  rw [word, BitVec.getLsbD_setWidth]
  by_cases hi : i < 64
  · rw [decide_eq_true hi, Bool.true_and]
  · rw [decide_eq_false hi, Bool.false_and, BitVec.getLsbD_of_ge a.bits i (by omega)]

/-- A set that fits loses nothing when it is widened. -/
theorem word_inj : a.word = b.word ↔ a = b := by
  constructor
  · intro h
    exact ext_bits fun i => by rw [← getLsbD_word hwidth a, h, getLsbD_word hwidth b]
  · rintro rfl
    rfl

/-- Whether all bits of a mask are set is whether the mask is within the set, that is, whether
clearing leaves nothing of it. -/
theorem allSet_iff : a.allSet b = true ↔ b.clear a = empty := by
  rw [allSet, beq_iff_eq, ← word_inter, word_inj hwidth, clear_eq_empty_iff]

/-- Whether all are clear is whether they have no bit in common. -/
theorem allClear_iff : a.allClear b = true ↔ a.inter b = empty := by
  have hempty : (empty : Flags f).word = 0 := by simp [word, empty]
  rw [allClear, beq_iff_eq, ← word_inter, ← hempty, word_inj hwidth]

/-- Looking at one bit of the word leaves that bit or nothing. -/
theorem word_and_single (a : Flags f) (i : Nat) :
    a.word &&& single i = if a.bits.getLsbD i then single i else 0 := by
  rw [single, ← BitVec.twoPow_eq, BitVec.and_twoPow, getLsbD_word hwidth]
  rfl

/-- Asking for a bit answers whether the set has it. Bits that the word of the set does not have
may be asked for, as long as 64 bits have them. -/
theorem bitSet_eq (a : Flags f) (hi : i < 64) : a.bitSet i = a.bits.getLsbD i := by
  rw [bitSet, word_and_single hwidth]
  cases a.bits.getLsbD i with
  | false => exact beq_eq_false_iff_ne.2 (single_ne_zero hi).symm
  | true => exact beq_self_eq_true (single i)

/-- The opposite question has the opposite answer. -/
theorem bitClear_eq (a : Flags f) (hi : i < 64) : a.bitClear i = !a.bits.getLsbD i := by
  rw [bitClear, word_and_single hwidth]
  cases a.bits.getLsbD i with
  | false => exact beq_self_eq_true (0 : BitVec 64)
  | true => exact beq_eq_false_iff_ne.2 (single_ne_zero hi)

/-- Exactly one bit is set in the powers of two. -/
theorem hasSingleBit_iff (a : Flags f) :
    a.hasSingleBit = true ↔ ∃ k, a.bits.toNat = 2 ^ k := by
  rw [hasSingleBit, beq_iff_eq, onesCount_eq_one_iff, word, BitVec.toNat_setWidth_of_le hwidth]

/-- At most one bit is set in these and in zero. -/
theorem isZeroOrSingleBit_iff (a : Flags f) :
    a.isZeroOrSingleBit = true ↔ a.bits.toNat = 0 ∨ ∃ k, a.bits.toNat = 2 ^ k := by
  rw [isZeroOrSingleBit, decide_eq_true_iff, Nat.le_one_iff_eq_zero_or_eq_one,
    onesCount_eq_zero_iff, onesCount_eq_one_iff, word, BitVec.toNat_setWidth_of_le hwidth]

end

/-- **The algebra of flag sets**, whatever bits are declared and whatever others are set.

A union absorbs what it is intersected with.  The mask divides a set into two parts without a common
bit, what it shares with the mask and what is left when the mask is cleared; clearing takes away the
bits of the mask and keeps every other one, declared or not.  The complement has the declared bits that
are not set, so a second complement leaves the declared bits that are.

All bits of a mask are set if clearing the set leaves nothing of it, and some are set if not all are
clear.  A single bit is set or clear, and it is set if the set has it, which no set has beyond its
width.  Just one bit is set in a power of two, and none in zero. -/
theorem flag_sets_form_algebra (hwidth : f.width ≤ 64) (a b : Flags f) :
    (a.union b).inter a = a ∧
    ((a.inter b).union (a.clear b) = a ∧ (a.inter b).inter (a.clear b) = empty ∧
      ∀ i, (a.clear b).bits.getLsbD i = (a.bits.getLsbD i && !b.bits.getLsbD i)) ∧
    ((∀ i, a.complement.bits.getLsbD i = (f.declared.getLsbD i && !a.bits.getLsbD i)) ∧
      a.complement.complement = a.truncate) ∧
    (a.allSet b = true ↔ b.clear a = empty) ∧
    ((a.anySet b = true ↔ ¬ a.allClear b = true) ∧ (a.allClear b = true ↔ a.inter b = empty)) ∧
    (∀ i, i < 64 → a.bitSet i = !a.bitClear i ∧ a.bitSet i = a.bits.getLsbD i ∧
      (f.width ≤ i → a.bitSet i = false)) ∧
    (a.hasSingleBit = true ↔ ∃ k, a.bits.toNat = 2 ^ k) ∧
    (a.isZeroOrSingleBit = true ↔ a.bits.toNat = 0 ∨ ∃ k, a.bits.toNat = 2 ^ k) := by
  refine ⟨union_inter_self a b, ⟨inter_union_clear a b, inter_inter_clear a b, mem_clear a b⟩,
    ⟨mem_complement a, complement_complement a⟩, allSet_iff hwidth, ⟨?_, allClear_iff hwidth⟩,
    fun i hi => ⟨?_, bitSet_eq hwidth a hi, fun hbeyond => ?_⟩, hasSingleBit_iff hwidth a,
    isZeroOrSingleBit_iff hwidth a⟩
  -- the two questions compare the same word with zero
  · have hopposite : a.anySet b = !a.allClear b := rfl
    rw [hopposite, Bool.not_eq_true', Bool.not_eq_true]
  · rw [bitSet_eq hwidth a hi, bitClear_eq hwidth a hi, Bool.not_not]
  · rw [bitSet_eq hwidth a hi, BitVec.getLsbD_of_ge a.bits i hbeyond]

/-- In a set of eight bits that declares bits 0, 1 and 7, bit 2 survives clearing bit 0, but not two
complements; and bit 40 is not set. -/
theorem undeclared_bit_kept :
    let f : FlagFamily := ⟨8, 0x83⟩
    let a : Flags f := ⟨0x85⟩
    f.width ≤ 64 ∧ (a.clear ⟨0x01⟩).bits.getLsbD 2 = true ∧ a.complement.complement = ⟨0x81⟩ ∧
      a.bitSet 40 = false := by
  intro f a
  have hwidth : f.width ≤ 64 := by decide
  obtain ⟨-, ⟨-, -, hclear⟩, ⟨-, htwice⟩, -, -, hbits, -⟩ :=
    flag_sets_form_algebra hwidth a ⟨0x01⟩
  exact ⟨hwidth, (hclear 2).trans (by decide), htwice.trans (by decide),
    (hbits 40 (by decide)).2.2 (by decide)⟩

end Flags

end ForeignHandles
