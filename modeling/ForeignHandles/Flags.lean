import ForeignHandles.Checked

/-!
  Flag sets and bit fields.

  A flag set is a word in which some bits are declared. Bits that no flag declares may be set all
  the same: the binary operations work on the whole word and keep them, and only complement and
  truncation cut the result down to the declared bits. Questions about single bits look at the word
  widened to 64 bits, so they may be asked about bits that a narrow set does not have.

  A bit field is given by its lowest bit and its width. Its mask has exactly the bits of the field;
  a field that reaches beyond bit 63 is refused.
-/
namespace ForeignHandles

/-- A sort of flag set: the width of its word and the bits that stand for flags. -/
structure FlagFamily where
  width : Nat
  declared : BitVec width

/-- A set of flags, with whatever other bits the word has. -/
structure Flags (f : FlagFamily) where
  bits : BitVec f.width
  deriving DecidableEq

namespace Flags

variable {f : FlagFamily}

/-- The set with the given bits; those that do not fit the word are dropped. -/
def ofNat (n : Nat) : Flags f := ⟨BitVec.ofNat f.width n⟩

/-- The set with every declared flag. -/
def all : Flags f := ⟨f.declared⟩

/-- The set without flags. -/
def empty : Flags f := ⟨0⟩

def union (a b : Flags f) : Flags f := ⟨a.bits ||| b.bits⟩
def inter (a b : Flags f) : Flags f := ⟨a.bits &&& b.bits⟩
def symmDiff (a b : Flags f) : Flags f := ⟨a.bits ^^^ b.bits⟩

/-- Keeps the declared bits. -/
def truncate (a : Flags f) : Flags f := ⟨a.bits &&& f.declared⟩

/-- The declared bits that are not set. -/
def complement (a : Flags f) : Flags f := truncate ⟨~~~a.bits⟩

/-- Clears the bits of `mask`. -/
def clear (a mask : Flags f) : Flags f := ⟨a.bits &&& ~~~mask.bits⟩

/-- Sets or clears the bits of `mask`. -/
def assign (a mask : Flags f) (on : Bool) : Flags f := if on then a.union mask else a.clear mask

/-- The word, widened to 64 bits. -/
def word (a : Flags f) : BitVec 64 := a.bits.setWidth 64

/-- Whether every bit of `mask` is set. -/
def allSet (a mask : Flags f) : Bool := a.word &&& mask.word == mask.word

/-- Whether some bit of `mask` is set. -/
def anySet (a mask : Flags f) : Bool := a.word &&& mask.word != 0

/-- Whether no bit of `mask` is set. -/
def allClear (a mask : Flags f) : Bool := a.word &&& mask.word == 0

/-- The 64-bit word with bit `i` alone. -/
def single (i : Nat) : BitVec 64 := 1#64 <<< i

/-- Whether bit `i` is set. -/
def bitSet (a : Flags f) (i : Nat) : Bool := a.word &&& single i == single i

/-- Whether bit `i` is clear. -/
def bitClear (a : Flags f) (i : Nat) : Bool := a.word &&& single i == 0

end Flags

/-- The number of bits that are set. -/
def onesCount {w : Nat} (x : BitVec w) : Nat := (List.range w).countP x.getLsbD

namespace Flags

variable {f : FlagFamily}

/-- Whether exactly one bit is set. -/
def hasSingleBit (a : Flags f) : Bool := onesCount a.word == 1

/-- Whether at most one bit is set. -/
def isZeroOrSingleBit (a : Flags f) : Bool := onesCount a.word ≤ 1

theorem mem_union (a b : Flags f) (i : Nat) :
    (a.union b).bits.getLsbD i = (a.bits.getLsbD i || b.bits.getLsbD i) := by
  simp [union]

theorem mem_inter (a b : Flags f) (i : Nat) :
    (a.inter b).bits.getLsbD i = (a.bits.getLsbD i && b.bits.getLsbD i) := by
  simp [inter]

theorem mem_truncate (a : Flags f) (i : Nat) :
    (a.truncate).bits.getLsbD i = (a.bits.getLsbD i && f.declared.getLsbD i) := by
  simp [truncate]

end Flags

/-! ## Bit fields

The arithmetic behind them is checked: what does not fit its width is a fault. -/

/-- The mask of the field of `width` bits from bit `pos` on. A field that fills the word and one that
is empty are taken apart first, so that no shift goes beyond the word. -/
def bitMask (pos width : UInt32) : Except Fault (BitVec 64) := do
  let stop ← checkedSum pos width
  if 64 < stop then .error .fieldTooWide
  else if width = 0 then .ok 0
  else if width = 64 then .ok (BitVec.allOnes 64)
  else
    let above ← checkedShift 1 width
    let below ← checkedPred above
    checkedShift below pos

/-- The bits of a field, where they are. -/
def bitField (value : BitVec 64) (pos width : UInt32) : Except Fault (BitVec 64) :=
  (bitMask pos width).map (value &&& ·)

end ForeignHandles
