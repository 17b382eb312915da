import ForeignHandles.Error
import ForeignHandles.Text.Digits

/-!
  Constant data: bytes read as elements of one width.

  The width is 8, 16, 32 or 64 bits, and the bytes are a whole number of elements; the type holds
  both promises. A C string is 8-bit data whose only NUL is its last byte.

  In print, 8-bit data is a quoted body of printable ASCII. The quote, the backslash and every
  byte outside that range are written as a backslash and two upper-case digits, so the body can be
  read back: `readBody?_body`.
-/
namespace ForeignHandles

/-- The widths of elements. -/
inductive ElementWidth where
  | w8 | w16 | w32 | w64
  deriving DecidableEq

namespace ElementWidth

/-- Bytes for each element. -/
def bytes : ElementWidth → Nat
  | .w8 => 1
  | .w16 => 2
  | .w32 => 4
  | .w64 => 8

/-- Bits for each element. -/
def bits (w : ElementWidth) : Nat := w.bytes * 8

/-- The width of the given number of bits, if there is one. -/
def ofBits? (bits : UInt32) : Option ElementWidth :=
  if bits = 8 then some .w8
  else if bits = 16 then some .w16
  else if bits = 32 then some .w32
  else if bits = 64 then some .w64
  else none

end ElementWidth

/-- Bytes that are a whole number of elements. -/
structure DataSequence where
  width : ElementWidth
  raw : List UInt8
  whole : raw.length % width.bytes = 0 := by simp
  deriving DecidableEq

namespace DataSequence

/-- The sequence of the given bytes. -/
def ofRaw (bits : UInt32) (raw : List UInt8) : Except Fault DataSequence :=
  match ElementWidth.ofBits? bits with
  | none => .error (.elementWidth bits)
  | some width =>
    if whole : raw.length % width.bytes = 0 then .ok { width, raw, whole } else .error .raggedData

/-- The 8-bit sequence of a text, with or without a NUL after it. -/
def ofText (text : List UInt8) (terminated : Bool) : DataSequence where
  width := .w8
  raw := if terminated then text ++ [0] else text
  whole := Nat.mod_one _

/-- The number of elements. -/
def count (d : DataSequence) : Nat := d.raw.length / d.width.bytes

/-- Whether the only NUL of 8-bit data is its last byte. -/
def isCString (d : DataSequence) : Bool :=
  d.width = .w8 && d.raw.getLast? = some 0 && !d.raw.dropLast.contains 0

/-- Whether every byte is zero. -/
def isZero (d : DataSequence) : Bool := d.raw.all (· == 0)

/-! ## In print -/

/-- Whether a byte stands for itself in the quoted body. -/
def isPlain (b : UInt8) : Bool := 0x20 ≤ b && b ≤ 0x7E && b ≠ 0x22 && b ≠ 0x5C

/-- A byte in the quoted body. -/
def bodyByte (b : UInt8) : List Char :=
  if isPlain b then [Char.ofNat b.toNat] else '\\' :: hexByte upperHex b

/-- The quoted body of 8-bit data. -/
def body (raw : List UInt8) : List Char := raw.flatMap bodyByte

/-- Reads a quoted body: a backslash and two upper-case digits are one byte, any other character
is itself. -/
def readBody? : List Char → Option (List UInt8)
  | [] => some []
  | '\\' :: h :: l :: cs => do
    let high ← upperHexValue? h
    let low ← upperHexValue? l
    return UInt8.ofNat (high * 16 + low) :: (← readBody? cs)
  | c :: cs =>
    if c = '\\' then none else (readBody? cs).map (UInt8.ofNat c.toNat :: ·)
where
  upperHexValue? (c : Char) : Option Nat := if c.isLower then none else hexValue? c

/-- The printed form: a count, the element type and, for 8-bit data, the quoted body. -/
def text (d : DataSequence) : String :=
  let shape := "[" ++ toString d.count ++ " x i" ++ toString d.width.bits ++ "]"
  if d.width = .w8 then shape ++ " c\"" ++ String.ofList (body d.raw) ++ "\""
  else shape ++ " <data>"

theorem ofRaw_ok {bits : UInt32} {raw : List UInt8} {d : DataSequence}
    (h : ofRaw bits raw = .ok d) :
    ElementWidth.ofBits? bits = some d.width ∧ d.raw = raw := by
  unfold ofRaw at h
  split at h
  · simp at h
  · rename_i width hw
    split at h
    · obtain rfl := Except.ok.inj h
      exact ⟨hw, rfl⟩
    · simp at h

/-! ## Reading the body back -/

theorem upperHexValue?_upperHex :
    ∀ n, n < 16 → readBody?.upperHexValue? (upperHex n) = some n := by decide

/-- Every byte is the number of a character. -/
theorem toNat_ofNat_byte (b : UInt8) : (Char.ofNat b.toNat).toNat = b.toNat := by
  have hb := b.toNat_lt
  rw [Char.ofNat, dif_pos (Or.inl (by omega))]
  rfl

/-- A byte that stands for itself is one character of the same number, and no backslash. -/
private theorem char_of_plain {b : UInt8} (h : isPlain b = true) :
    (Char.ofNat b.toNat).toNat = b.toNat ∧ Char.ofNat b.toNat ≠ '\\' := by
  have hc := toNat_ofNat_byte b
  refine ⟨hc, fun he => ?_⟩
  have hn : b.toNat = 0x5C := by rw [← hc, he]; rfl
  have hb : b = 0x5C := UInt8.toNat_inj.1 hn
  simp [isPlain, hb] at h

theorem readBody?_bodyByte (b : UInt8) (cs : List Char) :
    readBody? (bodyByte b ++ cs) = (readBody? cs).map (b :: ·) := by
  by_cases h : isPlain b = true
  · obtain ⟨hn, hc⟩ := char_of_plain h
    simp only [bodyByte, h, if_true, List.cons_append, List.nil_append]
    rw [readBody?.eq_def]
    split
    · simp_all
    · simp_all
    · rename_i heq
      obtain ⟨rfl, rfl⟩ := List.cons.inj heq
      simp [hc, hn]
  · have hb := b.toNat_lt
    simp only [bodyByte, h, hexByte, List.cons_append, List.nil_append, Bool.false_eq_true,
      if_false, readBody?]
    rw [upperHexValue?_upperHex _ (by omega), upperHexValue?_upperHex _ (by omega)]
    have whole : UInt8.ofNat (b.toNat / 16 * 16 + b.toNat % 16) = b := by
      rw [Nat.div_add_mod']; simp
    simp only [Option.bind_eq_bind, Option.bind_some, whole]
    cases readBody? cs <;> rfl

/-- The quoted body determines the bytes. -/
theorem readBody?_body (raw : List UInt8) : readBody? (body raw) = some raw := by
  induction raw with
  | nil => rfl
  | cons b raw ih =>
    show readBody? (bodyByte b ++ body raw) = _
    rw [readBody?_bodyByte, ih, Option.map_some]

end DataSequence

end ForeignHandles
