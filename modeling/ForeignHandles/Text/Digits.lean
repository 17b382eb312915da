/-!
  Numbers in base ten, numbers and bytes in base sixteen.

  `digits?` reads a run of decimal digits, `unsignedDecimal?` and `signedDecimal?` allow for a sign
  before it.

  `hexDigits` writes a number without leading zeros, `hexByte` writes a byte with two digits, and
  `hexWord` writes a signed 64-bit number as its bit pattern. A digit is chosen by an alphabet, so
  that lower and upper case are one rule. `bytesOfHex` reads back what `hexBytes` wrote.
-/
namespace ForeignHandles

/-! ## Base ten -/

/-- The number that decimal digits write; there must be at least one, and nothing else. -/
def digits? (cs : List Char) : Option Nat :=
  if cs.isEmpty || !cs.all Char.isDigit then none
  else some (cs.foldl (fun n c => n * 10 + (c.toNat - '0'.toNat)) 0)

/-- Splits a sign off: whether it is a minus, and what comes after it. -/
def splitSign : List Char → Bool × List Char
  | '-' :: cs => (true, cs)
  | '+' :: cs => (false, cs)
  | cs => (false, cs)

/-- Digits that may have a plus sign before them. -/
def unsignedDecimal? (cs : List Char) : Option Nat :=
  match splitSign cs with
  | (true, _) => none
  | (false, cs) => digits? cs

/-- Digits that may have a sign before them. -/
def signedDecimal? (cs : List Char) : Option Int :=
  match splitSign cs with
  | (negative, cs) => (digits? cs).map (fun n => if negative then -(n : Int) else n)

/-! ## Base sixteen -/

/-- The digits of base sixteen in lower case. -/
def lowerHex (n : Nat) : Char := Nat.digitChar n

/-- The digits of base sixteen in upper case. -/
def upperHex (n : Nat) : Char := (Nat.digitChar n).toUpper

/-- The digits of `n` in base sixteen, lower case, without leading zeros. -/
def hexDigits (n : Nat) : List Char := Nat.toDigits 16 n

/-- A byte as two digits. -/
def hexByte (digit : Nat → Char) (b : UInt8) : List Char :=
  [digit (b.toNat / 16), digit (b.toNat % 16)]

/-- Bytes as lower-case digits, two for each. -/
def hexBytes (bytes : List UInt8) : String := String.ofList (bytes.flatMap (hexByte lowerHex))

/-- The bit pattern of a signed number: `0x` and the digits of its two's complement. -/
def hexWord (n : Int64) : String := "0x" ++ String.ofList (hexDigits n.toUInt64.toNat)

/-- The value of a digit, in either case. -/
def hexValue? (c : Char) : Option Nat :=
  if '0' ≤ c ∧ c ≤ '9' then some (c.toNat - '0'.toNat)
  else if 'a' ≤ c ∧ c ≤ 'f' then some (c.toNat - 'a'.toNat + 10)
  else if 'A' ≤ c ∧ c ≤ 'F' then some (c.toNat - 'A'.toNat + 10)
  else none

/-- The bytes that pairs of digits write, in either case; a lone digit at the end is left out. -/
def bytesOfHex : List Char → List UInt8
  | h :: l :: rest =>
    UInt8.ofNat ((hexValue? h).getD 0 * 16 + (hexValue? l).getD 0) :: bytesOfHex rest
  | _ => []

theorem hexValue?_lowerHex : ∀ n, n < 16 → hexValue? (lowerHex n) = some n := by decide

end ForeignHandles
