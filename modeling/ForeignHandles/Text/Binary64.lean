import ForeignHandles.Text.Digits

/-!
  Numbers of the binary64 format, in decimal.

  A finite number is `mantissa * 2 ^ exponent`. Reading a decimal gives the nearest number, the one
  with the even mantissa of two that are equally near (`ofRatio`). Writing one gives the fewest
  digits that are read back as that number, and of those the nearest to it, the upper one of two
  that are equally near (`fewestDigits`). No exponent is written and no digits after the point
  unless there have to be.

  All of it is exact: numbers are compared as fractions of natural numbers.
-/
namespace ForeignHandles

/-- A number of the binary64 format. -/
inductive Binary64 where
  | finite (negative : Bool) (mantissa : Nat) (exponent : Int)
  | infinite (negative : Bool)
  | nan
  deriving DecidableEq

namespace Binary64

/-- The least exponent of a number, and the greatest. -/
def leastExponent : Int := -1074
def greatestExponent : Int := 971

/-- The least mantissa of 53 bits, and the first one that has more. -/
def leastMantissa : Nat := 0x10000000000000
def mantissaLimit : Nat := 0x20000000000000

/-- The numerator of a power: the power itself, or one if the exponent is negative. -/
def power (base : Nat) (exponent : Int) : Nat := Nat.pow base exponent.toNat

/-! ## Reading -/

/-- The nearest natural number to a fraction, the even one of two that are equally near. -/
def nearest (num den : Nat) : Nat :=
  let whole := num / den
  let twice := 2 * (num % den)
  if twice < den then whole else if den < twice then whole + 1 else whole + whole % 2

/-- The nearest number to a fraction. The mantissa has 53 bits, fewer only at the least exponent. -/
def ofRatio (negative : Bool) (num den : Nat) : Binary64 :=
  if num = 0 then .finite negative 0 leastExponent
  else
    let scaled (e : Int) : Nat × Nat := (num * power 2 (-e), den * power 2 e)
    let low : Int := (num.log2 : Int) - den.log2 - 53
    let (n, d) := scaled low
    let e := max (if n / d < mantissaLimit then low else low + 1) leastExponent
    let (n, d) := scaled e
    let m := nearest n d
    let (m, e) := if m = mantissaLimit then (leastMantissa, e + 1) else (m, e)
    if e > greatestExponent then .infinite negative else .finite negative m e

/-- The nearest number to `digits * 10 ^ exponent`. Decimals beyond all numbers are told by how many
digits they have before the point. -/
def ofDecimal (negative : Bool) (digits : Nat) (exponent : Int) : Binary64 :=
  let places : Int := (Nat.toDigits 10 digits).length + exponent
  if digits = 0 || places < -330 then .finite negative 0 leastExponent
  else if places > 310 then .infinite negative
  else ofRatio negative (digits * power 10 exponent) (power 10 (-exponent))

/-- The power of ten that ends a decimal: nothing, or an `e` in either case and a signed number. -/
def powerOfTen? : List Char → Option Int
  | [] => some 0
  | c :: cs => if c.toLower = 'e' then signedDecimal? cs else none

/-- Reads an unsigned decimal: digits with or without a point, at least one of them, and perhaps a
power of ten. -/
def decimal? (negative : Bool) (cs : List Char) : Option Binary64 :=
  let whole := cs.takeWhile Char.isDigit
  let rest := cs.dropWhile Char.isDigit
  let (fraction, rest) := match rest with
    | '.' :: cs => (cs.takeWhile Char.isDigit, cs.dropWhile Char.isDigit)
    | _ => ([], rest)
  match digits? (whole ++ fraction), powerOfTen? rest with
  | some digits, some shift => some (ofDecimal negative digits (shift - fraction.length))
  | _, _ => none

/-- Reads a number: a decimal, `inf`, `infinity` or `nan` in any case, with or without a sign. -/
def parse? (cs : List Char) : Option Binary64 :=
  match splitSign cs with
  | (negative, cs) =>
    match decimal? negative cs with
    | some x => some x
    | none =>
      let word := String.ofList (cs.map Char.toLower)
      if word = "inf" || word = "infinity" then some (.infinite negative)
      else if word = "nan" then some .nan
      else none

/-! ## Writing -/

/-- The decimals `n * 10 ^ k` next to a positive number that are read back as it: none, or the
nearest of them. The numbers that are read as `m * 2 ^ e` reach half a unit up and half a unit down,
a quarter where the mantissa is the least one; the ends belong to it if `m` is even. -/
def decimalAt (m : Nat) (e : Int) (k : Int) : Option Nat :=
  let unit := power 10 k * power 2 (2 - e)
  let scale := power 2 (e - 2) * power 10 (-k)
  let low := (4 * m - if m = leastMantissa && e > leastExponent then 1 else 2) * scale
  let high := (4 * m + 2) * scale
  let readBack (n : Nat) : Bool :=
    if m % 2 = 0 then low ≤ n * unit && n * unit ≤ high else low < n * unit && n * unit < high
  let n := 4 * m * scale / unit
  if readBack n then
    if readBack (n + 1) && (2 * n + 1) * unit ≤ 8 * m * scale then some (n + 1) else some n
  else if readBack (n + 1) then some (n + 1)
  else none

/-- The fewest digits that are read back as a positive number, and their power of ten. -/
def fewestDigits (m : Nat) (e : Int) : Nat × Int :=
  let hit := (List.range 660).findSome? (fun (i : Nat) =>
    let k : Int := 309 - (i : Int)
    (decimalAt m e k).map (·, k))
  hit.getD (m * power 2 e * power 5 (-e), min e 0)

/-- A decimal without a power of ten. -/
def positional (digits : Nat) (exponent : Int) : List Char :=
  let ds := Nat.toDigits 10 digits
  let places := (-exponent).toNat
  if 0 ≤ exponent then ds ++ List.replicate exponent.toNat '0'
  else
    let ds := List.replicate (places + 1 - ds.length) '0' ++ ds
    ds.take (ds.length - places) ++ '.' :: ds.drop (ds.length - places)

/-- The number in writing. -/
def text : Binary64 → List Char
  | .nan => ['N', 'a', 'N']
  | .infinite negative => signed negative ['i', 'n', 'f']
  | .finite negative m e =>
    if m = 0 then signed negative ['0']
    else
      let (digits, exponent) := fewestDigits m e
      signed negative (positional digits exponent)
where
  signed (negative : Bool) (cs : List Char) : List Char := if negative then '-' :: cs else cs

/-! ## Order -/

/-- Compares by value. The two zeros are equal, and what is no number comes last. -/
def compare : Binary64 → Binary64 → Ordering
  | .nan, .nan => .eq
  | .nan, _ => .gt
  | _, .nan => .lt
  | .infinite s, .infinite t => Ord.compare t s
  | .infinite s, .finite _ _ _ => if s then .lt else .gt
  | .finite _ _ _, .infinite t => if t then .gt else .lt
  | .finite s m e, .finite t n f =>
    let value (negative : Bool) (m : Nat) (e : Int) : Int :=
      let size : Int := (m * power 2 (e - leastExponent) : Nat)
      if negative then -size else size
    Ord.compare (value s m e) (value t n f)

end Binary64

end ForeignHandles
