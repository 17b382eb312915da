/-!
  Classes of characters, as tables of ranges.
-/
namespace ForeignHandles

/-- Ranges of character numbers, both ends included, in ascending order. -/
abbrev CharRanges := Array (Nat × Nat)

/-- Whether one of the ranges holds the character. -/
def CharRanges.holds (ranges : CharRanges) (c : Char) : Bool :=
  ranges.any (fun r => r.1 ≤ c.toNat && c.toNat ≤ r.2)

end ForeignHandles
