import ForeignHandles.Text.Ranges

/-!
  Blank characters, as the Unicode property `White_Space` lists them, and trimming.
-/
namespace ForeignHandles

/-- The characters with the property `White_Space`. -/
def blankRanges : CharRanges :=
  #[(0x9, 0xD), (0x20, 0x20), (0x85, 0x85), (0xA0, 0xA0), (0x1680, 0x1680), (0x2000, 0x200A),
   (0x2028, 0x2029), (0x202F, 0x202F), (0x205F, 0x205F), (0x3000, 0x3000)]

/-- Whether a character is blank. -/
def isBlank (c : Char) : Bool := blankRanges.holds c

/-- Drops blanks from both ends. -/
def trimBlanks (cs : List Char) : List Char :=
  ((cs.dropWhile isBlank).reverse.dropWhile isBlank).reverse

end ForeignHandles
