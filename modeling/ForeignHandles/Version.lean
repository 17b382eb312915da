/-!
  Versions of four 16-bit fields in one 64-bit word.

  The fields stand side by side, the major number in the highest bits, so that comparing words
  compares versions field by field. The lowest bit of the revision marks builds that are no
  releases; the release identity is the version without that mark.
-/
namespace ForeignHandles

/-- A version, as the word that holds its fields. -/
structure Version where
  bits : BitVec 64
  deriving DecidableEq

namespace Version

/-- The version with the given fields. -/
def ofFields (major minor build revision : BitVec 16) : Version :=
  ⟨major ++ minor ++ build ++ revision⟩

/-- The version with the given fields, where the mark in the revision is set from `ci`. -/
def ofKind (major minor build revision : BitVec 16) (ci : Bool) : Version :=
  ofFields major minor build ((revision &&& ~~~1#16) ||| (BitVec.ofBool ci).setWidth 16)

def major (v : Version) : BitVec 16 := v.bits.extractLsb' 48 16
def minor (v : Version) : BitVec 16 := v.bits.extractLsb' 32 16
def build (v : Version) : BitVec 16 := v.bits.extractLsb' 16 16
def revision (v : Version) : BitVec 16 := v.bits.extractLsb' 0 16

/-- Whether the build is marked as no release. -/
def isCi (v : Version) : Bool := v.bits &&& 1#64 == 1#64

/-- Whether the build is a release. -/
def isRelease (v : Version) : Bool := !v.isCi

/-- The version without the mark. -/
def releaseIdentity (v : Version) : Version := ⟨v.bits &&& ~~~1#64⟩

/-- A number that orders versions by their release identity. -/
def ordered (v : Version) : BitVec 64 := v.bits >>> 1

/-- The order of versions is the order of their words. -/
def compare (v w : Version) : Ordering := Ord.compare v.bits.toNat w.bits.toNat

/-- The four fields in decimal, with points between them. -/
def text (v : Version) : String :=
  toString v.major.toNat ++ "." ++ toString v.minor.toNat ++ "." ++ toString v.build.toNat ++ "."
    ++ toString v.revision.toNat

/-- The version of this library: 0.1.0, not a release. -/
def current : Version := ofKind 0 1 0 0 true

/-- The three public fields of `current`. -/
def currentText : String := "0.1.0"

end Version

end ForeignHandles
