/-!
  Identities of the objects that cross the boundary.

  An object is known to the outside by its kind and a number. The kind is part of the type, so a
  reference to a value cannot be passed where metadata is wanted. Numbers are handed out in
  creation order and never a second time, so two references are equal exactly when they name the
  same object, whether or not that object is still there.

  A `Handle` is what a caller passes: a reference, or nothing at all (the null handle). Null is the
  default, and every query that takes a handle has a neutral answer for it.
-/
namespace ForeignHandles

/-- The kinds of object that callers can hold. -/
inductive Kind where
  | context | module | value | metadata | namedMetadata | comdat | comdatCursor | attribute
  | observer | cache
  | objectFile | sectionCursor | symbolCursor | relocationCursor
  | session | dylib | pool | poolEntry | symbolPointer
  deriving DecidableEq

/-- The identity of one object of kind `k`. -/
structure Ref (k : Kind) where
  index : Nat
  deriving DecidableEq

/-- A reference that may be null. -/
abbrev Handle (k : Kind) := Option (Ref k)

namespace Handle

variable {k : Kind}

/-- The handle that names nothing. -/
def null : Handle k := none

/-- Whether the handle names nothing. -/
def isNull (h : Handle k) : Bool := h.isNone

/-- How a null handle to a pointee of the given name is written in diagnostics. -/
def nullText (pointee : String) : String := "Opaque<" ++ pointee ++ ">(0x0)"

end Handle

/-! ## Truth values at the boundary -/

/-- A truth value as a 32-bit integer: one for true, zero for false. -/
def cBool (b : Bool) : Int32 := if b then 1 else 0

/-- Every integer but zero reads as true. -/
def ofCBool (n : Int32) : Bool := n != 0

/-- What index and kind queries answer when there is nothing to report: the largest 32-bit
number. -/
def invalidIndex : UInt32 := 0xFFFFFFFF

/-- A count as a 32-bit number; one that does not fit is reported as the largest. -/
def count32 (n : Nat) : UInt32 := if n < 4294967296 then UInt32.ofNat n else invalidIndex

theorem toNat_count32 {n : Nat} (h : n < 4294967296) : (count32 n).toNat = n := by
  rw [count32, if_pos h]
  exact UInt32.toNat_ofNat_of_lt' h

end ForeignHandles
