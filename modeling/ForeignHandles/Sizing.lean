import ForeignHandles.Error

/-!
  Filling storage that a caller provides.

  The caller asks for a count, provides storage and asks for the fill. The fill looks at the
  capacity before it writes, so storage that is too small is left as it was. A result is an outcome
  together with the storage afterwards.
-/
namespace ForeignHandles

variable {α : Type}

/-- Whether `required` elements fit. -/
def checkCapacity (name : String) (provided required : Nat) : Except BoundaryError Unit :=
  if provided < required then .error (.bufferTooSmall name required provided) else .ok ()

/-- Storage with its first elements overwritten by `items`. -/
def overwrite (dest items : List α) : List α := items ++ dest.drop items.length

/-- Fills storage that carries its own length. -/
def fillSlice (name : String) (dest items : List α) : Except BoundaryError Unit × List α :=
  match checkCapacity name dest.length items.length with
  | .error e => (.error e, dest)
  | .ok () => (.ok (), overwrite dest items)

/-- Fills storage that is given as a place and a capacity. The null place will do when there is
nothing to write. -/
def fillArray (name : String) (dest : Option (List α)) (capacity : Nat) (items : List α) :
    Except BoundaryError Unit × Option (List α) :=
  match checkCapacity name capacity items.length with
  | .error e => (.error e, dest)
  | .ok () =>
    if items.isEmpty then (.ok (), dest)
    else match dest with
      | none => (.error (.nullOutParam name), none)
      | some d => (.ok (), some (overwrite d items))

/-- A capacity that comes as a signed number. -/
def capacityOfInt (name : String) (length : Int32) : Except BoundaryError Nat :=
  if length.toInt < 0 then .error (.outOfRange name length.toInt) else .ok length.toInt.toNat

theorem length_overwrite (dest items : List α) (h : items.length ≤ dest.length) :
    (overwrite dest items).length = dest.length := by
  simp [overwrite]
  omega

end ForeignHandles
