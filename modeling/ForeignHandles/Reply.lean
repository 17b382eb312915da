import ForeignHandles.Error

/-!
  Answers that go to a place of the caller.

  Some operations report a failure as their result and everything else through a place that the
  caller names, which may be missing. A `Reply` has both: how the operation went, and what the place
  holds afterwards if it was written to.
-/
namespace ForeignHandles

/-- How an operation went, and what it wrote to the caller's place. -/
structure Reply (α : Type) where
  outcome : Except BoundaryError Unit
  written : Option α

namespace Reply

variable {α : Type}

/-- Success: the answer goes to the place, if there is one. -/
def ok (place : Bool) (x : α) : Reply α := ⟨.ok (), if place then some x else none⟩

/-- Failure of an operation that has cleared the place first, if there is one. -/
def failed (place : Bool) (cleared : α) (e : BoundaryError) : Reply α :=
  ⟨.error e, if place then some cleared else none⟩

/-- Failure of an operation that has not touched the place. -/
def refused (e : BoundaryError) : Reply α := ⟨.error e, none⟩

end Reply

end ForeignHandles
