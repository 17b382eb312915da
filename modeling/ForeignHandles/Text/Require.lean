import ForeignHandles.Error
import ForeignHandles.Text.Boundary

/-!
  Text arguments that have to be UTF-8.

  A required text has at least one byte; an optional one may be empty. Both decline a null place
  with a length. Emptiness is looked at before the encoding.
-/
namespace ForeignHandles

/-- The bytes of an argument as text. -/
def decodeArgument (name : String) (bytes : List UInt8) : Except BoundaryError String :=
  (Utf8.decode bytes).mapError (.invalidUtf8 name)

/-- A text that must not be empty; `name` names the argument in the error. -/
def Input.required (name : String) (input : Input) : Except BoundaryError String :=
  match input.bytes? with
  | none => .error (.nullOrEmpty name)
  | some [] => .error (.nullOrEmpty name)
  | some bs => decodeArgument name bs

/-- A text that may be empty. -/
def Input.optional (name : String) (input : Input) : Except BoundaryError String :=
  match input.bytes? with
  | none => .error (.nullOrEmpty name)
  | some bs => decodeArgument name bs

/-- The text of an error that a caller makes from a message: no bytes read as empty text, and bytes
that are no UTF-8 are replaced. -/
def BoundaryError.ofInput (input : Input) : BoundaryError :=
  .text (Utf8.lossy (input.bytes?.getD []))

end ForeignHandles
