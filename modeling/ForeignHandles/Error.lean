import ForeignHandles.Ref
import ForeignHandles.Attribute.Argument
import ForeignHandles.Text.Utf8

/-!
  What can go wrong, and how it is worded.

  There are two sorts. A `Fault` is a broken promise of the caller inside the host (an index past
  the end, an attribute kind that takes another argument): the host stops there. An error is an
  answer: the cache, the host and the boundary each have their own, and `BoundaryError` takes in
  the other two. Every wording is in a `message` function here and nowhere else.

  The text for a dylib that is not owned names it. How identities are written is up to whoever
  prints them, so that function takes the spelling as an argument.
-/
namespace ForeignHandles

/-! ## Faults -/

/-- The ways in which a host operation can be misused. -/
inductive Fault where
  | elementWidth (bits : UInt32)
  | raggedData
  | notAnInstruction
  | indexOutOfBounds (length index : Nat)
  | attributeKind (kind : UInt32)
  | attributeArgument (kind : UInt32) (expected : AttributeArgument)
  | relocationWithoutSection
  | fieldTooWide
  | additionOverflow
  | subtractionOverflow
  | shiftOverflow
  deriving DecidableEq

/-- The wording of a fault. -/
def Fault.message : Fault → String
  | .elementWidth bits => "unsupported element width " ++ toString bits
  | .raggedData => "raw data is not a whole number of elements"
  | .notAnInstruction => "debug records can only be attached to instructions"
  | .indexOutOfBounds length index =>
    "index out of bounds: the len is " ++ toString length ++ " but the index is " ++ toString index
  | .attributeKind kind => "attribute kind " ++ toString kind ++ " out of range"
  | .attributeArgument kind expected =>
    "attribute kind " ++ toString kind ++ " does not take a " ++ expected.name ++ " argument"
  | .relocationWithoutSection => "relocation requires a section"
  | .fieldTooWide => "bit field exceeds 64 bits"
  | .additionOverflow => "attempt to add with overflow"
  | .subtractionOverflow => "attempt to subtract with overflow"
  | .shiftOverflow => "attempt to shift left with overflow"

/-! ## Errors -/

/-- The answers of a value cache that declines. -/
inductive CacheError where
  | alreadyMapped (existing : Int64)
  | callbackInProgress
  deriving DecidableEq

/-- The wording of a cache error. -/
def CacheError.message : CacheError → String
  | .alreadyMapped existing => "value is already cached with handle " ++ toString existing.toInt
  | .callbackInProgress => "value cache cannot be used while one of its callbacks is running"

/-- The answers of the host when it declines. -/
inductive HostError where
  | duplicateDylib (name : String)
  | unknownDylib (dylib : Ref .dylib)
  | duplicateGlobal (name : String)
  | invalidAliasee (name : String)
  /-- The module that should own a new global is gone. -/
  | unknownModule
  deriving DecidableEq

/-- The wording of a host error; `written` spells the identity of a dylib. -/
def HostError.message (written : Ref .dylib → String) : HostError → String
  | .duplicateDylib name => "JIT dylib '" ++ name ++ "' already exists in this session"
  | .unknownDylib dylib => "JIT dylib '" ++ written dylib ++ "' is not owned by this session"
  | .duplicateGlobal name => "global '" ++ name ++ "' is already defined in this module"
  | .invalidAliasee name => "aliasee of '" ++ name ++ "' must be a global value"
  | .unknownModule => "module is not owned by any context"

/-- The answers at the boundary. -/
inductive BoundaryError where
  | nullOrEmpty (name : String)
  | nullOutParam (name : String)
  | outOfRange (name : String) (value : Int)
  | bufferTooSmall (name : String) (required provided : Nat)
  | unsupported (what : String)
  | invalidUtf8 (name : String) (source : Utf8.DecodeError)
  | cache (source : CacheError)
  | host (source : HostError)
  | text (text : String)
  deriving DecidableEq

/-- The wording of a boundary error. -/
def BoundaryError.message (written : Ref .dylib → String) : BoundaryError → String
  | .nullOrEmpty name => name ++ " is null or empty"
  | .nullOutParam name => "out parameter '" ++ name ++ "' is null"
  | .outOfRange name value => name ++ " value " ++ toString value ++ " is out of range"
  | .bufferTooSmall name required provided =>
    name ++ " array is too small: " ++ toString required ++ " elements required, "
      ++ toString provided ++ " provided"
  | .unsupported what => what ++ " is not supported by this build"
  | .invalidUtf8 name source => name ++ " is not valid UTF-8: " ++ source.message
  | .cache source => source.message
  | .host source => source.message written
  | .text s => s

end ForeignHandles
