import ForeignHandles.Checked
import ForeignHandles.Value.DataSequence
import ForeignHandles.Text.Quoted

/-!
  Values: arguments, constants, globals and instructions.

  What sets the sorts of value apart is in `ValueBody`; name, context and module are common to all.
  Only linked globals have a parent module. An alias forgets its aliasee when that is deleted.

  Each sort has a number at the boundary (`ValueKind.code`) and a printed form.
-/
namespace ForeignHandles

/-- The sorts of value. -/
inductive ValueKind where
  | argument | function | globalAlias | globalVariable
  | constantDataArray | constantInt | constantPointerNull | instruction
  deriving DecidableEq

namespace ValueKind

/-- The number of a sort at the boundary. -/
def code : ValueKind → UInt32
  | .argument => 0
  | .function => 1
  | .globalAlias => 2
  | .globalVariable => 3
  | .constantDataArray => 4
  | .constantInt => 5
  | .constantPointerNull => 6
  | .instruction => 7

/-- The name of a sort in diagnostics. -/
def name : ValueKind → String
  | .argument => "Argument"
  | .function => "Function"
  | .globalAlias => "GlobalAlias"
  | .globalVariable => "GlobalVariable"
  | .constantDataArray => "ConstantDataArray"
  | .constantInt => "ConstantInt"
  | .constantPointerNull => "ConstantPointerNull"
  | .instruction => "Instruction"

/-- Whether values of this sort live in a module under a name of their own. -/
def isGlobal : ValueKind → Bool
  | .globalVariable | .globalAlias | .function => true
  | _ => false

/-- Whether values of this sort are constants; addresses of globals are. -/
def isConstant : ValueKind → Bool
  | .argument | .instruction => false
  | _ => true

end ValueKind

/-- What a value is, by its sort. -/
inductive ValueBody where
  | argument (index : UInt32)
  | constantInt (bits : UInt32) (value : UInt64)
  | constantPointerNull
  | constantData (data : DataSequence)
  | globalVariable
  | globalAlias (aliasee : Handle .value)
  | function (arguments : List (Ref .value))
  | instruction (debugRecords : UInt32)

/-- The sort of a value. -/
def ValueBody.kind : ValueBody → ValueKind
  | .argument _ => .argument
  | .constantInt _ _ => .constantInt
  | .constantPointerNull => .constantPointerNull
  | .constantData _ => .constantDataArray
  | .globalVariable => .globalVariable
  | .globalAlias _ => .globalAlias
  | .function _ => .function
  | .instruction _ => .instruction

/-- A value of a context. -/
structure Value where
  context : Ref .context
  name : String
  parent : Handle .module := none
  body : ValueBody

namespace Value

def kind (v : Value) : ValueKind := v.body.kind

def isGlobal (v : Value) : Bool := v.kind.isGlobal

def isConstant (v : Value) : Bool := v.kind.isConstant

/-- Whether the value is a constant zero. -/
def isZero (v : Value) : Bool :=
  match v.body with
  | .constantInt _ value => value == 0
  | .constantPointerNull => true
  | .constantData data => data.isZero
  | _ => false

/-- The number of an integer constant. -/
def int? (v : Value) : Option UInt64 :=
  match v.body with
  | .constantInt _ value => some value
  | _ => none

/-- The place of an argument among those of its function. -/
def argumentIndex? (v : Value) : Option UInt32 :=
  match v.body with
  | .argument index => some index
  | _ => none

/-- The arguments of a function. -/
def arguments (v : Value) : List (Ref .value) :=
  match v.body with
  | .function arguments => arguments
  | _ => []

/-- What an alias stands for. -/
def aliasee (v : Value) : Handle .value :=
  match v.body with
  | .globalAlias aliasee => aliasee
  | _ => none

/-- The data of a constant array. -/
def data? (v : Value) : Option DataSequence :=
  match v.body with
  | .constantData data => some data
  | _ => none

/-- How many debug records an instruction has. -/
def debugRecords? (v : Value) : Option UInt32 :=
  match v.body with
  | .instruction debugRecords => some debugRecords
  | _ => none

/-- Attaches a debug record, which only instructions can have.  The counter has 32 bits, and an
instruction whose counter is full takes no more. -/
def attachDebugRecord (v : Value) : Except Fault Value :=
  match v.body with
  | .instruction debugRecords =>
    (checkedSum debugRecords 1).map (fun more => { v with body := .instruction more })
  | _ => .error .notAnInstruction

/-- Redirects an alias of `old`; leaves every other value alone. -/
def redirect (old : Ref .value) (new : Handle .value) (v : Value) : Value :=
  match v.body with
  | .globalAlias aliasee => if aliasee = some old then { v with body := .globalAlias new } else v
  | _ => v

/-! ## In print -/

/-- The value as an operand is written. -/
def text (v : Value) : String :=
  match v.body with
  | .constantInt bits value => "i" ++ toString bits ++ " " ++ toString value
  | .constantPointerNull => "ptr null"
  | .constantData data => data.text
  | .globalVariable | .globalAlias _ | .function _ => "ptr @" ++ v.name
  | .argument index => "%" ++ (if v.name.isEmpty then toString index else v.name)
  | .instruction _ => "%" ++ v.name

/-- The value in diagnostics. -/
def debugText (v : Value) : String :=
  "Value \x7b kind: " ++ v.kind.name ++ ", name: " ++ quote v.name ++ ", .. \x7d"

/-! ## What redirection keeps -/

theorem kind_redirect (old : Ref .value) (new : Handle .value) (v : Value) :
    (v.redirect old new).kind = v.kind := by
  unfold redirect kind
  split
  · rename_i aliasee h
    split <;> simp [ValueBody.kind, h]
  · rfl

/-! ## What an attached debug record leaves -/

/-- Attaching a debug record counts, and does nothing else: the sort stays, and so do name, context
and module.  What follows about a whole store needs no more than this. -/
theorem exists_of_attachDebugRecord {v w : Value} (h : v.attachDebugRecord = .ok w) :
    ∃ before after, v.body = .instruction before ∧
      w = { v with body := .instruction after } := by
  unfold attachDebugRecord at h
  split at h
  · rename_i before hbody
    cases hsum : checkedSum before 1 with
    | error e => simp [hsum, Except.map] at h
    | ok after =>
      simp only [hsum, Except.map, Except.ok.injEq] at h
      exact ⟨before, after, hbody, h.symm⟩
  · cases h

end Value

end ForeignHandles
