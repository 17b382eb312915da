import ForeignHandles.Error
import ForeignHandles.Text.Quoted

/-!
  Modules, and what they own besides their globals: comdats and named metadata.

  A module lists its linked globals by sort, each list in the order in which they were added.
  Comdats and named metadata know their module.
-/
namespace ForeignHandles

/-- A module of a context. -/
structure Module where
  context : Ref .context
  name : String
  sourceFileName : String
  globalVariables : List (Ref .value) := []
  aliases : List (Ref .value) := []
  functions : List (Ref .value) := []

namespace Module

/-- The linked globals: variables, aliases, functions. -/
def linked (m : Module) : List (Ref .value) :=
  m.globalVariables ++ m.aliases ++ m.functions

/-- The linked globals in the order in which they go with the module: aliases first. -/
def owned (m : Module) : List (Ref .value) :=
  m.aliases ++ m.globalVariables ++ m.functions

/-- Takes a value off all lists. -/
def forget (m : Module) (v : Ref .value) : Module :=
  { m with
    globalVariables := m.globalVariables.erase v
    aliases := m.aliases.erase v
    functions := m.functions.erase v }

/-- The alias listed after this one. -/
def aliasAfter (m : Module) (v : Ref .value) : Handle .value :=
  match m.aliases.dropWhile (· ≠ v) with
  | [] => none
  | _ :: rest => rest.head?

end Module

/-! ## Comdats -/

/-- Which of several comdats of one name is kept. -/
inductive SelectionKind where
  | any | exactMatch | largest | noDeduplicate | sameSize
  deriving DecidableEq

namespace SelectionKind

/-- The kinds in order; the number of a kind is its place. -/
def all : List SelectionKind := [.any, .exactMatch, .largest, .noDeduplicate, .sameSize]

def code : SelectionKind → UInt32
  | .any => 0
  | .exactMatch => 1
  | .largest => 2
  | .noDeduplicate => 3
  | .sameSize => 4

/-- The kind of a number. -/
def ofCode? (n : UInt32) : Option SelectionKind := all[n.toNat]?

def name : SelectionKind → String
  | .any => "Any"
  | .exactMatch => "ExactMatch"
  | .largest => "Largest"
  | .noDeduplicate => "NoDeduplicate"
  | .sameSize => "SameSize"

theorem ofCode?_code (k : SelectionKind) : ofCode? k.code = some k := by cases k <;> rfl

end SelectionKind

/-- A comdat of a module. -/
structure Comdat where
  module : Ref .module
  name : String
  selection : SelectionKind

/-- The comdat in diagnostics. -/
def Comdat.debugText (c : Comdat) : String :=
  "Comdat \x7b name: " ++ quote c.name ++ ", selection: Cell \x7b value: " ++ c.selection.name
    ++ " \x7d \x7d"

/-- A place in the comdats of a module. -/
structure ComdatCursor where
  module : Ref .module
  index : Nat := 0

/-! ## Named metadata -/

/-- A named list of metadata in a module. -/
structure NamedMetadata where
  parent : Ref .module
  name : String
  operands : List (Ref .metadata) := []

namespace NamedMetadata

/-- The operand at an index. -/
def operand (n : NamedMetadata) (index : Nat) : Except Fault (Ref .metadata) :=
  match n.operands[index]? with
  | some target => .ok target
  | none => .error (.indexOutOfBounds n.operands.length index)

/-- The list with another operand at an index. -/
def setOperand (n : NamedMetadata) (index : Nat) (target : Ref .metadata) :
    Except Fault NamedMetadata :=
  if index < n.operands.length then .ok { n with operands := n.operands.set index target }
  else .error (.indexOutOfBounds n.operands.length index)

end NamedMetadata

end ForeignHandles
