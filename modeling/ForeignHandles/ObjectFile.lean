import ForeignHandles.Error

/-!
  Object files and cursors over them.

  An object file is built item by item and never changes afterwards. A cursor is a file and a
  position, so it outlives the handle it was made from and knows nothing of other cursors. It moves
  forward one element at a time and stops behind the last one. A relocation cursor stays on the
  section on which it was made.
-/
namespace ForeignHandles

/-- A place in a section to be patched. -/
structure Relocation where
  offset : UInt64
  kind : UInt32
  symbol : Option Nat
  deriving DecidableEq

structure Section where
  name : String
  address : UInt64
  contents : List UInt8
  relocations : List Relocation := []
  deriving DecidableEq

structure Symbol where
  name : String
  address : UInt64
  sectionIndex : Option Nat
  deriving DecidableEq

/-- The sections and the symbols of a file, in the order in which they were added. -/
structure ObjectFile where
  sections : List Section := []
  symbols : List Symbol := []
  deriving DecidableEq

/-! ## Building -/

/-- What a file is built from. A relocation belongs to the section added last before it. -/
inductive ObjectItem where
  | addSection (name : String) (address : UInt64) (contents : List UInt8)
  | addRelocation (relocation : Relocation)
  | addSymbol (symbol : Symbol)

namespace ObjectFile

/-- The sections with a relocation added to the last one. -/
def relocateLast (r : Relocation) : List Section → Except Fault (List Section)
  | [] => .error .relocationWithoutSection
  | [x] => .ok [{ x with relocations := x.relocations ++ [r] }]
  | x :: xs => (relocateLast r xs).map (x :: ·)

/-- Adds one item. -/
def add (f : ObjectFile) : ObjectItem → Except Fault ObjectFile
  | .addSection name address contents =>
    .ok { f with sections := f.sections ++ [{ name, address, contents }] }
  | .addRelocation r => (relocateLast r f.sections).map (fun sections => { f with sections })
  | .addSymbol symbol => .ok { f with symbols := f.symbols ++ [symbol] }

/-- The file of the given items. -/
def build (items : List ObjectItem) : Except Fault ObjectFile := items.foldlM add {}

/-- The relocations of a section; none if there is no such section. -/
def relocationsOf (f : ObjectFile) (position : Nat) : List Relocation :=
  ((f.sections[position]?).map (·.relocations)).getD []

end ObjectFile

/-! ## Cursors -/

/-- The position after one step in a list of the given length. -/
def advancePosition (length position : Nat) : Nat :=
  if position < length then position + 1 else position

/-- A place in the sections of a file. -/
structure SectionCursor where
  file : ObjectFile
  position : Nat := 0

/-- A place in the symbols of a file. -/
structure SymbolCursor where
  file : ObjectFile
  position : Nat := 0

/-- A place in the relocations of one section of a file. -/
structure RelocationCursor where
  file : ObjectFile
  sectionIndex : Nat
  position : Nat := 0

namespace SectionCursor

def current? (k : SectionCursor) : Option Section := k.file.sections[k.position]?

def atEnd (k : SectionCursor) : Bool := k.file.sections.length ≤ k.position

def next (k : SectionCursor) : SectionCursor :=
  { k with position := advancePosition k.file.sections.length k.position }

/-- A cursor in the relocations of the section here, at the given position. -/
def relocationsAt (k : SectionCursor) (position : Nat) : RelocationCursor :=
  { file := k.file, sectionIndex := k.position, position }

end SectionCursor

namespace SymbolCursor

def current? (k : SymbolCursor) : Option Symbol := k.file.symbols[k.position]?

def atEnd (k : SymbolCursor) : Bool := k.file.symbols.length ≤ k.position

def next (k : SymbolCursor) : SymbolCursor :=
  { k with position := advancePosition k.file.symbols.length k.position }

end SymbolCursor

namespace RelocationCursor

/-- The relocations that the cursor goes through. -/
def relocations (k : RelocationCursor) : List Relocation := k.file.relocationsOf k.sectionIndex

def current? (k : RelocationCursor) : Option Relocation := k.relocations[k.position]?

def atEnd (k : RelocationCursor) : Bool := k.relocations.length ≤ k.position

def next (k : RelocationCursor) : RelocationCursor :=
  { k with position := advancePosition k.relocations.length k.position }

/-- The name of the symbol that the relocation here refers to. -/
def symbolName? (k : RelocationCursor) : Option String := do
  let index ← (← k.current?).symbol
  return (← k.file.symbols[index]?).name

end RelocationCursor

theorem advancePosition_le {length position : Nat} (h : position ≤ length) :
    advancePosition length position ≤ length := by
  unfold advancePosition
  split <;> omega

theorem advancePosition_eq_min (length position : Nat) (h : position ≤ length) :
    advancePosition length position = min length (position + 1) := by
  unfold advancePosition
  split <;> omega

end ForeignHandles
