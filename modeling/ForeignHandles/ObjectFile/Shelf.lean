import ForeignHandles.Arena
import ForeignHandles.ObjectFile
import ForeignHandles.Text.Boundary

/-!
  Object files and cursors as callers hold them.

  A shelf has every file and cursor that a caller has not given back. Opening, cloning, moving and
  giving back work on one of them. Queries answer null or zero for a null handle and for a cursor
  behind the last element.
-/
namespace ForeignHandles

/-- The files and cursors in the hands of callers. -/
structure Shelf where
  files : Arena .objectFile ObjectFile := {}
  sections : Arena .sectionCursor SectionCursor := {}
  symbols : Arena .symbolCursor SymbolCursor := {}
  relocations : Arena .relocationCursor RelocationCursor := {}

instance : Inhabited Shelf := ⟨{}⟩

namespace Shelf

/-! ## Files -/

def file? (s : Shelf) (h : Handle .objectFile) : Option ObjectFile := h.bind s.files.get?

/-- Hands out a file. -/
def addFile (s : Shelf) (f : ObjectFile) : Ref .objectFile × Shelf :=
  let (r, files) := s.files.alloc f
  (r, { s with files })

/-- Takes a file back. Cursors over it are not touched. -/
def dropFile (s : Shelf) (r : Ref .objectFile) : Shelf := { s with files := s.files.erase r }

/-! ## Section cursors -/

def section? (s : Shelf) (h : Handle .sectionCursor) : Option SectionCursor :=
  h.bind s.sections.get?

/-- Hands out a section cursor, if there is one to hand out. -/
def addSection (s : Shelf) (k : Option SectionCursor) : Handle .sectionCursor × Shelf :=
  match k with
  | none => (none, s)
  | some k =>
    let (r, sections) := s.sections.alloc k
    (some r, { s with sections })

def openSections (s : Shelf) (h : Handle .objectFile) : Handle .sectionCursor × Shelf :=
  s.addSection ((s.file? h).map (fun file => { file }))

def cloneSection (s : Shelf) (h : Handle .sectionCursor) : Handle .sectionCursor × Shelf :=
  s.addSection (s.section? h)

def moveSection (s : Shelf) (h : Handle .sectionCursor) : Shelf :=
  match h with
  | none => s
  | some r => { s with sections := s.sections.modify r (·.next) }

def closeSection (s : Shelf) (h : Handle .sectionCursor) : Shelf :=
  match h with
  | none => s
  | some r => { s with sections := s.sections.erase r }

/-- Whether there is no section here. -/
def sectionAtEnd (s : Shelf) (h : Handle .sectionCursor) : Bool := (s.section? h).all (·.atEnd)

def sectionName (s : Shelf) (h : Handle .sectionCursor) : Option String :=
  ((s.section? h).bind (·.current?)).bind (fun x => lendText x.name)

def sectionAddress (s : Shelf) (h : Handle .sectionCursor) : UInt64 :=
  (((s.section? h).bind (·.current?)).map (·.address)).getD 0

def sectionContents (s : Shelf) (h : Handle .sectionCursor) : Option (List UInt8) :=
  ((s.section? h).bind (·.current?)).bind (fun x => lend x.contents)

/-! ## Symbol cursors -/

def symbol? (s : Shelf) (h : Handle .symbolCursor) : Option SymbolCursor := h.bind s.symbols.get?

/-- Hands out a symbol cursor, if there is one to hand out. -/
def addSymbol (s : Shelf) (k : Option SymbolCursor) : Handle .symbolCursor × Shelf :=
  match k with
  | none => (none, s)
  | some k =>
    let (r, symbols) := s.symbols.alloc k
    (some r, { s with symbols })

def openSymbols (s : Shelf) (h : Handle .objectFile) : Handle .symbolCursor × Shelf :=
  s.addSymbol ((s.file? h).map (fun file => { file }))

def cloneSymbol (s : Shelf) (h : Handle .symbolCursor) : Handle .symbolCursor × Shelf :=
  s.addSymbol (s.symbol? h)

def moveSymbol (s : Shelf) (h : Handle .symbolCursor) : Shelf :=
  match h with
  | none => s
  | some r => { s with symbols := s.symbols.modify r (·.next) }

def closeSymbol (s : Shelf) (h : Handle .symbolCursor) : Shelf :=
  match h with
  | none => s
  | some r => { s with symbols := s.symbols.erase r }

/-- Whether there is no symbol here. -/
def symbolAtEnd (s : Shelf) (h : Handle .symbolCursor) : Bool := (s.symbol? h).all (·.atEnd)

def symbolName (s : Shelf) (h : Handle .symbolCursor) : Option String :=
  ((s.symbol? h).bind (·.current?)).bind (fun x => lendText x.name)

def symbolAddress (s : Shelf) (h : Handle .symbolCursor) : UInt64 :=
  (((s.symbol? h).bind (·.current?)).map (·.address)).getD 0

/-! ## Relocation cursors -/

def relocation? (s : Shelf) (h : Handle .relocationCursor) : Option RelocationCursor :=
  h.bind s.relocations.get?

/-- Hands out a relocation cursor, if there is one to hand out. -/
def addRelocation (s : Shelf) (k : Option RelocationCursor) : Handle .relocationCursor × Shelf :=
  match k with
  | none => (none, s)
  | some k =>
    let (r, relocations) := s.relocations.alloc k
    (some r, { s with relocations })

/-- A cursor in the relocations of the section at a section cursor. -/
def openRelocations (s : Shelf) (h : Handle .sectionCursor) : Handle .relocationCursor × Shelf :=
  s.addRelocation ((s.section? h).map (·.relocationsAt 0))

def cloneRelocation (s : Shelf) (h : Handle .relocationCursor) :
    Handle .relocationCursor × Shelf :=
  s.addRelocation (s.relocation? h)

def moveRelocation (s : Shelf) (h : Handle .relocationCursor) : Shelf :=
  match h with
  | none => s
  | some r => { s with relocations := s.relocations.modify r (·.next) }

def closeRelocation (s : Shelf) (h : Handle .relocationCursor) : Shelf :=
  match h with
  | none => s
  | some r => { s with relocations := s.relocations.erase r }

/-- Whether there is no relocation here. -/
def relocationAtEnd (s : Shelf) (h : Handle .relocationCursor) : Bool :=
  (s.relocation? h).all (·.atEnd)

def relocationSymbol (s : Shelf) (h : Handle .relocationCursor) : Option String :=
  ((s.relocation? h).bind (·.symbolName?)).bind lendText

def relocationOffset (s : Shelf) (h : Handle .relocationCursor) : UInt64 :=
  (((s.relocation? h).bind (·.current?)).map (·.offset)).getD 0

def relocationKind (s : Shelf) (h : Handle .relocationCursor) : UInt32 :=
  (((s.relocation? h).bind (·.current?)).map (·.kind)).getD 0

end Shelf

end ForeignHandles
