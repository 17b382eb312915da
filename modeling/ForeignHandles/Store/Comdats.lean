import ForeignHandles.Store
import ForeignHandles.Text.Require

/-!
  The comdats of a module: a map from names to selection kinds, in insertion order.

  Putting a name that is there keeps the comdat and its place and sets its kind. Names from outside
  have to be text and not empty, and kinds have to be known; otherwise nothing happens.

  A cursor is a place in that order. It moves on only while it is within the comdats, so it can
  reach the place behind the last one and stay there; a comdat added later appears at that place.
-/
namespace ForeignHandles.Store

/-- The comdats of a module, in insertion order. -/
def comdatsOf (s : Store) (m : Ref .module) : List (Ref .comdat × Comdat) :=
  s.comdats.select (fun x => x.module = m)

/-- The comdat of a module with a name. -/
def comdatNamed? (s : Store) (m : Ref .module) (name : String) : Handle .comdat :=
  s.comdats.find? (fun x => x.module = m && x.name == name)

/-- Sets the kind of a comdat, which is added if the module has none of that name. -/
def putComdat (s : Store) (m : Ref .module) (name : String) (selection : SelectionKind) :
    Ref .comdat × Store :=
  match s.comdatNamed? m name with
  | some x => (x, { s with comdats := s.comdats.modify x (fun y => { y with selection }) })
  | none =>
    let (x, comdats) := s.comdats.alloc { module := m, name, selection }
    (x, { s with comdats })

/-- Removes a comdat of this module; does nothing to one of another module or one that is gone. -/
def removeComdat (s : Store) (m : Ref .module) (x : Ref .comdat) : Store :=
  if (s.comdats.get? x).any (fun y => y.module = m) then { s with comdats := s.comdats.erase x }
  else s

/-- Removes all comdats of a module. -/
def clearComdats (s : Store) (m : Ref .module) : Store :=
  { s with comdats := s.comdats.filter (fun _ x => x.module ≠ m) }

/-! ## Handles and names from outside -/

/-- The number of comdats of a module. -/
def comdatCount (s : Store) (h : Handle .module) : UInt32 :=
  match h with
  | some m => count32 (s.comdatsOf m).length
  | none => 0

def findComdat (s : Store) (h : Handle .module) (name : Input) : Handle .comdat :=
  match h, name.required "name" with
  | some m, .ok name => s.comdatNamed? m name
  | _, _ => none

def insertOrUpdateComdat (s : Store) (h : Handle .module) (name : Input) (kind : UInt32) :
    Handle .comdat × Store :=
  match h, name.required "name", SelectionKind.ofCode? kind with
  | some m, .ok name, some selection =>
    let (x, s) := s.putComdat m name selection
    (some x, s)
  | _, _, _ => (none, s)

def dropComdat (s : Store) (h : Handle .module) (x : Handle .comdat) : Store :=
  match h, x with
  | some m, some x => s.removeComdat m x
  | _, _ => s

def dropAllComdats (s : Store) (h : Handle .module) : Store :=
  match h with
  | some m => s.clearComdats m
  | none => s

def comdatName (s : Store) (h : Handle .comdat) : Option String :=
  (s.comdat? h).bind (fun x => lendText x.name)

def comdatKindCode (s : Store) (h : Handle .comdat) : UInt32 :=
  ((s.comdat? h).map (·.selection.code)).getD invalidIndex

/-! ## Cursors -/

/-- A cursor at the first comdat of a module. -/
def beginComdats (s : Store) (h : Handle .module) : Handle .comdatCursor × Store :=
  match h with
  | none => (none, s)
  | some m =>
    let (k, comdatCursors) := s.comdatCursors.alloc { module := m }
    (some k, { s with comdatCursors })

/-- The comdat at a cursor. -/
def comdatAt (s : Store) (h : Handle .comdatCursor) : Handle .comdat := do
  let k ← h.bind s.comdatCursors.get?
  ((s.comdatsOf k.module)[k.index]?).map (·.1)

/-- Moves a cursor on; says whether there is a comdat at its new place. -/
def moveComdatCursor (s : Store) (h : Handle .comdatCursor) : Bool × Store :=
  match h with
  | none => (false, s)
  | some k =>
    let moved := { s with
      comdatCursors := s.comdatCursors.modify k (fun x =>
        if x.index < (s.comdatsOf x.module).length then { x with index := x.index + 1 } else x) }
    ((moved.comdatAt h).isSome, moved)

/-- Moves a cursor back to the first comdat. -/
def resetComdatCursor (s : Store) (h : Handle .comdatCursor) : Store :=
  match h with
  | none => s
  | some k =>
    { s with comdatCursors := s.comdatCursors.modify k (fun x => { x with index := 0 }) }

def disposeComdatCursor (s : Store) (h : Handle .comdatCursor) : Store :=
  match h with
  | none => s
  | some k => { s with comdatCursors := s.comdatCursors.erase k }

end ForeignHandles.Store
