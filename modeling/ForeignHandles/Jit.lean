import ForeignHandles.Arena
import ForeignHandles.DebugStream
import ForeignHandles.Reply
import ForeignHandles.Text.Quoted
import ForeignHandles.Text.Require

/-!
  JIT sessions: dylibs, and the pools of interned symbol names.

  Every session has a pool. A pool has one entry for a name, with a count of the pointers to it;
  interning a name makes the entry if need be and a pointer. Entries that nothing points to stay
  until they are cleared, and a name interned in the meantime finds its old entry.

  Pointers are held by consumers (`pointers`) and by dylibs (`symbols`), one for every time a dylib
  defined the name. Removing a dylib, or disposing of its session, drops its pointers. A pool stays
  as long as anyone may point into it, longer than its session.
-/
namespace ForeignHandles

structure JitSession where
  pool : Ref .pool

/-- A dylib of a session, with the entries that its own pointers point to. -/
structure Dylib where
  session : Ref .session
  pool : Ref .pool
  name : String
  symbols : List (Ref .poolEntry) := []

/-- An interned name and the number of pointers to it. -/
structure PoolEntry where
  pool : Ref .pool
  name : String
  count : Nat := 0

/-- A counted pointer in the hands of a consumer. -/
structure SymbolPointer where
  entry : Ref .poolEntry

/-- The sessions and what belongs to them. -/
structure Jit where
  sessions : Arena .session JitSession := {}
  dylibs : Arena .dylib Dylib := {}
  pools : Arena .pool Unit := {}
  entries : Arena .poolEntry PoolEntry := {}
  pointers : Arena .symbolPointer SymbolPointer := {}

instance : Inhabited Jit := ⟨{}⟩

namespace Jit

/-! ## Pools -/

/-- The entries of a pool. -/
def entriesOf (j : Jit) (p : Ref .pool) : List (Ref .poolEntry × PoolEntry) :=
  j.entries.select (fun e => e.pool = p)

/-- The entry of a pool for a name. -/
def entry? (j : Jit) (p : Ref .pool) (name : String) : Handle .poolEntry :=
  j.entries.find? (fun e => e.pool = p && e.name == name)

/-- One more pointer to an entry. -/
def retain (j : Jit) (e : Ref .poolEntry) : Jit :=
  { j with entries := j.entries.modify e (fun x => { x with count := x.count + 1 }) }

/-- One pointer to an entry less. -/
def release (j : Jit) (e : Ref .poolEntry) : Jit :=
  { j with entries := j.entries.modify e (fun x => { x with count := x.count - 1 }) }

/-- The entry for a name, made if the pool has none, with one more pointer to it. -/
def internEntry (j : Jit) (p : Ref .pool) (name : String) : Ref .poolEntry × Jit :=
  match j.entry? p name with
  | some e => (e, j.retain e)
  | none =>
    let (e, entries) := j.entries.alloc { pool := p, name, count := 1 }
    (e, { j with entries })

/-- Hands out a pointer to an entry, which has been counted. -/
def handOut (j : Jit) (e : Ref .poolEntry) : Ref .symbolPointer × Jit :=
  let (r, pointers) := j.pointers.alloc { entry := e }
  (r, { j with pointers })

/-- Interns a name and hands out a pointer to it. -/
def intern (j : Jit) (p : Ref .pool) (name : String) : Ref .symbolPointer × Jit :=
  let (e, j) := j.internEntry p name
  j.handOut e

/-- Removes the entries of a pool that nothing points to. -/
def clearDeadEntries (j : Jit) (p : Ref .pool) : Jit :=
  { j with entries := j.entries.filter (fun _ e => e.pool ≠ p || 0 < e.count) }

/-! ## Pointers -/

/-- The entry that a pointer points to. -/
def entryOf? (j : Jit) (r : Ref .symbolPointer) : Option (Ref .poolEntry × PoolEntry) := do
  let e := (← j.pointers.get? r).entry
  return (e, ← j.entries.get? e)

/-- Hands out another pointer to the same entry. -/
def clonePointer (j : Jit) (r : Ref .symbolPointer) : Handle .symbolPointer × Jit :=
  match j.pointers.get? r with
  | none => (none, j)
  | some x =>
    let (r, j) := (j.retain x.entry).handOut x.entry
    (some r, j)

/-- Takes a pointer back. -/
def dropPointer (j : Jit) (r : Ref .symbolPointer) : Jit :=
  match j.pointers.get? r with
  | none => j
  | some x => { j.release x.entry with pointers := j.pointers.erase r }

/-- The pointer in diagnostics. -/
def pointerDebugText (e : PoolEntry) : String := "SymbolStringPtr(" ++ quote e.name ++ ")"

/-- The number of pointers to an entry. -/
def refCount (j : Jit) (h : Handle .poolEntry) : Nat :=
  ((h.bind j.entries.get?).map (·.count)).getD 0

/-! ## Dylibs -/

/-- The dylibs of a session, in creation order. -/
def dylibsOf (j : Jit) (s : Ref .session) : List (Ref .dylib × Dylib) :=
  j.dylibs.select (fun d => d.session = s)

/-- The dylib of a session with a name. -/
def dylib? (j : Jit) (s : Ref .session) (name : String) : Handle .dylib :=
  j.dylibs.find? (fun d => d.session = s && d.name == name)

/-- A new dylib, unless the session has one of that name. -/
def createDylib (j : Jit) (s : Ref .session) (pool : Ref .pool) (name : String) :
    Except HostError (Ref .dylib) × Jit :=
  match j.dylib? s name with
  | some _ => (.error (.duplicateDylib name), j)
  | none =>
    let (d, dylibs) := j.dylibs.alloc { session := s, pool, name }
    (.ok d, { j with dylibs })

/-- Defines a symbol in a dylib: the dylib keeps a pointer to its name, and another is handed
out. -/
def define (j : Jit) (d : Ref .dylib) (symbol : String) : Handle .symbolPointer × Jit :=
  match j.dylibs.get? d with
  | none => (none, j)
  | some x =>
    let (e, j) := j.internEntry x.pool symbol
    let j := j.retain e
    let j := { j with
      dylibs := j.dylibs.modify d (fun y => { y with symbols := y.symbols ++ [e] }) }
    let (r, j) := j.handOut e
    (some r, j)

/-- Removes a dylib and drops its pointers. -/
def discardDylib (j : Jit) (d : Ref .dylib) : Jit :=
  let symbols := ((j.dylibs.get? d).map (·.symbols)).getD []
  { symbols.foldl release j with dylibs := j.dylibs.erase d }

/-- Removes a dylib that the session owns. -/
def removeDylib (j : Jit) (s : Ref .session) (d : Ref .dylib) : Except HostError Unit × Jit :=
  if (j.dylibs.get? d).any (fun x => x.session = s) then (.ok (), j.discardDylib d)
  else (.error (.unknownDylib d), j)

/-! ## Sessions -/

/-- A new session with an empty pool. -/
def createSession (j : Jit) : Ref .session × Jit :=
  let (pool, pools) := j.pools.alloc ()
  let (s, sessions) := j.sessions.alloc { pool }
  (s, { j with pools, sessions })

/-- Disposes of a session and its dylibs. -/
def disposeSession (j : Jit) (h : Handle .session) : Jit :=
  match h with
  | none => j
  | some s =>
    let j := ((j.dylibsOf s).map (·.1)).foldl discardDylib j
    { j with sessions := j.sessions.erase s }

/-- The pool of a session. -/
def poolOf (j : Jit) (h : Handle .session) : Handle .pool :=
  (h.bind j.sessions.get?).map (·.pool)

/-- A new dylib under a name from outside. `place` says whether there is a place for the handle;
that is looked at first, and the place is set to null before anything else can go wrong. -/
def createDylibNamed (j : Jit) (h : Handle .session) (name : Input) (place : Bool) :
    Reply (Handle .dylib) × Jit :=
  if !place then (.refused (.nullOutParam "dylib"), j)
  else match h, j.poolOf h with
    | some s, some pool =>
      match name.required "name" with
      | .error e => (.failed place none e, j)
      | .ok name =>
        match j.createDylib s pool name with
        | (.error e, j) => (.failed place none (.host e), j)
        | (.ok d, j) => (.ok place (some d), j)
    | _, _ => (.failed place none (.nullOrEmpty "session"), j)

/-- Removes a dylib by handle. The session is looked at first. -/
def removeDylibHandle (j : Jit) (h : Handle .session) (dylib : Handle .dylib) :
    Except BoundaryError Unit × Jit :=
  match h, dylib with
  | none, _ => (.error (.nullOrEmpty "session"), j)
  | some _, none => (.error (.nullOrEmpty "dylib"), j)
  | some s, some d =>
    let (outcome, j) := j.removeDylib s d
    (outcome.mapError .host, j)

/-! ## In print -/

/-- One entry in a dump. -/
def entryText (e : PoolEntry) : String := e.name ++ ": " ++ toString e.count ++ "\n"

/-- A pool in print: a line for each entry, sorted by name. -/
def poolText (j : Jit) (p : Ref .pool) : String :=
  let entries := (j.entriesOf p).map (·.2)
  String.join ((entries.mergeSort (fun a b => decide (a.name ≤ b.name))).map entryText)

def poolIsEmpty (j : Jit) (h : Handle .pool) : Bool := h.all (fun p => (j.entriesOf p).isEmpty)

/-- A pool as a message; none for null. -/
def poolMessage (j : Jit) (h : Handle .pool) : Option Message :=
  h.map (fun p => .ofString (j.poolText p))

/-- What marks a pool's dump in the debugger channel. -/
def debugMarker : String := "nb_symbol_string_pool_write_debug_representation"

/-- The lines that the debugger channel is sent for a pool; none for null. -/
def poolDebugLines (j : Jit) (h : Handle .pool) : List (List Char) :=
  match h with
  | none => []
  | some p =>
    DebugStream.linesOf
      ("+" ++ debugMarker ++ "\n" ++ j.poolText p ++ "-" ++ debugMarker ++ "\n").toList

end Jit

end ForeignHandles
