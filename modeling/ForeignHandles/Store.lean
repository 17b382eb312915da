import ForeignHandles.Arena
import ForeignHandles.Attribute
import ForeignHandles.Metadata
import ForeignHandles.Module
import ForeignHandles.Text.Boundary

/-!
  The objects of the host.

  All objects of one sort are in one arena, whichever context owns them; each knows its context, or
  its module, and so leaves with it. A reference that names nothing any more is harmless: queries
  have a neutral answer for it and changes do nothing.

  This module has contexts and values. What a value is used for is recorded at the user: an alias
  has its aliasee and a wrapper its value. `rewire` redirects all uses of a value at once, and
  `release` takes a value out of the store once nothing refers to it. Neither tells anyone; the
  announcements are in `ForeignHandles.Host`.
-/
namespace ForeignHandles

/-- A context. -/
structure Context where
  odrUniquing : Bool := false

/-- The objects of the host, by sort. -/
structure Store where
  contexts : Arena .context Context := {}
  values : Arena .value Value := {}
  metadata : Arena .metadata Metadata := {}
  attributes : Arena .attribute OwnedAttribute := {}
  modules : Arena .module Module := {}
  comdats : Arena .comdat Comdat := {}
  comdatCursors : Arena .comdatCursor ComdatCursor := {}
  namedMetadata : Arena .namedMetadata NamedMetadata := {}

namespace Store

/-! ## Reading handles -/

/-- The value behind a handle. -/
def value? (s : Store) (h : Handle .value) : Option Value := h.bind s.values.get?

/-- The metadata behind a handle. -/
def metadata? (s : Store) (h : Handle .metadata) : Option Metadata := h.bind s.metadata.get?

/-- The module behind a handle. -/
def module? (s : Store) (h : Handle .module) : Option Module := h.bind s.modules.get?

/-- The comdat behind a handle. -/
def comdat? (s : Store) (h : Handle .comdat) : Option Comdat := h.bind s.comdats.get?

/-- The named metadata behind a handle. -/
def named? (s : Store) (h : Handle .namedMetadata) : Option NamedMetadata :=
  h.bind s.namedMetadata.get?

/-- The attribute behind a handle. -/
def attribute? (s : Store) (h : Handle .attribute) : Option Attribute :=
  (h.bind s.attributes.get?).map (·.content)

/-! ## Contexts -/

/-- A new context without objects. -/
def createContext (s : Store) : Ref .context × Store :=
  let (c, contexts) := s.contexts.alloc {}
  (c, { s with contexts })

/-- Releases a context and everything it owns. -/
def disposeContext (s : Store) (h : Handle .context) : Store :=
  match h with
  | none => s
  | some c =>
    let gone (m : Ref .module) : Bool := (s.modules.get? m).any (fun x => x.context = c)
    { contexts := s.contexts.erase c
      values := s.values.filter (fun _ v => v.context ≠ c)
      metadata := s.metadata.filter (fun _ m => m.context ≠ c)
      attributes := s.attributes.filter (fun _ a => a.context ≠ c)
      modules := s.modules.filter (fun _ m => m.context ≠ c)
      comdats := s.comdats.filter (fun _ x => !gone x.module)
      comdatCursors := s.comdatCursors
      namedMetadata := s.namedMetadata.filter (fun _ x => !gone x.parent) }

/-- Whether debug types are uniqued by the one-definition rule. -/
def odrUniquing (s : Store) (h : Handle .context) : Bool :=
  (h.bind s.contexts.get?).any (·.odrUniquing)

/-- Sets whether debug types are uniqued by the one-definition rule. -/
def setOdrUniquing (s : Store) (h : Handle .context) (on : Bool) : Store :=
  match h with
  | none => s
  | some c => { s with contexts := s.contexts.modify c (fun x => { x with odrUniquing := on }) }

/-- The values of a context, in creation order. -/
def valuesOf (s : Store) (c : Ref .context) : List (Ref .value × Value) :=
  s.values.select (fun v => v.context = c)

/-- The metadata of a context, in creation order. -/
def metadataOf (s : Store) (c : Ref .context) : List (Ref .metadata × Metadata) :=
  s.metadata.select (fun m => m.context = c)

/-- Whether a context owns a value. -/
def containsValue (s : Store) (c : Ref .context) (v : Ref .value) : Bool :=
  (s.values.get? v).any (fun x => x.context = c)

/-! ## Values -/

/-- A new value of a context, which is in no module. -/
def addValue (s : Store) (c : Ref .context) (name : String) (body : ValueBody) :
    Ref .value × Store :=
  let (v, values) := s.values.alloc { context := c, name, body }
  (v, { s with values })

def constInt (s : Store) (c : Ref .context) (bits : UInt32) (value : UInt64) : Ref .value × Store :=
  s.addValue c "" (.constantInt bits value)

def constNull (s : Store) (c : Ref .context) : Ref .value × Store :=
  s.addValue c "" .constantPointerNull

/-- A constant array of elements of the given width. -/
def constDataArray (s : Store) (c : Ref .context) (bits : UInt32) (raw : List UInt8) :
    Except Fault (Ref .value × Store) :=
  (DataSequence.ofRaw bits raw).map (fun data => s.addValue c "" (.constantData data))

/-- A constant array of bytes, with or without a NUL after them. -/
def constString (s : Store) (c : Ref .context) (text : List UInt8) (terminated : Bool) :
    Ref .value × Store :=
  s.addValue c "" (.constantData (.ofText text terminated))

def createInstruction (s : Store) (c : Ref .context) (name : String) : Ref .value × Store :=
  s.addValue c name (.instruction 0)

/-- Renames a value. Names of linked globals are not looked at. -/
def setValueName (s : Store) (v : Ref .value) (name : String) : Store :=
  { s with values := s.values.modify v (fun x => { x with name }) }

/-- Attaches a debug record to an instruction. -/
def attachDebugRecord (s : Store) (v : Ref .value) : Except Fault Store :=
  match s.values.get? v with
  | none => .ok s
  | some x => x.attachDebugRecord.map (fun y => { s with values := s.values.modify v (fun _ => y) })

/-- A record is attached to an instruction, whose count alone changes, or there is nothing to attach
it to. -/
theorem attachDebugRecord_cases {s t : Store} {v : Ref .value} (h : s.attachDebugRecord v = .ok t) :
    t = s ∨ ∃ x before after, s.values.get? v = some x ∧ x.body = .instruction before ∧
      t = { s with
        values := s.values.modify v (fun _ => { x with body := .instruction after }) } := by
  unfold attachDebugRecord at h
  split at h
  · exact .inl (Except.ok.inj h).symm
  · rename_i x hx
    cases hattach : x.attachDebugRecord with
    | error e => simp [hattach, Except.map] at h
    | ok y =>
      obtain ⟨before, after, hbody, rfl⟩ := Value.exists_of_attachDebugRecord hattach
      simp only [hattach, Except.map, Except.ok.injEq] at h
      exact .inr ⟨x, before, after, hx, hbody, h.symm⟩

/-! ## Uses -/

/-- Redirects every use of `old` to `new`, or to nothing. -/
def rewire (s : Store) (old : Ref .value) (new : Handle .value) : Store :=
  { s with
    values := s.values.map (fun _ v => v.redirect old new)
    metadata := s.metadata.map (fun _ m => m.redirect old new) }

/-- Takes a value out of the lists of its module. -/
def unlist (s : Store) (v : Ref .value) : Store :=
  match (s.values.get? v).bind (·.parent) with
  | none => s
  | some m => { s with modules := s.modules.modify m (·.forget v) }

/-- Removes a value: its module forgets it, its users let go of it, and it leaves its context. -/
def release (s : Store) (v : Ref .value) : Store :=
  let s := (s.unlist v).rewire v none
  { s with values := s.values.erase v }

/-! ## Queries on values -/

/-- The number of a value's sort. -/
def valueKindCode (s : Store) (h : Handle .value) : UInt32 :=
  ((s.value? h).map (·.kind.code)).getD invalidIndex

def isConstantZero (s : Store) (h : Handle .value) : Bool := (s.value? h).any (·.isZero)

def aliasee (s : Store) (h : Handle .value) : Handle .value := (s.value? h).bind (·.aliasee)

/-- The place of an argument among those of its function. -/
def argumentIndex (s : Store) (h : Handle .value) : UInt32 :=
  ((s.value? h).bind (·.argumentIndex?)).getD invalidIndex

/-- The data of a constant array. -/
def data? (s : Store) (h : Handle .value) : Option DataSequence := (s.value? h).bind (·.data?)

def isConstantCString (s : Store) (h : Handle .value) : Bool := (s.data? h).any (·.isCString)

def elementCount (s : Store) (h : Handle .value) : UInt32 :=
  ((s.data? h).map (fun d => count32 d.count)).getD 0

/-- The bytes of a constant array, lent out. -/
def rawData (s : Store) (h : Handle .value) : Option (List UInt8) :=
  (s.data? h).bind (fun d => lend d.raw)

def hasDebugRecords (s : Store) (h : Handle .value) : Bool :=
  ((s.value? h).bind (·.debugRecords?)).any (0 < ·)

/-! ## What rewiring and releasing do to values -/

theorem get?_values_rewire (s : Store) (old : Ref .value) (new : Handle .value) (v : Ref .value) :
    (s.rewire old new).values.get? v = (s.values.get? v).map (·.redirect old new) :=
  Arena.get?_map ..

theorem values_unlist (s : Store) (v : Ref .value) : (s.unlist v).values = s.values := by
  unfold unlist
  split <;> rfl

theorem get?_values_release (s : Store) (v w : Ref .value) :
    (s.release v).values.get? w =
      if w = v then none else (s.values.get? w).map (·.redirect v none) := by
  simp only [release, Arena.get?_erase, get?_values_rewire, values_unlist]

theorem get?_metadata_release (s : Store) (v : Ref .value) (m : Ref .metadata) :
    (s.release v).metadata.get? m = (s.metadata.get? m).map (·.redirect v none) := by
  have : (s.unlist v).metadata = s.metadata := by
    unfold unlist
    split <;> rfl
  simp only [release, rewire, Arena.get?_map, this]

end Store

end ForeignHandles
