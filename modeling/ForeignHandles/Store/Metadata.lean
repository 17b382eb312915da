import ForeignHandles.Store
import ForeignHandles.Text.Boundary

/-!
  The metadata of a context.

  Strings are shared: one text, one object, for the life of the context. A value that has a wrapper
  gets the same one again; the wrapper is looked up by the value it has now. Nodes are new each
  time.

  The host's own operations on operands fault past the end. The guarded ones look at the index
  first and leave such a call without effect; metadata that is no node reads as a node without
  operands.
-/
namespace ForeignHandles.Store

/-! ## Making metadata -/

/-- New metadata of a context. -/
def addMetadata (s : Store) (c : Ref .context) (body : MetadataBody) : Ref .metadata × Store :=
  let (m, metadata) := s.metadata.alloc { context := c, body }
  (m, { s with metadata })

/-- The string with a text, made if the context has none. -/
def mdString (s : Store) (c : Ref .context) (text : String) : Ref .metadata × Store :=
  match s.metadata.find? (fun m => m.context = c && m.string? == some text) with
  | some m => (m, s)
  | none => s.addMetadata c (.string text)

/-- A new node. -/
def mdNode (s : Store) (c : Ref .context) (storage : NodeStorage)
    (operands : List (Handle .metadata)) : Ref .metadata × Store :=
  s.addMetadata c (.node ⟨storage, operands⟩)

/-- The wrapper of a value, made if there is none. It is local unless the value is a constant. -/
def valueAsMetadata (s : Store) (c : Ref .context) (v : Ref .value) : Ref .metadata × Store :=
  match s.metadata.find? (fun m => m.context = c && m.value == some v) with
  | some m => (m, s)
  | none => s.addMetadata c (.value (some v) (!(s.values.get? v).any (·.isConstant)))

/-- The wrapper of a constant; none for other values. -/
def constantAsMetadata (s : Store) (h : Handle .value) : Handle .metadata × Store :=
  match h, s.value? h with
  | some v, some x =>
    if x.isConstant then
      let (m, s) := s.valueAsMetadata x.context v
      (some m, s)
    else (none, s)
  | _, _ => (none, s)

/-- Makes a node shared; says whether the metadata is a node. -/
def makeUniqued (s : Store) (m : Ref .metadata) : Bool × Store :=
  (((s.metadata.get? m).bind (·.node?)).isSome,
   { s with metadata := s.metadata.modify m (·.mapNode (fun n => { n with storage := .uniqued })) })

/-! ## Operands -/

/-- The node behind a handle. -/
def node? (s : Store) (h : Handle .metadata) : Option Node := (s.metadata? h).bind (·.node?)

/-- A place for an operand in a node. -/
structure Slot where
  node : Ref .metadata
  index : Nat
  deriving DecidableEq

/-- Stores an operand in a node. -/
def replaceOperand (s : Store) (m : Ref .metadata) (n : Node) (index : Nat)
    (target : Handle .metadata) : Except Fault Store :=
  (n.replaceOperand index target).map (fun n =>
    { s with metadata := s.metadata.modify m (·.mapNode (fun _ => n)) })

def operandCount (s : Store) (h : Handle .metadata) : UInt32 :=
  ((s.node? h).map (fun n => count32 n.operands.length)).getD 0

/-- The slot at an index; none past the end. -/
def operandSlot (s : Store) (h : Handle .metadata) (index : UInt32) : Except Fault (Option Slot) :=
  match h, s.node? h with
  | some m, some n =>
    if index.toNat < n.operands.length then
      (n.operand index.toNat).map (fun _ => some ⟨m, index.toNat⟩)
    else .ok none
  | _, _ => .ok none

/-- What a slot holds now. -/
def readSlot (s : Store) (slot : Option Slot) : Handle .metadata := do
  let x ← slot
  (← (← s.node? (some x.node)).operands[x.index]?)

/-- Stores an operand at an index; does nothing past the end. -/
def setOperand (s : Store) (h : Handle .metadata) (index : UInt32) (target : Handle .metadata) :
    Except Fault Store :=
  match h, s.node? h with
  | some m, some n =>
    if index.toNat < n.operands.length then s.replaceOperand m n index.toNat target else .ok s
  | _, _ => .ok s

/-! ## Queries -/

def metadataKindCode (s : Store) (h : Handle .metadata) : UInt32 :=
  ((s.metadata? h).map (·.kind.code)).getD invalidIndex

def metadataContext (s : Store) (h : Handle .metadata) : Handle .context :=
  (s.metadata? h).map (·.context)

/-- The text of a string, lent out with a 32-bit length. -/
def stringText (s : Store) (h : Handle .metadata) : Option String :=
  ((s.metadata? h).bind (·.string?)).bind lendText32

def wrappedValue (s : Store) (h : Handle .metadata) : Handle .value :=
  (s.metadata? h).bind (·.value)

def hasStorage (s : Store) (h : Handle .metadata) (storage : NodeStorage) : Bool :=
  (s.node? h).any (fun n => n.storage = storage)

def isTemporary (s : Store) (h : Handle .metadata) : Bool := s.hasStorage h .temporary

/-- Whether a node has its final place and no operand is a placeholder. -/
def nodeIsResolved (s : Store) (n : Node) : Bool :=
  n.storage ≠ .temporary && n.operands.all (fun target => !s.isTemporary target)

/-- Whether metadata is resolved, which all but nodes are. -/
def isResolved (s : Store) (h : Handle .metadata) : Bool :=
  (s.metadata? h).any (fun m => m.node?.all s.nodeIsResolved)

/-! ## In print -/

/-- Metadata other than a node. -/
def leafText (s : Store) (m : Metadata) : String :=
  match m.body with
  | .string text => "!" ++ quote text
  | .node _ => ""
  | .value target _ => ((s.value? target).map (·.text)).getD "<deleted value>"

/-- An operand: a node inside a node is shown by its identity, for nodes can be circular. -/
def operandText (s : Store) (spell : Ref .metadata → String) (target : Handle .metadata) : String :=
  match target, s.metadata? target with
  | some r, some m =>
    match m.body with
    | .node _ => "!<" ++ spell r ++ ">"
    | _ => s.leafText m
  | _, _ => "null"

/-- A node and its operands. -/
def nodeText (s : Store) (spell : Ref .metadata → String) (n : Node) : String :=
  (if n.storage = .distinct then "distinct " else "")
    ++ "!\x7b" ++ ", ".intercalate (n.operands.map (s.operandText spell)) ++ "\x7d"

/-- Metadata in print; `spell` writes the identity of a node. -/
def metadataText (s : Store) (spell : Ref .metadata → String) (m : Metadata) : String :=
  match m.body with
  | .node n => s.nodeText spell n
  | _ => s.leafText m

/-- Metadata in diagnostics: its sort and its text. -/
def metadataDebugText (s : Store) (spell : Ref .metadata → String) (m : Metadata) : String :=
  "Metadata(" ++ m.kind.name ++ ") " ++ s.metadataText spell m

/-- The text of metadata as a message; none for null. -/
def metadataMessage (s : Store) (spell : Ref .metadata → String) (h : Handle .metadata) :
    Option Message :=
  (s.metadata? h).map (fun m => .ofString (s.metadataText spell m))

end ForeignHandles.Store
