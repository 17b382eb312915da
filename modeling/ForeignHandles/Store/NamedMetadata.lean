import ForeignHandles.Store

/-!
  Named metadata: lists of metadata under a name in a module.

  There is one list for a name; it is made when it is first asked for and lasts until it is erased.
  The host's own reads and writes fault past the end. The guarded ones look at the index first, and
  also leave a null operand without effect.
-/
namespace ForeignHandles.Store

/-- The named metadata of a module, in creation order. -/
def namedMetadataOf (s : Store) (m : Ref .module) : List (Ref .namedMetadata × NamedMetadata) :=
  s.namedMetadata.select (fun x => x.parent = m)

/-- The list with a name in a module. -/
def namedMetadata? (s : Store) (m : Ref .module) (name : String) : Handle .namedMetadata :=
  s.namedMetadata.find? (fun x => x.parent = m && x.name == name)

/-- The list with a name in a module, made if there is none. -/
def getOrInsertNamedMetadata (s : Store) (m : Ref .module) (name : String) :
    Ref .namedMetadata × Store :=
  match s.namedMetadata? m name with
  | some x => (x, s)
  | none =>
    let (x, namedMetadata) := s.namedMetadata.alloc { parent := m, name }
    (x, { s with namedMetadata })

/-- Replaces a list. -/
def putNamed (s : Store) (x : Ref .namedMetadata) (n : NamedMetadata) : Store :=
  { s with namedMetadata := s.namedMetadata.modify x (fun _ => n) }

def namedOperandCount (s : Store) (h : Handle .namedMetadata) : UInt32 :=
  ((s.named? h).map (fun n => count32 n.operands.length)).getD 0

/-- The operand at an index; none past the end. -/
def namedOperand (s : Store) (h : Handle .namedMetadata) (index : UInt32) :
    Except Fault (Handle .metadata) :=
  match s.named? h with
  | none => .ok none
  | some n =>
    if index.toNat < n.operands.length then (n.operand index.toNat).map some else .ok none

/-- Stores an operand at an index; does nothing past the end or for null. -/
def setNamedOperand (s : Store) (h : Handle .namedMetadata) (index : UInt32)
    (target : Handle .metadata) : Except Fault Store :=
  match h, s.named? h, target with
  | some x, some n, some t =>
    if index.toNat < n.operands.length then (n.setOperand index.toNat t).map (s.putNamed x)
    else .ok s
  | _, _, _ => .ok s

/-- Adds an operand at the end; does nothing for null. -/
def addNamedOperand (s : Store) (h : Handle .namedMetadata) (target : Handle .metadata) : Store :=
  match h, s.named? h, target with
  | some x, some n, some t => s.putNamed x { n with operands := n.operands ++ [t] }
  | _, _, _ => s

def clearNamedOperands (s : Store) (h : Handle .namedMetadata) : Store :=
  match h, s.named? h with
  | some x, some n => s.putNamed x { n with operands := [] }
  | _, _ => s

/-- The module of a list. -/
def namedParent (s : Store) (h : Handle .namedMetadata) : Handle .module :=
  (s.named? h).map (·.parent)

/-- Removes a list from its module. -/
def eraseNamedMetadata (s : Store) (h : Handle .namedMetadata) : Store :=
  match h with
  | none => s
  | some x => { s with namedMetadata := s.namedMetadata.erase x }

end ForeignHandles.Store
