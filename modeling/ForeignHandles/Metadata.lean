import ForeignHandles.Value

/-!
  Metadata: strings, nodes and wrappers of values.

  A node has a fixed number of operand slots, each empty or with metadata in it, and a storage that
  says whether it is shared, unique to its place or a placeholder. Whether the node is resolved
  depends on the storage of its operands, and nodes may refer to each other in circles.

  A wrapper remembers whether its value was local when it was made. It lets go of a value that is
  deleted.
-/
namespace ForeignHandles

/-- The sorts of metadata. -/
inductive MetadataKind where
  | mdString | constantAsMetadata | localAsMetadata | mdTuple
  deriving DecidableEq

namespace MetadataKind

/-- The number of a sort at the boundary. -/
def code : MetadataKind → UInt32
  | .mdString => 0
  | .constantAsMetadata => 1
  | .localAsMetadata => 2
  | .mdTuple => 3

/-- The name of a sort in diagnostics. -/
def name : MetadataKind → String
  | .mdString => "MdString"
  | .constantAsMetadata => "ConstantAsMetadata"
  | .localAsMetadata => "LocalAsMetadata"
  | .mdTuple => "MdTuple"

end MetadataKind

/-- How a node is stored. -/
inductive NodeStorage where
  | uniqued | distinct | temporary
  deriving DecidableEq

/-- A node: its storage and its operand slots. -/
structure Node where
  storage : NodeStorage
  operands : List (Handle .metadata)

namespace Node

/-- The operand at an index. -/
def operand (n : Node) (index : Nat) : Except Fault (Handle .metadata) :=
  match n.operands[index]? with
  | some target => .ok target
  | none => .error (.indexOutOfBounds n.operands.length index)

/-- The node with another operand at an index. -/
def replaceOperand (n : Node) (index : Nat) (target : Handle .metadata) : Except Fault Node :=
  if index < n.operands.length then .ok { n with operands := n.operands.set index target }
  else .error (.indexOutOfBounds n.operands.length index)

end Node

/-- What metadata is, by its sort. -/
inductive MetadataBody where
  | string (text : String)
  | node (node : Node)
  | value (target : Handle .value) (isLocal : Bool)

/-- Metadata of a context. -/
structure Metadata where
  context : Ref .context
  body : MetadataBody

namespace Metadata

def kind (m : Metadata) : MetadataKind :=
  match m.body with
  | .string _ => .mdString
  | .node _ => .mdTuple
  | .value _ false => .constantAsMetadata
  | .value _ true => .localAsMetadata

/-- The text of a string. -/
def string? (m : Metadata) : Option String :=
  match m.body with
  | .string text => some text
  | _ => none

/-- The node, if the metadata is one. -/
def node? (m : Metadata) : Option Node :=
  match m.body with
  | .node node => some node
  | _ => none

/-- The value that a wrapper has now. -/
def value (m : Metadata) : Handle .value :=
  match m.body with
  | .value target _ => target
  | _ => none

/-- Whether the metadata wraps a value, be it there or gone. -/
def isWrapper (m : Metadata) : Bool :=
  match m.body with
  | .value _ _ => true
  | _ => false

/-- Whether the metadata is a placeholder node. -/
def isTemporary (m : Metadata) : Bool := m.node?.any (fun n => n.storage = .temporary)

/-- Changes the node, if the metadata is one. -/
def mapNode (f : Node → Node) (m : Metadata) : Metadata :=
  match m.body with
  | .node node => { m with body := .node (f node) }
  | _ => m

/-- Redirects a wrapper of `old`; leaves all other metadata alone. -/
def redirect (old : Ref .value) (new : Handle .value) (m : Metadata) : Metadata :=
  match m.body with
  | .value target isLocal =>
    if target = some old then { m with body := .value new isLocal } else m
  | _ => m

theorem kind_redirect (old : Ref .value) (new : Handle .value) (m : Metadata) :
    (m.redirect old new).kind = m.kind := by
  unfold redirect kind
  cases hb : m.body with
  | value target isLocal => by_cases h : target = some old <;> cases isLocal <;> simp [h, hb]
  | _ => simp [hb]

end Metadata

end ForeignHandles
