import ForeignHandles.Store
import ForeignHandles.Text.Boundary

/-!
  The attributes of a context. An attribute is admitted only if its kind takes its argument.
-/
namespace ForeignHandles.Store

/-- A new attribute of a context. -/
def createAttribute (s : Store) (c : Ref .context) (a : Attribute) :
    Except Fault (Ref .attribute × Store) :=
  a.make.map (fun content =>
    let (r, attributes) := s.attributes.alloc { context := c, content }
    (r, { s with attributes }))

/-- The attribute as a message; none for null. -/
def attributeMessage (s : Store) (h : Handle .attribute) : Except Fault (Option Message) :=
  match s.attribute? h with
  | none => .ok none
  | some a => a.print.map (fun text => some (.ofString text))

def isRangeAttribute (s : Store) (h : Handle .attribute) : Bool := (s.attribute? h).any (·.isRange)

def isRangeListAttribute (s : Store) (h : Handle .attribute) : Bool :=
  (s.attribute? h).any (·.isRangeList)

end ForeignHandles.Store
