import ForeignHandles.Attribute.Catalog
import ForeignHandles.Flags
import ForeignHandles.Reply
import ForeignHandles.Sizing
import ForeignHandles.Text.Require

/-!
  What callers can ask about attributes by name and by kind.

  A name that is not in the catalog is not an error: it is the name of a free-text attribute, which
  may stand everywhere.
-/
namespace ForeignHandles

/-- The places where an attribute may stand. -/
def allowedOn : FlagFamily := ⟨32, 0x1F⟩

namespace allowedOn

def onReturn : Flags allowedOn := .ofNat 0x01
def onParameter : Flags allowedOn := .ofNat 0x02
def onFunction : Flags allowedOn := .ofNat 0x04
def onCallSite : Flags allowedOn := .ofNat 0x08
def onGlobal : Flags allowedOn := .ofNat 0x10

end allowedOn

/-- What is known about an attribute name. -/
structure AttributeInfo where
  kind : UInt32
  argument : UInt32
  allowed : Flags allowedOn

namespace AttributeInfo

/-- What the catalog says about a name, or what holds for free text. -/
def ofName (name : String) : AttributeInfo :=
  let known := do
    let kind ← AttributeDef.kindOfName? name
    return (kind, ← AttributeDef.ofKind? kind)
  match known with
  | none => ⟨0, textArgumentCode, .all⟩
  | some (kind, d) =>
    let allowed : Flags allowedOn := .empty
    ⟨kind, d.argument.code,
      ((allowed.assign allowedOn.onFunction d.onFunction).assign
        allowedOn.onParameter d.onParameter).assign allowedOn.onReturn d.onReturn⟩

/-- Answers a query whose result goes to a place of the caller; `place` says whether there is one.
The name is looked at first, and the place is only touched if all is well. -/
def query (name : Input) (place : Bool) : Reply AttributeInfo :=
  match name.required "attribName" with
  | .error e => .refused e
  | .ok name => if place then .ok place (ofName name) else .refused (.nullOutParam "pInfo")

end AttributeInfo

/-- The name of a kind as text that is lent out; nothing past the end of the catalog. -/
def attributeNameOfId (kind : UInt32) : Except Fault (Option String) :=
  if AttributeDef.endKind ≤ kind then .ok none
  else (AttributeDef.nameOfKind kind).map lendText

/-- Writes the known names to an array of the caller. -/
def fillKnownNames (dest : Option (List (Option String))) (capacity : Nat) :
    Except BoundaryError Unit × Option (List (Option String)) :=
  fillArray "names" dest capacity (AttributeDef.knownNames.map some)

end ForeignHandles
