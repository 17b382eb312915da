import ForeignHandles.Attribute.Catalog
import ForeignHandles.Text.Quoted

/-!
  Attributes: a known kind with its argument, or a key and a value of free text.

  The constructors of `Attribute` allow any pairing of kind and argument; `check` says whether the
  kind takes that argument, and every attribute of a context has passed it (`make`). Printing needs
  the kind's name, so it can fault, but not on an attribute that has passed.
-/
namespace ForeignHandles

/-- An attribute, by the form of its argument. -/
inductive Attribute where
  | enum (kind : UInt32)
  | int (kind : UInt32) (value : UInt64)
  | type (kind : UInt32) (typeName : String)
  | range (kind : UInt32) (bits : UInt32) (lower upper : Int64)
  | rangeList (kind : UInt32) (ranges : List (Int64 × Int64))
  | text (key value : String)
  deriving DecidableEq

namespace Attribute

/-- The kind; zero for free text. -/
def kind : Attribute → UInt32
  | .enum kind => kind
  | .int kind _ => kind
  | .type kind _ => kind
  | .range kind _ _ _ => kind
  | .rangeList kind _ => kind
  | .text _ _ => 0

/-- The form of the argument; free text has none of the known forms. -/
def form? : Attribute → Option AttributeArgument
  | .enum _ => some .none
  | .int _ _ => some .int
  | .type _ _ => some .type
  | .range _ _ _ _ => some .constantRange
  | .rangeList _ _ => some .constantRangeList
  | .text _ _ => none

def isText (a : Attribute) : Bool := a.form?.isNone
def isRange (a : Attribute) : Bool := a.form? = some .constantRange
def isRangeList (a : Attribute) : Bool := a.form? = some .constantRangeList

/-- Whether the kind takes this form of argument. -/
def check (a : Attribute) : Bool :=
  match a.form? with
  | none => true
  | some form => AttributeDef.takes a.kind form

/-- Admits an attribute whose kind takes its argument. -/
def make (a : Attribute) : Except Fault Attribute :=
  match a.form? with
  | none => .ok a
  | some form =>
    if AttributeDef.takes a.kind form then .ok a
    else .error (.attributeArgument a.kind form)

/-! ## In print -/

/-- The bounds of a range. -/
def boundsText (lower upper : Int64) : String :=
  toString lower.toInt ++ ", " ++ toString upper.toInt

/-- The argument after the name of the kind. -/
def argumentText (name : String) : Attribute → String
  | .enum _ => ""
  | .int _ value =>
    if name = "align" ∨ name = "alignstack" then " " ++ toString value
    else "(" ++ toString value ++ ")"
  | .type _ typeName => "(" ++ typeName ++ ")"
  | .range _ bits lower upper => "(i" ++ toString bits ++ " " ++ boundsText lower upper ++ ")"
  | .rangeList _ ranges =>
    "(" ++ ", ".intercalate (ranges.map (fun r => "(" ++ boundsText r.1 r.2 ++ ")")) ++ ")"
  | .text _ _ => ""

/-- The attribute as it is written. -/
def print (a : Attribute) : Except Fault String :=
  match a with
  | .text key value =>
    .ok (if value.isEmpty then quote key else quote key ++ "=" ++ quote value)
  | a => (AttributeDef.nameOfKind a.kind).map (fun name => name ++ argumentText name a)

theorem make_eq_ok_iff (a b : Attribute) : make a = .ok b ↔ a.check = true ∧ a = b := by
  unfold make check
  cases a.form? with
  | none => simp
  | some form => by_cases h : AttributeDef.takes a.kind form = true <;> simp [h]

/-- An attribute that has passed the check prints without a fault. -/
theorem print_isOk_of_check {a : Attribute} (h : a.check = true) : ∃ s, a.print = .ok s := by
  cases a with
  | text key value => exact ⟨_, rfl⟩
  | _ =>
    obtain ⟨d, _, hd⟩ := AttributeDef.nameOfKind_of_takes h
    exact ⟨_, by simp only [print, kind] at hd ⊢; rw [hd]; rfl⟩

end Attribute

/-- An attribute with the context that owns it. -/
structure OwnedAttribute where
  context : Ref .context
  content : Attribute

end ForeignHandles
