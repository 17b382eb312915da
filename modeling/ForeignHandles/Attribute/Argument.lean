/-!
  The forms of argument that a known attribute takes.
-/
namespace ForeignHandles

/-- What comes with an attribute besides its kind. -/
inductive AttributeArgument where
  | none
  | int
  | type
  | constantRange
  | constantRangeList
  deriving DecidableEq

/-- The name of a form in diagnostics. -/
def AttributeArgument.name : AttributeArgument → String
  | .none => "None"
  | .int => "Int"
  | .type => "Type"
  | .constantRange => "ConstantRange"
  | .constantRangeList => "ConstantRangeList"

/-- The number of a form at the boundary. -/
def AttributeArgument.code : AttributeArgument → UInt32
  | .none => 0
  | .int => 1
  | .type => 2
  | .constantRange => 3
  | .constantRangeList => 4

/-- The number that stands for free text, the form of attributes that have no kind. -/
def textArgumentCode : UInt32 := 5

end ForeignHandles
