import ForeignHandles.LogFilter.Field
import ForeignHandles.LogFilter.Level
import ForeignHandles.Text.Alphanumeric
import ForeignHandles.Text.Utf8

/-!
  Directives: a level for whatever meets some conditions.

  The conditions are a target, a span and a field of that span, each of which may be left out. In
  writing, span and field stand in brackets after the target, the field in braces, and the level
  follows an equals sign: `target[span{field=value}]=level`. A directive without a level lets
  everything through. Without brackets, the equals sign may be left out on either side: a level
  alone holds for everything, and any other text is a target.

  A directive that asks for no span and no value can be decided once and for all; the others have
  to be followed while the program runs (`isStatic`).
-/
namespace ForeignHandles

/-- A level and the conditions under which it holds. -/
structure Directive where
  target : Option (List Char) := none
  span : Option (List Char) := none
  field : Option FieldMatch := none
  level : LogLevel
  deriving DecidableEq

/-- Why a directive cannot be read. -/
inductive DirectiveError where
  | level
  | malformed
  | pattern (error : PatternError)
  deriving DecidableEq

/-- The wording of a directive error. -/
def DirectiveError.message : DirectiveError → String
  | .level => "error parsing level filter: expected one of \"off\", \"error\", \"warn\", \"info\", "
      ++ "\"debug\", \"trace\", or a number 0-5"
  | .malformed => "invalid filter directive"
  | .pattern error => "invalid field filter: " ++ error.message

namespace Directive

/-! ## Reading -/

/-- Whether a target may begin with this character. -/
def canBegin (c : Char) : Bool := c = '-' || c = ':' || c = '_' || isAlphanumeric c

/-- The level after an equals sign; nothing there stands for everything. -/
def levelAfter (cs : List Char) : Except DirectiveError LogLevel :=
  if cs.isEmpty then .ok .trace
  else match LogLevel.parse? cs with
    | some level => .ok level
    | none => .error .level

/-- What follows the closing bracket: nothing, or an equals sign and a level. -/
def levelAtEnd : List Char → Except DirectiveError LogLevel
  | [] => .ok .trace
  | c :: cs => if c = '=' then levelAfter cs else .error .malformed

/-- A field, which must not be empty. -/
def fieldMatch (cs : List Char) : Except DirectiveError FieldMatch :=
  if cs.isEmpty then .error .malformed else (FieldMatch.parse cs).mapError .pattern

/-- What follows the opening brace of a field, up to the end of the directive. The field is read
before what comes after it. -/
def parseField (target span : Option (List Char)) (cs : List Char) :
    Except DirectiveError Directive := do
  match cs.dropWhile (· ≠ '}') with
  | [] => .error .malformed
  | _ :: rest =>
    let field ← fieldMatch (cs.takeWhile (· ≠ '}'))
    match rest with
    | ']' :: rest => return { target, span, field, level := ← levelAtEnd rest }
    | _ => .error .malformed

/-- What follows the opening bracket, up to the end of the directive. Before a field the name of the
span may be left out. -/
def parseSpan (target : Option (List Char)) (cs : List Char) :
    Except DirectiveError Directive := do
  let endsName (c : Char) : Bool := c = ']' || c = '{'
  let span := cs.takeWhile (!endsName ·)
  match cs.dropWhile (!endsName ·) with
  | '{' :: rest => parseField target (if span.isEmpty then none else some span) rest
  | _ :: rest => return { target, span, level := ← levelAtEnd rest }
  | [] => .error .malformed

/-- A text without brackets and equals sign: a level or a target. -/
def ofWord (cs : List Char) : Directive :=
  match LogLevel.parse? cs with
  | some level => { level }
  | none => { target := cs, level := .trace }

/-- Reads a directive. -/
def parse (cs : List Char) : Except DirectiveError Directive := do
  let endsTarget (c : Char) : Bool := c = '=' || c = '['
  match cs with
  | [] => .error .malformed
  | '[' :: rest => parseSpan none rest
  | c :: _ =>
    if !canBegin c then .error .malformed
    else
      let target := cs.takeWhile (!endsTarget ·)
      match cs.dropWhile (!endsTarget ·) with
      | [] => return ofWord cs
      | '[' :: rest => parseSpan target rest
      | _ :: rest => return { target, level := ← levelAfter rest }

/-! ## Writing -/

/-- The part in brackets, if there is one. -/
def bracketText (d : Directive) : List Char :=
  match d.span, d.field with
  | none, none => []
  | span, none => '[' :: span.getD [] ++ [']']
  | span, some field => '[' :: span.getD [] ++ '{' :: field.text ++ ['}', ']']

/-- The directive in writing: its conditions, if there are any, and its level. -/
def text (d : Directive) : String :=
  let conditions := d.target.getD [] ++ d.bracketText
  if d.target.isNone && d.bracketText.isEmpty then d.level.name
  else String.ofList conditions ++ "=" ++ d.level.name

/-! ## Order -/

/-- Whether the directive asks for neither a span nor a value. -/
def isStatic (d : Directive) : Bool := d.span.isNone && d.field.all (·.value.isNone)

/-- Compares how much two directives ask for: the length of the target in bytes, then whether there
is a span, then whether there is a field. Between equals the texts decide, so that only directives
with the same conditions are equal. -/
def specificity (d e : Directive) : Ordering :=
  let length (d : Directive) : Option Nat :=
    d.target.map (fun t => (Utf8.encode (String.ofList t)).length)
  (compare (length d) (length e)).then
    ((compare d.span.isSome e.span.isSome).then
      ((compare d.field.isSome e.field.isSome).then
        ((compare d.target e.target).then
          ((compare d.span e.span).then (compare d.field e.field)))))

/-- Where `d` stands in a filter as to `e`: static directives come first, and among them and the
others those that ask for more. -/
def placing (d e : Directive) : Ordering :=
  (compare e.isStatic d.isStatic).then (e.specificity d)

end Directive

end ForeignHandles
