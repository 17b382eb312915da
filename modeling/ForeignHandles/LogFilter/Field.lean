import ForeignHandles.LogFilter.Pattern
import ForeignHandles.Text.Binary64

/-!
  What a directive asks of a field: that it is there, or that it has a certain value.

  A field is written as its name, or as its name and a value with an equals sign between them. The
  text of a value is read as the first of these that fits: a truth value, an unsigned and a signed
  64-bit number, a number of the binary64 format. Any other text is a pattern, and must be one that
  can be used.
-/
namespace ForeignHandles

/-- A value that a field is compared with. -/
inductive FieldValue where
  | bool (value : Bool)
  | real (value : Binary64)
  | unsigned (value : UInt64)
  | signed (value : Int64)
  | pattern (text : List Char)
  deriving DecidableEq

namespace FieldValue

/-- Reads a value. -/
def parse (cs : List Char) : Except PatternError FieldValue :=
  if cs = ['t', 'r', 'u', 'e'] then .ok (.bool true)
  else if cs = ['f', 'a', 'l', 's', 'e'] then .ok (.bool false)
  else match unsigned? cs, signed? cs, Binary64.parse? cs with
    | some n, _, _ => .ok (.unsigned n)
    | none, some n, _ => .ok (.signed n)
    | none, none, some x => .ok (.real x)
    | none, none, none => (Pattern.check cs).map (fun _ => .pattern cs)
where
  unsigned? (cs : List Char) : Option UInt64 :=
    (unsignedDecimal? cs).bind (fun n => if n < UInt64.size then some (UInt64.ofNat n) else none)
  signed? (cs : List Char) : Option Int64 :=
    (signedDecimal? cs).bind (fun n =>
      if Int64.minValue.toInt ≤ n ∧ n ≤ Int64.maxValue.toInt then some (Int64.ofInt n) else none)

/-- The value in writing. -/
def text : FieldValue → List Char
  | .bool value => if value then ['t', 'r', 'u', 'e'] else ['f', 'a', 'l', 's', 'e']
  | .real value => value.text
  | .unsigned value => (toString value.toNat).toList
  | .signed value => (toString value.toInt).toList
  | .pattern text => text

/-- The place of a sort of value among the others. -/
def rank : FieldValue → Nat
  | .bool _ => 0
  | .real _ => 1
  | .unsigned _ => 2
  | .signed _ => 3
  | .pattern _ => 4

/-- Compares by sort, then by value. -/
def compare (a b : FieldValue) : Ordering :=
  match a, b with
  | .bool x, .bool y => Ord.compare x y
  | .real x, .real y => x.compare y
  | .unsigned x, .unsigned y => Ord.compare x y
  | .signed x, .signed y => Ord.compare x y
  | .pattern x, .pattern y => Ord.compare x y
  | a, b => Ord.compare a.rank b.rank

instance : Ord FieldValue := ⟨compare⟩

end FieldValue

/-- What is asked of a field. -/
structure FieldMatch where
  name : List Char
  value : Option FieldValue
  deriving DecidableEq

namespace FieldMatch

/-- Reads a field. The name ends at the first equals sign, the value at the next one, and what comes
after that is left out. -/
def parse (cs : List Char) : Except PatternError FieldMatch :=
  let name := cs.takeWhile (· ≠ '=')
  match cs.dropWhile (· ≠ '=') with
  | [] => .ok { name, value := none }
  | _ :: rest =>
    (FieldValue.parse (rest.takeWhile (· ≠ '='))).map (fun value => { name, value })

/-- The field in writing. -/
def text (f : FieldMatch) : List Char :=
  match f.value with
  | none => f.name
  | some value => f.name ++ '=' :: value.text

/-- Compares by whether there is a value, then by name, then by value. -/
def compare (f g : FieldMatch) : Ordering :=
  (Ord.compare f.value.isSome g.value.isSome).then
    ((Ord.compare f.name g.name).then (Ord.compare f.value g.value))

instance : Ord FieldMatch := ⟨compare⟩

end FieldMatch

end ForeignHandles
