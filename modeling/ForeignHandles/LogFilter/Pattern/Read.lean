import ForeignHandles.LogFilter.Pattern.Set
import ForeignHandles.Text.Alphanumeric

/-!
  Reading of patterns.

  A pattern is a list of alternatives, divided by bars; an alternative is a sequence of characters,
  sets, groups and repetitions. `*`, `+` and `?` repeat what stands before them, lazily if a
  question mark follows. There are no repetitions with counts, no classes by property and no
  numbers in braces, since a directive ends the value of a field at the first closing brace.
-/
namespace ForeignHandles

/-! ## The begin of a group -/

/-- What follows an opening parenthesis. -/
inductive GroupBegin where
  /-- Flags for the rest of the group around. -/
  | flags (flags : FlagSettings)
  /-- A group of its own. -/
  | group (name : Option (List Char)) (flags : FlagSettings)

/-- Reads flags: those to switch on and, after a hyphen, at least one to switch off. No flag may
occur twice. -/
def flagSettings? (cs : List Char) : Option FlagSettings := do
  let on ← (cs.takeWhile (· ≠ '-')).mapM PatternFlag.ofLetter?
  let off ← match cs.dropWhile (· ≠ '-') with
    | [] => some []
    | [_] => none
    | _ :: letters => letters.mapM PatternFlag.ofLetter?
  if (on ++ off).Nodup then some (on.map (·, true) ++ off.map (·, false)) else none

/-- Whether a group can have this name. -/
def isGroupName : List Char → Bool
  | [] => false
  | c :: cs =>
    (c = '_' || isAlphabetic c)
      && cs.all (fun c => c = '_' || c = '.' || c = '[' || c = ']' || isAlphanumeric c)

/-- Reads the name of a group, which an angle bracket ends. -/
def readGroupName (cs : List Char) : Option (GroupBegin × List Char) :=
  let name := cs.takeWhile (· ≠ '>')
  match cs.dropWhile (· ≠ '>') with
  | [] => none
  | _ :: rest => if isGroupName name then some (.group (some name) [], rest) else none

/-- Reads the flags of a group, which a colon ends, or of the group around, which a closing
parenthesis ends. The latter cannot be empty. -/
def readFlags (cs : List Char) : Option (GroupBegin × List Char) := do
  let ends (c : Char) : Bool := c = ':' || c = ')'
  let flags ← flagSettings? (cs.takeWhile (!ends ·))
  match cs.dropWhile (!ends ·) with
  | ':' :: rest => some (.group none flags, rest)
  | ')' :: rest => if flags.isEmpty then none else some (.flags flags, rest)
  | _ => none

/-- Reads what follows an opening parenthesis. -/
def readGroupBegin (free : Bool) (cs : List Char) : Option (GroupBegin × List Char) :=
  match skipSpacing free cs with
  | '?' :: 'P' :: '<' :: rest => readGroupName rest
  | '?' :: '<' :: rest => readGroupName rest
  | '?' :: rest => readFlags rest
  | rest => some (.group none [], rest)

/-! ## Groups -/

/-- What has been read of a group, the latest first. -/
structure OpenGroup where
  alternatives : List Pattern := []
  parts : List Pattern := []

namespace OpenGroup

/-- Adds a part to the last alternative. -/
def add (g : OpenGroup) (part : Pattern) : OpenGroup := { g with parts := part :: g.parts }

/-- Begins another alternative. -/
def divide (g : OpenGroup) : OpenGroup where
  alternatives := Pattern.ofParts g.parts.reverse :: g.alternatives

/-- Repeats the last part. There must be one, and flags cannot be repeated. -/
def repeatLast? (g : OpenGroup) : Option OpenGroup :=
  match g.parts with
  | [] | .setFlags _ :: _ => none
  | part :: parts => some { g with parts := .repeated part :: parts }

/-- The pattern that has been read. -/
def content (g : OpenGroup) : Pattern := Pattern.ofAlternatives g.divide.alternatives.reverse

end OpenGroup

/-- Drops the question mark that makes a repetition lazy. -/
def dropLazy : List Char → List Char
  | '?' :: cs => cs
  | cs => cs

/-- Whether blanks stand for nothing under these flags. -/
def FlagSettings.freeSpacing (flags : FlagSettings) (free : Bool) : Bool :=
  (flags.lookup .freeSpacing).getD free

/-- Reads the content of a group, up to its closing parenthesis or the end of the text. Each step
takes at least one character, so that the length of the text is fuel enough. -/
def readGroup : Nat → Bool → OpenGroup → List Char → Option (Pattern × List Char)
  | 0, _, _, _ => none
  | fuel + 1, free, g, cs =>
    match skipSpacing free cs with
    | [] => some (g.content, [])
    | c :: rest =>
      match c with
      | ')' => some (g.content, ')' :: rest)
      | '|' => readGroup fuel free g.divide rest
      | '(' => do
        let (opening, rest) ← readGroupBegin free rest
        match opening with
        | .flags flags => readGroup fuel (flags.freeSpacing free) (g.add (.setFlags flags)) rest
        | .group name flags =>
          let (content, rest) ← readGroup fuel (flags.freeSpacing free) {} rest
          match rest with
          | ')' :: rest => readGroup fuel free (g.add (.group name flags content)) rest
          | _ => none
      | '[' => do
        let (set, rest) := openSet free rest
        let (set, rest) ← readSet free (rest.length + 1) set rest
        readGroup fuel free (g.add (.atom (.oneOf set))) rest
      | '*' | '+' | '?' => do readGroup fuel free (← g.repeatLast?) (dropLazy rest)
      | '{' => none
      | '\\' => do
        let (atom, rest) ← readEscape free rest
        readGroup fuel free (g.add (.atom atom)) rest
      | '.' => readGroup fuel free (g.add (.atom .any)) rest
      | '^' | '$' => readGroup fuel free (g.add (.atom .lineEdge)) rest
      | c => readGroup fuel free (g.add (.atom (.char { char := c }))) rest

/-- Reads a pattern. -/
def Pattern.parse? (cs : List Char) : Option Pattern :=
  match readGroup (cs.length + 1) false {} cs with
  | some (pattern, []) => some pattern
  | _ => none

end ForeignHandles
