/-!
  The tree of a pattern.

  A pattern is a regular expression: characters, sets of characters in brackets, groups,
  alternatives and repetitions. The tree keeps what decides whether a pattern can be used (see
  `Pattern.check`): which members a set is made of, but not which characters they are; that a part
  is repeated, but not how often.
-/
namespace ForeignHandles

/-! ## Flags -/

/-- A way in which a part of a pattern is read. -/
inductive PatternFlag where
  | ignoreCase
  | multiLine
  | dotMatchesAll
  | swapGreed
  | unicode
  | carriageReturns
  | freeSpacing
  deriving DecidableEq

/-- The letter that stands for a flag. -/
def PatternFlag.ofLetter? : Char → Option PatternFlag
  | 'i' => some .ignoreCase
  | 'm' => some .multiLine
  | 's' => some .dotMatchesAll
  | 'U' => some .swapGreed
  | 'u' => some .unicode
  | 'R' => some .carriageReturns
  | 'x' => some .freeSpacing
  | _ => none

/-- Flags that are switched on or off; each occurs at most once. -/
abbrev FlagSettings := List (PatternFlag × Bool)

/-! ## Characters and sets of characters -/

/-- A character, and whether it is written as the number of a byte. -/
structure PatternChar where
  char : Char
  asByte : Bool := false
  deriving DecidableEq

/-- A set of characters. -/
inductive CharSet where
  | empty
  | single (char : PatternChar)
  | range (first last : PatternChar)
  /-- Digits, blanks or word characters, or all others: `\d`, `\S`. -/
  | shorthand (negated : Bool)
  /-- A class that is called by name: `[:alpha:]`, `[:^alpha:]`. -/
  | named (negated : Bool)
  | brackets (negated : Bool) (content : CharSet)
  /-- At least two sets beside each other. -/
  | union (members : List CharSet)
  /-- An intersection or a difference. -/
  | operation (left right : CharSet)

namespace CharSet

/-- Sets beside each other. -/
def ofMembers : List CharSet → CharSet
  | [] => .empty
  | [set] => set
  | sets => .union sets

mutual

/-- How deep brackets, unions and operations are nested. -/
def depth : CharSet → Nat
  | .brackets _ content => content.depth + 1
  | .union members => deepest members + 1
  | .operation left right => max left.depth right.depth + 1
  | _ => 0

/-- The depth of the deepest set. -/
def deepest : List CharSet → Nat
  | [] => 0
  | set :: sets => max set.depth (deepest sets)

end

end CharSet

/-! ## Patterns -/

/-- The smallest parts of a pattern. -/
inductive PatternAtom where
  | char (c : PatternChar)
  | oneOf (set : CharSet)
  /-- Any character: the dot. -/
  | any
  /-- The begin or the end of a line or of the text. -/
  | lineEdge
  /-- The begin or the end of a word, or any other place: `\b`, `\<`, `\>`, `\B`. -/
  | wordEdge

/-- A pattern. -/
inductive Pattern where
  | empty
  | atom (atom : PatternAtom)
  /-- Sets flags for the rest of the group. -/
  | setFlags (flags : FlagSettings)
  /-- A group; it may have a name and flags of its own. -/
  | group (name : Option (List Char)) (flags : FlagSettings) (content : Pattern)
  | repeated (content : Pattern)
  /-- At least two parts, one after the other. -/
  | sequence (parts : List Pattern)
  /-- At least two alternatives. -/
  | choice (alternatives : List Pattern)

namespace Pattern

/-- Parts one after the other. -/
def ofParts : List Pattern → Pattern
  | [] => .empty
  | [part] => part
  | parts => .sequence parts

/-- Alternatives. -/
def ofAlternatives : List Pattern → Pattern
  | [part] => part
  | alternatives => .choice alternatives

mutual

/-- How deep groups, repetitions, sequences, alternatives and sets are nested. -/
def depth : Pattern → Nat
  | .atom (.oneOf set) => set.depth
  | .group _ _ content => content.depth + 1
  | .repeated content => content.depth + 1
  | .sequence parts => deepest parts + 1
  | .choice alternatives => deepest alternatives + 1
  | _ => 0

/-- The depth of the deepest pattern. -/
def deepest : List Pattern → Nat
  | [] => 0
  | p :: ps => max p.depth (deepest ps)

end

mutual

/-- The names of the groups, from left to right. -/
def names : Pattern → List (List Char)
  | .group name _ content => name.toList ++ content.names
  | .repeated content => content.names
  | .sequence parts => namesOfAll parts
  | .choice alternatives => namesOfAll alternatives
  | _ => []

/-- The names of the groups of some patterns. -/
def namesOfAll : List Pattern → List (List Char)
  | [] => []
  | p :: ps => p.names ++ namesOfAll ps

end

end Pattern

end ForeignHandles
