import ForeignHandles.LogFilter.Pattern.Read

/-!
  Patterns that can be used.

  A pattern is used by an automaton that reads the bytes of a text in UTF-8. The automaton has no
  tables of Unicode: letter case and the shorthands for digits, blanks and words are there for ASCII
  only, with the flag `u` switched off. With that flag off, in turn, nothing may match a byte
  outside ASCII, since it would match a part of a character: no dot, no negated set, no such byte by
  its number. Where a word of any script begins or ends depends on the whole characters on both
  sides, which the automaton does not see; for words in ASCII one byte is enough.
-/
namespace ForeignHandles

/-- Why a pattern cannot be used. -/
inductive PatternError where
  /-- No pattern is written, or it asks for what the automaton does not have. -/
  | invalid
  /-- The pattern asks where a word of any script begins or ends. -/
  | wordEdge
  deriving DecidableEq

/-- The wording of a pattern error. -/
def PatternError.message : PatternError → String
  | .invalid => "error building NFA"
  | .wordEdge => "unsupported regex feature for DFAs: cannot build DFAs for regexes with Unicode "
      ++ "word boundaries; switch to ASCII word boundaries, or heuristically enable Unicode word "
      ++ "boundaries or use a different regex engine"

/-! ## Modes -/

/-- The flags that matter to a part of a pattern. -/
structure PatternMode where
  unicode : Bool := true
  ignoreCase : Bool := false
  deriving DecidableEq

/-- The mode under flags. -/
def PatternMode.set (m : PatternMode) (flags : FlagSettings) : PatternMode where
  unicode := (flags.lookup .unicode).getD m.unicode
  ignoreCase := (flags.lookup .ignoreCase).getD m.ignoreCase

mutual

/-- The atoms of a pattern in order, each with its mode, and the mode after the pattern. Flags hold
to the end of the group, in the alternatives to come too. -/
def Pattern.atoms (m : PatternMode) : Pattern → List (PatternMode × PatternAtom) × PatternMode
  | .empty => ([], m)
  | .atom a => ([(m, a)], m)
  | .setFlags flags => ([], m.set flags)
  | .group _ flags content => ((content.atoms (m.set flags)).1, m)
  | .repeated content => content.atoms m
  | .sequence parts => Pattern.atomsOfAll m parts
  | .choice alternatives => Pattern.atomsOfAll m alternatives

/-- The atoms of some patterns, and the mode after them. -/
def Pattern.atomsOfAll (m : PatternMode) :
    List Pattern → List (PatternMode × PatternAtom) × PatternMode
  | [] => ([], m)
  | p :: ps =>
    let (first, m) := p.atoms m
    let (rest, m) := Pattern.atomsOfAll m ps
    (first ++ rest, m)

end

/-! ## What the automaton can do -/

/-- Whether a character can be a member of a set. -/
def PatternMode.allowsMember (m : PatternMode) (c : PatternChar) : Bool :=
  if m.unicode then !m.ignoreCase else c.char.toNat < 0x80

mutual

/-- Whether a set can be used. -/
def CharSet.usable (m : PatternMode) : CharSet → Bool
  | .empty => true
  | .single c => m.allowsMember c
  | .range first last => m.allowsMember first && m.allowsMember last
  | .shorthand negated => !m.unicode && !negated
  | .named negated => if m.unicode then !m.ignoreCase else !negated
  | .brackets negated content => (m.unicode || !negated) && content.usable m
  | .union members => CharSet.allUsable m members
  | .operation left right => left.usable m && right.usable m

/-- Whether all sets can be used. -/
def CharSet.allUsable (m : PatternMode) : List CharSet → Bool
  | [] => true
  | set :: sets => set.usable m && CharSet.allUsable m sets

end

namespace PatternAtom

/-- Whether an atom can be used, questions of words apart. -/
def usable (m : PatternMode) : PatternAtom → Bool
  | .char c => if m.unicode then !m.ignoreCase else !(c.asByte && 0x80 ≤ c.char.toNat)
  | .oneOf set => set.usable m
  | .any => m.unicode
  | .lineEdge | .wordEdge => true

/-- Whether an atom asks where a word of any script begins or ends. -/
def asksForWords (m : PatternMode) : PatternAtom → Bool
  | .wordEdge => m.unicode
  | _ => false

end PatternAtom

/-! ## Patterns -/

namespace Pattern

/-- How deep a pattern may be nested. -/
def maxDepth : Nat := 250

/-- Whether a pattern can be used, questions of words apart. -/
def usable (p : Pattern) : Bool :=
  p.depth ≤ maxDepth && p.names.Nodup && (p.atoms {}).1.all (fun a => a.2.usable a.1)

/-- Checks that a text is a pattern that can be used. -/
def check (cs : List Char) : Except PatternError Unit :=
  match parse? cs with
  | none => .error .invalid
  | some p =>
    if !p.usable then .error .invalid
    else if (p.atoms {}).1.any (fun a => a.2.asksForWords a.1) then .error .wordEdge
    else .ok ()

end Pattern

end ForeignHandles
