import ForeignHandles.LogFilter.Pattern.Tree
import ForeignHandles.Text.Blank
import ForeignHandles.Text.Digits

/-!
  Reading of escapes and of sets in brackets.

  Each reader takes the text from its place on, and gives what it read and the text after it.

  In free spacing (`free`) blanks stand for nothing, and so do comments, which a hash begins and the
  end of the line ends.

  A set in brackets lists characters, ranges, shorthands, named classes and sets in brackets. A
  hyphen stands for itself at the beginning, before the closing bracket and wherever it cannot write
  a range; a closing bracket stands for itself as the first of all. `&&`, `--` and `~~` are
  operations; the leftmost binds first.
-/
namespace ForeignHandles

/-! ## Spacing -/

/-- Drops blanks and comments; `comment` says whether the text begins within a comment. -/
def skipComments (comment : Bool) : List Char → List Char
  | [] => []
  | c :: cs =>
    if comment then skipComments (c ≠ '\n') cs
    else if isBlank c then skipComments false cs
    else if c = '#' then skipComments true cs
    else c :: cs

/-- Drops what stands for nothing. -/
def skipSpacing (free : Bool) (cs : List Char) : List Char :=
  if free then skipComments false cs else cs

/-- The next character. In free spacing blanks do not count, and neither does a hash among them; the
comment after it does. -/
def lookAhead (free : Bool) (cs : List Char) : Option Char :=
  if free then
    match cs.dropWhile isBlank with
    | '#' :: rest => (rest.dropWhile isBlank).head?
    | rest => rest.head?
  else cs.head?

/-! ## Escapes -/

/-- Reads `count` digits of base sixteen that continue the number `n`. -/
def readHexDigits (free : Bool) (n : Nat) : Nat → List Char → Option (Nat × List Char)
  | 0, cs => some (n, cs)
  | count + 1, cs =>
    match skipSpacing free cs with
    | [] => none
    | c :: rest => (hexValue? c).bind (fun d => readHexDigits free (n * 16 + d) count rest)

/-- Reads the number of a character. -/
def readCharNumber (free : Bool) (digits : Nat) (cs : List Char) : Option (Char × List Char) :=
  match readHexDigits free 0 digits cs with
  | some (n, rest) => if n.isValidChar then some (Char.ofNat n, rest) else none
  | none => none

/-- The character that a backslash and a character stand for: a control character for some letters,
and otherwise the character itself, unless it is a letter, a digit, an angle bracket or outside
ASCII. -/
def escaped? (c : Char) : Option Char :=
  match c with
  | 'a' => some '\x07'
  | 'f' => some '\x0C'
  | 'n' => some '\n'
  | 'r' => some '\r'
  | 't' => some '\t'
  | 'v' => some '\x0B'
  | _ => if c.toNat < 0x80 && !c.isAlphanum && c ≠ '<' && c ≠ '>' then some c else none

/-- Reads what follows a backslash. The number of a character must be written without braces. -/
def readEscape (free : Bool) : List Char → Option (PatternAtom × List Char)
  | [] => none
  | c :: cs =>
    match c with
    | 'x' => (readCharNumber free 2 cs).map (fun r => (.char { char := r.1, asByte := true }, r.2))
    | 'u' => (readCharNumber free 4 cs).map (fun r => (.char { char := r.1 }, r.2))
    | 'U' => (readCharNumber free 8 cs).map (fun r => (.char { char := r.1 }, r.2))
    | 'd' | 's' | 'w' => some (.oneOf (.shorthand false), cs)
    | 'D' | 'S' | 'W' => some (.oneOf (.shorthand true), cs)
    | 'A' | 'z' => some (.lineEdge, cs)
    | 'b' | 'B' | '<' | '>' => some (.wordEdge, cs)
    | _ => (escaped? c).map (fun e => (.char { char := e }, cs))

/-! ## Members of a set -/

/-- Reads an escape or a character that stands for itself. -/
def readMember (free : Bool) : List Char → Option (PatternAtom × List Char)
  | [] => none
  | '\\' :: cs => readEscape free cs
  | c :: cs => some (.char { char := c }, cs)

/-- The set that a member of a set writes; edges are no members. -/
def PatternAtom.toSet? : PatternAtom → Option CharSet
  | .char c => some (.single c)
  | .oneOf set => some set
  | _ => none

/-- The range between two members, which must be characters in ascending order. -/
def CharSet.range? : PatternAtom → PatternAtom → Option CharSet
  | .char first, .char last => if first.char ≤ last.char then some (.range first last) else none
  | _, _ => none

/-- Reads a member or a range. A hyphen before a closing bracket or a hyphen writes no range. -/
def readRange (free : Bool) (cs : List Char) : Option (CharSet × List Char) := do
  let (first, rest) ← readMember free cs
  let rest := skipSpacing free rest
  match rest with
  | '-' :: after =>
    match lookAhead free after with
    | some ']' | some '-' => return (← first.toSet?, rest)
    | _ =>
      let (last, rest) ← readMember free (skipSpacing free after)
      return (← CharSet.range? first last, rest)
  | _ => return (← first.toSet?, rest)

/-- The names of classes. -/
def classNames : List String :=
  ["alnum", "alpha", "ascii", "blank", "cntrl", "digit", "graph", "lower", "print", "punct",
   "space", "upper", "word", "xdigit"]

/-- Reads a named class, from behind its opening bracket on. -/
def readNamedClass : List Char → Option (CharSet × List Char)
  | ':' :: cs =>
    let (negated, cs) := match cs with
      | '^' :: rest => (true, rest)
      | _ => (false, cs)
    match cs.dropWhile (· ≠ ':') with
    | ':' :: ']' :: rest =>
      if classNames.contains (String.ofList (cs.takeWhile (· ≠ ':'))) then
        some (.named negated, rest)
      else none
    | _ => none
  | _ => none

/-! ## Sets in brackets -/

/-- What has been read of a set in brackets. -/
structure OpenSet where
  negated : Bool
  /-- The set to the left of the last operation. -/
  left : Option CharSet := none
  /-- The members after the last operation, the latest first. -/
  members : List CharSet := []
  /-- Whether nothing but hyphens has been read. -/
  atBegin : Bool := true

namespace OpenSet

/-- Adds a member. -/
def add (set : OpenSet) (member : CharSet) : OpenSet :=
  { set with members := member :: set.members, atBegin := false }

/-- Adds a hyphen that stands for itself. -/
def addHyphen (set : OpenSet) : OpenSet :=
  { set with members := .single { char := '-' } :: set.members }

/-- The set that has been read. -/
def content (set : OpenSet) : CharSet :=
  let members := CharSet.ofMembers set.members.reverse
  match set.left with
  | none => members
  | some left => .operation left members

/-- Begins the right side of an operation. -/
def operate (set : OpenSet) : OpenSet :=
  { negated := set.negated, left := some set.content, atBegin := false }

end OpenSet

/-- Reads the negation of a set, from behind its opening bracket on. -/
def openSet (free : Bool) (cs : List Char) : OpenSet × List Char :=
  match skipSpacing free cs with
  | '^' :: rest => ({ negated := true }, rest)
  | rest => ({ negated := false }, rest)

/-- Reads a set in brackets to its end. Each step takes at least one character, so that the length
of the text is fuel enough. -/
def readSet (free : Bool) : Nat → OpenSet → List Char → Option (CharSet × List Char)
  | 0, _, _ => none
  | fuel + 1, set, cs =>
    match skipSpacing free cs with
    | [] => none
    | '-' :: rest =>
      if set.atBegin then readSet free fuel set.addHyphen rest
      else match rest with
        | '-' :: rest => readSet free fuel set.operate rest
        | _ => do
          let (member, rest) ← readRange free ('-' :: rest)
          readSet free fuel (set.add member) rest
    | ']' :: rest =>
      if set.atBegin && set.members.isEmpty then
        readSet free fuel (set.add (.single { char := ']' })) rest
      else some (.brackets set.negated set.content, rest)
    | '[' :: rest =>
      match readNamedClass rest with
      | some (named, rest) => readSet free fuel (set.add named) rest
      | none => do
        let (inner, rest) := openSet free rest
        let (member, rest) ← readSet free fuel inner rest
        readSet free fuel (set.add member) rest
    | '&' :: '&' :: rest => readSet free fuel set.operate rest
    | '~' :: '~' :: rest => readSet free fuel set.operate rest
    | rest => do
      let (member, rest) ← readRange free rest
      readSet free fuel (set.add member) rest

end ForeignHandles
