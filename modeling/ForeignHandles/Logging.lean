import ForeignHandles.Text.Blank
import ForeignHandles.Text.Require

/-!
  Setting up logging.

  A log filter is made of directives.  What a directive is, how it is read and what a filter does
  with it belongs to a library of its own, and everything here takes that library as a record
  (`DirectiveLibrary`): nothing is assumed of it, so what is said of the surface holds with any
  reader of directives and any wording of its errors.

  What is decided here is where the directives come from and how they are taken apart.

  1. **Which text.**  The environment's filter takes the place of the configured one, unless it is
     blank.  A caller who passes no text configures none.

  2. **Which directives.**  The text is divided at commas, the parts are trimmed, and empty parts
     are left out.  The directives are added in order to a filter that has the baseline level alone,
     and the first part that cannot be read ends it.

  3. **Which error.**  The caller is told what the library says about that part, together with the
     text that the caller passed, whichever text the part was from.

  A subscriber that is there already stays, and the call succeeds all the same; so nothing of what
  is installed shows in an answer, and no subscriber is kept here.
-/
namespace ForeignHandles

/-- What reads directives and makes filters of them. -/
structure DirectiveLibrary where
  /-- How much is let through. -/
  Level : Type
  Directive : Type
  Filter : Type
  /-- Why a text is no directive. -/
  Problem : Type
  /-- The level that holds unless another is asked for. -/
  info : Level
  /-- The directive that has a level hold for everything. -/
  ofLevel : Level → Directive
  read : List Char → Except Problem Directive
  /-- The filter without directives. -/
  empty : Filter
  add : Filter → Directive → Filter
  message : Problem → String

namespace DirectiveLibrary

/-- The parts of a filter text: separated by commas, trimmed, empty ones left out. -/
def parts (text : List Char) : List (List Char) :=
  ((splitAtCommas text).map trimBlanks).filter (fun p => !p.isEmpty)
where
  splitAtCommas : List Char → List (List Char)
    | [] => [[]]
    | c :: cs =>
      if c = ',' then [] :: splitAtCommas cs
      else match splitAtCommas cs with
        | [] => [[c]]
        | p :: ps => (c :: p) :: ps

variable (lib : DirectiveLibrary)

/-- How logging is configured: the level for everything, and what else is asked for. -/
structure Config where
  level : lib.Level := lib.info
  filter : Option String := none

/-- Adds the directives of a text, in order. -/
def addAll (filter : lib.Filter) (text : List Char) : Except lib.Problem lib.Filter :=
  (parts text).foldlM (fun f p => (lib.read p).map (lib.add f)) filter

/-- The text whose directives count: the environment's, unless it is blank, or the configured
one. -/
def chosenText (configured environment : Option String) : Option String :=
  match environment.filter (fun e => !(trimBlanks e.toList).isEmpty) with
  | some e => some e
  | none => configured

/-- The filter in force: the chosen directives on top of the baseline level. -/
def filterOf (config : lib.Config) (environment : Option String) :
    Except lib.Problem lib.Filter :=
  let baseline := lib.add lib.empty (lib.ofLevel config.level)
  match chosenText config.filter environment with
  | none => .ok baseline
  | some text => lib.addAll baseline text.toList

/-- Sets up logging from a text argument; an empty text configures no filter of its own. -/
def setUp (filter : Input) (environment : Option String) : Except BoundaryError Unit := do
  let text ← filter.optional "filter"
  let config : lib.Config := if text.isEmpty then {} else { filter := some text }
  match lib.filterOf config environment with
  | .ok _ => .ok ()
  | .error e => .error (.text ("invalid log filter '" ++ text ++ "': " ++ lib.message e))

end DirectiveLibrary

end ForeignHandles
