import ForeignHandles.LogFilter.Directive
import ForeignHandles.Logging

/-!
  Log filters that can be run.

  Logging takes its directives from a library of its own, and nothing that is proved depends on what
  that library does.  To run the whole program one has to have it, though: here it is, as far as its
  answers can be seen.  A filter is a list of directives in the order of `Directive.placing`.  There
  is one directive for the same conditions; a later one replaces an earlier one.  In writing,
  directives are separated by commas.
-/
namespace ForeignHandles

/-- Directives in the order in which they are looked at. -/
abbrev LogFilter := List Directive

namespace LogFilter

/-- Puts a directive in its place, where it replaces one with the same conditions. -/
def add (d : Directive) : LogFilter → LogFilter
  | [] => [d]
  | e :: es =>
    match d.placing e with
    | .lt => d :: e :: es
    | .eq => d :: es
    | .gt => e :: add d es

/-- The library of these directives. -/
def library : DirectiveLibrary where
  Level := LogLevel
  Directive := Directive
  Filter := LogFilter
  Problem := DirectiveError
  info := .info
  ofLevel level := { level }
  read := Directive.parse
  empty := []
  add filter d := add d filter
  message := DirectiveError.message

/-- The filter in writing. -/
def text (filter : LogFilter) : String := ",".intercalate (filter.map Directive.text)

/-- The filter in force. -/
def build (baseline : LogLevel) (configured environment : Option String) :
    Except DirectiveError LogFilter :=
  library.filterOf { level := baseline, filter := configured } environment

end LogFilter

/-- Sets up logging with these directives. -/
def initializeLogging (filter : Input) (environment : Option String) :
    Except BoundaryError Unit :=
  LogFilter.library.setUp filter environment

end ForeignHandles
