import ForeignHandles.Text.Digits

/-!
  Log levels: how much is let through, from nothing to everything.

  A level is written as its name in any case or as its number.
-/
namespace ForeignHandles

/-- How much is let through. -/
inductive LogLevel where
  | off | error | warn | info | debug | trace
  deriving DecidableEq

namespace LogLevel

/-- The levels in order; the number of a level is its place. -/
def all : List LogLevel := [.off, .error, .warn, .info, .debug, .trace]

def name : LogLevel → String
  | .off => "off"
  | .error => "error"
  | .warn => "warn"
  | .info => "info"
  | .debug => "debug"
  | .trace => "trace"

/-- Reads a level: its name in any case, or its number. -/
def parse? (cs : List Char) : Option LogLevel :=
  match (unsignedDecimal? cs).bind (all[·]?) with
  | some level => some level
  | none => all.find? (fun level => level.name.toList == cs.map Char.toLower)

end LogLevel

end ForeignHandles
