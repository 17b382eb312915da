import ForeignHandles.Cache.Basic
import ForeignHandles.Text.Digits

/-!
  The printed forms of a cache.

  A dump has a header with the number of mappings and a line for each, in the order in which they
  were added. How a key is spelled is up to whoever prints.
-/
namespace ForeignHandles.Cache

variable {K : Type}

/-- The first line of a dump. -/
def header (c : Cache K) : String :=
  "ValueCache (" ++ toString c.mapping.entries.length ++ " entries)"

/-- The line of one mapping. -/
def entryLine (spell : K → String) (entry : K × ExternalHandle) : String :=
  "  " ++ spell entry.1 ++ " => " ++ hexWord entry.2

/-- The lines of a dump. -/
def dumpLines (spell : K → String) (c : Cache K) : List String :=
  c.header :: c.mapping.entries.map (entryLine spell)

/-- A dump as one text; every line ends with a newline. -/
def dump (spell : K → String) (c : Cache K) : String :=
  String.join ((c.dumpLines spell).map (· ++ "\n"))

/-- What diagnostics say about the queue. -/
def queueText (c : Cache K) : String :=
  "pending: " ++ toString c.pending.length ++ ", dispatching: " ++ toString c.stage.isSome

/-- The cache with all its parts, for diagnostics. -/
def debugText (spell : K → String) (c : Cache K) : String :=
  let pairs := c.mapping.entries.map (fun entry => spell entry.1 ++ ": " ++ toString entry.2.toInt)
  "ValueCache \x7b entries: \x7b" ++ ", ".intercalate pairs ++ "\x7d, " ++ c.queueText ++
    ", .. \x7d"

end ForeignHandles.Cache
