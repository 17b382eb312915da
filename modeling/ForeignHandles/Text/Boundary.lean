import ForeignHandles.Text.Utf8

/-!
  Text at the boundary.

  Text comes in as a place and a length (`Input`), so that NUL characters and slices need no
  copying; the null place is allowed with length zero. Text that an object owns goes out as a place
  and a length too (`lend`), where the empty text has the null place. Text that is made for the
  caller goes out as a buffer that ends with a NUL (`Message`), so its reader sees it only up to
  its first NUL.
-/
namespace ForeignHandles

/-! ## Text passed in -/

/-- A text argument: bytes at some place, or the null place with a length. -/
inductive Input where
  | null (length : Nat)
  | bytes (bytes : List UInt8)

namespace Input

/-- The bytes of a text as an argument. -/
def ofString (s : String) : Input := .bytes (Utf8.encode s)

/-- The bytes behind the argument. The null place has none, and only length zero is allowed
there. -/
def bytes? : Input → Option (List UInt8)
  | .null 0 => some []
  | .null _ => none
  | .bytes bs => some bs

end Input

/-! ## Text lent out -/

/-- The bytes at the place that is handed out; nothing for the null place. -/
def lend (bytes : List UInt8) : Option (List UInt8) :=
  if bytes.isEmpty then none else some bytes

/-- As `lend`, where the length is a 32-bit number: bytes too long for it are not handed out. -/
def lend32 (bytes : List UInt8) : Option (List UInt8) :=
  if bytes.isEmpty || 4294967296 ≤ bytes.length then none else some bytes

/-- The length that goes with bytes handed out. -/
def lentLength (lent : Option (List UInt8)) : Nat := (lent.getD []).length

/-- A text as its reader sees it: nothing when the place is null. -/
def lendText (s : String) : Option String := if s.isEmpty then none else some s

/-- As `lendText`, where the length is a 32-bit number. -/
def lendText32 (s : String) : Option String := (lend32 (Utf8.encode s)).map (fun _ => s)

/-! ## Text made for the caller -/

/-- The bytes of a buffer that ends with a NUL, without that NUL. -/
structure Message where
  bytes : List UInt8

namespace Message

/-- A message with the given text. -/
def ofString (s : String) : Message := ⟨Utf8.encode s⟩

/-- What is read from the buffer: everything before the first NUL. -/
def visible (m : Message) : List UInt8 := m.bytes.takeWhile (· ≠ 0)

/-- The visible bytes as text. -/
def text (m : Message) : String := Utf8.lossy m.visible

end Message

/-- A text after a trip through a message. -/
def throughMessage (s : String) : String := (Message.ofString s).text

end ForeignHandles
