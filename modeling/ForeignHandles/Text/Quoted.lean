import ForeignHandles.Text.Digits
import ForeignHandles.Text.Printable

/-!
  Quoted text: a text between double quotes, fit for one line of diagnostics.

  The quote, the backslash and four control characters have a two-character form. Any other
  character that would not stand for itself (`isPrintable`) is written as its number in base
  sixteen between braces. A single quote is left alone.
-/
namespace ForeignHandles

/-- How one character is written between the quotes. -/
def escape (c : Char) : List Char :=
  if c = '\x00' then ['\\', '0']
  else if c = '\t' then ['\\', 't']
  else if c = '\r' then ['\\', 'r']
  else if c = '\n' then ['\\', 'n']
  else if c = '"' then ['\\', '"']
  else if c = '\\' then ['\\', '\\']
  else if isPrintable c then [c]
  else ['\\', 'u', '\x7b'] ++ hexDigits c.toNat ++ ['\x7d']

/-- The text between double quotes. -/
def quote (s : String) : String :=
  String.ofList ('"' :: s.toList.flatMap escape ++ ['"'])

end ForeignHandles
