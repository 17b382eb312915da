/-!
  The debugger channel of a debug build: text comes in chunks, whole lines go out. In a release build
  there is no channel, and text that is written is gone.

  `splitLines` takes a text apart into its newline-terminated lines and what follows the last
  newline. A stream holds the line that no newline has ended yet. A chunk is split by itself, and
  what it has up to its first newline goes on with that line, which is not looked at again. Flushing
  sends the line out as it is, unless it is empty. A stream that is dropped is flushed.
-/
namespace ForeignHandles

/-- The complete lines of a text, without their newlines, and the text after the last newline. -/
def splitLines : List Char → List (List Char) × List Char
  | [] => ([], [])
  | c :: cs =>
    match splitLines cs with
    | (lines, rest) =>
      if c = '\n' then ([] :: lines, rest)
      else match lines with
        | [] => ([], c :: rest)
        | line :: lines => ((c :: line) :: lines, rest)

/-- A stream with the text that no newline has ended yet. -/
structure DebugStream where
  pending : List Char := []

namespace DebugStream

/-- Takes in a chunk; gives the lines it completes. -/
def write (s : DebugStream) (chunk : List Char) : List (List Char) × DebugStream :=
  match splitLines chunk with
  | ([], rest) => ([], ⟨s.pending ++ rest⟩)
  | (line :: lines, rest) => ((s.pending ++ line) :: lines, ⟨rest⟩)

/-- Ends the current line; gives it if it has any text. -/
def flush (s : DebugStream) : List (List Char) × DebugStream :=
  (if s.pending.isEmpty then [] else [s.pending], {})

/-- The lines that a whole text sends out through a fresh stream. -/
def linesOf (text : List Char) : List (List Char) :=
  match write {} text with
  | (lines, s) => lines ++ s.flush.1

end DebugStream

end ForeignHandles
