import ForeignHandles.DebugStream

/-!
  The lines of a debug stream do not depend on its chunks.

  1. **What a text is made of.**  Lines that newlines have ended, and what follows the last newline.
     A text can be taken apart like that in one way only (`splitLines_eq_iff`), so to say that it is
     made of certain lines is to say which lines it has.

  2. **What a chunk does.**  The text since the last flush is made of the lines that have been sent
     out since then and the line that is pending.  This is the invariant, and `isSplit_write` is its
     step: the first newline of a chunk ends the pending line, wherever that began.

  3. **What a stream sends out** until it is dropped.  Between two flushes it is what the text in
     between would give in one chunk (`emitted_eq`), so nothing but that text matters.

  The stream is given text in chunks of any size, and chunks know nothing of lines. What is proved
  is that nobody who reads the lines can tell how the text was cut.
-/
namespace ForeignHandles

/-! ## What a text is made of

`IsSplit` is a relation, and `splitLines` computes it. The relation is what the invariant is
stated with, since it can be extended at the end, while the function goes through a text from the
front. -/

/-- A text taken apart: lines that newlines have ended, and what follows the last newline. -/
structure IsSplit (text : List Char) (lines : List (List Char)) (rest : List Char) : Prop where
  whole : lines.flatMap (· ++ ['\n']) ++ rest = text
  line : ∀ line ∈ lines, '\n' ∉ line
  rest : '\n' ∉ rest

namespace IsSplit

variable {text chunk line rest rest' : List Char} {lines more : List (List Char)}

/-- No text has no lines. -/
theorem empty : IsSplit [] [] [] := ⟨rfl, nofun, List.not_mem_nil⟩

/-- More text without a newline goes on with the rest, -/
theorem extend (h : IsSplit text lines rest) (hchunk : '\n' ∉ chunk) :
    IsSplit (text ++ chunk) lines (rest ++ chunk) where
  whole := by rw [← h.whole, List.append_assoc]
  line := h.line
  rest := by
    rw [List.mem_append, not_or]
    exact ⟨h.rest, hchunk⟩

/-- and with a newline it ends the rest as a line. -/
theorem complete (h : IsSplit text lines rest) (hchunk : IsSplit chunk (line :: more) rest') :
    IsSplit (text ++ chunk) (lines ++ (rest ++ line) :: more) rest' where
  whole := by
    rw [← h.whole, ← hchunk.whole]
    simp
  line := by
    intro l hl
    rcases List.mem_append.1 hl with hl | hl
    · exact h.line l hl
    · rcases List.mem_cons.1 hl with rfl | hl
      · rw [List.mem_append, not_or]
        exact ⟨h.rest, hchunk.line line List.mem_cons_self⟩
      · exact hchunk.line l (List.mem_cons_of_mem line hl)
  rest := hchunk.rest

end IsSplit

/-- The function takes a text apart. The induction is on the text; the first character goes on
with the line behind it, or it is a newline and ends an empty one. -/
theorem isSplit_splitLines (text : List Char) :
    IsSplit text (splitLines text).1 (splitLines text).2 := by
  induction text with
  | nil => exact .empty
  | cons c cs ih =>
    rcases hsplit : splitLines cs with ⟨lines, rest⟩
    rw [hsplit] at ih
    by_cases hc : c = '\n'
    · subst hc
      have heq : splitLines ('\n' :: cs) = ([] :: lines, rest) := by simp [splitLines, hsplit]
      have hnewline : IsSplit ['\n'] [[]] [] := ⟨rfl, by simp, List.not_mem_nil⟩
      rw [heq]
      cases lines with
      | nil =>
        obtain rfl : rest = cs := ih.whole
        exact hnewline.extend ih.rest
      | cons first lines => exact hnewline.complete ih
    · have hchar : IsSplit [c] [] [c] := ⟨rfl, nofun, by simpa using Ne.symm hc⟩
      cases lines with
      | nil =>
        have heq : splitLines (c :: cs) = ([], c :: rest) := by simp [splitLines, hsplit, hc]
        rw [heq]
        obtain rfl : rest = cs := ih.whole
        exact hchar.extend ih.rest
      | cons first lines =>
        have heq : splitLines (c :: cs) = ((c :: first) :: lines, rest) := by
          simp [splitLines, hsplit, hc]
        rw [heq]
        exact hchar.complete ih

/-- A text without newlines is all rest. -/
theorem splitLines_of_not_mem {cs : List Char} (h : '\n' ∉ cs) : splitLines cs = ([], cs) := by
  induction cs with
  | nil => rfl
  | cons c cs ih =>
    have hc : c ≠ '\n' := fun heq => h (heq ▸ List.mem_cons_self)
    have hcs : '\n' ∉ cs := fun hm => h (List.mem_cons_of_mem c hm)
    simp [splitLines, ih hcs, hc]

/-- The first newline ends the first line. -/
theorem splitLines_line {line : List Char} (h : '\n' ∉ line) (cs : List Char) :
    splitLines (line ++ '\n' :: cs) = (line :: (splitLines cs).1, (splitLines cs).2) := by
  induction line with
  | nil => rfl
  | cons c line ih =>
    have hc : c ≠ '\n' := fun heq => h (heq ▸ List.mem_cons_self)
    have hline : '\n' ∉ line := fun hm => h (List.mem_cons_of_mem c hm)
    simp [splitLines, ih hline, hc]

/-- There is one way to take a text apart. -/
theorem splitLines_eq_iff {text rest : List Char} {lines : List (List Char)} :
    splitLines text = (lines, rest) ↔ IsSplit text lines rest := by
  constructor
  · intro h
    have hsplit := isSplit_splitLines text
    rwa [h] at hsplit
  · rintro ⟨rfl, hlines, hrest⟩
    induction lines with
    | nil => exact splitLines_of_not_mem hrest
    | cons line lines ih =>
      have hline : '\n' ∉ line := hlines line List.mem_cons_self
      have hmore := ih fun l hl => hlines l (List.mem_cons_of_mem line hl)
      rw [List.flatMap_cons, List.append_assoc, List.append_assoc, List.singleton_append,
        splitLines_line hline, hmore]

namespace DebugStream

variable {s : DebugStream} {text : List Char} {lines : List (List Char)}

/-! ## What a chunk does

A chunk without a newline goes on with the pending line; otherwise its first line completes that,
and its last one is pending. -/

/-- What a chunk completes are the next lines of the text so far. -/
theorem isSplit_write (h : IsSplit text lines s.pending) (chunk : List Char) :
    IsSplit (text ++ chunk) (lines ++ (s.write chunk).1) (s.write chunk).2.pending := by
  have hchunk := isSplit_splitLines chunk
  rcases hsplit : splitLines chunk with ⟨more, rest⟩
  rw [hsplit] at hchunk
  simp only [write, hsplit]
  cases more with
  | nil =>
    obtain rfl : rest = chunk := hchunk.whole
    rw [List.append_nil]
    exact h.extend hchunk.rest
  | cons line more => exact h.complete hchunk

/-! ## What a stream sends out

A stretch is the text between two flushes. The lines that are sent out are those of each stretch,
the last line of it included if it is not empty. -/

/-- What can happen to a stream before it is dropped. -/
inductive Action where
  | write (chunk : List Char)
  | flush

/-- The lines that an action sends out, and the stream afterwards. -/
def act (s : DebugStream) : Action → List (List Char) × DebugStream
  | .write chunk => s.write chunk
  | .flush => s.flush

/-- The lines that a run sends out, and the stream afterwards. -/
def run (s : DebugStream) : List Action → List (List Char) × DebugStream
  | [] => ([], s)
  | a :: actions => ((s.act a).1 ++ ((s.act a).2.run actions).1, ((s.act a).2.run actions).2)

/-- All lines that a stream sends out in a run and when it is dropped at the end. -/
def emitted (s : DebugStream) (actions : List Action) : List (List Char) :=
  (s.run actions).1 ++ (s.run actions).2.flush.1

/-- The text between flushes: up to the first one, between the first and the second, and so on. -/
def stretches : List Action → List (List Char)
  | [] => [[]]
  | .write chunk :: actions => (stretches actions).modifyHead (chunk ++ ·)
  | .flush :: actions => [] :: stretches actions

/-- Two runs in a row send out what the first does and then what the second does. -/
theorem run_append (s : DebugStream) (first second : List Action) :
    s.run (first ++ second) =
      ((s.run first).1 ++ ((s.run first).2.run second).1, ((s.run first).2.run second).2) := by
  induction first generalizing s with
  | nil => rfl
  | cons a first ih => simp only [List.cons_append, run, ih, List.append_assoc]

/-- As many chunks as there are complete the lines of their text. -/
theorem isSplit_run (h : IsSplit text lines s.pending) (chunks : List (List Char)) :
    IsSplit (text ++ chunks.flatten) (lines ++ (s.run (chunks.map .write)).1)
      (s.run (chunks.map .write)).2.pending := by
  induction chunks generalizing s text lines with
  | nil =>
    rw [List.flatten_nil, List.append_nil]
    exact (List.append_nil lines).symm ▸ h
  | cons chunk chunks ih =>
    have hrest := ih (isSplit_write h chunk)
    rwa [List.append_assoc, List.append_assoc] at hrest

/-- A stream is empty after a flush. -/
theorem run_of_getLast? {actions : List Action} (h : actions = [] ∨ actions.getLast? = some .flush) :
    (run {} actions).2 = {} := by
  rcases h with rfl | h
  · rfl
  · obtain ⟨front, rfl⟩ := List.getLast?_eq_some_iff.1 h
    rw [run_append]
    rfl

/-- What an action sends out comes first. -/
theorem emitted_cons (s : DebugStream) (a : Action) (actions : List Action) :
    s.emitted (a :: actions) = (s.act a).1 ++ (s.act a).2.emitted actions :=
  List.append_assoc ..

/-- The lines of a stretch are those that were ended in it, and the rest, if a flush sends it out.
-/
theorem linesOf_of_isSplit (h : IsSplit text lines s.pending) :
    linesOf text = lines ++ s.flush.1 := by
  have hsplit := splitLines_eq_iff.2 h
  cases lines <;> simp [linesOf, write, flush, hsplit]

/-- The lines of the first stretch may have been sent out in part. -/
theorem emitted_of_isSplit (h : IsSplit text lines s.pending) (actions : List Action) :
    lines ++ s.emitted actions = ((stretches actions).modifyHead (text ++ ·)).flatMap linesOf := by
  induction actions generalizing s text lines with
  | nil => simp [emitted, run, stretches, linesOf_of_isSplit h]
  | cons a actions ih =>
    rw [emitted_cons, ← List.append_assoc]
    cases a with
    | write chunk =>
      -- the stretch is longer by the chunk
      have hmore := ih (isSplit_write h chunk)
      rw [stretches, List.modifyHead_modifyHead]
      show lines ++ (s.write chunk).1 ++ (s.write chunk).2.emitted actions = _
      rw [hmore]
      simp [Function.comp_def]
    | flush =>
      -- the flush ends the stretch, and the next one begins with an empty stream
      have hfresh : emitted {} actions = (stretches actions).flatMap linesOf := by
        have hmore := ih (s := {}) .empty
        rwa [show (([] : List Char) ++ ·) = id from rfl, List.modifyHead_id] at hmore
      show lines ++ s.flush.1 ++ emitted {} actions = _
      rw [hfresh, ← linesOf_of_isSplit h]
      simp [stretches]

/-- A new stream sends out what it would if each stretch of text came in one chunk. -/
theorem emitted_eq (actions : List Action) :
    emitted {} actions = (stretches actions).flatMap linesOf := by
  have h := emitted_of_isSplit (s := {}) .empty actions
  rwa [show (([] : List Char) ++ ·) = id from rfl, List.modifyHead_id] at h

/-- **Lines do not depend on chunks.**

Take any run, any chunks that follow its start or a flush, and their text.  They send out the lines
that newlines end in that text, and what follows its last newline is pending; the flush after them, or
the drop, sends that out if it is not empty.  So two runs send out the same lines if they have the same
text between their flushes. -/
theorem lines_do_not_depend_on_chunks :
    (∀ (before : List Action) (chunks : List (List Char)),
      (before = [] ∨ before.getLast? = some .flush) →
      ∃ lines rest, IsSplit chunks.flatten lines rest ∧
        run {} (before ++ chunks.map .write) = ((run {} before).1 ++ lines, ⟨rest⟩) ∧
        run {} (before ++ chunks.map .write ++ [.flush]) =
          ((run {} before).1 ++ lines ++ (if rest = [] then [] else [rest]), {}) ∧
        emitted {} (before ++ chunks.map .write) =
          (run {} before).1 ++ lines ++ (if rest = [] then [] else [rest])) ∧
    ∀ actions actions', stretches actions = stretches actions' →
      emitted {} actions = emitted {} actions' := by
  refine ⟨fun before chunks hbefore => ?_, fun actions actions' hsame => ?_⟩
  · have hsplit := isSplit_run (s := {}) .empty chunks
    rcases hrun : run {} (chunks.map .write) with ⟨lines, ⟨rest⟩⟩
    rw [hrun] at hsplit
    have hwrites : run {} (before ++ chunks.map .write) = ((run {} before).1 ++ lines, ⟨rest⟩) := by
      rw [run_append, run_of_getLast? hbefore, hrun]
    have hflush : (flush ⟨rest⟩) = (if rest = [] then [] else [rest], {}) := by
      simp [flush]
    refine ⟨lines, rest, hsplit, hwrites, ?_, ?_⟩
    · rw [run_append, hwrites]
      simp [run, act, hflush]
    · simp [emitted, hwrites, hflush]
  · rw [emitted_eq, emitted_eq, hsame]

/-- Chunks that end before, on and after newlines, and between two flushes nothing. -/
def cutUp : List Action :=
  [.write ['a'], .write [], .write ['b', '\n', '\n'], .write ['c'], .flush, .flush, .write ['\n'],
    .write ['d', '\n', 'e']]

/-- One chunk for each of its stretches. -/
def inOnePiece : List Action :=
  [.write ['a', 'b', '\n', '\n', 'c'], .flush, .write [], .flush, .write ['\n', 'd', '\n', 'e']]

/-- Both send out the same six lines. -/
theorem cutUp_as_inOnePiece : stretches cutUp = stretches inOnePiece ∧
    emitted {} cutUp = emitted {} inOnePiece ∧
      emitted {} cutUp = [['a', 'b'], [], ['c'], [], ['d'], ['e']] := by
  have hsame : stretches cutUp = stretches inOnePiece := by decide
  exact ⟨hsame, lines_do_not_depend_on_chunks.2 cutUp inOnePiece hsame, by decide⟩

end DebugStream

end ForeignHandles
