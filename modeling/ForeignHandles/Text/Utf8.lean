/-!
  Reading bytes as UTF-8.

  Bytes are taken one at a time. Between characters a byte starts a sequence; inside a sequence
  the next byte has to lie in the range that the sequence still owes. `scan` turns bytes into
  pieces: characters, and for bytes that are no UTF-8 the longest run that could still have become a
  character. A byte that does not fit ends such a run and is itself taken as a start, so no byte
  is skipped and `scan` is a plain recursion on the bytes.

  Two readings are built on the pieces. `decode` is strict: it stops at the first piece that is no
  character and says where that is. `lossy` is total: it puts one replacement character in place of
  each such piece. `encode` is the way back.
-/
namespace ForeignHandles.Utf8

/-! ## The byte automaton -/

/-- The least and the greatest byte that may come next. -/
structure Owed where
  low : UInt8
  high : UInt8

/-- Any byte of the form `10xxxxxx`. -/
def Owed.tail : Owed := ⟨0x80, 0xBF⟩

/-- A sequence that has begun: its bits so far, how many bytes it has taken, and what it owes. -/
structure Open where
  bits : Nat
  taken : Nat
  owed : Owed
  more : List Owed

/-- A stretch of the input. -/
inductive Piece where
  | char (c : Char) (width : Nat)
  /-- Bytes that begin no character, followed by a byte that does not continue them. -/
  | invalid (width : Nat)
  /-- Bytes that begin a character and are cut off by the end of the input. -/
  | truncated (width : Nat)

/-- What a byte does between characters. Lead bytes whose sequences would be overlong, surrogates
or beyond the last code point narrow the range of the byte after them or are no lead bytes. -/
def start (b : UInt8) : List Piece × Option Open :=
  if b < 0x80 then ([.char (Char.ofNat b.toNat) 1], none)
  else if b < 0xC2 then ([.invalid 1], none)
  else if b < 0xE0 then ([], some ⟨b.toNat - 0xC0, 1, .tail, []⟩)
  else if b < 0xF0 then
    ([], some ⟨b.toNat - 0xE0, 1,
      if b = 0xE0 then ⟨0xA0, 0xBF⟩ else if b = 0xED then ⟨0x80, 0x9F⟩ else .tail, [.tail]⟩)
  else if b < 0xF5 then
    ([], some ⟨b.toNat - 0xF0, 1,
      if b = 0xF0 then ⟨0x90, 0xBF⟩ else if b = 0xF4 then ⟨0x80, 0x8F⟩ else .tail, [.tail, .tail]⟩)
  else ([.invalid 1], none)

/-- What a byte does after `o`: it continues the sequence, completes it, or ends it and starts
again. -/
def Open.next (o : Open) (b : UInt8) : List Piece × Option Open :=
  if o.owed.low ≤ b ∧ b ≤ o.owed.high then
    let bits := o.bits * 64 + (b.toNat - 0x80)
    match o.more with
    | [] => ([.char (Char.ofNat bits) (o.taken + 1)], none)
    | owed :: more => ([], some ⟨bits, o.taken + 1, owed, more⟩)
  else
    let (pieces, o') := start b
    (.invalid o.taken :: pieces, o')

/-- The pieces of the rest of the input, after the sequence that is open, if any. -/
def scan : Option Open → List UInt8 → List Piece
  | none, [] => []
  | some o, [] => [.truncated o.taken]
  | none, b :: bs => (start b).1 ++ scan (start b).2 bs
  | some o, b :: bs => (o.next b).1 ++ scan (o.next b).2 bs

/-! ## Strict and lossy reading -/

/-- Where strict reading stops. `width` is the length of the invalid bytes, or nothing when the
input ends inside a character. -/
structure DecodeError where
  validUpTo : Nat
  width : Option Nat
  deriving DecidableEq

/-- The wording of a decoding error. -/
def DecodeError.message (e : DecodeError) : String :=
  match e.width with
  | some n =>
    "invalid utf-8 sequence of " ++ toString n ++ " bytes from index " ++ toString e.validUpTo
  | none => "incomplete utf-8 byte sequence from index " ++ toString e.validUpTo

/-- The characters of pieces that begin at index `i`, provided all are characters. -/
def strict (i : Nat) : List Piece → Except DecodeError (List Char)
  | [] => .ok []
  | .char c width :: ps => (strict (i + width) ps).map (c :: ·)
  | .invalid width :: _ => .error ⟨i, some width⟩
  | .truncated _ :: _ => .error ⟨i, none⟩

/-- The text that the bytes encode, or the place of the first bytes that encode nothing. -/
def decode (bytes : List UInt8) : Except DecodeError String :=
  (strict 0 (scan none bytes)).map String.ofList

/-- The character that a piece reads as when nothing may fail. -/
def Piece.lossy : Piece → Char
  | .char c _ => c
  | .invalid _ | .truncated _ => '\uFFFD'

/-- The text of the bytes with a replacement character for each piece that is no character. -/
def lossy (bytes : List UInt8) : String :=
  String.ofList ((scan none bytes).map Piece.lossy)

/-- The bytes of a text. -/
def encode (s : String) : List UInt8 := s.toList.flatMap String.utf8EncodeChar

/-- Strict and lossy reading agree where strict reading succeeds. -/
theorem lossy_eq_of_strict {i : Nat} {ps : List Piece} {cs : List Char}
    (h : strict i ps = .ok cs) : ps.map Piece.lossy = cs := by
  induction ps generalizing i cs with
  | nil => simpa [strict] using h
  | cons p ps ih =>
    cases p with
    | char c width =>
      cases hs : strict (i + width) ps with
      | error e => simp [strict, hs, Except.map] at h
      | ok ds =>
        obtain rfl : c :: ds = cs := by simpa [strict, hs, Except.map] using h
        simp [ih hs, Piece.lossy]
    | invalid _ => simp [strict] at h
    | truncated _ => simp [strict] at h

theorem lossy_eq_of_decode {bytes : List UInt8} {s : String} (h : decode bytes = .ok s) :
    lossy bytes = s := by
  cases hs : strict 0 (scan none bytes) with
  | error e => simp [decode, hs, Except.map] at h
  | ok cs =>
    obtain rfl : String.ofList cs = s := by simpa [decode, hs, Except.map] using h
    simp [lossy, lossy_eq_of_strict hs]

end ForeignHandles.Utf8
