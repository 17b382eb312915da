import ForeignHandles.Text.Require

/-!
  What a required text argument says.

  An argument says a text if its bytes are the UTF-8 of it and there are some (`Input.Says`).  The
  text is then not empty either: every byte becomes part of some piece, so strict reading makes
  nothing only of nothing (`decode_ne_empty`).

  Nearly every call of the interface takes a name this way, so callers of these lemmas never look at
  bytes. A statement about a call is made with `Says`, and `required_eq_ok_iff` turns the check that
  the call performs into it.
-/
namespace ForeignHandles

namespace Utf8

/-- A byte between characters becomes a piece or begins a sequence, -/
theorem start_eq_nil {b : UInt8} (h : (start b).1 = []) : ∃ o, (start b).2 = some o := by
  revert h
  unfold start
  repeat' split
  all_goals simp

/-- and a byte within a sequence becomes a piece or goes on with it. -/
theorem next_eq_nil {o : Open} {b : UInt8} (h : (o.next b).1 = []) : ∃ o', (o.next b).2 = some o' := by
  revert h
  unfold Open.next
  repeat' split
  all_goals simp

/-- A sequence that is open becomes a piece, whatever follows. -/
theorem scan_some_ne_nil (o : Open) (bs : List UInt8) : scan (some o) bs ≠ [] := by
  induction bs generalizing o with
  | nil => simp [scan]
  | cons b bs ih =>
    intro h
    obtain ⟨hnext, hrest⟩ := List.append_eq_nil_iff.1 h
    obtain ⟨o', ho'⟩ := next_eq_nil hnext
    exact ih o' (ho' ▸ hrest)

/-- Between characters, some bytes leave some pieces: the first becomes a piece, or it opens a
sequence that will. -/
theorem scan_none_ne_nil {bs : List UInt8} (h : bs ≠ []) : scan none bs ≠ [] := by
  cases bs with
  | nil => exact absurd rfl h
  | cons b bs =>
    intro h
    obtain ⟨hstart, hrest⟩ := List.append_eq_nil_iff.1 h
    obtain ⟨o, ho⟩ := start_eq_nil hstart
    exact scan_some_ne_nil o bs (ho ▸ hrest)

/-- Some bytes are the UTF-8 of some characters. -/
theorem decode_ne_empty {bs : List UInt8} {text : String} (hbs : bs ≠ [])
    (h : decode bs = .ok text) : text ≠ "" := by
  rintro rfl
  have hlossy := lossy_eq_of_decode h
  have hnil : (scan none bs).map Piece.lossy = [] := by
    simpa [lossy] using congrArg String.toList hlossy
  exact scan_none_ne_nil hbs (List.map_eq_nil_iff.1 hnil)

end Utf8

namespace Input

variable {input : Input} {name text : String}

/-- An argument says a text: it is there, it has bytes, and the bytes are the UTF-8 of the text. -/
def Says (input : Input) (text : String) : Prop :=
  ∃ bs, input.bytes? = some bs ∧ bs ≠ [] ∧ Utf8.decode bs = .ok text

/-- The name of the argument shows in the error only. -/
theorem decodeArgument_eq_ok_iff {bs : List UInt8} :
    decodeArgument name bs = .ok text ↔ Utf8.decode bs = .ok text := by
  rw [decodeArgument]
  cases Utf8.decode bs with
  | error e =>
    constructor
    · rintro ⟨⟩
    · rintro ⟨⟩
  | ok text' =>
    constructor
    · rintro ⟨⟩
      rfl
    · rintro ⟨⟩
      rfl

/-- An argument passes the check exactly if it says a text, which is then what comes out. -/
theorem required_eq_ok_iff : input.required name = .ok text ↔ input.Says text := by
  unfold required Says
  cases input.bytes? with
  | none => simp
  | some bs => cases bs <;> simp [decodeArgument_eq_ok_iff]

/-- What an argument says is not empty, -/
theorem Says.ne_empty (h : input.Says text) : text ≠ "" := by
  obtain ⟨bs, -, hbs, hdecode⟩ := h
  exact Utf8.decode_ne_empty hbs hdecode

/-- and it says one thing only. -/
theorem Says.unique {text' : String} (h : input.Says text) (h' : input.Says text') :
    text = text' := by
  have hrequired : input.required "" = .ok text := required_eq_ok_iff.2 h
  exact Except.ok.inj (hrequired.symm.trans (required_eq_ok_iff.2 h'))

end Input

end ForeignHandles
