import Mathlib.Data.List.TakeWhile
import ForeignHandles.Proofs.Text.Delimited
import ForeignHandles.Text.Boundary

/-!
  What a reader sees of a text that is made for it.

  The reader of a buffer stops at the first byte that is zero.  Such a byte is a NUL of the text and
  never a part of another character (`ne_zero_of_mem_utf8EncodeChar`), so what is seen is the UTF-8
  of the text up to its first NUL (`Message.visible_ofString`).  A text without a NUL, `NulFree`, is
  seen as a whole, and texts are put together from such texts without one coming in.

  Two texts are told apart by their readers if neither has a NUL, and only then, so every text that
  has to determine what it shows is shown to have none. That is done from the parts up: numbers are
  digits, and concatenation brings no NUL of its own.
-/
namespace ForeignHandles

/-- Whether a character can be seen through a buffer that ends with a NUL. -/
def isVisible (c : Char) : Bool := c ≠ '\x00'

/-- A text that can be seen as a whole. -/
def NulFree (s : String) : Prop := '\x00' ∉ s.toList

namespace NulFree

variable {s t : String}

instance : Decidable (NulFree s) := inferInstanceAs (Decidable ('\x00' ∉ s.toList))

/-- Two texts without a NUL, one after the other, have none. -/
theorem append (hs : NulFree s) (ht : NulFree t) : NulFree (s ++ t) := by
  rw [NulFree, String.toList_append, List.mem_append, not_or]
  exact ⟨hs, ht⟩

/-- Nor has a list of such texts with a separator between them. -/
theorem intercalate {sep : String} {l : List String} (hsep : NulFree sep)
    (hl : ∀ s ∈ l, NulFree s) : NulFree (sep.intercalate l) := by
  induction l with
  | nil => exact List.not_mem_nil
  | cons s l ih =>
    cases l with
    | nil => exact hl s List.mem_cons_self
    | cons t l =>
      rw [String.intercalate_cons_cons]
      have htail : NulFree (sep.intercalate (t :: l)) :=
        ih fun u hu => hl u (List.mem_cons_of_mem s hu)
      exact ((hl s List.mem_cons_self).append hsep).append htail

/-- Numbers are written with digits, -/
theorem natural (n : Nat) : NulFree (toString n) := by
  intro hmem
  have hdigit : '\x00'.isDigit = true := isDigit_of_mem_toString hmem
  cases hdigit

/-- and a sign in front brings no NUL. -/
theorem integer (n : Int) : NulFree (toString n) := by
  rw [NulFree, toList_toString_int]
  split
  · exact natural n.toNat
  · rw [List.mem_cons, not_or]
    exact ⟨by decide, natural (-n).toNat⟩

end NulFree

namespace Utf8

/-- A text is determined by its bytes, as they can be decoded again. -/
theorem encode_injective : Function.Injective encode := by
  intro s t hst
  have hbytes (u : String) : (encode u).toByteArray = u.toByteArray := String.utf8Encode_toList
  rw [← String.toByteArray_inj, ← hbytes, ← hbytes, hst]

/-- The bytes of a text are those of its characters, one after the other. -/
theorem encode_ofList (cs : List Char) :
    encode (String.ofList cs) = cs.flatMap String.utf8EncodeChar := by
  rw [encode, String.toList_ofList]

/-- The NUL is the byte zero. -/
theorem utf8EncodeChar_nul : String.utf8EncodeChar '\x00' = [0] := by decide

/-- No byte of a character is zero, the NUL apart: the lead bytes of longer sequences and the bytes
that continue them have their high bit set. -/
theorem ne_zero_of_mem_utf8EncodeChar {c : Char} (hc : isVisible c = true) :
    ∀ b ∈ String.utf8EncodeChar c, b ≠ 0 := by
  have hne : c ≠ '\x00' := of_decide_eq_true hc
  -- in a sequence of one byte, the byte is the number of the character
  have hpos : c.val.toNat ≠ 0 := fun hzero => hne (Char.ext (UInt32.toNat_inj.1 hzero))
  have hbyte {n : Nat} (hlt : n < 256) (hn : n ≠ 0) : UInt8.ofNat n ≠ 0 := fun hzero =>
    hn (by simpa [Nat.mod_eq_of_lt hlt] using congrArg UInt8.toNat hzero)
  intro b hb
  unfold String.utf8EncodeChar at hb
  dsimp only at hb
  split at hb
  · obtain rfl := List.mem_singleton.1 hb
    exact hbyte (by omega) hpos
  split at hb
  · simp only [List.mem_cons, List.not_mem_nil, or_false] at hb
    -- in longer sequences each byte is at least 128
    rcases hb with rfl | rfl <;> exact hbyte (by omega) (by omega)
  split at hb
  · simp only [List.mem_cons, List.not_mem_nil, or_false] at hb
    rcases hb with rfl | rfl | rfl <;> exact hbyte (by omega) (by omega)
  · simp only [List.mem_cons, List.not_mem_nil, or_false] at hb
    rcases hb with rfl | rfl | rfl | rfl <;> exact hbyte (by omega) (by omega)

end Utf8

namespace Message

/-- What is seen is the text up to its first NUL. -/
theorem visible_ofString (s : String) :
    (ofString s).visible = Utf8.encode (String.ofList (s.toList.takeWhile isVisible)) := by
  rw [Utf8.encode_ofList]
  change (s.toList.flatMap String.utf8EncodeChar).takeWhile (· ≠ 0) = _
  induction s.toList with
  | nil => rfl
  | cons c cs ih =>
    rw [List.flatMap_cons, List.takeWhile_cons]
    by_cases hc : isVisible c = true
    · have hall : ∀ b ∈ String.utf8EncodeChar c, decide (b ≠ 0) = true := fun b hb =>
        decide_eq_true (Utf8.ne_zero_of_mem_utf8EncodeChar hc b hb)
      rw [List.takeWhile_append_of_pos hall, ih, if_pos hc, List.flatMap_cons]
    · obtain rfl : c = '\x00' := by simpa [isVisible] using hc
      rw [Utf8.utf8EncodeChar_nul]
      rfl

/-- A text without a NUL is seen as a whole. -/
theorem visible_eq_encode {s : String} (hs : NulFree s) :
    (ofString s).visible = Utf8.encode s := by
  have hall : s.toList.takeWhile isVisible = s.toList := by
    refine List.takeWhile_eq_self_iff.2 fun c hc => decide_eq_true ?_
    rintro rfl
    exact hs hc
  rw [visible_ofString, hall, String.ofList_toList]

/-- Texts without a NUL are told apart by what is seen of them. -/
theorem eq_of_visible_eq {s t : String} (hs : NulFree s) (ht : NulFree t)
    (h : (ofString s).visible = (ofString t).visible) : s = t := by
  rw [visible_eq_encode hs, visible_eq_encode ht] at h
  exact Utf8.encode_injective h

end Message

end ForeignHandles
