import Mathlib.Tactic.SplitIfs
import ForeignHandles.Proofs.Host.Run
import ForeignHandles.Proofs.Text.Delimited

/-!
  Constant data: which there are, which are C strings, and what they print.

  1. **Bytes.**  A width is accepted if it is one of four, and bytes are if they are a whole number of
     elements (`Fits`); the elements then have all the bytes between them.  C strings are a text and
     one NUL (`isCString_iff`).

  2. **Print.**  A byte is printed as itself or as an escape, and neither has a quote in it.  What is
     between the quotes can be read back, so the printed form of 8-bit data determines the data
     (`text_inj`).

  3. **Values.**  What a context makes of bytes is a value with these bytes.

  A data sequence carries the proof that its bytes are a whole number of elements, so there is
  nothing to be proved of one that exists; the questions are which bytes become one, and what can be
  read off it. The reader of a printed body is `readBody?`, which is defined next to the printing
  and takes back what it wrote.
-/
namespace ForeignHandles

/-- Numbers of bits are widths under their own number only. -/
theorem ElementWidth.ofBits?_eq_some_iff {bits : UInt32} {w : ElementWidth} :
    ElementWidth.ofBits? bits = some w ↔ bits.toNat = w.bits := by
  constructor
  · intro h
    rw [ElementWidth.ofBits?] at h
    split_ifs at h
    all_goals
      cases h
      subst bits
      rfl
  · intro h
    obtain rfl : bits = UInt32.ofNat w.bits := by rw [← h, UInt32.ofNat_toNat]
    cases w <;> rfl

/-- The number 8 is the width of 8 bits. -/
theorem ElementWidth.eq_w8_iff {bits : UInt32} {w : ElementWidth} (h : bits.toNat = w.bits) :
    bits = 8 ↔ w = .w8 := by
  rw [← UInt32.toNat_inj, h]
  cases w <;> decide

/-- A width in bits is eight times that in bytes. -/
theorem ElementWidth.bytes_eq {bits : UInt32} {w : ElementWidth} (h : bits.toNat = w.bits) :
    bits.toNat / 8 = w.bytes := by
  rw [h, ElementWidth.bits, Nat.mul_div_cancel _ (by decide)]

namespace DataSequence

variable {bits : UInt32} {raw : List UInt8} {d d' : DataSequence}

/-! ## Bytes

The four widths are a type, so a width is never checked again once it is there. What is left to do
is to go between that type and the numbers of bits that callers pass. -/

/-- One of the four widths, and a whole number of elements of that width. -/
def Fits (bits : UInt32) (raw : List UInt8) : Prop :=
  (bits = 8 ∨ bits = 16 ∨ bits = 32 ∨ bits = 64) ∧ bits.toNat / 8 ∣ raw.length

/-- Bytes become a sequence of a width under the number of that width, and keep what they are. -/
theorem ofRaw_eq_ok_iff : ofRaw bits raw = .ok d ↔ bits.toNat = d.width.bits ∧ d.raw = raw := by
  constructor
  · intro h
    obtain ⟨hwidth, hraw⟩ := ofRaw_ok h
    exact ⟨ElementWidth.ofBits?_eq_some_iff.1 hwidth, hraw⟩
  · rintro ⟨hbits, rfl⟩
    rw [ofRaw, ElementWidth.ofBits?_eq_some_iff.2 hbits]
    exact dif_pos d.whole

/-- There are four numbers of bits that are widths. -/
theorem exists_width_iff :
    (∃ w : ElementWidth, bits.toNat = w.bits) ↔ bits = 8 ∨ bits = 16 ∨ bits = 32 ∨ bits = 64 := by
  simp only [← UInt32.toNat_inj]
  constructor
  · rintro ⟨w, hw⟩
    cases w
    · exact .inl hw
    · exact .inr (.inl hw)
    · exact .inr (.inr (.inl hw))
    · exact .inr (.inr (.inr hw))
  · rintro (h | h | h | h)
    · exact ⟨.w8, h⟩
    · exact ⟨.w16, h⟩
    · exact ⟨.w32, h⟩
    · exact ⟨.w64, h⟩

/-- Bytes become a sequence if they fit, and only then. -/
theorem exists_ofRaw_iff : (∃ d, ofRaw bits raw = .ok d) ↔ Fits bits raw := by
  rw [Fits, ← exists_width_iff]
  constructor
  · rintro ⟨d, hd⟩
    obtain ⟨hbits, rfl⟩ := ofRaw_eq_ok_iff.1 hd
    rw [ElementWidth.bytes_eq hbits]
    exact ⟨⟨d.width, hbits⟩, Nat.dvd_of_mod_eq_zero d.whole⟩
  · rintro ⟨⟨w, hw⟩, hwhole⟩
    rw [ElementWidth.bytes_eq hw] at hwhole
    exact ⟨⟨w, raw, Nat.mod_eq_zero_of_dvd hwhole⟩, ofRaw_eq_ok_iff.2 ⟨hw, rfl⟩⟩

/-- The elements of a sequence have all its bytes between them. -/
theorem count_mul_bytes (d : DataSequence) : d.count * d.width.bytes = d.raw.length :=
  Nat.div_mul_cancel (Nat.dvd_of_mod_eq_zero d.whole)

/-- A C string is a text without NULs and one NUL. -/
theorem isCString_iff :
    d.isCString = true ↔ d.width = .w8 ∧ ∃ text, 0 ∉ text ∧ d.raw = text ++ [0] := by
  simp only [isCString, Bool.and_eq_true, decide_eq_true_eq, and_assoc, Bool.not_eq_true',
    List.contains_eq_mem, decide_eq_false_iff_not]
  refine and_congr_right fun _ => ⟨?_, ?_⟩
  · rintro ⟨hlast, hfront⟩
    obtain ⟨text, hraw⟩ := List.getLast?_eq_some_iff.1 hlast
    rw [hraw, List.dropLast_concat] at hfront
    exact ⟨text, hfront, hraw⟩
  · rintro ⟨text, htext, hraw⟩
    rw [hraw, List.dropLast_concat, List.getLast?_concat]
    exact ⟨rfl, htext⟩

/-! ## Print

The body is written byte by byte. A byte that is plain stands for itself; every other one, the
quote and the backslash included, is a backslash and two digits. So the only quotes in print are
the two around the body. -/

/-- Printable characters of ASCII. -/
def IsPrintable (c : Char) : Prop := 0x20 ≤ c.toNat ∧ c.toNat ≤ 0x7E

instance (c : Char) : Decidable (IsPrintable c) := inferInstanceAs (Decidable (_ ∧ _))

/-- The digits of an escape are printable, and none is a quote. -/
theorem isPrintable_upperHex : ∀ n, n < 16 → IsPrintable (upperHex n) ∧ upperHex n ≠ '"' := by
  decide

/-- A byte is printed in printable characters other than the quote. -/
theorem isPrintable_bodyByte (b : UInt8) : ∀ c ∈ bodyByte b, IsPrintable c ∧ c ≠ '"' := by
  intro c hc
  rw [bodyByte] at hc
  split at hc
  · rename_i hplain
    obtain rfl := List.mem_singleton.1 hc
    simp only [isPlain, Bool.and_eq_true, decide_eq_true_eq, UInt8.le_iff_toNat_le] at hplain
    -- a plain byte is the number of its character
    obtain ⟨⟨⟨hlow, hhigh⟩, hquote⟩, -⟩ := hplain
    refine ⟨⟨?_, ?_⟩, fun heq => hquote ?_⟩
    · rw [toNat_ofNat_byte]
      exact hlow
    · rw [toNat_ofNat_byte]
      exact hhigh
    · rw [← UInt8.toNat_inj, ← toNat_ofNat_byte, heq]
      rfl
  · have hb := b.toNat_lt
    rw [hexByte, List.mem_cons, List.mem_cons, List.mem_singleton] at hc
    rcases hc with rfl | rfl | rfl
    · decide
    · exact isPrintable_upperHex _ (by omega)
    · exact isPrintable_upperHex _ (by omega)

/-- So are bytes, -/
theorem isPrintable_body (raw : List UInt8) : ∀ c ∈ body raw, IsPrintable c ∧ c ≠ '"' := by
  intro c hc
  obtain ⟨b, -, hb⟩ := List.mem_flatMap.1 hc
  exact isPrintable_bodyByte b c hb

/-- and the length in front of them. -/
theorem isPrintable_of_isDigit {c : Char} (h : c.isDigit = true) : IsPrintable c := by
  simp only [Char.isDigit, Bool.and_eq_true, decide_eq_true_eq, ge_iff_le,
    UInt32.le_iff_toNat_le] at h
  obtain ⟨hlow, hhigh⟩ := h
  have hlow' : 48 ≤ c.toNat := hlow
  have hhigh' : c.toNat ≤ 57 := hhigh
  constructor
  · omega
  · omega

/-- What data of bytes prints: its length and type, and the body between quotes. -/
theorem text_eq (h : d.width = .w8) :
    d.text = "[" ++ toString d.raw.length ++ " x i8] c\"" ++ String.ofList (body d.raw) ++ "\"" := by
  have hcount : d.count = d.raw.length := by
    rw [count, h]
    exact Nat.div_one _
  have hbits : toString d.width.bits = "8" := by
    rw [h]
    decide
  rw [text, if_pos h, hcount, hbits, ← String.toList_inj]
  simp

/-- The same as a list of characters, taken apart where the parts can be read off. -/
theorem toList_text (h : d.width = .w8) :
    d.text.toList = '[' :: ((toString d.raw.length).toList ++
      (" x i8] c\"".toList ++ (body d.raw ++ ['"']))) := by
  simp [text_eq h]

/-- All of it is printable. -/
theorem isPrintable_text (h : d.width = .w8) : ∀ c ∈ d.text.toList, IsPrintable c := by
  -- the fixed part is looked through once
  have htype : " x i8] c\"".toList.all (fun c => decide (IsPrintable c)) = true := by decide
  intro c hc
  rw [toList_text h, List.mem_cons, List.mem_append, List.mem_append, List.mem_append,
    List.mem_singleton] at hc
  rcases hc with rfl | hc | hc | hc | rfl
  · decide
  · exact isPrintable_of_isDigit (isDigit_of_mem_toString hc)
  · exact of_decide_eq_true (List.all_eq_true.1 htype c hc)
  · exact (isPrintable_body d.raw c hc).1
  · decide

/-- What 8-bit data prints determines it. -/
theorem text_inj (h : d.width = .w8) (h' : d'.width = .w8) :
    d.text = d'.text ↔ d.raw = d'.raw := by
  constructor
  · intro heq
    rw [← String.toList_inj, toList_text h, toList_text h'] at heq
    have hspace (r : List Char) : Stops Char.isDigit (" x i8] c\"".toList ++ r) :=
      .cons (by decide) _
    obtain ⟨-, hrest⟩ := delimited_nat (hspace _) (hspace _) (List.cons.inj heq).2
    have hbody : body d.raw = body d'.raw :=
      List.append_cancel_right (List.append_cancel_left hrest)
    have hread : some d.raw = some d'.raw := by rw [← readBody?_body, hbody, readBody?_body]
    exact Option.some.inj hread
  · intro hraw
    rw [← String.toList_inj, toList_text h, toList_text h', hraw]

/-- A NUL, and the bytes that spell its escape. -/
example : (ofText [] true).text = "[1 x i8] c\"\\00\"" ∧
    (ofText [0x5C, 0x30, 0x30] false).text = "[3 x i8] c\"\\5C00\"" := by decide

end DataSequence

/-! ## Values

What was proved of sequences is said once more of the values that contexts make of them, as
callers see them: by the data that the value has, and by what it prints. -/

namespace Store

variable {s t : Store} {c : Ref .context} {bits : UInt32} {raw : List UInt8} {v : Ref .value}

/-- What a value prints. -/
def printed? (s : Store) (v : Ref .value) : Option String := (s.values.get? v).map (·.text)

/-- A context makes a value of bytes if they become a sequence. -/
theorem constDataArray_eq_ok_iff : s.constDataArray c bits raw = .ok (v, t) ↔
    ∃ d, DataSequence.ofRaw bits raw = .ok d ∧ s.addValue c "" (.constantData d) = (v, t) := by
  rw [constDataArray]
  cases DataSequence.ofRaw bits raw <;> simp [Except.map]

/-- It does so for bytes that fit, and faults for the others. -/
theorem exists_constDataArray_iff :
    (∃ v t, s.constDataArray c bits raw = .ok (v, t)) ↔ DataSequence.Fits bits raw := by
  rw [← DataSequence.exists_ofRaw_iff]
  constructor
  · rintro ⟨v, t, h⟩
    obtain ⟨d, hd, -⟩ := constDataArray_eq_ok_iff.1 h
    exact ⟨d, hd⟩
  · rintro ⟨d, hd⟩
    exact ⟨_, _, constDataArray_eq_ok_iff.2 ⟨d, hd, rfl⟩⟩

/-- The value is made of the bytes, and this is what it shows. -/
theorem data?_constDataArray (h : s.constDataArray c bits raw = .ok (v, t)) :
    ∃ d, bits.toNat = d.width.bits ∧ d.raw = raw ∧ t.data? (some v) = some d ∧
      t.printed? v = some d.text := by
  obtain ⟨d, hd, hadd⟩ := constDataArray_eq_ok_iff.1 h
  have hget : t.values.get? v = some { context := c, name := "", body := .constantData d } := by
    obtain ⟨rfl, rfl⟩ := Prod.mk.inj hadd
    exact (s.values.get?_alloc _ _).trans (if_pos rfl)
  obtain ⟨hbits, hraw⟩ := DataSequence.ofRaw_eq_ok_iff.1 hd
  refine ⟨d, hbits, hraw, ?_, ?_⟩
  · show (t.values.get? v).bind (·.data?) = some d
    rw [hget]
    rfl
  · rw [printed?, hget]
    rfl

/-- A text is a sequence of bytes of 8 bits each. -/
theorem constDataArray_text (s : Store) (c : Ref .context) (text : List UInt8) (terminated : Bool) :
    s.constDataArray c 8 (if terminated then text ++ [0] else text) =
      .ok (s.constString c text terminated) :=
  constDataArray_eq_ok_iff.2
    ⟨.ofText text terminated, DataSequence.ofRaw_eq_ok_iff.2 ⟨rfl, rfl⟩, rfl⟩

/-- Asking a value whether it is a C string asks its bytes. -/
theorem isConstantCString_constDataArray (h : s.constDataArray c bits raw = .ok (v, t)) :
    t.isConstantCString (some v) = true ↔ bits = 8 ∧ ∃ text, 0 ∉ text ∧ raw = text ++ [0] := by
  obtain ⟨d, hbits, rfl, hdata, -⟩ := data?_constDataArray h
  rw [isConstantCString, hdata, ElementWidth.eq_w8_iff hbits]
  exact DataSequence.isCString_iff

/-- What a value of bytes prints is what its sequence prints. -/
theorem printed?_constDataArray (h : s.constDataArray c 8 raw = .ok (v, t)) :
    ∃ d : DataSequence, d.width = .w8 ∧ d.raw = raw ∧ t.printed? v = some d.text := by
  obtain ⟨d, hbits, hraw, -, hprinted⟩ := data?_constDataArray h
  exact ⟨d, (ElementWidth.eq_w8_iff hbits).1 rfl, hraw, hprinted⟩

/-- Only the NUL that is added may be there. -/
theorem isConstantCString_constString (s : Store) (c : Ref .context) (text : List UInt8) :
    (s.constString c text true).2.isConstantCString (some (s.constString c text true).1) = true ↔
      0 ∉ text := by
  refine (isConstantCString_constDataArray (constDataArray_text s c text true)).trans ?_
  constructor
  · rintro ⟨-, text', htext', heq⟩
    rwa [List.append_cancel_right heq]
  · intro htext
    exact ⟨rfl, text, htext, rfl⟩

/-- **Constant data is checked, and what it prints can be decoded.**

A constant array is made of exactly the bytes that are a whole number of elements of 8, 16, 32 or 64
bits, and its elements have all of them.  It is a C string exactly if its elements have 8 bits and are
a text and the NUL that ends it, so a text that is given a NUL is one exactly if it has no other.  An
array of bytes prints its length and, between quotes, a body that can be read back.  All of this is
printable ASCII, and two arrays of bytes, of whatever contexts, print the same exactly if they are the
same bytes. -/
theorem constant_data_checked_and_decodable (s : Store) (c : Ref .context) :
    (∀ bits raw, (∃ v t, s.constDataArray c bits raw = .ok (v, t)) ↔
      (bits = 8 ∨ bits = 16 ∨ bits = 32 ∨ bits = 64) ∧ bits.toNat / 8 ∣ raw.length) ∧
    (∀ bits raw v t, s.constDataArray c bits raw = .ok (v, t) →
      (∃ d, t.data? (some v) = some d ∧ d.raw = raw ∧ d.count * (bits.toNat / 8) = raw.length) ∧
      (t.isConstantCString (some v) = true ↔ bits = 8 ∧ ∃ text, 0 ∉ text ∧ raw = text ++ [0])) ∧
    (∀ text v t, s.constString c text true = (v, t) →
      (t.isConstantCString (some v) = true ↔ 0 ∉ text)) ∧
    (∀ raw v t, s.constDataArray c 8 raw = .ok (v, t) → ∃ printed body,
      t.printed? v = some printed ∧
      printed = "[" ++ toString raw.length ++ " x i8] c\"" ++ String.ofList body ++ "\"" ∧
      (∀ ch ∈ printed.toList, DataSequence.IsPrintable ch) ∧
      '"' ∉ body ∧ DataSequence.readBody? body = some raw) ∧
    ∀ (s' : Store) (c' : Ref .context) raw raw' v v' t t',
      s.constDataArray c 8 raw = .ok (v, t) → s'.constDataArray c' 8 raw' = .ok (v', t') →
        (t.printed? v = t'.printed? v' ↔ raw = raw') := by
  refine ⟨fun bits raw => exists_constDataArray_iff, fun bits raw v t h => ⟨?_, ?_⟩,
    fun text v t h => ?_, fun raw v t h => ?_, fun s' c' raw raw' v v' t t' h h' => ?_⟩
  · obtain ⟨d, hbits, rfl, hdata, -⟩ := data?_constDataArray h
    refine ⟨d, hdata, rfl, ?_⟩
    rw [ElementWidth.bytes_eq hbits, d.count_mul_bytes]
  · exact isConstantCString_constDataArray h
  · obtain ⟨rfl, rfl⟩ := Prod.mk.inj h
    exact isConstantCString_constString s c text
  · obtain ⟨d, hwidth, rfl, hprinted⟩ := printed?_constDataArray h
    have hquote : '"' ∉ DataSequence.body d.raw :=
      fun hmem => (DataSequence.isPrintable_body d.raw _ hmem).2 rfl
    exact ⟨d.text, DataSequence.body d.raw, hprinted, DataSequence.text_eq hwidth,
      DataSequence.isPrintable_text hwidth, hquote, DataSequence.readBody?_body d.raw⟩
  · obtain ⟨d, hwidth, rfl, hprinted⟩ := printed?_constDataArray h
    obtain ⟨d', hwidth', rfl, hprinted'⟩ := printed?_constDataArray h'
    rw [hprinted, hprinted', Option.some.injEq]
    exact DataSequence.text_inj hwidth hwidth'

/-- Bytes that spell the escape of a NUL are not printed as the NUL is, and only one of the two arrays
is a C string. -/
theorem spelled_escape_is_escaped : ∃ v t v' t',
    Host.opened.store.constDataArray Host.soleContext 8 [0x5C, 0x30, 0x30] = .ok (v, t) ∧
    Host.opened.store.constDataArray Host.soleContext 8 [0x00] = .ok (v', t') ∧
    t.printed? v ≠ t'.printed? v' ∧
    t.isConstantCString (some v) = false ∧ t'.isConstantCString (some v') = true := by
  obtain ⟨hmade, hdata, -, -, hprinted⟩ :=
    constant_data_checked_and_decodable Host.opened.store Host.soleContext
  obtain ⟨v, t, h⟩ := (hmade 8 [0x5C, 0x30, 0x30]).2 ⟨.inl rfl, Nat.one_dvd 3⟩
  obtain ⟨v', t', h'⟩ := (hmade 8 [0x00]).2 ⟨.inl rfl, Nat.one_dvd 1⟩
  refine ⟨v, t, v', t', h, h', fun heq => ?_, ?_, ?_⟩
  · exact absurd ((hprinted _ _ _ _ _ _ _ _ h h').1 heq) (by decide)
  · refine Bool.eq_false_iff.2 fun hc => ?_
    obtain ⟨-, text, -, htext⟩ := (hdata _ _ _ _ h).2.1 hc
    -- a C string ends with a NUL, and these bytes do not
    have hlast := congrArg List.getLast? htext
    rw [List.getLast?_concat] at hlast
    exact absurd hlast (by decide)
  · exact (hdata _ _ _ _ h').2.2 ⟨rfl, [], List.not_mem_nil, rfl⟩

end Store

end ForeignHandles
