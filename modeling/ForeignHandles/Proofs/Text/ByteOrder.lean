import Mathlib.Tactic.SplitIfs
import ForeignHandles.Text.Utf8

/-!
  The order of texts is the order of their bytes.

  UTF-8 writes the number of a character in base 64, the highest digit first and under a mark that
  depends on how many digits follow.  Of two numbers with the same mark the smaller one has the smaller
  digit where they differ for the first time (`Form.precedes_go`), and a smaller mark is on the
  smaller number (`form_cases`).  Either way the bytes already differ within the character, so what
  follows does not matter, and the first character in which two texts differ decides for the bytes as
  well.

  Names in a pool are listed in the order of their bytes, while texts are compared here by their
  characters. The two orders agree for UTF-8; that they do not for every encoding is the reason why
  it is proved.
-/
namespace ForeignHandles.Utf8

/-- The bytes come first, whatever follows them. -/
def Precedes (l l' : List UInt8) : Prop := ∀ r r', l ++ r < l' ++ r'

/-- A smaller first byte decides. -/
theorem Precedes.of_head {a b : UInt8} (h : a < b) (l l' : List UInt8) :
    Precedes (a :: l) (b :: l') :=
  fun _ _ => List.cons_lt_cons_iff.2 (.inl h)

/-- What comes first does so with anything behind it, -/
theorem Precedes.append {l l' : List UInt8} (h : Precedes l l') (m m' : List UInt8) :
    Precedes (l ++ m) (l' ++ m') := by
  intro r r'
  rw [List.append_assoc, List.append_assoc]
  exact h (m ++ r) (m' ++ r')

/-- and with the same in front of both. -/
theorem Precedes.behind {m m' : List UInt8} (h : Precedes m m') (l : List UInt8) :
    Precedes (l ++ m) (l ++ m') := by
  intro r r'
  rw [List.append_assoc, List.append_assoc]
  exact List.append_left_lt (h r r')

/-- Numbers that fit a byte are compared as bytes. -/
theorem ofNat_lt_ofNat {a b : Nat} (h : a < b) (hb : b < 256) : UInt8.ofNat a < UInt8.ofNat b := by
  rw [UInt8.lt_iff_toNat_lt, UInt8.toNat_ofNat', UInt8.toNat_ofNat', Nat.mod_eq_of_lt (by omega),
    Nat.mod_eq_of_lt (by omega)]
  exact h

/-! ## Characters -/

/-- A way of writing numbers: the first byte has a mark and room for the highest digit, and more
bytes follow with one digit each. -/
structure Form where
  room : Nat
  mark : Nat
  more : Nat

/-- The bytes of a number. -/
def Form.spell (f : Form) : Nat → List UInt8 := go f.more
where
  go : Nat → Nat → List UInt8
    | 0, n => [UInt8.ofNat (n % f.room + f.mark)]
    | more + 1, n => go more (n / 64) ++ [UInt8.ofNat (n % 64 + 0x80)]

/-- Numbers below this have digits enough. -/
def Form.bound (f : Form) : Nat := go f.more
where
  go : Nat → Nat
    | 0 => f.room
    | more + 1 => go more * 64

/-- The form that a number is written in. -/
def form (n : Nat) : Form :=
  if n ≤ 0x7F then ⟨0x80, 0, 0⟩
  else if n ≤ 0x7FF then ⟨0x20, 0xC0, 1⟩
  else if n ≤ 0xFFFF then ⟨0x10, 0xE0, 2⟩
  else ⟨8, 0xF0, 3⟩

/-- A character is written in the form of its number. The divisions of the encoder go over several
digits at once, those of the form one digit at a time. -/
theorem utf8EncodeChar_eq_spell (c : Char) :
    String.utf8EncodeChar c = (form c.toNat).spell c.toNat := by
  unfold String.utf8EncodeChar form Char.toNat
  dsimp only
  split_ifs
  · rename_i hc
    have hsmall : c.toNat % 0x80 = c.toNat := Nat.mod_eq_of_lt (Nat.lt_succ_of_le hc)
    simp [Form.spell, Form.spell.go, hsmall]
  all_goals simp [Form.spell, Form.spell.go, Nat.div_div_eq_div_mul]

/-- Characters end with the last plane. -/
theorem char_lt (c : Char) : c.toNat < 0x110000 := by
  have hvalid : c.toNat.isValidChar := c.valid
  unfold Nat.isValidChar at hvalid
  omega

/-- The form of a number has room for it. -/
theorem form_fits {n : Nat} (h : n < 0x110000) :
    (form n).mark + (form n).room ≤ 256 ∧ 0 < (form n).room ∧ n < (form n).bound := by
  unfold form
  split_ifs
  all_goals
    refine ⟨by decide, by decide, ?_⟩
    simp only [Form.bound, Form.bound.go]
    omega

/-- A smaller number is in the same form, or in one with smaller first bytes. -/
theorem form_cases {m n : Nat} (h : m < n) :
    form m = form n ∨ (form m).mark + (form m).room ≤ (form n).mark := by
  unfold form
  split_ifs
  all_goals first | exact .inl rfl | exact .inr (by decide) | omega

namespace Form

variable {f : Form}

/-- Within one form a smaller number comes first. -/
theorem precedes_go (hf : f.mark + f.room ≤ 256) {k m n : Nat} (h : m < n)
    (hn : n < bound.go f k) : Precedes (spell.go f k m) (spell.go f k n) := by
  -- on the number of digits that follow: two numbers differ before the last digit, or only there
  induction k generalizing m n with
  | zero =>
    have hn : n < f.room := hn
    have hm : m < f.room := by omega
    refine .of_head (ofNat_lt_ofNat ?_ ?_) [] []
    · rw [Nat.mod_eq_of_lt hm, Nat.mod_eq_of_lt hn]
      omega
    · rw [Nat.mod_eq_of_lt hn]
      omega
  | succ k ih =>
    have hhigh : n / 64 < bound.go f k := (Nat.div_lt_iff_lt_mul (by decide)).2 hn
    -- the higher digits decide, or the last one does
    rcases Nat.lt_or_ge (m / 64) (n / 64) with hlt | hge
    · exact (ih hlt hhigh).append _ _
    · have hsame : m / 64 = n / 64 := by omega
      have hdigit : m % 64 + 0x80 < n % 64 + 0x80 := by omega
      simp only [spell.go, hsame]
      exact .behind (.of_head (ofNat_lt_ofNat hdigit (by omega)) [] []) _

/-- The first byte has the mark. -/
theorem head_go (hf : f.mark + f.room ≤ 256) (hroom : 0 < f.room) (k n : Nat) :
    ∃ b l, spell.go f k n = b :: l ∧ f.mark ≤ b.toNat ∧ b.toNat < f.mark + f.room := by
  induction k generalizing n with
  | zero =>
    have hdigit := Nat.mod_lt n hroom
    refine ⟨_, [], rfl, ?_, ?_⟩
    · rw [UInt8.toNat_ofNat', Nat.mod_eq_of_lt (by omega)]
      omega
    · rw [UInt8.toNat_ofNat', Nat.mod_eq_of_lt (by omega)]
      omega
  | succ k ih =>
    obtain ⟨b, l, hl, hb⟩ := ih (n / 64)
    exact ⟨b, l ++ [_], by rw [spell.go, hl]; rfl, hb⟩

end Form

/-- The first byte of a character tells the form. -/
theorem head_utf8EncodeChar (c : Char) : ∃ b l, String.utf8EncodeChar c = b :: l ∧
    (form c.toNat).mark ≤ b.toNat ∧ b.toNat < (form c.toNat).mark + (form c.toNat).room := by
  obtain ⟨hf, hroom, -⟩ := form_fits (char_lt c)
  rw [utf8EncodeChar_eq_spell]
  exact Form.head_go hf hroom _ c.toNat

/-- A smaller character comes first: in the same form, or by its first byte. -/
theorem precedes_of_lt {c d : Char} (h : c < d) :
    Precedes (String.utf8EncodeChar c) (String.utf8EncodeChar d) := by
  have hlt : c.toNat < d.toNat := h
  rcases form_cases hlt with hsame | hless
  · obtain ⟨hf, -, hd⟩ := form_fits (char_lt d)
    rw [utf8EncodeChar_eq_spell, utf8EncodeChar_eq_spell, hsame]
    exact Form.precedes_go hf hlt hd
  · obtain ⟨a, l, hl, -, ha⟩ := head_utf8EncodeChar c
    obtain ⟨b, l', hl', hb, -⟩ := head_utf8EncodeChar d
    rw [hl, hl']
    exact .of_head (UInt8.lt_iff_toNat_lt.2 (by omega)) l l'

/-! ## Texts -/

/-- Texts are in the order of their bytes. -/
theorem encode_lt_encode {s t : String} (h : s < t) : encode s < encode t := by
  have hlists : s.toList < t.toList := h
  rw [encode, encode]
  generalize s.toList = cs at hlists
  generalize t.toList = ds at hlists
  induction cs generalizing ds with
  | nil =>
    cases ds with
    | nil => exact absurd hlists (List.lt_irrefl [])
    | cons d ds =>
      obtain ⟨b, l, hl, -⟩ := head_utf8EncodeChar d
      rw [List.flatMap_cons, hl]
      exact List.nil_lt_cons b _
  | cons c cs ih =>
    cases ds with
    | nil => exact absurd hlists (List.not_lt_nil _)
    | cons d ds =>
      rw [List.flatMap_cons, List.flatMap_cons]
      -- the first characters differ, or they are the same and the rest decides
      rcases List.cons_lt_cons_iff.1 hlists with hcd | ⟨rfl, hrest⟩
      · exact precedes_of_lt hcd _ _
      · exact List.append_left_lt (ih ds hrest)

end ForeignHandles.Utf8
