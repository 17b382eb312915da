import ForeignHandles.Proofs.Flags
import ForeignHandles.Proofs.Text.Delimited
import ForeignHandles.Version

/-!
  A version is its four fields, in order and in print.

  1. **The fields.**  The word of a version is a number of four digits in base 65536, the major number
     first (`toNat_bits`).  Such numbers are compared digit by digit from the front (`compare_digit`),
     so the order of words is the lexicographic order of the fields.

  2. **The mark.**  It is the last binary digit of the word.  The ordinal drops it and the release
     identity has a zero in its place (`bits_releaseIdentity`), so the two tell the same versions apart
     and order them in the same way.

  3. **The text.**  A field ends at the point behind it, since a point is no digit.

  Everything is about one word of 64 bits, and there are two ways to look at it. Order and
  arithmetic see it as a number, and the lemmas about these end with linear arithmetic over the
  quotients by powers of 65536. The mark sees it as bits, and the lemmas about it compare bits. The
  two meet in `bits_releaseIdentity`, where clearing the last bit is halving and doubling.
-/
namespace ForeignHandles

/-- Numbers with one more digit are compared without it first, and then by it. -/
theorem compare_digit {base a b x y : Nat} (hx : x < base) (hy : y < base) :
    compare (a * base + x) (b * base + y) = (compare a b).then (compare x y) := by
  rcases Nat.lt_trichotomy a b with hab | rfl | hab
  -- a smaller front part is smaller by a whole unit, and the last digit is less than that
  · have hsucc : (a + 1) * base ≤ b * base := Nat.mul_le_mul_right base hab
    rw [Nat.succ_mul] at hsucc
    rw [Nat.compare_eq_lt.2 hab, Nat.compare_eq_lt.2 (by omega)]
    rfl
  · rw [Nat.compare_eq_eq.2 rfl, Ordering.eq_then]
    rcases Nat.lt_trichotomy x y with hxy | rfl | hxy
    · rw [Nat.compare_eq_lt.2 hxy, Nat.compare_eq_lt.2 (by omega)]
    · rw [Nat.compare_eq_eq.2 rfl, Nat.compare_eq_eq.2 rfl]
    · rw [Nat.compare_eq_gt.2 hxy, Nat.compare_eq_gt.2 (by omega)]
  · have hsucc : (b + 1) * base ≤ a * base := Nat.mul_le_mul_right base hab
    rw [Nat.succ_mul] at hsucc
    rw [Nat.compare_eq_gt.2 hab, Nat.compare_eq_gt.2 (by omega)]
    rfl

namespace Version

variable {v w : Version}

/-- A version is its word. -/
theorem ext (h : v.bits = w.bits) : v = w := by
  cases v
  cases w
  exact congrArg mk h

/-! ## The fields -/

/-- The fields as numbers, from the major number on. -/
def fields (v : Version) : List Nat :=
  [v.major.toNat, v.minor.toNat, v.build.toNat, v.revision.toNat]

/-- The number of the word is that of its fields, as digits in base 65536. -/
theorem toNat_bits (v : Version) : v.bits.toNat =
    ((v.major.toNat * 65536 + v.minor.toNat) * 65536 + v.build.toNat) * 65536
      + v.revision.toNat := by
  have hword := v.bits.isLt
  simp only [major, minor, build, revision, BitVec.extractLsb'_toNat, Nat.shiftRight_eq_div_pow]
  omega

/-- A field put behind a word is a further digit. -/
theorem toNat_append {n : Nat} (x : BitVec n) (y : BitVec 16) :
    (x ++ y).toNat = x.toNat * 65536 + y.toNat := by
  rw [BitVec.toNat_append, ← Nat.shiftLeft_add_eq_or_of_lt y.isLt, Nat.shiftLeft_eq]

section

variable (major minor build revision : BitVec 16)

/-- So the word that is made from four fields has them as its digits. -/
theorem toNat_ofFields : (ofFields major minor build revision).bits.toNat =
    ((major.toNat * 65536 + minor.toNat) * 65536 + build.toNat) * 65536 + revision.toNat := by
  rw [← toNat_append, ← toNat_append, ← toNat_append]
  rfl

/-- Fields that are put together can be taken apart again, -/
theorem fields_ofFields :
    let v := ofFields major minor build revision
    v.major = major ∧ v.minor = minor ∧ v.build = build ∧ v.revision = revision := by
  have hword := toNat_bits (ofFields major minor build revision)
  rw [toNat_ofFields] at hword
  refine ⟨?_, ?_, ?_, ?_⟩ <;> apply BitVec.eq_of_toNat_eq <;> omega

end

/-- and what is taken apart can be put together. -/
theorem ofFields_fields (v : Version) : ofFields v.major v.minor v.build v.revision = v :=
  ext (BitVec.eq_of_toNat_eq (by rw [toNat_ofFields, toNat_bits]))

/-- **Versions are compared field by field**, from the major number on. Each step takes the last
digit off, as the one that matters least. -/
theorem compare_eq_compareLex (v w : Version) :
    v.compare w = List.compareLex Ord.compare v.fields w.fields := by
  have hbound (x : BitVec 16) : x.toNat < 65536 := x.isLt
  rw [compare, toNat_bits v, toNat_bits w, compare_digit (hbound _) (hbound _),
    compare_digit (hbound _) (hbound _), compare_digit (hbound _) (hbound _)]
  simp only [fields, List.compareLex_cons_cons, List.compareLex_nil_nil, Ordering.then_assoc,
    Ordering.then_eq]

/-! ## The mark -/

/-- The mark is the last bit of the word. -/
theorem isCi_eq (v : Version) : v.isCi = v.bits.getLsbD 0 := by
  rw [isCi, BitVec.and_one_eq_setWidth_ofBool_getLsbD]
  cases v.bits.getLsbD 0 <;> rfl

/-- The release identity has all bits but that one. -/
theorem getLsbD_releaseIdentity (v : Version) (i : Nat) :
    v.releaseIdentity.bits.getLsbD i = (v.bits.getLsbD i && decide (i ≠ 0)) := by
  rw [releaseIdentity, getLsbD_and_not, BitVec.getLsbD_one]
  simp

/-- Two versions have the same release identity if they agree but for the mark. -/
theorem releaseIdentity_eq_iff :
    v.releaseIdentity = w.releaseIdentity ↔
      ∀ i, i ≠ 0 → v.bits.getLsbD i = w.bits.getLsbD i := by
  constructor
  · intro h i hi
    have hbit := congrArg (fun u : Version => u.bits.getLsbD i) h
    simpa [getLsbD_releaseIdentity, hi] using hbit
  · intro h
    refine ext (BitVec.eq_of_getLsbD_eq fun i _ => ?_)
    rw [getLsbD_releaseIdentity, getLsbD_releaseIdentity]
    by_cases hi : i = 0
    · simp [hi]
    · rw [h i hi]

/-- The release identity is the ordinal with a zero behind it. -/
theorem bits_releaseIdentity (v : Version) : v.releaseIdentity.bits = v.ordered <<< 1 := by
  refine BitVec.eq_of_getLsbD_eq fun i hi => ?_
  rw [getLsbD_releaseIdentity]
  cases i with
  | zero => simp
  | succ i => simp [ordered, Nat.add_comm 1 i, hi]

/-- The ordinal is half of the word, -/
theorem toNat_ordered (v : Version) : v.ordered.toNat = v.bits.toNat / 2 := by
  rw [ordered, BitVec.toNat_ushiftRight, Nat.shiftRight_eq_div_pow, Nat.pow_one]

/-- and the release identity twice that, which loses nothing at the top. -/
theorem toNat_releaseIdentity (v : Version) :
    v.releaseIdentity.bits.toNat = v.ordered.toNat * 2 := by
  have hword := v.bits.isLt
  have hordered := toNat_ordered v
  rw [bits_releaseIdentity, BitVec.toNat_shiftLeft, Nat.shiftLeft_eq, Nat.pow_one,
    Nat.mod_eq_of_lt (by omega)]

/-- Taking the mark away a second time takes nothing away. -/
theorem releaseIdentity_idem (v : Version) :
    v.releaseIdentity.releaseIdentity = v.releaseIdentity := by
  refine ext (BitVec.eq_of_getLsbD_eq fun i _ => ?_)
  simp only [getLsbD_releaseIdentity, Bool.and_assoc, Bool.and_self]

/-- Ordinals are equal where release identities are, -/
theorem ordered_eq_iff : v.ordered = w.ordered ↔ v.releaseIdentity = w.releaseIdentity := by
  constructor
  · intro h
    exact ext (by rw [bits_releaseIdentity, bits_releaseIdentity, h])
  · intro h
    -- both are determined by their doubles
    have hnumbers : v.ordered.toNat * 2 = w.ordered.toNat * 2 := by
      rw [← toNat_releaseIdentity, ← toNat_releaseIdentity, h]
    exact BitVec.eq_of_toNat_eq (by omega)

/-- and compare as they do. -/
theorem ordered_lt_iff :
    v.ordered < w.ordered ↔ v.releaseIdentity.compare w.releaseIdentity = .lt := by
  rw [compare, Nat.compare_eq_lt, toNat_releaseIdentity, toNat_releaseIdentity, BitVec.lt_def]
  omega

/-- A later version does not have a smaller ordinal; it has the same one if only the marks differ.
-/
theorem ordered_le (h : v.compare w ≠ .gt) : v.ordered ≤ w.ordered := by
  rw [compare, Nat.compare_ne_gt] at h
  rw [BitVec.le_def, toNat_ordered, toNat_ordered]
  exact Nat.div_le_div_right h

section

variable (major minor build revision : BitVec 16) (ci : Bool)

/-- The mark stands where the lowest bit of the revision would be. -/
theorem getLsbD_ofKind (i : Nat) : (ofKind major minor build revision ci).bits.getLsbD i =
    if i = 0 then ci else (ofFields major minor build revision).bits.getLsbD i := by
  -- the revision is the last field, and the bits above it are those of the others
  have hword (r : BitVec 16) : (ofFields major minor build r).bits.getLsbD i =
      if i < 16 then r.getLsbD i else (major ++ minor ++ build).getLsbD (i - 16) :=
    BitVec.getLsbD_append
  -- the mark is put where the last bit of the revision was
  have hmark : ((revision &&& ~~~1#16) ||| (BitVec.ofBool ci).setWidth 16).getLsbD i =
      if i = 0 then ci else revision.getLsbD i := by
    simp only [BitVec.getLsbD_or, BitVec.getLsbD_and, BitVec.getLsbD_not, BitVec.getLsbD_one,
      BitVec.getLsbD_setWidth, BitVec.getLsbD_ofBool]
    by_cases hi : i < 16
    · cases i <;> simp [hi]
    · have hne : i ≠ 0 := by omega
      simp [hne, BitVec.getLsbD_of_ge revision i (Nat.not_lt.1 hi)]
  rw [ofKind, hword, hword, hmark]
  split
  · rfl
  · rw [if_neg (by omega)]

/-- A version that is made with a mark has it, -/
theorem isCi_ofKind : (ofKind major minor build revision ci).isCi = ci := by
  rw [isCi_eq, getLsbD_ofKind, if_pos rfl]

/-- and, but for the mark, it is the version of its fields. -/
theorem releaseIdentity_ofKind : (ofKind major minor build revision ci).releaseIdentity =
    (ofFields major minor build revision).releaseIdentity := by
  refine releaseIdentity_eq_iff.2 fun i hi => ?_
  rw [getLsbD_ofKind, if_neg hi]

end

/-! ## The text -/

/-- A text has one version. -/
theorem eq_of_text_eq (h : v.text = w.text) : v = w := by
  have hpoint (r : List Char) : Stops Char.isDigit (".".toList ++ r) := .cons (by decide) r
  have hlist := congrArg String.toList h
  simp only [text, String.toList_append, List.append_assoc] at hlist
  obtain ⟨hmajor, hlist⟩ := delimited_nat (hpoint _) (hpoint _) hlist
  obtain ⟨hminor, hlist⟩ := delimited_nat (hpoint _) (hpoint _) (List.append_cancel_left hlist)
  obtain ⟨hbuild, hlist⟩ := delimited_nat (hpoint _) (hpoint _) (List.append_cancel_left hlist)
  have hrevision := delimited_nat.injective (.nil _) (List.append_cancel_left hlist)
  apply ext
  apply BitVec.eq_of_toNat_eq
  rw [toNat_bits v, toNat_bits w, hmajor, hminor, hbuild, hrevision]

/-- **A version is its fields, in order and in print.**

Putting four fields together and reading them off a word are inverse to each other, and versions are
compared field by field from the major number on.  The release identity is the version without the
mark, and nothing else is taken away.  Ordinals agree with release identities on which versions are
equal and which come first, and a later version never has a smaller ordinal.  A version that is made
with a mark has that mark, and the release identity that its fields have.  Different versions have
different texts. -/
theorem packing_is_ordered_bijection :
    (∀ major minor build revision : BitVec 16, let v := ofFields major minor build revision
      v.major = major ∧ v.minor = minor ∧ v.build = build ∧ v.revision = revision) ∧
    (∀ v : Version, ofFields v.major v.minor v.build v.revision = v) ∧
    (∀ v w : Version, v.compare w = List.compareLex Ord.compare v.fields w.fields) ∧
    (∀ v : Version, v.releaseIdentity.releaseIdentity = v.releaseIdentity ∧
      v.releaseIdentity.isCi = false ∧
      ∀ i, i ≠ 0 → v.releaseIdentity.bits.getLsbD i = v.bits.getLsbD i) ∧
    (∀ v w : Version, (v.ordered = w.ordered ↔ v.releaseIdentity = w.releaseIdentity) ∧
      (v.ordered < w.ordered ↔ v.releaseIdentity.compare w.releaseIdentity = .lt) ∧
      (v.compare w ≠ .gt → v.ordered ≤ w.ordered)) ∧
    (∀ (major minor build revision : BitVec 16) (ci : Bool),
      (ofKind major minor build revision ci).isCi = ci ∧
      (ofKind major minor build revision ci).releaseIdentity =
        (ofFields major minor build revision).releaseIdentity) ∧
    ∀ v w : Version, v.text = w.text → v = w := by
  refine ⟨fields_ofFields, ofFields_fields, compare_eq_compareLex, fun v => ?_,
    fun v w => ⟨ordered_eq_iff, ordered_lt_iff, ordered_le⟩,
    fun major minor build revision ci => ⟨isCi_ofKind .., releaseIdentity_ofKind ..⟩,
    fun v w => eq_of_text_eq⟩
  refine ⟨releaseIdentity_idem v, ?_, fun i hi => ?_⟩
  · rw [isCi_eq, getLsbD_releaseIdentity, decide_eq_false (fun h => h rfl), Bool.and_false]
  · rw [getLsbD_releaseIdentity, decide_eq_true hi, Bool.and_true]

/-- The greatest version before 1.0.0.0 comes before it by its ordinal too; and a marked build that is
printed like 1.2.3.5 is that version. -/
theorem next_major_ordered :
    (ofFields 0 65535 65535 65535).compare (ofFields 1 0 0 0) ≠ .gt ∧
      (ofFields 0 65535 65535 65535).ordered ≤ (ofFields 1 0 0 0).ordered ∧
      (ofKind 1 2 3 4 true).text = (ofFields 1 2 3 5).text ∧
      ofKind 1 2 3 4 true = ofFields 1 2 3 5 := by
  have horder : (ofFields 0 65535 65535 65535).compare (ofFields 1 0 0 0) ≠ .gt := by decide
  have htext : (ofKind 1 2 3 4 true).text = (ofFields 1 2 3 5).text := by decide
  obtain ⟨-, -, -, -, hordinals, -, htexts⟩ := packing_is_ordered_bijection
  exact ⟨horder, (hordinals _ _).2.2 horder, htext, htexts _ _ htext⟩

end Version

end ForeignHandles
