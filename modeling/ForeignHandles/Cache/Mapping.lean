/-!
  Mappings from keys to external handles.

  A mapping lists its pairs in the order in which they were added; that order shows in dumps and
  nowhere else. No key occurs twice (`nodup`). Adding a pair for a key that is there changes
  nothing, so a mapping is never overwritten, only removed.

  The view is `get?`, and every operation has one lemma about it.
-/
namespace ForeignHandles

/-- What a consumer keeps for a cached object: a word of its own making. -/
abbrev ExternalHandle := Int64

/-- A finite map from keys to external handles. -/
structure Mapping (K : Type) where
  entries : List (K × ExternalHandle) := []
  nodup : (entries.map (·.1)).Nodup := by simp

namespace Mapping

variable {K : Type} [DecidableEq K]

instance : Inhabited (Mapping K) := ⟨{}⟩

/-- The handle of a key. -/
def get? (m : Mapping K) (k : K) : Option ExternalHandle :=
  (m.entries.find? (fun p => p.1 = k)).map (·.2)

/-- The number of pairs. -/
def size (m : Mapping K) : Nat := m.entries.length

/-- The keys, in the order in which they were added. -/
def keys (m : Mapping K) : List K := m.entries.map (·.1)

/-- The handles, in the order of their keys. -/
def handles (m : Mapping K) : List ExternalHandle := m.entries.map (·.2)

omit [DecidableEq K] in
private theorem keys_filter_nodup {l : List (K × ExternalHandle)} (h : (l.map (·.1)).Nodup)
    (p : K × ExternalHandle → Bool) : ((l.filter p).map (·.1)).Nodup :=
  h.sublist (List.filter_sublist.map _)

/-- Removes the pair of a key. -/
def erase (m : Mapping K) (k : K) : Mapping K where
  entries := m.entries.filter (fun p => p.1 ≠ k)
  nodup := keys_filter_nodup m.nodup _

theorem get?_eq_none_iff (m : Mapping K) (k : K) : m.get? k = none ↔ k ∉ m.keys := by
  simp only [get?, keys, Option.map_eq_none_iff, List.find?_eq_none, List.mem_map, not_exists,
    not_and]
  constructor
  · intro h p hp hk
    exact h p hp (by simpa using hk)
  · intro h p hp hk
    exact h p hp (by simpa using hk)

/-- Adds a pair, unless the key has one. -/
def insertNew (m : Mapping K) (k : K) (h : ExternalHandle) : Mapping K :=
  if hk : m.get? k = none then
    { entries := m.entries ++ [(k, h)]
      nodup := by
        have hk' : k ∉ m.entries.map (·.1) := (get?_eq_none_iff m k).1 hk
        rw [List.map_append, List.nodup_append]
        refine ⟨m.nodup, by simp, ?_⟩
        intro a ha b hb
        obtain rfl : b = k := by simpa using hb
        exact fun hab => hk' (hab ▸ ha) }
  else m

/-! ## What each operation does to `get?` -/

theorem get?_insertNew (m : Mapping K) (k : K) (h : ExternalHandle) (j : K) :
    (m.insertNew k h).get? j = if j = k then some ((m.get? k).getD h) else m.get? j := by
  unfold insertNew
  by_cases hk : m.get? k = none
  · rw [dif_pos hk]
    have hf : m.entries.find? (fun p => decide (p.1 = k)) = none := by
      simpa [get?] using hk
    by_cases hj : j = k
    · subst hj
      simp [get?, hf]
    · have hj' : ¬ k = j := fun e => hj e.symm
      simp [get?, hj, hj']
  · rw [dif_neg hk]
    obtain ⟨x, hx⟩ := Option.ne_none_iff_exists'.1 hk
    by_cases hj : j = k
    · subst hj
      simp [hx]
    · simp [hj]

theorem get?_erase (m : Mapping K) (k j : K) :
    (m.erase k).get? j = if j = k then none else m.get? j := by
  unfold get? erase
  simp only [List.find?_filter]
  by_cases hj : j = k
  · subst hj
    simp
  · rw [if_neg hj]
    congr 2
    funext p
    by_cases hp : p.1 = j
    · simp [hp, hj]
    · simp [hp]

/-- A pair is listed exactly when its key reads as its handle. -/
theorem mem_entries_iff (m : Mapping K) (k : K) (h : ExternalHandle) :
    (k, h) ∈ m.entries ↔ m.get? k = some h := by
  obtain ⟨l, hl⟩ := m
  simp only [get?]
  induction l with
  | nil => simp
  | cons p l ih =>
    obtain ⟨hp, hl'⟩ := List.nodup_cons.1 hl
    by_cases hk : p.1 = k
    · subst hk
      have : ∀ x, (p.1, x) ∉ l := fun x hx => hp (List.mem_map.2 ⟨_, hx, rfl⟩)
      simp [this, Prod.ext_iff, eq_comm]
    · have hne : (k, h) ≠ p := fun e => hk (by rw [← e])
      rw [List.find?_cons_of_neg (by simpa using hk)]
      simp only [List.mem_cons, hne, false_or]
      exact ih hl'

end Mapping

end ForeignHandles
