import ForeignHandles.Sizing

/-!
  A fill writes all items or nothing, and both fills are the same.

  `Filled` says of every place of the storage what is there after a fill.  There is one way to meet
  it (`filled_iff`), and storage that meets it meets it again after another fill of the same items.
  From there on it is about the order of the checks: the capacity comes first, so storage that is too
  small is reported as such even if it is the null place, and nothing has been written by then.

  The two forms of a fill differ in where the storage comes from: `fillSlice` is given storage that
  knows how long it is, and `fillArray` a place and a number. A place may be null. That the null
  place is refused only after the capacity has been checked is part of the interface, for callers
  ask for the length they need with no storage at all.
-/
namespace ForeignHandles

variable {α : Type} {dest dest' items : List α}

/-- Storage after a fill: the items are in front, and behind them is what was there before. -/
structure Filled (dest items dest' : List α) : Prop where
  length : dest'.length = dest.length
  front : ∀ i, i < items.length → dest'[i]? = items[i]?
  rest : ∀ i, items.length ≤ i → dest'[i]? = dest[i]?

/-- Writing items over storage, place by place. -/
theorem getElem?_overwrite (dest items : List α) (i : Nat) :
    (overwrite dest items)[i]? = if i < items.length then items[i]? else dest[i]? := by
  rw [overwrite, List.getElem?_append]
  split
  · rfl
  -- behind the items the old storage goes on at the same place
  · have hi : items.length + (i - items.length) = i := by omega
    rw [List.getElem?_drop, hi]

/-- There is one result that a fill can have. -/
theorem filled_iff (h : items.length ≤ dest.length) :
    Filled dest items dest' ↔ dest' = overwrite dest items := by
  constructor
  · intro hfilled
    apply List.ext_getElem?
    intro i
    rw [getElem?_overwrite]
    split
    · exact hfilled.front i (by assumption)
    · exact hfilled.rest i (by omega)
  · rintro rfl
    refine ⟨length_overwrite dest items h, fun i hi => ?_, fun i hi => ?_⟩
    · rw [getElem?_overwrite, if_pos hi]
    · rw [getElem?_overwrite, if_neg (by omega)]

/-- The same items once more change nothing. -/
theorem overwrite_overwrite (dest items : List α) :
    overwrite (overwrite dest items) items = overwrite dest items := by
  simp [overwrite]

/-- Storage that is too short is left alone, and the caller learns both lengths. -/
theorem fillSlice_of_lt (name : String) (h : dest.length < items.length) :
    fillSlice name dest items = (.error (.bufferTooSmall name items.length dest.length), dest) := by
  rw [fillSlice, checkCapacity, if_pos h]

/-- Storage that is long enough is written from the front. -/
theorem fillSlice_of_le (name : String) (h : items.length ≤ dest.length) :
    fillSlice name dest items = (.ok (), overwrite dest items) := by
  rw [fillSlice, checkCapacity, if_neg (by omega)]

/-- Storage at a place is filled like storage that carries its length. -/
theorem fillArray_some (name : String) (dest items : List α) :
    fillArray name (some dest) dest.length items =
      ((fillSlice name dest items).1, some (fillSlice name dest items).2) := by
  by_cases h : dest.length < items.length
  · rw [fillSlice_of_lt name h, fillArray, checkCapacity, if_pos h]
  · rw [fillSlice_of_le name (by omega), fillArray, checkCapacity, if_neg h]
    cases items <;> rfl

/-- The null place: too small, or nothing to write, or an error about the place. -/
theorem fillArray_none (name : String) (capacity : Nat) (items : List α) :
    fillArray name none capacity items =
      (if capacity < items.length then .error (.bufferTooSmall name items.length capacity)
        else if items = [] then .ok () else .error (.nullOutParam name), none) := by
  by_cases h : capacity < items.length
  · rw [fillArray, checkCapacity, if_pos h, if_pos h]
  · rw [fillArray, checkCapacity, if_neg h, if_neg h]
    cases items <;> rfl

/-- **Fills are atomic and agree.**

A fill fails exactly if the storage is shorter than the list of items, says how long both are and
leaves the storage as it was; otherwise it succeeds and puts the items in front.  It makes no
difference whether the storage comes as a place and a capacity, and a fill that has succeeded does
nothing more if it is repeated.  The null place is never written to: a capacity that is too small is
reported first, and then the place, unless there are no items. -/
theorem fills_are_atomic_and_agree (name : String) (dest items : List α) :
    (∀ outcome dest', fillSlice name dest items = (outcome, dest') ↔
      dest.length < items.length ∧ dest' = dest ∧
          outcome = .error (.bufferTooSmall name items.length dest.length) ∨
        items.length ≤ dest.length ∧ Filled dest items dest' ∧ outcome = .ok ()) ∧
    fillArray name (some dest) dest.length items =
      ((fillSlice name dest items).1, some (fillSlice name dest items).2) ∧
    (∀ dest', fillSlice name dest items = (.ok (), dest') →
      fillSlice name dest' items = (.ok (), dest') ∧
        fillArray name (some dest') dest'.length items = (.ok (), some dest')) ∧
    ∀ capacity, fillArray name none capacity items =
      (if capacity < items.length then .error (.bufferTooSmall name items.length capacity)
        else if items = [] then .ok () else .error (.nullOutParam name), none) := by
  refine ⟨fun outcome dest' => ?_, fillArray_some name dest items, fun dest' hfill => ?_,
    fun capacity => fillArray_none name capacity items⟩
  -- the two outcomes exclude each other, so each direction has one case to deal with
  · rcases Nat.lt_or_ge dest.length items.length with hshort | hfits
    · have hnot : ¬ items.length ≤ dest.length := by omega
      rw [fillSlice_of_lt name hshort]
      constructor
      · rintro ⟨⟩
        exact .inl ⟨hshort, rfl, rfl⟩
      · rintro (⟨-, rfl, rfl⟩ | ⟨hfits, -, -⟩)
        · rfl
        · exact absurd hfits hnot
    · have hnot : ¬ dest.length < items.length := by omega
      rw [fillSlice_of_le name hfits, filled_iff hfits]
      constructor
      · rintro ⟨⟩
        exact .inr ⟨hfits, rfl, rfl⟩
      · rintro (⟨hshort, -, -⟩ | ⟨-, rfl, rfl⟩)
        · exact absurd hshort hnot
        · rfl
  · have hfits : items.length ≤ dest.length := by
      refine Nat.not_lt.1 fun hshort => ?_
      rw [fillSlice_of_lt name hshort] at hfill
      cases hfill
    rw [fillSlice_of_le name hfits] at hfill
    obtain rfl : overwrite dest items = dest' := (Prod.mk.inj hfill).2
    -- storage that was filled is as long as before, so the items fit again
    have hlength := length_overwrite dest items hfits
    have hagain : fillSlice name (overwrite dest items) items = (.ok (), overwrite dest items) := by
      rw [fillSlice_of_le name (by omega), overwrite_overwrite]
    exact ⟨hagain, by rw [fillArray_some, hagain]⟩

/-- Storage that the items fit into exactly is filled to its end, and a second time to no effect; one
element less, and nothing is written. -/
theorem exact_fit_filled :
    fillSlice "items" [1, 2, 3] [10, 20, 30] = (.ok (), [10, 20, 30]) ∧
      fillSlice "items" [10, 20, 30] [10, 20, 30] = (.ok (), [10, 20, 30]) ∧
      fillSlice "items" [1, 2] [10, 20, 30] = (.error (.bufferTooSmall "items" 3 2), [1, 2]) := by
  have hfill : fillSlice "items" [1, 2, 3] [10, 20, 30] = (.ok (), [10, 20, 30]) := rfl
  obtain ⟨-, -, hagain, -⟩ := fills_are_atomic_and_agree "items" [1, 2, 3] [10, 20, 30]
  obtain ⟨hshort, -⟩ := fills_are_atomic_and_agree "items" [1, 2] [10, 20, 30]
  exact ⟨hfill, (hagain _ hfill).1, (hshort _ _).2 (.inl ⟨by decide, rfl, rfl⟩)⟩

end ForeignHandles
