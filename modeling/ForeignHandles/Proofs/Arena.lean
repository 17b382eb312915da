import Mathlib.Data.List.Nodup
import ForeignHandles.Arena

/-!
  Arenas over time.

  What is in an arena can only have come in by `alloc`, under a reference that was not in use
  before.  So between two states of an arena there is not much to say about an object that is in the
  later one: either its reference is new, or the object was there before.  `Ages` says this, up to
  the parts of an object that operations change: `view` is what they leave alone.

  The list behind an arena is, up to its order, an object and what is left without it
  (`perm_items_erase`).  Sums over an arena are computed with that.

  `select` takes the objects of a sort out of an arena, in order, and commutes with all operations.
  Where an object is known by a key, no two have the same one (`KeyedBy`); then looking for a key
  finds the one object that has it.

  Arenas hold everything that has an identity, so these lemmas are used by every other module about
  stores, sessions and hosts. None of them looks at what the objects are.
-/
namespace ForeignHandles.Arena

variable {k : Kind} {α β : Type} {view : α → β} {a b c : Arena k α} {r : Ref k} {x : α}

/-! ## What is old was there before -/

/-- `b` is what has become of `a`, and as far as `view` goes no object has changed. -/
structure Ages (view : α → β) (a b : Arena k α) : Prop where
  next_le : a.next ≤ b.next
  old : ∀ {r y}, b.get? r = some y → r.index < a.next → (a.get? r).map view = some (view y)

namespace Ages

/-- Nothing has happened. -/
protected theorem refl (view : α → β) (a : Arena k α) : Ages view a a where
  next_le := Nat.le_refl _
  old hy _ := by rw [hy, Option.map_some]

/-- An object of the last state that is old as to the first is old as to the one between, since
references only grow; so it was there in both. -/
protected theorem trans (hab : Ages view a b) (hbc : Ages view b c) : Ages view a c where
  next_le := Nat.le_trans hab.next_le hbc.next_le
  old {r z} hz hr := by
    -- old as to the first state, hence as to the second
    have hr' : r.index < b.next := Nat.lt_of_lt_of_le hr hab.next_le
    obtain ⟨y, hy, hview⟩ := Option.map_eq_some_iff.1 (hbc.old hz hr')
    rw [← hview]
    exact hab.old hy hr

/-- A new object has a new reference, and the old ones stay. -/
theorem alloc (view : α → β) (a : Arena k α) (x : α) : Ages view a (a.alloc x).2 where
  next_le := Nat.le_succ _
  old {r y} hy hr := by
    rw [get?_alloc, if_neg] at hy
    · rw [hy, Option.map_some]
    · rintro rfl
      exact Nat.lt_irrefl _ hr

/-- A change that `view` does not see changes nothing as far as it goes. -/
theorem map (a : Arena k α) {f : Ref k → α → α}
    (hf : ∀ {r x}, a.get? r = some x → view (f r x) = view x) : Ages view a (a.map f) where
  next_le := Nat.le_refl _
  old {s y} hy _ := by
    rw [get?_map] at hy
    obtain ⟨x, hx, rfl⟩ := Option.map_eq_some_iff.1 hy
    rw [hx, hf hx, Option.map_some]

/-- The same for a change of one object. -/
theorem modify (a : Arena k α) (r : Ref k) {f : α → α} (hf : ∀ x, view (f x) = view x) :
    Ages view a (a.modify r f) := by
  refine map a fun {s x} _ => ?_
  split
  · exact hf x
  · rfl

/-- Taking objects away changes none of those that stay. -/
theorem filter (view : α → β) (a : Arena k α) (p : Ref k → α → Bool) :
    Ages view a (a.filter p) where
  next_le := Nat.le_refl _
  old {r y} hy _ := by
    rw [get?_filter] at hy
    rw [(Option.filter_eq_some_iff.1 hy).1, Option.map_some]

end Ages

/-! ## What is there after an operation -/

/-- What is there has a reference that was handed out. -/
theorem index_lt_next_of_get? (h : a.get? r = some x) : r.index < a.next :=
  a.bounded _ ((mem_items_iff a r x).2 h)

/-- A reference that is about to be handed out names nothing yet. -/
theorem get?_alloc_fst (a : Arena k α) (x : α) : a.get? (a.alloc x).1 = none :=
  a.get?_eq_none_of_next_le (Nat.le_refl _)

/-- After an object is added, there is that object and what was there before. -/
theorem get?_alloc_eq_some_iff {y : α} :
    (a.alloc x).2.get? r = some y ↔ (a.alloc x).1 = r ∧ x = y ∨ a.get? r = some y := by
  rw [get?_alloc]
  by_cases hr : r = (a.alloc x).1
  · subst hr
    simp [get?_alloc_fst]
  · have hr' : (a.alloc x).1 ≠ r := fun h => hr h.symm
    simp [hr, hr']

/-- After one is erased, there are the others. -/
theorem get?_erase_eq_some_iff {s : Ref k} :
    (a.erase s).get? r = some x ↔ s ≠ r ∧ a.get? r = some x := by
  rw [get?_erase]
  by_cases hr : r = s
  · simp [hr]
  · have hr' : s ≠ r := fun h => hr h.symm
    simp [hr, hr']

/-- After one is changed, what is found is that object changed, or another one as it was. -/
theorem get?_modify_eq_some_iff {s : Ref k} {f : α → α} {y : α} :
    (a.modify s f).get? r = some y ↔ ∃ x, a.get? r = some x ∧ (if s = r then f x else x) = y := by
  rw [get?_modify]
  by_cases hr : r = s
  · subst hr
    simp
  · have hr' : s ≠ r := fun h => hr h.symm
    simp [hr, hr']

/-! ## An object and the rest -/

/-- The list behind an arena has nothing twice, since its references increase. -/
theorem nodup_items (a : Arena k α) : a.items.Nodup :=
  a.ordered.imp fun hlt heq => by simp [heq] at hlt

/-- What is left was there. -/
theorem get?_of_get?_erase {s : Ref k} (h : (a.erase r).get? s = some x) : a.get? s = some x := by
  rw [get?_erase] at h
  split at h
  · cases h
  · exact h

/-- Erasing what is not there changes nothing. -/
theorem erase_of_none (h : a.get? r = none) : a.erase r = a := by
  have hkeep : a.items.filter (fun p => decide (p.1 ≠ r)) = a.items := by
    refine List.filter_eq_self.2 fun p hp => ?_
    have hx := (mem_items_iff a p.1 p.2).1 hp
    have hne : p.1 ≠ r := by
      rintro rfl
      rw [h] at hx
      cases hx
    exact decide_eq_true hne
  cases a
  simp only [erase, Arena.filter] at hkeep ⊢
  simp only [hkeep]

/-- The objects of an arena are one of them and what is left without it. -/
theorem perm_items_erase (h : a.get? r = some x) :
    a.items.Perm ((r, x) :: (a.erase r).items) := by
  have hmem (p : Ref k × α) : p ∈ (a.erase r).items ↔ p ∈ a.items ∧ p.1 ≠ r := by
    simp [erase, Arena.filter]
  -- the object itself is not among those that are left
  have hnot : (r, x) ∉ (a.erase r).items := fun hp => ((hmem _).1 hp).2 rfl
  refine (List.perm_ext_iff_of_nodup a.nodup_items
    (List.nodup_cons.2 ⟨hnot, (a.erase r).nodup_items⟩)).2 fun p => ?_
  rw [List.mem_cons, hmem]
  constructor
  · intro hp
    by_cases hr : p.1 = r
    · left
      have hy : a.get? r = some p.2 := hr ▸ (mem_items_iff a p.1 p.2).1 hp
      obtain rfl : x = p.2 := by simpa [h] using hy
      rw [← hr]
    · exact .inr ⟨hp, hr⟩
  · rintro (rfl | ⟨hp, -⟩)
    · exact (mem_items_iff a r x).2 h
    · exact hp

/-- After a change, they are the changed object and what is left without it. -/
theorem perm_items_modify (h : a.get? r = some x) (f : α → α) :
    (a.modify r f).items.Perm ((r, f x) :: (a.erase r).items) := by
  have hrest : ((a.modify r f).erase r).items = (a.erase r).items := by
    simp only [erase, Arena.filter, modify, map, List.filter_map]
    refine (List.map_congr_left fun p hp => ?_).trans (List.map_id _)
    have hne : p.1 ≠ r := by simpa using (List.mem_filter.1 hp).2
    simp [hne]
  have hx : (a.modify r f).get? r = some (f x) := by
    rw [get?_modify, if_pos rfl, h, Option.map_some]
  rw [← hrest]
  exact perm_items_erase hx

/-! ## The objects of a sort, in order -/

section Select
variable {p : α → Bool}

/-- Selected is what is there and of the sort. -/
theorem mem_select_iff : (r, x) ∈ a.select p ↔ a.get? r = some x ∧ p x = true := by
  rw [select, List.mem_filter, mem_items_iff]

/-- A new object is selected at the end, if it is of the sort. -/
theorem select_alloc (a : Arena k α) (x : α) : (a.alloc x).2.select p =
    if p x then a.select p ++ [((a.alloc x).1, x)] else a.select p := by
  cases hx : p x <;> simp [select, alloc, hx]

/-- A change in place that does not change the sort of an object. -/
theorem select_modify {f : α → α} (a : Arena k α) (r : Ref k) (hf : ∀ x, p (f x) = p x) :
    (a.modify r f).select p =
      (a.select p).map (fun z => if z.1 = r then (z.1, f z.2) else z) := by
  have hpair : (fun z : Ref k × α => (z.1, if z.1 = r then f z.2 else z.2)) =
      fun z => if z.1 = r then (z.1, f z.2) else z := by
    funext z
    split <;> rfl
  rw [select, select, modify, map, List.filter_map, hpair]
  refine congrArg (List.map _) (List.filter_congr fun z _ => ?_)
  simp only [Function.comp_apply]
  split <;> simp [hf]

/-- What is taken away from the arena is taken away from the selection, -/
theorem select_filter (a : Arena k α) (q : Ref k → α → Bool) :
    (a.filter q).select p = (a.select p).filter (fun z => q z.1 z.2) := by
  simp only [select, Arena.filter, List.filter_filter, Bool.and_comm]

/-- in particular a single object. -/
theorem select_erase (a : Arena k α) (r : Ref k) :
    (a.erase r).select p = (a.select p).filter (fun z => z.1 ≠ r) :=
  select_filter ..

end Select

/-! ## Keys -/

section Keys
variable {κ : Type} {key : α → κ}

/-- No two objects have the same key. -/
def KeyedBy (a : Arena k α) (key : α → κ) : Prop :=
  ∀ r s x y, a.get? r = some x → a.get? s = some y → key x = key y → r = s

namespace KeyedBy

/-- In an empty arena no two objects have the same key. -/
theorem of_none (h : ∀ r, a.get? r = none) : a.KeyedBy key := by
  intro r s x y hx
  cases (h r).symm.trans hx

/-- A new object is known by a key of its own, so the keys stay apart. -/
theorem alloc (h : a.KeyedBy key) (hnew : ∀ r y, a.get? r = some y → key y ≠ key x) :
    (a.alloc x).2.KeyedBy key := by
  intro r s y z hy hz heq
  rcases get?_alloc_eq_some_iff.1 hy with ⟨rfl, rfl⟩ | hy <;>
    rcases get?_alloc_eq_some_iff.1 hz with ⟨rfl, rfl⟩ | hz
  · rfl
  · exact absurd heq.symm (hnew s z hz)
  · exact absurd heq (hnew r y hy)
  · exact h _ _ _ _ hy hz heq

/-- A change that leaves keys alone leaves them apart. -/
theorem modify {f : α → α} (h : a.KeyedBy key) (r : Ref k) (hf : ∀ x, key (f x) = key x) :
    (a.modify r f).KeyedBy key := by
  have hkey (s : Ref k) (x : α) : key (if r = s then f x else x) = key x := by
    split
    · exact hf x
    · rfl
  intro s t y z hy hz heq
  obtain ⟨y', hy', rfl⟩ := get?_modify_eq_some_iff.1 hy
  obtain ⟨z', hz', rfl⟩ := get?_modify_eq_some_iff.1 hz
  rw [hkey, hkey] at heq
  exact h _ _ _ _ hy' hz' heq

/-- What stays is known by the keys that it had. -/
theorem filter (h : a.KeyedBy key) (q : Ref k → α → Bool) : (a.filter q).KeyedBy key := by
  intro r s x y hx hy
  rw [get?_filter] at hx hy
  exact h _ _ _ _ (Option.filter_eq_some_iff.1 hx).1 (Option.filter_eq_some_iff.1 hy).1

/-- Looking for a key finds the object that has it. -/
theorem find?_eq_some_iff {p : α → Bool} (h : a.KeyedBy key) (i : κ)
    (hp : ∀ x, p x = true ↔ key x = i) :
    a.find? p = some r ↔ ∃ x, a.get? r = some x ∧ key x = i := by
  constructor
  · intro hfind
    obtain ⟨x, hx, hpx⟩ := get?_of_find? hfind
    exact ⟨x, hx, (hp x).1 hpx⟩
  · rintro ⟨x, hx, hkey⟩
    -- the search cannot come back with nothing, since the object itself is found by it
    cases hfind : a.find? p with
    | none =>
      have hnot := eq_false_of_find?_eq_none hfind hx
      rw [(hp x).2 hkey] at hnot
      cases hnot
    | some s =>
      obtain ⟨y, hy, hpy⟩ := get?_of_find? hfind
      rw [h _ _ _ _ hy hx (((hp y).1 hpy).trans hkey.symm)]

/-- In a sort of objects, each of which is determined by a name, no name comes twice. -/
theorem nodup_select {ν : Type} {p : α → Bool} {name : α → ν} (h : a.KeyedBy key)
    (hkey : ∀ x y, p x = true → p y = true → name x = name y → key x = key y) :
    ((a.select p).map (fun z => name z.2)).Nodup := by
  have hnodup : (a.select p).Nodup := a.nodup_items.filter _
  refine hnodup.map_on fun z hz w hw hname => ?_
  obtain ⟨hz, hpz⟩ := mem_select_iff.1 hz
  obtain ⟨hw, hpw⟩ := mem_select_iff.1 hw
  have hr : z.1 = w.1 := h _ _ _ _ hz hw (hkey _ _ hpz hpw hname)
  rw [hr, hw] at hz
  exact Prod.ext hr (Option.some.inj hz).symm

end KeyedBy

/-- An object with this key is on the list, or none is. -/
theorem exists_mem_or_forall_ne (l : List (Ref k × α)) (key : α → κ) (i : κ) :
    (∃ r x, (r, x) ∈ l ∧ key x = i) ∨ ∀ z ∈ l, key z.2 ≠ i := by
  by_cases h : ∃ z ∈ l, key z.2 = i
  · obtain ⟨⟨r, x⟩, hz, hkey⟩ := h
    exact .inl ⟨r, x, hz, hkey⟩
  · exact .inr fun z hz hkey => h ⟨z, hz, hkey⟩

end Keys

end ForeignHandles.Arena
