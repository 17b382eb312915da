import ForeignHandles.Ref

/-!
  Arenas: the objects of one kind, in the order in which they were created.

  An arena hands out a fresh reference for every object it takes in. Removing an object leaves the
  order of the rest alone and does not free its reference for reuse. Both facts are fields of the
  structure: references increase along the list (`ordered`), so each occurs once, and all of them
  lie below `next` (`bounded`), so the next one is new.

  The view of an arena is `get?`. Below, each operation has one lemma that says what it does to
  `get?`; `alloc` adds at the end, `map` changes objects in place and `filter` removes some, and
  `modify` and `erase` are the versions of the last two for one object.
-/
namespace ForeignHandles

/-- Objects of kind `k` with their references, in creation order. -/
structure Arena (k : Kind) (α : Type) where
  items : List (Ref k × α) := []
  next : Nat := 0
  ordered : items.Pairwise (fun p q => p.1.index < q.1.index) := by simp
  bounded : ∀ p ∈ items, p.1.index < next := by simp

namespace Arena

variable {k : Kind} {α : Type}

instance : Inhabited (Arena k α) := ⟨{}⟩

/-- The object that `r` names, if it is still there. -/
def get? (a : Arena k α) (r : Ref k) : Option α :=
  (a.items.find? (fun p => p.1 = r)).map (·.2)

/-- Whether `r` names an object that is still there. -/
def contains (a : Arena k α) (r : Ref k) : Bool := (a.get? r).isSome

/-- The references in creation order. -/
def refs (a : Arena k α) : List (Ref k) := a.items.map (·.1)

/-- The number of objects. -/
def size (a : Arena k α) : Nat := a.items.length

/-- The first object, in creation order, that satisfies `p`. -/
def find? (a : Arena k α) (p : α → Bool) : Option (Ref k) :=
  (a.items.find? (fun q => p q.2)).map (·.1)

/-- The objects that satisfy `p`, in creation order. -/
def select (a : Arena k α) (p : α → Bool) : List (Ref k × α) :=
  a.items.filter (fun q => p q.2)

/-- Takes in `x` at the end, under a reference that was never used before. -/
def alloc (a : Arena k α) (x : α) : Ref k × Arena k α :=
  (⟨a.next⟩,
   { items := a.items ++ [(⟨a.next⟩, x)]
     next := a.next + 1
     ordered := by
       refine List.pairwise_append.2 ⟨a.ordered, by simp, ?_⟩
       intro p hp q hq
       obtain rfl : q = (⟨a.next⟩, x) := by simpa using hq
       exact a.bounded p hp
     bounded := by
       intro p hp
       rcases List.mem_append.1 hp with h | h
       · exact Nat.lt_succ_of_lt (a.bounded p h)
       · obtain rfl : p = (⟨a.next⟩, x) := by simpa using h
         exact Nat.lt_succ_self _ })

/-- Changes every object in place. -/
def map (a : Arena k α) (f : Ref k → α → α) : Arena k α where
  items := a.items.map (fun p => (p.1, f p.1 p.2))
  next := a.next
  ordered := List.pairwise_map.2 a.ordered
  bounded := by
    intro p hp
    obtain ⟨q, hq, rfl⟩ := List.mem_map.1 hp
    exact a.bounded q hq

/-- Keeps the objects that satisfy `p`. -/
def filter (a : Arena k α) (p : Ref k → α → Bool) : Arena k α where
  items := a.items.filter (fun q => p q.1 q.2)
  next := a.next
  ordered := a.ordered.sublist List.filter_sublist
  bounded := fun q hq => a.bounded q (List.mem_filter.1 hq).1

/-- Changes the object that `r` names. -/
def modify (a : Arena k α) (r : Ref k) (f : α → α) : Arena k α :=
  a.map (fun s x => if s = r then f x else x)

/-- Removes the object that `r` names. -/
def erase (a : Arena k α) (r : Ref k) : Arena k α := a.filter (fun s _ => s ≠ r)

/-! ## What each operation does to `get?` -/

private theorem find?_eq_some_of_mem {l : List (Ref k × α)}
    (ho : l.Pairwise (fun p q => p.1.index < q.1.index)) {r : Ref k} {x : α} (hm : (r, x) ∈ l) :
    l.find? (fun p => p.1 = r) = some (r, x) := by
  induction l with
  | nil => simp at hm
  | cons p l ih =>
    obtain ⟨hp, hl⟩ := List.pairwise_cons.1 ho
    rcases List.mem_cons.1 hm with rfl | hm
    · simp
    · have hne : p.1 ≠ r := fun h => by
        have := hp _ hm
        simp [h] at this
      rw [List.find?_cons_of_neg (by simpa using hne)]
      exact ih hl hm

/-- An object is in the list exactly when its reference reads as it. -/
theorem mem_items_iff (a : Arena k α) (r : Ref k) (x : α) :
    (r, x) ∈ a.items ↔ a.get? r = some x := by
  constructor
  · intro h
    simp [get?, find?_eq_some_of_mem a.ordered h]
  · intro h
    obtain ⟨p, hp, hx⟩ := Option.map_eq_some_iff.1 h
    have hr : p.1 = r := by simpa using List.find?_some hp
    have := List.mem_of_find?_eq_some hp
    subst hx hr
    exact this

theorem mem_refs_iff (a : Arena k α) (r : Ref k) : r ∈ a.refs ↔ a.contains r = true := by
  constructor
  · intro h
    obtain ⟨p, hp, rfl⟩ := List.mem_map.1 h
    simp [contains, (mem_items_iff a p.1 p.2).1 hp]
  · intro h
    obtain ⟨x, hx⟩ := Option.isSome_iff_exists.1 h
    exact List.mem_map.2 ⟨(r, x), (mem_items_iff a r x).2 hx, rfl⟩

theorem nodup_refs (a : Arena k α) : a.refs.Nodup := by
  refine List.pairwise_map.2 (a.ordered.imp fun hlt heq => ?_)
  simp [heq] at hlt

/-- A reference at or above `next` has not been handed out. -/
theorem get?_eq_none_of_next_le (a : Arena k α) {r : Ref k} (h : a.next ≤ r.index) :
    a.get? r = none := by
  cases hx : a.get? r with
  | none => rfl
  | some x =>
    have := a.bounded _ ((mem_items_iff a r x).2 hx)
    exact absurd this (Nat.not_lt.2 h)

/-- What is found satisfies the condition. -/
theorem get?_of_find? {a : Arena k α} {p : α → Bool} {r : Ref k} (h : a.find? p = some r) :
    ∃ x, a.get? r = some x ∧ p x = true := by
  obtain ⟨q, hq, rfl⟩ := Option.map_eq_some_iff.1 h
  have hp := List.find?_some hq
  exact ⟨q.2, (mem_items_iff a q.1 q.2).1 (List.mem_of_find?_eq_some hq), hp⟩

/-- What is found is there. -/
theorem contains_of_find? {a : Arena k α} {p : α → Bool} {r : Ref k} (h : a.find? p = some r) :
    a.contains r = true := by
  obtain ⟨x, hx, -⟩ := get?_of_find? h
  rw [contains, hx]
  rfl

/-- If nothing is found then nothing satisfies the condition. -/
theorem eq_false_of_find?_eq_none {a : Arena k α} {p : α → Bool} (h : a.find? p = none)
    {r : Ref k} {x : α} (hx : a.get? r = some x) : p x = false := by
  have hnone := List.find?_eq_none.1 (Option.map_eq_none_iff.1 h) (r, x)
    ((mem_items_iff a r x).2 hx)
  simpa using hnone

theorem get?_alloc (a : Arena k α) (x : α) (r : Ref k) :
    (a.alloc x).2.get? r = if r = (a.alloc x).1 then some x else a.get? r := by
  by_cases hr : r = (a.alloc x).1
  · subst hr
    have h := get?_eq_none_of_next_le a (r := (a.alloc x).1) (Nat.le_refl _)
    simp only [get?, alloc, Option.map_eq_none_iff] at h
    simp [get?, alloc, h]
  · have hr' : ¬ (⟨a.next⟩ : Ref k) = r := fun h => hr h.symm
    rw [if_neg hr]
    simp [get?, alloc, hr']

/-- The references handed out are those from before and the new one. -/
theorem index_lt_next_alloc (a : Arena k α) (x : α) (r : Ref k) :
    r.index < (a.alloc x).2.next ↔ r.index < a.next ∨ r = (a.alloc x).1 := by
  obtain ⟨i⟩ := r
  have hsplit : i < a.next + 1 ↔ i < a.next ∨ i = a.next := by omega
  simpa [alloc] using hsplit

theorem get?_map (a : Arena k α) (f : Ref k → α → α) (r : Ref k) :
    (a.map f).get? r = (a.get? r).map (f r) := by
  apply Option.ext
  intro x
  rw [← mem_items_iff, Option.map_eq_some_iff]
  constructor
  · intro h
    obtain ⟨p, hp, he⟩ := List.mem_map.1 h
    obtain ⟨rfl, rfl⟩ := Prod.mk.inj he
    exact ⟨p.2, (mem_items_iff a p.1 p.2).1 hp, rfl⟩
  · rintro ⟨y, hy, rfl⟩
    exact List.mem_map.2 ⟨(r, y), (mem_items_iff a r y).2 hy, rfl⟩

theorem get?_filter (a : Arena k α) (p : Ref k → α → Bool) (r : Ref k) :
    (a.filter p).get? r = (a.get? r).filter (p r) := by
  apply Option.ext
  intro x
  rw [← mem_items_iff, Option.filter_eq_some_iff, ← mem_items_iff]
  simp [filter]

theorem get?_modify (a : Arena k α) (r s : Ref k) (f : α → α) :
    (a.modify r f).get? s = if s = r then (a.get? s).map f else a.get? s := by
  by_cases h : s = r <;> simp [modify, get?_map, h]

/-- What a change does elsewhere does not matter. -/
theorem modify_congr {a : Arena k α} {r : Ref k} {f g : α → α}
    (h : ∀ x, a.get? r = some x → f x = g x) : a.modify r f = a.modify r g := by
  have hitems : (a.modify r f).items = (a.modify r g).items := by
    refine List.map_congr_left fun p hp => ?_
    have hx := (mem_items_iff a p.1 p.2).1 hp
    by_cases hr : p.1 = r
    · subst hr
      simp [h p.2 hx]
    · simp [hr]
  simp only [modify, map] at hitems ⊢
  simp only [hitems]

theorem modify_eq_self {a : Arena k α} {r : Ref k} {f : α → α}
    (h : ∀ x, a.get? r = some x → f x = x) : a.modify r f = a := by
  have hid : (a.modify r id).items = a.items := by simp [modify, map]
  rw [modify_congr (g := id) h]
  cases a
  simp only [modify, map] at hid ⊢
  simp only [hid]

theorem modify_of_none {a : Arena k α} {r : Ref k} (h : a.get? r = none) (f : α → α) :
    a.modify r f = a := by
  refine modify_eq_self fun x hx => ?_
  rw [h] at hx
  cases hx

theorem modify_of_get? {a : Arena k α} {r : Ref k} {x : α} {f : α → α} (h : a.get? r = some x)
    (hf : f x = x) : a.modify r f = a := by
  refine modify_eq_self fun y hy => ?_
  obtain rfl : x = y := by simpa [h] using hy
  exact hf

theorem get?_erase (a : Arena k α) (r s : Ref k) :
    (a.erase r).get? s = if s = r then none else a.get? s := by
  by_cases h : s = r
  · simp [erase, get?_filter, h]
  · cases hx : a.get? s <;> simp [erase, get?_filter, h, hx]

end Arena

end ForeignHandles
