import ForeignHandles.Proofs.Cache.Scripts

/-!
  Making a handle on demand, whatever is done to make it.

  Between the look-up that finds nothing and the `settle` at the end, `create` has the cache to
  itself.  It may insert the very key that a handle is being made for, remove it again, have it
  deleted or moved by notifications, and make handles on demand in turn.  A `Maker` is all that it
  does, one thing after another; it may go by anything that has happened so far, its answers
  included.

  What matters is that a cache that was idle is idle again whenever something has been done to the
  end (`Idles`).  That is so for each thing that a maker does, and follows for makers by induction.
  So `settle` is never declined, and the handle that it gives is the one that is mapped
  (`settle_of_idle`).
-/
namespace ForeignHandles.Cache

variable {K : Type} [DecidableEq K]

/-! ## The parts of making a handle

`getOrInsert` is a look-up, the maker and a `settle`, in whatever program the cache is a part of.
The equation is proved once for a program whose state has a cache somewhere, and used for two of
them. -/

/-- In an idle cache, a key that has no handle gets the new one, and a key that has one keeps it. -/
theorem settle_of_idle {c : Cache K} (hidle : c.isDispatching = false) (key : K)
    (made : ExternalHandle) :
    c.settle key made = .ok ((c.mapping.get? key).getD made,
      { c with mapping := c.mapping.insertNew key made }) := by
  cases hkey : c.mapping.get? key with
  | none => simp [settle, insert_of_absent hidle hkey]
  | some existing => simp [settle, insert_of_mapped hidle hkey, Mapping.insertNew, hkey]

/-- `getOrInsert` in full, for a cache that is a part of the state of a program. -/
theorem run_getOrInsert {σ : Type} {cell : CacheCell (OptionT (StateM σ)) K} (read : σ → Cache K)
    (write : σ → Cache K → σ) (hget : ∀ s, cell.get.run.run s = (some (read s), s))
    (hset : ∀ c s, (cell.set c).run.run s = (some ⟨⟩, write s c)) (key : K)
    (create : OptionT (StateM σ) ExternalHandle) (s : σ) :
    (cell.getOrInsert key create).run.run s =
      match (read s).lookup key with
      | .error e => (some (.error e), s)
      | .ok (some handle) => (some (.ok ⟨handle, false⟩), s)
      | .ok none =>
        match create.run.run s with
        | (none, s') => (none, s')
        | (some made, s') =>
          match (read s').settle key made with
          | .error e => (some (.error e), s')
          | .ok (handle, c) => (some (.ok ⟨handle, true⟩), write s' c) := by
  simp only [CacheCell.getOrInsert, run_bind, hget]
  rcases (read s).lookup key with e | (_ | handle)
  · rfl
  · simp only [run_bind]
    rcases create.run.run s with ⟨_ | made, s'⟩
    · rfl
    · simp only [hget]
      rcases (read s').settle key made with e | ⟨handle, c⟩
      · rfl
      · simp only [run_bind, hset]
        rfl
  · rfl

/-! ## Makers

A maker is a tree rather than a list, since it may look at everything before it goes on.
Notifications that it raises are worked off by the consumer of the cache, for as many callbacks as
`n` allows; if that is not enough the maker does not get to its end. -/

/-- What is done to make a handle. -/
inductive Maker (K : Type) where
  | give (handle : ExternalHandle)
  /-- What comes next may depend on anything that has happened, and on what is cached. -/
  | inspect (next : Play K → Maker K)
  | insert (key : K) (handle : ExternalHandle) (next : Maker K)
  | remove (key : K) (next : Maker K)
  | notify (event : Event K) (next : Maker K)
  | getOrInsert (key : K) (create next : Maker K)

/-- A program that uses the cache of a play.  It fails where a callback would have to go on for
longer than it may. -/
abbrev Playing (K : Type) := OptionT (StateM (Play K))

/-- The cache that such programs use. -/
def playCell : CacheCell (Playing K) K where
  get := do return (← get).cache
  set c := modify (fun p => { p with cache := c })

/-- The answer to a handle on demand. -/
def Answer.ofFetched : Except CacheError Fetched → Answer
  | .error e => .declined e
  | .ok result => .fetched result

/-- Notes an answer. -/
def answered (answer : Answer) : Playing K PUnit :=
  modify (fun p => { p with answers := p.answers ++ [answer] })

/-- Asks the cache. -/
def asked (op : Operation K) : Playing K PUnit := do
  let outcome := op.perform (← get).cache
  modify (fun p => { p with cache := outcome.cache })
  answered outcome.answer

/-- Raises a notification, and lets the consumer have `n` callbacks at the most. -/
def notified (consumer : Consumer K) (n : Nat) (e : Event K) : Playing K PUnit := fun p =>
  let served := Play.serve consumer n { p with cache := p.cache.raise e }
  (if served.cache.isDispatching then none else some ⟨⟩, served)

/-- Does what a maker does. -/
def Maker.perform (consumer : Consumer K) (n : Nat) : Maker K → Playing K ExternalHandle
  | .give handle => return handle
  | .inspect next => do (next (← get)).perform consumer n
  | .insert key handle next => do
    asked (.insert key handle)
    next.perform consumer n
  | .remove key next => do
    asked (.remove key)
    next.perform consumer n
  | .notify e next => do
    notified consumer n e
    next.perform consumer n
  | .getOrInsert key create next => do
    let fetched ← playCell.getOrInsert key (create.perform consumer n)
    answered (.ofFetched fetched)
    next.perform consumer n

/-! ## Idle before, idle after

Of a program that is interrupted nothing is said: the cache may then be in the middle of a
callback. -/

omit [DecidableEq K] in
/-- A program that gets to its end leaves the cache idle if it was. -/
def Idles {α : Type} (program : Playing K α) : Prop :=
  ∀ p x left, p.cache.isDispatching = false → program.run.run p = (some x, left) →
    left.cache.isDispatching = false

namespace Idles

variable {α β : Type}

omit [DecidableEq K] in
/-- A value by itself, -/
theorem pure (x : α) : Idles (Pure.pure x : Playing K α) := by
  rintro p y left hidle ⟨⟩
  exact hidle

omit [DecidableEq K] in
/-- a look at everything that has happened, -/
theorem get : Idles (MonadState.get : Playing K (Play K)) := by
  rintro p y left hidle ⟨⟩
  exact hidle

omit [DecidableEq K] in
/-- one part after another, -/
theorem bind {first : Playing K α} {next : α → Playing K β} (hfirst : Idles first)
    (hnext : ∀ x, Idles (next x)) : Idles (first >>= next) := by
  intro p y left hidle hrun
  rw [run_bind] at hrun
  -- the first part may fail, and then there is no end to speak of
  rcases hmid : first.run.run p with ⟨_ | x, p'⟩
  · rw [hmid] at hrun
    cases hrun
  · rw [hmid] at hrun
    exact hnext x p' y left (hfirst p x p' hidle hmid) hrun

omit [DecidableEq K] in
/-- and the note of an answer all leave the cache as idle as it was. -/
theorem answered (answer : Answer) : Idles (Cache.answered answer : Playing K PUnit) := by
  rintro p y left hidle ⟨⟩
  exact hidle

/-- Inserting and removing are no notifications. -/
theorem asked {op : Operation K}
    (hop : (∃ key handle, op = .insert key handle) ∨ ∃ key, op = .remove key) :
    Idles (Cache.asked op) := by
  rintro p y left hidle ⟨⟩
  show (op.perform p.cache).cache.isDispatching = false
  rcases hop with ⟨key, handle, rfl⟩ | ⟨key, rfl⟩
  · cases hkey : p.cache.mapping.get? key with
    | none =>
      simp only [Operation.perform, insert_of_absent hidle hkey]
      exact hidle
    | some existing =>
      simp only [Operation.perform, insert_of_mapped hidle hkey]
      exact hidle
  · simp only [Operation.perform, remove_of_idle hidle]
    exact hidle

/-- A notification is worked off to its end, or the program does not go on. -/
theorem notified (consumer : Consumer K) (n : Nat) (e : Event K) :
    Idles (Cache.notified consumer n e) := by
  intro p y left _ hrun
  obtain ⟨hend, rfl⟩ := Prod.mk.inj hrun
  cases hbusy : (Play.serve consumer n { p with cache := p.cache.raise e }).cache.isDispatching with
  | true => simp [hbusy] at hend
  | false => rfl

/-- A handle on demand leaves the cache idle if its maker does. -/
theorem getOrInsert (key : K) {create : Playing K ExternalHandle} (hcreate : Idles create) :
    Idles (playCell.getOrInsert key create) := by
  intro p y left hidle hrun
  rw [run_getOrInsert Play.cache (fun p c => { p with cache := c }) (fun _ => rfl) (fun _ _ => rfl),
    lookup_of_idle hidle] at hrun
  cases hkey : p.cache.mapping.get? key with
  | some handle =>
    simp only [hkey] at hrun
    cases hrun
    exact hidle
  | none =>
    simp only [hkey] at hrun
    rcases hmade : create.run.run p with ⟨_ | made, p'⟩
    · simp only [hmade] at hrun
      cases hrun
    -- the maker has got to its end, so the new handle can be settled
    · have hidle' : p'.cache.isDispatching = false := hcreate p made p' hidle hmade
      simp only [hmade, settle_of_idle hidle'] at hrun
      cases hrun
      exact hidle'

end Idles

/-- Whatever a maker does, it leaves the cache idle. -/
theorem idles_perform (consumer : Consumer K) (n : Nat) (maker : Maker K) :
    Idles (maker.perform consumer n) := by
  induction maker with
  | give handle => exact .pure handle
  | inspect next ih => exact .bind .get ih
  | insert key handle next ih => exact .bind (.asked (.inl ⟨key, handle, rfl⟩)) fun _ => ih
  | remove key next ih => exact .bind (.asked (.inr ⟨key, rfl⟩)) fun _ => ih
  | notify e next ih => exact .bind (.notified consumer n e) fun _ => ih
  | getOrInsert key create next ihcreate ih =>
    exact .bind (.getOrInsert key ihcreate) fun _ => .bind (.answered _) fun _ => ih

/-! ## How often a handle is made

To say that a maker is not put to work, its runs are counted. The counter is beside the play,
where no maker gets at it. -/

/-- A program of which somebody counts how often a part of it is run. -/
abbrev Tallied (K : Type) := OptionT (StateM (Play K × Nat))

/-- The cache that such programs use. -/
def talliedCell : CacheCell (Tallied K) K where
  get := do return (← get).1.cache
  set c := modify (fun s => ⟨{ s.1 with cache := c }, s.2⟩)

/-- The part of a program whose runs are counted. -/
def tally {α : Type} (program : Playing K α) : Tallied K α :=
  fun s => ((program.run.run s.1).1, (program.run.run s.1).2, s.2 + 1)

/-- The handle of a key, made by a maker if there is none: what is answered, the play afterwards, and
how often the maker has been at work. -/
def fetch (consumer : Consumer K) (n : Nat) (key : K) (create : Maker K) (p : Play K) :
    Option (Except CacheError Fetched) × Play K × Nat :=
  (talliedCell.getOrInsert key (tally (create.perform consumer n))).run.run (p, 0)

/-- What is answered, and how often the maker is put to work, in each case. -/
theorem fetch_eq (consumer : Consumer K) (n : Nat) (key : K) (create : Maker K) (p : Play K) :
    fetch consumer n key create p =
      match p.cache.lookup key with
      | .error e => (some (.error e), p, 0)
      | .ok (some handle) => (some (.ok ⟨handle, false⟩), p, 0)
      | .ok none =>
        match (create.perform consumer n).run.run p with
        | (none, left) => (none, left, 1)
        | (some made, left) =>
          match left.cache.settle key made with
          | .error e => (some (.error e), left, 1)
          | .ok (handle, c) => (some (.ok ⟨handle, true⟩), { left with cache := c }, 1) := by
  have htally : (tally (create.perform consumer n)).run.run (p, 0) =
      (((create.perform consumer n).run.run p).1, ((create.perform consumer n).run.run p).2, 1) := rfl
  rw [fetch, run_getOrInsert (fun s => s.1.cache)
    (fun s c => ⟨{ s.1 with cache := c }, s.2⟩) (fun _ => rfl) (fun _ _ => rfl), htally]
  rcases p.cache.lookup key with e | (_ | handle)
  · rfl
  · rcases (create.perform consumer n).run.run p with ⟨_ | made, left⟩
    · rfl
    · simp only
      rcases left.cache.settle key made with e | ⟨handle, c⟩ <;> rfl
  · rfl

/-- A maker that gives a handle leaves an idle cache to settle it in. -/
theorem fetch_of_absent {consumer : Consumer K} {n : Nat} {key : K} {create : Maker K}
    {p left : Play K} {made : ExternalHandle} (hidle : p.cache.isDispatching = false)
    (hkey : p.cache.mapping.get? key = none)
    (hmade : (create.perform consumer n).run.run p = (some made, left)) :
    left.cache.isDispatching = false ∧ fetch consumer n key create p =
      (some (.ok ⟨(left.cache.mapping.get? key).getD made, true⟩),
        { left with cache :=
          { left.cache with mapping := left.cache.mapping.insertNew key made } }, 1) := by
  have hidle' := idles_perform consumer n create p made left hidle hmade
  refine ⟨hidle', ?_⟩
  rw [fetch_eq, lookup_of_idle hidle, hkey]
  simp only [hmade, settle_of_idle hidle']

/-- **Making a handle on demand is consistent.**  Let a maker do what it likes with the cache, and
give a handle in the end.  While a callback runs, and only then, the call is declined; the maker is
not put to work and nothing changes.  Otherwise the handle that is answered is the one that the key
has right afterwards.  If the key had one then the maker is not put to work and nothing changes.  If
it had none then the maker is put to work once, and the mapping is what it has left, with the key
mapped to the new handle at the end exactly if the key had none there. -/
theorem getOrInsert_consistent (consumer : Consumer K) (n : Nat) (key : K) (create : Maker K)
    (p : Play K) :
    (p.cache.isDispatching = true →
      fetch consumer n key create p = (some (.error .callbackInProgress), p, 0)) ∧
    (p.cache.isDispatching = false → ∀ handle, p.cache.mapping.get? key = some handle →
      fetch consumer n key create p = (some (.ok ⟨handle, false⟩), p, 0) ∧
        p.cache.lookup key = .ok (some handle)) ∧
    (p.cache.isDispatching = false → p.cache.mapping.get? key = none →
      ∀ made left, (create.perform consumer n).run.run p = (some made, left) →
        ∃ handle mapping, fetch consumer n key create p =
            (some (.ok ⟨handle, true⟩), { left with cache := { left.cache with mapping } }, 1) ∧
          Cache.lookup { left.cache with mapping } key = .ok (some handle) ∧
          mapping.entries = left.cache.mapping.entries ++
            if left.cache.mapping.get? key = none then [(key, made)] else []) := by
  refine ⟨fun hbusy => ?_, fun hidle handle hkey => ?_, fun hidle hkey made left hmade => ?_⟩
  · rw [fetch_eq, lookup_of_dispatching hbusy]
  · rw [fetch_eq, lookup_of_idle hidle, hkey]
    exact ⟨rfl, rfl⟩
  · obtain ⟨hidle', hfetch⟩ := fetch_of_absent hidle hkey hmade
    refine ⟨_, _, hfetch, ?_, ?_⟩
    · rw [lookup_of_idle (by exact hidle'), Mapping.get?_insertNew, if_pos rfl]
    · by_cases hleft : left.cache.mapping.get? key = none
      · rw [Mapping.insertNew, dif_pos hleft, if_pos hleft]
      · rw [Mapping.insertNew, dif_neg hleft, if_neg hleft, List.append_nil]

/-- While a handle for `2` is made, another one for the same key is made on demand, and a notification
moves that one to `3`. -/
def roundabout : Maker Nat :=
  .insert 1 10 <| .getOrInsert 2 (.remove 1 (.give 20)) <| .notify (.replaced 2 3) <|
    .inspect fun p => .give (if p.cache.mapping.get? 3 = some 20 then 21 else 22)

/-- This consumer keeps every handle. -/
def keeper : Consumer Nat := fun _ => { deeds := [], ending := .returns none }

/-- The call gives the handle that was made last, under the key that has become free again. -/
theorem roundabout_consistent :
    ∃ left, (roundabout.perform keeper 1).run.run { cache := fresh true true } = (some 21, left) ∧
      ∃ handle mapping, fetch keeper 1 2 roundabout { cache := fresh true true } =
          (some (.ok ⟨handle, true⟩), { left with cache := { left.cache with mapping } }, 1) ∧
        Cache.lookup { left.cache with mapping } 2 = .ok (some handle) ∧
        mapping.entries = left.cache.mapping.entries ++
          if left.cache.mapping.get? 2 = none then [(2, 21)] else [] :=
  ⟨_, rfl, (getOrInsert_consistent keeper 1 2 roundabout { cache := fresh true true }).2.2 rfl rfl
    21 _ rfl⟩

end ForeignHandles.Cache
