import ForeignHandles.Proofs.Cache.Run

/-!
  Making a handle on demand, as a part of a run.

  `CacheCell.getOrInsert` works in any monad.  Here the cache is the state of a program that may
  fail on the way, and `create` is any such program.  `execute_getOrInsert` gives the answer and
  the cache afterwards; `getOrInsert_eq_run` says that nothing happens to the cache but a look-up,
  what `create` does, and a `settle` if a handle was made.

  What `create` does with the cache is up to it: it may look up, insert and remove, also under the
  key in question, and it may be told of deletions on the way. All that is asked of it is that it
  touches the cache by actions, so that its part in the run is a list of them.
-/
namespace ForeignHandles.Cache

variable {K : Type} [DecidableEq K]

/-- A program that uses a cache and may fail on the way. -/
abbrev Program (K : Type) := OptionT (StateM (Cache K))

/-- What a program gives, if it does not fail, and the cache it leaves either way. -/
def execute {α : Type} (program : Program K α) (c : Cache K) : Option α × Cache K :=
  program.run.run c

/-- The cache that programs use. -/
def stateCell : CacheCell (Program K) K := ⟨get, set⟩

/-- The second part of a program is run where the first one has ended, unless that has failed. -/
theorem run_bind {σ α β : Type} (first : OptionT (StateM σ) α) (next : α → OptionT (StateM σ) β)
    (s : σ) :
    (first >>= next).run.run s =
      match first.run.run s with
      | (none, s') => (none, s')
      | (some x, s') => (next x).run.run s' := by
  show (match first.run.run s with
    | (y, s') => (match y with
      | some x => next x
      | none => pure none : StateM σ (Option β)) s') = _
  rcases first.run.run s with ⟨_ | x, s'⟩ <;> rfl

omit [DecidableEq K] in
/-- The same for programs that use a cache. -/
theorem execute_bind {α β : Type} (program : Program K α) (next : α → Program K β) (c : Cache K) :
    execute (program >>= next) c =
      match execute program c with
      | (none, c') => (none, c')
      | (some x, c') => execute (next x) c' := by
  rw [execute, run_bind, execute]
  rcases program.run.run c with ⟨_ | x, c'⟩ <;> rfl

omit [DecidableEq K] in
/-- A value by itself leaves the cache as it is, -/
@[simp] theorem execute_pure {α : Type} (x : α) (c : Cache K) :
    execute (pure x : Program K α) c = (some x, c) := rfl

omit [DecidableEq K] in
/-- reading gives the cache, -/
@[simp] theorem execute_get (c : Cache K) : execute stateCell.get c = (some c, c) := rfl

omit [DecidableEq K] in
/-- and writing replaces it. -/
@[simp] theorem execute_set (c' c : Cache K) :
    execute (stateCell.set c') c = (some ⟨⟩, c') := rfl

/-- `getOrInsert` in full: what it gives and the cache it leaves. -/
theorem execute_getOrInsert (c : Cache K) (key : K) (create : Program K ExternalHandle) :
    execute (stateCell.getOrInsert key create) c =
      match c.lookup key with
      | .error e => (some (.error e), c)
      | .ok (some handle) => (some (.ok ⟨handle, false⟩), c)
      | .ok none =>
        match execute create c with
        | (none, c') => (none, c')
        | (some made, c') =>
          match c'.settle key made with
          | .error e => (some (.error e), c')
          | .ok (handle, c'') => (some (.ok ⟨handle, true⟩), c'') := by
  simp only [CacheCell.getOrInsert, execute_bind, execute_get]
  -- declined, no handle yet, or a handle
  rcases c.lookup key with e | (_ | handle)
  · rfl
  · simp only [execute_bind]
    rcases execute create c with ⟨_ | made, c'⟩
    · rfl
    · simp only [execute_get]
      rcases c'.settle key made with e | ⟨handle, c''⟩
      · rfl
      · simp only [execute_bind, execute_set, execute_pure]
  · rfl

/-- What `getOrInsert` amounts to if `create` amounts to `actions` and gives `made`. -/
def fetchActions (c : Cache K) (key : K) (actions : List (Action K))
    (made : Option ExternalHandle) : List (Action K) :=
  .lookup key ::
    match c.lookup key with
    | .ok none => actions ++ (made.map (Action.settle key)).toList
    | _ => []

/-- Making a handle on demand is a run, if `create` is one. -/
theorem getOrInsert_eq_run (c : Cache K) (key : K) (create : Program K ExternalHandle)
    (actions : List (Action K)) (hcreate : (execute create c).2 = c.run actions) :
    (execute (stateCell.getOrInsert key create) c).2 =
      c.run (c.fetchActions key actions (execute create c).1) := by
  rw [execute_getOrInsert]
  simp only [fetchActions, run_cons, act]
  rcases c.lookup key with e | (_ | handle)
  · rfl
  · rcases hmade : execute create c with ⟨made, c'⟩
    -- a program that fails leaves what it has done up to then
    have hafter : c' = c.run actions := by rw [← hcreate, hmade]
    cases made with
    | none => simpa using hafter
    | some made =>
      -- the handle is settled in the cache that `create` has left
      have hend : c.run (actions ++ [.settle key made]) = c'.act (.settle key made) := by
        rw [run_append, hafter]
        rfl
      simp only [Option.map_some, Option.toList_some, hend, act]
      rcases c'.settle key made with e | ⟨handle, c''⟩ <;> rfl
  · rfl

end ForeignHandles.Cache
