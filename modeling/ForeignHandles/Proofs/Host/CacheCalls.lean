import ForeignHandles.Host.CacheAccess
import ForeignHandles.Proofs.Cache.Step

/-!
  What callers get from a cache.

  A call of a cache works on a cache that is there, is idle, and on a value that is not null, or it
  is declined.  For each of the three calls there is one lemma that says so (`cacheLookup_cases`,
  `cacheInsert_cases`, `cacheRemove_cases`): a call that is declined changes nothing and leaves zero
  in the caller's place, if it has one.

  On an idle cache a call is the operation of a finite map; those equations come first.  `mapped` is
  what they are stated by.

  The order in which a call looks at its arguments differs from call to call. A look-up asks for the
  place first, an insertion for the handle zero after the cache and the value; all of them find the
  cache and the value by `operands`, so what they have in common is said of that once
  (`operands_cases`). That a failed call changes nothing, and what an idle cache answers, are the
  two things that other modules need to know of these calls; they never unfold them.
-/
namespace ForeignHandles.Host

variable {h : Host} {k : Ref .cache} {x : BoundCache} {v : Ref .value}

/-- The handle that a cache has for a value. -/
def mapped (h : Host) (k : Ref .cache) (v : Ref .value) : Option ExternalHandle :=
  (h.caches.get? k).bind (fun x => x.cache.mapping.get? v)

/-- A cache that is there has for a value what its mapping has. -/
theorem mapped_of_get? (hx : h.caches.get? k = some x) (v : Ref .value) :
    h.mapped k v = x.cache.mapping.get? v := by
  rw [mapped, hx, Option.bind_some]

/-- Writing a cache back changes what that cache has for values, and no other cache. -/
theorem mapped_putCache (hx : h.caches.get? k = some x) (c : Cache (Ref .value)) (j : Ref .cache)
    (v : Ref .value) :
    (h.putCache (some k) c).mapped j v = if j = k then c.mapping.get? v else h.mapped j v := by
  rw [mapped, putCache, Arena.get?_modify]
  split
  next hj => rw [hj, hx, Option.map_some, Option.bind_some]
  next => rfl

/-! ## Calls of a cache that is idle -/

/-- A cache that is there and a value that is not null are the operands of a call. -/
theorem operands_of_get? (hx : h.caches.get? k = some x) (v : Ref .value) :
    h.operands (some k) (some v) = .ok (x.cache, v) := by
  simp [operands, cache?, hx]

/-- A look-up answers with the handle of the value, or with zero if it has none, and leaves the
host alone. -/
theorem cacheLookup_of_idle (hx : h.caches.get? k = some x) (hidle : x.cache.isDispatching = false)
    (v : Ref .value) :
    h.cacheLookup (some k) (some v) true = .ok true ((h.mapped k v).getD noHandle) := by
  rw [mapped_of_get? hx]
  simp only [cacheLookup, operands_of_get? hx v, bind, Except.bind, Cache.lookup_of_idle hidle,
    Bool.not_true, Bool.false_eq_true, if_false]
  rfl

/-- An insertion of a value without a handle adds one entry to the mapping. -/
theorem cacheInsert_of_absent (hx : h.caches.get? k = some x)
    (hidle : x.cache.isDispatching = false) (hv : x.cache.mapping.get? v = none)
    {handle : ExternalHandle} (hhandle : handle ≠ noHandle) :
    h.cacheInsert (some k) (some v) handle =
      (.ok (), h.putCache (some k)
        { x.cache with mapping := x.cache.mapping.insertNew v handle }) := by
  simp only [cacheInsert, operands_of_get? hx v, bind, Except.bind, hhandle, if_false,
    Cache.insert_of_absent hidle hv]
  rfl

/-- A value that has a handle keeps it, and the caller is told which one it is. -/
theorem cacheInsert_of_mapped (hx : h.caches.get? k = some x)
    (hidle : x.cache.isDispatching = false) {existing : ExternalHandle}
    (hv : x.cache.mapping.get? v = some existing) {handle : ExternalHandle}
    (hhandle : handle ≠ noHandle) :
    h.cacheInsert (some k) (some v) handle = (.error (.cache (.alreadyMapped existing)), h) := by
  simp only [cacheInsert, operands_of_get? hx v, bind, Except.bind, hhandle, if_false,
    Cache.insert_of_mapped hidle hv]
  rfl

/-- A removal answers as a look-up does, with or without a place for it, and erases the entry if
there is one. -/
theorem cacheRemove_of_idle (hx : h.caches.get? k = some x) (hidle : x.cache.isDispatching = false)
    (v : Ref .value) (place : Bool) :
    h.cacheRemove (some k) (some v) place =
      (.ok place ((h.mapped k v).getD noHandle),
        h.putCache (some k) { x.cache with mapping := x.cache.mapping.erase v }) := by
  rw [mapped_of_get? hx]
  simp only [cacheRemove, operands_of_get? hx v, bind, Except.bind, Cache.remove_of_idle hidle]
  rfl

/-! ## Calls that are declined -/

/-- The cache is looked at before the value; each of them can be null, and a cache can be gone. -/
theorem operands_cases (h : Host) (cache : Handle .cache) (value : Handle .value) :
    (∃ e, h.operands cache value = .error e) ∨
      ∃ k x v, cache = some k ∧ value = some v ∧ h.caches.get? k = some x := by
  cases cache with
  | none => exact .inl ⟨_, rfl⟩
  | some k =>
    cases hx : h.caches.get? k with
    -- a cache that is gone is reported as one that is null
    | none => exact .inl ⟨.nullOrEmpty "cache", by simp [operands, cache?, hx]⟩
    | some x =>
      cases value with
      | none => exact .inl ⟨.nullOrEmpty "value", by simp [operands, cache?, hx]⟩
      | some v => exact .inr ⟨k, x, v, rfl, rfl, hx⟩

/-- A look-up fails, or it finds what an idle cache has for a value. -/
theorem cacheLookup_cases (h : Host) (cache : Handle .cache) (value : Handle .value)
    (place : Bool) :
    (∃ e, h.cacheLookup cache value place = .failed place noHandle e) ∨
      ∃ k x v, cache = some k ∧ value = some v ∧ place = true ∧ h.caches.get? k = some x ∧
        x.cache.isDispatching = false := by
  cases place with
  | false => exact .inl ⟨_, rfl⟩
  | true =>
    rcases operands_cases h cache value with ⟨e, he⟩ | ⟨k, x, v, rfl, rfl, hx⟩
    · exact .inl ⟨e, by simp [cacheLookup, he, bind, Except.bind]⟩
    · cases hidle : x.cache.isDispatching with
      | true =>
        -- a callback that asks its own cache is declined
        refine .inl ⟨.cache .callbackInProgress, ?_⟩
        simp only [cacheLookup, operands_of_get? hx v, bind, Except.bind,
          Cache.lookup_of_dispatching hidle]
        rfl
      | false => exact .inr ⟨k, x, v, rfl, rfl, rfl, hx, hidle⟩

/-- An insertion fails and changes nothing, or it is one of a handle other than zero, into an idle
cache that has none for the value. -/
theorem cacheInsert_cases (h : Host) (cache : Handle .cache) (value : Handle .value)
    (handle : ExternalHandle) :
    (∃ e, h.cacheInsert cache value handle = (.error e, h)) ∨
      ∃ k x v, cache = some k ∧ value = some v ∧ handle ≠ noHandle ∧ h.caches.get? k = some x ∧
        x.cache.isDispatching = false ∧ x.cache.mapping.get? v = none := by
  rcases operands_cases h cache value with ⟨e, he⟩ | ⟨k, x, v, rfl, rfl, hx⟩
  · exact .inl ⟨e, by simp [cacheInsert, he, bind, Except.bind]⟩
  · by_cases hhandle : handle = noHandle
    · -- the reserved handle is declined before the cache is asked
      refine .inl ⟨.outOfRange "handle" 0, ?_⟩
      simp [cacheInsert, operands_of_get? hx v, hhandle, bind, Except.bind, throw, throwThe,
        MonadExceptOf.throw]
    · cases hidle : x.cache.isDispatching with
      | true =>
        refine .inl ⟨.cache .callbackInProgress, ?_⟩
        simp only [cacheInsert, operands_of_get? hx v, hhandle, bind, Except.bind, if_false,
          Cache.insert_of_dispatching hidle]
        rfl
      | false =>
        cases hv : x.cache.mapping.get? v with
        | some existing =>
          exact .inl ⟨.cache (.alreadyMapped existing),
            cacheInsert_of_mapped hx hidle hv hhandle⟩
        | none => exact .inr ⟨k, x, v, rfl, rfl, hhandle, hx, hidle, hv⟩

/-- A removal fails and changes nothing, or it is one from an idle cache. -/
theorem cacheRemove_cases (h : Host) (cache : Handle .cache) (value : Handle .value)
    (place : Bool) :
    (∃ e, h.cacheRemove cache value place = (.failed place noHandle e, h)) ∨
      ∃ k x v, cache = some k ∧ value = some v ∧ h.caches.get? k = some x ∧
        x.cache.isDispatching = false := by
  rcases operands_cases h cache value with ⟨e, he⟩ | ⟨k, x, v, rfl, rfl, hx⟩
  · exact .inl ⟨e, by simp [cacheRemove, he, bind, Except.bind]⟩
  · cases hidle : x.cache.isDispatching with
    | true =>
      refine .inl ⟨.cache .callbackInProgress, ?_⟩
      simp only [cacheRemove, operands_of_get? hx v, bind, Except.bind,
        Cache.remove_of_dispatching hidle]
      rfl
    | false => exact .inr ⟨k, x, v, rfl, rfl, hx, hidle⟩

end ForeignHandles.Host
