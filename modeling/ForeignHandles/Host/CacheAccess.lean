import ForeignHandles.Cache.Text
import ForeignHandles.Host
import ForeignHandles.Reply
import ForeignHandles.Text.Boundary

/-!
  How callers use a cache of values.

  Handle zero is reserved: it is what a lookup reports for a value without a mapping, and it cannot
  be inserted. Operations that report a handle write it to a place of the caller, which
  they set to zero before anything can go wrong with the cache or the value.
-/
namespace ForeignHandles

/-- The handle that stands for no mapping. -/
def noHandle : ExternalHandle := 0

namespace Host

/-- The cache behind a handle. -/
def cache? (h : Host) (cache : Handle .cache) : Option (Cache (Ref .value)) :=
  (cache.bind h.caches.get?).map (·.cache)

/-- Puts a cache back. -/
def putCache (h : Host) (cache : Handle .cache) (c : Cache (Ref .value)) : Host :=
  match cache with
  | none => h
  | some k => { h with caches := h.caches.modify k (fun x => { x with cache := c }) }

/-- The cache and the key that an operation works on. The cache is looked at first. -/
def operands (h : Host) (cache : Handle .cache) (value : Handle .value) :
    Except BoundaryError (Cache (Ref .value) × Ref .value) :=
  match h.cache? cache, value with
  | none, _ => .error (.nullOrEmpty "cache")
  | some _, none => .error (.nullOrEmpty "value")
  | some c, some v => .ok (c, v)

/-- Looks a value up; `place` says whether the caller has a place for the answer, which is
a must. -/
def cacheLookup (h : Host) (cache : Handle .cache) (value : Handle .value) (place : Bool) :
    Reply ExternalHandle :=
  if !place then .refused (.nullOutParam "handle")
  else
    let found : Except BoundaryError (Option ExternalHandle) := do
      let (c, v) ← h.operands cache value
      (c.lookup v).mapError .cache
    match found with
    | .error e => .failed place noHandle e
    | .ok handle => .ok place (handle.getD noHandle)

/-- Inserts a mapping. -/
def cacheInsert (h : Host) (cache : Handle .cache) (value : Handle .value)
    (handle : ExternalHandle) : Except BoundaryError Unit × Host :=
  let inserted : Except BoundaryError (Cache (Ref .value)) := do
    let (c, v) ← h.operands cache value
    if handle = noHandle then throw (.outOfRange "handle" 0)
    (c.insert v handle).mapError .cache
  match inserted with
  | .error e => (.error e, h)
  | .ok c => (.ok (), h.putCache cache c)

/-- Removes a mapping; the place for the handle it had may be missing. -/
def cacheRemove (h : Host) (cache : Handle .cache) (value : Handle .value) (place : Bool) :
    Reply ExternalHandle × Host :=
  let removed : Except BoundaryError (Option ExternalHandle × Cache (Ref .value)) := do
    let (c, v) ← h.operands cache value
    (c.remove v).mapError .cache
  match removed with
  | .error e => (.failed place noHandle e, h)
  | .ok (handle, c) => (.ok place (handle.getD noHandle), h.putCache cache c)

/-- Whether a cache has no mappings; a null cache has none. -/
def cacheIsEmpty (h : Host) (cache : Handle .cache) : Bool := (h.cache? cache).all (·.isEmpty)

/-- The dump of a cache as a message; none for null. -/
def cacheDump (h : Host) (spell : Ref .value → String) (cache : Handle .cache) : Option Message :=
  (h.cache? cache).map (fun c => .ofString (c.dump spell))

/-- What the debugger channel is sent for a cache; nothing for null. -/
def cacheDebugText (h : Host) (spell : Ref .value → String) (cache : Handle .cache) : String :=
  ((h.cache? cache).map (·.dump spell)).getD ""

end Host

end ForeignHandles
