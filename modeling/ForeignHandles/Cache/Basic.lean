import ForeignHandles.Cache.Mapping
import ForeignHandles.Error

/-!
  Value caches: what a consumer keeps for each object of the host, kept honest.

  A consumer with its own object model wraps host objects and wants one wrapper for each. A cache
  maps the identity of an object to the consumer's handle for it. When the host deletes an object
  or replaces it by another, the cache is notified (`Event`) and tells the consumer by a callback
  (`Call`): the mapping of a deleted object is dropped, that of a replaced one moves to its
  replacement.

  A callback runs with the cache in a `Stage`: what has been done so far and what is left to do
  once it returns. The cache is idle exactly when it has no stage. While it is not idle the
  caller's operations are declined, and further notifications wait in `pending`; so no operation
  ever sees a mapping that is half changed. Reading for diagnostics stays possible.

  This module has the caller's operations. The notifications are in `ForeignHandles.Cache.Dispatch`.
-/
namespace ForeignHandles

/-- What the host tells a cache. -/
inductive Event (K : Type) where
  /-- The object is about to be destroyed. -/
  | deleted (key : K)
  /-- Every use of `old` now refers to `new`. -/
  | replaced (old new : K)
  deriving DecidableEq

/-- What a cache is doing while a callback of its consumer runs. -/
inductive Stage (K : Type) where
  /-- The consumer is told that `key` goes; its mapping is dropped afterwards. -/
  | deleting (key : K) (handle : ExternalHandle)
  /-- The consumer is asked for the handle of `new`; the mapping moves afterwards. -/
  | replacing (old : K) (handle : ExternalHandle) (new : K)
  /-- The mapping of `old` is gone, `new` had one already, and the consumer is told that nothing
  refers to this handle. -/
  | orphaning (old : K) (handle : ExternalHandle)
  deriving DecidableEq

/-- A call to the consumer. -/
inductive Call (K : Type) where
  | deleted (key : K) (handle : ExternalHandle)
  | replaced (old : K) (handle : ExternalHandle) (new : K)
  deriving DecidableEq

/-- The call that goes with a stage. -/
def Stage.call {K : Type} : Stage K → Call K
  | .deleting key handle => .deleted key handle
  | .replacing old handle new => .replaced old handle new
  | .orphaning old handle => .deleted old handle

/-- A cache. `onDeleted` and `onReplaced` say which callbacks its consumer has installed. -/
structure Cache (K : Type) where
  onDeleted : Bool := false
  onReplaced : Bool := false
  mapping : Mapping K := {}
  pending : List (Event K) := []
  stage : Option (Stage K) := none

namespace Cache

variable {K : Type} [DecidableEq K]

/-- Whether a callback is running. -/
def isDispatching (c : Cache K) : Bool := c.stage.isSome

/-- The call that the consumer has not returned from yet. -/
def call? (c : Cache K) : Option (Call K) := c.stage.map Stage.call

/-- The number of mappings. -/
def size (c : Cache K) : Nat := c.mapping.size

/-- Whether there is no mapping. -/
def isEmpty (c : Cache K) : Bool := c.mapping.entries.isEmpty

/-! ## The caller's operations -/

/-- Declines while a callback runs. -/
def ensureIdle (c : Cache K) : Except CacheError Unit :=
  if c.isDispatching then .error .callbackInProgress else .ok ()

/-- The handle of a key, if it has one. -/
def lookup (c : Cache K) (key : K) : Except CacheError (Option ExternalHandle) := do
  c.ensureIdle
  return c.mapping.get? key

/-- Adds a mapping. A key that has one keeps it, and the error says which. -/
def insert (c : Cache K) (key : K) (handle : ExternalHandle) : Except CacheError (Cache K) := do
  c.ensureIdle
  match c.mapping.get? key with
  | some existing => .error (.alreadyMapped existing)
  | none => return { c with mapping := c.mapping.insertNew key handle }

/-- Drops a mapping without a word to the consumer; gives the handle it had. -/
def remove (c : Cache K) (key : K) : Except CacheError (Option ExternalHandle × Cache K) := do
  c.ensureIdle
  return (c.mapping.get? key, { c with mapping := c.mapping.erase key })

/-- Adds a mapping unless the key has one by now; gives the handle that the key ends up with. -/
def settle (c : Cache K) (key : K) (handle : ExternalHandle) :
    Except CacheError (ExternalHandle × Cache K) :=
  match c.insert key handle with
  | .ok c => .ok (handle, c)
  | .error (.alreadyMapped existing) => .ok (existing, c)
  | .error e => .error e

end Cache

/-! ## Making a handle on demand -/

/-- Where a program keeps a cache. -/
structure CacheCell (m : Type → Type) (K : Type) where
  get : m (Cache K)
  set : Cache K → m PUnit

/-- What `CacheCell.getOrInsert` found out. -/
structure Fetched where
  handle : ExternalHandle
  /-- Whether a handle had to be made. -/
  created : Bool
  deriving DecidableEq

/-- The handle of a key, made by `create` if there is none. `create` is free to use the cache; if
the key has a mapping when it returns, that mapping stands and the new handle is not stored. -/
def CacheCell.getOrInsert {m : Type → Type} [Monad m] {K : Type} [DecidableEq K]
    (cell : CacheCell m K) (key : K) (create : m ExternalHandle) :
    m (Except CacheError Fetched) := do
  match (← cell.get).lookup key with
  | .error e => return .error e
  | .ok (some handle) => return .ok ⟨handle, false⟩
  | .ok none =>
    let made ← create
    match (← cell.get).settle key made with
    | .error e => return .error e
    | .ok (handle, c) =>
      cell.set c
      return .ok ⟨handle, true⟩

end ForeignHandles
