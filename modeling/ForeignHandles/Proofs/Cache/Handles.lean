import ForeignHandles.Proofs.Cache.Keys

/-!
  What all handles of a cache have in common.

  A handle comes into a cache from outside: it is inserted, or a consumer gives it for a
  replacement.  From there on it is only moved.  So if all handles that come in satisfy `P`, then
  all that the cache ever has do (`Holds`).  While a callback runs, the handle that it is about
  counts as one that the cache has, since the cache may put it back under another key.

  The proof follows the ways of a handle: mappings first, then what one notification does to them,
  the return of a callback, the queue, and the operations. Only two of these bring a handle in, the
  insertion and the return from a replacement, and those have a hypothesis that the handle satisfies
  `P`. At the surface `P` says that a handle is not zero.
-/
namespace ForeignHandles

/-- The handle that a stage is about. -/
def Stage.handle {K : Type} : Stage K → ExternalHandle
  | .deleting _ handle => handle
  | .replacing _ handle _ => handle
  | .orphaning _ handle => handle

namespace Cache

variable {K : Type} [DecidableEq K] {P : ExternalHandle → Prop} {c : Cache K} {m : Mapping K}
  {handle : ExternalHandle}

/-- All handles of a mapping satisfy `P`. -/
def AllMapped (P : ExternalHandle → Prop) (m : Mapping K) : Prop :=
  ∀ key handle, m.get? key = some handle → P handle

/-- All handles of a mapping satisfy `P`, and so does the one that a callback is about. -/
structure AllHandles (P : ExternalHandle → Prop) (next : Mapping K × Option (Stage K)) : Prop where
  mapped : AllMapped P next.1
  staged : ∀ {s}, next.2 = some s → P s.handle

/-- All handles that a cache has satisfy `P`. -/
def Holds (P : ExternalHandle → Prop) (c : Cache K) : Prop := AllHandles P (c.mapping, c.stage)

/-- Erasing a key brings no handle. -/
theorem AllMapped.erase (hm : AllMapped P m) (key : K) : AllMapped P (m.erase key) := by
  intro other found hget
  rw [Mapping.get?_erase] at hget
  split at hget
  · cases hget
  · exact hm _ _ hget

/-- Inserting brings the handle that is inserted; a key that has one already keeps it. -/
theorem AllMapped.insertNew (hm : AllMapped P m) (key : K) (hhandle : P handle) :
    AllMapped P (m.insertNew key handle) := by
  intro other found hget
  rw [Mapping.get?_insertNew] at hget
  split at hget
  · cases hkey : m.get? key with
    | none =>
      obtain rfl : handle = found := by simpa [hkey] using hget
      exact hhandle
    | some existing =>
      obtain rfl : existing = found := by simpa [hkey] using hget
      exact hm _ _ hkey
  · exact hm _ _ hget

/-- Without a stage, the mapping is all there is. -/
theorem AllMapped.unstaged (hm : AllMapped P m) : AllHandles P (m, none) := ⟨hm, nofun⟩

/-! ## One notification -/

/-- A mapping that moves keeps its handle, or the handle is about to be told of. -/
theorem allHandles_rekey (hm : AllMapped P c.mapping) (old new : K) (hhandle : P handle) :
    AllHandles P (c.rekey old handle new) where
  mapped := by
    simp only [rekey]
    split
    · exact (hm.erase old).insertNew new hhandle
    · exact hm.erase old
  staged hs := by
    rw [stage_rekey hs]
    exact hhandle

/-- Applying a notification only moves handles of the mapping: to another key, into a stage, or
out. -/
theorem allHandles_apply (hm : AllMapped P c.mapping) (e : Event K) :
    AllHandles P (c.apply e) := by
  cases e with
  | deleted key =>
    simp only [apply]
    split
    · exact hm.unstaged
    next handle hkey =>
      split
      · refine ⟨hm, fun hs => ?_⟩
        cases hs
        exact hm _ _ hkey
      · exact (hm.erase key).unstaged
  | replaced old new =>
    simp only [apply]
    split
    · exact hm.unstaged
    · split
      · exact hm.unstaged
      next handle hold =>
        split
        · refine ⟨hm, fun hs => ?_⟩
          cases hs
          exact hm _ _ hold
        · exact allHandles_rekey hm old new (hm _ _ hold)

/-- The return of a callback brings in the handle that it gives for a replacement. -/
theorem allHandles_conclude {s : Stage K} (hm : AllMapped P c.mapping) (hs : P s.handle)
    {answer : Option ExternalHandle}
    (hanswer : ∀ old handle new, s = .replacing old handle new → ∀ x, answer = some x → P x) :
    AllHandles P (c.conclude answer s) := by
  cases s with
  | deleting key handle => exact (hm.erase key).unstaged
  | orphaning old handle => exact hm.unstaged
  | replacing old handle new =>
    refine allHandles_rekey hm old new ?_
    cases answer with
    | none => exact hs
    | some x => exact hanswer old handle new rfl x rfl

/-! ## The queue -/

/-- Draining a queue brings no handle. The induction is on the queue, with the mapping that the
notification in front leaves. -/
theorem holds_drain {queue : List (Event K)} (hm : AllMapped P c.mapping) :
    Holds P (c.drain queue) := by
  induction queue generalizing c with
  | nil => exact hm.unstaged
  | cons e queue ih =>
    have hnext := allHandles_apply hm e
    rw [drain_cons]
    rcases heq : c.apply e with ⟨mapping, _ | s⟩
    · rw [heq] at hnext
      exact ih hnext.mapped
    · rw [heq] at hnext
      exact hnext

/-- Neither does going on from what a callback has left. -/
theorem holds_proceed {next : Mapping K × Option (Stage K)} {queue : List (Event K)}
    (hnext : AllHandles P next) : Holds P (c.proceed next queue) := by
  rcases next with ⟨mapping, _ | s⟩
  · exact holds_drain hnext.mapped
  · exact hnext

namespace Holds

/-- Raising a notification brings no handle, whether it is queued or applied. -/
theorem raise (hc : Holds P c) (e : Event K) : Holds P (c.raise e) := by
  cases hbusy : c.isDispatching with
  | true =>
    rw [raise_of_dispatching hbusy]
    exact hc
  | false =>
    rw [raise_eq_drain hbusy]
    exact holds_drain hc.mapped

/-- The return of a callback brings the handle that it answers with, if it was asked for a
replacement. -/
theorem resume (hc : Holds P c) {answer : Option ExternalHandle}
    (hanswer : ∀ old handle new, c.stage = some (.replacing old handle new) →
      ∀ x, answer = some x → P x) : Holds P (c.resume answer) := by
  cases hs : c.stage with
  | none =>
    rw [resume_of_idle hs]
    exact hc
  | some s =>
    rw [resume_eq_proceed hs]
    refine holds_proceed (allHandles_conclude hc.mapped (hc.staged hs) ?_)
    rintro old handle new rfl
    exact hanswer old handle new hs

/-- An insertion by a caller brings its handle, -/
theorem insertNew (hc : Holds P c) (key : K) (hhandle : P handle) :
    Holds P { c with mapping := c.mapping.insertNew key handle } :=
  ⟨hc.mapped.insertNew key hhandle, hc.staged⟩

/-- and a removal none. -/
theorem erase (hc : Holds P c) (key : K) : Holds P { c with mapping := c.mapping.erase key } :=
  ⟨hc.mapped.erase key, hc.staged⟩

end Holds

/-- A new cache has no handles. -/
theorem holds_fresh (P : ExternalHandle → Prop) (onDeleted onReplaced : Bool) :
    Holds P ({ onDeleted, onReplaced } : Cache K) := by
  refine AllMapped.unstaged fun key handle hget => ?_
  simp [Mapping.get?] at hget

end Cache

end ForeignHandles
