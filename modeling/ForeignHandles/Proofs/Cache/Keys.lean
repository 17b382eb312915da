import ForeignHandles.Proofs.Cache.Step

/-!
  Which keys a cache gains and loses.

  A cache that has nothing queued takes a notification up to its first callback at once
  (`raise_of_ready`), and it has nothing queued when that callback returns (`resume_of_ready`).
  A deletion brings no new key, and the deleted one is gone unless the consumer is being told.  A
  replacement brings no key but the new one.

  Keys are what the owner of a cache has to be careful about, since a key that is in the cache must
  name something that is there. For that it is enough to know, of each step, which keys can be new:
  those that were there, and of a replacement the new key. Handles do not matter for any of this,
  and neither does the order of the entries, so the mapping is only asked whether it maps a key
  (`Maps`).

  A stage remembers on account of which notification it was entered (`Stage.IsOf`). That is needed
  because between the call of a consumer and its return the notification itself is gone; what the
  return does to the keys is again what that notification may do.
-/
namespace ForeignHandles

/-- Whether a cache enters a stage on account of a notification. -/
def Stage.IsOf {K : Type} : Event K → Stage K → Prop
  | .deleted key, .deleting key' _ => key' = key
  | .replaced _ new, .replacing _ _ new' => new' = new
  | .replaced _ _, .orphaning _ _ => True
  | _, _ => False

namespace Cache

variable {K : Type} [DecidableEq K]

/-- Whether a key has a handle. -/
def Maps (m : Mapping K) (key : K) : Prop := m.get? key ≠ none

/-- A key has a handle if it is among the keys. -/
theorem maps_iff_mem_keys {m : Mapping K} {key : K} : Maps m key ↔ key ∈ m.keys := by
  rw [Maps, ne_eq, m.get?_eq_none_iff, Decidable.not_not]

/-- Erasing a key removes that key and no other. -/
theorem maps_erase {m : Mapping K} {key other : K} :
    Maps (m.erase key) other ↔ other ≠ key ∧ Maps m other := by
  rw [Maps, Mapping.get?_erase]
  by_cases h : other = key <;> simp [h, Maps]

/-- Inserting brings the key that is inserted and no other. -/
theorem maps_insertNew {m : Mapping K} {key other : K} {handle : ExternalHandle}
    (h : Maps (m.insertNew key handle) other) : Maps m other ∨ other = key := by
  by_cases hk : other = key
  · exact .inr hk
  · rw [Maps, Mapping.get?_insertNew, if_neg hk] at h
    exact .inl h

/-! ## One notification at a time -/

/-- With nothing queued, going on means to stop in the stage that has been reached. -/
theorem proceed_nil (c : Cache K) (p : Mapping K × Option (Stage K)) :
    c.proceed p [] = { c with mapping := p.1, pending := [], stage := p.2 } := by
  rcases p with ⟨mapping, _ | stage⟩ <;> rfl

/-- A cache at rest takes a notification up to its first callback, and what is left of the queue
is nothing. -/
theorem raise_of_ready {c : Cache K} (hstage : c.stage = none) (hpending : c.pending = [])
    (e : Event K) :
    c.raise e = { c with mapping := (c.apply e).1, pending := [], stage := (c.apply e).2 } := by
  rw [raise_eq_drain (isDispatching_eq_false_iff.2 hstage), hpending, List.nil_append, drain_cons,
    proceed_nil]

/-- When the callback returns, the stage is concluded; a second callback for the same notification
may follow, but nothing else. -/
theorem resume_of_ready {c : Cache K} {s : Stage K} (hstage : c.stage = some s)
    (hpending : c.pending = []) (answer : Option ExternalHandle) :
    c.resume answer =
      { c with
        mapping := (c.conclude answer s).1
        pending := []
        stage := (c.conclude answer s).2 } := by
  rw [resume_eq_proceed hstage, hpending, proceed_nil]

/-! ## What a notification does to the keys -/

/-- A mapping that moves can only come to be under its new key. -/
theorem maps_rekey {c : Cache K} {old new other : K} {handle : ExternalHandle}
    (h : Maps (c.rekey old handle new).1 other) : Maps c.mapping other ∨ other = new := by
  simp only [rekey] at h
  split at h
  -- the new key was free: the mapping goes from the old key to it
  · rcases maps_insertNew h with hold | heq
    · exact .inl (maps_erase.1 hold).2
    · exact .inr heq
  · -- the new key has a handle already, and the old mapping goes
    exact .inl (maps_erase.1 h).2

/-- A mapping that moves leads to a callback only for a handle that is not kept. -/
theorem stage_rekey {c : Cache K} {old new : K} {handle : ExternalHandle} {s : Stage K}
    (h : (c.rekey old handle new).2 = some s) : s = .orphaning old handle := by
  simp only [rekey] at h
  split at h
  · cases h
  · simp only at h
    split at h
    · exact (Option.some.inj h).symm
    · cases h

/-- A deletion brings no key. -/
theorem maps_apply_deleted {c : Cache K} {key other : K}
    (h : Maps (c.apply (.deleted key)).1 other) : Maps c.mapping other := by
  unfold apply at h
  simp only at h
  split at h
  · exact h
  · split at h
    · exact h
    · exact (maps_erase.1 h).2

/-- A key that is deleted is gone, or the consumer is being told. -/
theorem deleting_of_maps_apply {c : Cache K} {key : K} (h : Maps (c.apply (.deleted key)).1 key) :
    ∃ handle, (c.apply (.deleted key)).2 = some (.deleting key handle) := by
  -- a key without a handle is not there to begin with; one with a handle is erased at once unless
  -- there is a callback to wait for
  cases hkey : c.mapping.get? key with
  | none =>
    simp only [apply, hkey] at h
    exact absurd hkey h
  | some handle =>
    cases hcalls : c.onDeleted with
    | true => exact ⟨handle, by simp [apply, hkey, hcalls]⟩
    | false =>
      simp only [apply, hkey, hcalls, Bool.false_eq_true, if_false] at h
      exact absurd rfl (maps_erase.1 h).1

/-- A replacement brings no key but the new one, whether or not the consumer is told. -/
theorem maps_apply_replaced {c : Cache K} {old new other : K}
    (h : Maps (c.apply (.replaced old new)).1 other) : Maps c.mapping other ∨ other = new := by
  unfold apply at h
  simp only at h
  split at h
  · exact .inl h
  · split at h
    · exact .inl h
    · split at h
      · exact .inl h
      · exact maps_rekey h

/-- The stage that is entered belongs to the notification that was applied. -/
theorem isOf_apply {c : Cache K} {e : Event K} {s : Stage K} (h : (c.apply e).2 = some s) :
    s.IsOf e := by
  cases e with
  | deleted key =>
    unfold apply at h
    simp only at h
    split at h
    · cases h
    · split at h
      · cases h
        rfl
      · cases h
  | replaced old new =>
    unfold apply at h
    simp only at h
    split at h
    · cases h
    · split at h
      · cases h
      · split at h
        · cases h
          rfl
        · rw [stage_rekey h]
          trivial

/-! ## What the return of a callback does to the keys -/

/-- When the consumer has been told of a deletion, the key is gone, and nothing has come. -/
theorem maps_conclude_deleted {c : Cache K} {key other : K} {s : Stage K}
    {answer : Option ExternalHandle} (hs : s.IsOf (.deleted key))
    (h : Maps (c.conclude answer s).1 other) : Maps c.mapping other ∧ other ≠ key := by
  cases s with
  | deleting key' handle =>
    cases hs
    obtain ⟨hne, hmaps⟩ := maps_erase.1 h
    exact ⟨hmaps, hne⟩
  | _ => cases hs

/-- When the consumer returns from a replacement, only the new key can have come. For a handle
that was not kept nothing moves any more. -/
theorem maps_conclude_replaced {c : Cache K} {old new other : K} {s : Stage K}
    {answer : Option ExternalHandle} (hs : s.IsOf (.replaced old new))
    (h : Maps (c.conclude answer s).1 other) : Maps c.mapping other ∨ other = new := by
  cases s with
  | deleting key handle => cases hs
  | replacing old' handle new' =>
    cases hs
    exact maps_rekey h
  | orphaning old' handle => exact .inl h

/-- A second callback is still on account of the same notification: it is the one that tells of a
handle that was not kept. -/
theorem isOf_conclude {c : Cache K} {e : Event K} {s s' : Stage K}
    {answer : Option ExternalHandle} (hs : s.IsOf e) (h : (c.conclude answer s).2 = some s') :
    s'.IsOf e := by
  cases s with
  | deleting key handle => cases h
  | orphaning old handle => cases h
  | replacing old handle new =>
    cases e with
    | deleted key => cases hs
    | replaced old' new' =>
      rw [stage_rekey h]
      trivial

end Cache

end ForeignHandles
