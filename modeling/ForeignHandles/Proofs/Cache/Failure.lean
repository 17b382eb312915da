import Mathlib.Data.List.Induction
import ForeignHandles.Proofs.Cache.Persistence
import ForeignHandles.Proofs.Cache.Program
import ForeignHandles.Proofs.Cache.Queue

/-!
  Callbacks that fail.

  A callback can fail at three points: when the consumer is told of a deletion, when it is asked for
  a replacement, and when it is told of an orphan.  `Aftermath` says what each leaves of the
  mapping.  `failures_lose_nothing` puts this together with the order of the queue: a failure uses
  up the notification that it happened in, in this way, and nothing else.

  What is left in the queue by a failure stays there while callers go on.  So an idle cache is not
  always a settled one: `failure_leaves_queue` is a run in which a caller's mapping is dropped by
  a notification older than the mapping.  `settled_or_interrupted` says that there is no other way.
  A caller that is not declined meets an empty queue, unless the last that the cache heard of the
  host was cut short by a failure.
-/
namespace ForeignHandles.Cache

variable {K : Type} [DecidableEq K]

/-! ## What a failure leaves of the mapping

The mapping is compared with the one that the notification found, not with the one at the time of
the failure: an orphan is told of only after its key has gone, so the two may differ. -/

/-- What is left of the mapping `before`, which a notification found, when the callback that it came
to fails: of a deletion, everything; of a replacement, everything; of the call for an orphan,
everything but the old key. -/
def Aftermath (before after : Mapping K) : Event K → Call K → Prop
  | .deleted key, .deleted key' handle =>
    key' = key ∧ before.get? key = some handle ∧ after.get? key = some handle ∧
      ∀ j, after.get? j = before.get? j
  | .replaced old new, .replaced old' handle new' =>
    old' = old ∧ new' = new ∧ before.get? old = some handle ∧ ∀ j, after.get? j = before.get? j
  | .replaced old new, .deleted old' handle =>
    old' = old ∧ after.get? old = none ∧
      (∃ existing, existing ≠ handle ∧ before.get? new = some existing ∧
        after.get? new = some existing) ∧
      ∀ j, j ≠ old → after.get? j = before.get? j
  | .deleted _, .replaced _ _ _ => False

/-- A failing callback has changed nothing itself, so what it leaves is what the notification had
done before it was called. -/
theorem aftermath_of_underway {e : Event K} {before after : Mapping K} {s : Stage K}
    (h : Underway e before s after) : Aftermath before after e s.call := by
  cases h with
  | deleting hkey => exact ⟨rfl, hkey, hkey, fun _ => rfl⟩
  | replacing hne hkey => exact ⟨rfl, rfl, hkey, fun _ => rfl⟩
  | @orphaning old new _ handle existing hne hkey hother =>
    -- the old key has gone before the call for the orphan, and no other
    have hkept : ∀ j, j ≠ old → (before.erase old).get? j = before.get? j := by
      intro j hj
      rw [Mapping.get?_erase, if_neg hj]
    refine ⟨rfl, ?_, ⟨existing, hother, hkey, ?_⟩, hkept⟩
    · rw [Mapping.get?_erase, if_pos rfl]
    · rw [hkept new hne.symm, hkey]

/-- **Failures lose nothing.**  After every run, in which any callback may have failed: the cache is
idle exactly if all calls are over; the notifications taken off the queue and those still in it are
those that were raised, in order, and the next one at top level starts with the oldest of these; and
if the callback that is running fails now, the notification that was taken off last is used up, with
its aftermath, and the queue waits. -/
theorem failures_lose_nothing (onDeleted onReplaced : Bool) (actions : List (Action K)) :
    let start : Cache K := fresh onDeleted onReplaced
    let history := start.history actions
    let c := start.run actions
    (c.isDispatching = false ↔ (calls history).map (·.1) = ended history) ∧
    taken history ++ c.pending = raised history ∧
    (c.isDispatching = false → ∀ e, taken (c.records (.raise e)) ≠ [] ∧
      taken (c.records (.raise e)) ++ (c.act (.raise e)).pending = c.pending ++ [e]) ∧
    ∀ call, c.call? = some call →
      (c.act .abandon).isDispatching = false ∧ (c.act .abandon).pending = c.pending ∧
      ∃ e before, (takings history).getLast? = some (e, before) ∧
        Aftermath before (c.act .abandon).mapping e call := by
  intro start history c
  have hstart : start.isDispatching = false := rfl
  refine ⟨?_, start.taken_append_pending actions, fun hidle e => ⟨?_, ?_⟩, fun call hcall => ?_⟩
  · -- a call that is not over is the one that is running
    have hends : (calls history).map (·.1) = ended history ++ c.call?.toList :=
      (sees_run hstart actions).2
    rw [hends, isDispatching_eq_false_iff]
    cases hs : c.stage <;> simp [call?, hs]
  · have hrecords : c.records (.raise e) =
        .raised e :: (c.drainRecords (c.pending ++ [e]) ++ (c.raise e).opening) := by
      simp [records, hidle]
    -- at top level the queue is worked off, starting with what has waited longest
    have hsome : taken (c.drainRecords (c.pending ++ [e])) ≠ [] :=
      c.taken_drainRecords_ne_nil (by simp)
    rw [hrecords]
    simpa [taken] using hsome
  · have hraised := raised_of_step (c.step_act (.raise e))
    rw [taken_append_pending_of_step (c.step_act (.raise e)), hraised]
    rfl
  · obtain ⟨s, hs, rfl⟩ := Option.map_eq_some_iff.1 hcall
    -- the callback that is running is about the notification taken off last
    obtain ⟨e, before, hlast, hunder⟩ := tracks_run hstart actions s hs
    exact ⟨rfl, rfl, e, before, hlast, aftermath_of_underway hunder⟩

/-- The consumer is told that its new handle for `2` is an orphan, and fails.  A deletion that it
raised before waits in the queue. -/
theorem orphan_failure_loses_nothing :
    let actions : List (Action Int64) := [.insert 1 10, .insert 2 20, .raise (.replaced 1 2),
      .raise (.deleted 2), .resume (some 30)]
    let start : Cache Int64 := fresh true true
    let c := start.run actions
    c.call? = some (.deleted 1 30) ∧ (c.act .abandon).isDispatching = false ∧
    c.pending = [.deleted 2] ∧ (c.act .abandon).pending = c.pending ∧
    ∃ e before, (takings (start.history actions)).getLast? = some (e, before) ∧
      Aftermath before (c.act .abandon).mapping e (.deleted 1 30) := by
  intro actions start c
  have hcall : c.call? = some (.deleted 1 30) := by decide
  obtain ⟨-, -, -, hfailure⟩ := failures_lose_nothing true true actions
  obtain ⟨hidle, hqueue, hafter⟩ := hfailure _ hcall
  exact ⟨hcall, hidle, by decide, hqueue, hafter⟩

/-! ## When the queue of an idle cache is empty

Raising a notification works the whole queue off, as far as callbacks do not come up. So whoever
finds the cache idle with notifications waiting knows that a callback has failed, and that the
host has raised nothing since. -/

/-- An operation of a caller. -/
inductive Request (K : Type) where
  | lookup (key : K)
  | insert (key : K) (handle : ExternalHandle)
  | remove (key : K)
  | getOrInsert (key : K) (create : Program K ExternalHandle)

/-- Whether a cache declines an operation because a callback is running. -/
def Request.Declined (c : Cache K) : Request K → Prop
  | .lookup key => c.lookup key = .error .callbackInProgress
  | .insert key handle => c.insert key handle = .error .callbackInProgress
  | .remove key => c.remove key = .error .callbackInProgress
  | .getOrInsert key create =>
    (execute (stateCell.getOrInsert key create) c).1 = some (.error .callbackInProgress)

/-- While a callback is running, every operation is declined, -/
theorem declined_of_dispatching {c : Cache K} (h : c.isDispatching = true) (request : Request K) :
    request.Declined c := by
  have hlookup : ∀ key, c.lookup key = .error .callbackInProgress := by
    intro key
    simp [lookup, ensureIdle, h, bind, Except.bind]
  cases request with
  | lookup key => exact hlookup key
  | insert key handle => exact insert_of_dispatching h key handle
  | remove key => exact remove_of_dispatching h key
  | getOrInsert key create =>
    show (execute (stateCell.getOrInsert key create) c).1 = _
    rw [execute_getOrInsert, hlookup]

/-- and at no other time. -/
theorem not_declined_of_idle {c : Cache K} (h : c.isDispatching = false) (key : K)
    (handle : ExternalHandle) : ¬ (Request.insert key handle).Declined c := by
  intro hdeclined
  have herr : c.insert key handle = .error .callbackInProgress := hdeclined
  cases hkey : c.mapping.get? key with
  -- an idle cache inserts or finds the key taken, and neither is the error in question
  | none =>
    rw [insert_of_absent h hkey] at herr
    cases herr
  | some existing =>
    rw [insert_of_mapped h hkey] at herr
    cases herr

/-- The last that a cache has heard of the host was cut short: a callback failed, and no
notification was raised since.  The queue is the one that the failure left. -/
def Interrupted (c : Cache K) (actions : List (Action K)) : Prop :=
  ∃ before after, actions = before ++ .abandon :: after ∧
    (c.run before).isDispatching = true ∧ (∀ e, .raise e ∉ after) ∧
    (c.run actions).pending = (c.run before).pending

/-- Raising and answering settle an idle cache, failing leaves it idle with what is in the queue,
and everything else leaves the queue and the stage alone. -/
theorem queue_of_step {c c' : Cache K} {a : Action K} {rs : List (Record K)} (h : Step c a c' rs)
    (hidle : c'.isDispatching = false) :
    c'.pending = [] ∨ (a = .abandon ∧ c.isDispatching = true ∧ c'.pending = c.pending) ∨
      ((∀ e, a ≠ .raise e) ∧ c.isDispatching = false ∧ c'.pending = c.pending) := by
  rw [isDispatching_eq_false_iff] at hidle
  cases h with
  | defer e h =>
    rw [isDispatching_eq_true_iff] at h
    obtain ⟨s, hs⟩ := h
    rw [hs] at hidle
    cases hidle
  | dispatch e h => exact .inl (pending_eq_nil_of_drain hidle)
  | resume answer hs => exact .inl (pending_eq_nil_of_proceed hidle)
  | abandon hs => exact .inr (.inl ⟨rfl, isDispatching_eq_true_iff.2 ⟨_, hs⟩, rfl⟩)
  | store ha h => exact .inr (.inr ⟨by rcases ha with rfl | rfl <;> simp, h, rfl⟩)
  | erase h => exact .inr (.inr ⟨by simp, h, rfl⟩)
  | none ha => exact .inr (.inr ⟨ha, isDispatching_eq_false_iff.2 hidle, rfl⟩)

/-- Induction over the run from its end: what came last tells why the queue is as it is. -/
theorem pending_eq_nil_or_interrupted {c : Cache K} (hc : c.pending = [])
    (actions : List (Action K)) (hidle : (c.run actions).isDispatching = false) :
    (c.run actions).pending = [] ∨ Interrupted c actions := by
  induction actions using List.reverseRecOn with
  | nil => exact .inl hc
  | append_singleton actions a ih =>
    have hlast : c.run (actions ++ [a]) = (c.run actions).act a := run_append c actions [a]
    rw [hlast] at hidle
    rcases queue_of_step ((c.run actions).step_act a) hidle with
      hempty | ⟨rfl, hbusy, hsame⟩ | ⟨hquiet, hbefore, hsame⟩
    · exact .inl (hlast ▸ hempty)
    · -- the failure is the last action of all
      exact .inr ⟨actions, [], rfl, hbusy, by simp, hlast ▸ hsame⟩
    · -- the queue is the one of before, and so is the reason for it
      rcases ih hbefore with hempty | ⟨before, after, hsplit, hbusy, hnone, hpending⟩
      · exact .inl (hlast ▸ hsame.trans hempty)
      · refine .inr ⟨before, after ++ [a], by simp [hsplit], hbusy, fun e he => ?_, ?_⟩
        · rcases List.mem_append.1 he with he | he
          · exact hnone e he
          · exact hquiet e (List.mem_singleton.1 he).symm
        · rw [hlast, hsame, hpending]

/-- What a caller meets who is not declined: an empty queue, so every notification raised before has
been taken off, and a mapping inserted now stays until a later notification is about it or a caller
removes it. -/
def Settled (start : Cache K) (actions : List (Action K)) : Prop :=
  (start.run actions).pending = [] ∧
  taken (start.history actions) = raised (start.history actions) ∧
  ∀ key handle inserted, (start.run actions).insert key handle = .ok inserted →
    ∀ later, (∀ e, .raise e ∈ later → e.subject ≠ key) → .remove key ∉ later →
      (inserted.run later).mapping.get? key = some handle

/-- An idle cache with an empty queue is settled: nothing that waits could drop what is inserted
now. -/
theorem settled_of_pending_eq_nil {start : Cache K} (hstart : start.pending = [])
    {actions : List (Action K)} (hidle : (start.run actions).isDispatching = false)
    (hempty : (start.run actions).pending = []) : Settled start actions := by
  refine ⟨hempty, ?_, fun key handle inserted hinserted later hraise hremove => ?_⟩
  -- nothing waits, so what was raised has been taken off
  · have hqueue := start.taken_append_pending actions
    rw [hempty, hstart, List.append_nil] at hqueue
    exact hqueue
  · cases hkey : (start.run actions).mapping.get? key with
    | some existing =>
      rw [insert_of_mapped hidle hkey] at hinserted
      cases hinserted
    | none =>
      -- nothing waits, so nothing that waits is about the key
      rw [insert_of_absent hidle hkey] at hinserted
      cases hinserted
      refine get?_run ⟨⟨?_, fun s hs => ?_⟩, ?_⟩ hraise hremove
      · show ((start.run actions).mapping.insertNew key handle).get? key = some handle
        rw [Mapping.get?_insertNew, if_pos rfl, hkey, Option.getD_none]
      · rw [isDispatching_eq_false_iff] at hidle
        rw [hidle] at hs
        cases hs
      · show ∀ e ∈ (start.run actions).pending, e.subject ≠ key
        rw [hempty]
        simp

/-- **Callers meet a settled cache.**  After every run, failing callbacks included, a caller whose
operation is not declined meets an empty queue, with all that this entails, unless the last that the
cache heard of the host was cut short by a failure.

In the second case there is something in the queue.  It is not lost, but what the caller asks for does
not work it off: it waits for the next notification of the host.  Operations that are declined are
left out, because they tell the caller nothing of the cache. -/
theorem settled_or_interrupted (onDeleted onReplaced : Bool) (actions : List (Action K))
    (request : Request K)
    (h : ¬ request.Declined ((fresh onDeleted onReplaced).run actions)) :
    Settled (fresh onDeleted onReplaced) actions ∨
      (((fresh onDeleted onReplaced).run actions).pending ≠ [] ∧
        Interrupted (fresh onDeleted onReplaced) actions) := by
  have hidle : ((fresh onDeleted onReplaced).run actions).isDispatching = false := by
    -- had a callback been running, the caller would have been declined
    rw [← Bool.not_eq_true]
    exact fun hbusy => h (declined_of_dispatching hbusy request)
  by_cases hempty : ((fresh onDeleted onReplaced).run actions).pending = []
  · exact .inl (settled_of_pending_eq_nil rfl hidle hempty)
  · exact .inr ⟨hempty, (pending_eq_nil_or_interrupted rfl actions hidle).resolve_left hempty⟩

/-- The callback for `1` raises the deletion of `2` and fails.  The next notification works this
off, and callers meet a settled cache again. -/
theorem settled_after_recovery :
    let start : Cache Int64 := fresh true true
    let actions : List (Action Int64) :=
      [.insert 1 10, .raise (.deleted 1), .raise (.deleted 2), .abandon, .raise (.deleted 3)]
    ¬ (Request.insert 2 20).Declined (start.run actions) ∧
      (Settled start actions ∨
        ((start.run actions).pending ≠ [] ∧ Interrupted start actions)) := by
  intro start actions
  have hfree := not_declined_of_idle (c := start.run actions) (by decide) 2 20
  exact ⟨hfree, settled_or_interrupted true true actions (.insert 2 20) hfree⟩

/-- A callback that is told of the deletion of `1` raises that of `2` and fails.  A caller then maps
`2` and is not declined, and the next notification, about `3`, makes the old one drop the mapping.
-/
theorem failure_leaves_queue :
    let actions : List (Action Int64) :=
      [.insert 1 10, .raise (.deleted 1), .raise (.deleted 2), .abandon]
    let start : Cache Int64 := fresh true false
    let c := start.run actions
    ¬ (Request.insert 2 20).Declined c ∧ c.pending = [.deleted 2] ∧
    raised (start.history actions) = [.deleted 1, .deleted 2] ∧
    taken (start.history actions) = [.deleted 1] ∧
    ∃ inserted, c.insert 2 20 = .ok inserted ∧ inserted.mapping.get? 2 = some 20 ∧
      (inserted.run [.raise (.deleted 3), .resume none]).mapping.get? 2 = none := by
  intro actions start c
  have hidle : c.isDispatching = false := by decide
  have hinserted : c.insert 2 20 = .ok { c with mapping := c.mapping.insertNew 2 20 } :=
    insert_of_absent hidle (by decide) 20
  exact ⟨not_declined_of_idle hidle 2 20, by decide, by decide, by decide, _, hinserted,
    by decide, by decide⟩

end ForeignHandles.Cache
