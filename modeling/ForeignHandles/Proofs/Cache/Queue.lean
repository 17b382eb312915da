import ForeignHandles.Proofs.Cache.Step

/-!
  The queue over a run: first in, first out, and nothing lost.

  `taken_append_pending` is the whole story of the queue.  Whatever happens, failing callbacks
  included, the notifications taken off so far and those still waiting are together the
  notifications that were raised, in the order in which they were raised.

  The rest is about the notification that a running callback belongs to.  It is the one taken off
  last, and `Underway` says how far it has come: which mapping it found, which stage it is in and
  which mapping there is by now (`tracks_run`).  The callback itself is the last call on record,
  and the mapping has stood still since (`sees_run`).

  Everything is read off the record of a run. A draining writes down what it takes, and no kind of
  record but that (`filterMap_drainRecords`): so whichever other kind is asked for, there is nothing
  of it in what a draining writes, and the lemmas for raised notifications, for calls and for calls
  that have ended are all instances. Those are rewriting rules, since they are needed at every step.

  Each property has three lemmas. One is about draining and goes by induction on the queue, where
  the notification in front either needs a callback, and draining stops, or it does not, and the
  rest is drained with the mapping that it leaves. One is about a step, by the cases of `Step`. And
  one is about a run, from `run_invariant`.
-/
namespace ForeignHandles.Cache

variable {K : Type} [DecidableEq K]

/-! ## First in, first out -/

/-- Draining leaves nothing on record but what it takes off the queue. -/
theorem filterMap_drainRecords {α : Type} {f : Record K → Option α}
    (hf : ∀ e mapping, f (.taken e mapping) = none) (c : Cache K) (queue : List (Event K)) :
    (c.drainRecords queue).filterMap f = [] := by
  induction queue generalizing c with
  | nil => rfl
  | cons e queue ih =>
    rw [drainRecords_cons, List.filterMap_cons, hf]
    rcases c.apply e with ⟨mapping, _ | stage⟩
    · exact ih { c with mapping }
    · rfl

/-- The same for going on after a callback: either there is another one at once, or the queue is
drained. -/
theorem filterMap_proceedRecords {α : Type} {f : Record K → Option α}
    (hf : ∀ e mapping, f (.taken e mapping) = none) (c : Cache K)
    (next : Mapping K × Option (Stage K)) (queue : List (Event K)) :
    (c.proceedRecords next queue).filterMap f = [] := by
  rcases next with ⟨mapping, _ | stage⟩
  · exact filterMap_drainRecords hf { c with mapping } queue
  · rfl

/-- What a draining takes off and what it leaves are together the queue that it began with. The
induction is on the queue; a callback ends it with the rest untouched. -/
theorem taken_drainRecords (c : Cache K) (queue : List (Event K)) :
    taken (c.drainRecords queue) ++ (c.drain queue).pending = queue := by
  induction queue generalizing c with
  | nil => rfl
  | cons e queue ih =>
    rw [drainRecords_cons, drain_cons]
    rcases c.apply e with ⟨mapping, _ | stage⟩
    · exact congrArg (e :: ·) (ih { c with mapping })
    · rfl

/-- Going on after a callback, nothing of the queue is lost either. -/
theorem taken_proceedRecords (c : Cache K) (next : Mapping K × Option (Stage K))
    (queue : List (Event K)) :
    taken (c.proceedRecords next queue) ++ (c.proceed next queue).pending = queue := by
  rcases next with ⟨mapping, _ | stage⟩
  · exact taken_drainRecords { c with mapping } queue
  · rfl

/-- A cache that has gone on to being idle has nothing left to do. -/
theorem pending_eq_nil_of_proceed {c : Cache K} {next : Mapping K × Option (Stage K)}
    {queue : List (Event K)} (h : (c.proceed next queue).stage = none) :
    (c.proceed next queue).pending = [] := by
  rcases next with ⟨mapping, _ | stage⟩
  · exact pending_eq_nil_of_drain h
  · cases h

omit [DecidableEq K] in
/-- The beginning of a callback raises nothing, it is told of. -/
@[simp] theorem raised_opening (c : Cache K) : raised c.opening = [] := by
  unfold opening
  split <;> rfl

omit [DecidableEq K] in
/-- Nor does it take anything off the queue. -/
@[simp] theorem takings_opening (c : Cache K) : takings c.opening = [] := by
  unfold opening
  split <;> rfl

/-- A return writes down at most that a mapping met another one. -/
theorem filterMap_mergeRecords {α : Type} {f : Record K → Option α}
    (hf : ∀ key handle, f (.merged key handle) = none) (c : Cache K)
    (answer : Option ExternalHandle) (s : Stage K) :
    (c.mergeRecords answer s).filterMap f = [] := by
  unfold mergeRecords
  split
  · split
    · rw [List.filterMap_cons, hf, List.filterMap_nil]
    · rfl
  · rfl

@[simp] theorem raised_mergeRecords (c : Cache K) (answer : Option ExternalHandle)
    (s : Stage K) : raised (c.mergeRecords answer s) = [] :=
  filterMap_mergeRecords (fun _ _ => rfl) c answer s

@[simp] theorem takings_mergeRecords (c : Cache K) (answer : Option ExternalHandle)
    (s : Stage K) : takings (c.mergeRecords answer s) = [] :=
  filterMap_mergeRecords (fun _ _ => rfl) c answer s

@[simp] theorem raised_drainRecords (c : Cache K) (queue : List (Event K)) :
    raised (c.drainRecords queue) = [] := filterMap_drainRecords (fun _ _ => rfl) c queue

@[simp] theorem raised_proceedRecords (c : Cache K) (next : Mapping K × Option (Stage K))
    (queue : List (Event K)) : raised (c.proceedRecords next queue) = [] :=
  filterMap_proceedRecords (fun _ _ => rfl) c next queue

/-- A queue with something in it is not drained without taking it. -/
theorem taken_drainRecords_ne_nil (c : Cache K) {queue : List (Event K)} (h : queue ≠ []) :
    taken (c.drainRecords queue) ≠ [] := by
  cases queue with
  | nil => exact absurd rfl h
  | cons e queue =>
    rw [drainRecords_cons]
    simp [taken]

/-- The notification that an action raises. -/
@[simp] def Action.raised? : Action K → Option (Event K)
  | .raise event => some event
  | _ => none

/-- A step has on record that a notification was raised if it is the raising of one. -/
theorem raised_of_step {c c' : Cache K} {a : Action K} {rs : List (Record K)}
    (h : Step c a c' rs) : raised rs = a.raised?.toList := by
  cases h with
  | defer e => rfl
  | dispatch e => simp
  | resume => simp
  | abandon => rfl
  | store ha => rcases ha with rfl | rfl <;> rfl
  | erase => rfl
  | none ha =>
    cases a with
    | raise e => exact absurd rfl (ha e)
    | _ => rfl

/-- So the notifications that a run has on record are those that its actions raise. -/
theorem raised_history (c : Cache K) (actions : List (Action K)) :
    raised (c.history actions) = actions.filterMap Action.raised? := by
  induction actions generalizing c with
  | nil => rfl
  | cons a actions ih =>
    rw [history_cons, raised_append, raised_of_step (c.step_act a), ih, filterMap_cons_toList]

/-- What a step takes off the queue and leaves there is what it found there and what it was
told. -/
theorem taken_append_pending_of_step {c c' : Cache K} {a : Action K} {rs : List (Record K)}
    (h : Step c a c' rs) : taken rs ++ c'.pending = c.pending ++ raised rs := by
  cases h with
  | defer e => rfl
  | dispatch e =>
    -- the raised notification is at the end of the queue that is drained
    show taken (c.drainRecords (c.pending ++ [e]) ++ _) ++ _ = c.pending ++ e :: raised (_ ++ _)
    have hdrain := c.taken_drainRecords (c.pending ++ [e])
    simpa [taken] using hdrain
  | @resume answer s hs =>
    -- the queue is what it was when the callback began
    show taken (c.mergeRecords answer s ++ c.proceedRecords _ c.pending ++ _) ++ _ =
      c.pending ++ raised (_ ++ _ ++ _)
    have hproceed := c.taken_proceedRecords (c.conclude answer s) c.pending
    simpa [taken] using hproceed
  | abandon => exact (List.append_nil _).symm
  | store => exact (List.append_nil _).symm
  | erase => exact (List.append_nil _).symm
  | none => exact (List.append_nil _).symm

/-- Over a run, the notifications taken off the queue and those still in it are those that were in
it at the start and those raised since, in that order. -/
theorem taken_append_pending (c : Cache K) (actions : List (Action K)) :
    taken (c.history actions) ++ (c.run actions).pending =
      c.pending ++ raised (c.history actions) := by
  refine run_invariant (P := fun d h => taken h ++ d.pending = c.pending ++ raised h)
    (fun d h a _ d' rs hstep hd => ?_) (h := []) (by simp [taken])
  have hone := taken_append_pending_of_step hstep
  calc taken (h ++ rs) ++ d'.pending = taken h ++ (taken rs ++ d'.pending) := by simp [taken]
    _ = taken h ++ d.pending ++ raised rs := by rw [hone, List.append_assoc]
    _ = c.pending ++ raised (h ++ rs) := by rw [hd, raised_append, List.append_assoc]

/-! ## The notification that a callback belongs to -/

/-- How far a notification has come when its callback runs: the notification, the mapping that it
found, the stage it is in, and the mapping by now. -/
inductive Underway : Event K → Mapping K → Stage K → Mapping K → Prop where
  | deleting {key : K} {m : Mapping K} {handle : ExternalHandle} (h : m.get? key = some handle) :
    Underway (.deleted key) m (.deleting key handle) m
  | replacing {old new : K} {m : Mapping K} {handle : ExternalHandle} (hne : old ≠ new)
    (h : m.get? old = some handle) :
    Underway (.replaced old new) m (.replacing old handle new) m
  | orphaning {old new : K} {m : Mapping K} {handle existing : ExternalHandle} (hne : old ≠ new)
    (h : m.get? new = some existing) (hother : existing ≠ handle) :
    Underway (.replaced old new) m (.orphaning old handle) (m.erase old)

/-- A move that needs a callback has removed the old key, and found another handle at the new. -/
theorem rekey_eq_some {c : Cache K} {old new : K} {handle : ExternalHandle} {mapping : Mapping K}
    {s : Stage K} (hne : old ≠ new) (h : c.rekey old handle new = (mapping, some s)) :
    Underway (.replaced old new) c.mapping s mapping := by
  cases hnew : (c.mapping.erase old).get? new with
  | none => simp [rekey, hnew] at h
  | some existing =>
    simp only [rekey, hnew] at h
    -- the same handle under the new key is no reason for a callback, and without a consumer there
    -- is none
    by_cases hcall : existing ≠ handle ∧ c.onDeleted
    · rw [if_pos hcall] at h
      cases h
      have hfound : c.mapping.get? new = some existing := by
        rw [Mapping.get?_erase, if_neg hne.symm] at hnew
        exact hnew
      exact .orphaning hne hfound hcall.1
    · rw [if_neg hcall] at h
      cases h

/-- **Applying a notification stops for a callback only in one of three situations**, and the
stage says in which: a mapping is deleted, one is replaced, or one that moves meets another
handle. -/
theorem apply_eq_some {c : Cache K} {e : Event K} {mapping : Mapping K} {s : Stage K}
    (h : c.apply e = (mapping, some s)) : Underway e c.mapping s mapping := by
  cases e with
  | deleted key =>
    cases hkey : c.mapping.get? key with
    | none => simp [apply, hkey] at h
    | some handle =>
      cases hcall : c.onDeleted with
      | false => simp [apply, hkey, hcall] at h
      | true =>
        simp only [apply, hkey, hcall, if_true] at h
        cases h
        exact .deleting hkey
  | replaced old new =>
    by_cases hne : old = new
    · simp [apply, hne] at h
    · cases hkey : c.mapping.get? old with
      | none => simp [apply, hkey, hne] at h
      | some handle =>
        cases hcall : c.onReplaced with
        | false =>
          simp only [apply, hkey, hcall, hne, if_false, Bool.false_eq_true] at h
          exact rekey_eq_some hne h
        | true =>
          simp only [apply, hkey, hcall, hne, if_false, if_true] at h
          cases h
          exact .replacing hne hkey

/-- Only a replacement goes on to a second callback. -/
theorem conclude_eq_some {c : Cache K} {e : Event K} {before mapping : Mapping K} {s t : Stage K}
    {answer : Option ExternalHandle} (hs : Underway e before s c.mapping)
    (h : c.conclude answer s = (mapping, some t)) : Underway e before t mapping := by
  cases s with
  | deleting key handle => cases h
  | orphaning old handle => cases h
  | replacing old handle new =>
    cases hs with
    | replacing hne hkey => exact rekey_eq_some hne h

/-- The running callback belongs to the notification that was taken off the queue last. -/
def Tracks (c : Cache K) (history : List (Record K)) : Prop :=
  ∀ s, c.stage = some s → ∃ e before,
    (takings history).getLast? = some (e, before) ∧ Underway e before s c.mapping

/-- Draining ends in a callback of the last notification that it took. The record before it may be
anything. -/
theorem tracks_drain (c : Cache K) (queue : List (Event K)) (h : List (Record K)) :
    Tracks (c.drain queue) (h ++ c.drainRecords queue) := by
  induction queue generalizing c h with
  | nil =>
    intro s hs
    cases hs
  | cons e queue ih =>
    rw [drain_cons, drainRecords_cons]
    rcases he : c.apply e with ⟨mapping, _ | stage⟩
    · -- no callback for `e`: whichever there is belongs to a notification behind it
      have hrest := ih { c with mapping } (h ++ [.taken e c.mapping])
      rw [List.append_assoc] at hrest
      exact hrest
    · intro s hs
      cases hs
      refine ⟨e, c.mapping, ?_, apply_eq_some he⟩
      simp [proceedRecords, takings, Record.taken?]

/-- Going on from a callback that has returned, either the same notification has another callback
or the next ones are taken off the queue. -/
theorem tracks_proceed {c : Cache K} {s : Stage K} (hs : c.stage = some s) {h : List (Record K)}
    (hc : Tracks c h) (answer : Option ExternalHandle) :
    Tracks (c.proceed (c.conclude answer s) c.pending)
      (h ++ c.proceedRecords (c.conclude answer s) c.pending) := by
  rcases hnext : c.conclude answer s with ⟨mapping, _ | t⟩
  · exact tracks_drain { c with mapping } c.pending h
  · -- the same notification as before, in its second stage
    intro t' ht
    cases ht
    obtain ⟨e, before, hlast, hunder⟩ := hc s hs
    exact ⟨e, before, by simpa [proceedRecords] using hlast, conclude_eq_some hunder hnext⟩

/-- What is on record beside the notifications taken off the queue does not matter. -/
theorem Tracks.of_takings {c : Cache K} {h g : List (Record K)} (hc : Tracks c h)
    (heq : takings g = takings h) : Tracks c g := by
  intro s hs
  rw [heq]
  exact hc s hs

/-- A step keeps track. Failing callbacks leave no stage, and what callers do is done on an idle
cache, so only draining and going on are of interest. -/
theorem tracks_of_step {c c' : Cache K} {a : Action K} {rs h : List (Record K)}
    (hstep : Step c a c' rs) (hc : Tracks c h) : Tracks c' (h ++ rs) := by
  cases hstep with
  | defer e => exact Tracks.of_takings hc (by simp)
  | dispatch e =>
    exact (tracks_drain c (c.pending ++ [e]) h).of_takings (by simp)
  | resume answer hs => exact (tracks_proceed hs hc answer).of_takings (by simp)
  | abandon =>
    intro s hs
    cases hs
  | store ha hidle =>
    intro s hs
    rw [isDispatching_eq_false_iff] at hidle
    rw [hidle] at hs
    cases hs
  | erase hidle =>
    intro s hs
    rw [isDispatching_eq_false_iff] at hidle
    rw [hidle] at hs
    cases hs
  | none => simpa using hc

/-- In any run from an idle cache the running callback belongs to the notification that was taken
last. -/
theorem tracks_run {c : Cache K} (h : c.isDispatching = false) (actions : List (Action K)) :
    Tracks (c.run actions) (c.history actions) := by
  refine run_invariant (P := Tracks)
    (fun d g a _ d' rs hstep hd => tracks_of_step hstep hd) (h := []) ?_
  intro s hs
  rw [isDispatching_eq_false_iff.1 h] at hs
  cases hs

/-! ## The call that a callback is running for -/

/-- What a running callback can see: the call that it is for, and the mapping. -/
def view (c : Cache K) : Option (Call K × Mapping K) := c.call?.map (fun call => (call, c.mapping))

/-- The running callback is for the last call on record, and sees the mapping of that moment; all
calls but that one are over. -/
def Sees (c : Cache K) (history : List (Record K)) : Prop :=
  (∀ v, c.view = some v → (calls history).getLast? = some v) ∧
    (calls history).map (·.1) = ended history ++ c.call?.toList

omit [DecidableEq K] in
/-- A callback that begins is on record as a call, with what it sees. -/
@[simp] theorem calls_opening (c : Cache K) : calls c.opening = c.view.toList := by
  unfold opening view
  cases c.call? <;> simp

omit [DecidableEq K] in
/-- It has not ended yet. -/
@[simp] theorem ended_opening (c : Cache K) : ended c.opening = [] := by
  unfold opening
  split <;> rfl

@[simp] theorem calls_proceedRecords (c : Cache K) (next : Mapping K × Option (Stage K))
    (queue : List (Event K)) : calls (c.proceedRecords next queue) = [] :=
  filterMap_proceedRecords (fun _ _ => rfl) c next queue

/-- Going on after a callback puts no call on record and ends none; the callback that it may lead
to is recorded apart. -/
@[simp] theorem ended_proceedRecords (c : Cache K) (next : Mapping K × Option (Stage K))
    (queue : List (Event K)) : ended (c.proceedRecords next queue) = [] :=
  filterMap_proceedRecords (fun _ _ => rfl) c next queue

/-- The same of draining: what a queue leads to is recorded when the callback begins. -/
@[simp] theorem calls_drainRecords (c : Cache K) (queue : List (Event K)) :
    calls (c.drainRecords queue) = [] := filterMap_drainRecords (fun _ _ => rfl) c queue

@[simp] theorem ended_drainRecords (c : Cache K) (queue : List (Event K)) :
    ended (c.drainRecords queue) = [] := filterMap_drainRecords (fun _ _ => rfl) c queue

@[simp] theorem calls_mergeRecords (c : Cache K) (answer : Option ExternalHandle)
    (s : Stage K) : calls (c.mergeRecords answer s) = [] :=
  filterMap_mergeRecords (fun _ _ => rfl) c answer s

/-- That a handle met another one neither calls anybody nor ends a call. -/
@[simp] theorem ended_mergeRecords (c : Cache K) (answer : Option ExternalHandle)
    (s : Stage K) : ended (c.mergeRecords answer s) = [] :=
  filterMap_mergeRecords (fun _ _ => rfl) c answer s

omit [DecidableEq K] in
/-- An idle cache calls nobody, -/
theorem call?_of_idle {c : Cache K} (h : c.isDispatching = false) : c.call? = none := by
  rw [call?, isDispatching_eq_false_iff.1 h, Option.map_none]

omit [DecidableEq K] in
/-- and shows nobody anything. -/
theorem view_of_idle {c : Cache K} (h : c.isDispatching = false) : c.view = none := by
  rw [view, call?_of_idle h, Option.map_none]

omit [DecidableEq K] in
/-- A callback that begins is the last call on record. -/
theorem sees_opening {c : Cache K} {h : List (Record K)}
    (hends : (calls h).map (·.1) = ended h) : Sees c (h ++ c.opening) := by
  refine ⟨fun v hv => by simp [hv], ?_⟩
  cases hcall : c.call? <;> simp [hends, view, hcall]

omit [DecidableEq K] in
/-- Between callbacks all calls on record are over. -/
theorem sees_of_idle {c : Cache K} (hc : c.isDispatching = false) {h : List (Record K)}
    (hends : (calls h).map (·.1) = ended h) : Sees c h := by
  refine ⟨fun v hv => ?_, ?_⟩
  · rw [view_of_idle hc] at hv
    cases hv
  · rw [call?_of_idle hc, hends, Option.toList_none, List.append_nil]

/-- A step keeps the last call on record in step with the callback that runs. The record of a
return comes before that of the next call, so all but the last are over. -/
theorem sees_of_step {c c' : Cache K} {a : Action K} {rs h : List (Record K)}
    (hstep : Step c a c' rs) (hc : Sees c h) : Sees c' (h ++ rs) := by
  obtain ⟨hlast, hends⟩ := hc
  cases hstep with
  | defer e =>
    refine ⟨fun v hv => ?_, ?_⟩
    · simpa using hlast v hv
    · show (calls (h ++ [.raised e])).map (·.1) = ended (h ++ [.raised e]) ++ c.call?.toList
      simpa using hends
  | dispatch e hidle =>
    rw [call?_of_idle hidle] at hends
    -- the cache was idle, so all calls on record had ended before this one
    have hopen := sees_opening (c := c.drain (c.pending ++ [e]))
      (h := h ++ .raised e :: c.drainRecords (c.pending ++ [e])) (by simpa using hends)
    simpa using hopen
  | @resume answer s hs =>
    rw [call?, hs] at hends
    -- the call that has now returned was the only one that had not ended
    have hopen := sees_opening (c := c.proceed (c.conclude answer s) c.pending)
      (h := h ++ .returned s.call answer :: (c.mergeRecords answer s ++
        c.proceedRecords (c.conclude answer s) c.pending)) (by simpa using hends)
    simpa using hopen
  | @abandon s hs =>
    rw [call?, hs] at hends
    exact sees_of_idle rfl (by simpa using hends)
  | @store a key handle ha hidle =>
    rw [call?_of_idle hidle] at hends
    refine sees_of_idle ?_ (by simpa using hends)
    exact hidle
  | @erase key handle hidle =>
    rw [call?_of_idle hidle] at hends
    refine sees_of_idle ?_ (by simpa using hends)
    exact hidle
  | none => simpa using ⟨hlast, hends⟩

/-- In any run from an idle cache the running callback is for the last call on record. -/
theorem sees_run {c : Cache K} (h : c.isDispatching = false) (actions : List (Action K)) :
    Sees (c.run actions) (c.history actions) :=
  run_invariant (P := Sees)
    (fun _ _ _ _ _ _ hstep hd => sees_of_step hstep hd) (h := []) (sees_of_idle h rfl)

end ForeignHandles.Cache
