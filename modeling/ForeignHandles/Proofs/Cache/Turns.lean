import ForeignHandles.Proofs.Cache.Queue

/-!
  Deferred notifications, one after another.

  A notification at top level starts a turn: callbacks run, raise further notifications and return,
  until the queue is empty.  `Turn` is such a notification with what its callbacks do, and
  `Completes` says that they do it to the end.

  `notifications_linearize` takes the nesting out.  The notifications of a turn, in the order in
  which they were raised, could as well have been raised one by one at top level, with callbacks
  that give the same answers and raise nothing: the same calls would be made, each with the same
  mapping, and the same cache would be left.

  The simulation is between a cache and the same cache without its queue (`bare`).  `Replay` says
  what the bare cache does: first the rest of the turn that it is in, then whole turns.  The
  induction is on the responses that are still to come (`replayable`), and inside, for the
  notifications that no callback stands between, on the queue (`replay_drain`).
-/
namespace ForeignHandles.Cache

variable {K : Type}

/-! ## Turns

Only responses that complete a turn are of interest: each is given by a callback that is running,
and after the last one the cache is idle. Both conditions can be computed, so a turn can be
checked. -/

/-- What a callback does: it raises notifications, and returns. -/
structure Response (K : Type) where
  raised : List (Event K)
  answer : Option ExternalHandle

/-- A notification at top level, with what its callbacks do, in order. -/
structure Turn (K : Type) where
  event : Event K
  responses : List (Response K)

/-- What a response is to the cache: notifications and then a return. -/
def Response.actions (r : Response K) : List (Action K) := r.raised.map .raise ++ [.resume r.answer]

/-- The same answer, and nothing raised. -/
def Response.quiet (r : Response K) : Response K := { r with raised := [] }

/-- What a turn is to the cache. -/
def Turn.actions (t : Turn K) : List (Action K) :=
  .raise t.event :: t.responses.flatMap Response.actions

variable [DecidableEq K]

/-- Each response is that of a running callback, and after the last one no callback runs. -/
def Serves : Cache K → List (Response K) → Prop
  | c, [] => c.isDispatching = false
  | c, r :: rs => c.isDispatching = true ∧ Serves (c.run r.actions) rs

/-- A turn begins and ends with the cache idle. -/
def Completes (c : Cache K) (t : Turn K) : Prop :=
  c.isDispatching = false ∧ (c.raise t.event).Serves t.responses

instance decidableServes : (c : Cache K) → (rs : List (Response K)) → Decidable (c.Serves rs)
  | c, [] => inferInstanceAs (Decidable (c.isDispatching = false))
  | c, r :: rs =>
    have := decidableServes (c.run r.actions) rs
    inferInstanceAs (Decidable (c.isDispatching = true ∧ (c.run r.actions).Serves rs))

instance (c : Cache K) (t : Turn K) : Decidable (c.Completes t) :=
  inferInstanceAs (Decidable (c.isDispatching = false ∧ (c.raise t.event).Serves t.responses))

/-- One turn after another. -/
def CompletesAll : Cache K → List (Turn K) → Prop
  | _, [] => True
  | c, t :: ts => c.Completes t ∧ CompletesAll (c.run t.actions) ts

/-- Responses that serve a cache to the end leave it idle. -/
theorem isDispatching_of_serves {c : Cache K} {rs : List (Response K)} (h : c.Serves rs) :
    (c.run (rs.flatMap Response.actions)).isDispatching = false := by
  induction rs generalizing c with
  | nil => exact h
  | cons r rs ih =>
    rw [List.flatMap_cons, run_append]
    exact ih h.2

/-- A cache that is idle takes no response. -/
theorem eq_nil_of_serves {c : Cache K} {rs : List (Response K)} (hidle : c.isDispatching = false)
    (h : c.Serves rs) : rs = [] := by
  cases rs with
  | nil => rfl
  | cons r rs =>
    have hbusy : c.isDispatching = true := h.1
    rw [hidle] at hbusy
    cases hbusy

/-! ## One response

While a callback runs, notifications do nothing but queue up. So a response is the return of the
callback, with a longer queue. -/

/-- What a callback raises is put behind the queue, -/
theorem run_raises {c : Cache K} (h : c.isDispatching = true) (events : List (Event K)) :
    c.run (events.map .raise) = { c with pending := c.pending ++ events } := by
  induction events generalizing c with
  | nil => simp
  | cons e events ih =>
    rw [List.map_cons, run_cons, act, raise_of_dispatching h, ih (by exact h)]
    simp

/-- and it makes no calls. -/
theorem calls_raises {c : Cache K} (h : c.isDispatching = true) (events : List (Event K)) :
    calls (c.history (events.map .raise)) = [] := by
  induction events generalizing c with
  | nil => rfl
  | cons e events ih =>
    rw [List.map_cons, history_cons, calls_append, act, raise_of_dispatching h, ih (by exact h)]
    simp [records, h]

/-- Going on does not depend on the queue that the cache had. -/
theorem proceed_update (c : Cache K) (pending : List (Event K))
    (next : Mapping K × Option (Stage K)) (queue : List (Event K)) :
    proceed { c with pending } next queue = c.proceed next queue := by
  rcases next with ⟨mapping, _ | stage⟩
  · exact drain_update { c with mapping } pending c.stage queue
  · rfl

/-- What a return does at once does not depend on the queue either. -/
theorem conclude_update (c : Cache K) (pending : List (Event K)) (answer : Option ExternalHandle)
    (s : Stage K) : conclude { c with pending } answer s = c.conclude answer s := by
  cases s <;> rfl

/-- What a callback raises stands behind what was in the queue when it returns. -/
theorem run_response {c : Cache K} {s : Stage K} (hs : c.stage = some s) (r : Response K) :
    c.run r.actions = c.proceed (c.conclude r.answer s) (c.pending ++ r.raised) := by
  have hbusy : c.isDispatching = true := isDispatching_eq_true_iff.2 ⟨s, hs⟩
  rw [Response.actions, run_append, run_raises hbusy, run_cons, run_nil, act,
    resume_eq_proceed (by exact hs), proceed_update, conclude_update]

/-- The only call that can come of a response is the one that the cache is left in. -/
theorem calls_response {c : Cache K} (h : c.isDispatching = true) (r : Response K) :
    calls (c.history r.actions) = (c.run r.actions).view.toList := by
  obtain ⟨s, hs⟩ := isDispatching_eq_true_iff.1 h
  rw [Response.actions, history_append, run_append, calls_append, calls_raises h, run_raises h,
    List.nil_append, history_cons, history_nil, List.append_nil, run_cons, run_nil]
  simp [records, hs, act]

/-- At top level, the only call that can come of a notification is the one that the cache is left
in. -/
theorem calls_raise {c : Cache K} (h : c.isDispatching = false) (e : Event K) :
    calls (c.records (.raise e)) = (c.raise e).view.toList := by
  simp [records, h]

/-- Unless a callback fails, a cache that is idle has worked off its queue. -/
theorem pending_eq_nil_of_serves {c : Cache K} {rs : List (Response K)}
    (hc : c.stage = none → c.pending = []) (h : c.Serves rs) :
    (c.run (rs.flatMap Response.actions)).pending = [] := by
  induction rs generalizing c with
  | nil => exact hc (isDispatching_eq_false_iff.1 h)
  | cons r rs ih =>
    obtain ⟨s, hs⟩ := isDispatching_eq_true_iff.1 h.1
    rw [List.flatMap_cons, run_append]
    refine ih ?_ h.2
    rw [run_response hs]
    exact pending_eq_nil_of_proceed

omit [DecidableEq K] in
/-- What is raised within a turn is what its responses raise. -/
theorem raised?_actions (rs : List (Response K)) :
    (rs.flatMap Response.actions).filterMap Action.raised? = rs.flatMap Response.raised := by
  induction rs with
  | nil => rfl
  | cons r rs ih =>
    have hone : r.actions.filterMap Action.raised? = r.raised := by
      simp [Response.actions, List.filterMap_map, Function.comp_def]
    rw [List.flatMap_cons, List.flatMap_cons, List.filterMap_append, hone, ih]

/-! ## The replay

What is built up is a list of turns and the record of their calls. A call that the deferred run
makes inside a turn is made by the replay at the beginning of a turn or as the next callback of
the same turn; in both cases it is the call that the cache is left in (`view`), with the mapping
that it has then. -/

/-- A replay from `c`: responses that end the turn that `c` is in, then whole turns, for the
notifications `events`.  The callbacks give the answers of `responses` and raise nothing; `seen` are
the calls, and `final` is the cache at the end. -/
structure Replay (c : Cache K) (first : List (Response K)) (turns : List (Turn K))
    (events : List (Event K)) (responses : List (Response K)) (seen : List (Call K × Mapping K))
    (final : Cache K) : Prop where
  serves : c.Serves first
  completes : (c.run (first.flatMap Response.actions)).CompletesAll turns
  events_eq : turns.map Turn.event = events
  responses_eq : first ++ turns.flatMap Turn.responses = responses.map Response.quiet
  calls_eq : calls (c.history (first.flatMap Response.actions ++ turns.flatMap Turn.actions)) = seen
  run_eq : c.run (first.flatMap Response.actions ++ turns.flatMap Turn.actions) = final

/-- Nothing is replayed by nothing. -/
theorem Replay.nil {c : Cache K} (h : c.isDispatching = false) : Replay c [] [] [] [] [] c :=
  ⟨h, trivial, rfl, rfl, rfl, rfl⟩

/-- A whole turn, in front of a replay that starts inside of it. -/
theorem Replay.turn {c after : Cache K} {e : Event K} {first : List (Response K)}
    {turns : List (Turn K)} {events : List (Event K)} {responses : List (Response K)}
    {seen : List (Call K × Mapping K)} {final : Cache K} (hidle : c.isDispatching = false)
    (hraise : c.raise e = after) (h : Replay after first turns events responses seen final) :
    Replay c [] (⟨e, first⟩ :: turns) (e :: events) responses (after.view.toList ++ seen)
      final := by
  subst hraise
  refine ⟨hidle, ⟨⟨hidle, h.serves⟩, h.completes⟩, congrArg (e :: ·) h.events_eq, h.responses_eq,
    ?_, h.run_eq⟩
  rw [← h.calls_eq, ← calls_raise hidle, ← calls_append]
  rfl

/-- One more response in front. -/
theorem Replay.answer {c after : Cache K} {r : Response K} {first : List (Response K)}
    {turns : List (Turn K)} {events : List (Event K)} {responses : List (Response K)}
    {seen : List (Call K × Mapping K)} {final : Cache K} (hbusy : c.isDispatching = true)
    (hrun : c.run r.quiet.actions = after)
    (h : Replay after first turns events responses seen final) :
    Replay c (r.quiet :: first) turns events (r :: responses) (after.view.toList ++ seen)
      final := by
  subst hrun
  refine ⟨⟨hbusy, h.serves⟩, ?_, h.events_eq, congrArg (r.quiet :: ·) h.responses_eq, ?_, ?_⟩
  · rw [List.flatMap_cons, run_append]
    exact h.completes
  · rw [List.flatMap_cons, List.append_assoc, history_append, calls_append, calls_response hbusy,
      h.calls_eq]
  · rw [List.flatMap_cons, List.append_assoc, run_append]
    exact h.run_eq

/-- The cache without its queue. -/
def bare (c : Cache K) : Cache K := { c with pending := [] }

/-- The bare cache can replay what the cache does with `rs`: first the turn that it is in, then one
turn for each notification in the queue or still to be raised. -/
def Replayable (c : Cache K) (rs : List (Response K)) : Prop :=
  ∃ first turns, Replay c.bare first turns (c.pending ++ rs.flatMap Response.raised) rs
    (calls (c.history (rs.flatMap Response.actions))) (c.run (rs.flatMap Response.actions))

/-- Draining, each notification that needs no callback is a turn of its own, and the one that needs
one is the turn that goes on from there. -/
theorem replay_drain {rs : List (Response K)}
    (hrs : ∀ d : Cache K, d.isDispatching = true → d.Serves rs → Replayable d rs)
    (c : Cache K) (queue : List (Event K)) (h : (c.drain queue).Serves rs) :
    ∃ turns, Replay { c with pending := [], stage := none } [] turns
      (queue ++ rs.flatMap Response.raised) rs
      ((c.drain queue).view.toList ++
        calls ((c.drain queue).history (rs.flatMap Response.actions)))
      ((c.drain queue).run (rs.flatMap Response.actions)) := by
  induction queue generalizing c with
  | nil =>
    obtain rfl : rs = [] := eq_nil_of_serves rfl h
    exact ⟨[], Replay.nil rfl⟩
  | cons e queue ih =>
    rw [drain_cons] at h ⊢
    have hraise : raise { c with pending := [], stage := none } e = c.proceed (c.apply e) [] := by
      rw [raise_eq_drain rfl, drain_update]
      exact drain_cons c e []
    rcases hnext : c.apply e with ⟨mapping, _ | s⟩
    · -- no callback: the turn of `e` ends where it begins
      rw [hnext] at h hraise
      obtain ⟨turns, hturns⟩ := ih { c with mapping } h
      have hturn := Replay.turn rfl hraise hturns
      exact ⟨⟨e, []⟩ :: turns, hturn⟩
    · -- the turn of `e` is in its first callback, and `hrs` knows how it goes on
      rw [hnext] at h hraise
      obtain ⟨first, turns, hturns⟩ := hrs _ rfl h
      have hturn := Replay.turn rfl hraise hturns
      exact ⟨⟨e, first⟩ :: turns, hturn⟩

/-- Whatever a running callback and those after it do to the end of the turn can be replayed. -/
theorem replayable {c : Cache K} {rs : List (Response K)} (hbusy : c.isDispatching = true)
    (h : c.Serves rs) : Replayable c rs := by
  induction rs generalizing c with
  | nil =>
    have hidle : c.isDispatching = false := h
    rw [hbusy] at hidle
    cases hidle
  | cons r rs ih =>
    obtain ⟨s, hs⟩ := isDispatching_eq_true_iff.1 hbusy
    -- the quiet response leads the bare cache to the same stage, with an empty queue
    have hquiet : c.bare.run r.quiet.actions = c.proceed (c.conclude r.answer s) [] := by
      rw [run_response (by exact hs)]
      show proceed { c with pending := [] } (conclude { c with pending := [] } r.answer s) [] = _
      rw [proceed_update, conclude_update]
    have hbare : c.bare.isDispatching = true := hbusy
    have hrun := run_response hs r
    have hserves : (c.run r.actions).Serves rs := h.2
    unfold Replayable
    rw [List.flatMap_cons, List.flatMap_cons, history_append, calls_append, run_append,
      calls_response hbusy, ← List.append_assoc]
    rw [hrun] at hserves ⊢
    -- does the notification that the callback was for need another one?
    rcases hnext : c.conclude r.answer s with ⟨mapping, _ | t⟩
    · -- the turn is over; what waits in the queue comes as turns of its own
      rw [hnext] at hserves hquiet
      obtain ⟨turns, hturns⟩ := replay_drain (fun _ => ih) { c with mapping } _ hserves
      have hanswer := Replay.answer hbare hquiet hturns
      exact ⟨[r.quiet], turns, hanswer⟩
    · rw [hnext] at hserves hquiet
      obtain ⟨first, turns, hturns⟩ := ih rfl hserves
      have hanswer := Replay.answer hbare hquiet hturns
      exact ⟨r.quiet :: first, turns, hanswer⟩

/-! ## One after another

The replay starts from a cache whose queue is empty, so the cache and the bare cache are the
same. -/

/-- A notification at top level starts its turn from an empty queue, like any other notification
that was waiting. -/
theorem replay_turn {c : Cache K} (hempty : c.pending = []) {t : Turn K} (h : c.Completes t) :
    ∃ turns, Replay c [] turns (t.event :: t.responses.flatMap Response.raised) t.responses
      (calls (c.history t.actions)) (c.run t.actions) := by
  have hidle : c.isDispatching = false := h.1
  have hbare : { c with pending := [], stage := none } = c := by
    rw [← hempty, ← isDispatching_eq_false_iff.1 hidle]
  have hdrain : c.raise t.event = c.drain [t.event] := by rw [raise_eq_drain hidle, hempty]; rfl
  have hserves : (c.drain [t.event]).Serves t.responses := hdrain ▸ h.2
  obtain ⟨turns, hturns⟩ := replay_drain (fun _ => replayable) c [t.event] hserves
  rw [hbare, ← hdrain, ← calls_raise hidle, ← calls_append] at hturns
  exact ⟨turns, hturns⟩

/-- **Deferred notifications linearize.**  A notification comes to a cache that is idle with an
empty queue, its callbacks raise whatever they raise, and the turn ends.  Then the notifications
were taken off the queue in the order in which they were raised.  They can as well be raised one
after another at top level, each when the turn before is over, with callbacks that return the same
handles and raise nothing: the calls are the same, each with the same mapping, and the cache at the
end is the same, idle and with an empty queue.  At every moment of a run, what a running callback
can see is the last call on record, with the mapping recorded there. -/
theorem notifications_linearize {c : Cache K} (hempty : c.pending = []) {t : Turn K}
    (h : c.Completes t) :
    let events := t.event :: t.responses.flatMap Response.raised
    raised (c.history t.actions) = events ∧ taken (c.history t.actions) = events ∧
    (c.run t.actions).isDispatching = false ∧ (c.run t.actions).pending = [] ∧
    (∀ actions v, (c.run actions).view = some v →
      (calls (c.history actions)).getLast? = some v) ∧
    ∃ turns : List (Turn K),
      turns.map Turn.event = events ∧
      turns.flatMap Turn.responses = t.responses.map Response.quiet ∧
      c.CompletesAll turns ∧
      calls (c.history (turns.flatMap Turn.actions)) = calls (c.history t.actions) ∧
      c.run (turns.flatMap Turn.actions) = c.run t.actions := by
  intro events
  have hidle : c.isDispatching = false := h.1
  have hend : (c.run t.actions).isDispatching = false := isDispatching_of_serves h.2
  have hraised : raised (c.history t.actions) = events := by
    rw [raised_history, Turn.actions, filterMap_cons_toList, raised?_actions]
    rfl
  -- no callback fails, so an idle cache has nothing left in its queue
  have hdone : (c.run t.actions).pending = [] := by
    have hraise : c.raise t.event = c.drain (c.pending ++ [t.event]) := raise_eq_drain hidle t.event
    refine pending_eq_nil_of_serves (c := c.raise t.event) (fun hstage => ?_) h.2
    rw [hraise] at hstage ⊢
    exact pending_eq_nil_of_drain hstage
  have htaken : taken (c.history t.actions) = events := by
    have hqueue := c.taken_append_pending t.actions
    rw [hdone, hempty, List.append_nil, List.nil_append] at hqueue
    rw [hqueue, hraised]
  obtain ⟨turns, hturns⟩ := replay_turn hempty h
  exact ⟨hraised, htaken, hend, hdone, fun actions => (sees_run hidle actions).1, turns,
    hturns.events_eq, hturns.responses_eq, hturns.completes, hturns.calls_eq, hturns.run_eq⟩

/-- The consumer is asked for the handle of `2`, and raises notifications about it and about a third
key; told of the orphan that this leaves, it raises another one. -/
theorem replacement_linearized :
    let c : Cache Int64 := (fresh true true).run [.insert 1 10, .insert 2 20]
    let t : Turn Int64 := ⟨.replaced 1 2, [⟨[.replaced 2 3, .deleted 3], some 30⟩,
      ⟨[.deleted 1], none⟩, ⟨[], none⟩, ⟨[], none⟩]⟩
    c.pending = [] ∧ c.Completes t ∧
    ∃ turns : List (Turn Int64),
      turns.map Turn.event = [.replaced 1 2, .replaced 2 3, .deleted 3, .deleted 1] ∧
      c.CompletesAll turns ∧
      calls (c.history (turns.flatMap Turn.actions)) = calls (c.history t.actions) ∧
      c.run (turns.flatMap Turn.actions) = c.run t.actions := by
  intro c t
  have hempty : c.pending = [] := by decide
  have hcompletes : c.Completes t := by decide
  obtain ⟨-, -, -, -, -, turns, hevents, -, hall, hcalls, hrun⟩ :=
    notifications_linearize hempty hcompletes
  exact ⟨hempty, hcompletes, turns, hevents, hall, hcalls, hrun⟩

end ForeignHandles.Cache
