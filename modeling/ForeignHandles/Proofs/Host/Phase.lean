import ForeignHandles.Proofs.Host.Step

/-!
  What a host is in the middle of.

  If nothing is announced inside an announcement, then the agenda always has one of two shapes, up
  to modules that are still to be retired.  Either some values are to be deleted, or everyone is
  being told of one notice: one listener is thinking about it, some are yet to be told, the
  value is released when all have been, and then some more values are to be deleted.  A `Phase` is
  such a shape, and `Move` is how an action takes a host from one to the next (`move_of_step`).

  The invariants of `CachedValues` and `Delivery` speak of the phase and not of the agenda.  They are
  proved once for each constructor of `Move` and carried over the run by `phase_invariant`.

  The agenda itself is a list of jobs, and an action may do something to it in many places. A phase
  says what the list means: `Phase.jobs` writes it out again, and the lemmas `Phase.of_jobs_delete`,
  `Phase.of_jobs_tell` and so on read off the phase from the first job. Everything after this module
  argues about phases only.

  The order is a condition on callers. A listener that has a value deleted while it is being told of
  something makes the announcements nest; the agenda is a stack of them then, and no phase describes
  it.
-/
namespace ForeignHandles

/-- Whether a job is to remove a module. -/
def Job.isRetire : Job → Bool
  | .retire _ => true
  | _ => false

namespace Host

/-- What a host is in the middle of. -/
inductive Phase where
  /-- Nobody is being told; these values are to be deleted. -/
  | between (later : List (Ref .value))
  /-- Everyone is being told of a notice: `current` has been told and is not done, `waiting` are yet
  to be told.  Afterwards the values `later` are to be deleted. -/
  | telling (current : Option Listener) (notice : Notice) (waiting : List Listener)
    (later : List (Ref .value))

/-- The job that waits for a listener which has been told. -/
def pause (notice : Notice) : Listener → Job
  | .observer o => .await o notice
  | .cache k => .settle k

/-- What is left to do once everyone has been told. -/
def closing : Notice → List Job
  | .deleted v => [.release soleContext v]
  | .replaced _ _ => []

/-- The jobs of a phase. -/
def Phase.jobs : Phase → List Job
  | .between later => later.map (.delete soleContext)
  | .telling current notice waiting later =>
    current.toList.map (pause notice) ++ waiting.map (.tell · notice) ++ closing notice ++
      later.map (.delete soleContext)

/-- The agenda, modules that are to be retired left out. -/
def work (h : Host) : List Job := h.agenda.filter (fun job => !job.isRetire)

/-- Whether a host is in a phase. -/
def InPhase (h : Host) (φ : Phase) : Prop := h.work = φ.jobs

/-- Whether an action announces something, at once or by the jobs that it leaves. -/
def Announces (h : Host) : Action → Prop
  | .delete v => h.store.containsValue soleContext v = true
  | .replaceAllUses old new => old ≠ new ∧ h.store.containsValue soleContext old = true
  | .disposeModule m => ∃ x, h.store.module? m = some x ∧ x.owned ≠ []
  | _ => False

/-- Whatever announces something waits until nothing is left to do. -/
def Orderly (h : Host) (a : Action) : Prop := h.Announces a → h.agenda = []

namespace Phase

/-- The listener that has been told and is not done. -/
def current? : Phase → Option Listener
  | .between _ => none
  | .telling current _ _ _ => current

/-- Nobody is being told of anything, or everyone has been told of a replacement; the values
`later` are to be deleted. -/
def Done (φ : Phase) (later : List (Ref .value)) : Prop :=
  φ = .between later ∨ ∃ old new, φ = .telling none (.replaced old new) [] later

/-! ## The first job of a phase

Every step of the host takes the first job off the agenda, so what is needed of a phase is how its
first job determines it. There is one lemma for each kind of job. -/

variable {φ : Phase} {jobs : List Job}

/-- When nothing is left to do, nobody is being told and nothing is to be deleted. -/
theorem of_jobs_eq_nil (h : φ.jobs = []) : φ.Done [] := by
  cases φ with
  | between later =>
    obtain rfl := List.map_eq_nil_iff.1 h
    exact .inl rfl
  | telling current notice waiting later =>
    simp only [Phase.jobs, List.append_eq_nil_iff, List.map_eq_nil_iff] at h
    obtain ⟨⟨⟨hcurrent, rfl⟩, hclosing⟩, rfl⟩ := h
    obtain rfl := Option.toList_eq_nil_iff.1 hcurrent
    cases notice with
    -- a value that is being deleted would still have to be released
    | deleted v => cases hclosing
    | replaced old new => exact .inr ⟨old, new, rfl⟩

/-- Whatever waits for a listener comes first. -/
theorem of_jobs_pause {notice : Notice} {l : Listener} {waiting : List Listener}
    {later : List (Ref .value)} {job : Job}
    (h : (telling (some l) notice waiting later).jobs = job :: jobs) :
    job = pause notice l ∧ jobs = (telling none notice waiting later).jobs := by
  simp only [Phase.jobs, Option.toList_some, List.map_cons, List.map_nil, List.cons_append,
    List.nil_append, List.cons.injEq] at h
  exact ⟨h.1.symm, by simpa [Phase.jobs] using h.2.symm⟩

/-- A listener is told when nobody else is thinking about the notice, -/
theorem of_jobs_tell {l : Listener} {notice : Notice} (h : φ.jobs = .tell l notice :: jobs) :
    ∃ waiting later, φ = .telling none notice (l :: waiting) later ∧
      jobs = (telling none notice waiting later).jobs := by
  cases φ with
  | between later => cases later <;> cases h
  | telling current n waiting later =>
    cases current with
    | some j => cases j <;> cases (of_jobs_pause h).1
    | none =>
      cases waiting with
      -- nobody is left to be told, so the first job is a release or a deletion
      | nil => cases n <;> cases later <;> cases h
      | cons j waiting =>
        cases h
        exact ⟨waiting, later, rfl, rfl⟩

/-- an observer answers while it is the one that has been told, -/
theorem of_jobs_await {o : Ref .observer} {notice : Notice}
    (h : φ.jobs = .await o notice :: jobs) :
    ∃ waiting later, φ = .telling (some (.observer o)) notice waiting later ∧
      jobs = (telling none notice waiting later).jobs := by
  cases φ with
  | between later => cases later <;> cases h
  | telling current n waiting later =>
    cases current with
    | some j =>
      obtain ⟨hjob, hjobs⟩ := of_jobs_pause h
      cases j with
      | observer p =>
        cases hjob
        exact ⟨waiting, later, rfl, hjobs⟩
      | cache k => cases hjob
    | none =>
      cases waiting with
      | nil => cases n <;> cases later <;> cases h
      | cons j waiting => cases h

/-- and so does a cache, whatever it is told of. -/
theorem of_jobs_settle {k : Ref .cache} (h : φ.jobs = .settle k :: jobs) :
    ∃ notice waiting later, φ = .telling (some (.cache k)) notice waiting later ∧
      jobs = (telling none notice waiting later).jobs := by
  cases φ with
  | between later => cases later <;> cases h
  | telling current n waiting later =>
    cases current with
    | some j =>
      obtain ⟨hjob, hjobs⟩ := of_jobs_pause h
      cases j with
      | observer p => cases hjob
      | cache i =>
        cases hjob
        exact ⟨n, waiting, later, rfl, hjobs⟩
    | none =>
      cases waiting with
      | nil => cases n <;> cases later <;> cases h
      | cons j waiting => cases h

/-- A value is deleted once everyone has been told of what came before, -/
theorem of_jobs_delete {c : Ref .context} {v : Ref .value} (h : φ.jobs = .delete c v :: jobs) :
    ∃ later, φ.Done (v :: later) ∧ jobs = (between later).jobs := by
  cases φ with
  | between later =>
    cases later with
    | nil => cases h
    | cons w later =>
      cases h
      exact ⟨later, .inl rfl, rfl⟩
  | telling current n waiting later =>
    cases current with
    | some j => cases j <;> cases (of_jobs_pause h).1
    | none =>
      cases waiting with
      | cons j waiting => cases h
      | nil =>
        cases n with
        | deleted w => cases h
        | replaced old new =>
          cases later with
          | nil => cases h
          | cons w later =>
            cases h
            exact ⟨later, .inr ⟨old, new, rfl⟩, rfl⟩

/-- and released once everyone has been told that it goes. -/
theorem of_jobs_release {c : Ref .context} {v : Ref .value} (h : φ.jobs = .release c v :: jobs) :
    ∃ later, φ = .telling none (.deleted v) [] later ∧ jobs = (between later).jobs := by
  cases φ with
  | between later => cases later <;> cases h
  | telling current n waiting later =>
    cases current with
    | some j => cases j <;> cases (of_jobs_pause h).1
    | none =>
      cases waiting with
      | cons j waiting => cases h
      | nil =>
        cases n with
        | deleted w =>
          cases h
          exact ⟨later, rfl, rfl⟩
        | replaced old new => cases later <;> cases h

end Phase

/-! ## From phase to phase

A move has the same cases as a step of the host, with the phase on either side. Some cases of a
step are two moves: a cache that is told may stop at a callback or not exist, and a module that is
disposed of may have globals or none. -/

/-- The listeners that are told of the next notice, in order. -/
def audience (h : Host) : List Listener := h.liveListeners soleContext

/-- One action, the host and the phase after it and what it leaves on record, if whatever announces
something waits until nothing is left to do. -/
inductive Move (h : Host) : Phase → Action → Host → Phase → List Record → Prop where
  /-- Edits, and the coming and going of listeners, leave the phase as it is. -/
  | edit {φ : Phase} {e : Edit} {users : List (User × Ref .value)} {s : Store}
    (hchange : Store.Change soleContext h.store e.addsTo? users s) :
    Move h φ (.edit e) { h with store := s } φ (users.map (fun p => .used p.1 p.2))
  | addObserver {φ : Phase} : Move h φ .addObserver (h.addObserver soleContext).2 φ
    [.registered (.observer (h.addObserver soleContext).1)]
  | dropObserver {φ : Phase} {o : Ref .observer} {x : Observer}
    (hx : h.observers.get? o = some x) (hlive : x.dropped = false) :
    Move h φ (.dropObserver o) (h.dropObserver o) φ [.dropped (.observer o)]
  | createCache {φ : Phase} (onDeleted onReplaced : Bool) :
    Move h φ (.createCache onDeleted onReplaced)
      (h.createCache (some soleContext) onDeleted onReplaced).2 φ
      [.registered (.cache ⟨h.caches.next⟩)]
  | disposeCache {φ : Phase} {k : Ref .cache} {x : BoundCache} (hx : h.caches.get? k = some x)
    (hlive : x.disposed = false) :
    Move h φ (.disposeCache (some k)) (h.disposeCache (some k)) φ [.dropped (.cache k)]
  /-- So do the calls on caches. -/
  | insert {φ : Phase} {k : Ref .cache} {x : BoundCache} {v : Ref .value}
    (handle : ExternalHandle) (hx : h.caches.get? k = some x)
    (hidle : x.cache.isDispatching = false) (hv : x.cache.mapping.get? v = none) :
    Move h φ (.cacheInsert (some k) (some v) handle)
      (h.putCache (some k) { x.cache with mapping := x.cache.mapping.insertNew v handle }) φ []
  | remove {φ : Phase} {k : Ref .cache} {x : BoundCache} (v : Ref .value) (place : Bool)
    (hx : h.caches.get? k = some x) (hidle : x.cache.isDispatching = false) :
    Move h φ (.cacheRemove (some k) (some v) place)
      (h.putCache (some k) { x.cache with mapping := x.cache.mapping.erase v }) φ []
  /-- A value begins to go: everyone will be told. -/
  | delete {φ : Phase} {a : Action} {v : Ref .value} {first later : List (Ref .value)}
    {agenda : List Job} (hdone : φ.Done first)
    (hfrom : a = .delete v ∧ first = [] ∧ later = [] ∨ a = .step ∧ first = v :: later)
    (hv : h.store.values.contains v = true) :
    Move h φ a { h with agenda } (.telling none (.deleted v) h.audience later) []
  /-- A replacement is announced when nothing is left to do. -/
  | replace {φ : Phase} {old new : Ref .value} {agenda : List Job} (hidle : h.agenda = [])
    (hdone : φ.Done []) (hne : old ≠ new) (hold : h.store.values.contains old = true) :
    Move h φ (.replaceAllUses old new)
      { h with store := h.store.rewire old (some new), agenda }
      (.telling none (.replaced old new) h.audience []) [.replaced old new]
  /-- A module begins to go, and its values with it. -/
  | dispose {φ : Phase} {m : Ref .module} {x : Module} {agenda : List Job} (hidle : h.agenda = [])
    (hdone : φ.Done []) (hm : h.store.modules.get? m = some x) :
    Move h φ (.disposeModule (some m)) { h with agenda } (.between x.owned) []
  /-- A module without globals is only to be retired. -/
  | disposeEmpty {φ : Phase} {m : Ref .module} {agenda : List Job} :
    Move h φ (.disposeModule (some m)) { h with agenda } φ []
  /-- The next listener is an observer, which is waited for. -/
  | tellObserver {o : Ref .observer} {notice : Notice} {waiting : List Listener}
    {later : List (Ref .value)} {agenda : List Job} :
    Move h (.telling none notice (.observer o :: waiting) later) .step { h with agenda }
      (.telling (some (.observer o)) notice waiting later) [.told (.observer o) notice h.store]
  /-- A cache is told. It is done with it at once if it does not call its consumer. -/
  | tellCache {k : Ref .cache} {x : BoundCache} {notice : Notice} {current : Option Listener}
    {waiting : List Listener} {later : List (Ref .value)} {agenda : List Job}
    (hx : h.caches.get? k = some x)
    (hcurrent : current =
      if !x.cache.isDispatching && (x.cache.raise notice.event).isDispatching
        then some (.cache k) else none) :
    Move h (.telling none notice (.cache k :: waiting) later) .step
      { h.putCache (some k) (x.cache.raise notice.event) with agenda }
      (.telling current notice waiting later) [.told (.cache k) notice h.store]
  /-- There is no such cache to be told. -/
  | tellNobody {k : Ref .cache} {notice : Notice} {waiting : List Listener}
    {later : List (Ref .value)} {agenda : List Job} (hx : h.caches.get? k = none) :
    Move h (.telling none notice (.cache k :: waiting) later) .step { h with agenda }
      (.telling none notice waiting later) [.told (.cache k) notice h.store]
  /-- The cache that was waited for is done with the notice. -/
  | settled {k : Ref .cache} {notice : Notice} {waiting : List Listener}
    {later : List (Ref .value)} {agenda : List Job}
    (hidle : ∀ x, h.caches.get? k = some x → x.cache.isDispatching = false) :
    Move h (.telling (some (.cache k)) notice waiting later) .step { h with agenda }
      (.telling none notice waiting later) []
  /-- A value that was to be deleted has gone meanwhile. -/
  | skip {φ : Phase} {v : Ref .value} {later : List (Ref .value)} {agenda : List Job}
    (hdone : φ.Done (v :: later)) (hv : h.store.values.get? v = none) :
    Move h φ .step { h with agenda } (.between later) []
  /-- Everyone has been told; the value goes, and its arguments are to be deleted next. -/
  | release {v : Ref .value} {x : Value} {later : List (Ref .value)} {agenda : List Job}
    (hv : h.store.values.get? v = some x) :
    Move h (.telling none (.deleted v) [] later) .step
      { h with store := h.store.release v, agenda } (.between (x.arguments ++ later)) [.released v]
  /-- The value has gone meanwhile, and nothing goes with it. -/
  | vanish {v : Ref .value} {later : List (Ref .value)} {agenda : List Job}
    (hv : h.store.values.get? v = none) :
    Move h (.telling none (.deleted v) [] later) .step
      { h with store := h.store.release v, agenda } (.between later) []
  /-- A retirement is beside the phase. -/
  | retire {φ : Phase} {m : Ref .module} {agenda : List Job} :
    Move h φ .step { h with store := h.store.retireModule m, agenda } φ []
  /-- The observer that was told answers. -/
  | heard {o : Ref .observer} {notice : Notice} {waiting : List Listener}
    {later : List (Ref .value)} {agenda : List Job} (handle : Option ExternalHandle) :
    Move h (.telling (some (.observer o)) notice waiting later) (.answer handle) { h with agenda }
      (.telling none notice waiting later) []
  /-- The consumer of the cache that was told returns. -/
  | resume {k : Ref .cache} {x : BoundCache} {s : Stage (Ref .value)} {notice : Notice}
    {waiting : List Listener} {later : List (Ref .value)} (handle : Option ExternalHandle)
    (hx : h.caches.get? k = some x) (hs : x.cache.stage = some s) :
    Move h (.telling (some (.cache k)) notice waiting later) (.answer handle)
      (h.putCache (some k) (x.cache.resume handle))
      (.telling (some (.cache k)) notice waiting later) []
  /-- Nothing happens. -/
  | none {φ : Phase} (a : Action) : Move h φ a h φ []

variable {h : Host} {φ : Phase}

/-- A job that is no retirement is the first of the phase, too. -/
theorem work_of_front {job : Job} {agenda : List Job} (hfront : h.agenda = job :: agenda)
    (hjob : job.isRetire = false) :
    h.work = job :: ({ h with agenda } : Host).work := by
  simp [work, hfront, hjob]

/-- Jobs that are put in front come first in the phase. -/
theorem work_append (h : Host) (jobs agenda : List Job)
    (hjobs : ∀ job ∈ jobs, job.isRetire = false) :
    ({ h with agenda := jobs ++ agenda } : Host).work =
      jobs ++ ({ h with agenda } : Host).work := by
  have hkeep : jobs.filter (fun job => !job.isRetire) = jobs := by
    refine List.filter_eq_self.2 fun job hjob => ?_
    rw [hjobs job hjob]
    rfl
  simp only [work, List.filter_append, hkeep]

/-- An announcement tells all listeners, in order. -/
theorem announce_eq (h : Host) (notice : Notice) :
    h.announce soleContext notice = h.audience.map (.tell · notice) := rfl

/-- None of its jobs is a retirement, -/
theorem isRetire_of_mem_announce {notice : Notice} {job : Job}
    (hjob : job ∈ h.announce soleContext notice) : job.isRetire = false := by
  obtain ⟨l, -, rfl⟩ := List.mem_map.1 hjob
  rfl

/-- nor is any of the deletions that a module or a function leaves behind. -/
theorem isRetire_of_mem_deletes {vs : List (Ref .value)} {job : Job}
    (hjob : job ∈ vs.map (.delete soleContext)) : job.isRetire = false := by
  obtain ⟨v, -, rfl⟩ := List.mem_map.1 hjob
  rfl

/-- A host with nothing left to do is done. -/
theorem InPhase.done_of_idle (hφ : h.InPhase φ) (hidle : h.agenda = []) : φ.Done [] := by
  have hjobs : φ.jobs = [] := by
    rw [← hφ, work, hidle]
    rfl
  exact Phase.of_jobs_eq_nil hjobs

/-! ### What is put on the agenda

Four steps put jobs in front of the others, and each of them thereby begins the next phase: what it
puts there is what that phase has to do first, and the rest of the agenda is the rest of the phase. -/

/-- A value begins to go: everyone is put in front of its release, and the values that are to be
deleted stay behind it. -/
theorem inPhase_deleting {v : Ref .value} {agenda : List Job} {later : List (Ref .value)}
    (hlater : ({ h with agenda } : Host).work = (Phase.between later).jobs) :
    InPhase { h with
      agenda := h.announce soleContext (.deleted v) ++ .release soleContext v :: agenda }
      (.telling none (.deleted v) h.audience later) := by
  have hrelease : ({ h with agenda := .release soleContext v :: agenda } : Host).work =
      .release soleContext v :: ({ h with agenda } : Host).work :=
    work_append h [.release soleContext v] agenda (by simp [Job.isRetire])
  rw [InPhase, work_append _ _ _ fun job => isRetire_of_mem_announce, hrelease, hlater, announce_eq]
  simp [Phase.jobs, closing]

/-- A replacement is announced at top level only, and nothing is released after it. -/
theorem inPhase_replacing (hidle : h.agenda = []) (s : Store) (old new : Ref .value) :
    InPhase { h with
      store := s
      agenda := h.announce soleContext (.replaced old new) ++ h.agenda }
      (.telling none (.replaced old new) h.audience []) := by
  have hwork := work_append { h with store := s } (h.announce soleContext (.replaced old new))
    h.agenda fun job => isRetire_of_mem_announce
  rw [InPhase, hwork, announce_eq]
  simp [work, hidle, Phase.jobs, closing]

/-- A value has gone, and the arguments of a function are to be deleted next. -/
theorem inPhase_released {agenda : List Job} {later : List (Ref .value)}
    (hlater : ({ h with agenda } : Host).work = (Phase.between later).jobs) (s : Store)
    (arguments : List (Ref .value)) :
    InPhase { h with store := s, agenda := arguments.map (.delete soleContext) ++ agenda }
      (.between (arguments ++ later)) := by
  have hwork := work_append { h with store := s } (arguments.map (.delete soleContext)) agenda
    fun job => isRetire_of_mem_deletes
  have hrest : ({ h with store := s, agenda } : Host).work = (Phase.between later).jobs := hlater
  rw [InPhase, hwork, hrest]
  simp [Phase.jobs]

/-- A cache has been told, and the agenda waits for it if it stopped at a callback. -/
theorem inPhase_notified {k : Ref .cache} {notice : Notice} {agenda : List Job}
    {waiting : List Listener} {later : List (Ref .value)} (c : Cache (Ref .value)) (calls : Bool)
    (hlater : ({ h with agenda } : Host).work = (Phase.telling none notice waiting later).jobs) :
    InPhase { h.putCache (some k) c with agenda := (if calls then [.settle k] else []) ++ agenda }
      (.telling (if calls then some (.cache k) else none) notice waiting later) := by
  cases calls with
  | false => exact hlater
  | true =>
    have hsettle := work_append (h.putCache (some k) c) [.settle k] agenda (by simp [Job.isRetire])
    exact hsettle.trans (congrArg (Job.settle k :: ·) hlater)

/-! ### Every step is a move -/

/-- A host that follows the order is always in a phase. -/
theorem move_of_step {h' : Host} {a : Action} {rs : List Record} (hs : h.Sole)
    (hφ : h.InPhase φ) (hok : h.Orderly a) (hstep : Step h a h' rs) :
    ∃ φ', h'.InPhase φ' ∧ Move h φ a h' φ' rs := by
  cases hstep with
  | edit hchange husers => exact ⟨φ, hφ, .edit hchange⟩
  | addObserver => exact ⟨φ, hφ, .addObserver⟩
  | dropObserver hx hlive => exact ⟨φ, hφ, .dropObserver hx hlive⟩
  | createCache onDeleted onReplaced => exact ⟨φ, hφ, .createCache onDeleted onReplaced⟩
  | disposeCache hx hlive => exact ⟨φ, hφ, .disposeCache hx hlive⟩
  | insert handle hx hidle hv => exact ⟨φ, hφ, .insert handle hx hidle hv⟩
  | remove v place hx hidle => exact ⟨φ, hφ, .remove v place hx hidle⟩
  | @delete a v agenda hfront hv =>
    rcases hfront with ⟨rfl, rfl⟩ | ⟨rfl, hfront⟩
    · -- a caller deletes it, and by the order nothing is left to do
      have hidle : h.agenda = [] := hok (by rw [Announces, hs.containsValue]; exact hv)
      have hnothing : h.work = (Phase.between []).jobs := by simp [work, hidle, Phase.jobs]
      exact ⟨_, inPhase_deleting hnothing,
        .delete (hφ.done_of_idle hidle) (.inl ⟨rfl, rfl, rfl⟩) hv⟩
    · -- it is the turn of a value that was to be deleted
      have hwork := work_of_front hfront rfl
      obtain ⟨later, hdone, hlater⟩ := Phase.of_jobs_delete (hφ.symm.trans hwork)
      exact ⟨_, inPhase_deleting hlater, .delete hdone (.inr ⟨rfl, rfl⟩) hv⟩
  | @replace old new hne hold =>
    have hidle : h.agenda = [] := hok ⟨hne, by rw [hs.containsValue]; exact hold⟩
    exact ⟨_, inPhase_replacing hidle _ old new,
      .replace hidle (hφ.done_of_idle hidle) hne hold⟩
  | @dispose m x hm =>
    -- without globals there is nothing to announce, and the order does not ask for anything
    by_cases hempty : x.owned = []
    · refine ⟨φ, ?_, .disposeEmpty⟩
      rw [hempty]
      exact hφ
    · have hidle : h.agenda = [] := hok ⟨x, hm, hempty⟩
      refine ⟨_, ?_, .dispose hidle (hφ.done_of_idle hidle) hm⟩
      rw [InPhase, work_append _ _ _ fun job => isRetire_of_mem_deletes]
      simp [work, hidle, Job.isRetire, Phase.jobs]
  | @tellObserver o notice agenda hfront =>
    have hwork := work_of_front hfront rfl
    obtain ⟨waiting, later, rfl, hlater⟩ := Phase.of_jobs_tell (hφ.symm.trans hwork)
    refine ⟨_, ?_, .tellObserver⟩
    -- the agenda waits for the observer, in place of telling it
    have hawait := work_append h [.await o notice] agenda (by simp [Job.isRetire])
    exact hawait.trans (by rw [hlater]; rfl)
  | @tellCache k notice agenda hfront =>
    have hwork := work_of_front hfront rfl
    obtain ⟨waiting, later, rfl, hlater⟩ := Phase.of_jobs_tell (hφ.symm.trans hwork)
    cases hx : h.caches.get? k with
    | none =>
      rw [notify_of_none (h := { h with agenda }) hx]
      exact ⟨_, hlater, .tellNobody hx⟩
    | some x =>
      rw [notify_of_get? (h := { h with agenda }) hx]
      exact ⟨_, inPhase_notified _ _ hlater, .tellCache hx rfl⟩
  | @settled k agenda hfront hidle =>
    have hwork := work_of_front hfront rfl
    obtain ⟨notice, waiting, later, rfl, hlater⟩ := Phase.of_jobs_settle (hφ.symm.trans hwork)
    exact ⟨_, hlater, .settled hidle⟩
  | @skip v agenda hfront hv =>
    have hwork := work_of_front hfront rfl
    obtain ⟨later, hdone, hlater⟩ := Phase.of_jobs_delete (hφ.symm.trans hwork)
    exact ⟨_, hlater, .skip hdone hv⟩
  | @release v x agenda hfront hv =>
    have hwork := work_of_front hfront rfl
    obtain ⟨later, rfl, hlater⟩ := Phase.of_jobs_release (hφ.symm.trans hwork)
    exact ⟨_, inPhase_released hlater _ x.arguments, .release hv⟩
  | @vanish v agenda hfront hv =>
    have hwork := work_of_front hfront rfl
    obtain ⟨later, rfl, hlater⟩ := Phase.of_jobs_release (hφ.symm.trans hwork)
    exact ⟨_, hlater, .vanish hv⟩
  | @retire m agenda hfront =>
    refine ⟨φ, ?_, .retire⟩
    -- a retirement is no part of a phase
    have hwork : h.work = ({ h with store := h.store.retireModule m, agenda } : Host).work := by
      simp [work, hfront, Job.isRetire]
    exact hwork.symm.trans hφ
  | @heard o notice agenda handle hfront =>
    have hwork := work_of_front hfront rfl
    obtain ⟨waiting, later, rfl, hlater⟩ := Phase.of_jobs_await (hφ.symm.trans hwork)
    exact ⟨_, hlater, .heard handle⟩
  | @resume k x s agenda handle hfront hx hstage =>
    have hwork := work_of_front hfront rfl
    -- the cache is still the one that has been told, whether its consumer is called again or not
    obtain ⟨notice, waiting, later, rfl, -⟩ := Phase.of_jobs_settle (hφ.symm.trans hwork)
    exact ⟨_, hφ, .resume handle hx hstage⟩
  | none => exact ⟨φ, hφ, .none _⟩

/-- What every move keeps that meets the conditions of a run holds at the end of the run, whatever
state the run starts in. -/
theorem phase_invariant_from {ok : Host → Action → Prop} {Q : Host → Phase → List Record → Prop}
    (horderly : ∀ h a, ok h a → h.Orderly a)
    (hmove : ∀ {h φ r a h' φ' rs}, h.Sole → h.InPhase φ → ok h a → Step h a h' rs →
      Move h φ a h' φ' rs → Q h φ r → Q h' φ' (r ++ rs))
    {h : Host} {φ : Phase} {r : List Record} {actions : List Action} (hs : h.Sole)
    (hφ : h.InPhase φ) (hok : Along ok h actions) (hstart : Q h φ r) :
    ∃ φ', (h.run actions).InPhase φ' ∧ Q (h.run actions) φ' (r ++ h.history actions) := by
  refine run_invariant (P := fun h r => ∃ φ, h.InPhase φ ∧ Q h φ r) ?_ hs hok ⟨φ, hφ, hstart⟩
  rintro h r a h' rs hs hok hstep ⟨φ, hφ, hQ⟩
  obtain ⟨φ', hφ', hm⟩ := move_of_step hs hφ (horderly h a hok) hstep
  exact ⟨φ', hφ', hmove hs hφ hok hstep hm hQ⟩

/-- A run that starts with nothing on the host. -/
theorem phase_invariant {ok : Host → Action → Prop} {Q : Host → Phase → List Record → Prop}
    (horderly : ∀ h a, ok h a → h.Orderly a)
    (hmove : ∀ {h φ r a h' φ' rs}, h.Sole → h.InPhase φ → ok h a → Step h a h' rs →
      Move h φ a h' φ' rs → Q h φ r → Q h' φ' (r ++ rs))
    {actions : List Action} (hok : Along ok opened actions) (hstart : Q opened (.between []) []) :
    ∃ φ, (opened.run actions).InPhase φ ∧ Q (opened.run actions) φ (opened.history actions) :=
  phase_invariant_from (φ := .between []) (r := []) horderly hmove sole_opened rfl hok hstart

end Host

end ForeignHandles
