import ForeignHandles.Cache.Dispatch

/-!
  Runs of a cache, and what they leave on record.

  A run is the list of everything that happens to a cache, in order of time: notifications are
  raised, at top level or by a callback; the callback that runs returns or fails; callers look up,
  insert and remove.  The consumer is nothing but what it does, so a statement about every list of
  actions is one about every behaviour of the callbacks.  `CacheCell.getOrInsert` is no action of
  its own.  It shows as a `lookup`, whatever `create` does, and a `settle`
  (`getOrInsert_eq_run`).

  `records` says what one action leaves on record, `history` collects it over a run.  The record has
  what the cache forgets: the notifications that were raised and those that were taken off the
  queue, the calls with the mapping at each, and where handles came from and went to.

  Both ways forward out of a callback or into one, `drain` and `resume`, are one function here:
  `proceed` goes on from a mapping and a stage, if there is one (`drain_cons`, `resume_eq_proceed`,
  `raise_eq_drain`).  Later proofs use these equations and never unfold the two.
-/
namespace ForeignHandles.Cache

variable {K : Type}

/-! ## Actions and records -/

/-- What can happen to a cache. -/
inductive Action (K : Type) where
  /-- The host notifies, at top level or from inside a callback. -/
  | raise (event : Event K)
  /-- The callback that runs returns. -/
  | resume (answer : Option ExternalHandle)
  /-- The callback that runs fails. -/
  | abandon
  | lookup (key : K)
  | insert (key : K) (handle : ExternalHandle)
  | remove (key : K)
  /-- The end of `CacheCell.getOrInsert`: the key had no handle, and `handle` was made for it. -/
  | settle (key : K) (handle : ExternalHandle)
  deriving DecidableEq

/-- What an action leaves on record. -/
inductive Record (K : Type) where
  | raised (event : Event K)
  /-- A notification comes off the queue; `mapping` is the mapping then. -/
  | taken (event : Event K) (mapping : Mapping K)
  /-- A callback begins; `mapping` is what it finds. -/
  | called (call : Call K) (mapping : Mapping K)
  | returned (call : Call K) (answer : Option ExternalHandle)
  | failed (call : Call K)
  /-- The handle given for a replacement is the very one that the new key has. -/
  | merged (key : K) (handle : ExternalHandle)
  | stored (key : K) (handle : ExternalHandle)
  | removed (key : K) (handle : ExternalHandle)

/-- The notification that a record says was raised. -/
@[simp] def Record.raised? : Record K → Option (Event K)
  | .raised event => some event
  | _ => none

/-- The notification that a record says was taken off the queue, with the mapping then. -/
@[simp] def Record.taken? : Record K → Option (Event K × Mapping K)
  | .taken event mapping => some (event, mapping)
  | _ => none

/-- The call that a record says was made, with the mapping then. -/
@[simp] def Record.called? : Record K → Option (Call K × Mapping K)
  | .called call mapping => some (call, mapping)
  | _ => none

/-- The call that a record says is over, one way or the other. -/
@[simp] def Record.ended? : Record K → Option (Call K)
  | .returned call _ => some call
  | .failed call => some call
  | _ => none

/-- The notifications raised, in order. -/
def raised (history : List (Record K)) : List (Event K) := history.filterMap Record.raised?

/-- The notifications taken off the queue, in order, with the mapping at each. -/
def takings (history : List (Record K)) : List (Event K × Mapping K) :=
  history.filterMap Record.taken?

/-- The notifications taken off the queue, in order. -/
def taken (history : List (Record K)) : List (Event K) := (takings history).map (·.1)

/-- The calls made, in order, with the mapping at each. -/
def calls (history : List (Record K)) : List (Call K × Mapping K) :=
  history.filterMap Record.called?

/-- The calls that are over, in order. -/
def ended (history : List (Record K)) : List (Call K) := history.filterMap Record.ended?

/-- Of an empty record nothing can be read. -/
@[simp] theorem raised_nil : raised ([] : List (Record K)) = [] := rfl

/-- The same for what was taken, -/
@[simp] theorem takings_nil : takings ([] : List (Record K)) = [] := rfl

/-- for calls -/
@[simp] theorem calls_nil : calls ([] : List (Record K)) = [] := rfl

/-- and for their ends. -/
@[simp] theorem ended_nil : ended ([] : List (Record K)) = [] := rfl

/-- What is read of the first record comes first, if it is anything. -/
theorem filterMap_cons_toList {α β : Type} (f : α → Option β) (x : α) (l : List α) :
    (x :: l).filterMap f = (f x).toList ++ l.filterMap f := by
  rw [List.filterMap_cons]
  cases f x <;> rfl

/-- What was raised is read from the front, -/
@[simp] theorem raised_cons (r : Record K) (h : List (Record K)) :
    raised (r :: h) = r.raised?.toList ++ raised h := filterMap_cons_toList _ r h

/-- and so is what was taken, -/
@[simp] theorem takings_cons (r : Record K) (h : List (Record K)) :
    takings (r :: h) = r.taken?.toList ++ takings h := filterMap_cons_toList _ r h

/-- what was called -/
@[simp] theorem calls_cons (r : Record K) (h : List (Record K)) :
    calls (r :: h) = r.called?.toList ++ calls h := filterMap_cons_toList _ r h

/-- and what is over. -/
@[simp] theorem ended_cons (r : Record K) (h : List (Record K)) :
    ended (r :: h) = r.ended?.toList ++ ended h := filterMap_cons_toList _ r h

/-- Records in a row are read in a row, -/
@[simp] theorem raised_append (h g : List (Record K)) : raised (h ++ g) = raised h ++ raised g :=
  List.filterMap_append

/-- one sort of entries like another. -/
@[simp] theorem takings_append (h g : List (Record K)) :
    takings (h ++ g) = takings h ++ takings g := List.filterMap_append

/-- The same for calls -/
@[simp] theorem calls_append (h g : List (Record K)) : calls (h ++ g) = calls h ++ calls g :=
  List.filterMap_append

/-- and for their ends. -/
@[simp] theorem ended_append (h g : List (Record K)) : ended (h ++ g) = ended h ++ ended g :=
  List.filterMap_append

/-! ## Going on from a mapping and a stage -/

variable [DecidableEq K]

/-- Goes on with a queue: a stage waits for its callback, otherwise the queue is worked off. -/
def proceed (c : Cache K) : Mapping K × Option (Stage K) → List (Event K) → Cache K
  | (mapping, none), queue => drain { c with mapping } queue
  | (mapping, some stage), queue => { c with mapping, pending := queue, stage := some stage }

/-- What the return of a callback does at once: the mapping then, and the stage if another callback
has to follow for the same notification. -/
def conclude (c : Cache K) (answer : Option ExternalHandle) :
    Stage K → Mapping K × Option (Stage K)
  | .deleting key _ => (c.mapping.erase key, none)
  | .orphaning _ _ => (c.mapping, none)
  | .replacing old handle new => c.rekey old (answer.getD handle) new

/-- Draining a queue applies its first notification and goes on from there. -/
theorem drain_cons (c : Cache K) (e : Event K) (queue : List (Event K)) :
    c.drain (e :: queue) = c.proceed (c.apply e) queue := by
  rcases he : c.apply e with ⟨mapping, _ | stage⟩ <;> simp [drain, proceed, he]

/-- The queue and the stage that a cache had do not matter once it drains. -/
theorem drain_update (c : Cache K) (pending : List (Event K)) (stage : Option (Stage K))
    (queue : List (Event K)) : drain { c with pending, stage } queue = c.drain queue := by
  induction queue generalizing c with
  | nil => rfl
  | cons e queue ih =>
    -- `apply` reads the mapping and which callbacks there are, nothing else
    have hsame : apply { c with pending, stage } e = c.apply e := by cases e <;> rfl
    rw [drain_cons, drain_cons, hsame]
    rcases c.apply e with ⟨mapping, _ | next⟩
    · exact ih { c with mapping }
    · rfl

/-- A notification at top level drains the queue with it at the end. -/
theorem raise_eq_drain {c : Cache K} (h : c.isDispatching = false) (e : Event K) :
    c.raise e = c.drain (c.pending ++ [e]) := by
  rw [raise, h]
  exact drain_update c _ c.stage _

/-- **A return goes on where the stage says.** What the callback was for decides what its return
does; then either another callback follows for the same notification, or the queue goes on. -/
theorem resume_eq_proceed {c : Cache K} {s : Stage K} (h : c.stage = some s)
    (answer : Option ExternalHandle) :
    c.resume answer = c.proceed (c.conclude answer s) c.pending := by
  cases s with
  | deleting key handle =>
    -- `resume` clears the stage before it advances, `proceed` leaves that to `drain`
    simp only [resume, h]
    exact drain_update { c with mapping := c.mapping.erase key } c.pending none _
  | orphaning old handle =>
    simp only [resume, h]
    exact drain_update c c.pending none _
  | replacing old handle new =>
    simp only [resume, h, conclude]
    rcases c.rekey old (answer.getD handle) new with ⟨mapping, _ | next⟩
    · exact drain_update { c with mapping } c.pending none _
    · rfl

/-- A return from no callback does nothing. -/
theorem resume_of_idle {c : Cache K} (h : c.stage = none) (answer : Option ExternalHandle) :
    c.resume answer = c := by
  simp [resume, h]

/-! ## Runs -/

/-- Lets something happen to a cache. -/
def act (c : Cache K) : Action K → Cache K
  | .raise e => c.raise e
  | .resume answer => c.resume answer
  | .abandon => c.abandon
  | .lookup _ => c
  | .insert key handle =>
    match c.insert key handle with
    | .ok c' => c'
    | .error _ => c
  | .remove key =>
    match c.remove key with
    | .ok (_, c') => c'
    | .error _ => c
  | .settle key handle =>
    match c.settle key handle with
    | .ok (_, c') => c'
    | .error _ => c

/-- The cache after a run. -/
def run (c : Cache K) (actions : List (Action K)) : Cache K := actions.foldl act c

/-- A run of no actions ends where it begins, -/
@[simp] theorem run_nil (c : Cache K) : c.run [] = c := rfl

/-- a run begins with its first action, -/
@[simp] theorem run_cons (c : Cache K) (a : Action K) (actions : List (Action K)) :
    c.run (a :: actions) = (c.act a).run actions := rfl

/-- and two runs in a row are one. -/
theorem run_append (c : Cache K) (first second : List (Action K)) :
    c.run (first ++ second) = (c.run first).run second := List.foldl_append

/-- The notifications that `drain` takes off the queue. -/
def drainRecords (c : Cache K) : List (Event K) → List (Record K)
  | [] => []
  | e :: queue =>
    .taken e c.mapping ::
      match c.apply e with
      | (mapping, none) => drainRecords { c with mapping } queue
      | (_, some _) => []

/-- The notifications that `proceed` takes off the queue. -/
def proceedRecords (c : Cache K) : Mapping K × Option (Stage K) → List (Event K) → List (Record K)
  | (mapping, none), queue => drainRecords { c with mapping } queue
  | (_, some _), _ => []

/-- The call that a cache makes as it enters a stage. -/
def opening (c : Cache K) : List (Record K) :=
  match c.call? with
  | none => []
  | some call => [.called call c.mapping]

/-- The handle that a callback gave for a replacement, if the new key has it already. -/
def mergeRecords (c : Cache K) (answer : Option ExternalHandle) : Stage K → List (Record K)
  | .replacing old handle new =>
    if (c.mapping.erase old).get? new = some (answer.getD handle) then
      [.merged new (answer.getD handle)]
    else []
  | _ => []

/-- What an action leaves on record. -/
def records (c : Cache K) : Action K → List (Record K)
  | .raise e =>
    .raised e ::
      if c.isDispatching then []
      else c.drainRecords (c.pending ++ [e]) ++ (c.raise e).opening
  | .resume answer =>
    match c.stage with
    | none => []
    | some stage =>
      .returned stage.call answer :: c.mergeRecords answer stage ++
        c.proceedRecords (c.conclude answer stage) c.pending ++ (c.resume answer).opening
  | .abandon =>
    match c.call? with
    | none => []
    | some call => [.failed call]
  | .lookup _ => []
  | .insert key handle | .settle key handle =>
    match c.insert key handle with
    | .ok _ => [.stored key handle]
    | .error _ => []
  | .remove key =>
    match c.remove key with
    | .ok (some handle, _) => [.removed key handle]
    | _ => []

/-- What a run leaves on record, in order of time. -/
def history (c : Cache K) : List (Action K) → List (Record K)
  | [] => []
  | a :: actions => c.records a ++ (c.act a).history actions

/-- The record of a run is made action by action. -/
@[simp] theorem history_nil (c : Cache K) : c.history [] = [] := rfl

/-- The record of the first action comes first, -/
@[simp] theorem history_cons (c : Cache K) (a : Action K) (actions : List (Action K)) :
    c.history (a :: actions) = c.records a ++ (c.act a).history actions := rfl

/-- and the record of two runs is that of the first, followed by that of the second from where the
first has ended. -/
theorem history_append (c : Cache K) (first second : List (Action K)) :
    c.history (first ++ second) = c.history first ++ (c.run first).history second := by
  induction first generalizing c with
  | nil => rfl
  | cons a first ih => simp [ih]

/-- A cache as it is made. -/
def fresh (onDeleted onReplaced : Bool) : Cache K :=
  { onDeleted, onReplaced, mapping := default }

end ForeignHandles.Cache
