import ForeignHandles.Cache.Dispatch
import ForeignHandles.Store.Modules

/-!
  The host together with those who listen to it.

  A context announces every value that it is about to release and every replacement of one value by
  another. Listeners are observers, whose consumer is called directly, and caches, which call their
  consumer in their own time (`ForeignHandles.Cache.Dispatch`). For each announcement the listeners
  that are alive then are told in the order in which they were registered; one that is dropped
  meanwhile is still told of that announcement, and is alive until then.

  A consumer may do almost anything while it is called, so an operation that announces something
  cannot be one function from a host to a host. What is left of it is a list of jobs, the `agenda`,
  with the next one in front. `step` does the next job. It has nothing to do when the job in front
  waits for a consumer: `call?` is the call then and `answer` brings the answer. An operation is
  over when the agenda is as long again as before it.

  Deleting a value goes: tell everyone, while the value is still there; then release it; then
  delete its arguments in order. Replacing redirects all uses before anyone is told. Disposing of a
  module deletes its globals, aliases first, and then removes the module.
-/
namespace ForeignHandles

/-- What a context announces. -/
inductive Notice where
  | deleted (value : Ref .value)
  | replaced (old new : Ref .value)
  deriving DecidableEq

/-- The announcement as caches are told it. -/
def Notice.event : Notice → Event (Ref .value)
  | .deleted value => .deleted value
  | .replaced old new => .replaced old new

/-- Whoever is told of announcements. -/
inductive Listener where
  | observer (observer : Ref .observer)
  | cache (cache : Ref .cache)
  deriving DecidableEq

/-- A cache of the values of a context. A cache that was disposed of stays where it is, for it may
be in the middle of its notifications. -/
structure BoundCache where
  context : Ref .context
  cache : Cache (Ref .value)
  disposed : Bool := false

/-- An observer of a context. -/
structure Observer where
  context : Ref .context
  dropped : Bool := false

/-- A job that is left of an operation. -/
inductive Job where
  /-- Tell a listener. -/
  | tell (listener : Listener) (notice : Notice)
  /-- Wait for an observer that has been told. -/
  | await (observer : Ref .observer) (notice : Notice)
  /-- Wait until a cache has worked off its notifications. -/
  | settle (cache : Ref .cache)
  /-- Delete a value, if the context has it. -/
  | delete (context : Ref .context) (value : Ref .value)
  /-- Release a value that everyone has been told of, and delete its arguments. -/
  | release (context : Ref .context) (value : Ref .value)
  /-- Remove a module whose globals are gone. -/
  | retire (module : Ref .module)

/-- The listener that a job is about. -/
def Job.listener? : Job → Option Listener
  | .tell listener _ => some listener
  | .await observer _ => some (.observer observer)
  | .settle cache => some (.cache cache)
  | _ => none

/-- A call to a consumer. -/
inductive HostCall where
  | observer (observer : Ref .observer) (notice : Notice)
  | cache (cache : Ref .cache) (call : Call (Ref .value))

/-- The host, its listeners in order of registration, and what is left to do. -/
structure Host where
  store : Store := {}
  observers : Arena .observer Observer := {}
  caches : Arena .cache BoundCache := {}
  listeners : List Listener := []
  agenda : List Job := []

namespace Host

/-! ## Listeners -/

/-- Whether a listener is kept alive by an announcement that it has not been told of to the end. -/
def isHeld (h : Host) (l : Listener) : Bool := h.agenda.any (fun job => job.listener? = some l)

/-- Whether a listener listens to a context: it is registered there, and it has not been dropped or
an announcement still holds it. -/
def listensTo (h : Host) (c : Ref .context) (l : Listener) : Bool :=
  match l with
  | .observer o => (h.observers.get? o).any (fun x => x.context = c && (!x.dropped || h.isHeld l))
  | .cache k => (h.caches.get? k).any (fun x => x.context = c && (!x.disposed || h.isHeld l))

/-- The listeners of a context that are alive, in order of registration. -/
def liveListeners (h : Host) (c : Ref .context) : List Listener :=
  h.listeners.filter (h.listensTo c)

/-- Registers a new observer of a context. -/
def addObserver (h : Host) (c : Ref .context) : Ref .observer × Host :=
  let (o, observers) := h.observers.alloc { context := c }
  (o, { h with observers, listeners := h.listeners ++ [.observer o] })

/-- The observer stops listening. -/
def dropObserver (h : Host) (o : Ref .observer) : Host :=
  { h with observers := h.observers.modify o (fun x => { x with dropped := true }) }

/-- Registers a new cache for the values of a context; none for a null context. -/
def createCache (h : Host) (context : Handle .context) (onDeleted onReplaced : Bool) :
    Handle .cache × Host :=
  match context with
  | none => (none, h)
  | some c =>
    let (k, caches) := h.caches.alloc { context := c, cache := { onDeleted, onReplaced } }
    (some k, { h with caches, listeners := h.listeners ++ [.cache k] })

/-- Disposes of a cache. No callback runs. -/
def disposeCache (h : Host) (cache : Handle .cache) : Host :=
  match cache with
  | none => h
  | some k => { h with caches := h.caches.modify k (fun x => { x with disposed := true }) }

/-! ## Operations that announce something -/

/-- The jobs that tell everyone who listens to a context. -/
def announce (h : Host) (c : Ref .context) (notice : Notice) : List Job :=
  (h.liveListeners c).map (fun l => .tell l notice)

/-- Starts to delete a value; says whether the context has it. -/
def delete (h : Host) (c : Ref .context) (v : Ref .value) : Bool × Host :=
  if h.store.containsValue c v then
    (true, { h with agenda := h.announce c (.deleted v) ++ .release c v :: h.agenda })
  else (false, h)

/-- Redirects all uses of a value to another one and starts to tell everyone. Nothing happens if the
values are the same or the context does not have the old one. -/
def replaceAllUses (h : Host) (c : Ref .context) (old new : Ref .value) : Host :=
  if old = new then h
  else if h.store.containsValue c old then
    { h with
      store := h.store.rewire old (some new)
      agenda := h.announce c (.replaced old new) ++ h.agenda }
  else h

/-- Starts to dispose of a module and all its globals. -/
def disposeModule (h : Host) (module : Handle .module) : Host :=
  match module, h.store.module? module with
  | some m, some x =>
    { h with agenda := x.owned.map (fun v => .delete x.context v) ++ .retire m :: h.agenda }
  | _, _ => h

/-! ## Doing the jobs -/

/-- Notifies a cache. If that leaves it waiting for its consumer, the agenda waits with it. -/
def notify (h : Host) (k : Ref .cache) (notice : Notice) : Host :=
  match h.caches.get? k with
  | none => h
  | some x =>
    let cache := x.cache.raise notice.event
    let told := { h with caches := h.caches.modify k (fun y => { y with cache }) }
    if !x.cache.isDispatching && cache.isDispatching then
      { told with agenda := .settle k :: told.agenda }
    else told

/-- Does the job in front, unless it waits for a consumer. -/
def step (h : Host) : Host :=
  match h.agenda with
  | [] => h
  | job :: agenda =>
    let rest := { h with agenda }
    match job with
    | .await _ _ => h
    | .settle k =>
      if (h.caches.get? k).any (fun x => x.cache.isDispatching) then h else rest
    | .tell (.observer o) notice => { h with agenda := .await o notice :: agenda }
    | .tell (.cache k) notice => rest.notify k notice
    | .delete c v => (rest.delete c v).2
    | .release c v =>
      let arguments := ((h.store.values.get? v).map (·.arguments)).getD []
      { h with
        store := h.store.release v
        agenda := arguments.map (fun a => .delete c a) ++ agenda }
    | .retire m => { rest with store := h.store.retireModule m }

/-- The call that the job in front waits for. -/
def call? (h : Host) : Option HostCall :=
  match h.agenda with
  | .await o notice :: _ => some (.observer o notice)
  | .settle k :: _ => (h.caches.get? k).bind (fun x => x.cache.call?.map (.cache k))
  | _ => none

/-- A consumer returns from the call. `handle` is its answer to the replacement of a cached value,
and no other call looks at it. -/
def answer (h : Host) (handle : Option ExternalHandle) : Host :=
  match h.agenda with
  | .await _ _ :: agenda => { h with agenda }
  | .settle k :: _ =>
    { h with caches := h.caches.modify k (fun x => { x with cache := x.cache.resume handle }) }
  | _ => h

end Host

end ForeignHandles
