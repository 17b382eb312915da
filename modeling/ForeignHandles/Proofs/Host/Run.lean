import ForeignHandles.Host.CacheAccess
import ForeignHandles.Proofs.Store.Edit

/-!
  Runs of a host with one context, and what they leave on record.

  A run is the list of everything that happens, in order of time: operations of callers, jobs that
  are done, and consumers that return from a call.  An operation that announces something only
  fills the agenda; the jobs are done by the `step`s after it.  Callers may act at any time, so
  whatever stands between two steps of an operation is what the consumers do while they are called,
  and a statement about every list of actions is one about every behaviour of theirs.  Where a
  theorem wants them to behave, it says so with `Along`: a condition on every action, in the state
  in which it happens.

  The record has what the host forgets.  That a value leaves the context is read off the store
  before and after (`departures`), and not off the job that does it.
-/
namespace ForeignHandles

/-! ## Actions and records

The actions are those that concern one context; what other contexts do is left out, since nothing
of it reaches this one. -/

/-- What can happen to a host with one context. -/
inductive Host.Action where
  | edit (edit : Edit)
  | delete (value : Ref .value)
  | replaceAllUses (old new : Ref .value)
  | disposeModule (module : Handle .module)
  | addObserver
  | dropObserver (observer : Ref .observer)
  | createCache (onDeleted onReplaced : Bool)
  | disposeCache (cache : Handle .cache)
  | cacheLookup (cache : Handle .cache) (value : Handle .value) (place : Bool)
  | cacheInsert (cache : Handle .cache) (value : Handle .value) (handle : ExternalHandle)
  | cacheRemove (cache : Handle .cache) (value : Handle .value) (place : Bool)
  /-- The job in front is done. -/
  | step
  /-- The consumer that the job in front waits for returns. -/
  | answer (handle : Option ExternalHandle)

/-- What an action leaves on record. -/
inductive Host.Record where
  /-- An alias or a wrapper is made for a value. -/
  | used (user : User) (value : Ref .value)
  /-- All uses of a value that is there are redirected to another one. -/
  | replaced (old new : Ref .value)
  /-- A value leaves the context. -/
  | released (value : Ref .value)
  | registered (listener : Listener)
  | dropped (listener : Listener)
  /-- A listener is told; `store` is what it finds. -/
  | told (listener : Listener) (notice : Notice) (store : Store)

/-- The values that are in one store and not in the next, in creation order. -/
def Store.departures (before after : Store) : List (Ref .value) :=
  before.values.refs.filter (fun v => !after.values.contains v)

namespace Host

/-- The context of all runs, the first that a host has. -/
def soleContext : Ref .context := ({} : Store).createContext.1

/-- A host with one context and nothing in it. -/
def opened : Host := { store := ({} : Store).createContext.2 }

instance : Inhabited Host := ⟨{}⟩

/-! ## Runs

All three ways to collect something over a run go along with the state: what is on record
(`history`), what calls have returned (`gather`), and whether a condition was met (`Along`). -/

/-- Lets something happen to a host. -/
def act (h : Host) : Action → Host
  | .edit e => { h with store := h.store.edit soleContext e }
  | .delete v => (h.delete soleContext v).2
  | .replaceAllUses old new => h.replaceAllUses soleContext old new
  | .disposeModule m => h.disposeModule m
  | .addObserver => (h.addObserver soleContext).2
  | .dropObserver o => h.dropObserver o
  | .createCache onDeleted onReplaced => (h.createCache (some soleContext) onDeleted onReplaced).2
  | .disposeCache k => h.disposeCache k
  | .cacheLookup _ _ _ => h
  | .cacheInsert k v handle => (h.cacheInsert k v handle).2
  | .cacheRemove k v place => (h.cacheRemove k v place).2
  | .step => h.step
  | .answer handle => h.answer handle

/-- What an action leaves on record besides the values that leave the context. -/
def noted (h : Host) : Action → List Record
  | .edit e => (h.store.uses soleContext e).map (fun p => .used p.1 p.2)
  | .replaceAllUses old new =>
    if old ≠ new ∧ h.store.containsValue soleContext old then [.replaced old new] else []
  | .addObserver => [.registered (.observer (h.addObserver soleContext).1)]
  | .dropObserver o =>
    if (h.observers.get? o).any (fun x => !x.dropped) then [.dropped (.observer o)] else []
  | .createCache onDeleted onReplaced =>
    (h.createCache (some soleContext) onDeleted onReplaced).1.toList.map
      (fun k => .registered (.cache k))
  | .disposeCache k =>
    (k.filter (fun k => (h.caches.get? k).any (fun x => !x.disposed))).toList.map
      (fun k => .dropped (.cache k))
  | .step =>
    match h.agenda with
    | .tell l notice :: _ => [.told l notice h.store]
    | _ => []
  | _ => []

/-- What an action leaves on record. -/
def records (h : Host) (a : Action) : List Record :=
  h.noted a ++ (h.store.departures (h.act a).store).map .released

/-- The host after a run. -/
def run (h : Host) (actions : List Action) : Host := actions.foldl act h

/-- What a run leaves on record, in order of time. -/
def history (h : Host) : List Action → List Record
  | [] => []
  | a :: actions => h.records a ++ (h.act a).history actions

/-- What the actions of a run make, in order of time; `made` says what an action makes in the state
in which it happens. -/
def gather {α : Type} (made : Host → Action → List α) (h : Host) : List Action → List α
  | [] => []
  | a :: actions => made h a ++ gather made (h.act a) actions

/-- Whether every action of a run satisfies a condition in the state in which it happens. -/
def Along (ok : Host → Action → Prop) (h : Host) : List Action → Prop
  | [] => True
  | a :: actions => ok h a ∧ Along ok (h.act a) actions

/-- A condition that can be computed for an action can be computed along a run. -/
instance decidableAlong {ok : Host → Action → Prop} [∀ h a, Decidable (ok h a)] :
    ∀ (h : Host) (actions : List Action), Decidable (Along ok h actions)
  | _, [] => .isTrue trivial
  | h, a :: actions =>
    have : Decidable (Along ok (h.act a) actions) := decidableAlong (h.act a) actions
    inferInstanceAs (Decidable (ok h a ∧ Along ok (h.act a) actions))

/-- A run of no actions ends where it begins, -/
@[simp] theorem run_nil (h : Host) : h.run [] = h := rfl

/-- a run begins with its first action, -/
@[simp] theorem run_cons (h : Host) (a : Action) (actions : List Action) :
    h.run (a :: actions) = (h.act a).run actions := rfl

/-- and two runs in a row are one. -/
theorem run_append (h : Host) (first second : List Action) :
    h.run (first ++ second) = (h.run first).run second := List.foldl_append

/-- The record of a run of no actions is empty, -/
@[simp] theorem history_nil (h : Host) : h.history [] = [] := rfl

/-- and otherwise that of the first action comes first. -/
@[simp] theorem history_cons (h : Host) (a : Action) (actions : List Action) :
    h.history (a :: actions) = h.records a ++ (h.act a).history actions := rfl

/-- What is gathered in two runs in a row is gathered in both, -/
theorem gather_append {α : Type} (made : Host → Action → List α) (h : Host)
    (first second : List Action) :
    h.gather made (first ++ second) = h.gather made first ++ (h.run first).gather made second := by
  induction first generalizing h with
  | nil => rfl
  | cons a first ih => simp only [List.cons_append, gather, run_cons, ih, List.append_assoc]

/-- of which the record is an example. -/
theorem history_eq_gather (h : Host) (actions : List Action) :
    h.history actions = h.gather records actions := by
  induction actions generalizing h with
  | nil => rfl
  | cons a actions ih => rw [history_cons, gather, ih]

/-- A condition along two runs in a row is a condition along both. -/
theorem along_append {ok : Host → Action → Prop} {h : Host} {first second : List Action} :
    Along ok h (first ++ second) ↔ Along ok h first ∧ Along ok (h.run first) second := by
  induction first generalizing h with
  | nil => simp [Along]
  | cons a first ih => simp [Along, ih, and_assoc]

/-- A weaker condition is met wherever the stronger one is, -/
theorem Along.imp {ok ok' : Host → Action → Prop} {h : Host} {actions : List Action}
    (himp : ∀ h a, ok h a → ok' h a) (hok : Along ok h actions) : Along ok' h actions := by
  induction actions generalizing h with
  | nil => trivial
  | cons a actions ih => exact ⟨himp h a hok.1, ih hok.2⟩

/-- two conditions are met together, -/
theorem Along.and {ok ok' : Host → Action → Prop} {h : Host} {actions : List Action}
    (hok : Along ok h actions) (hok' : Along ok' h actions) :
    Along (fun h a => ok h a ∧ ok' h a) h actions := by
  induction actions generalizing h with
  | nil => trivial
  | cons a actions ih => exact ⟨⟨hok.1, hok'.1⟩, ih hok.2 hok'.2⟩

/-- and what always holds is met along every run. -/
theorem along_of_forall {ok : Host → Action → Prop} (hok : ∀ h a, ok h a) (h : Host)
    (actions : List Action) : Along ok h actions := by
  induction actions generalizing h with
  | nil => trivial
  | cons a actions ih => exact ⟨hok h a, ih _⟩

/-- A condition that holds of an action exactly if the action keeps an invariant holds along a run
exactly if the invariant holds in every state of the run. -/
theorem along_iff_forall_prefix {ok : Host → Action → Prop} {P : Host → Prop} {h : Host}
    {actions : List Action} (hstart : P h)
    (hstep : ∀ first a second, actions = first ++ a :: second → P (h.run first) →
      (ok (h.run first) a ↔ P ((h.run first).act a))) :
    Along ok h actions ↔ ∀ first second, actions = first ++ second → P (h.run first) := by
  induction actions generalizing h with
  | nil =>
    refine ⟨fun _ first second heq => ?_, fun _ => trivial⟩
    obtain ⟨rfl, -⟩ := List.append_eq_nil_iff.1 heq.symm
    exact hstart
  | cons a actions ih =>
    have hfirst : ok h a ↔ P (h.act a) := hstep [] a actions rfl hstart
    have hrest (hnext : P (h.act a)) := ih hnext fun first b second heq =>
      hstep (a :: first) b second (by rw [heq]; rfl)
    constructor
    · rintro ⟨ha, hactions⟩ first second heq
      cases first with
      | nil => exact hstart
      | cons b first =>
        obtain ⟨rfl, htail⟩ := List.cons.inj heq
        have hnext := hfirst.1 ha
        exact (hrest hnext).1 hactions first second htail
    · intro hall
      have hnext : P (h.act a) := hall [a] actions rfl
      refine ⟨hfirst.2 hnext, (hrest hnext).2 fun first second heq => ?_⟩
      exact hall (a :: first) second (by rw [heq]; rfl)

/-! ## What leaves the store

A value that is there before and after has not left. -/

/-- Nothing has left if all values are still there. -/
theorem departures_eq_nil {s t : Store}
    (h : ∀ v, s.values.contains v = true → t.values.contains v = true) :
    s.departures t = [] := by
  refine List.filter_eq_nil_iff.2 fun v hv => ?_
  have hthere := h v ((s.values.mem_refs_iff v).1 hv)
  simp [hthere]

end Host

end ForeignHandles
