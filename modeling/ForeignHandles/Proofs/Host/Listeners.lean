import ForeignHandles.Proofs.Host.Step

/-!
  Who listens, as the record says.

  Every observer and every cache is registered as it is made, and never again, so the listeners of a
  host are the registrations on record, in order (`Enrolled`).  Those that have not been dropped are
  the ones that `alive` computes from the record.

  Dropping is a mark that a listener gets; the listener stays where it is, so that references to it
  remain good. The roster of those that are alive therefore has to be compared with a filter of the
  list of all, and the order of registration is kept by both.
-/
namespace ForeignHandles

namespace Host

/-! ## The record of listeners

Two entries of the record are about who listens, and `alive` reads them in order. -/

/-- The listener that a record says was registered. -/
def Record.registered? : Record → Option Listener
  | .registered l => some l
  | _ => none

/-- The listeners that are alive after a record. -/
def Record.enroll (roster : List Listener) : Record → List Listener
  | .registered l => roster ++ [l]
  | .dropped l => roster.filter (· ≠ l)
  | _ => roster

/-- The listeners that are alive after some records, in order of registration. -/
def alive (roster : List Listener) (records : List Record) : List Listener :=
  records.foldl Record.enroll roster

/-- A record is read in parts as it is read as a whole. -/
theorem alive_append (roster : List Listener) (first second : List Record) :
    alive roster (first ++ second) = alive (alive roster first) second := List.foldl_append

/-- Whether a listener is there and has not been dropped. -/
def undropped (h : Host) : Listener → Bool
  | .observer o => (h.observers.get? o).any (fun x => !x.dropped)
  | .cache k => (h.caches.get? k).any (fun x => !x.disposed)

/-- Whether a listener was made at some time. -/
def Knows (h : Host) : Listener → Prop
  | .observer o => o.index < h.observers.next
  | .cache k => k.index < h.caches.next

/-- The listeners are those on record: each was registered once, in the order of the list, a
listener was made if and only if it is on the list, and those without the mark are those that the
record leaves alive. -/
structure Enrolled (h : Host) (r : List Record) : Prop where
  /-- Registrations on record are the list of listeners, in order. -/
  registered : r.filterMap Record.registered? = h.listeners
  /-- Whoever was made is on the list. -/
  known : ∀ {l}, l ∈ h.listeners ↔ h.Knows l
  /-- Nobody is on it twice. -/
  nodup : h.listeners.Nodup
  /-- Those on it that have not been dropped are alive by the record. -/
  alive : h.listeners.filter h.undropped = alive [] r

variable {h h' : Host} {r rs : List Record}

/-! ## What an action does to the listeners

Registering and dropping are one constructor of `Step` each for observers and for caches. For all
other actions it is enough that they do not touch the list, the marks and the references given
out. -/

/-- What is in a cache has nothing to do with whether it was disposed of, -/
theorem undropped_putCache (h : Host) (k : Ref .cache) (cache : Cache (Ref .value)) :
    (h.putCache (some k) cache).undropped = h.undropped := by
  funext l
  cases l with
  | observer o => rfl
  | cache j =>
    simp only [undropped, putCache, Arena.get?_modify]
    split
    · cases h.caches.get? j <;> rfl
    · rfl

/-- nor with whether it was made. -/
theorem knows_putCache (h : Host) (k : Ref .cache) (cache : Cache (Ref .value)) (l : Listener) :
    (h.putCache (some k) cache).Knows l ↔ h.Knows l := by cases l <;> rfl

/-- Telling a cache something leaves the listeners as they are. -/
theorem notify_listeners (h : Host) (k : Ref .cache) (notice : Notice) :
    (h.notify k notice).listeners = h.listeners ∧
      (∀ l, (h.notify k notice).Knows l ↔ h.Knows l) ∧
      (h.notify k notice).undropped = h.undropped := by
  -- a cache that is not there takes nothing in
  cases hx : h.caches.get? k with
  | none =>
    rw [notify_of_none hx]
    exact ⟨rfl, fun _ => Iff.rfl, rfl⟩
  | some x =>
    rw [notify_of_get? hx]
    refine ⟨rfl, knows_putCache h k (x.cache.raise notice.event), ?_⟩
    exact undropped_putCache h k (x.cache.raise notice.event)

namespace Enrolled

/-- Nothing about listeners changes. -/
theorem keep (he : h.Enrolled r) (hlisteners : h'.listeners = h.listeners)
    (hknown : ∀ l, h'.Knows l ↔ h.Knows l) (hundropped : h'.undropped = h.undropped)
    (hregistered : rs.filterMap Record.registered? = [])
    (hroster : ∀ roster, Host.alive roster rs = roster) : h'.Enrolled (r ++ rs) where
  registered := by
    rw [List.filterMap_append, hregistered, List.append_nil, hlisteners]
    exact he.registered
  known {l} := by
    rw [hlisteners, hknown]
    exact he.known
  nodup := hlisteners ▸ he.nodup
  alive := by
    rw [hlisteners, hundropped, alive_append, hroster]
    exact he.alive

/-- A listener that was not there before is registered. -/
theorem register (he : h.Enrolled r) {l : Listener} (hlisteners : h'.listeners = h.listeners ++ [l])
    (hnew : ¬ h.Knows l) (hknown : ∀ j, h'.Knows j ↔ h.Knows j ∨ j = l)
    (hlive : h'.undropped l = true) (hothers : ∀ j, j ≠ l → h'.undropped j = h.undropped j) :
    h'.Enrolled (r ++ [.registered l]) := by
  -- what is on the list was made, and the new listener was not
  have hfresh : l ∉ h.listeners := fun hmem => hnew (he.known.1 hmem)
  refine ⟨?_, ?_, ?_, ?_⟩
  · rw [List.filterMap_append, he.registered, hlisteners]
    rfl
  · intro j
    rw [hlisteners, List.mem_append, List.mem_singleton, he.known, hknown]
  · rw [hlisteners, List.nodup_append]
    refine ⟨he.nodup, by simp, ?_⟩
    rintro j hj k hk rfl
    exact hfresh (List.mem_singleton.1 hk ▸ hj)
  · have hold : h.listeners.filter h'.undropped = h.listeners.filter h.undropped := by
      refine List.filter_congr fun j hj => hothers j ?_
      rintro rfl
      exact hfresh hj
    rw [hlisteners, List.filter_append, hold, he.alive, alive_append]
    simp [hlive, Host.alive, Record.enroll]

/-- A listener is dropped. -/
theorem drop (he : h.Enrolled r) {l : Listener} (hlisteners : h'.listeners = h.listeners)
    (hknown : ∀ j, h'.Knows j ↔ h.Knows j)
    (hundropped : ∀ j, h'.undropped j = (h.undropped j && decide (j ≠ l))) :
    h'.Enrolled (r ++ [.dropped l]) := by
  refine ⟨?_, ?_, hlisteners ▸ he.nodup, ?_⟩
  · rw [List.filterMap_append, he.registered, hlisteners]
    exact List.append_nil _
  · intro j
    rw [hlisteners, hknown]
    exact he.known
  -- one more filter
  · have hboth : h.listeners.filter h'.undropped =
        (h.listeners.filter h.undropped).filter (· ≠ l) := by
      rw [List.filter_filter]
      refine List.filter_congr fun j _ => ?_
      rw [hundropped, Bool.and_comm]
    rw [hlisteners, hboth, he.alive, alive_append]
    rfl

/-- An action that writes neither observers nor caches changes nothing about listeners, -/
theorem quiet (he : h.Enrolled r) (hlisteners : h'.listeners = h.listeners)
    (hobservers : h'.observers = h.observers) (hcaches : h'.caches = h.caches)
    (hregistered : rs.filterMap Record.registered? = [])
    (hroster : ∀ roster, Host.alive roster rs = roster) : h'.Enrolled (r ++ rs) := by
  refine he.keep hlisteners (fun l => ?_) ?_ hregistered hroster
  · cases l <;> simp only [Knows, hobservers, hcaches]
  · funext l
    cases l <;> simp only [undropped, hobservers, hcaches]

/-- and neither does one that works on what a cache contains. -/
theorem putCache (he : h.Enrolled r) (k : Ref .cache) (cache : Cache (Ref .value))
    (hregistered : rs.filterMap Record.registered? = [])
    (hroster : ∀ roster, Host.alive roster rs = roster) :
    (h.putCache (some k) cache).Enrolled (r ++ rs) :=
  he.keep rfl (knows_putCache h k cache) (undropped_putCache h k cache) hregistered hroster

end Enrolled

/-- **The record of listeners is right after every step** if it was before. -/
theorem enrolled_of_step {a : Action} (hstep : Step h a h' rs) (he : h.Enrolled r) :
    h'.Enrolled (r ++ rs) := by
  cases hstep with
  | @edit e users s hchange husers =>
    have hused : (users.map fun p => Record.used p.1 p.2).filterMap Record.registered? = [] := by
      refine List.filterMap_eq_nil_iff.2 fun x hx => ?_
      obtain ⟨p, -, rfl⟩ := List.mem_map.1 hx
      rfl
    refine he.quiet rfl rfl rfl hused fun roster => ?_
    clear hused husers hchange
    -- making users leaves the roster alone, however many there are
    induction users with
    | nil => rfl
    | cons p users ih => exact ih
  | addObserver =>
    -- the observer is new, and it is not dropped
    have hget := h.observers.get?_alloc { context := soleContext }
    refine he.register rfl (Nat.lt_irrefl _) (fun j => ?_) ?_ fun j hj => ?_
    · cases j with
      | observer p =>
        simp only [Knows, Listener.observer.injEq]
        exact h.observers.index_lt_next_alloc _ p
      | cache k => simp [Knows, addObserver]
    · simp only [undropped, addObserver]
      rw [hget, if_pos rfl]
      rfl
    · cases j with
      | observer p =>
        simp only [undropped, addObserver]
        rw [hget, if_neg fun heq => hj (by rw [heq]; rfl)]
      | cache k => rfl
  | @dropObserver o x hx hlive =>
    refine he.drop rfl (fun j => by cases j <;> rfl) fun j => ?_
    cases j with
    | observer p =>
      -- the mark is on this observer and on no other
      by_cases hp : p = o
      · subst hp
        simp [undropped, dropObserver, Arena.get?_modify, hx]
      · simp [undropped, dropObserver, Arena.get?_modify, hp]
    | cache k => simp [undropped, dropObserver]
  | createCache onDeleted onReplaced =>
    -- a new cache is registered as a new observer is
    have hget := h.caches.get?_alloc { context := soleContext, cache := { onDeleted, onReplaced } }
    refine he.register rfl (Nat.lt_irrefl _) (fun j => ?_) ?_ fun j hj => ?_
    · cases j with
      | observer p => simp [Knows, createCache]
      | cache k =>
        simp only [Knows, Listener.cache.injEq]
        exact h.caches.index_lt_next_alloc _ k
    · simp only [undropped, createCache]
      rw [hget]
      exact congrArg (Option.any _) (if_pos rfl)
    · cases j with
      | observer p => rfl
      | cache k =>
        simp only [undropped, createCache]
        rw [hget, if_neg fun heq => hj (by rw [heq]; rfl)]
  | @disposeCache k x hx hlive =>
    refine he.drop rfl (fun j => by cases j <;> rfl) fun j => ?_
    cases j with
    | observer p => simp [undropped, disposeCache]
    | cache i =>
      by_cases hi : i = k
      · subst hi
        simp [undropped, disposeCache, Arena.get?_modify, hx]
      · simp [undropped, disposeCache, Arena.get?_modify, hi]
  | insert handle hx hidle hv => exact he.putCache _ _ rfl fun _ => rfl
  | remove v place hx hidle => exact he.putCache _ _ rfl fun _ => rfl
  | resume handle hfront hx hs => exact he.putCache _ _ rfl fun _ => rfl
  | @tellCache k notice agenda hfront =>
    obtain ⟨hlisteners, hknown, hundropped⟩ := notify_listeners { h with agenda } k notice
    exact he.keep hlisteners hknown hundropped rfl fun _ => rfl
  | _ => exact he.quiet rfl rfl rfl rfl fun _ => rfl

/-- A new host has no listeners. -/
theorem enrolled_opened : opened.Enrolled [] where
  registered := rfl
  known {l} := by cases l <;> simp [opened, Knows, Store.createContext]
  nodup := List.nodup_nil
  alive := rfl

end Host

end ForeignHandles
