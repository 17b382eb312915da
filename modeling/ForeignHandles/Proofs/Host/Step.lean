import ForeignHandles.Proofs.Host.CacheCalls
import ForeignHandles.Proofs.Host.Run
import ForeignHandles.Proofs.Store.Rewire

/-!
  Everything that one action can do to a host with one context.

  `Step` lists the ways an action can go, with the host afterwards and what is left on record, and
  `step_act` says that there are no others.  This holds of hosts on which everything belongs to the
  one context (`Sole`), and every action leaves it so.  A property of runs is then proved once for
  each constructor of `Step` and carried over the run by `run_invariant`.

  The constructors of `Step` carry the guards under which an action goes that way, so an invariant
  need not look at the definition of an action again. Four of them are calls that come straight from
  a caller (`delete`, `replace`, `dispose` and the edits); the listeners have six, for coming, going
  and the calls on a cache; and the rest is the agenda, one constructor for each sort of job that is
  done and for each way in which a job comes to nothing.

  A value can begin to go in two places, for a caller or for the agenda. Both are the constructor
  `delete`: what follows is the same, except that the agenda has one job less.
-/
namespace ForeignHandles

/-- The context that a job is about. -/
def Job.context? : Job → Handle .context
  | .delete c _ => some c
  | .release c _ => some c
  | _ => none

namespace Host

/-- Everything on the host belongs to the one context. -/
structure Sole (h : Host) : Prop where
  /-- Every object says itself which context it is in. -/
  values : ∀ {v x}, h.store.values.get? v = some x → x.context = soleContext
  modules : ∀ {m x}, h.store.modules.get? m = some x → x.context = soleContext
  observers : ∀ {o x}, h.observers.get? o = some x → x.context = soleContext
  caches : ∀ {k x}, h.caches.get? k = some x → x.context = soleContext
  /-- A job says so if it deletes or releases a value; to tell a listener or wait for it, no
  context is needed. -/
  jobs : ∀ {job c}, job ∈ h.agenda → job.context? = some c → c = soleContext

/-- On a new host there is nothing that could belong elsewhere. -/
theorem sole_opened : opened.Sole where
  values h := by cases h
  modules h := by cases h
  observers h := by cases h
  caches h := by cases h
  jobs h := by cases h

variable {h : Host}

/-- In the one context are all values. -/
theorem Sole.containsValue (hs : h.Sole) (v : Ref .value) :
    h.store.containsValue soleContext v = h.store.values.contains v := by
  unfold Store.containsValue Arena.contains
  cases hv : h.store.values.get? v with
  | none => rfl
  | some x => simp [hs.values hv]

/-- One action, the host after it and what it leaves on record: every way that it can go. -/
inductive Step (h : Host) : Action → Host → List Record → Prop where
  /-- The store after an edit is a change of the store before, and the users that it makes are
  noted. -/
  | edit {e : Edit} {users : List (User × Ref .value)} {s : Store}
    (hchange : Store.Change soleContext h.store e.addsTo? users s)
    (husers : users = h.store.uses soleContext e) (hedit : s = h.store.edit soleContext e) :
    Step h (.edit e) { h with store := s } (users.map (fun p => .used p.1 p.2))
  /-- Whoever comes to listen, an observer or a cache, is noted as registered. -/
  | addObserver : Step h .addObserver (h.addObserver soleContext).2
    [.registered (.observer (h.addObserver soleContext).1)]
  /-- Dropping an observer twice, or one that was never there, is not noted. -/
  | dropObserver {o : Ref .observer} {x : Observer} (hx : h.observers.get? o = some x)
    (hlive : x.dropped = false) :
    Step h (.dropObserver o) (h.dropObserver o) [.dropped (.observer o)]
  | createCache (onDeleted onReplaced : Bool) : Step h (.createCache onDeleted onReplaced)
    (h.createCache (some soleContext) onDeleted onReplaced).2
    [.registered (.cache ⟨h.caches.next⟩)]
  /-- Nor is disposing of a cache twice. -/
  | disposeCache {k : Ref .cache} {x : BoundCache} (hx : h.caches.get? k = some x)
    (hlive : x.disposed = false) :
    Step h (.disposeCache (some k)) (h.disposeCache (some k)) [.dropped (.cache k)]
  /-- A handle comes into a cache that is there and idle, for a value that has none. -/
  | insert {k : Ref .cache} {x : BoundCache} {v : Ref .value} (handle : ExternalHandle)
    (hx : h.caches.get? k = some x) (hidle : x.cache.isDispatching = false)
    (hv : x.cache.mapping.get? v = none) :
    Step h (.cacheInsert (some k) (some v) handle)
      (h.putCache (some k) { x.cache with mapping := x.cache.mapping.insertNew v handle }) []
  /-- A removal is answered also for a value that has no handle. -/
  | remove {k : Ref .cache} {x : BoundCache} (v : Ref .value) (place : Bool)
    (hx : h.caches.get? k = some x) (hidle : x.cache.isDispatching = false) :
    Step h (.cacheRemove (some k) (some v) place)
      (h.putCache (some k) { x.cache with mapping := x.cache.mapping.erase v }) []
  /-- A value that is there begins to go, for a caller or for the agenda. -/
  | delete {a : Action} {v : Ref .value} {agenda : List Job}
    (hfront : a = .delete v ∧ agenda = h.agenda ∨
      a = .step ∧ h.agenda = .delete soleContext v :: agenda)
    (hv : h.store.values.contains v = true) :
    Step h a
      { h with
        agenda := h.announce soleContext (.deleted v) ++ .release soleContext v :: agenda } []
  /-- The uses are redirected at once, and then everyone is told. -/
  | replace {old new : Ref .value} (hne : old ≠ new)
    (hold : h.store.values.contains old = true) :
    Step h (.replaceAllUses old new)
      { h with
        store := h.store.rewire old (some new)
        agenda := h.announce soleContext (.replaced old new) ++ h.agenda } [.replaced old new]
  /-- The module itself goes when all that it owns has been dealt with. -/
  | dispose {m : Ref .module} {x : Module} (hm : h.store.modules.get? m = some x) :
    Step h (.disposeModule (some m))
      { h with agenda := x.owned.map (.delete soleContext) ++ .retire m :: h.agenda } []
  /-- An observer is told of a notice, with the store as it is then. -/
  | tellObserver {o : Ref .observer} {notice : Notice} {agenda : List Job}
    (hfront : h.agenda = .tell (.observer o) notice :: agenda) :
    Step h .step { h with agenda := .await o notice :: agenda }
      [.told (.observer o) notice h.store]
  /-- A cache takes the notice in, and may come to a callback by it. -/
  | tellCache {k : Ref .cache} {notice : Notice} {agenda : List Job}
    (hfront : h.agenda = .tell (.cache k) notice :: agenda) :
    Step h .step (notify { h with agenda } k notice) [.told (.cache k) notice h.store]
  /-- A cache that is waited for has come to its end. -/
  | settled {k : Ref .cache} {agenda : List Job} (hfront : h.agenda = .settle k :: agenda)
    (hidle : ∀ x, h.caches.get? k = some x → x.cache.isDispatching = false) :
    Step h .step { h with agenda } []
  /-- A value that is to be deleted is gone already. -/
  | skip {v : Ref .value} {agenda : List Job} (hfront : h.agenda = .delete soleContext v :: agenda)
    (hv : h.store.values.get? v = none) : Step h .step { h with agenda } []
  /-- Everyone has been told of a value, so it goes, and its arguments are next. -/
  | release {v : Ref .value} {x : Value} {agenda : List Job}
    (hfront : h.agenda = .release soleContext v :: agenda) (hv : h.store.values.get? v = some x) :
    Step h .step
      { h with
        store := h.store.release v
        agenda := x.arguments.map (.delete soleContext) ++ agenda } [.released v]
  /-- A value that is to be released is gone already. -/
  | vanish {v : Ref .value} {agenda : List Job}
    (hfront : h.agenda = .release soleContext v :: agenda) (hv : h.store.values.get? v = none) :
    Step h .step { h with store := h.store.release v, agenda } []
  /-- A module has been emptied, or never had anything. -/
  | retire {m : Ref .module} {agenda : List Job} (hfront : h.agenda = .retire m :: agenda) :
    Step h .step { h with store := h.store.retireModule m, agenda } []
  /-- An observer that was told is done. -/
  | heard {o : Ref .observer} {notice : Notice} {agenda : List Job}
    (handle : Option ExternalHandle) (hfront : h.agenda = .await o notice :: agenda) :
    Step h (.answer handle) { h with agenda } []
  /-- The consumer of a cache returns; the agenda goes on waiting until the cache is idle. -/
  | resume {k : Ref .cache} {x : BoundCache} {s : Stage (Ref .value)} {agenda : List Job}
    (handle : Option ExternalHandle) (hfront : h.agenda = .settle k :: agenda)
    (hx : h.caches.get? k = some x) (hs : x.cache.stage = some s) :
    Step h (.answer handle) (h.putCache (some k) (x.cache.resume handle)) []
  /-- Nothing happens: a look-up, an operation that is declined, a job that waits. -/
  | none (a : Action) : Step h a h []

/-! ## Every action goes one of these ways

One lemma for each action that has more than one way to go. An action that is declined leaves the
host as it is and nothing on record (`step_of_unchanged`); for most others the store stays and the
record is what the action notes by itself (`records_of_store_eq`). Values that leave the store are
noted besides, and only a release makes one leave. -/

/-- If the store stays, no value leaves it. -/
theorem records_of_store_eq {a : Action} (hstore : (h.act a).store = h.store) :
    h.records a = h.noted a := by
  rw [records, hstore, departures_eq_nil fun _ hv => hv]
  exact List.append_nil _

/-- An action that changes nothing and notes nothing is one of the ways. -/
theorem step_of_unchanged {a : Action} (hact : h.act a = h) (hnoted : h.noted a = []) :
    Step h a (h.act a) (h.records a) := by
  rw [records_of_store_eq (by rw [hact]), hact, hnoted]
  exact .none a

/-- Nothing but the one value leaves a store from which it is released. -/
theorem departures_release {s : Store} {v : Ref .value} (hv : s.values.contains v = true) :
    s.departures (s.release v) = [v] := by
  -- of the values in the store, it is this one that is missing afterwards
  have hgone (w : Ref .value) (hw : w ∈ s.values.refs) :
      (!(s.release v).values.contains w) = (w == v) := by
    have hthere := (s.values.mem_refs_iff w).1 hw
    by_cases hwv : w = v
    · simp [Arena.contains, Store.get?_values_release, hwv]
    · obtain ⟨x, hx⟩ := Option.isSome_iff_exists.1 hthere
      simp [Arena.contains, Store.get?_values_release, hwv, hx]
  rw [Store.departures, List.filter_congr hgone, List.filter_beq, s.values.nodup_refs.count,
    if_pos ((s.values.mem_refs_iff v).2 hv)]
  rfl

/-- Nothing leaves a store when a value is released that is gone. -/
theorem departures_vanish {s : Store} {v : Ref .value} (hv : s.values.get? v = none) :
    s.departures (s.release v) = [] := by
  refine departures_eq_nil fun w hw => ?_
  obtain ⟨x, hx⟩ := Option.isSome_iff_exists.1 hw
  have hwv : w ≠ v := by
    rintro rfl
    rw [hv] at hx
    cases hx
  simp [Arena.contains, Store.get?_values_release, hwv, hx]

/-- Nobody is held by jobs that are about no listener. -/
theorem liveListeners_of_agenda {jobs agenda : List Job} (hagenda : h.agenda = jobs ++ agenda)
    (hjobs : ∀ job ∈ jobs, job.listener? = none) (c : Ref .context) :
    ({ h with agenda } : Host).liveListeners c = h.liveListeners c := by
  -- whether a listener is held depends on the jobs about listeners, and all of these are left
  have hheld (l : Listener) : ({ h with agenda } : Host).isHeld l = h.isHeld l := by
    have hnone : jobs.any (fun job => job.listener? = some l) = false :=
      List.any_eq_false.2 fun job hjob => by simp [hjobs job hjob]
    simp only [isHeld, hagenda, List.any_append, hnone, Bool.false_or]
  have hlistens : ({ h with agenda } : Host).listensTo c = h.listensTo c := by
    funext l
    cases l <;> simp only [listensTo, hheld]
  simp only [liveListeners, hlistens]

/-- A job that is about no listener may be taken off the agenda before listeners are told: they
are the same with or without it. -/
theorem announce_of_front {job : Job} {agenda : List Job} (hfront : h.agenda = job :: agenda)
    (hjob : job.listener? = none) (c : Ref .context) (notice : Notice) :
    ({ h with agenda } : Host).announce c notice = h.announce c notice := by
  have hsplit : h.agenda = [job] ++ agenda := hfront
  have hlive := liveListeners_of_agenda hsplit (by simp [hjob]) c
  simp only [announce, hlive]

/-- An edit is a change of the links, and nothing leaves the store by it. -/
theorem step_edit (hs : h.Sole) (e : Edit) :
    Step h (.edit e) (h.act (.edit e)) (h.records (.edit e)) := by
  have hchange : Store.Change soleContext h.store e.addsTo? (h.store.uses soleContext e)
      (h.store.edit soleContext e) := Store.change_edit (fun m x hm => hs.modules hm) e
  have hrecords : h.records (.edit e) =
      (h.store.uses soleContext e).map (fun p => .used p.1 p.2) := by
    -- values stay where they are, so none of them leaves
    have hnone : h.store.departures (h.store.edit soleContext e) = [] :=
      departures_eq_nil fun v hv => hchange.contains hv
    simp only [records, act, noted, hnone, List.map_nil, List.append_nil]
  rw [hrecords]
  exact .edit hchange rfl rfl

/-- Dropping an observer counts if it is there and was not dropped. Otherwise the observers are
written back as they were. -/
theorem step_dropObserver (o : Ref .observer) :
    Step h (.dropObserver o) (h.act (.dropObserver o)) (h.records (.dropObserver o)) := by
  cases hx : h.observers.get? o with
  | none =>
    refine step_of_unchanged ?_ (by simp [noted, hx])
    simp only [act, dropObserver, Arena.modify_of_none hx]
  | some x =>
    cases hlive : x.dropped with
    | true =>
      refine step_of_unchanged ?_ (by simp [noted, hx, hlive])
      have hsame : h.observers.modify o (fun y => { y with dropped := true }) = h.observers :=
        Arena.modify_of_get? hx (by rw [← hlive])
      simp only [act, dropObserver, hsame]
    | false =>
      rw [records_of_store_eq rfl]
      simp only [noted, hx, Option.any_some, hlive]
      exact .dropObserver hx hlive

/-- The same for a cache, and nothing is done without one. -/
theorem step_disposeCache (k : Handle .cache) :
    Step h (.disposeCache k) (h.act (.disposeCache k)) (h.records (.disposeCache k)) := by
  cases k with
  | none => exact step_of_unchanged rfl rfl
  | some k =>
    cases hx : h.caches.get? k with
    | none =>
      refine step_of_unchanged ?_ (by simp [noted, hx])
      simp only [act, disposeCache, Arena.modify_of_none hx]
    | some x =>
      cases hlive : x.disposed with
      | true =>
        refine step_of_unchanged ?_ (by simp [noted, hx, hlive])
        have hsame : h.caches.modify k (fun y => { y with disposed := true }) = h.caches :=
          Arena.modify_of_get? hx (by rw [← hlive])
        simp only [act, disposeCache, hsame]
      | false =>
        rw [records_of_store_eq rfl]
        simp only [noted, Option.filter_some, hx, Option.any_some, hlive]
        exact .disposeCache hx hlive

/-- An insertion works on a cache that is there and idle, and on a key without a handle. -/
theorem step_cacheInsert (k : Handle .cache) (v : Handle .value) (handle : ExternalHandle) :
    Step h (.cacheInsert k v handle) (h.act (.cacheInsert k v handle))
      (h.records (.cacheInsert k v handle)) := by
  rcases cacheInsert_cases h k v handle with
    ⟨e, hfail⟩ | ⟨k, x, v, rfl, rfl, hhandle, hx, hidle, hv⟩
  · exact step_of_unchanged (by simp only [act, hfail]) rfl
  · have hinsert : h.act (.cacheInsert (some k) (some v) handle) =
        h.putCache (some k)
          { x.cache with mapping := x.cache.mapping.insertNew v handle } := by
      simp only [act, cacheInsert_of_absent hx hidle hv hhandle]
    rw [records_of_store_eq (by rw [hinsert]; rfl), hinsert]
    exact .insert handle hx hidle hv

/-- A removal works on a cache that is there and idle. -/
theorem step_cacheRemove (k : Handle .cache) (v : Handle .value) (place : Bool) :
    Step h (.cacheRemove k v place) (h.act (.cacheRemove k v place))
      (h.records (.cacheRemove k v place)) := by
  rcases cacheRemove_cases h k v place with ⟨e, hfail⟩ | ⟨k, x, v, rfl, rfl, hx, hidle⟩
  · exact step_of_unchanged (by simp only [act, hfail]) rfl
  · have hremove : h.act (.cacheRemove (some k) (some v) place) =
        h.putCache (some k) { x.cache with mapping := x.cache.mapping.erase v } := by
      simp only [act, cacheRemove_of_idle hx hidle]
    rw [records_of_store_eq (by rw [hremove]; rfl), hremove]
    exact .remove v place hx hidle

/-- A value that is there begins to go; one that is not is left to rest. -/
theorem step_delete (hs : h.Sole) (v : Ref .value) :
    Step h (.delete v) (h.act (.delete v)) (h.records (.delete v)) := by
  cases hv : h.store.values.contains v with
  | false =>
    exact step_of_unchanged (by simp [act, delete, hs.containsValue, hv]) rfl
  | true =>
    have hact : h.act (.delete v) =
        { h with
          agenda := h.announce soleContext (.deleted v) ++
            .release soleContext v :: h.agenda } := by
      simp [act, delete, hs.containsValue, hv]
    rw [records_of_store_eq (by rw [hact]), hact]
    exact .delete (.inl ⟨rfl, rfl⟩) hv

/-- Replacing has an effect between two values of which the old one is there. Nothing leaves the
store: the uses are redirected, and the old value stays. -/
theorem step_replaceAllUses (hs : h.Sole) (old new : Ref .value) :
    Step h (.replaceAllUses old new) (h.act (.replaceAllUses old new))
      (h.records (.replaceAllUses old new)) := by
  -- the guards of the call, in one condition
  by_cases heffect : old ≠ new ∧ h.store.values.contains old = true
  · obtain ⟨hne, hold⟩ := heffect
    have hact : h.act (.replaceAllUses old new) =
        { h with
          store := h.store.rewire old (some new)
          agenda := h.announce soleContext (.replaced old new) ++ h.agenda } := by
      simp [act, replaceAllUses, hs.containsValue, hne, hold]
    -- redirected values are still there
    have hkept : h.store.departures (h.store.rewire old (some new)) = [] := by
      refine departures_eq_nil fun v hv => ?_
      simpa [Arena.contains, Store.get?_values_rewire] using hv
    rw [records, hact, hkept]
    simp only [noted, hs.containsValue, hne, hold, ne_eq, not_false_eq_true, and_self, if_true]
    exact .replace hne hold
  -- one of them fails, and which one does not matter
  · refine step_of_unchanged ?_ (by simp only [noted, hs.containsValue, if_neg heffect])
    simp only [act, replaceAllUses, hs.containsValue]
    split
    · rfl
    · rename_i hne
      rw [if_neg fun hold => heffect ⟨hne, hold⟩]

/-- A module that is there puts its values on the agenda, and itself behind them. -/
theorem step_disposeModule (hs : h.Sole) (m : Handle .module) :
    Step h (.disposeModule m) (h.act (.disposeModule m)) (h.records (.disposeModule m)) := by
  cases m with
  | none => exact step_of_unchanged rfl rfl
  | some m =>
    cases hm : h.store.modules.get? m with
    | none =>
      exact step_of_unchanged (by simp [act, disposeModule, Store.module?, hm]) rfl
    | some x =>
      have hact : h.act (.disposeModule (some m)) =
          { h with agenda := x.owned.map (.delete soleContext) ++ .retire m :: h.agenda } := by
        simp [act, disposeModule, Store.module?, hm, hs.modules hm]
      rw [records_of_store_eq (by rw [hact]), hact]
      exact .dispose hm

/-- A cache that is told something does not write to the store. -/
theorem store_notify (h : Host) (k : Ref .cache) (notice : Notice) :
    (h.notify k notice).store = h.store := by
  unfold notify
  split
  · rfl
  · simp only
    split <;> rfl

/-- The job in front is done, or it waits. The cases are the sorts of jobs, and for values and
caches whether they are what the job expects. -/
theorem step_step (hs : h.Sole) : Step h .step (h.act .step) (h.records .step) := by
  cases hagenda : h.agenda with
  | nil =>
    exact step_of_unchanged (by simp [act, step, hagenda]) (by simp only [noted, hagenda])
  | cons job agenda =>
    cases job with
    | tell l notice =>
      cases l with
      | observer o =>
        have hact : h.act .step = { h with agenda := .await o notice :: agenda } := by
          simp [act, step, hagenda]
        rw [records_of_store_eq (by rw [hact]), hact]
        simp only [noted, hagenda]
        exact .tellObserver hagenda
      | cache k =>
        have hact : h.act .step = notify { h with agenda } k notice := by
          simp [act, step, hagenda]
        rw [records_of_store_eq (by rw [hact, store_notify]), hact]
        simp only [noted, hagenda]
        exact .tellCache hagenda
    | await o notice =>
      exact step_of_unchanged (by simp [act, step, hagenda]) (by simp only [noted, hagenda])
    | settle k =>
      -- a job that waits for a busy cache stays where it is
      cases hidle : (h.caches.get? k).any (fun x => x.cache.isDispatching) with
      | true =>
        exact step_of_unchanged (by simp [act, step, hagenda, hidle])
          (by simp only [noted, hagenda])
      | false =>
        have hact : h.act .step = { h with agenda } := by simp [act, step, hagenda, hidle]
        rw [records_of_store_eq (by rw [hact]), hact]
        simp only [noted, hagenda]
        refine .settled hagenda fun x hx => ?_
        simpa [hx] using hidle
    | delete c v =>
      obtain rfl : c = soleContext := hs.jobs (hagenda ▸ List.mem_cons_self) rfl
      -- the job itself keeps nobody alive, so it does not matter that it is off the agenda
      have hannounce := announce_of_front hagenda rfl soleContext (.deleted v)
      cases hv : h.store.values.contains v with
      | true =>
        have hact : h.act .step =
            { h with
              agenda := h.announce soleContext (.deleted v) ++
                .release soleContext v :: agenda } := by
          simp [act, step, hagenda, delete, hs.containsValue, hv, hannounce]
        rw [records_of_store_eq (by rw [hact]), hact]
        simp only [noted, hagenda]
        exact .delete (.inr ⟨rfl, hagenda⟩) hv
      | false =>
        have hact : h.act .step = { h with agenda } := by
          simp [act, step, hagenda, delete, hs.containsValue, hv]
        rw [records_of_store_eq (by rw [hact]), hact]
        simp only [noted, hagenda]
        exact .skip hagenda (by simpa [Arena.contains] using hv)
    | release c v =>
      -- the context of a job is the one that there is
      obtain rfl : c = soleContext := hs.jobs (hagenda ▸ List.mem_cons_self) rfl
      cases hv : h.store.values.get? v with
      | some x =>
        have hact : h.act .step =
            { h with
              store := h.store.release v
              agenda := x.arguments.map (.delete soleContext) ++ agenda } := by
          simp [act, step, hagenda, hv]
        rw [records, hact, departures_release (by simp [Arena.contains, hv])]
        simp only [noted, hagenda]
        exact .release hagenda hv
      | none =>
        have hact : h.act .step = { h with store := h.store.release v, agenda } := by
          simp [act, step, hagenda, hv]
        rw [records, hact, departures_vanish hv]
        simp only [noted, hagenda]
        exact .vanish hagenda hv
    | retire m =>
      have hact : h.act .step = { h with store := h.store.retireModule m, agenda } := by
        simp [act, step, hagenda]
      have hkept : h.store.departures (h.store.retireModule m) = [] :=
        departures_eq_nil fun v hv => hv
      rw [records, hact, hkept]
      simp only [noted, hagenda]
      exact .retire hagenda

/-- An answer that a cache waits for goes to the cache. -/
theorem answer_of_settle {k : Ref .cache} {agenda : List Job}
    (hagenda : h.agenda = .settle k :: agenda) (handle : Option ExternalHandle) :
    h.answer handle =
      { h with
        caches := h.caches.modify k (fun x => { x with cache := x.cache.resume handle }) } := by
  cases h
  simp only at hagenda
  subst hagenda
  rfl

/-- An answer is for the job in front if that one waits for an answer. If it does not, or its
cache has no callback running, the answer is lost. -/
theorem step_answer (handle : Option ExternalHandle) :
    Step h (.answer handle) (h.act (.answer handle)) (h.records (.answer handle)) := by
  cases hagenda : h.agenda with
  | nil => exact step_of_unchanged (by simp [act, answer, hagenda]) rfl
  | cons job agenda =>
    cases job with
    | await o notice =>
      have hact : h.act (.answer handle) = { h with agenda } := by simp [act, answer, hagenda]
      rw [records_of_store_eq (by rw [hact]), hact]
      exact .heard handle hagenda
    | settle k =>
      have hact : h.act (.answer handle) = _ := answer_of_settle hagenda handle
      cases hx : h.caches.get? k with
      | none =>
        rw [Arena.modify_of_none hx] at hact
        exact step_of_unchanged hact rfl
      | some x =>
        cases hstage : x.cache.stage with
        | none =>
          -- no callback of the cache is running
          have hsame : { x with cache := x.cache.resume handle } = x := by
            rw [Cache.resume_of_idle hstage]
          rw [Arena.modify_of_get? hx hsame] at hact
          exact step_of_unchanged hact rfl
        | some s =>
          have hput : h.act (.answer handle) = h.putCache (some k) (x.cache.resume handle) := by
            refine hact.trans ?_
            simp only [putCache]
            -- the cache in the arena is the one that was looked at
            rw [Arena.modify_congr]
            intro y hy
            obtain rfl : x = y := by simpa [hx] using hy
            rfl
          rw [records_of_store_eq (by rw [hput]; rfl), hput]
          exact .resume handle hagenda hx hstage
    | _ => exact step_of_unchanged (by simp [act, answer, hagenda]) rfl

/-- **Every action goes one of these ways**, on a host on which everything belongs to the one
context. -/
theorem step_act (hs : h.Sole) (a : Action) : Step h a (h.act a) (h.records a) := by
  cases a with
  | edit e => exact step_edit hs e
  | delete v => exact step_delete hs v
  | replaceAllUses old new => exact step_replaceAllUses hs old new
  | disposeModule m => exact step_disposeModule hs m
  | addObserver =>
    rw [records_of_store_eq rfl]
    exact .addObserver
  | dropObserver o => exact step_dropObserver o
  | createCache onDeleted onReplaced =>
    rw [records_of_store_eq rfl]
    exact .createCache onDeleted onReplaced
  | disposeCache k => exact step_disposeCache k
  | cacheLookup k v place => exact step_of_unchanged rfl rfl
  | cacheInsert k v handle => exact step_cacheInsert k v handle
  | cacheRemove k v place => exact step_cacheRemove k v place
  | step => exact step_step hs
  | answer handle => exact step_answer handle

/-! ## Everything stays in the context

`Sole` is kept by all parts of a host: the agenda, the caches, the store. The lemmas are about the
changes, not about the actions; `sole_of_step` puts them together. At the end are the induction
principles for runs that the rest of the development uses. -/

/-- What telling a cache does: the cache takes the notification in, and if it stops being idle then
the agenda waits for it. -/
theorem notify_of_get? {k : Ref .cache} {x : BoundCache} (hx : h.caches.get? k = some x)
    (notice : Notice) :
    h.notify k notice =
      { h with
        caches := h.caches.modify k (fun y => { y with cache := x.cache.raise notice.event })
        agenda :=
          (if !x.cache.isDispatching && (x.cache.raise notice.event).isDispatching
            then [.settle k] else []) ++ h.agenda } := by
  simp only [notify, hx]
  split <;> rfl

/-- A cache that is gone hears nothing. -/
theorem notify_of_none {k : Ref .cache} (hx : h.caches.get? k = none) (notice : Notice) :
    h.notify k notice = h := by
  simp only [notify, hx]

/-- The agenda waits for the cache, or it is as before. -/
theorem agenda_notify (h : Host) (k : Ref .cache) (notice : Notice) :
    (h.notify k notice).agenda = h.agenda ∨
      (h.notify k notice).agenda = .settle k :: h.agenda := by
  cases hx : h.caches.get? k with
  | none =>
    rw [notify_of_none hx]
    exact .inl rfl
  | some x =>
    rw [notify_of_get? hx]
    simp only
    split
    · exact .inr rfl
    · exact .inl rfl

namespace Sole

/-- The agenda may be any list of jobs in the context. -/
theorem withAgenda (hs : h.Sole) {agenda : List Job}
    (hjobs : ∀ {job c}, job ∈ agenda → job.context? = some c → c = soleContext) :
    ({ h with agenda } : Host).Sole := { hs with jobs := hjobs }

/-- One job less does no harm. -/
theorem tail (hs : h.Sole) {job : Job} {agenda : List Job} (hfront : h.agenda = job :: agenda) :
    ({ h with agenda } : Host).Sole :=
  hs.withAgenda fun hjob => hs.jobs (hfront ▸ List.mem_cons_of_mem _ hjob)

/-- More jobs may come in front. -/
theorem push (hs : h.Sole) (jobs : List Job)
    (hjobs : ∀ {job c}, job ∈ jobs → job.context? = some c → c = soleContext) :
    ({ h with agenda := jobs ++ h.agenda } : Host).Sole := by
  refine hs.withAgenda fun {job c} hjob hc => ?_
  rcases List.mem_append.1 hjob with hnew | hold
  · exact hjobs hnew hc
  · exact hs.jobs hold hc

/-- What is cached has no context; the cache keeps its own. -/
theorem putCache (hs : h.Sole) (k : Ref .cache) (cache : Cache (Ref .value)) :
    (h.putCache (some k) cache).Sole where
  values := hs.values
  modules := hs.modules
  observers := hs.observers
  caches {j x} hx := by
    simp only [Host.putCache, Arena.get?_modify] at hx
    split at hx
    -- this cache has the context from before, whatever its mapping is now
    · obtain ⟨y, hy, rfl⟩ := Option.map_eq_some_iff.1 hx
      exact hs.caches (x := y) hy
    · exact hs.caches hx
  jobs := hs.jobs

/-- The store may change if what is in it stays in the context. -/
theorem withStore (hs : h.Sole) {s : Store}
    (hvalues : ∀ {v x}, s.values.get? v = some x → x.context = soleContext)
    (hmodules : ∀ {m x}, s.modules.get? m = some x → x.context = soleContext) :
    ({ h with store := s } : Host).Sole := { hs with values := hvalues, modules := hmodules }

end Sole

/-- To tell a listener is not about a context. -/
theorem context?_of_mem_announce {c : Ref .context} {notice : Notice} {job : Job}
    (hjob : job ∈ h.announce c notice) : job.context? = none := by
  obtain ⟨l, -, rfl⟩ := List.mem_map.1 hjob
  rfl

/-- The values of a module or function are deleted in the one context. -/
theorem context_of_mem_map_delete {vs : List (Ref .value)} {job : Job} {c : Ref .context}
    (hjob : job ∈ vs.map (.delete soleContext)) (hc : job.context? = some c) :
    c = soleContext := by
  obtain ⟨v, -, rfl⟩ := List.mem_map.1 hjob
  exact (Option.some.inj hc).symm

namespace Sole

/-- Telling the listeners of any host adds no job that is about a context. -/
theorem announce (hs : h.Sole) (g : Host) (notice : Notice) :
    ({ h with agenda := g.announce soleContext notice ++ h.agenda } : Host).Sole := by
  refine hs.push _ fun hjob hc => ?_
  rw [context?_of_mem_announce hjob] at hc
  cases hc

/-- New values and modules of an edit are in the context of the edit. -/
theorem edit (hs : h.Sole) {home : Handle .module} {users : List (User × Ref .value)} {s : Store}
    (hchange : Store.Change soleContext h.store home users s) :
    ({ h with store := s } : Host).Sole := by
  refine hs.withStore (fun {v y} hy => ?_) fun {m y} hy => ?_
  -- values that were there have kept their context
  · cases hx : h.store.values.get? v with
    | none => exact hchange.value_context hs.modules hy hx
    | some x =>
      obtain ⟨z, hz, hcontext, -⟩ := hchange.kept hx
      obtain rfl : y = z := by simpa [hy] using hz
      exact hcontext.trans (hs.values hx)
  · exact hchange.module_context hs.modules hy

/-- Redirected values stay where they are, -/
theorem rewire (hs : h.Sole) (old : Ref .value) (new : Handle .value) :
    ({ h with store := h.store.rewire old new } : Host).Sole := by
  refine hs.withStore (fun {v y} hy => ?_) hs.modules
  rw [Store.get?_values_rewire] at hy
  obtain ⟨x, hx, rfl⟩ := Option.map_eq_some_iff.1 hy
  rw [Value.context_redirect]
  exact hs.values hx

/-- and what a release leaves behind is where it was. -/
theorem release (hs : h.Sole) (v : Ref .value) :
    ({ h with store := h.store.release v } : Host).Sole := by
  refine hs.withStore (fun {w y} hy => ?_) fun {m y} hy => ?_
  · rw [Store.get?_values_release] at hy
    split at hy
    · cases hy
    · obtain ⟨x, hx, rfl⟩ := Option.map_eq_some_iff.1 hy
      rw [Value.context_redirect]
      exact hs.values hx
  · rw [Store.get?_modules_release] at hy
    split at hy
    · obtain ⟨x, hx, rfl⟩ := Option.map_eq_some_iff.1 hy
      exact hs.modules (x := x) hx
    · exact hs.modules hy

/-- A module that goes leaves the others in their context. -/
theorem retire (hs : h.Sole) (m : Ref .module) :
    ({ h with store := h.store.retireModule m } : Host).Sole := by
  -- modules that are left were there before
  refine hs.withStore hs.values fun {n y} hy => ?_
  simp only [Store.retireModule, Arena.get?_erase] at hy
  split at hy
  · cases hy
  · exact hs.modules hy

/-- A cache that is told something keeps its context, and waiting for it is not about any. -/
theorem notify (hs : h.Sole) (k : Ref .cache) (notice : Notice) : (h.notify k notice).Sole := by
  cases hx : h.caches.get? k with
  | none => rwa [notify_of_none hx]
  | some x =>
    rw [notify_of_get? hx]
    -- the one job that may come in front is the wait for the cache
    refine (hs.putCache k (x.cache.raise notice.event)).push _ fun hjob hc => ?_
    split at hjob
    · obtain rfl := List.mem_singleton.1 hjob
      cases hc
    · cases hjob

end Sole

/-- Everything is in the context after an action if it was before. -/
theorem sole_of_step {h' : Host} {a : Action} {rs : List Record} (hstep : Step h a h' rs)
    (hs : h.Sole) : h'.Sole := by
  cases hstep with
  | edit hchange husers => exact hs.edit hchange
  | addObserver =>
    refine { hs with observers := fun {o x} hx => ?_ }
    simp only [addObserver, Arena.get?_alloc] at hx
    split at hx
    · cases hx
      rfl
    · exact hs.observers hx
  | @dropObserver o x hx hlive =>
    refine { hs with observers := fun {p y} hy => ?_ }
    simp only [dropObserver, Arena.get?_modify] at hy
    split at hy
    · obtain ⟨z, hz, rfl⟩ := Option.map_eq_some_iff.1 hy
      exact hs.observers (x := z) hz
    · exact hs.observers hy
  | createCache onDeleted onReplaced =>
    refine { hs with caches := fun {k x} hx => ?_ }
    simp only [createCache, Arena.get?_alloc] at hx
    split at hx
    · cases hx
      rfl
    · exact hs.caches hx
  | @disposeCache k x hx hlive =>
    refine { hs with caches := fun {j y} hy => ?_ }
    simp only [disposeCache, Arena.get?_modify] at hy
    split at hy
    · obtain ⟨z, hz, rfl⟩ := Option.map_eq_some_iff.1 hy
      exact hs.caches (x := z) hz
    · exact hs.caches hy
  | insert handle hx hidle hv => exact hs.putCache _ _
  | remove v place hx hidle => exact hs.putCache _ _
  | @delete a v agenda hfront hv =>
    -- the job is off the agenda, if there was one
    have hrest : ({ h with agenda } : Host).Sole := by
      rcases hfront with ⟨-, rfl⟩ | ⟨-, hfront⟩
      · exact hs
      · exact hs.tail hfront
    -- the release is in the one context, and announcements are in none
    have hrelease : ({ h with agenda := .release soleContext v :: agenda } : Host).Sole := by
      refine hrest.push [.release soleContext v] fun hjob hc => ?_
      obtain rfl := List.mem_singleton.1 hjob
      exact (Option.some.inj hc).symm
    exact hrelease.announce h (.deleted v)
  | @replace old new hne hold => exact (hs.rewire old (some new)).announce h (.replaced old new)
  | @dispose m x hm =>
    have hretire : ({ h with agenda := .retire m :: h.agenda } : Host).Sole := by
      refine hs.push [.retire m] fun hjob hc => ?_
      obtain rfl := List.mem_singleton.1 hjob
      cases hc
    exact hretire.push _ context_of_mem_map_delete
  | @tellObserver o notice agenda hfront =>
    refine (hs.tail hfront).push [.await o notice] fun hjob hc => ?_
    obtain rfl := List.mem_singleton.1 hjob
    cases hc
  | @tellCache k notice agenda hfront => exact (hs.tail hfront).notify k notice
  | settled hfront hidle => exact hs.tail hfront
  | skip hfront hv => exact hs.tail hfront
  | @release v x agenda hfront hv =>
    exact ((hs.tail hfront).release v).push _ context_of_mem_map_delete
  | @vanish v agenda hfront hv => exact (hs.tail hfront).release v
  | @retire m agenda hfront => exact (hs.tail hfront).retire m
  | heard handle hfront => exact hs.tail hfront
  | resume handle hfront hx hstage => exact hs.putCache _ _
  | none => exact hs

/-- So it is after any number of actions. -/
theorem sole_run (hs : h.Sole) (actions : List Action) : (h.run actions).Sole := by
  induction actions generalizing h with
  | nil => exact hs
  | cons a actions ih => exact ih (sole_of_step (step_act hs a) hs)

/-- What every action keeps that meets the conditions of a run holds at the end of the run, about
the host and all that the run has made. -/
theorem gather_invariant {α : Type} {made : Host → Action → List α} {ok : Host → Action → Prop}
    {P : Host → List α → Prop}
    (hstep : ∀ h r a, h.Sole → ok h a → P h r → P (h.act a) (r ++ made h a))
    {r : List α} {actions : List Action} (hs : h.Sole) (hok : Along ok h actions)
    (hstart : P h r) : P (h.run actions) (r ++ h.gather made actions) := by
  induction actions generalizing h r with
  | nil => simpa [gather] using hstart
  | cons a actions ih =>
    -- the first action is a step, and the rest of the run starts where it has led
    have hrest := ih (sole_of_step (step_act hs a) hs) hok.2 (hstep h r a hs hok.1 hstart)
    rw [run_cons, gather, ← List.append_assoc]
    exact hrest

/-- **Runs inherit what steps preserve.** The same with what is left on record, one way of an
action at a time. -/
theorem run_invariant {ok : Host → Action → Prop} {P : Host → List Record → Prop}
    (hstep : ∀ h r a h' rs, h.Sole → ok h a → Step h a h' rs → P h r → P h' (r ++ rs))
    {r : List Record} {actions : List Action} (hs : h.Sole) (hok : Along ok h actions)
    (hstart : P h r) : P (h.run actions) (r ++ h.history actions) := by
  rw [history_eq_gather]
  exact gather_invariant (fun h r a hs hok => hstep h r a _ _ hs hok (step_act hs a)) hs hok hstart

/-- Actions are edits or they are not, which saves a match with thirty cases. -/
theorem Action.eq_edit_or_ne (a : Action) : (∃ e, a = .edit e) ∨ ∀ e, a ≠ .edit e := by
  cases a with
  | edit e => exact .inl ⟨e, rfl⟩
  | _ => simp

/-- Besides edits, an action redirects uses or leaves the objects alone, or it does a job, which may
release a value or retire a module. -/
theorem store_act {P : Store → Prop} {a : Action}
    (hrewire : ∀ {s} old new, P s → P (s.rewire old (some new)))
    (hrelease : ∀ {s} v, P s → P (s.release v))
    (hretire : ∀ {s} m, a = .step → P s → P (s.retireModule m))
    (hs : h.Sole) (ha : ∀ e, a ≠ .edit e) (hP : P h.store) : P (h.act a).store := by
  have hstep := step_act hs a
  -- only the step matters from here on
  generalize h.act a = h' at hstep
  generalize h.records a = rs at hstep
  cases hstep with
  | edit hchange husers hedit => exact absurd rfl (ha _)
  | replace hne hold => exact hrewire _ _ hP
  | release hfront hv => exact hrelease _ hP
  | vanish hfront hv => exact hrelease _ hP
  | retire hfront => exact hretire _ rfl hP
  | tellCache hfront =>
    rw [store_notify]
    exact hP
  | _ => exact hP

/-- Besides edits, an action redirects wrappers at most, and the rest of the metadata stays. -/
theorem metadata_act {β : Type} {view : Metadata → β}
    (hview : ∀ old new m, view (Metadata.redirect old new m) = view m) (hs : h.Sole) {a : Action}
    (ha : ∀ e, a ≠ .edit e) (d : Ref .metadata) :
    ((h.act a).store.metadata.get? d).map view = (h.store.metadata.get? d).map view := by
  refine store_act (P := fun t => (t.metadata.get? d).map view = (h.store.metadata.get? d).map view)
    (fun {s} old new hP => ?_) (fun {s} v hP => ?_) (fun m _ hP => hP) hs ha rfl
  · have hget : (s.rewire old (some new)).metadata.get? d =
        (s.metadata.get? d).map (Metadata.redirect old (some new)) := Arena.get?_map ..
    rw [← hP, hget, Option.map_map]
    exact Option.map_congr fun m _ => hview old (some new) m
  · rw [← hP, Store.get?_metadata_release, Option.map_map]
    exact Option.map_congr fun m _ => hview v none m

/-- What every operation on the store keeps holds of the store after a run, where edits may count on
the conditions of the run. -/
theorem store_run_along {P : Store → Prop} {ok : Host → Action → Prop} {actions : List Action}
    (hedit : ∀ {h : Host} {e}, h.Sole → ok h (.edit e) → P h.store →
      P (h.store.edit soleContext e))
    (hrewire : ∀ {s} old new, P s → P (s.rewire old (some new)))
    (hrelease : ∀ {s} v, P s → P (s.release v))
    (hretire : ∀ {s} m, P s → P (s.retireModule m))
    (hs : h.Sole) (hok : Along ok h actions) (hstart : P h.store) :
    P (h.run actions).store := by
  induction actions generalizing h with
  | nil => exact hstart
  | cons a actions ih =>
    refine ih (sole_of_step (step_act hs a) hs) hok.2 ?_
    cases a with
    | edit e => exact hedit hs hok.1 hstart
    | _ => exact store_act hrewire hrelease (fun m _ => hretire m) hs (by simp) hstart

/-- What every operation on the store keeps holds of the store after every run. -/
theorem store_run {P : Store → Prop}
    (hedit : ∀ {s e users}, Store.Change soleContext s e.addsTo? users (s.edit soleContext e) →
      P s → P (s.edit soleContext e))
    (hrewire : ∀ {s} old new, P s → P (s.rewire old (some new)))
    (hrelease : ∀ {s} v, P s → P (s.release v))
    (hretire : ∀ {s} m, P s → P (s.retireModule m))
    (hs : h.Sole) (hstart : P h.store) (actions : List Action) : P (h.run actions).store :=
  store_run_along (fun hs _ => hedit (Store.change_edit (fun _ _ hm => hs.modules hm) _))
    hrewire hrelease hretire hs (along_of_forall (fun _ _ => trivial) h actions) hstart

end Host

end ForeignHandles
