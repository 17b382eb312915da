import ForeignHandles.Proofs.Cache.Run

/-!
  Everything that one action can do to a cache.

  `Step` lists the ways an action can go, with the cache afterwards and what is left on record.
  `step_act` says that there are no others.  A property of runs is then proved once for each
  constructor of `Step` and carried over the run by `run_invariant`; nothing below the level of
  `drain`, `proceed` and `conclude` is unfolded for it.

  The constructors carry their guards. `defer` and `dispatch` are the two halves of a notification,
  while a callback runs and at top level; `store` covers `insert` and `settle`, which agree in what
  they do and differ in what they answer; `none` covers whatever is declined. The queue may be
  worked off over any number of events in one step, and the record of a step is as long as that
  takes.

  The first half of the file says what the operations that consumers call do in each state of the
  cache. They are monadic in their refusals, and the lemmas spare later proofs the unfolding.
-/
namespace ForeignHandles.Cache

variable {K : Type} [DecidableEq K]

omit [DecidableEq K] in
/-- A callback runs exactly if there is a stage that waits for its return. -/
theorem isDispatching_eq_true_iff {c : Cache K} :
    c.isDispatching = true ↔ ∃ s, c.stage = some s := Option.isSome_iff_exists

omit [DecidableEq K] in
/-- At top level nothing waits. -/
theorem isDispatching_eq_false_iff {c : Cache K} : c.isDispatching = false ↔ c.stage = none := by
  simp [isDispatching]

/-- The record of a queue begins with its first event, taken against the mapping as it is; what
follows is the record of the cache that the event leads to. -/
theorem drainRecords_cons (c : Cache K) (e : Event K) (queue : List (Event K)) :
    c.drainRecords (e :: queue) = .taken e c.mapping :: c.proceedRecords (c.apply e) queue := by
  rcases he : c.apply e with ⟨mapping, _ | stage⟩ <;> simp [drainRecords, proceedRecords, he]

/-- A list of pairs is not changed by removing a key that it does not have. -/
theorem filter_eq_self_of_key {l : List (K × ExternalHandle)} {key : K}
    (h : key ∉ l.map (·.1)) : l.filter (fun p => p.1 ≠ key) = l := by
  refine List.filter_eq_self.2 fun p hp => ?_
  have hne : p.1 ≠ key := fun heq => h (List.mem_map.2 ⟨p, hp, heq⟩)
  simpa using hne

/-- Removing a key that has no handle changes nothing. -/
theorem erase_of_get?_eq_none {m : Mapping K} {key : K} (h : m.get? key = none) :
    m.erase key = m := by
  have hkey : key ∉ m.keys := (m.get?_eq_none_iff key).1 h
  have hkeep := filter_eq_self_of_key (l := m.entries) hkey
  cases m with
  | mk entries nodup =>
    simp only [Mapping.erase] at hkeep ⊢
    simp only [hkeep]

/-- One action, the cache after it and what it leaves on record: every way that it can go. -/
inductive Step (c : Cache K) : Action K → Cache K → List (Record K) → Prop where
  /-- While a callback runs, a notification waits. -/
  | defer (e : Event K) (h : c.isDispatching = true) :
    Step c (.raise e) { c with pending := c.pending ++ [e] } [.raised e]
  /-- At top level the whole queue is worked off, as far as it goes without the consumer. -/
  | dispatch (e : Event K) (h : c.isDispatching = false) :
    Step c (.raise e) (c.drain (c.pending ++ [e]))
      (.raised e ::
        (c.drainRecords (c.pending ++ [e]) ++ (c.drain (c.pending ++ [e])).opening))
  | resume (answer : Option ExternalHandle) {s : Stage K} (h : c.stage = some s) :
    Step c (.resume answer) (c.proceed (c.conclude answer s) c.pending)
      (.returned s.call answer ::
        (c.mergeRecords answer s ++ c.proceedRecords (c.conclude answer s) c.pending ++
          (c.proceed (c.conclude answer s) c.pending).opening))
  | abandon {s : Stage K} (h : c.stage = some s) :
    Step c .abandon { c with stage := none } [.failed s.call]
  | store {a : Action K} {key : K} {handle : ExternalHandle}
    (ha : a = .insert key handle ∨ a = .settle key handle)
    (h : c.isDispatching = false) (hkey : c.mapping.get? key = none) :
    Step c a { c with mapping := c.mapping.insertNew key handle } [.stored key handle]
  | erase {key : K} {handle : ExternalHandle} (h : c.isDispatching = false)
    (hkey : c.mapping.get? key = some handle) :
    Step c (.remove key) { c with mapping := c.mapping.erase key } [.removed key handle]
  /-- Nothing happens: a look-up, an operation that is declined, a return from no callback. -/
  | none {a : Action K} (ha : ∀ e, a ≠ .raise e) : Step c a c []

/-- While a callback runs, a look-up is declined, -/
theorem lookup_of_dispatching {c : Cache K} (h : c.isDispatching = true) (key : K) :
    c.lookup key = .error .callbackInProgress := by
  simp [Cache.lookup, ensureIdle, h, bind, Except.bind]

/-- and at top level it reads the mapping. -/
theorem lookup_of_idle {c : Cache K} (h : c.isDispatching = false) (key : K) :
    c.lookup key = .ok (c.mapping.get? key) := by
  simp [Cache.lookup, ensureIdle, h, bind, Except.bind, pure, Except.pure]

/-- While a callback runs, nothing is inserted. -/
theorem insert_of_dispatching {c : Cache K} (h : c.isDispatching = true) (key : K)
    (handle : ExternalHandle) : c.insert key handle = .error .callbackInProgress := by
  simp [Cache.insert, ensureIdle, h, bind, Except.bind]

/-- A key with a handle keeps it, and the caller is told which, -/
theorem insert_of_mapped {c : Cache K} (h : c.isDispatching = false) {key : K}
    {existing : ExternalHandle} (hkey : c.mapping.get? key = some existing)
    (handle : ExternalHandle) : c.insert key handle = .error (.alreadyMapped existing) := by
  simp [Cache.insert, ensureIdle, h, hkey, bind, Except.bind]

/-- and a key without one gets it. -/
theorem insert_of_absent {c : Cache K} (h : c.isDispatching = false) {key : K}
    (hkey : c.mapping.get? key = none) (handle : ExternalHandle) :
    c.insert key handle = .ok { c with mapping := c.mapping.insertNew key handle } := by
  simp [Cache.insert, ensureIdle, h, hkey, bind, Except.bind, pure, Except.pure]

/-- While a callback runs, nothing is removed. -/
theorem remove_of_dispatching {c : Cache K} (h : c.isDispatching = true) (key : K) :
    c.remove key = .error .callbackInProgress := by
  simp [Cache.remove, ensureIdle, h, bind, Except.bind]

/-- At top level the handle of a key is returned, if it has one, and the key is gone. -/
theorem remove_of_idle {c : Cache K} (h : c.isDispatching = false) (key : K) :
    c.remove key =
      .ok (c.mapping.get? key, { c with mapping := c.mapping.erase key }) := by
  simp [Cache.remove, ensureIdle, h, bind, Except.bind, pure, Except.pure]

/-- `insert` and `settle` differ in their answers only: declined, or the key has a handle, or it
gets one. -/
theorem step_insert (c : Cache K) {a : Action K} {key : K} {handle : ExternalHandle}
    (ha : a = .insert key handle ∨ a = .settle key handle) :
    Step c a (c.act a) (c.records a) := by
  have hquiet : ∀ e, a ≠ .raise e := by rcases ha with rfl | rfl <;> simp
  cases hc : c.isDispatching with
  | true =>
    have herr := insert_of_dispatching hc key handle
    have hsame : c.act a = c ∧ c.records a = [] := by
      rcases ha with rfl | rfl <;> simp [act, records, settle, herr]
    rw [hsame.1, hsame.2]
    exact .none hquiet
  | false =>
    cases hkey : c.mapping.get? key with
    | some existing =>
      have herr := insert_of_mapped hc hkey handle
      have hsame : c.act a = c ∧ c.records a = [] := by
        rcases ha with rfl | rfl <;> simp [act, records, settle, herr]
      rw [hsame.1, hsame.2]
      exact .none hquiet
    | none =>
      have hok := insert_of_absent hc hkey handle
      have hnew : c.act a = { c with mapping := c.mapping.insertNew key handle } ∧
          c.records a = [.stored key handle] := by
        rcases ha with rfl | rfl <;> simp [act, records, settle, hok]
      rw [hnew.1, hnew.2]
      exact .store ha hc hkey

/-- Removing a key is an erasure if it has a handle. If not, the mapping is rebuilt as it was, and
the step counts as none. -/
theorem step_remove (c : Cache K) (key : K) :
    Step c (.remove key) (c.act (.remove key)) (c.records (.remove key)) := by
  cases hc : c.isDispatching with
  | true =>
    simp only [act, records, remove_of_dispatching hc]
    exact .none (by simp)
  | false =>
    cases hkey : c.mapping.get? key with
    | none =>
      -- the mapping is rebuilt without a pair that it does not have
      have hsame : c.act (.remove key) = c := by
        simp only [act, remove_of_idle hc, erase_of_get?_eq_none hkey]
      rw [hsame]
      simp only [records, remove_of_idle hc, hkey]
      exact .none (by simp)
    | some handle =>
      simp only [act, records, remove_of_idle hc, hkey]
      exact .erase hc hkey

/-- **Every action goes one of these ways.** The cases follow the actions; each then depends on
whether a callback runs, and on the mapping where a key is concerned. -/
theorem step_act (c : Cache K) (a : Action K) : Step c a (c.act a) (c.records a) := by
  cases a with
  | raise e =>
    cases hc : c.isDispatching with
    | true =>
      have hact : c.act (.raise e) = { c with pending := c.pending ++ [e] } :=
        raise_of_dispatching hc e
      simp only [hact, records, hc, if_true]
      exact .defer e hc
    | false =>
      simp only [act, records, hc, raise_eq_drain hc, Bool.false_eq_true, if_false]
      exact .dispatch e hc
  | resume answer =>
    cases hs : c.stage with
    | none =>
      simp only [act, records, hs, resume_of_idle hs]
      exact .none (by simp)
    | some s =>
      simp only [act, records, hs, resume_eq_proceed hs]
      exact .resume answer hs
  | abandon =>
    cases hs : c.stage with
    | none =>
      -- there is no callback that could fail
      have hsame : c.act .abandon = c := by
        cases c
        simp_all [act, Cache.abandon]
      simp only [hsame, records, call?, hs, Option.map_none]
      exact .none (by simp)
    | some s =>
      simp only [act, records, call?, hs, Option.map_some]
      exact .abandon hs
  | lookup key => exact .none (by simp)
  | insert key handle => exact step_insert c (.inl rfl)
  | settle key handle => exact step_insert c (.inr rfl)
  | remove key => exact step_remove c key

/-- **Runs inherit what steps preserve.** A property of a cache and of the record so far that
every step by one of the actions preserves holds at the end of the run if it holds at its start.
The record before the start is arbitrary, which is what the induction needs. -/
theorem run_invariant {P : Cache K → List (Record K) → Prop} {actions : List (Action K)}
    (hstep : ∀ c h, ∀ a ∈ actions, ∀ c' rs, Step c a c' rs → P c h → P c' (h ++ rs))
    {c : Cache K} {h : List (Record K)} (hstart : P c h) :
    P (c.run actions) (h ++ c.history actions) := by
  induction actions generalizing c h with
  | nil => simpa using hstart
  | cons a actions ih =>
    -- one step, after which the record so far is longer
    have hnext : P (c.act a) (h ++ c.records a) :=
      hstep c h a List.mem_cons_self _ _ (c.step_act a) hstart
    have hrest := ih (fun c h b hb => hstep c h b (List.mem_cons_of_mem a hb)) hnext
    rw [run_cons, history_cons, ← List.append_assoc]
    exact hrest

end ForeignHandles.Cache
