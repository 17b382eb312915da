import ForeignHandles.Cache.Basic

/-!
  How a cache works off its notifications.

  `raise` puts a notification at the end of the queue. If the cache is idle it then advances: it
  takes notifications off the queue one by one until one needs a callback or none is left. A
  consumer that has been called answers in one of two ways. `resume` finishes what the stage left
  open and advances further. `abandon` is for a callback that fails: its notification is used up,
  the mapping stays as it was at the call, and the rest of the queue waits for the next `raise`.

  `apply` is the effect of one notification up to its first callback, `rekey` the move of a
  mapping. Where the new key has a mapping already, that mapping wins; if its handle is another
  one, the moved handle is an orphan and the consumer is told so under the old key.
-/
namespace ForeignHandles.Cache

variable {K : Type} [DecidableEq K]

/-- Moves the mapping of `old` to `new` under the handle `handle`. The stage is there if the
consumer has to be told that nothing refers to the handle. -/
def rekey (c : Cache K) (old : K) (handle : ExternalHandle) (new : K) :
    Mapping K × Option (Stage K) :=
  let rest := c.mapping.erase old
  match rest.get? new with
  | none => (rest.insertNew new handle, none)
  | some existing =>
    (rest, if existing ≠ handle ∧ c.onDeleted then some (.orphaning old handle) else none)

/-- The effect of a notification up to its first callback: the mapping then, and the stage if
there is a callback. -/
def apply (c : Cache K) : Event K → Mapping K × Option (Stage K)
  | .deleted key =>
    match c.mapping.get? key with
    | none => (c.mapping, none)
    | some handle =>
      if c.onDeleted then (c.mapping, some (.deleting key handle))
      else (c.mapping.erase key, none)
  | .replaced old new =>
    if old = new then (c.mapping, none)
    else match c.mapping.get? old with
      | none => (c.mapping, none)
      | some handle =>
        if c.onReplaced then (c.mapping, some (.replacing old handle new))
        else c.rekey old handle new

/-- Takes notifications off the queue, which is given, until one needs a callback. -/
def drain (c : Cache K) : List (Event K) → Cache K
  | [] => { c with pending := [], stage := none }
  | e :: queue =>
    match c.apply e with
    | (mapping, none) => drain { c with mapping } queue
    | (mapping, some stage) => { c with mapping, pending := queue, stage := some stage }

/-- Works off the queue as far as it goes without the consumer. -/
def advance (c : Cache K) : Cache K := c.drain c.pending

/-- Notifies the cache. While a callback runs the notification waits its turn. -/
def raise (c : Cache K) (e : Event K) : Cache K :=
  let queued := { c with pending := c.pending ++ [e] }
  if c.isDispatching then queued else queued.advance

/-- The callback returns. `answer` is the handle it gives for a replacement; without one the handle
stays as it was. -/
def resume (c : Cache K) (answer : Option ExternalHandle) : Cache K :=
  match c.stage with
  | none => c
  | some (.deleting key _) => advance { c with mapping := c.mapping.erase key, stage := none }
  | some (.orphaning _ _) => advance { c with stage := none }
  | some (.replacing old handle new) =>
    match c.rekey old (answer.getD handle) new with
    | (mapping, none) => advance { c with mapping, stage := none }
    | (mapping, some stage) => { c with mapping, stage := some stage }

/-- The callback fails. -/
def abandon (c : Cache K) : Cache K := { c with stage := none }

/-! ## Idle and not -/

/-- A cache without a stage has no notification left when it has advanced that far. -/
theorem pending_eq_nil_of_drain {c : Cache K} {queue : List (Event K)}
    (h : (c.drain queue).stage = none) : (c.drain queue).pending = [] := by
  induction queue generalizing c with
  | nil => rfl
  | cons e queue ih =>
    rcases he : c.apply e with ⟨mapping, stage⟩
    cases stage with
    | none =>
      simp only [drain, he] at h ⊢
      exact ih h
    | some stage => simp [drain, he] at h

/-- Draining touches neither which callbacks are installed nor anything but the mapping, the queue
and the stage. -/
theorem drain_callbacks (c : Cache K) (queue : List (Event K)) :
    (c.drain queue).onDeleted = c.onDeleted ∧ (c.drain queue).onReplaced = c.onReplaced := by
  induction queue generalizing c with
  | nil => exact ⟨rfl, rfl⟩
  | cons e queue ih =>
    unfold drain
    split
    · rename_i mapping he
      exact ih { c with mapping }
    · exact ⟨rfl, rfl⟩

/-- While a callback runs, a notification is only queued. -/
theorem raise_of_dispatching {c : Cache K} (h : c.isDispatching = true) (e : Event K) :
    c.raise e = { c with pending := c.pending ++ [e] } := by
  simp [raise, h]

end ForeignHandles.Cache
