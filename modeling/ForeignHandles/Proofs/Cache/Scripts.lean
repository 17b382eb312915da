import ForeignHandles.Cache.Text
import ForeignHandles.Proofs.Cache.Program
import ForeignHandles.Proofs.Cache.Queue

/-!
  What callbacks ask of their cache does not matter.

  A `Consumer` gives every callback a script: notifications to raise and operations to try, and how
  it ends.  A `Caller` does things at top level, one after another, and may go by the answers.  A
  `Play` is what comes of the two together, in real time: whenever the cache calls, the script runs.
  `getOrInsert` at top level, where `create` is free to use the cache, is a look-up, more of the
  caller, and a `settle` (`getOrInsert_eq_run`).

  The theorem compares two plays, of a consumer and of the same one that only raises notifications
  (`quiet`).  They are in the same state at every callback and at every point of the caller, except
  for what the first one was told (`untold`).  One deed shows it while a callback runs
  (`perform_of_dispatching`); a script, all callbacks of a turn and the whole play follow by
  induction, each on its own recursion.

  Fuel does not matter: `n` bounds the callbacks that are run for each thing the caller does, for a
  consumer that raises a notification in every callback would keep the cache going for ever, and the
  comparison holds for every `n`.
-/
namespace ForeignHandles.Cache

variable {K : Type} [DecidableEq K]

/-! ## Operations

`Operation.perform` is every operation of a cache in one form, with what is answered and what
becomes of the cache. That a maker has been put to work cannot be seen from the cache, so it is
watched. -/

/-- Something that is asked of a cache. -/
inductive Operation (K : Type) where
  | lookup (key : K)
  | insert (key : K) (handle : ExternalHandle)
  | remove (key : K)
  | getOrInsert (key : K) (create : Program K ExternalHandle)
  | settle (key : K) (handle : ExternalHandle)
  | size
  | isEmpty
  | dump (spell : K → String)

/-- Whether an operation only reads, for diagnostics. -/
def Operation.isDiagnostic : Operation K → Bool
  | .size | .isEmpty | .dump _ => true
  | _ => false

/-- What is answered to an operation. -/
inductive Answer where
  | declined (e : CacheError)
  | found (handle : Option ExternalHandle)
  | stored
  | fetched (fetched : Fetched)
  | settled (handle : ExternalHandle)
  /-- `create` has failed. -/
  | failed
  | number (n : Nat)
  | truth (b : Bool)
  | text (text : String)
  deriving DecidableEq

/-- The answer to an operation, the cache after it, and whether `create` has been run. -/
structure Outcome (K : Type) where
  answer : Answer
  created : Bool := false
  cache : Cache K

/-- A program of which somebody watches whether a part of it has been run. -/
abbrev Watched (K : Type) := OptionT (StateM (Cache K × Bool))

/-- The cache that watched programs use. -/
def watchedCell : CacheCell (Watched K) K where
  get := do return (← get).1
  set c := modify (fun s => (c, s.2))

/-- The part of a program that is watched. -/
def watch {α : Type} (program : Program K α) : Watched K α :=
  fun s => ((execute program s.1).1, (execute program s.1).2, true)

/-- The outcome of an operation that changes the cache or is declined. -/
def Outcome.ofExcept {α : Type} (c : Cache K) (answer : α → Answer) :
    Except CacheError (α × Cache K) → Outcome K
  | .error e => { answer := .declined e, cache := c }
  | .ok (x, cache) => { answer := answer x, cache }

/-- Asks a cache. -/
def Operation.perform (c : Cache K) : Operation K → Outcome K
  | .lookup key => .ofExcept c .found ((c.lookup key).map (·, c))
  | .insert key handle => .ofExcept c (fun () => .stored) ((c.insert key handle).map ((), ·))
  | .remove key => .ofExcept c .found (c.remove key)
  | .settle key handle => .ofExcept c .settled (c.settle key handle)
  | .getOrInsert key create =>
    match (watchedCell.getOrInsert key (watch create)).run.run (c, false) with
    | (none, cache, created) => { answer := .failed, created, cache }
    | (some (.error e), cache, created) => { answer := .declined e, created, cache }
    | (some (.ok fetched), cache, created) => { answer := .fetched fetched, created, cache }
  | .size => { answer := .number c.size, cache := c }
  | .isEmpty => { answer := .truth c.isEmpty, cache := c }
  | .dump spell => { answer := .text (c.dump spell), cache := c }

/-- A handle is not made while a callback runs. -/
theorem getOrInsert_of_dispatching {c : Cache K} (h : c.isDispatching = true) (key : K)
    (create : Watched K ExternalHandle) :
    (watchedCell.getOrInsert key create).run.run (c, false) =
      (some (.error .callbackInProgress), (c, false)) := by
  have hget : (watchedCell (K := K)).get.run.run (c, false) = (some c, (c, false)) := rfl
  rw [CacheCell.getOrInsert, run_bind, hget]
  simp only [lookup_of_dispatching h]
  rfl

/-- While a callback runs, an operation leaves the cache alone, and it is declined unless it is for
diagnostics. -/
theorem perform_of_dispatching {c : Cache K} (h : c.isDispatching = true) (op : Operation K) :
    (op.perform c).cache = c ∧ (op.perform c).created = false ∧
      (op.isDiagnostic = false → (op.perform c).answer = .declined .callbackInProgress) := by
  cases op with
  | lookup key => simp [Operation.perform, lookup_of_dispatching h, Outcome.ofExcept, Except.map]
  | insert key handle =>
    simp [Operation.perform, insert_of_dispatching h, Outcome.ofExcept, Except.map]
  | remove key => simp [Operation.perform, remove_of_dispatching h, Outcome.ofExcept]
  | settle key handle =>
    simp [Operation.perform, settle, insert_of_dispatching h, Outcome.ofExcept]
  | getOrInsert key create => simp [Operation.perform, getOrInsert_of_dispatching h]
  | size => simp [Operation.perform, Operation.isDiagnostic]
  | isEmpty => simp [Operation.perform, Operation.isDiagnostic]
  | dump spell => simp [Operation.perform, Operation.isDiagnostic]

/-! ## Plays

A consumer may go by everything that has happened so far: the calls come with the mapping that each
found. What its own operations were answered need not be among it, for they are declined, and what
diagnostics say can be seen from the mapping. -/

/-- What a callback does at one point. -/
inductive Deed (K : Type) where
  | raise (event : Event K)
  | ask (operation : Operation K)

/-- Whether a deed raises a notification. -/
def Deed.isRaise : Deed K → Bool
  | .raise _ => true
  | .ask _ => false

/-- How a callback ends. -/
inductive Ending where
  | returns (answer : Option ExternalHandle)
  | fails

/-- A callback from its beginning to its end. -/
structure Script (K : Type) where
  deeds : List (Deed K)
  ending : Ending

/-- What a consumer does in each callback.  It goes by the calls so far, with the mapping at each;
the last one is the one that it answers. -/
abbrev Consumer (K : Type) := List (Call K × Mapping K) → Script K

/-- The same consumer, but nothing is asked of the cache. -/
def Consumer.quiet (consumer : Consumer K) : Consumer K := fun calls =>
  { consumer calls with deeds := (consumer calls).deeds.filter Deed.isRaise }

/-- What a caller does at top level, one thing after another. -/
inductive Caller (K : Type) where
  | done
  | raise (event : Event K) (next : Caller K)
  /-- What comes next may depend on the answer. -/
  | ask (operation : Operation K) (next : Answer → Caller K)

/-- Something that a callback has asked, and what it was told. -/
structure Told (K : Type) where
  operation : Operation K
  answer : Answer
  created : Bool

/-- The state of a play, with everything that has happened. -/
structure Play (K : Type) where
  cache : Cache K
  /-- The callbacks that have begun, in order, with the mapping that each found. -/
  calls : List (Call K × Mapping K) := []
  /-- What callbacks were told. -/
  told : List (Told K) := []
  /-- What the caller was told. -/
  answers : List Answer := []

namespace Play

/-- Does one thing in a callback. -/
def deed (p : Play K) : Deed K → Play K
  | .raise e => { p with cache := p.cache.raise e }
  | .ask op =>
    { p with
      cache := (op.perform p.cache).cache
      told := p.told ++ [⟨op, (op.perform p.cache).answer, (op.perform p.cache).created⟩] }

/-- Ends a callback. -/
def ending (p : Play K) : Ending → Play K
  | .returns answer => { p with cache := p.cache.resume answer }
  | .fails => { p with cache := p.cache.abandon }

/-- The callback for a call, from its beginning to its end. -/
def callback (consumer : Consumer K) (p : Play K) (call : Call K × Mapping K) : Play K :=
  let script := consumer (p.calls ++ [call])
  (script.deeds.foldl deed { p with calls := p.calls ++ [call] }).ending script.ending

/-- Runs callbacks for as long as the cache calls, but `n` at the most. -/
def serve (consumer : Consumer K) : Nat → Play K → Play K
  | 0, p => p
  | n + 1, p =>
    match p.cache.view with
    | none => p
    | some call => serve consumer n (p.callback consumer call)

/-- Goes on at top level, with `n` callbacks at the most for each thing that the caller does.  Where
that is not enough the play ends. -/
def perform (consumer : Consumer K) (n : Nat) : Caller K → Play K → Play K
  | .done, p => p
  | .raise e next, p =>
    if p.cache.isDispatching then p
    else perform consumer n next (serve consumer n { p with cache := p.cache.raise e })
  | .ask op next, p =>
    if p.cache.isDispatching then p
    else
      let outcome := op.perform p.cache
      perform consumer n (next outcome.answer) (serve consumer n
        { p with cache := outcome.cache, answers := p.answers ++ [outcome.answer] })

/-! ## Nothing comes of it

The comparison is one equation, kept by every part of a play: the quiet play is the other one
without what callbacks were told. -/

/-- The play without what callbacks were told. -/
def untold (p : Play K) : Play K := { p with told := [] }

/-- Callbacks had every operation declined, but for diagnostics, and no handle was made for them. -/
def Declined (p : Play K) : Prop :=
  ∀ t ∈ p.told, t.created = false ∧
    (t.operation.isDiagnostic = false → t.answer = .declined .callbackInProgress)

/-- The deeds of a callback, with what it asks and without. -/
theorem deeds_quiet {p : Play K} (hbusy : p.cache.isDispatching = true) (hp : p.Declined)
    (deeds : List (Deed K)) :
    (deeds.filter Deed.isRaise).foldl deed p.untold = (deeds.foldl deed p).untold ∧
      (deeds.foldl deed p).Declined := by
  induction deeds generalizing p with
  | nil => exact ⟨rfl, hp⟩
  | cons d deeds ih =>
    cases d with
    | raise e =>
      have hnext : (p.cache.raise e).isDispatching = true := by
        rw [raise_of_dispatching hbusy]
        exact hbusy
      exact ih (p := p.deed (.raise e)) hnext hp
    | ask op =>
      obtain ⟨hcache, hcreated, hanswer⟩ := perform_of_dispatching hbusy op
      -- asking leaves the cache alone, so the quiet play does not fall behind by leaving it out
      have hsame : (p.deed (.ask op)).untold = p.untold := by simp only [deed, untold, hcache]
      have hdeclined : (p.deed (.ask op)).Declined := by
        intro t ht
        rcases List.mem_append.1 ht with hold | hnew
        · exact hp t hold
        · obtain rfl := List.mem_singleton.1 hnew
          exact ⟨hcreated, hanswer⟩
      obtain ⟨hquiet, hrest⟩ := ih (p := p.deed (.ask op)) (by rwa [deed, hcache]) hdeclined
      rw [hsame] at hquiet
      exact ⟨hquiet, hrest⟩

/-- A callback ends as it would without what it was told. -/
theorem ending_untold (p : Play K) (e : Ending) : p.untold.ending e = (p.ending e).untold := by
  cases e <;> rfl

/-- Nothing is told at the end. -/
theorem declined_ending {p : Play K} (hp : p.Declined) (e : Ending) : (p.ending e).Declined := by
  cases e <;> exact hp

/-- One callback, with what it asks and without. -/
theorem callback_quiet (consumer : Consumer K) {p : Play K}
    (hbusy : p.cache.isDispatching = true) (hp : p.Declined) (call : Call K × Mapping K) :
    p.untold.callback consumer.quiet call = (p.callback consumer call).untold ∧
      (p.callback consumer call).Declined := by
  obtain ⟨hquiet, hdeclined⟩ := deeds_quiet (p := { p with calls := p.calls ++ [call] }) hbusy hp
    (consumer (p.calls ++ [call])).deeds
  refine ⟨?_, declined_ending hdeclined _⟩
  exact (congrArg (Play.ending · _) hquiet).trans (ending_untold ..)

/-- The callbacks of a turn. -/
theorem serve_quiet (consumer : Consumer K) (n : Nat) {p : Play K} (hp : p.Declined) :
    serve consumer.quiet n p.untold = (serve consumer n p).untold ∧
      (serve consumer n p).Declined := by
  induction n generalizing p with
  | zero => exact ⟨rfl, hp⟩
  | succ n ih =>
    have hview : p.untold.cache.view = p.cache.view := rfl
    rw [serve, serve, hview]
    cases hcall : p.cache.view with
    | none => exact ⟨rfl, hp⟩
    | some call =>
      -- a cache that calls is in the middle of a callback
      have hbusy : p.cache.isDispatching = true := by
        cases hstage : p.cache.stage with
        | none => simp [view, call?, hstage] at hcall
        | some s => exact isDispatching_eq_true_iff.2 ⟨s, hstage⟩
      obtain ⟨hquiet, hdeclined⟩ := callback_quiet consumer hbusy hp call
      simp only [hquiet]
      exact ih hdeclined

/-- The whole play: by the same steps of the caller, who is told the same. -/
theorem perform_quiet (consumer : Consumer K) (n : Nat) (caller : Caller K) {p : Play K}
    (hp : p.Declined) :
    perform consumer.quiet n caller p.untold = (perform consumer n caller p).untold ∧
      (perform consumer n caller p).Declined := by
  induction caller generalizing p with
  | done => exact ⟨rfl, hp⟩
  | raise e next ih =>
    have hsame : p.untold.cache.isDispatching = p.cache.isDispatching := rfl
    rw [perform, perform, hsame]
    split
    · exact ⟨rfl, hp⟩
    · obtain ⟨hquiet, hdeclined⟩ :=
        serve_quiet consumer n (p := { p with cache := p.cache.raise e }) hp
      rw [← (ih hdeclined).1, ← hquiet]
      exact ⟨rfl, (ih hdeclined).2⟩
  | ask op next ih =>
    have hsame : p.untold.cache.isDispatching = p.cache.isDispatching := rfl
    rw [perform, perform, hsame]
    split
    · exact ⟨rfl, hp⟩
    · obtain ⟨hquiet, hdeclined⟩ := serve_quiet consumer n
        (p := { p with
          cache := (op.perform p.cache).cache
          answers := p.answers ++ [(op.perform p.cache).answer] }) hp
      -- the caller has the same answer in both plays, and so goes on in the same way
      have hrest := ih (op.perform p.cache).answer hdeclined
      refine ⟨?_, hrest.2⟩
      rw [← hrest.1, ← hquiet]
      rfl

end Play

/-- What comes of a caller, a consumer and a cache together, with `n` callbacks at the most for each
thing that the caller does. -/
def play (consumer : Consumer K) (n : Nat) (caller : Caller K) (c : Cache K) : Play K :=
  Play.perform consumer n caller { cache := c }

/-- **Callbacks cannot interfere.**  Whatever callbacks ask of their cache is declined, but for
diagnostics, and no handle is made for them.  Had they not asked, the same callbacks would have been
called, each with the same mapping, the cache would be the same, its mapping and its queue included,
and the caller would have been told the same. -/
theorem callbacks_cannot_interfere (consumer : Consumer K) (n : Nat) (caller : Caller K)
    (c : Cache K) :
    (∀ t ∈ (play consumer n caller c).told, t.created = false ∧
      (t.operation.isDiagnostic = false → t.answer = .declined .callbackInProgress)) ∧
    (play consumer.quiet n caller c).told = [] ∧
    (play consumer.quiet n caller c).calls = (play consumer n caller c).calls ∧
    (play consumer.quiet n caller c).cache = (play consumer n caller c).cache ∧
    (play consumer.quiet n caller c).answers = (play consumer n caller c).answers := by
  obtain ⟨hquiet, hdeclined⟩ :=
    Play.perform_quiet consumer n caller (p := { cache := c }) (by simp [Play.Declined])
  have hplay : play consumer.quiet n caller c = (play consumer n caller c).untold := hquiet
  rw [hplay]
  exact ⟨hdeclined, rfl, rfl, rfl, rfl⟩

/-- Told of a deletion, this consumer tries everything, and raises a replacement in between. -/
def meddler : Consumer Nat := fun calls =>
  if calls.length = 1 then
    { deeds := [.ask (.lookup 1), .ask (.insert 3 5), .raise (.replaced 2 3), .ask (.remove 2),
        .ask (.getOrInsert 4 (pure 9)), .ask .size]
      ending := .returns none }
  else { deeds := [.ask (.getOrInsert 2 failure)], ending := .returns (some 11) }

/-- At top level a handle is made; then the other key goes. -/
def meddled : Caller Nat :=
  .ask (.insert 1 7) fun _ => .ask (.getOrInsert 2 (pure 8)) fun _ => .raise (.deleted 1) .done

/-- Nothing that the consumer tries has any effect, and the same callbacks are called in the same
order. -/
theorem meddler_cannot_interfere :
    (play meddler 2 meddled (fresh true true)).told.map Told.answer =
        [.declined .callbackInProgress, .declined .callbackInProgress,
          .declined .callbackInProgress, .declined .callbackInProgress, .number 2,
          .declined .callbackInProgress] ∧
      (play meddler 2 meddled (fresh true true)).calls.map (·.1) =
        [.deleted 1 7, .replaced 2 8 3] ∧
      (play meddler 2 meddled (fresh true true)).answers =
        [.stored, .fetched { handle := 8, created := true }] ∧
      (play meddler.quiet 2 meddled (fresh true true)).cache =
        (play meddler 2 meddled (fresh true true)).cache :=
  ⟨rfl, rfl, rfl, (callbacks_cannot_interfere meddler 2 meddled (fresh true true)).2.2.2.1⟩

end ForeignHandles.Cache
