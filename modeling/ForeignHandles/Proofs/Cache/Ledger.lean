import Mathlib.Data.Multiset.AddSub
import ForeignHandles.Proofs.Cache.Queue

/-!
  Where handles come from, and where they go.

  A handle enters a cache when a caller stores it, or when the consumer gives it for a replacement.
  It leaves when the consumer is called about it (told that it goes, or asked what takes its place),
  when a caller removes it, or when it turns out to be the very handle that the new key has already.
  `handles_conserved` says that the books balance whenever the cache is idle: what has entered is
  what is mapped now and what has left, each handle counted as often as it occurs.

  The consumer hears of a handle before its mapping is dropped.  In the meantime the handle is both
  on record as gone and still in the mapping; `held` is this overlap, and with it the books balance
  at every moment.  Calls for an orphan come after the mapping has changed, and hold nothing.
  `Accounts` is the balance of a stretch of a run, and stretches add up (`Accounts.trans`); each
  step is accounted for by what it leaves on record (`accounts_of_step`).

  The balance is an equation between numbers, for each handle: how often it occurs on the left and
  on the right. In this form it can be added up and closed by linear arithmetic, and only the final
  statement is about multisets. Callbacks that fail are left out, as the handle that such a callback
  was told of stays mapped; and both callbacks have to be there, for a handle whose consumer is not
  there to be told is dropped silently.
-/
namespace ForeignHandles

variable {K : Type}

/-- The handle that a call is about. -/
@[simp] def Call.handle : Call K → ExternalHandle
  | .deleted _ handle => handle
  | .replaced _ handle _ => handle

/-- The handle that is still mapped while the consumer is called about it. -/
@[simp] def Stage.held? : Stage K → Option ExternalHandle
  | .deleting _ handle => some handle
  | .replacing _ handle _ => some handle
  | .orphaning _ _ => none

namespace Cache

/-! ## The books -/

/-- The handle that enters the cache. -/
@[simp] def Record.entered? : Record K → Option ExternalHandle
  | .stored _ handle => some handle
  | .returned (.replaced _ handle _) answer => some (answer.getD handle)
  | _ => none

/-- The handle that the consumer is told the end of. -/
@[simp] def Record.reported? : Record K → Option ExternalHandle
  | .called (.deleted _ handle) _ => some handle
  | _ => none

/-- The handle that the consumer is asked to replace. -/
@[simp] def Record.replaced? : Record K → Option ExternalHandle
  | .called (.replaced _ handle _) _ => some handle
  | _ => none

/-- The handle that a caller takes out. -/
@[simp] def Record.removed? : Record K → Option ExternalHandle
  | .removed _ handle => some handle
  | _ => none

/-- The handle that was there already. -/
@[simp] def Record.merged? : Record K → Option ExternalHandle
  | .merged _ handle => some handle
  | _ => none

/-- The handle that leaves the cache, whichever way. -/
@[simp] def Record.left? : Record K → Option ExternalHandle
  | .called call _ => some call.handle
  | .removed _ handle => some handle
  | .merged _ handle => some handle
  | _ => none

/-- The handles that have entered, one for each time. -/
def entered (history : List (Record K)) : List ExternalHandle :=
  history.filterMap Record.entered?

/-- The handles whose end the consumer was told, one for each time. -/
def reported (history : List (Record K)) : List ExternalHandle :=
  history.filterMap Record.reported?

/-- Those that it was asked to replace. -/
def replaced (history : List (Record K)) : List ExternalHandle :=
  history.filterMap Record.replaced?

/-- Those that callers took out. -/
def removed (history : List (Record K)) : List ExternalHandle :=
  history.filterMap Record.removed?

/-- Those that were given for a key that had them already. -/
def merged (history : List (Record K)) : List ExternalHandle :=
  history.filterMap Record.merged?

/-- All of these together, in the order in which they left. -/
def left (history : List (Record K)) : List ExternalHandle := history.filterMap Record.left?

@[simp] theorem entered_cons (r : Record K) (h : List (Record K)) :
    entered (r :: h) = r.entered?.toList ++ entered h := filterMap_cons_toList _ r h

@[simp] theorem left_cons (r : Record K) (h : List (Record K)) :
    left (r :: h) = r.left?.toList ++ left h := filterMap_cons_toList _ r h

@[simp] theorem entered_append (h g : List (Record K)) :
    entered (h ++ g) = entered h ++ entered g := List.filterMap_append

@[simp] theorem left_append (h g : List (Record K)) : left (h ++ g) = left h ++ left g :=
  List.filterMap_append

@[simp] theorem entered_nil : entered ([] : List (Record K)) = [] := rfl

@[simp] theorem left_nil : left ([] : List (Record K)) = [] := rfl

/-- Four ways out, and no handle takes two of them. -/
theorem count_left (x : ExternalHandle) (h : List (Record K)) :
    (left h).count x = (reported h).count x + (removed h).count x + (replaced h).count x +
      (merged h).count x := by
  induction h with
  | nil => rfl
  | cons r h ih =>
    unfold left reported removed replaced merged at ih ⊢
    simp only [filterMap_cons_toList, List.count_append, ih]
    cases r with
    | called call mapping => cases call <;> simp [Call.handle] <;> omega
    | _ => simp <;> omega

/-! ## Handles of a mapping

A mapping has each key once, so erasing a key takes away one occurrence of its handle, and
inserting brings one. Nothing else is needed of mappings here. -/

variable [DecidableEq K]

/-- An entry of a mapping, and the entries of all other keys. -/
theorem perm_of_mem {l : List (K × ExternalHandle)} (hnodup : (l.map (·.1)).Nodup) {key : K}
    {handle : ExternalHandle} (h : (key, handle) ∈ l) :
    l.Perm ((key, handle) :: l.filter (fun p => p.1 ≠ key)) := by
  induction l with
  | nil => cases h
  | cons p l ih =>
    obtain ⟨hp, hl⟩ := List.nodup_cons.1 hnodup
    rcases List.mem_cons.1 h with rfl | hmem
    · rw [List.filter_cons_of_neg (by simp), filter_eq_self_of_key hp]
    · have hne : p.1 ≠ key := fun heq => hp (List.mem_map.2 ⟨_, hmem, heq.symm⟩)
      rw [List.filter_cons_of_pos (by simpa using hne)]
      exact ((ih hl hmem).cons p).trans (List.Perm.swap ..)

/-- Erasing a key takes one occurrence of its handle away. -/
theorem count_erase {m : Mapping K} {key : K} {handle : ExternalHandle}
    (h : m.get? key = some handle) (x : ExternalHandle) :
    m.handles.count x = [handle].count x + (m.erase key).handles.count x := by
  have hperm := (perm_of_mem m.nodup ((m.mem_entries_iff key handle).2 h)).map (·.2)
  rw [← List.count_append]
  exact hperm.count_eq x

/-- Inserting a key brings one occurrence of its handle. -/
theorem count_insertNew {m : Mapping K} {key : K} (h : m.get? key = none)
    (handle x : ExternalHandle) :
    (m.insertNew key handle).handles.count x = m.handles.count x + [handle].count x := by
  rw [← List.count_append]
  simp [Mapping.insertNew, Mapping.handles, h]

/-! ## The balance

Stretches of a run are put together with `Accounts.trans`, and what happens in between two of them
does not matter as long as the states fit. A callback that begins, a draining, and a return are
such stretches. -/

/-- The handle that is on record as gone while it is still mapped. -/
def held (c : Cache K) : List ExternalHandle := (c.stage.bind Stage.held?).toList

/-- The records account for the way from one cache to another: what they say has entered makes up
for what they say has left. -/
def Accounts (c : Cache K) (rs : List (Record K)) (c' : Cache K) : Prop :=
  ∀ x, (entered rs).count x + c.mapping.handles.count x + c'.held.count x =
    (left rs).count x + c'.mapping.handles.count x + c.held.count x

omit [DecidableEq K] in
/-- Nothing happens, and nothing is on record. -/
theorem Accounts.refl (c : Cache K) : Accounts c [] c := fun _ => rfl

omit [DecidableEq K] in
/-- Two stretches, one after the other. -/
theorem Accounts.trans {c d e : Cache K} {rs ts : List (Record K)} (hfirst : Accounts c rs d)
    (hsecond : Accounts d ts e) : Accounts c (rs ++ ts) e := by
  intro x
  have hx := hfirst x
  have hx' := hsecond x
  rw [entered_append, left_append, List.count_append, List.count_append]
  omega

omit [DecidableEq K] in
/-- No handle enters with the call of a consumer; it does when the consumer answers. -/
@[simp] theorem entered_opening (c : Cache K) : entered c.opening = [] := by
  unfold opening
  split <;> rfl

omit [DecidableEq K] in
/-- Entering a stage leaves its call on record. -/
theorem accounts_opening {c d : Cache K} {s : Stage K} (hs : d.stage = some s)
    (h : ∀ x, c.mapping.handles.count x + s.held?.toList.count x =
      [s.call.handle].count x + d.mapping.handles.count x + c.held.count x) :
    Accounts c d.opening d := by
  intro x
  have hleft : left d.opening = [s.call.handle] := by simp [opening, call?, hs]
  have hx := h x
  rw [hleft, entered_opening, held, hs, Option.bind_some, List.count_nil]
  omega

/-- Draining brings in no handle by itself, -/
theorem entered_drainRecords (c : Cache K) (queue : List (Event K)) :
    entered (c.drainRecords queue) = [] := filterMap_drainRecords (fun _ _ => rfl) c queue

/-- and lets none out by itself: what leaves is on record with the call that follows. -/
theorem left_drainRecords (c : Cache K) (queue : List (Event K)) :
    left (c.drainRecords queue) = [] := filterMap_drainRecords (fun _ _ => rfl) c queue

/-- So what a draining writes down does not matter to the balance. -/
theorem accounts_drainRecords (c d : Cache K) (queue : List (Event K)) :
    Accounts c (d.drainRecords queue) c := by
  intro x
  rw [entered_drainRecords, left_drainRecords]

/-- With both callbacks installed, no notification touches the mapping before the consumer has been
called, and the call is about a handle that is held. -/
theorem apply_of_callbacks {c : Cache K} (hdeleted : c.onDeleted = true)
    (hreplaced : c.onReplaced = true) (e : Event K) :
    c.apply e = (c.mapping, none) ∨
      ∃ s, c.apply e = (c.mapping, some s) ∧ s.held? = some s.call.handle := by
  cases e with
  | deleted key =>
    cases hkey : c.mapping.get? key with
    | none => exact .inl (by simp [apply, hkey])
    | some handle => exact .inr ⟨.deleting key handle, by simp [apply, hkey, hdeleted], rfl⟩
  | replaced old new =>
    by_cases hne : old = new
    · exact .inl (by simp [apply, hne])
    · cases hkey : c.mapping.get? old with
      | none => exact .inl (by simp [apply, hne, hkey])
      | some handle =>
        exact .inr ⟨.replacing old handle new, by simp [apply, hne, hkey, hreplaced], rfl⟩

/-- Working off the queue holds what the consumer is called about, and changes nothing else. -/
theorem accounts_drain {c : Cache K} (hdeleted : c.onDeleted = true)
    (hreplaced : c.onReplaced = true) (queue : List (Event K)) :
    Accounts { c with stage := none } (c.drain queue).opening (c.drain queue) := by
  induction queue with
  | nil => exact Accounts.refl _
  | cons e queue ih =>
    rw [drain_cons]
    rcases apply_of_callbacks hdeleted hreplaced e with hnext | ⟨s, hnext, hheld⟩
    · rw [hnext]
      exact ih
    · rw [hnext]
      refine accounts_opening rfl fun x => ?_
      rw [hheld]
      exact Nat.add_comm _ _

/-- Moving a mapping with its new handle.  The old handle is mapped no more, and the new one is
mapped, merged, or an orphan that the consumer is called about next. -/
theorem count_rekey {c : Cache K} (hdeleted : c.onDeleted = true) {old new : K}
    {handle : ExternalHandle} (hold : c.mapping.get? old = some handle)
    (answer : Option ExternalHandle) (x : ExternalHandle) :
    [answer.getD handle].count x + c.mapping.handles.count x =
      (left (c.mergeRecords answer (.replacing old handle new))).count x +
        (c.rekey old (answer.getD handle) new).1.handles.count x + [handle].count x +
        ((c.rekey old (answer.getD handle) new).2.map (·.call.handle)).toList.count x := by
  have herase := count_erase hold x
  cases hnew : (c.mapping.erase old).get? new with
  | none =>
    have hinsert := count_insertNew hnew (answer.getD handle) x
    simp only [rekey, mergeRecords, hnew, reduceCtorEq, if_false, left_nil, Option.map_none,
      Option.toList_none, List.count_nil]
    omega
  | some existing =>
    by_cases hsame : existing = answer.getD handle
    · -- the new key has this very handle: `mergeRecords` stands in for the missing call
      simp only [rekey, mergeRecords, hnew, hsame, ne_eq, not_true_eq_false, false_and, if_false,
        if_true, left_cons, Record.left?, left_nil, Option.toList_some, List.append_nil,
        Option.map_none, Option.toList_none, List.count_nil]
      omega
    · simp only [rekey, mergeRecords, hnew, hsame, hdeleted, ne_eq, not_false_eq_true, and_self,
        if_true, Option.some.injEq, if_false, left_nil, Option.map_some, Stage.call, Call.handle,
        Option.toList_some, List.count_nil]
      omega

/-- What the return of a callback does to the books: what was held is held no more, and what the
consumer gives is accounted for. -/
theorem count_conclude {c : Cache K} (hdeleted : c.onDeleted = true) {e : Event K}
    {before : Mapping K} {s : Stage K} (hs : Underway e before s c.mapping)
    (answer : Option ExternalHandle) (x : ExternalHandle) :
    (entered [.returned s.call answer]).count x + c.mapping.handles.count x =
      (left (c.mergeRecords answer s)).count x + (c.conclude answer s).1.handles.count x +
        s.held?.toList.count x +
        ((c.conclude answer s).2.map (·.call.handle)).toList.count x := by
  cases s with
  | deleting key handle =>
    cases hs with
    | deleting hkey =>
      have herase := count_erase hkey x
      simp only [conclude, mergeRecords, Stage.call, Stage.held?, entered_cons, Record.entered?,
        entered_nil, left_nil, Option.toList_none, Option.toList_some, Option.map_none,
        List.append_nil, List.count_nil]
      omega
  | replacing old handle new =>
    cases hs with
    | replacing hne hold => exact count_rekey hdeleted hold answer x
  | orphaning old handle => simp [conclude, mergeRecords, Stage.call]

/-- The second callback of a replacement holds nothing. -/
theorem held?_of_conclude {c : Cache K} {answer : Option ExternalHandle} {s t : Stage K}
    {mapping : Mapping K} (h : c.conclude answer s = (mapping, some t)) : t.held? = none := by
  cases s with
  | deleting key handle => cases h
  | orphaning old handle => cases h
  | replacing old handle new =>
    simp only [conclude, rekey] at h
    split at h
    · cases h
    · split at h
      · cases h
        rfl
      · cases h

/-- A handle that meets itself has entered with the answer already. -/
theorem entered_mergeRecords (c : Cache K) (answer : Option ExternalHandle) (s : Stage K) :
    entered (c.mergeRecords answer s) = [] := filterMap_mergeRecords (fun _ _ => rfl) c answer s

/-! ## Runs in which no callback fails

The ledger has all that a step needs: that both callbacks are there, which notification the
running one belongs to, and the balance so far. -/

/-- The books of a run with both callbacks installed, from the start. -/
structure Ledger (start c : Cache K) (history : List (Record K)) : Prop where
  onDeleted : c.onDeleted = true
  onReplaced : c.onReplaced = true
  tracks : Tracks c history
  accounts : Accounts start history c

/-- Which callbacks there are is settled when the cache is made. -/
theorem callbacks_of_step {c c' : Cache K} {a : Action K} {rs : List (Record K)}
    (h : Step c a c' rs) : c'.onDeleted = c.onDeleted ∧ c'.onReplaced = c.onReplaced := by
  cases h with
  | dispatch e hidle => exact c.drain_callbacks (c.pending ++ [e])
  | @resume answer s hs =>
    rcases c.conclude answer s with ⟨mapping, _ | t⟩
    · exact drain_callbacks { c with mapping } c.pending
    · exact ⟨rfl, rfl⟩
  | defer => exact ⟨rfl, rfl⟩
  | abandon => exact ⟨rfl, rfl⟩
  | store => exact ⟨rfl, rfl⟩
  | erase => exact ⟨rfl, rfl⟩
  | none => exact ⟨rfl, rfl⟩

/-- A callback returns: first its own stage is settled, then either the queue is worked off or the
consumer is called again. -/
theorem accounts_resume {c : Cache K} (hdeleted : c.onDeleted = true)
    (hreplaced : c.onReplaced = true) {s : Stage K} (hs : c.stage = some s) {e : Event K}
    {before : Mapping K} (hunder : Underway e before s c.mapping) (answer : Option ExternalHandle) :
    Accounts c
      (.returned s.call answer :: (c.mergeRecords answer s ++
        c.proceedRecords (c.conclude answer s) c.pending ++
          (c.proceed (c.conclude answer s) c.pending).opening))
      (c.proceed (c.conclude answer s) c.pending) := by
  have hcount := count_conclude hdeleted hunder answer
  have hheld : c.held = s.held?.toList := by rw [held, hs, Option.bind_some]
  rcases hnext : c.conclude answer s with ⟨mapping, _ | t⟩
  -- the stage is settled, and nothing is held any more
  · have hsettled : Accounts c ([.returned s.call answer] ++ c.mergeRecords answer s)
        { c with mapping, stage := none } := by
      intro x
      have hx := hcount x
      have hfree : held { c with mapping, stage := none } = [] := rfl
      simp only [hnext, Option.map_none, Option.toList_none, List.count_nil] at hx
      rw [entered_append, entered_mergeRecords, List.append_nil, left_append, List.count_append,
        hheld, hfree, List.count_nil]
      simp only [left_cons, Record.left?, Option.toList_none, left_nil, List.nil_append,
        List.count_nil]
      omega
    have hqueue :=
      accounts_drainRecords { c with mapping, stage := none } { c with mapping } c.pending
    have hdrain := accounts_drain (c := { c with mapping }) hdeleted hreplaced c.pending
    exact (hsettled.trans hqueue).trans hdrain
  · -- an orphan: it has entered with the answer, and leaves with the call that follows
    intro x
    have hx := hcount x
    have hopen : (c.proceed (mapping, some t) c.pending).opening = [.called t.call mapping] := rfl
    have hfree : (c.proceed (mapping, some t) c.pending).held = [] := by
      show t.held?.toList = []
      rw [held?_of_conclude hnext, Option.toList_none]
    have hsame : (c.proceed (mapping, some t) c.pending).mapping = mapping := rfl
    rw [hnext] at hx
    simp only [Option.map_some, Option.toList_some] at hx
    simp only [hopen, hfree, hheld, hsame, proceedRecords, entered_cons, entered_append,
      entered_mergeRecords, entered_nil, left_cons, left_append, left_nil, Record.entered?,
      Record.left?, Option.toList_none, Option.toList_some, List.append_nil, List.nil_append,
      List.count_append, List.count_nil] at hx ⊢
    omega

/-- **Each step is accounted for.** The step may be anything but the failure of a callback. -/
theorem accounts_of_step {c c' : Cache K} {a : Action K} {rs : List (Record K)}
    (hdeleted : c.onDeleted = true) (hreplaced : c.onReplaced = true)
    (htracks : ∀ s, c.stage = some s → ∃ e before, Underway e before s c.mapping)
    (hfail : a ≠ .abandon) (hstep : Step c a c' rs) : Accounts c rs c' := by
  cases hstep with
  | defer e hbusy => exact fun x => rfl
  | dispatch e hidle =>
    -- an idle cache has no stage
    have hstage : { c with stage := none } = c := by rw [← isDispatching_eq_false_iff.1 hidle]
    have hdrain := accounts_drain hdeleted hreplaced (c.pending ++ [e])
    rw [hstage] at hdrain
    exact (accounts_drainRecords c c (c.pending ++ [e])).trans hdrain
  | resume answer hs =>
    -- the callback that returns belongs to some notification, which says what it holds
    obtain ⟨e, before, hunder⟩ := htracks _ hs
    exact accounts_resume hdeleted hreplaced hs hunder answer
  | abandon hs => exact absurd rfl hfail
  | @store _ key handle ha hidle hkey =>
    intro x
    show [handle].count x + c.mapping.handles.count x + c.held.count x =
      [].count x + (c.mapping.insertNew key handle).handles.count x + c.held.count x
    rw [count_insertNew hkey, List.count_nil]
    omega
  | @erase key handle hidle hkey =>
    intro x
    show [].count x + c.mapping.handles.count x + c.held.count x =
      [handle].count x + (c.mapping.erase key).handles.count x + c.held.count x
    rw [count_erase hkey, List.count_nil]
    omega
  | none => exact Accounts.refl c

/-- A step keeps the ledger. -/
theorem ledger_of_step {start c c' : Cache K} {a : Action K} {rs h : List (Record K)}
    (hfail : a ≠ .abandon) (hstep : Step c a c' rs) (hc : Ledger start c h) :
    Ledger start c' (h ++ rs) := by
  have hunder : ∀ s, c.stage = some s → ∃ e before, Underway e before s c.mapping := by
    intro s hs
    obtain ⟨e, before, -, hunder⟩ := hc.tracks s hs
    exact ⟨e, before, hunder⟩
  have hone : Accounts c rs c' := accounts_of_step hc.onDeleted hc.onReplaced hunder hfail hstep
  obtain ⟨hdeleted, hreplaced⟩ := callbacks_of_step hstep
  exact ⟨hdeleted.trans hc.onDeleted, hreplaced.trans hc.onReplaced, tracks_of_step hstep hc.tracks,
    hc.accounts.trans hone⟩

/-- So the ledger of a run without failures balances at every moment, callbacks that are running
included. -/
theorem ledger_run {start : Cache K} (hdeleted : start.onDeleted = true)
    (hreplaced : start.onReplaced = true) (hidle : start.isDispatching = false)
    {actions : List (Action K)} (hfail : .abandon ∉ actions) :
    Ledger start (start.run actions) (start.history actions) := by
  refine run_invariant (P := Ledger start) (fun d g a ha d' rs hstep hd => ?_) (h := []) ?_
  · exact ledger_of_step (fun heq => hfail (heq ▸ ha)) hstep hd
  · refine ⟨hdeleted, hreplaced, fun s hs => ?_, Accounts.refl start⟩
    rw [isDispatching_eq_false_iff.1 hidle] at hs
    cases hs

/-- **No handle is lost, and none is released twice.**  Both callbacks are installed and none fails.
Whenever the cache is idle, the handles that have entered it are those that are mapped, those whose
end the consumer was told, those that callers removed, those that the consumer was asked to replace,
and those that were there already.  So if no handle enters twice, the consumer is told the end of
each at most once, and never that of a handle that is mapped. -/
theorem handles_conserved (actions : List (Action K)) (hfail : .abandon ∉ actions)
    (hidle : ((fresh true true : Cache K).run actions).isDispatching = false) :
    let history := (fresh true true : Cache K).history actions
    let c := (fresh true true : Cache K).run actions
    (entered history : Multiset ExternalHandle) =
        c.mapping.handles + reported history + removed history + replaced history +
          merged history ∧
      ((entered history).Nodup →
        (reported history).Nodup ∧ ∀ handle ∈ c.mapping.handles, handle ∉ reported history) := by
  intro history c
  -- handle by handle; the cache is idle, so nothing is held
  have hcount : ∀ x, (entered history).count x = c.mapping.handles.count x +
      (reported history).count x + (removed history).count x + (replaced history).count x +
        (merged history).count x := by
    intro x
    have hfree : c.held = [] := by
      rw [held, isDispatching_eq_false_iff.1 hidle, Option.bind_none, Option.toList_none]
    have hx : (entered history).count x + 0 + c.held.count x =
        (left history).count x + c.mapping.handles.count x + 0 :=
      (ledger_run rfl rfl rfl hfail).accounts x
    have hleft := count_left x history
    rw [hfree, List.count_nil] at hx
    omega
  refine ⟨?_, fun hnodup => ⟨?_, fun handle hmapped hreported => ?_⟩⟩
  · refine Multiset.ext.2 fun x => ?_
    have hx := hcount x
    simp only [Multiset.coe_count, Multiset.count_add]
    omega
  · refine List.nodup_iff_count_le_one.2 fun x => ?_
    have hone := List.nodup_iff_count_le_one.1 hnodup x
    have hx := hcount x
    omega
  · have hone := List.nodup_iff_count_le_one.1 hnodup handle
    have hx := hcount handle
    have hmapped' := List.count_pos_iff.2 hmapped
    have hreported' := List.count_pos_iff.2 hreported
    omega

/-- Handles that leave in each of the four ways, and one that stays: `10` is replaced by `30`, which
is an orphan beside `20`; `20` is replaced by the `40` that is there already; `40` is reported, `50`
removed, and `60` is still mapped. -/
theorem four_ways_conserved :
    let actions : List (Action Int64) :=
      [.insert 1 10, .insert 2 20, .insert 3 40, .settle 5 50, .settle 6 60,
        .raise (.replaced 1 2), .raise (.replaced 2 3), .resume (some 30), .resume none,
        .resume (some 40), .remove 5, .raise (.deleted 3), .resume none]
    let history := (fresh true true : Cache Int64).history actions
    let c := (fresh true true : Cache Int64).run actions
    Action.abandon ∉ actions ∧ c.isDispatching = false ∧
    c.mapping.handles = [60] ∧ reported history = [30, 40] ∧ removed history = [50] ∧
    replaced history = [10, 20] ∧ merged history = [40] ∧
    (entered history : Multiset ExternalHandle) =
      c.mapping.handles + reported history + removed history + replaced history +
        merged history := by
  intro actions history c
  have hfail : Action.abandon ∉ actions := by decide
  have hidle : c.isDispatching = false := by decide
  exact ⟨hfail, hidle, by decide, by decide, by decide, by decide, by decide,
    (handles_conserved actions hfail hidle).1⟩

end Cache

end ForeignHandles
