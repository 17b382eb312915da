import ForeignHandles.Proofs.Cache.Handles
import ForeignHandles.Proofs.Host.Step

/-!
  A cache is a finite map to handles other than zero.

  Zero is what a look-up reports for a value without a handle, so a caller can only tell the two
  apart if no value has the handle zero.  An insertion declines it; the other way for a handle to
  come in is the answer to a replacement, and there it is the duty of the consumer not to give it
  (`Dutiful`).  Then no cache ever has it (`withoutZero_run`).

  `IsFiniteMap` is what callers can rely on then, as long as no callback of the cache runs: the
  calls are the operations of a map, told apart by zero alone.
-/
namespace ForeignHandles.Host

variable {h : Host} {k : Ref .cache} {x : BoundCache}

/-! ## A condition on every cache

Two conditions are carried over a run in this module, that no handle is zero and that the agenda
waits for every busy cache. Both are about each cache by itself, and what the operations of the
host do to caches is said once for all such conditions. -/

/-- All caches satisfy `P`, each under its own name. -/
def EveryCache (P : Ref .cache → Cache (Ref .value) → Prop) (h : Host) : Prop :=
  ∀ k x, h.caches.get? k = some x → P k x.cache

namespace EveryCache

variable {P : Ref .cache → Cache (Ref .value) → Prop}

/-- A new cache is empty. -/
theorem createCache (he : EveryCache P h) (c : Ref .context) (onDeleted onReplaced : Bool)
    (hnew : ∀ k, P k { onDeleted, onReplaced }) :
    EveryCache P (h.createCache (some c) onDeleted onReplaced).2 := by
  intro k x hx
  simp only [Host.createCache, Arena.get?_alloc] at hx
  split at hx
  · cases hx
    exact hnew k
  · exact he k x hx

/-- Disposing of a cache keeps its mapping. -/
theorem disposeCache (he : EveryCache P h) (k : Ref .cache) :
    EveryCache P (h.disposeCache (some k)) := by
  intro j y hy
  simp only [Host.disposeCache, Arena.get?_modify] at hy
  split at hy
  · obtain ⟨x, hx, rfl⟩ := Option.map_eq_some_iff.1 hy
    exact he j x hx
  · exact he j y hy

/-- A cache that is put back has to meet the condition again, -/
theorem putCache (he : EveryCache P h) {c : Cache (Ref .value)} (hc : P k c) :
    EveryCache P (h.putCache (some k) c) := by
  intro j y hy
  simp only [Host.putCache, Arena.get?_modify] at hy
  split at hy
  next hj =>
    obtain ⟨x, -, rfl⟩ := Option.map_eq_some_iff.1 hy
    exact hj ▸ hc
  next => exact he j y hy

/-- and so has one that is told of a notice. -/
theorem notify (he : EveryCache P h) (notice : Notice)
    (hraise : ∀ x, h.caches.get? k = some x → P k (x.cache.raise notice.event)) :
    EveryCache P (h.notify k notice) := by
  cases hx : h.caches.get? k with
  | none =>
    rw [notify_of_none hx]
    exact he
  | some x =>
    rw [notify_of_get? hx]
    exact he.putCache (hraise x hx)

end EveryCache

/-! ## Zero stays out

There are two ways for a handle into a cache: an insertion, which declines zero, and an answer to
a replacement, which does not look. -/

/-- A consumer does not give zero for a replacement. -/
def Dutiful (h : Host) : Action → Prop
  | .answer handle => ∀ k old held new,
      h.call? = some (.cache k (.replaced old held new)) → handle ≠ some noHandle
  | _ => True

/-- No cache has the handle zero. -/
def WithoutZero : Host → Prop := EveryCache fun _ c => c.Holds (· ≠ noHandle)

/-- The reserved handle is declined. -/
theorem act_insert_noHandle (h : Host) (k : Handle .cache) (v : Handle .value) :
    h.act (.cacheInsert k v noHandle) = h := by
  rcases cacheInsert_cases h k v noHandle with ⟨e, he⟩ | ⟨_, _, _, _, _, hhandle, _⟩
  · rw [act, he]
  · exact absurd rfl hhandle

/-- An action keeps zero out, if it neither inserts it nor answers a replacement with it. -/
theorem withoutZero_step {a : Action} {h' : Host} {rs : List Record} (hs : Step h a h' rs)
    (hinsert : ∀ k v, a ≠ .cacheInsert k v noHandle) (ha : h.Dutiful a) (hz : h.WithoutZero) :
    h'.WithoutZero := by
  cases hs with
  | edit | addObserver | dropObserver | delete | replace | dispose | tellObserver | settled | skip
  | release | vanish | retire | heard | none => exact hz
  | createCache onDeleted onReplaced =>
    exact EveryCache.createCache hz _ _ _ fun _ => Cache.holds_fresh _ onDeleted onReplaced
  | disposeCache => exact EveryCache.disposeCache hz _
  | insert handle hx =>
    -- the insertion has been accepted, so its handle is not zero
    have hhandle : handle ≠ noHandle := by
      rintro rfl
      exact hinsert _ _ rfl
    exact EveryCache.putCache hz ((hz _ _ hx).insertNew _ hhandle)
  | remove v place hx => exact EveryCache.putCache hz ((hz _ _ hx).erase v)
  | @tellCache k notice agenda =>
    exact EveryCache.notify (h := { h with agenda }) hz notice fun x hx => (hz k x hx).raise _
  | @resume k x s agenda handle hfront hx hstage =>
    -- an answer counts only while a replacement is announced, and there the consumer is dutiful
    refine EveryCache.putCache hz ((hz _ _ hx).resume fun old held new hreplacing z hanswer => ?_)
    have hcall : h.call? = some (.cache k (.replaced old held new)) := by
      simp [call?, hfront, hx, Cache.call?, hreplacing, Stage.call]
    rintro rfl
    exact ha k old held new hcall hanswer

/-- If replacements are never answered with zero, then no cache ever has the handle zero. -/
theorem withoutZero_run {actions : List Action} (hs : h.Sole) (hok : Along Dutiful h actions)
    (hz : h.WithoutZero) : (h.run actions).WithoutZero := by
  induction actions generalizing h with
  | nil => exact hz
  | cons a actions ih =>
    have hstep := step_act hs a
    refine ih (sole_of_step hstep hs) hok.2 ?_
    by_cases hinsert : ∃ k v, a = .cacheInsert k v noHandle
    · obtain ⟨k, v, rfl⟩ := hinsert
      rw [act_insert_noHandle]
      exact hz
    · exact withoutZero_step hstep (fun k v heq => hinsert ⟨k, v, heq⟩) hok.1 hz

/-! ## When a cache is idle

A cache whose consumer is being called has a job on the agenda that waits for it. So no consumer
is being called when the agenda is empty, and callers can tell: no operation of theirs is under
way. -/

/-- The agenda waits for every cache whose consumer is being called. -/
def Awaited (h : Host) : Prop :=
  h.EveryCache fun k c => c.isDispatching = true → .settle k ∈ h.agenda

/-- A job that is no wait may be taken off the front. -/
theorem Awaited.tail (hw : h.Awaited) {job : Job} {agenda : List Job}
    (hfront : h.agenda = job :: agenda) (hjob : ∀ k, job ≠ .settle k) :
    ({ h with agenda } : Host).Awaited := by
  intro k x hx hbusy
  have hmem := hw k x hx hbusy
  rw [hfront] at hmem
  rcases List.mem_cons.1 hmem with heq | hrest
  · exact absurd heq.symm (hjob k)
  · exact hrest

/-- More jobs in front do no harm. -/
theorem Awaited.push (hw : h.Awaited) (jobs : List Job) :
    ({ h with agenda := jobs ++ h.agenda } : Host).Awaited :=
  fun k x hx hbusy => List.mem_append_right _ (hw k x hx hbusy)

/-- A cache that stops at a callback is waited for from then on. -/
theorem Awaited.notify (hw : h.Awaited) (k : Ref .cache) (notice : Notice) :
    (h.notify k notice).Awaited := by
  cases hx : h.caches.get? k with
  | none =>
    rw [notify_of_none hx]
    exact hw
  | some x =>
    rw [notify_of_get? hx]
    refine EveryCache.putCache (h := { h with agenda := _ }) (k := k) (hw.push _) fun hbusy => ?_
    -- the cache was busy before, or it has just become so
    cases hold : x.cache.isDispatching with
    | true => exact List.mem_append_right _ (hw k x hx hold)
    | false => simp [hbusy]

/-- Every step keeps the waits that are needed: a wait is only taken off for a cache that is idle,
-/
theorem awaited_step {a : Action} {h' : Host} {rs : List Record} (hs : Step h a h' rs)
    (hw : h.Awaited) : h'.Awaited := by
  cases hs with
  | edit | addObserver | dropObserver | none => exact hw
  | createCache => exact EveryCache.createCache hw _ _ _ fun _ hbusy => nomatch hbusy
  | disposeCache => exact EveryCache.disposeCache hw _
  | insert handle hx hidle =>
    exact EveryCache.putCache hw fun hbusy => absurd (hidle.symm.trans hbusy) Bool.false_ne_true
  | remove v place hx hidle =>
    exact EveryCache.putCache hw fun hbusy => absurd (hidle.symm.trans hbusy) Bool.false_ne_true
  | @delete a v agenda hfront =>
    -- a deletion is asked for by a caller or is the first job, which is no wait
    have hrest : ({ h with agenda } : Host).Awaited := by
      rcases hfront with ⟨-, rfl⟩ | ⟨-, hfront⟩
      · exact hw
      · exact hw.tail hfront (by simp)
    rw [← List.singleton_append, ← List.append_assoc]
    exact hrest.push _
  | replace => exact Awaited.push (h := { h with store := _ }) hw _
  | dispose =>
    rw [← List.singleton_append, ← List.append_assoc]
    exact hw.push _
  | tellObserver hfront => exact (hw.tail hfront (by simp)).push [_]
  | tellCache hfront => exact (hw.tail hfront (by simp)).notify _ _
  | @settled k agenda hfront hidle =>
    intro j y hy hbusy
    -- the wait that is taken off is for an idle cache, so it is not this one's
    have hmem := hw j y hy hbusy
    rw [hfront] at hmem
    rcases List.mem_cons.1 hmem with heq | hrest
    · cases heq
      rw [hidle y hy] at hbusy
      cases hbusy
    · exact hrest
  | skip hfront => exact hw.tail hfront (by simp)
  | release hfront => exact (hw.tail hfront (by simp)).push _
  | vanish hfront => exact hw.tail hfront (by simp)
  | retire hfront => exact hw.tail hfront (by simp)
  | heard handle hfront => exact hw.tail hfront (by simp)
  | resume handle hfront => exact EveryCache.putCache hw fun _ => hfront ▸ List.mem_cons_self

/-- and so does every run. -/
theorem awaited_run (hs : h.Sole) (hw : h.Awaited) (actions : List Action) :
    (h.run actions).Awaited := by
  induction actions generalizing h with
  | nil => exact hw
  | cons a actions ih =>
    have hstep := step_act hs a
    exact ih (sole_of_step hstep hs) (awaited_step hstep hw)

/-- When no operation is under way, every cache is idle. -/
theorem Awaited.idle (hw : h.Awaited) (hdone : h.agenda = []) (hx : h.caches.get? k = some x) :
    x.cache.isDispatching = false := by
  refine Bool.eq_false_iff.2 fun hbusy => ?_
  have hmem := hw k x hx hbusy
  rw [hdone] at hmem
  cases hmem

/-! ## The map

The laws are stated with what callers get to see, the reply and the place that is written to, and
not with the mapping inside. A look-up of zero and the absence of a handle are the same thing to a
caller. -/

/-- The calls of an idle cache are the operations of a finite map to handles other than zero. -/
structure IsFiniteMap (h : Host) (k : Ref .cache) : Prop where
  /-- A look-up writes the handle of a value that has one. -/
  lookup_some : ∀ {v handle}, h.mapped k v = some handle →
    h.cacheLookup (some k) (some v) true = .ok true handle
  /-- It writes zero exactly for a value that has none. -/
  lookup_zero : ∀ v, h.cacheLookup (some k) (some v) true = .ok true noHandle ↔ h.mapped k v = none
  /-- A handle can be inserted exactly where a look-up writes zero. -/
  insert_iff : ∀ v {handle}, handle ≠ noHandle →
    ((h.cacheInsert (some k) (some v) handle).1 = .ok () ↔
      h.cacheLookup (some k) (some v) true = .ok true noHandle)
  /-- Then that value has it, and nothing else changes in any cache. -/
  inserted : ∀ {v handle}, (h.cacheInsert (some k) (some v) handle).1 = .ok () → ∀ j w,
    (h.cacheInsert (some k) (some v) handle).2.mapped j w =
      if j = k ∧ w = v then some handle else h.mapped j w
  /-- Where it cannot, the error says which handle the value has, and nothing changes. -/
  declined : ∀ {v handle e}, handle ≠ noHandle →
    (h.cacheInsert (some k) (some v) handle).1 = .error e →
      (h.cacheInsert (some k) (some v) handle).2 = h ∧
        ∃ existing, h.cacheLookup (some k) (some v) true = .ok true existing ∧
          ∀ written, e.message written =
            "value is already cached with handle " ++ toString existing.toInt
  /-- A removal writes what a look-up would have written. -/
  remove : ∀ v place, ∃ handle,
    h.cacheLookup (some k) (some v) true = .ok true handle ∧
      (h.cacheRemove (some k) (some v) place).1 = .ok place handle
  /-- Then the value has no handle, and nothing else changes in any cache. -/
  removed : ∀ v place j w,
    (h.cacheRemove (some k) (some v) place).2.mapped j w =
      if j = k ∧ w = v then none else h.mapped j w
  /-- A cache is empty exactly if every look-up writes zero. -/
  isEmpty : cBool (h.cacheIsEmpty (some k)) = 1 ↔
    ∀ v, h.cacheLookup (some k) (some v) true = .ok true noHandle

/-- Replies with different handles differ. -/
theorem ok_inj {a b : ExternalHandle} : Reply.ok true a = .ok true b ↔ a = b := by
  simp [Reply.ok]

/-- A cache is empty if no value has a handle. -/
theorem isEmpty_iff_mapped (hx : h.caches.get? k = some x) :
    h.cacheIsEmpty (some k) = true ↔ ∀ v, h.mapped k v = none := by
  have hempty : h.cacheIsEmpty (some k) = x.cache.isEmpty := by simp [cacheIsEmpty, cache?, hx]
  rw [hempty, Cache.isEmpty, List.isEmpty_iff]
  constructor
  · intro hnil v
    simp [mapped_of_get? hx, Mapping.get?, hnil]
  · intro hnone
    refine List.eq_nil_iff_forall_not_mem.2 fun p hp => ?_
    have hget := (x.cache.mapping.mem_entries_iff p.1 p.2).1 hp
    rw [← mapped_of_get? hx, hnone] at hget
    cases hget

/-- The calls of a cache that is idle and has no zero are the operations of a map. -/
theorem isFiniteMap (hz : h.WithoutZero) (hx : h.caches.get? k = some x)
    (hidle : x.cache.isDispatching = false) : h.IsFiniteMap k := by
  have hlookup := cacheLookup_of_idle hx hidle
  -- zero is no handle here, so it is written for values without one only
  have hzero (v : Ref .value) :
      h.cacheLookup (some k) (some v) true = .ok true noHandle ↔ h.mapped k v = none := by
    rw [hlookup, ok_inj]
    cases hv : h.mapped k v with
    | none => simp
    | some handle =>
      rw [mapped_of_get? hx] at hv
      have hne : handle ≠ noHandle := (hz k x hx).mapped _ _ hv
      simpa using hne
  -- of the reasons to decline an insertion only one is left: the value has a handle
  have hinsert (v : Ref .value) {handle : ExternalHandle} (hne : handle ≠ noHandle) :
      (h.cacheInsert (some k) (some v) handle).1 = .ok () ↔ h.mapped k v = none := by
    rw [mapped_of_get? hx]
    cases hv : x.cache.mapping.get? v with
    | none => simp [cacheInsert_of_absent hx hidle hv hne]
    | some existing => simp [cacheInsert_of_mapped hx hidle hv hne]
  exact {
    lookup_some := fun {v handle} hv => by rw [hlookup, hv, Option.getD_some]
    lookup_zero := hzero
    insert_iff := fun v {handle} hne => (hinsert v hne).trans (hzero v).symm
    inserted := fun {v handle} hok j w => by
      rcases cacheInsert_cases h (some k) (some v) handle with
        ⟨e, he⟩ | ⟨_, y, _, hk, hv, hne, hy, -, hnone⟩
      · rw [he] at hok
        cases hok
      · cases hk
        cases hv
        obtain rfl : x = y := by simpa [hx] using hy
        rw [cacheInsert_of_absent hx hidle hnone hne, mapped_putCache hx, Mapping.get?_insertNew,
          hnone]
        by_cases hj : j = k <;> by_cases hw : w = v <;> simp [hj, hw, mapped_of_get? hx]
    declined := fun {v handle e} hne herr => by
      cases hv : x.cache.mapping.get? v with
      | none =>
        rw [cacheInsert_of_absent hx hidle hv hne] at herr
        cases herr
      | some existing =>
        rw [cacheInsert_of_mapped hx hidle hv hne] at herr ⊢
        cases herr
        refine ⟨rfl, existing, ?_, fun written => rfl⟩
        rw [hlookup, mapped_of_get? hx, hv, Option.getD_some]
    remove := fun v place => ⟨_, hlookup v, by rw [cacheRemove_of_idle hx hidle]⟩
    removed := fun v place j w => by
      rw [cacheRemove_of_idle hx hidle, mapped_putCache hx, Mapping.get?_erase]
      by_cases hj : j = k <;> by_cases hw : w = v <;> simp [hj, hw, mapped_of_get? hx]
    isEmpty := by
      simp only [hzero, ← isEmpty_iff_mapped hx]
      cases h.cacheIsEmpty (some k) <;> decide }

/-- **A cache is a finite map.** As long as no consumer gives zero for a replacement, no cache ever
has the handle zero.  Hence, whenever no callback of a cache runs, its calls are the operations of a
finite map to handles other than zero; and no callback runs when no operation is under way.

What consumers have to see to cannot be left out: zero is how a look-up says that there is no handle,
and a cache stores what it is given for a replacement without a look at it. -/
theorem cache_is_finite_map {actions : List Action} (hok : Along Dutiful opened actions) :
    (∀ k v, (opened.run actions).mapped k v ≠ some noHandle) ∧
      (∀ {k x}, (opened.run actions).caches.get? k = some x → x.cache.isDispatching = false →
        (opened.run actions).IsFiniteMap k) ∧
      ((opened.run actions).agenda = [] →
        ∀ {k x}, (opened.run actions).caches.get? k = some x → x.cache.isDispatching = false) := by
  have hz : (opened.run actions).WithoutZero :=
    withoutZero_run sole_opened hok fun k x hx => by cases hx
  have hw : (opened.run actions).Awaited :=
    awaited_run sole_opened (fun k x hx => by cases hx) actions
  refine ⟨fun k v hv => ?_, fun hx hidle => isFiniteMap hz hx hidle, fun hdone _ _ hx =>
    hw.idle hdone hx⟩
  obtain ⟨x, hx, hv⟩ := Option.bind_eq_some_iff.1 hv
  exact (hz k x hx).mapped _ _ hv rfl

/-- A cached variable is replaced by another one, for which the consumer gives a new handle. -/
def movedHandle (answer : ExternalHandle) : List Action :=
  [.edit (.createModule "m"), .edit (.addGlobalVariable ⟨0⟩ "v"),
    .edit (.addGlobalVariable ⟨0⟩ "w"), .createCache true true,
    .cacheInsert (some ⟨0⟩) (some ⟨0⟩) 7, .replaceAllUses ⟨0⟩ ⟨1⟩, .step, .answer (some answer),
    .step]

/-- The consumer gives `9`, which the new value has afterwards. -/
theorem movedHandle_is_finite_map :
    Along Dutiful opened (movedHandle 9) ∧ (opened.run (movedHandle 9)).IsFiniteMap ⟨0⟩ ∧
      (opened.run (movedHandle 9)).mapped ⟨0⟩ ⟨1⟩ = some 9 ∧
      (opened.run (movedHandle 9)).mapped ⟨0⟩ ⟨0⟩ = none := by
  have hok : Along Dutiful opened (movedHandle 9) :=
    ⟨trivial, trivial, trivial, trivial, trivial, trivial, trivial,
      fun _ _ _ _ _ => by decide, trivial, trivial⟩
  exact ⟨hok, (cache_is_finite_map hok).2.1 rfl rfl, rfl, rfl⟩

/-- A consumer that gives zero makes a value look as if it had no handle; it cannot be inserted
either. -/
example :
    let h := opened.run (movedHandle 0)
    h.cacheLookup (some ⟨0⟩) (some ⟨1⟩) true = .ok true noHandle ∧
      (h.cacheInsert (some ⟨0⟩) (some ⟨1⟩) 5).1 = .error (.cache (.alreadyMapped 0)) :=
  ⟨rfl, rfl⟩

end ForeignHandles.Host
