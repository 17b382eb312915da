import ForeignHandles.Proofs.Host.Course
import ForeignHandles.Proofs.Store.MetadataEdit

/-!
  A cache and a wrapper that follow one value.

  A host has two ways to keep up with what becomes of a value.  Uses are redirected at once, in the
  store; caches are told, one after the other, and work it off in their own time.  Take a wrapper of
  a value, and a cache in which that value alone has a certain handle.  If the cache moves handles
  as they are, then between two operations the handle is under the value that the wrapper has, and
  nowhere else.

  In the middle of an operation the two are apart, but by one notice at most.  `Bears` says which
  key has the handle, and `Lags` how far that key is behind the wrapper's value:

  * while a replacement is announced, the wrapper has the new value already, and the key is the
    old value until the cache is told;
  * while a deletion is announced, the wrapper has the value still, and the key goes when the cache
    has been told and its consumer has returned;
  * both have caught up when the announcement is over.

  A replacement by a value that is a key itself would bring the handle to nothing, so nobody may
  replace the wrapper's value by such a one, nor touch the handle otherwise (`LeavesAlone`).  And a
  listener must not delete or replace values while it is being told (`Orderly`): the uses would be
  redirected out of turn, before caches have been told of what came first.
-/
namespace ForeignHandles

/-- Another target stays, -/
theorem redirected_of_ne {old : Ref .value} {new target : Handle .value} (h : target ≠ some old) :
    redirected old new target = target := if_neg h

/-- the target itself moves, -/
theorem redirected_self (old : Ref .value) (new : Handle .value) :
    redirected old new (some old) = new := if_pos rfl

/-- and afterwards it is not the old value, unless that is what it moves to. -/
theorem redirected_ne {old : Ref .value} {new : Handle .value} (h : new ≠ some old)
    (target : Handle .value) : redirected old new target ≠ some old := by
  unfold redirected
  split
  · exact h
  · assumption

/-- Moving twice is moving once. -/
theorem redirected_redirected {old : Ref .value} {new : Handle .value} (h : new ≠ some old)
    (target : Handle .value) :
    redirected old new (redirected old new target) = redirected old new target :=
  redirected_of_ne (redirected_ne h target)

/-! ## The key that has a handle

`Bears` is the mapping seen from one handle. Each operation on the mapping moves the key, or
leaves it, just as a redirection moves a target; that the two moves are described by the same
function (`redirected`) is what the comparison rests on. -/

/-- A handle is under one key, or under none. -/
def Mapping.Bears {K : Type} [DecidableEq K] (m : Mapping K) (handle : ExternalHandle)
    (bearer : Option K) : Prop :=
  ∀ key, m.get? key = some handle ↔ bearer = some key

namespace Mapping.Bears

variable {m : Mapping (Ref .value)} {handle given : ExternalHandle} {bearer : Handle .value}
  {v : Ref .value}

/-- A key that has another handle, or none, does not bear this one. -/
theorem ne_of_get? (hb : m.Bears handle bearer) (hv : m.get? v ≠ some handle) :
    bearer ≠ some v := fun heq => hv ((hb v).2 heq)

/-- Another handle comes in. -/
theorem insertNew (hb : m.Bears handle bearer) (hgiven : given ≠ handle) (hv : m.get? v = none) :
    (m.insertNew v given).Bears handle bearer := by
  intro key
  rw [get?_insertNew, hv, Option.getD_none]
  by_cases hkey : key = v
  · subst hkey
    have hne : bearer ≠ some key := hb.ne_of_get? (by simp [hv])
    simp [hgiven, hne]
  · rw [if_neg hkey]
    exact hb key

/-- The handle comes in under a new key. -/
theorem insertSelf (hb : m.Bears handle none) (hv : m.get? v = none) :
    (m.insertNew v handle).Bears handle (some v) := by
  intro key
  rw [get?_insertNew, hv, Option.getD_none]
  by_cases hkey : key = v
  · simp [hkey]
  · have hne : m.get? key ≠ some handle := fun heq => nomatch (hb key).1 heq
    simp [hkey, hne, Ne.symm hkey]

/-- A key goes, and with it the handle if it was there. -/
theorem erase (hb : m.Bears handle bearer) (v : Ref .value) :
    (m.erase v).Bears handle (redirected v none bearer) := by
  intro key
  rw [get?_erase]
  unfold redirected
  by_cases hkey : key = v
  · subst hkey
    -- the key that goes bears the handle or not
    by_cases hbearer : bearer = some key <;> simp [hbearer]
  · rw [if_neg hkey, hb key]
    by_cases hbearer : bearer = some v
    · simp [hbearer, Ne.symm hkey]
    · rw [if_neg hbearer]

variable {c : Cache (Ref .value)} {old new : Ref .value}

/-- A mapping moves.  If it is the one of the handle, then the new key must be free. -/
theorem rekey (hb : c.mapping.Bears handle bearer) (hold : c.mapping.get? old = some given)
    (hfree : bearer = some old → c.mapping.get? new = none) (hne : old ≠ new) :
    (c.rekey old given new).1.Bears handle (redirected old (some new) bearer) := by
  have hrest : (c.mapping.erase old).get? new = c.mapping.get? new := by
    rw [get?_erase, if_neg hne.symm]
  have herased := hb.erase old
  by_cases hbearer : bearer = some old
  · -- the old key bears the handle, so that is what moves
    have hgiven : given = handle := by
      have hself := (hb old).2 hbearer
      rw [hold] at hself
      exact Option.some.inj hself
    have hnew := hrest.trans (hfree hbearer)
    rw [hbearer, redirected_self] at herased
    simp only [Cache.rekey, hnew, hbearer, hgiven, redirected_self]
    exact herased.insertSelf hnew
  -- another handle moves, and this one stays where it is
  · have hgiven : given ≠ handle := by
      rintro rfl
      exact hbearer ((hb old).1 hold)
    rw [redirected_of_ne hbearer] at herased ⊢
    cases hnew : (c.mapping.erase old).get? new with
    | none =>
      simp only [Cache.rekey, hnew]
      exact herased.insertNew hgiven hnew
    | some existing =>
      simp only [Cache.rekey, hnew]
      exact herased

/-! ### What a notification does to it -/

/-- A replacement is worked off at once if nobody is asked for a handle. -/
theorem apply_replaced (hb : c.mapping.Bears handle bearer) (hmoves : c.onReplaced = false)
    (hfree : bearer = some old → c.mapping.get? new = none) (hne : old ≠ new) :
    (c.apply (.replaced old new)).1.Bears handle (redirected old (some new) bearer) := by
  simp only [Cache.apply, if_neg hne]
  cases hold : c.mapping.get? old with
  | none =>
    have hbearer : bearer ≠ some old := hb.ne_of_get? (by simp [hold])
    rw [redirected_of_ne hbearer]
    exact hb
  | some given =>
    simp only [hmoves, Bool.false_eq_true, if_false]
    exact hb.rekey hold hfree hne

/-- A deletion is worked off at once, or the consumer is told first and nothing has changed. -/
theorem apply_deleted (hb : c.mapping.Bears handle bearer) (v : Ref .value) :
    (c.apply (.deleted v)).1.Bears handle (redirected v none bearer) ∨
      (c.apply (.deleted v)).1.Bears handle bearer ∧ (c.apply (.deleted v)).2 ≠ none := by
  cases hv : c.mapping.get? v with
  | none =>
    have hbearer : bearer ≠ some v := hb.ne_of_get? (by simp [hv])
    simp only [Cache.apply, hv, redirected_of_ne hbearer]
    exact .inl hb
  | some given =>
    -- the key goes now, or when the consumer has been told
    by_cases hasks : c.onDeleted = true
    · simp only [Cache.apply, hv, if_pos hasks]
      exact .inr ⟨hb, by simp⟩
    · simp only [Cache.apply, hv, if_neg hasks]
      exact .inl (hb.erase v)

end Mapping.Bears

/-! ## A cache that moves handles as they are

Such a cache never waits for a handle. It may still wait for its consumer to hear of a handle that
nothing refers to any more. -/

namespace Cache

/-- Its consumer is never asked for another handle. -/
structure Plain (c : Cache (Ref .value)) : Prop where
  /-- A replacement moves the handle without asking. -/
  moves : c.onReplaced = false
  /-- So it is not asking now either. -/
  stage : ∀ {old handle new}, c.stage ≠ some (.replacing old handle new)

namespace Plain

variable {c : Cache (Ref .value)}

/-- Whatever the notification, the consumer is only told of handles that nothing refers to. -/
theorem stage_apply (hc : c.Plain) (e : Event (Ref .value)) {old new : Ref .value}
    {given : ExternalHandle} : (c.apply e).2 ≠ some (.replacing old given new) := by
  intro hstage
  cases e with
  | deleted v =>
    have hof := isOf_apply hstage
    cases hof
  | replaced before' after' =>
    simp only [Cache.apply, hc.moves, Bool.false_eq_true, if_false] at hstage
    split at hstage
    · cases hstage
    · split at hstage
      · cases hstage
      · cases stage_rekey hstage

/-- A notification leaves the cache as it is in this respect. -/
theorem raise (hc : c.Plain) (hstage : c.stage = none) (hpending : c.pending = [])
    (e : Event (Ref .value)) : (c.raise e).Plain := by
  rw [Cache.raise_of_ready hstage hpending]
  exact ⟨hc.moves, hc.stage_apply e⟩

/-- When the consumer returns, the cache is done. -/
theorem conclude (hc : c.Plain) {s : Stage (Ref .value)} (hstage : c.stage = some s)
    (answer : Option ExternalHandle) : (c.conclude answer s).2 = none := by
  cases s with
  | deleting key handle => rfl
  | orphaning old handle => rfl
  -- this is the one callback that could move something else
  | replacing old handle new => exact absurd hstage hc.stage

/-- So does a return. -/
theorem resume (hc : c.Plain) {s : Stage (Ref .value)} (hstage : c.stage = some s)
    (hpending : c.pending = []) (answer : Option ExternalHandle) : (c.resume answer).Plain := by
  rw [Cache.resume_of_ready hstage hpending]
  refine ⟨hc.moves, fun heq => ?_⟩
  rw [hc.conclude hstage] at heq
  cases heq

end Plain

end Cache

namespace Host

/-! ## How far a cache is behind

`Follows` is an invariant of the phase, the cache and the wrapper. It is kept by everything that
can happen to the cache (`Course`), one lemma for each way in which something is not simply left
alone. -/

/-- How the key of the handle and the value of the wrapper differ in each phase. -/
def Lags (k : Ref .cache) (c : Cache (Ref .value)) (target bearer : Handle .value) : Phase → Prop
  | .between _ => target = bearer
  | .telling _ (.replaced old new) waiting _ =>
    old ≠ new ∧ target = redirected old (some new) bearer ∧
      (bearer = some old → .cache k ∈ waiting ∧ c.mapping.get? new = none)
  | .telling _ (.deleted v) waiting _ =>
    redirected v none target = redirected v none bearer ∧
      (bearer = some v → .cache k ∈ waiting ∨ c.stage ≠ none)

variable {φ φ' : Phase} {k : Ref .cache} {c : Cache (Ref .value)} {target bearer : Handle .value}

/-- When the announcement is over, the cache has caught up. -/
theorem Lags.eq_of_done (hl : Lags k c target bearer φ) {later : List (Ref .value)}
    (hdone : φ.Done later) : target = bearer := by
  rcases hdone with rfl | ⟨old, new, rfl⟩
  · exact hl
  · obtain ⟨-, htarget, hwaits⟩ := hl
    -- nobody waits any more, so the cache has been told
    have hbearer : bearer ≠ some old := fun heq => nomatch (hwaits heq).1
    rw [htarget, redirected_of_ne hbearer]

/-- Other keys may come and go in the meantime, as long as the key that the handle is about to get
stays free. -/
theorem Lags.remap (hl : Lags k c target bearer φ) (mapping : Mapping (Ref .value))
    (hfree : ∀ {current old new waiting later},
      φ = .telling current (.replaced old new) waiting later → bearer = some old →
        c.mapping.get? new = none → mapping.get? new = none) :
    Lags k { c with mapping } target bearer φ := by
  cases φ with
  | between later => exact hl
  | telling current notice waiting later =>
    cases notice with
    | deleted v => exact hl
    | replaced old new =>
      obtain ⟨hne, htarget, hwaits⟩ := hl
      exact ⟨hne, htarget, fun hbearer =>
        ⟨(hwaits hbearer).1, hfree rfl hbearer (hwaits hbearer).2⟩⟩

/-- A cache that follows a wrapper, except for what it has not been told. -/
structure Follows (s : Store) (φ : Phase) (k : Ref .cache) (w : Ref .metadata)
    (handle : ExternalHandle) (x : BoundCache) : Prop where
  /-- It never has a notification queued, as long as nothing is announced inside an announcement. -/
  paced : Paced φ k x.cache
  plain : x.cache.Plain
  /-- Once it is disposed of, it need not follow any more. -/
  lags : x.disposed = false → ∃ target bearer, s.target? (.wrapper w) = some target ∧
    x.cache.mapping.Bears handle bearer ∧ Lags k x.cache target bearer φ

/-- An action leaves a handle and a wrapper to follow their value: callers touch neither, and if
the value of the wrapper is replaced, then the new one is not a key of the cache. -/
def LeavesAlone (k : Ref .cache) (handle : ExternalHandle) (w : Ref .metadata) (h : Host) :
    Action → Prop
  | .cacheInsert j v given =>
    j = some k → given ≠ handle ∧ (v ≠ none → h.store.wrappedValue (some w) ≠ v)
  | .cacheRemove j v _ =>
    j = some k → ∀ x u, h.caches.get? k = some x → v = some u →
      x.cache.mapping.get? u ≠ some handle
  | .replaceAllUses old new =>
    h.store.wrappedValue (some w) = some old → old ≠ new →
      ∀ x, h.caches.get? k = some x → x.cache.mapping.get? new = none
  | _ => True

namespace Follows

variable {s : Store} {w : Ref .metadata} {handle given : ExternalHandle} {x : BoundCache}
  {current : Option Listener} {notice : Notice} {waiting : List Listener}
  {later : List (Ref .value)} {v : Ref .value}

/-- Another handle comes in under another key. While a replacement is announced, the new value
must stay free, which it does since it is the wrapper's. -/
theorem insert (hf : Follows s φ k w handle x) (hgiven : given ≠ handle)
    (hother : s.wrappedValue (some w) ≠ some v) (hv : x.cache.mapping.get? v = none) :
    Follows s φ k w handle
      { x with cache := { x.cache with mapping := x.cache.mapping.insertNew v given } } := by
  refine ⟨⟨hf.paced.pending, hf.paced.idle, hf.paced.stage⟩, ⟨hf.plain.moves, hf.plain.stage⟩,
    fun hlive => ?_⟩
  obtain ⟨target, bearer, ht, hb, hl⟩ := hf.lags hlive
  refine ⟨target, bearer, ht, hb.insertNew hgiven hv, hl.remap _ ?_⟩
  rintro current old new waiting later rfl hbearer hnone
  -- the new value is the wrapper's by now, so it is not what is inserted
  have hnew : new ≠ v := by
    rintro rfl
    have htarget := hl.2.1
    rw [hbearer, redirected_self] at htarget
    exact hother (Store.wrappedValue_eq_some_iff.2 (htarget ▸ ht))
  rw [Mapping.get?_insertNew, if_neg hnew]
  exact hnone

/-- A key that does not have the handle goes. -/
theorem remove (hf : Follows s φ k w handle x) (hv : x.cache.mapping.get? v ≠ some handle) :
    Follows s φ k w handle
      { x with cache := { x.cache with mapping := x.cache.mapping.erase v } } := by
  refine ⟨⟨hf.paced.pending, hf.paced.idle, hf.paced.stage⟩, ⟨hf.plain.moves, hf.plain.stage⟩,
    fun hlive => ?_⟩
  obtain ⟨target, bearer, ht, hb, hl⟩ := hf.lags hlive
  -- the handle is under another key, so it does not go
  have herased := hb.erase v
  rw [redirected_of_ne (hb.ne_of_get? hv)] at herased
  refine ⟨target, bearer, ht, herased, hl.remap _ ?_⟩
  intro current old new waiting later _ _ hnone
  rw [Mapping.get?_erase, hnone, ite_self]

/-- Being told is catching up, unless the consumer has to be told of a deletion first. -/
theorem told (hf : Follows s (.telling none notice (.cache k :: waiting) later) k w handle x)
    (hpaced : Paced (.telling current notice waiting later) k (x.cache.raise notice.event)) :
    Follows s (.telling current notice waiting later) k w handle
      { x with cache := x.cache.raise notice.event } := by
  have hready : x.cache.stage = none := hf.paced.idle nofun
  have hpending := hf.paced.pending
  refine ⟨hpaced, hf.plain.raise hready hpending _, fun hlive => ?_⟩
  obtain ⟨target, bearer, ht, hb, hl⟩ := hf.lags hlive
  simp only [Cache.raise_of_ready hready hpending]
  cases notice with
  | deleted v =>
    have hnone : none ≠ some v := nofun
    rcases hb.apply_deleted v with herased | ⟨hkept, hasks⟩
    · refine ⟨target, redirected v none bearer, ht, herased, ?_, fun heq => ?_⟩
      · rw [redirected_redirected hnone]
        exact hl.1
      · exact absurd heq (redirected_ne hnone bearer)
    · exact ⟨target, bearer, ht, hkept, hl.1, fun _ => .inr hasks⟩
  | replaced old new =>
    -- the wrapper has moved already, and the cache moves its key in the same way
    obtain ⟨hne, rfl, hwaits⟩ := hl
    have hnew : some new ≠ some old := fun heq => hne (Option.some.inj heq).symm
    have hmoved := hb.apply_replaced hf.plain.moves (fun heq => (hwaits heq).2) hne
    refine ⟨_, _, ht, hmoved, hne, (redirected_redirected hnew bearer).symm, fun heq => ?_⟩
    exact absurd heq (redirected_ne hnew bearer)

/-- The consumer knows of the deletion now, and the key goes. -/
theorem resumed {stage : Stage (Ref .value)}
    (hf : Follows s (.telling (some (.cache k)) notice waiting later) k w handle x)
    (hstage : x.cache.stage = some stage) (answer : Option ExternalHandle)
    (hpaced : Paced (.telling (some (.cache k)) notice waiting later) k (x.cache.resume answer)) :
    Follows s (.telling (some (.cache k)) notice waiting later) k w handle
      { x with cache := x.cache.resume answer } := by
  have hpending := hf.paced.pending
  refine ⟨hpaced, hf.plain.resume hstage hpending _, fun hlive => ?_⟩
  obtain ⟨target, bearer, ht, hb, hl⟩ := hf.lags hlive
  -- the callback is about the notice that is announced
  have hof := hf.paced.stage rfl hstage
  simp only [Cache.resume_of_ready hstage hpending]
  cases stage with
  | replacing old given new => exact absurd hstage hf.plain.stage
  | orphaning old given =>
    cases notice with
    | deleted v => cases hof
    -- an orphan is no key any more when its consumer is told
    | replaced before' after' => exact ⟨target, bearer, ht, hb, hl⟩
  | deleting key given =>
    cases notice with
    | replaced old new => cases hof
    | deleted v =>
      cases hof
      have hnone : none ≠ some key := nofun
      refine ⟨target, redirected key none bearer, ht, hb.erase key, ?_, fun heq => ?_⟩
      · rw [redirected_redirected hnone]
        exact hl.1
      · exact absurd heq (redirected_ne hnone bearer)

/-- Everyone has been told, so the key is gone when the wrapper loses the value. -/
theorem release (hf : Follows s (.telling none (.deleted v) [] later) k w handle x)
    (later' : List (Ref .value)) : Follows (s.release v) (.between later') k w handle x := by
  have hready : x.cache.stage = none := hf.paced.idle nofun
  refine ⟨.of_idle hf.paced.pending hready, hf.plain, fun hlive => ?_⟩
  obtain ⟨target, bearer, ht, hb, hl⟩ := hf.lags hlive
  have hbearer : bearer ≠ some v := by
    intro heq
    rcases hl.2 heq with hmem | hbusy
    · cases hmem
    · exact hbusy hready
  have htarget : redirected v none target = bearer := by
    rw [hl.1, redirected_of_ne hbearer]
  refine ⟨bearer, bearer, ?_, hb, rfl⟩
  rw [Store.target?_release, if_neg nofun, ht, Option.map_some, htarget]

end Follows

variable {h h' : Host} {s' : Store} {w : Ref .metadata} {handle : ExternalHandle} {a : Action}
  {x x' : BoundCache}

/-- **The cache goes on following the wrapper**, whatever happens to the two, one way of its
course at a time. -/
theorem follows_of_course (hcourse : Course h.store k x φ a s' φ' x')
    (hx : h.caches.get? k = some x) (hok : LeavesAlone k handle w h a)
    (hf : Follows h.store φ k w handle x) : Follows s' φ' k w handle x' := by
  have hpaced := paced_of_course hcourse hf.paced
  cases hcourse with
  | aside a htarget =>
    refine ⟨hpaced, hf.plain, fun hlive => ?_⟩
    obtain ⟨target, bearer, ht, hb, hl⟩ := hf.lags hlive
    exact ⟨target, bearer, htarget ht, hb, hl⟩
  | insert given hv =>
    obtain ⟨hgiven, hother⟩ := hok rfl
    exact hf.insert hgiven (hother nofun) hv
  | remove v place => exact hf.remove (hok rfl x v hx rfl)
  | dispose a => exact ⟨hpaced, hf.plain, nofun⟩
  | between a later hdone =>
    refine ⟨hpaced, hf.plain, fun hlive => ?_⟩
    obtain ⟨target, bearer, ht, hb, hl⟩ := hf.lags hlive
    exact ⟨target, bearer, ht, hb, hl.eq_of_done hdone⟩
  | delete a hdone hmem =>
    refine ⟨hpaced, hf.plain, fun hlive => ?_⟩
    obtain ⟨target, bearer, ht, hb, hl⟩ := hf.lags hlive
    -- the last announcement is over, so the cache had caught up
    obtain rfl := hl.eq_of_done hdone
    exact ⟨target, target, ht, hb, rfl, fun _ => .inl (hmem hlive)⟩
  | @replace _ old new waiting hdone hne hmem =>
    refine ⟨hpaced, hf.plain, fun hlive => ?_⟩
    obtain ⟨target, bearer, ht, hb, hl⟩ := hf.lags hlive
    obtain rfl := hl.eq_of_done hdone
    refine ⟨redirected old (some new) target, target, ?_, hb, hne, rfl, fun heq => ?_⟩
    · rw [Store.target?_rewire, ht]
      rfl
    -- the cache is yet to be told, and the new value is not a key of it
    · exact ⟨hmem hlive, hok (Store.wrappedValue_eq_some_iff.2 (heq ▸ ht)) hne x hx⟩
  | @turn current current' notice waiting waiting' later a hidle hwaiting =>
    refine ⟨hpaced, hf.plain, fun hlive => ?_⟩
    obtain ⟨target, bearer, ht, hb, hl⟩ := hf.lags hlive
    refine ⟨target, bearer, ht, hb, ?_⟩
    cases notice with
    -- whoever waited goes on waiting
    | deleted v => exact ⟨hl.1, fun heq => (hl.2 heq).imp_left hwaiting⟩
    | replaced old new =>
      exact ⟨hl.1, hl.2.1, fun heq => ⟨hwaiting (hl.2.2 heq).1, (hl.2.2 heq).2⟩⟩
  | told hcurrent => exact hf.told hpaced
  | resumed answer hstage => exact hf.resumed hstage answer hpaced
  | release v later' => exact hf.release later'

/-- The cache goes on following as long as nobody meddles. -/
theorem follows_run {actions : List Action} {r : List Record} (hs : h.Sole) (hφ : h.InPhase φ)
    (he : h.Enrolled r) (hok : Along (fun h a => h.Orderly a ∧ LeavesAlone k handle w h a) h actions)
    (hx : h.caches.get? k = some x) (hf : Follows h.store φ k w handle x) :
    ∃ φ' y, (h.run actions).InPhase φ' ∧ (h.run actions).caches.get? k = some y ∧
      Follows (h.run actions).store φ' k w handle y := by
  obtain ⟨φ', hφ', -, y, hy, hfollows⟩ := phase_invariant_from
    (Q := fun h φ r => h.Enrolled r ∧
      ∃ x, h.caches.get? k = some x ∧ Follows h.store φ k w handle x)
    (fun h a hok => hok.1)
    (fun hs _ hok hstep hmove ⟨he, x, hx, hf⟩ => by
      obtain ⟨x', hx', hcourse⟩ := course_of_move hs he hmove hx
      exact ⟨enrolled_of_step hstep he, x', hx', follows_of_course hcourse hx hok.2 hf⟩)
    hs hφ hok ⟨he, x, hx, hf⟩
  exact ⟨φ', y, hφ', hy, hfollows⟩

/-! ## The handle is under the wrapper's value

At the beginning the three agree, and whenever nothing is left to do they agree again. -/

/-- Between two announcements a cache follows the wrapper of the one value that has the handle. -/
theorem follows_of_wrapped {s : Store} {v : Ref .value} (hpending : x.cache.pending = [])
    (hready : x.cache.stage = none) (hmoves : x.cache.onReplaced = false)
    (hbears : ∀ key, x.cache.mapping.get? key = some handle ↔ key = v)
    (hwraps : s.wrappedValue (some w) = some v) : Follows s (.between []) k w handle x where
  paced := .of_idle hpending hready
  plain := ⟨hmoves, by rw [hready]; exact nofun⟩
  lags _ := by
    refine ⟨some v, some v, Store.wrappedValue_eq_some_iff.1 hwraps, fun key => ?_, rfl⟩
    rw [hbears, Option.some_inj, eq_comm]

/-- When the announcement is over, a cache in use agrees with the wrapper that it follows. -/
theorem Follows.agree {s : Store} (hf : Follows s φ k w handle x) (hlive : x.disposed = false)
    {later : List (Ref .value)} (hdone : φ.Done later) :
    (∀ t, s.wrappedValue (some w) = some t →
        ∀ key, x.cache.mapping.get? key = some handle ↔ key = t) ∧
      (s.wrappedValue (some w) = none → ∀ key, x.cache.mapping.get? key ≠ some handle) := by
  obtain ⟨target, bearer, ht, hbearer, hl⟩ := hf.lags hlive
  obtain rfl := hl.eq_of_done hdone
  constructor
  · intro t hwrapped key
    rw [Store.wrappedValue_eq_some_iff, ht] at hwrapped
    rw [hbearer key, Option.some.inj hwrapped, Option.some_inj, eq_comm]
  · intro hlost key hkey
    rw [(hbearer key).1 hkey, ← Store.wrappedValue_eq_some_iff, hlost] at ht
    cases ht

/-- **A cache and a wrapper agree.**  A value is wrapped, and it alone has a certain handle in a
cache that moves handles as they are.  However the run goes on without meddling, whenever nothing
is left to do the handle is under the value that the wrapper has then and under no other, and if
the wrapper has lost its value, under none.

The two hear of a replacement at different times: the wrapper moves at once, and the cache when its
turn comes.  In between they disagree, and the invariant says by how much (`Lags`), so it speaks of
the announcement that is under way.  Not to meddle (`LeavesAlone`) is to leave this handle and this
wrapper to the host; everything else may be done in the meantime. -/
theorem cache_follows_wrapper {first second : List Action} {k : Ref .cache} {x : BoundCache}
    {v : Ref .value} {w : Ref .metadata} {handle : ExternalHandle}
    (horderly : Along Orderly opened (first ++ second))
    (hidle : (opened.run first).agenda = [])
    (hx : (opened.run first).caches.get? k = some x) (hmoves : x.cache.onReplaced = false)
    (hbears : ∀ key, x.cache.mapping.get? key = some handle ↔ key = v)
    (hwraps : (opened.run first).store.wrappedValue (some w) = some v)
    (halone : Along (LeavesAlone k handle w) (opened.run first) second)
    (hover : (opened.run (first ++ second)).agenda = []) :
    ∃ y, (opened.run (first ++ second)).caches.get? k = some y ∧
      (y.disposed = false → y.cache.isDispatching = false ∧
        (∀ t, (opened.run (first ++ second)).store.wrappedValue (some w) = some t →
          ∀ key, y.cache.mapping.get? key = some handle ↔ key = t) ∧
        ((opened.run (first ++ second)).store.wrappedValue (some w) = none →
          ∀ key, y.cache.mapping.get? key ≠ some handle)) := by
  obtain ⟨hfirst, hsecond⟩ := along_append.1 horderly
  rw [run_append] at hover ⊢
  obtain ⟨φ, hφ, he, hpaced⟩ := paced_run hfirst
  have hp := hpaced k x hx
  have hready : x.cache.stage = none := hp.stage_of_done (hφ.done_of_idle hidle)
  have hstart := follows_of_wrapped (k := k) hp.pending hready hmoves hbears hwraps
  -- nothing is left to do, so the rest of the run starts with nobody being told of anything
  have hbetween : (opened.run first).InPhase (.between []) := by
    rw [InPhase, work, hidle]
    rfl
  obtain ⟨φ', y, hφ', hy, hf⟩ :=
    follows_run (sole_run sole_opened first) hbetween he (hsecond.and halone) hx hstart
  have hdone : φ'.Done [] := hφ'.done_of_idle hover
  have hsettled : y.cache.stage = none := hf.paced.stage_of_done hdone
  exact ⟨y, hy, fun hlive =>
    ⟨Cache.isDispatching_eq_false_iff.2 hsettled, hf.agree hlive hdone⟩⟩

/-- A variable is cached and wrapped. -/
def cachedVariableWrapped : List Action :=
  [.edit (.createModule "m"), .edit (.addGlobalVariable ⟨0⟩ "a"),
    .edit (.addGlobalVariable ⟨0⟩ "b"), .createCache true false,
    .cacheInsert (some ⟨0⟩) (some ⟨0⟩) 7, .edit (.valueAsMetadata ⟨0⟩)]

/-- The variable is replaced by another one and gets another handle. -/
def trackedVariableReplaced : List Action :=
  [.replaceAllUses ⟨0⟩ ⟨1⟩, .step, .cacheInsert (some ⟨0⟩) (some ⟨0⟩) 8]

/-- The other variable goes, and the consumer is told of it. -/
def trackedVariableDeleted : List Action :=
  trackedVariableReplaced ++
    [.cacheRemove (some ⟨0⟩) (some ⟨0⟩) false, .delete ⟨1⟩, .step, .answer none, .step, .step]

/-- The handle moves with the wrapper, and then both lose the value. -/
theorem trackedVariable_followed :
    (∃ y, (opened.run (cachedVariableWrapped ++ trackedVariableReplaced)).caches.get? ⟨0⟩ = some y ∧
      ∀ key, y.cache.mapping.get? key = some 7 ↔ key = ⟨1⟩) ∧
    ∃ y, (opened.run (cachedVariableWrapped ++ trackedVariableDeleted)).caches.get? ⟨0⟩ = some y ∧
      ∀ key, y.cache.mapping.get? key ≠ some 7 := by
  have hbears (key : Ref .value) :
      (({} : Mapping (Ref .value)).insertNew ⟨0⟩ 7).get? key = some 7 ↔ key = ⟨0⟩ := by
    rw [Mapping.get?_insertNew]
    by_cases hkey : key = ⟨0⟩
    · simp [hkey, Mapping.get?]
    · simp [hkey, Mapping.get?]
  have horderly : Along Orderly opened (cachedVariableWrapped ++ trackedVariableDeleted) :=
    ⟨False.elim, False.elim, False.elim, False.elim, False.elim, False.elim, fun _ => rfl,
      False.elim, False.elim, False.elim, fun _ => rfl, False.elim, False.elim, False.elim,
      False.elim, trivial⟩
  have halone : Along (LeavesAlone ⟨0⟩ 7 ⟨0⟩) (opened.run cachedVariableWrapped)
      trackedVariableDeleted := by
    refine ⟨fun _ _ x hx => ?_, trivial, fun _ => ⟨by decide, fun _ => by decide⟩,
      fun _ x u hx hu => ?_, trivial, trivial, trivial, trivial, trivial, trivial⟩
    · cases hx
      rfl
    · cases hx
      cases hu
      decide
  have hreplaced : Along Orderly opened (cachedVariableWrapped ++ trackedVariableReplaced) := by
    rw [trackedVariableDeleted, ← List.append_assoc] at horderly
    exact (along_append.1 horderly).1
  constructor
  · obtain ⟨y, hy, hfollows⟩ :=
      cache_follows_wrapper hreplaced rfl rfl rfl hbears rfl (along_append.1 halone).1 rfl
    cases hy
    exact ⟨_, rfl, (hfollows rfl).2.1 ⟨1⟩ rfl⟩
  · obtain ⟨y, hy, hfollows⟩ := cache_follows_wrapper horderly rfl rfl rfl hbears rfl halone rfl
    cases hy
    exact ⟨_, rfl, (hfollows rfl).2.2 rfl⟩

/-- An observer that replaces the new value while a replacement is announced leaves the cache that
is told after it behind the wrapper.  This is what `Orderly` rules out. -/
example :
    let h := opened.run
      [.edit (.constInt 32 1), .edit (.constInt 32 2), .edit (.constInt 32 3), .addObserver,
        .createCache false false, .cacheInsert (some ⟨0⟩) (some ⟨0⟩) 7,
        .edit (.valueAsMetadata ⟨0⟩), .replaceAllUses ⟨0⟩ ⟨1⟩, .step, .replaceAllUses ⟨1⟩ ⟨2⟩,
        .step, .answer none, .step, .answer none, .step]
    h.agenda = [] ∧ h.store.wrappedValue (some ⟨0⟩) = some ⟨2⟩ ∧
      (h.caches.get? ⟨0⟩).map (·.cache.mapping.keys) = some [⟨1⟩] := ⟨rfl, rfl, rfl⟩

end Host

end ForeignHandles
