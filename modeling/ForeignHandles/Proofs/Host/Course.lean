import ForeignHandles.Proofs.Cache.Keys
import ForeignHandles.Proofs.Host.Listeners
import ForeignHandles.Proofs.Host.Phase
import ForeignHandles.Proofs.Store.Uses

/-!
  What a move means for one cache.

  Most moves have nothing to do with a given cache.  `Course` is a move as that cache sees it: what
  becomes of the cache, of the phase and of whom users refer to.  There are few such courses, and
  `course_of_move` says that there are no others.  A property of one cache is then proved
  once for each course.

  The first such property is `Paced`: as long as nothing is announced inside an announcement, a
  cache never has a notification queued, and it calls its consumer only after it has been told and
  on account of what it has been told.

  A course forgets what other caches do and who else is told. It keeps the order, though: a cache
  that is to be told stays on the list of those waiting until it is its turn.
-/
namespace ForeignHandles.Host

/-- Every cache in use is told of the next notice. -/
theorem mem_audience {h : Host} {r : List Record} (hs : h.Sole) (he : h.Enrolled r)
    {k : Ref .cache} {x : BoundCache} (hx : h.caches.get? k = some x) (hlive : x.disposed = false) :
    .cache k ∈ h.audience := by
  have hknown : h.Knows (.cache k) := h.caches.bounded _ ((h.caches.mem_items_iff k x).2 hx)
  refine List.mem_filter.2 ⟨he.known.2 hknown, ?_⟩
  simp [listensTo, hx, hs.caches hx, hlive]

/-! ## The view of one cache

The cases are ordered as a value goes: the cache is used, an announcement begins, listeners are
told in turn, this cache among them, the consumer returns, and the value is released. -/

/-- One move, as the cache `k` sees it: the store, the phase and the cache before and after. -/
inductive Course (s : Store) (k : Ref .cache) (x : BoundCache) :
    Phase → Action → Store → Phase → BoundCache → Prop where
  /-- The cache and the phase stay, and whoever uses a value goes on using it. -/
  | aside {φ : Phase} {s' : Store} (a : Action)
    (htarget : ∀ {u t}, s.target? u = some t → s'.target? u = some t) : Course s k x φ a s' φ x
  /-- A caller puts a handle in for a value that has none. -/
  | insert {φ : Phase} {v : Ref .value} (handle : ExternalHandle)
    (hv : x.cache.mapping.get? v = none) :
    Course s k x φ (.cacheInsert (some k) (some v) handle) s φ
      { x with cache := { x.cache with mapping := x.cache.mapping.insertNew v handle } }
  /-- A caller takes a handle out, if there is one. -/
  | remove {φ : Phase} (v : Ref .value) (place : Bool) :
    Course s k x φ (.cacheRemove (some k) (some v) place) s φ
      { x with cache := { x.cache with mapping := x.cache.mapping.erase v } }
  /-- The cache goes out of use; what is in it stays. -/
  | dispose {φ : Phase} (a : Action) : Course s k x φ a s φ { x with disposed := true }
  /-- Nobody is being told any more. -/
  | between {φ : Phase} {first : List (Ref .value)} (a : Action) (later : List (Ref .value))
    (hdone : φ.Done first) : Course s k x φ a s (.between later) x
  /-- A value begins to go. A cache in use is among those who will be told. -/
  | delete {φ : Phase} {v : Ref .value} {first later : List (Ref .value)}
    {waiting : List Listener} (a : Action) (hdone : φ.Done first)
    (hmem : x.disposed = false → .cache k ∈ waiting) :
    Course s k x φ a s (.telling none (.deleted v) waiting later) x
  /-- Uses are redirected at once, and a cache in use will be told. -/
  | replace {φ : Phase} {old new : Ref .value} {waiting : List Listener} (hdone : φ.Done [])
    (hne : old ≠ new) (hmem : x.disposed = false → .cache k ∈ waiting) :
    Course s k x φ (.replaceAllUses old new) (s.rewire old (some new))
      (.telling none (.replaced old new) waiting []) x
  /-- It is somebody's turn; the cache has not been passed over. -/
  | turn {current current' : Option Listener} {notice : Notice} {waiting waiting' : List Listener}
    {later : List (Ref .value)} (a : Action)
    (hidle : current' ≠ some (.cache k) → current ≠ some (.cache k) ∨ x.cache.stage = none)
    (hwaiting : .cache k ∈ waiting → .cache k ∈ waiting') :
    Course s k x (.telling current notice waiting later) a s
      (.telling current' notice waiting' later) x
  /-- It is the turn of this cache: it is waited for from now on if it has come to a callback. -/
  | told {current : Option Listener} {notice : Notice} {waiting : List Listener}
    {later : List (Ref .value)}
    (hcurrent : current =
      if !x.cache.isDispatching && (x.cache.raise notice.event).isDispatching
        then some (.cache k) else none) :
    Course s k x (.telling none notice (.cache k :: waiting) later) .step s
      (.telling current notice waiting later) { x with cache := x.cache.raise notice.event }
  /-- Its consumer returns; the cache may call it again, so it is still waited for. -/
  | resumed {stage : Stage (Ref .value)} {notice : Notice} {waiting : List Listener}
    {later : List (Ref .value)} (handle : Option ExternalHandle)
    (hstage : x.cache.stage = some stage) :
    Course s k x (.telling (some (.cache k)) notice waiting later) (.answer handle) s
      (.telling (some (.cache k)) notice waiting later)
      { x with cache := x.cache.resume handle }
  /-- The value that everyone has been told of goes. -/
  | release {later : List (Ref .value)} (v : Ref .value) (later' : List (Ref .value)) :
    Course s k x (.telling none (.deleted v) [] later) .step (s.release v) (.between later') x

variable {h h' : Host} {φ φ' : Phase} {a : Action} {r rs : List Record} {k : Ref .cache}
  {x : BoundCache}

/-- Putting a cache back leaves the others, -/
theorem get?_putCache_of_ne {j : Ref .cache} (hjk : k ≠ j) (hx : h.caches.get? k = some x)
    (cache : Cache (Ref .value)) : (h.putCache (some j) cache).caches.get? k = some x := by
  simp only [putCache, Arena.get?_modify, if_neg hjk]
  exact hx

/-- and keeps of this one who made it and whether it is in use. -/
theorem get?_putCache_self (hx : h.caches.get? k = some x) (cache : Cache (Ref .value)) :
    (h.putCache (some k) cache).caches.get? k = some { x with cache } := by
  simp only [putCache, Arena.get?_modify, if_pos, hx]
  rfl

/-- Every move is one of the courses for a cache that is there. -/
theorem course_of_move (hs : h.Sole) (he : h.Enrolled r) (hmove : Move h φ a h' φ' rs)
    (hx : h.caches.get? k = some x) :
    ∃ x', h'.caches.get? k = some x' ∧ Course h.store k x φ a h'.store φ' x' := by
  -- where the store is the same, so is whom users refer to
  have haside {s : Store} (heq : s = h.store) : ∀ {u t}, h.store.target? u = some t →
      s.target? u = some t := fun ht => heq ▸ ht
  have hnobody : (none : Option Listener) ≠ some (.cache k) := (Option.some_ne_none _).symm
  cases hmove with
  | edit hchange =>
    refine ⟨x, hx, .aside _ fun {u t} ht => ?_⟩
    rw [← ht]
    -- the user that the edit makes was not there before
    exact hchange.target?_eq fun b hb => (hchange.made hb).2.1 (Store.known_of_target? ht)
  | addObserver => exact ⟨x, hx, .aside _ (haside rfl)⟩
  | dropObserver hy hlive => exact ⟨x, hx, .aside _ (haside rfl)⟩
  | createCache onDeleted onReplaced =>
    refine ⟨x, ?_, .aside _ (haside rfl)⟩
    simp only [Host.createCache, Arena.get?_alloc]
    rw [if_neg, hx]
    rintro rfl
    -- the new cache has a number that was not given out before, so it is not this one
    rw [h.caches.get?_eq_none_of_next_le (Nat.le_refl _)] at hx
    cases hx
  | @disposeCache _ j y hy hlive =>
    by_cases hkj : k = j
    · subst hkj
      refine ⟨{ x with disposed := true }, ?_, .dispose _⟩
      simp [Host.disposeCache, Arena.get?_modify, hx]
    · refine ⟨x, ?_, .aside _ (haside rfl)⟩
      simp [Host.disposeCache, Arena.get?_modify, hkj, hx]
  | @insert _ j y v handle hy hidle hv =>
    by_cases hkj : k = j
    · subst hkj
      obtain rfl : x = y := by simpa [hx] using hy
      exact ⟨_, get?_putCache_self hx _, .insert handle hv⟩
    -- another cache is used
    · exact ⟨x, get?_putCache_of_ne hkj hx _, .aside _ (haside rfl)⟩
  | @remove _ j y v place hy hidle =>
    by_cases hkj : k = j
    · subst hkj
      obtain rfl : x = y := by simpa [hx] using hy
      exact ⟨_, get?_putCache_self hx _, .remove v place⟩
    · exact ⟨x, get?_putCache_of_ne hkj hx _, .aside _ (haside rfl)⟩
  | delete hdone hfrom hv => exact ⟨x, hx, .delete _ hdone (mem_audience hs he hx)⟩
  | replace hidle hdone hne hold => exact ⟨x, hx, .replace hdone hne (mem_audience hs he hx)⟩
  -- disposing of a module begins with values that are to be deleted
  | dispose hidle hdone hm => exact ⟨x, hx, .between _ _ hdone⟩
  | disposeEmpty => exact ⟨x, hx, .aside _ (haside rfl)⟩
  | tellObserver =>
    refine ⟨x, hx, .turn _ (fun _ => .inl hnobody) fun hmem => ?_⟩
    exact (List.mem_cons.1 hmem).resolve_left (by simp)
  | @tellCache j y notice current waiting later agenda hy hcurrent =>
    by_cases hkj : k = j
    · subst hkj
      obtain rfl : x = y := by simpa [hx] using hy
      exact ⟨_, get?_putCache_self hx _, .told hcurrent⟩
    -- another cache is told, and this one waits as it did
    · refine ⟨x, get?_putCache_of_ne hkj hx _, .turn _ (fun _ => .inl hnobody) fun hmem => ?_⟩
      exact (List.mem_cons.1 hmem).resolve_left fun heq => hkj (Listener.cache.inj heq)
  | @tellNobody j notice waiting later agenda hnone =>
    refine ⟨x, hx, .turn _ (fun _ => .inl hnobody) fun hmem => ?_⟩
    refine (List.mem_cons.1 hmem).resolve_left fun heq => ?_
    rw [Listener.cache.inj heq, hnone] at hx
    cases hx
  | @settled j notice waiting later agenda hidle =>
    refine ⟨x, hx, .turn _ (fun _ => ?_) id⟩
    -- the cache that was waited for is done
    by_cases hkj : k = j
    · subst hkj
      exact .inr (Cache.isDispatching_eq_false_iff.1 (hidle x hx))
    · exact .inl fun heq => hkj (Listener.cache.inj (Option.some.inj heq)).symm
  | skip hdone hv => exact ⟨x, hx, .between _ _ hdone⟩
  | release hv => exact ⟨x, hx, .release _ _⟩
  | vanish hv => exact ⟨x, hx, .release _ _⟩
  -- a module that goes takes no value with it
  | retire =>
    refine ⟨x, hx, .aside _ fun {u t} ht => ?_⟩
    cases u <;> exact ht
  | heard handle => exact ⟨x, hx, .turn _ (fun _ => .inl (by simp)) id⟩
  | @resume j y stage notice waiting later handle hy hstage =>
    by_cases hkj : k = j
    · subst hkj
      obtain rfl : x = y := by simpa [hx] using hy
      exact ⟨_, get?_putCache_self hx _, .resumed handle hstage⟩
    · refine ⟨x, get?_putCache_of_ne hkj hx _, .turn _ (fun _ => .inl fun heq => ?_) id⟩
      exact hkj (Listener.cache.inj (Option.some.inj heq)).symm
  | none => exact ⟨x, hx, .aside _ (haside rfl)⟩

/-- A cache that was not there before is a blank one. -/
theorem blank_of_move (hmove : Move h φ a h' φ' rs) (hnone : h.caches.get? k = none)
    {x' : BoundCache} (hx' : h'.caches.get? k = some x') :
    ∃ onDeleted onReplaced, x' = { context := soleContext, cache := { onDeleted, onReplaced } } := by
  -- no move makes a cache but creating one
  have hsame (hx' : h.caches.get? k = some x') : False := by
    rw [hnone] at hx'
    cases hx'
  have hput {j : Ref .cache} {cache : Cache (Ref .value)}
      (hx' : (h.putCache (some j) cache).caches.get? k = some x') : False := by
    simp only [putCache, Arena.get?_modify, hnone, Option.map_none, ite_self] at hx'
    cases hx'
  cases hmove with
  | createCache onDeleted onReplaced =>
    simp only [Host.createCache, Arena.get?_alloc] at hx'
    split at hx'
    · cases hx'
      exact ⟨onDeleted, onReplaced, rfl⟩
    · exact (hsame hx').elim
  | disposeCache hy hlive =>
    simp only [Host.disposeCache, Arena.get?_modify, hnone, Option.map_none, ite_self] at hx'
    cases hx'
  | insert handle hy hidle hv => exact (hput hx').elim
  | remove v place hy hidle => exact (hput hx').elim
  | tellCache hy hcurrent => exact (hput hx').elim
  | resume handle hy hstage => exact (hput hx').elim
  | _ => exact (hsame hx').elim

/-! ## One notification at a time

Caches have queues for notifications that come while a callback is running. Under the order none
comes, so the queue is always empty, and much of what a cache could do in general cannot happen. -/

/-- A cache in step with the announcements of its host. -/
structure Paced (φ : Phase) (k : Ref .cache) (c : Cache (Ref .value)) : Prop where
  /-- No notification waits in the cache. -/
  pending : c.pending = []
  /-- Only a cache that has just been told can be calling its consumer. -/
  idle : φ.current? ≠ some (.cache k) → c.stage = none
  /-- It calls it on account of the notice. -/
  stage : ∀ {current notice waiting later stage}, φ = .telling current notice waiting later →
    c.stage = some stage → stage.IsOf notice.event

namespace Paced

variable {c : Cache (Ref .value)}

/-- A cache that does nothing. -/
theorem of_idle (hpending : c.pending = []) (hstage : c.stage = none) : Paced φ k c where
  pending := hpending
  idle _ := hstage
  stage _ hsome := by
    rw [hstage] at hsome
    cases hsome

/-- When nobody is being told, the cache does not call its consumer. -/
theorem stage_of_done (hp : Paced φ k c) {later : List (Ref .value)} (hdone : φ.Done later) :
    c.stage = none := by
  refine hp.idle ?_
  rcases hdone with rfl | ⟨old, new, rfl⟩ <;> exact nofun

variable {current : Option Listener} {notice : Notice} {waiting : List Listener}
  {later : List (Ref .value)}

/-- The cache is told: nothing is queued in it, so it works the notice off up to its callback. -/
theorem raise (hp : Paced (.telling none notice (.cache k :: waiting) later) k c)
    (hcurrent : current =
      if !c.isDispatching && (c.raise notice.event).isDispatching
        then some (.cache k) else none) :
    Paced (.telling current notice waiting later) k (c.raise notice.event) := by
  have hready : c.stage = none := hp.idle nofun
  -- a cache that is not waited for has not stopped at a callback
  have hidle (hnot : current ≠ some (.cache k)) : (c.raise notice.event).stage = none := by
    rw [hcurrent, Cache.isDispatching_eq_false_iff.2 hready] at hnot
    refine Cache.isDispatching_eq_false_iff.1 ?_
    cases hcalls : (c.raise notice.event).isDispatching with
    | false => rfl
    | true => simp [hcalls] at hnot
  rw [Cache.raise_of_ready hready hp.pending] at hidle ⊢
  refine ⟨rfl, hidle, fun hφ hstage => ?_⟩
  cases hφ
  exact Cache.isOf_apply hstage

/-- The consumer returns. -/
theorem resume (hp : Paced (.telling (some (.cache k)) notice waiting later) k c)
    (handle : Option ExternalHandle) {stage : Stage (Ref .value)} (hstage : c.stage = some stage) :
    Paced (.telling (some (.cache k)) notice waiting later) k (c.resume handle) := by
  rw [Cache.resume_of_ready hstage hp.pending]
  refine ⟨rfl, fun hnot => absurd rfl hnot, fun hφ hstage' => ?_⟩
  cases hφ
  exact Cache.isOf_conclude (hp.stage rfl hstage) hstage'

end Paced

/-- Every course keeps the pace. -/
theorem paced_of_course {s s' : Store} {x' : BoundCache} (hcourse : Course s k x φ a s' φ' x')
    (hp : Paced φ k x.cache) : Paced φ' k x'.cache := by
  cases hcourse with
  | aside a htarget => exact hp
  | insert handle hv => exact ⟨hp.pending, hp.idle, hp.stage⟩
  | remove v place => exact ⟨hp.pending, hp.idle, hp.stage⟩
  | dispose a => exact hp
  | between a later hdone => exact .of_idle hp.pending (hp.stage_of_done hdone)
  | delete a hdone hmem => exact .of_idle hp.pending (hp.stage_of_done hdone)
  | replace hdone hne hmem => exact .of_idle hp.pending (hp.stage_of_done hdone)
  -- the cache may have been the one that was told, and then it is done
  | turn a hidle hwaiting =>
    refine ⟨hp.pending, fun hnot => ?_, fun hφ hstage => ?_⟩
    · rcases hidle hnot with hcurrent | hnone
      · exact hp.idle hcurrent
      · exact hnone
    · cases hφ
      exact hp.stage rfl hstage
  | told hcurrent => exact hp.raise hcurrent
  | resumed handle hstage => exact hp.resume handle hstage
  | release v later' => exact .of_idle hp.pending (hp.idle nofun)

/-- All caches keep the pace if nothing is announced inside an announcement. -/
theorem paced_run {actions : List Action} (hok : Along Orderly opened actions) :
    ∃ φ, (opened.run actions).InPhase φ ∧
      (opened.run actions).Enrolled (opened.history actions) ∧
        ∀ k x, (opened.run actions).caches.get? k = some x → Paced φ k x.cache := by
  refine phase_invariant
    (Q := fun h φ r => h.Enrolled r ∧ ∀ k x, h.caches.get? k = some x → Paced φ k x.cache)
    (fun h a hok => hok) ?_ hok ⟨enrolled_opened, fun k x hx => by cases hx⟩
  rintro h φ r a h' φ' rs hs - - hstep hmove ⟨he, hp⟩
  refine ⟨enrolled_of_step hstep he, fun k x' hx' => ?_⟩
  cases hx : h.caches.get? k with
  | none =>
    -- a new cache does nothing
    obtain ⟨onDeleted, onReplaced, rfl⟩ := blank_of_move hmove hx hx'
    exact .of_idle rfl rfl
  | some x =>
    obtain ⟨y, hy, hcourse⟩ := course_of_move hs he hmove hx
    obtain rfl : x' = y := by simpa [hx'] using hy
    exact paced_of_course hcourse (hp k x hx)

end ForeignHandles.Host
