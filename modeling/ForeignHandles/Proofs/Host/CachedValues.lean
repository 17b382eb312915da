import ForeignHandles.Proofs.Host.Course

/-!
  Cached values are always live.

  A value leaves the context in one way only: all its listeners have been told, and none of them is
  still thinking about it.  By then no cache that is in use has the value as a key, for a cache that
  was told has dropped it.  So the invariant of one cache (`CacheLive`) is about an announcement that
  is under way: if it still has the key of a value that goes, then it is yet to be told, or its
  consumer is being asked at this moment.

  Keys come in by two doors.  One is an insertion, and the value is there then.  The other is a
  replacement, which moves a key to the new value, and that one is there as long as nothing is
  deleted inside the announcement.  This is what `Careful` asks of callers and consumers.
-/
namespace ForeignHandles.Host

open Cache (Maps)

/-! ## What callers and consumers have to see to

Both restrictions are the documented ones: a listener does not start another announcement, and
what is put into a cache or put in the place of something else is there. -/

/-- Inside an announcement nothing is announced and nothing is inserted, except by a consumer into
the very cache that calls it; and values are there when they are inserted or replace another. -/
def Careful (h : Host) (a : Action) : Prop :=
  h.Orderly a ∧
    match a with
    | .replaceAllUses _ new => h.store.containsValue soleContext new = true
    | .cacheInsert k v _ =>
      (∀ j, k = some j → h.agenda = [] ∨ ∃ call, h.call? = some (.cache j call)) ∧
        ∀ w, v = some w → h.store.containsValue soleContext w = true
    | _ => True

/-- A cache whose consumer is being called declines, so what is inserted is inserted between
announcements. -/
theorem Careful.idle_of_insert {h : Host} {k : Ref .cache} {v : Ref .value}
    {handle : ExternalHandle} {x : BoundCache}
    (hok : h.Careful (.cacheInsert (some k) (some v) handle))
    (hx : h.caches.get? k = some x) (hidle : x.cache.isDispatching = false) : h.agenda = [] := by
  rcases hok.2.1 k rfl with hnil | ⟨call, hcall⟩
  · exact hnil
  · exfalso
    unfold call? at hcall
    split at hcall
    -- an observer is being called, and not the consumer of a cache
    · cases hcall
    · obtain ⟨y, hy, hcalls⟩ := Option.bind_eq_some_iff.1 hcall
      obtain ⟨called, hcalled, heq⟩ := Option.map_eq_some_iff.1 hcalls
      cases heq
      obtain rfl : x = y := by simpa [hx] using hy
      have hstage : x.cache.stage = none := Cache.isDispatching_eq_false_iff.1 hidle
      rw [Cache.call?, hstage] at hcalled
      cases hcalled
    · cases hcall

/-! ## One cache

`CacheLive` is about one cache, the store and the phase, since these are what changes
independently. Its lemmas are in the order of an announcement: it begins, listeners are told in
turn, the value is released or the next one announced. -/

/-- The keys of a cache in use are there, and a value that goes is a key only as long as that is
still to be worked off. -/
structure CacheLive (s : Store) (φ : Phase) (k : Ref .cache) (x : BoundCache) : Prop where
  /-- Its keys are values that are there. -/
  live : ∀ {v}, x.disposed = false → Maps x.cache.mapping v → s.values.contains v = true
  /-- No notification waits in the cache. -/
  pending : x.cache.pending = []
  /-- Only a cache that has just been told can be calling its consumer. -/
  idle : φ.current? ≠ some (.cache k) → x.cache.stage = none
  /-- It calls it on account of the notice. -/
  stage : ∀ {current notice waiting later stage}, φ = .telling current notice waiting later →
    x.cache.stage = some stage → stage.IsOf notice.event
  /-- While a deletion is announced, the key goes before the value does. -/
  going : ∀ {current v waiting later}, φ = .telling current (.deleted v) waiting later →
    x.disposed = false → Maps x.cache.mapping v →
    .cache k ∈ waiting ∨ ∃ handle, x.cache.stage = some (.deleting v handle)

namespace CacheLive

variable {s s' : Store} {φ : Phase} {k : Ref .cache} {x : BoundCache}

/-- Such a cache is in step with the announcements. -/
theorem paced (hc : CacheLive s φ k x) : Paced φ k x.cache := ⟨hc.pending, hc.idle, hc.stage⟩

/-- A cache without keys that does nothing. -/
theorem blank (s : Store) (φ : Phase) (k : Ref .cache) (c : Ref .context)
    (onDeleted onReplaced : Bool) :
    CacheLive s φ k { context := c, cache := { onDeleted, onReplaced } } where
  live _ hv := absurd rfl hv
  pending := rfl
  idle _ := rfl
  stage _ hstage := by cases hstage
  going _ _ hv := absurd rfl hv

/-- A cache that is disposed of keeps its mappings, but it is not in use any more. -/
theorem dispose (hc : CacheLive s φ k x) : CacheLive s φ k { x with disposed := true } where
  live hlive := by cases hlive
  pending := hc.pending
  idle := hc.idle
  stage := hc.stage
  going _ hlive := by cases hlive

/-- Another mapping, its keys being there and none of them coming in on the way. -/
theorem remap (hc : CacheLive s φ k x) {mapping : Mapping (Ref .value)}
    (hkeys : ∀ {v}, x.disposed = false → Maps mapping v → s.values.contains v = true)
    (hgoing : ∀ {current v waiting later}, φ = .telling current (.deleted v) waiting later →
      Maps mapping v → Maps x.cache.mapping v) :
    CacheLive s φ k { x with cache := { x.cache with mapping } } where
  live := hkeys
  pending := hc.pending
  idle := hc.idle
  stage := hc.stage
  going hφ hlive hv := hc.going hφ hlive (hgoing hφ hv)

/-! ### From phase to phase -/

/-- Nobody is being told any more, and the keys are there. -/
theorem settled (hc : CacheLive s φ k x) (hready : x.cache.stage = none)
    (hkeys : ∀ {v}, x.disposed = false → Maps x.cache.mapping v → s'.values.contains v = true)
    (later : List (Ref .value)) : CacheLive s' (.between later) k x where
  live := hkeys
  pending := hc.pending
  idle _ := hready
  stage hφ := by cases hφ
  going hφ := by cases hφ

/-- Everyone is going to be told of a notice. -/
theorem announced (hc : CacheLive s φ k x) (hready : x.cache.stage = none)
    (hvalues : ∀ v, s'.values.contains v = s.values.contains v) {waiting : List Listener}
    (hmem : x.disposed = false → .cache k ∈ waiting) (notice : Notice)
    (later : List (Ref .value)) : CacheLive s' (.telling none notice waiting later) k x where
  live {v} hlive hv := (hvalues v).trans (hc.live hlive hv)
  pending := hc.pending
  idle _ := hready
  stage _ hstage := by
    rw [hready] at hstage
    cases hstage
  going hφ hlive _ := by
    cases hφ
    exact .inl (hmem hlive)

variable {current current' : Option Listener} {notice : Notice} {waiting waiting' : List Listener}
  {later : List (Ref .value)}

/-- Another listener is thinking about the notice, and the cache has not been passed over. -/
theorem turn (hc : CacheLive s (.telling current notice waiting later) k x)
    (hidle : current' ≠ some (.cache k) → x.cache.stage = none)
    (hwaiting : .cache k ∈ waiting → .cache k ∈ waiting') :
    CacheLive s (.telling current' notice waiting' later) k x where
  live := hc.live
  pending := hc.pending
  idle := hidle
  stage hφ hstage := by
    cases hφ
    exact hc.stage rfl hstage
  going hφ hlive hv := by
    cases hφ
    exact (hc.going rfl hlive hv).imp_left hwaiting

/-- When everyone has been told of a deletion, a cache in use does not have the key. -/
theorem absent_of_told {v : Ref .value} (hc : CacheLive s (.telling none (.deleted v) [] later) k x)
    (hlive : x.disposed = false) : ¬ Maps x.cache.mapping v := by
  intro hv
  rcases hc.going rfl hlive hv with hmem | ⟨handle, hcalls⟩
  · cases hmem
  · rw [hc.idle nofun] at hcalls
    cases hcalls

/-- The value that everyone has been told of goes. -/
theorem release {v : Ref .value} (hc : CacheLive s (.telling none (.deleted v) [] later) k x)
    (later' : List (Ref .value)) : CacheLive (s.release v) (.between later') k x := by
  refine hc.settled (hc.idle nofun) (fun {w} hlive hw => ?_) later'
  have hne : w ≠ v := by
    rintro rfl
    exact hc.absent_of_told hlive hw
  simpa [s.contains_release, hne] using hc.live hlive hw

/-! ### Notifications -/

/-- The cache is told: nothing is queued in it, so it works the notice off up to its callback. -/
theorem raise (hc : CacheLive s (.telling none notice (.cache k :: waiting) later) k x)
    (hnew : ∀ {old new}, notice = .replaced old new → s.values.contains new = true)
    (hcurrent : current =
      if !x.cache.isDispatching && (x.cache.raise notice.event).isDispatching
        then some (.cache k) else none) :
    CacheLive s (.telling current notice waiting later) k
      { x with cache := x.cache.raise notice.event } := by
  -- a cache that is yet to be told does nothing, so it starts on the notice at once
  have hready : x.cache.stage = none := hc.idle nofun
  have hpaced := hc.paced.raise hcurrent
  rw [Cache.raise_of_ready hready hc.pending] at hpaced ⊢
  refine ⟨fun {v} hlive hv => ?_, hpaced.pending, hpaced.idle, hpaced.stage,
    fun hφ hlive hv => ?_⟩
  · cases notice with
    | deleted w => exact hc.live hlive (Cache.maps_apply_deleted hv)
    | replaced old new =>
      rcases Cache.maps_apply_replaced hv with hv | rfl
      · exact hc.live hlive hv
      · exact hnew rfl
  · cases hφ
    exact .inr (Cache.deleting_of_maps_apply hv)

/-- The consumer returns. -/
theorem resume (hc : CacheLive s (.telling (some (.cache k)) notice waiting later) k x)
    (hnew : ∀ {old new}, notice = .replaced old new → s.values.contains new = true)
    (handle : Option ExternalHandle) {stage : Stage (Ref .value)}
    (hstage : x.cache.stage = some stage) :
    CacheLive s (.telling (some (.cache k)) notice waiting later) k
      { x with cache := x.cache.resume handle } := by
  -- the consumer returns from a callback about this notice
  have hof : stage.IsOf notice.event := hc.stage rfl hstage
  have hpaced := hc.paced.resume handle hstage
  rw [Cache.resume_of_ready hstage hc.pending] at hpaced ⊢
  refine ⟨fun {v} hlive hv => ?_, hpaced.pending, hpaced.idle, hpaced.stage,
    fun hφ hlive hv => ?_⟩
  · cases notice with
    | deleted w => exact hc.live hlive (Cache.maps_conclude_deleted hof hv).1
    | replaced old new =>
      rcases Cache.maps_conclude_replaced hof hv with hv | rfl
      · exact hc.live hlive hv
      · exact hnew rfl
  · cases hφ
    -- what the consumer was told of is dropped now
    exact absurd rfl (Cache.maps_conclude_deleted hof hv).2

end CacheLive

/-! ## All caches

An action changes one cache at the most. The others are carried along with it; for them it matters
only whether they have been passed over (`turn`). -/

/-- The invariant: it holds of every cache, and the new value of a replacement that is being
announced is there. -/
structure KeysLive (h : Host) (φ : Phase) : Prop where
  /-- Every cache by itself. -/
  caches : ∀ {k x}, h.caches.get? k = some x → CacheLive h.store φ k x
  /-- The new value does not go before all have been told of it. -/
  replacement : ∀ {current old new waiting later},
    φ = .telling current (.replaced old new) waiting later → h.store.values.contains new = true

namespace KeysLive

variable {h h' : Host} {φ φ' : Phase}

/-- Caches stay as they are, and so do the values, or there are more of them. -/
theorem grow (hl : KeysLive h φ) (hcaches : h'.caches = h.caches)
    (hvalues : ∀ v, h.store.values.contains v = true → h'.store.values.contains v = true) :
    KeysLive h' φ where
  caches {k x} hx := by
    have hc : CacheLive h.store φ k x := hl.caches (hcaches ▸ hx)
    exact { hc with live := fun hlive hv => hvalues _ (hc.live hlive hv) }
  replacement hφ := hvalues _ (hl.replacement hφ)

/-- Nobody is being told, before and after. -/
theorem between (hl : KeysLive h φ) {first later : List (Ref .value)} (hdone : φ.Done first)
    (hcaches : h'.caches = h.caches) (hstore : h'.store = h.store) :
    KeysLive h' (.between later) where
  caches {k x} hx := by
    have hc : CacheLive h.store φ k x := hl.caches (hcaches ▸ hx)
    rw [hstore]
    exact hc.settled (hc.paced.stage_of_done hdone) hc.live later
  replacement hφ := by cases hφ

/-- What holds of the cache that is put back, and of all others, holds of all. -/
theorem putCache {k : Ref .cache} {x : BoundCache} {cache : Cache (Ref .value)}
    (hx : h.caches.get? k = some x) (hself : CacheLive h.store φ k { x with cache })
    (hothers : ∀ {j y}, j ≠ k → h.caches.get? j = some y → CacheLive h.store φ j y)
    (hnew : ∀ {current old new waiting later},
      φ = .telling current (.replaced old new) waiting later →
        h.store.values.contains new = true) : KeysLive (h.putCache (some k) cache) φ where
  caches {j y} hy := by
    simp only [Host.putCache, Arena.get?_modify] at hy
    split at hy
    · rename_i hjk
      subst hjk
      rw [hx] at hy
      cases hy
      exact hself
    · rename_i hjk
      exact hothers hjk hy
  replacement := hnew

/-- One cache changes. -/
theorem change (hl : KeysLive h φ) {k : Ref .cache} {x : BoundCache} {cache : Cache (Ref .value)}
    (hx : h.caches.get? k = some x)
    (hself : CacheLive h.store φ k x → CacheLive h.store φ k { x with cache }) :
    KeysLive (h.putCache (some k) cache) φ :=
  putCache hx (hself (hl.caches hx)) (fun _ hy => hl.caches hy) hl.replacement

/-- A new cache is blank. -/
theorem createCache (hl : KeysLive h φ) (onDeleted onReplaced : Bool) :
    KeysLive (h.createCache (some soleContext) onDeleted onReplaced).2 φ where
  caches {k x} hx := by
    simp only [Host.createCache, Arena.get?_alloc] at hx
    split at hx
    · cases hx
      exact .blank h.store φ k soleContext onDeleted onReplaced
    · exact hl.caches hx
  replacement := hl.replacement

/-- A cache that is disposed of is not in use any more. -/
theorem disposeCache (hl : KeysLive h φ) (k : Ref .cache) :
    KeysLive (h.disposeCache (some k)) φ where
  caches {j y} hy := by
    simp only [Host.disposeCache, Arena.get?_modify] at hy
    split at hy
    · obtain ⟨x, hx, rfl⟩ := Option.map_eq_some_iff.1 hy
      exact (hl.caches hx).dispose
    · exact hl.caches hy
  replacement := hl.replacement

variable {current current' : Option Listener} {notice : Notice} {waiting waiting' : List Listener}
  {later : List (Ref .value)}

/-- Another listener is thinking about the notice, and no cache has been passed over. -/
theorem turn (hl : KeysLive h (.telling current notice waiting later))
    (hcaches : h'.caches = h.caches) (hstore : h'.store = h.store)
    (hidle : ∀ {k x}, h.caches.get? k = some x → current' ≠ some (.cache k) →
      x.cache.stage = none)
    (hwaiting : ∀ {k x}, h.caches.get? k = some x → .cache k ∈ waiting → .cache k ∈ waiting') :
    KeysLive h' (.telling current' notice waiting' later) where
  caches {k x} hx := by
    have hx : h.caches.get? k = some x := hcaches ▸ hx
    rw [hstore]
    exact (hl.caches hx).turn (hidle hx) (hwaiting hx)
  replacement hφ := by
    cases hφ
    rw [hstore]
    exact hl.replacement rfl

/-- A cache is told; the others wait as before. -/
theorem tellCache {k : Ref .cache} {x : BoundCache}
    (hl : KeysLive h (.telling none notice (.cache k :: waiting) later))
    (hx : h.caches.get? k = some x)
    (hcurrent : current =
      if !x.cache.isDispatching && (x.cache.raise notice.event).isDispatching
        then some (.cache k) else none) :
    KeysLive (h.putCache (some k) (x.cache.raise notice.event))
      (.telling current notice waiting later) := by
  have hnew {old new : Ref .value} (heq : notice = .replaced old new) :
      h.store.values.contains new = true := by
    subst heq
    exact hl.replacement rfl
  -- the cache that is told is no longer waiting, and the others still are
  refine putCache hx ((hl.caches hx).raise hnew hcurrent) (fun {j y} hjk hy => ?_) ?_
  · have hc := hl.caches hy
    refine hc.turn (fun _ => hc.idle nofun) fun hmem => ?_
    refine (List.mem_cons.1 hmem).resolve_left fun heq => hjk ?_
    cases heq
    rfl
  · intro _ old new _ _ hφ
    cases hφ
    exact hnew rfl

end KeysLive

/-- The invariant holds after a move if it did before. -/
theorem keysLive_of_move {h h' : Host} {φ φ' : Phase} {a : Action} {r rs : List Record}
    (hs : h.Sole) (he : h.Enrolled r) (hφ : h.InPhase φ) (hok : h.Careful a)
    (hmove : Move h φ a h' φ' rs) (hl : KeysLive h φ) : KeysLive h' φ' := by
  cases hmove with
  | edit hchange => exact hl.grow rfl fun v hv => hchange.contains hv
  | addObserver => exact hl.grow rfl fun _ hv => hv
  | dropObserver hx hlive => exact hl.grow rfl fun _ hv => hv
  | createCache onDeleted onReplaced => exact hl.createCache onDeleted onReplaced
  | disposeCache hx hlive => exact hl.disposeCache _
  | @insert _ k x v handle hx hidle hv =>
    -- it is inserted between announcements
    have hdone := hφ.done_of_idle (hok.idle_of_insert hx hidle)
    have hthere : h.store.values.contains v = true := by
      rw [← hs.containsValue]
      exact hok.2.2 v rfl
    refine hl.change hx fun hc => hc.remap (fun hlive hw => ?_) fun heq => ?_
    · rcases Cache.maps_insertNew hw with hw | rfl
      · exact hc.live hlive hw
      · exact hthere
    · -- no deletion is under way
      rcases hdone with rfl | ⟨old, new, rfl⟩ <;> cases heq
  | @remove _ k x v place hx hidle =>
    refine hl.change hx fun hc => hc.remap (fun hlive hw => ?_) fun _ hw => ?_
    · exact hc.live hlive (Cache.maps_erase.1 hw).2
    · exact (Cache.maps_erase.1 hw).2
  | @delete _ a v first later agenda hdone hfrom hv =>
    refine ⟨fun {k x} hx => ?_, fun heq => by cases heq⟩
    have hc := hl.caches hx
    exact hc.announced (hc.paced.stage_of_done hdone) (fun _ => rfl) (mem_audience hs he hx) _ later
  | @replace _ old new agenda hidle hdone hne hold =>
    -- redirecting uses takes no value away
    have hvalues := h.store.contains_rewire old (some new)
    refine ⟨fun {k x} hx => ?_, fun heq => ?_⟩
    · have hc := hl.caches hx
      exact hc.announced (hc.paced.stage_of_done hdone) hvalues (mem_audience hs he hx) _ _
    · cases heq
      exact (hvalues new).trans ((hs.containsValue new).symm.trans hok.2)
  | dispose hidle hdone hm => exact hl.between hdone rfl rfl
  | disposeEmpty => exact hl.grow rfl fun _ hv => hv
  | tellObserver =>
    refine hl.turn rfl rfl (fun hx _ => (hl.caches hx).idle nofun) fun _ hmem => ?_
    exact (List.mem_cons.1 hmem).resolve_left nofun
  | tellCache hx hcurrent => exact (hl.tellCache hx hcurrent).grow rfl fun _ hv => hv
  | tellNobody hnone =>
    refine hl.turn rfl rfl (fun hx _ => (hl.caches hx).idle nofun) fun hx hmem => ?_
    -- the cache that was to be told is not there, so it is not one of these
    refine (List.mem_cons.1 hmem).resolve_left fun heq => ?_
    cases heq
    rw [hnone] at hx
    cases hx
  | @settled k notice waiting later agenda hidle =>
    refine hl.turn rfl rfl (fun {j y} hy _ => ?_) fun _ hmem => hmem
    -- the cache that was waited for is done, and the others did nothing
    by_cases hjk : j = k
    · subst hjk
      exact Cache.isDispatching_eq_false_iff.1 (hidle y hy)
    · refine (hl.caches hy).idle fun heq => hjk ?_
      cases heq
      rfl
  | skip hdone hv => exact hl.between hdone rfl rfl
  | release hv => exact ⟨fun hx => (hl.caches hx).release _, fun heq => by cases heq⟩
  | vanish hv => exact ⟨fun hx => (hl.caches hx).release _, fun heq => by cases heq⟩
  | retire => exact hl.grow rfl fun _ hv => hv
  | heard handle =>
    exact hl.turn rfl rfl (fun hx _ => (hl.caches hx).idle nofun) fun _ hmem => hmem
  | @resume k x s notice waiting later handle hx hstage =>
    refine hl.change hx fun hc => hc.resume (fun heq => ?_) handle hstage
    subst heq
    exact hl.replacement rfl
  | none => exact hl

/-- There is no cache to begin with. -/
theorem keysLive_opened : KeysLive opened (.between []) where
  caches hx := by cases hx
  replacement hφ := by cases hφ

/-- Every state that a careful run gets to has a phase, and is in step with it. -/
theorem keysLive_run {actions : List Action} (hok : Along Careful opened actions) :
    ∃ φ, KeysLive (opened.run actions) φ := by
  obtain ⟨φ, -, -, hl⟩ := phase_invariant
    (Q := fun h φ r => h.Enrolled r ∧ KeysLive h φ) (fun h a hok => hok.1)
    (fun hs hφ hok hstep hmove ⟨he, hl⟩ =>
      ⟨enrolled_of_step hstep he, keysLive_of_move hs he hφ hok hmove hl⟩)
    hok ⟨enrolled_opened, keysLive_opened⟩
  exact ⟨φ, hl⟩

/-! ## Cached values are live

The phase is not part of the result: at every point of a run there is one, and in each of them the
keys are there. -/

/-- **Cached values are live.**  Whatever is a key of a cache in use is a value of the context, in
every state that a run gets to, the middle of an announcement included.

Nothing is said of a cache that has been disposed of: it hears of no deletions any more, and may keep
the keys of values that have gone.  What is asked of the run (`Careful`) binds the callers and the
consumers alone, and what is kept is `CacheLive` for each of the caches. -/
theorem cached_values_live {actions : List Action} (hok : Along Careful opened actions) :
    ∀ k x, (opened.run actions).caches.get? k = some x → x.disposed = false →
      ∀ v ∈ x.cache.mapping.keys,
        (opened.run actions).store.containsValue soleContext v = true := by
  intro k x hx hlive v hv
  obtain ⟨φ, hl⟩ := keysLive_run hok
  have hs : (opened.run actions).Sole := sole_run sole_opened actions
  rw [hs.containsValue]
  exact (hl.caches hx).live hlive (Cache.maps_iff_mem_keys.2 hv)

/-- A function and its argument are cached.  The function is replaced by a variable, for which the
consumer gives another handle, and then it is deleted; its argument goes with it. -/
def cachedFunctionReplaced : List Action :=
  [.edit (.createModule "m"), .edit (.addFunction ⟨0⟩ "f" 1), .edit (.addGlobalVariable ⟨0⟩ "v"),
    .createCache true true, .cacheInsert (some ⟨0⟩) (some ⟨0⟩) 7,
    .cacheInsert (some ⟨0⟩) (some ⟨1⟩) 8, .replaceAllUses ⟨1⟩ ⟨2⟩, .step, .answer (some 9), .step,
    .delete ⟨1⟩, .step, .step, .step, .step, .answer none, .step, .step]

/-- The key that moved is there, and it is the only one that is left. -/
theorem cachedFunctionReplaced_live :
    Along Careful opened cachedFunctionReplaced ∧
      ∃ x, (opened.run cachedFunctionReplaced).caches.get? ⟨0⟩ = some x ∧
        x.cache.mapping.keys = [⟨2⟩] ∧
        (opened.run cachedFunctionReplaced).store.containsValue soleContext ⟨2⟩ = true := by
  have hok : Along Careful opened cachedFunctionReplaced := by
    refine ⟨⟨nofun, trivial⟩, ⟨nofun, trivial⟩, ⟨nofun, trivial⟩, ⟨nofun, trivial⟩,
      ⟨nofun, fun _ _ => .inl rfl, ?_⟩, ⟨nofun, fun _ _ => .inl rfl, ?_⟩, ⟨fun _ => rfl, rfl⟩,
      ⟨nofun, trivial⟩, ⟨nofun, trivial⟩, ⟨nofun, trivial⟩, ⟨fun _ => rfl, trivial⟩,
      ⟨nofun, trivial⟩, ⟨nofun, trivial⟩, ⟨nofun, trivial⟩, ⟨nofun, trivial⟩, ⟨nofun, trivial⟩,
      ⟨nofun, trivial⟩, ⟨nofun, trivial⟩, trivial⟩
    all_goals
      rintro w heq
      cases heq
      rfl
  refine ⟨hok, _, rfl, rfl, ?_⟩
  exact cached_values_live hok ⟨0⟩ _ rfl rfl ⟨2⟩ (List.mem_singleton_self _)

/-- An observer that deletes the new value while a replacement is announced leaves the cache that is
told after it with a key that is gone.  This is what `Careful` rules out. -/
example :
    let h := opened.run
      [.edit (.createModule "m"), .edit (.addGlobalVariable ⟨0⟩ "v"),
        .edit (.addGlobalVariable ⟨0⟩ "w"), .addObserver, .createCache false false,
        .cacheInsert (some ⟨0⟩) (some ⟨0⟩) 7, .replaceAllUses ⟨0⟩ ⟨1⟩, .step, .delete ⟨1⟩, .step,
        .answer none, .step, .step, .answer none, .step]
    h.agenda = [] ∧ (h.caches.get? ⟨0⟩).map (·.cache.mapping.keys) = some [⟨1⟩] ∧
      h.store.containsValue soleContext ⟨1⟩ = false := ⟨rfl, rfl, rfl⟩

end ForeignHandles.Host
