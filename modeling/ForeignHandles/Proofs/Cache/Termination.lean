import ForeignHandles.Proofs.Cache.Keys
import ForeignHandles.Proofs.Cache.Ledger
import ForeignHandles.Proofs.Cache.Scripts

/-!
  Draining ends.

  The queue can get longer with every callback, and a replacement brings a key that was not mapped,
  so no queue and no mapping gets shorter all the time.  Two numbers together do.

  The `weight` of a cache is the number of its mappings; while the consumer is told of an orphan, the
  mapping that has gone for it still counts.  Nothing adds to it, and every call about a deletion
  takes one off.  The `rank` is the number of replacements that wait or are underway.  A callback
  that is asked for a replacement leaves the weight as it is, but if it raises only deletions then
  it lowers the rank.  `resume_shrinks` has both for the return of a callback, and `serve_ends` is
  the recursion on the two.

  If callbacks do nothing but return, the calls that are left can be counted beforehand
(`callsToGo`); this holds of any cache, also of one in the middle of a stage that no notification
has led to.  At the other end, a consumer that answers a replacement by the opposite one is called
for ever (`pingPong_goes_on`).
-/
namespace ForeignHandles

variable {K : Type}

/-! ## Weight and rank

Both numbers are read off the state of the cache. A callback that is underway has its part in
them: a mapping whose deletion has yet to be told, or a replacement that has yet to be answered. -/

/-- Whether a notification is of a replacement. -/
def Event.isReplacement : Event K → Bool
  | .deleted _ => false
  | .replaced _ _ => true

/-- Whether a call tells the consumer that a handle is no longer in use. -/
def Call.isDeleted : Call K → Bool
  | .deleted _ _ => true
  | .replaced _ _ _ => false

/-- The mappings that have gone before the consumer has been told. -/
def Stage.weight : Stage K → Nat
  | .deleting _ _ => 0
  | .replacing _ _ _ => 0
  | .orphaning _ _ => 1

/-- The replacements that are underway. -/
def Stage.rank : Stage K → Nat
  | .deleting _ _ => 0
  | .replacing _ _ _ => 1
  | .orphaning _ _ => 0

/-- A call is about a deletion or asks for a replacement. -/
theorem Stage.rank_eq (s : Stage K) : s.rank = if s.call.isDeleted then 0 else 1 := by
  cases s <;> rfl

namespace Cache

/-- The weight of a mapping and a stage. -/
def weightOf (next : Mapping K × Option (Stage K)) : Nat :=
  next.1.size + (next.2.map Stage.weight).getD 0

/-- What a cache has to lose. -/
def weight (c : Cache K) : Nat := weightOf (c.mapping, c.stage)

/-- How many replacements wait or are underway. -/
def rank (c : Cache K) : Nat :=
  c.pending.countP Event.isReplacement + (c.stage.map Stage.rank).getD 0

variable [DecidableEq K] {c : Cache K} {m : Mapping K} {key : K} {handle : ExternalHandle}
  {h : List (Record K)}

/-- A mapping that is taken away makes one less, -/
theorem size_erase (hkey : m.get? key = some handle) : (m.erase key).size + 1 = m.size :=
  ((perm_of_mem m.nodup ((m.mem_entries_iff key handle).2 hkey)).length_eq).symm

/-- and one that is put in one more. -/
theorem size_insertNew (hkey : m.get? key = none) (handle : ExternalHandle) :
    (m.insertNew key handle).size = m.size + 1 := by
  simp [Mapping.insertNew, Mapping.size, hkey]

/-! ## One notification

What a notification does to the mapping and the stage, before any callback has run. -/

/-- A mapping moves, or goes and leaves an orphan at the most. -/
theorem weightOf_rekey {old : K} (hold : c.mapping.get? old = some handle) (moved : ExternalHandle)
    (new : K) : weightOf (c.rekey old moved new) ≤ c.mapping.size := by
  have hsize := size_erase hold
  cases hnew : (c.mapping.erase old).get? new with
  | none =>
    have hmoved := size_insertNew hnew moved
    simp only [rekey, hnew, weightOf, Option.map_none, Option.getD_none]
    omega
  | some existing =>
    simp only [rekey, hnew]
    split
    · exact Nat.le_of_eq hsize
    · exact Nat.le_of_lt (Nat.lt_of_succ_le (Nat.le_of_eq hsize))

/-- A notification adds no weight, whichever callback it leads to. -/
theorem weightOf_apply (c : Cache K) (e : Event K) : weightOf (c.apply e) ≤ c.mapping.size := by
  cases e with
  | deleted key =>
    simp only [apply]
    split
    · exact Nat.le_refl _
    next handle hkey =>
      split
      · exact Nat.le_refl _
      · exact Nat.le_of_lt (Nat.lt_of_succ_le (Nat.le_of_eq (size_erase hkey)))
  | replaced old new =>
    simp only [apply]
    split
    · exact Nat.le_refl _
    · split
      · exact Nat.le_refl _
      next handle hold =>
        split
        · exact Nat.le_refl _
        · exact weightOf_rekey hold handle new

/-- A callback asks for a replacement only if the notification was of one. -/
theorem rank_of_underway {e : Event K} {before after : Mapping K} {s : Stage K}
    (hs : Underway e before s after) : s.rank ≤ [e].countP Event.isReplacement := by
  cases hs with
  | deleting => exact Nat.le_refl _
  | replacing => exact Nat.le_refl _
  | orphaning => exact Nat.zero_le _

/-- What the return of a callback does at once: a call about a deletion has cost one. -/
theorem weightOf_conclude {e : Event K} {before : Mapping K} {s : Stage K}
    (hs : Underway e before s c.mapping) (answer : Option ExternalHandle) :
    weightOf (c.conclude answer s) + [s.call].countP Call.isDeleted ≤
      weightOf (c.mapping, some s) := by
  generalize hafter : c.mapping = after at hs
  cases hs with
  | deleting hkey =>
    rw [← hafter] at hkey
    have hsize := size_erase hkey
    rw [← hafter]
    exact Nat.le_of_eq hsize
  | replacing hne hkey =>
    rw [← hafter] at hkey ⊢
    exact weightOf_rekey hkey _ _
  | orphaning =>
    rw [← hafter]
    exact Nat.le_refl _

/-- No second callback asks for a replacement. -/
theorem rank_conclude {s t : Stage K} {answer : Option ExternalHandle}
    (ht : (c.conclude answer s).2 = some t) : t.rank = 0 := by
  cases s with
  | deleting key handle => cases ht
  | orphaning old handle => cases ht
  | replacing old handle new =>
    rw [stage_rekey ht]
    rfl

/-! ## The queue

Over several notifications the effects add up, and the return of a callback is one more. -/

/-- Draining adds no weight, and no replacements to those in the queue. The induction is along the
queue; the notification at which the draining stops has moved from the queue to the stage. -/
theorem drain_shrinks (c : Cache K) (queue : List (Event K)) :
    (c.drain queue).weight ≤ c.mapping.size ∧
      (c.drain queue).rank ≤ queue.countP Event.isReplacement := by
  induction queue generalizing c with
  | nil => exact ⟨Nat.le_refl _, Nat.le_refl _⟩
  | cons e queue ih =>
    have hweight := c.weightOf_apply e
    have hcount : ([e] ++ queue).countP Event.isReplacement =
        [e].countP Event.isReplacement + queue.countP Event.isReplacement := List.countP_append
    rw [drain_cons, ← List.singleton_append, hcount]
    rcases hnext : c.apply e with ⟨mapping, _ | s⟩
    · rw [hnext] at hweight
      obtain ⟨hrest, hrank⟩ := ih { c with mapping }
      exact ⟨Nat.le_trans hrest hweight, Nat.le_trans hrank (Nat.le_add_left ..)⟩
    · rw [hnext] at hweight
      refine ⟨hweight, ?_⟩
      have hs := rank_of_underway (apply_eq_some hnext)
      simp only [proceed, rank, Option.map_some, Option.getD_some]
      omega

/-- A callback that returns has brought the cache forward: by a mapping, if the call was about a
deletion, or else by a replacement. -/
theorem resume_shrinks {s : Stage K} (hs : c.stage = some s) (htracks : Tracks c h)
    (answer : Option ExternalHandle) :
    (c.resume answer).weight + [s.call].countP Call.isDeleted ≤ c.weight ∧
      (c.resume answer).rank + s.rank ≤ c.rank := by
  -- the callback is underway for some notification
  obtain ⟨e, before, -, hunder⟩ := htracks s hs
  have hconclude := weightOf_conclude hunder answer
  have hweight : c.weight = weightOf (c.mapping, some s) := by rw [weight, hs]
  have hrank : c.rank = c.pending.countP Event.isReplacement + s.rank := by rw [rank, hs]; rfl
  rw [resume_eq_proceed hs, hweight, hrank]
  rcases hnext : c.conclude answer s with ⟨mapping, _ | t⟩
  · rw [hnext] at hconclude
    obtain ⟨hdrain, hqueue⟩ := drain_shrinks { c with mapping } c.pending
    exact ⟨Nat.le_trans (Nat.add_le_add_right hdrain _) hconclude, Nat.add_le_add_right hqueue _⟩
  · rw [hnext] at hconclude
    refine ⟨hconclude, Nat.le_of_eq ?_⟩
    have ht : t.rank = 0 := rank_conclude (show (c.conclude answer s).2 = some t by rw [hnext])
    simp only [proceed, rank, Option.map_some, Option.getD_some, ht, Nat.add_zero]

/-! ## Consumers that raise nothing

Here the bound is known in advance: each notification in the queue leads to two calls at most, one
for a replacement and one for the orphan that it leaves. -/

/-- The notification that a callback raises by a deed. -/
def Deed.event? : Deed K → Option (Event K)
  | .raise e => some e
  | .ask _ => none

/-- The notifications that a callback raises. -/
def Script.raised (script : Script K) : List (Event K) := script.deeds.filterMap Deed.event?

/-- A callback returns, and if it is asked for a replacement then it raises only deletions. -/
structure Script.Behaves (script : Script K) (call : Call K) : Prop where
  returns : ∃ answer, script.ending = .returns answer
  deletions : call.isDeleted = false → ∀ e, .raise e ∈ script.deeds → e.isReplacement = false

omit [DecidableEq K] in
/-- No replacement is raised where none may be. -/
theorem Script.Behaves.raised_eq {script : Script K} {call : Call K} (hb : script.Behaves call)
    (hcall : call.isDeleted = false) : script.raised.countP Event.isReplacement = 0 := by
  refine List.countP_eq_zero.2 fun e he => ?_
  obtain ⟨d, hd, hevent⟩ := List.mem_filterMap.1 he
  cases d with
  | raise e' =>
    obtain rfl : e' = e := Option.some.inj hevent
    simp [hb.deletions hcall _ hd]
  | ask op => cases hevent

/-- The number of calls about deletions. -/
def deletions (calls : List (Call K × Mapping K)) : Nat := calls.countP (fun p => p.1.isDeleted)

namespace Play

variable {consumer : Consumer K} {p : Play K} {s : Stage K}

/-- The deeds of a callback only make the queue longer. -/
theorem foldl_deed (hbusy : p.cache.isDispatching = true) (deeds : List (Deed K)) :
    (deeds.foldl deed p).cache =
        { p.cache with pending := p.cache.pending ++ deeds.filterMap Deed.event? } ∧
      (deeds.foldl deed p).calls = p.calls := by
  induction deeds generalizing p with
  | nil => simp
  | cons d deeds ih =>
    cases d with
    | raise e =>
      have hraise := raise_of_dispatching hbusy e
      obtain ⟨hcache, hcalls⟩ := ih (p := p.deed (.raise e)) (by rw [deed, hraise]; exact hbusy)
      refine ⟨hcache.trans ?_, hcalls⟩
      simp only [deed, hraise, List.append_assoc]
      rfl
    | ask op =>
      obtain ⟨hsame, -, -⟩ := perform_of_dispatching hbusy op
      obtain ⟨hcache, hcalls⟩ := ih (p := p.deed (.ask op)) (by rw [deed, hsame]; exact hbusy)
      refine ⟨hcache.trans ?_, hcalls⟩
      simp only [deed, hsame]
      rfl

/-- A callback that returns has made the queue longer, and then the cache goes on. -/
theorem callback_of_returns {call : Call K × Mapping K} {answer : Option ExternalHandle}
    (hbusy : p.cache.isDispatching = true)
    (hends : (consumer (p.calls ++ [call])).ending = .returns answer) :
    (p.callback consumer call).cache = resume
        { p.cache with pending := p.cache.pending ++ (consumer (p.calls ++ [call])).raised }
        answer ∧
      (p.callback consumer call).calls = p.calls ++ [call] := by
  obtain ⟨hcache, hcalls⟩ := foldl_deed (p := { p with calls := p.calls ++ [call] }) hbusy
    (consumer (p.calls ++ [call])).deeds
  simp only [callback, hends, ending, hcache, hcalls, and_true]
  rfl

/-- A callback that behaves takes a mapping or a replacement off what is left to do. -/
theorem callback_shrinks (hs : p.cache.stage = some s) (htracks : Tracks p.cache h)
    (hb : (consumer (p.calls ++ [(s.call, p.cache.mapping)])).Behaves s.call) :
    let q := p.callback consumer (s.call, p.cache.mapping)
    (∃ h', Tracks q.cache h') ∧ (q.cache.stage = none → q.cache.pending = []) ∧
      deletions q.calls + q.cache.weight ≤ deletions p.calls + p.cache.weight ∧
      Prod.Lex (· < ·) (· < ·) (q.cache.weight, q.cache.rank) (p.cache.weight, p.cache.rank) := by
  obtain ⟨answer, hends⟩ := hb.returns
  obtain ⟨hcache, hcalls⟩ :=
    callback_of_returns (isDispatching_eq_true_iff.2 ⟨s, hs⟩) hends
  generalize p.callback consumer (s.call, p.cache.mapping) = q at hcache hcalls ⊢
  simp only
  -- the queue is longer when the callback returns, and all else is as it was
  generalize hlonger : ({ p.cache with
    pending := p.cache.pending ++
      (consumer (p.calls ++ [(s.call, p.cache.mapping)])).raised } : Cache K) = c at hcache
  have hstage : c.stage = some s := by rw [← hlonger]; exact hs
  have htracks' : Tracks c h := by rw [← hlonger]; exact htracks
  have hweight : c.weight = p.cache.weight := by rw [← hlonger]; rfl
  obtain ⟨hless, hlower⟩ := resume_shrinks hstage htracks' answer
  rw [← hcache, hweight] at hless
  rw [← hcache] at hlower
  have hcount : deletions q.calls = deletions p.calls + [s.call].countP Call.isDeleted := by
    rw [hcalls, deletions, List.countP_append]
    rfl
  refine ⟨?_, ?_, by omega, ?_⟩
  · rw [hcache, resume_eq_proceed hstage]
    exact ⟨_, tracks_proceed hstage htracks' answer⟩
  · rw [hcache, resume_eq_proceed hstage]
    exact pending_eq_nil_of_proceed
  · cases hcall : s.call.isDeleted with
    | true =>
      have hone : [s.call].countP Call.isDeleted = 1 := by simp [hcall]
      exact .left _ _ (by omega)
    | false =>
      have hrank : c.rank = p.cache.rank := by
        simp only [← hlonger, rank, List.countP_append, hb.raised_eq hcall, Nat.add_zero]
      have hone : s.rank = 1 := by rw [s.rank_eq, hcall]; rfl
      -- the weight may have gone down as well; if not, the rank has
      rcases Nat.lt_or_eq_of_le (Nat.le_trans (Nat.le_add_right ..) hless) with hlt | heq
      · exact .left _ _ hlt
      · rw [heq]
        exact .right _ (by omega)

/-- An idle cache makes no calls, however long one waits. -/
theorem serve_of_idle (hidle : p.cache.view = none) (n : Nat) : serve consumer n p = p := by
  cases n with
  | zero => rfl
  | succ n => rw [serve, hidle]

/-- Otherwise the first callback is served, and then the rest. -/
theorem serve_succ {call : Call K × Mapping K} (hcall : p.cache.view = some call) (n : Nat) :
    serve consumer (n + 1) p = serve consumer n (p.callback consumer call) := by
  rw [serve, hcall]

/-- **Callbacks that behave come to an end**: from then on nothing is left to do. The recursion is
on weight and rank, one callback at a time. -/
theorem serve_ends (consumer : Consumer K) (p : Play K) (htracks : ∃ h, Tracks p.cache h)
    (hempty : p.cache.stage = none → p.cache.pending = [])
    (hbehaves : ∀ n call, (serve consumer n p).cache.view = some call →
      (consumer ((serve consumer n p).calls ++ [call])).Behaves call.1) :
    ∃ n ended, (∀ k, n ≤ k → serve consumer k p = ended) ∧ ended.cache.stage = none ∧
      ended.cache.pending = [] ∧
      deletions ended.calls + ended.cache.size ≤ deletions p.calls + p.cache.weight := by
  cases hs : p.cache.stage with
  | none =>
    have hidle : p.cache.view = none := view_of_idle (isDispatching_eq_false_iff.2 hs)
    refine ⟨0, p, fun k _ => serve_of_idle hidle k, hs, hempty hs, ?_⟩
    exact Nat.add_le_add_left (Nat.le_add_right ..) _
  | some s =>
    have hcall : p.cache.view = some (s.call, p.cache.mapping) := by
      rw [view, call?, hs, Option.map_some, Option.map_some]
    obtain ⟨h, hh⟩ := htracks
    obtain ⟨htracks', hempty', hcount, hlex⟩ := callback_shrinks hs hh (hbehaves 0 _ hcall)
    obtain ⟨n, ended, hserve, hstage, hpending, hbound⟩ :=
      serve_ends consumer (p.callback consumer (s.call, p.cache.mapping)) htracks' hempty'
        fun n call hn => by
          have hnext := hbehaves (n + 1) call
          rw [serve_succ hcall] at hnext
          exact hnext hn
    refine ⟨n + 1, ended, fun k hk => ?_, hstage, hpending, Nat.le_trans hbound hcount⟩
    obtain ⟨k, rfl⟩ : ∃ i, k = i + 1 := ⟨k - 1, by omega⟩
    rw [serve_succ hcall]
    exact hserve k (Nat.le_of_succ_le_succ hk)
termination_by (p.cache.weight, p.cache.rank)
decreasing_by exact hlex

end Play

/-- **Draining ends.** Let a cache in any state start on its queue.  If the callbacks that are called
all return, and those that are asked for a replacement raise only deletions, whatever they do
besides, then after some number of callbacks it is idle with nothing left in the queue, and calls
about deletions have been no more than mappings have gone. -/
theorem drain_ends (consumer : Consumer K) (c : Cache K)
    (hbehaves : ∀ n call, (Play.serve consumer n { cache := c.advance }).cache.view = some call →
      (consumer ((Play.serve consumer n { cache := c.advance }).calls ++ [call])).Behaves call.1) :
    ∃ n ended, (∀ k, n ≤ k → Play.serve consumer k { cache := c.advance } = ended) ∧
      ended.cache.isDispatching = false ∧ ended.cache.pending = [] ∧
      deletions ended.calls + ended.cache.size ≤ c.size := by
  obtain ⟨n, ended, hserve, hstage, hpending, hbound⟩ :=
    Play.serve_ends consumer { cache := c.advance } ⟨_, tracks_drain c c.pending []⟩
      pending_eq_nil_of_drain hbehaves
  refine ⟨n, ended, hserve, isDispatching_eq_false_iff.2 hstage, hpending, ?_⟩
  have hzero : deletions ({ cache := c.advance } : Play K).calls = 0 := rfl
  rw [hzero, Nat.zero_add] at hbound
  exact Nat.le_trans hbound (drain_shrinks c c.pending).1

/-- Told of a deletion, this consumer raises a replacement that brings the key back, and another
deletion; asked for a replacement, it raises a deletion. -/
def talker : Consumer Nat := fun calls =>
  match calls.getLast? with
  | some (.replaced _ _ new, _) => { deeds := [.raise (.deleted new)], ending := .returns (some 9) }
  | some (.deleted 1 _, _) =>
    { deeds := [.raise (.replaced 2 1), .raise (.deleted 3)], ending := .returns none }
  | _ => { deeds := [], ending := .returns none }

/-- Three mappings, and the deletion of the first waits. -/
def talked : Cache Nat :=
  { onDeleted := true
    onReplaced := true
    mapping := ⟨[(1, 5), (2, 6), (3, 7)], by decide⟩
    pending := [.deleted 1] }

/-- That is allowed: only the call about a deletion raises a replacement. -/
theorem talker_behaves (calls : List (Call Nat × Mapping Nat)) (call : Call Nat × Mapping Nat) :
    (talker (calls ++ [call])).Behaves call.1 := by
  rcases call with ⟨_ | ⟨old, handle, new⟩, m⟩
  · rename_i key handle
    refine ⟨?_, nofun⟩
    simp only [talker, List.getLast?_concat]
    split <;> exact ⟨_, rfl⟩
  · have hscript : talker (calls ++ [(.replaced old handle new, m)]) =
        { deeds := [.raise (.deleted new)], ending := .returns (some 9) } := by
      simp only [talker, List.getLast?_concat]
    rw [hscript]
    refine ⟨⟨_, rfl⟩, fun _ e he => ?_⟩
    obtain rfl : e = .deleted new := by simpa using he
    rfl

/-- The deletions of `1`, of `3` and of `1` again are told, and a replacement is asked for. -/
theorem talked_ends :
    (∃ n ended, (∀ k, n ≤ k → Play.serve talker k { cache := talked.advance } = ended) ∧
      ended.cache.isDispatching = false ∧ ended.cache.pending = [] ∧
      deletions ended.calls + ended.cache.size ≤ talked.size) ∧
    (Play.serve talker 4 { cache := talked.advance }).calls.map (·.1) =
      [.deleted 1 5, .replaced 2 6 1, .deleted 3 7, .deleted 1 9] ∧
    (Play.serve talker 4 { cache := talked.advance }).cache.isDispatching = false :=
  ⟨drain_ends talker talked fun _ _ _ => talker_behaves _ _, by decide, by decide⟩

/-! ## A consumer that is called for ever

The condition on replacements cannot be dropped. Two keys and one mapping are enough. -/

/-- This consumer answers a replacement by the opposite one. -/
def pingPong : Consumer Nat := fun calls =>
  match calls.getLast? with
  | some (.replaced old _ new, _) =>
    { deeds := [.raise (.replaced new old)], ending := .returns none }
  | _ => { deeds := [], ending := .returns none }

/-- One mapping, for which the consumer is asked for a replacement. -/
def tossed (old new : Nat) : Cache Nat :=
  { onReplaced := true
    mapping := ⟨[(old, 5)], by simp⟩
    stage := some (.replacing old 5 new) }

/-- Its answer leaves the cache as it was, with the keys exchanged. -/
theorem callback_pingPong {old new : Nat} (hne : old ≠ new) {p : Play Nat}
    (hp : p.cache = tossed old new) :
    (p.callback pingPong (.replaced old 5 new, p.cache.mapping)).cache = tossed new old := by
  have hscript : pingPong (p.calls ++ [(.replaced old 5 new, p.cache.mapping)]) =
      { deeds := [.raise (.replaced new old)], ending := .returns none } := by
    simp only [pingPong, List.getLast?_concat]
  have hbusy : p.cache.isDispatching = true := by rw [hp]; rfl
  have hends : (pingPong (p.calls ++ [(.replaced old 5 new, p.cache.mapping)])).ending =
      .returns none := by rw [hscript]
  obtain ⟨hcache, -⟩ := Play.callback_of_returns hbusy hends
  rw [hcache, hscript, hp]
  simp [Script.raised, Deed.event?, resume, rekey, advance, drain, apply, tossed, Mapping.erase,
    Mapping.insertNew, Mapping.get?, Ne.symm hne]

/-- So it is not enough that callbacks return. -/
theorem pingPong_goes_on (n : Nat) :
    (Play.serve pingPong n { cache := tossed 1 2 }).cache.isDispatching = true := by
  -- for both directions at once, as one leads to the other
  have hall : ∀ n old new, old ≠ new → ∀ p : Play Nat, p.cache = tossed old new →
      (Play.serve pingPong n p).cache.isDispatching = true := by
    intro n
    induction n with
    | zero =>
      intro old new _ p hp
      rw [Play.serve, hp]
      rfl
    | succ n ih =>
      intro old new hne p hp
      have hcall : p.cache.view = some (.replaced old 5 new, p.cache.mapping) := by rw [hp]; rfl
      rw [Play.serve_succ hcall]
      exact ih new old hne.symm _ (callback_pingPong hne hp)
  exact hall n 1 2 (by decide) _ rfl

end Cache

end ForeignHandles
