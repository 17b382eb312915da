import ForeignHandles.Proofs.Host.Step
import ForeignHandles.Proofs.Store.Uses

/-!
  Whom aliases stand for and whom wrappers have, over every run of a host.

  A user is made for a value.  From then on its target is what becomes of that value: `follow` reads
  it off the record.  If the value is replaced, so is the target; if it leaves the context, there is
  no target any more; nothing else matters, and there is no way back from nothing.

  `Tracked` is the invariant.  Its second part, that a target is a value that is there, is
  what makes the first one inductive: releasing a value that is gone already redirects its uses too,
  and leaves no record; but nobody uses such a value.  For this, values have to be there
  when they are first used and when they replace another one (`UsesLive`).  The theorem holds
  however the operations interleave.
-/
namespace ForeignHandles.Host

/-! ## Following a value

Only replacements and releases move a target. `follow` is a fold over the record, so it can be
taken apart at the place where a user was made: what comes before does not matter to it. -/

/-- What a record makes of a target. -/
def Record.turn (target : Handle .value) : Record → Handle .value
  | .replaced old new => redirected old (some new) target
  | .released v => redirected v none target
  | _ => target

/-- What becomes of a target: a replacement of it moves it, its release makes it nothing. -/
def follow (target : Handle .value) (records : List Record) : Handle .value :=
  records.foldl Record.turn target

/-- Nothing has become of a value yet. -/
@[simp] theorem follow_nil (target : Handle .value) : follow target [] = target := rfl

/-- A record is read from its beginning, -/
@[simp] theorem follow_cons (target : Handle .value) (x : Record) (records : List Record) :
    follow target (x :: records) = follow (x.turn target) records := rfl

/-- and in parts as it is read as a whole. -/
theorem follow_append (target : Handle .value) (first second : List Record) :
    follow target (first ++ second) = follow (follow target first) second := List.foldl_append

/-- Nothing stays nothing. -/
theorem redirected_none (old : Ref .value) (new : Handle .value) :
    redirected old new none = none := rfl

/-- The user that a record says was made. -/
def Record.user? : Record → Option User
  | .used u _ => some u
  | _ => none

/-- A record that is about listeners. -/
def Record.isAside : Record → Bool
  | .registered _ | .dropped _ | .told _ _ _ => true
  | _ => false

/-- What is about listeners does not move a target. -/
theorem follow_of_aside {records : List Record} (h : ∀ x ∈ records, x.isAside = true)
    (target : Handle .value) : follow target records = target := by
  induction records generalizing target with
  | nil => rfl
  | cons x records ih =>
    have hturn : x.turn target = target := by
      have hx := h x List.mem_cons_self
      cases x <;> first | rfl | cases hx
    rw [follow_cons, hturn]
    exact ih (fun y hy => h y (List.mem_cons_of_mem x hy)) target

/-! ## What a run keeps

The two conditions in `UsesLive` are on callers. A value that is not there can be wrapped, because
wrappers are made from references, and can be put in the place of another; the wrapper would then
refer to nothing from the start. -/

/-- Values are there when they are first used and when they replace another one. -/
def UsesLive (h : Host) : Action → Prop
  | .edit (.valueAsMetadata v) => h.store.containsValue soleContext v = true
  | .replaceAllUses _ new => h.store.containsValue soleContext new = true
  | _ => True

/-- Every target is on record, and there. `origin` is the first part of the theorem, without the
uniqueness that comes from `once`; `known` says that references of users were given out, so that a
new user is none of the old. -/
structure Tracked (s : Store) (r : List Record) : Prop where
  origin : ∀ {u t}, s.target? u = some t →
    ∃ before v after, r = before ++ .used u v :: after ∧ t = follow (some v) after
  live : ∀ {u v}, s.target? u = some (some v) → s.values.contains v = true
  known : ∀ {u}, u ∈ r.filterMap Record.user? → u.Known s
  once : (r.filterMap Record.user?).Nodup

namespace Tracked

variable {s s' : Store} {r rs : List Record}

/-- A later record makes of every target what it makes of the value that it goes back to. -/
theorem later (ht : Tracked s r) (hnone : rs.filterMap Record.user? = [])
    (hknown : ∀ {u : User}, u.Known s → u.Known s')
    (htarget : ∀ {u t}, s'.target? u = some t →
      ∃ t', s.target? u = some t' ∧ t = follow t' rs)
    (hlive : ∀ {u v}, s'.target? u = some (some v) → s'.values.contains v = true) :
    Tracked s' (r ++ rs) where
  origin {u t} hu := by
    obtain ⟨t', hu', rfl⟩ := htarget hu
    obtain ⟨before, v, after, rfl, rfl⟩ := ht.origin hu'
    exact ⟨before, v, after ++ rs, by simp, (follow_append _ after rs).symm⟩
  live := hlive
  known {u} hu := by
    rw [List.filterMap_append, hnone, List.append_nil] at hu
    exact hknown (ht.known hu)
  once := by
    rw [List.filterMap_append, hnone, List.append_nil]
    exact ht.once

/-- What is about listeners changes nothing. -/
theorem aside (ht : Tracked s r) (haside : ∀ x ∈ rs, x.isAside = true) : Tracked s (r ++ rs) := by
  refine ht.later ?_ id (fun {u t} hu => ⟨t, hu, (follow_of_aside haside t).symm⟩) ht.live
  refine List.filterMap_eq_nil_iff.2 fun x hx => ?_
  have hx' := haside x hx
  cases x <;> first | rfl | cases hx'

/-- An edit makes one user at most. It has the value it is made for, and the record ends with just
that; the other users have their targets as before. -/
theorem edit (ht : Tracked s r) {home : Handle .module} {users : List (User × Ref .value)}
    (hchange : Store.Change soleContext s home users s')
    (hlive : ∀ u v, (u, v) ∈ users → s.values.contains v = true) :
    Tracked s' (r ++ users.map fun p => .used p.1 p.2) := by
  -- an edit makes a user, or it leaves all targets alone
  by_cases hmade : ∃ u v, (u, v) ∈ users
  · obtain ⟨u, v, hu⟩ := hmade
    obtain ⟨rfl, hnew, hknown, htarget⟩ := hchange.made hu
    have hfresh : u ∉ r.filterMap Record.user? := fun hmem => hnew (ht.known hmem)
    have hrecorded : (r ++ [Record.used u v]).filterMap Record.user? =
        r.filterMap Record.user? ++ [u] := by
      rw [List.filterMap_append]
      rfl
    -- a user other than the new one has the target from before
    have hsame {w : User} (hw : w ≠ u) : s'.target? w = s.target? w := by
      refine hchange.target?_eq fun a ha => hw ?_
      exact (Prod.mk.inj (List.mem_singleton.1 ha)).1
    refine ⟨fun {w t} hw => ?_, fun {w x} hw => ?_, fun {w} hw => ?_, ?_⟩
    · by_cases hwu : w = u
      · subst hwu
        obtain rfl : some v = t := by simpa [htarget] using hw
        exact ⟨r, v, [], rfl, rfl⟩
      · obtain ⟨before, x, after, rfl, rfl⟩ := ht.origin (hsame hwu ▸ hw)
        refine ⟨before, x, after ++ [.used u v], by simp, ?_⟩
        rw [follow_append]
        rfl
    · by_cases hwu : w = u
      · subst hwu
        obtain rfl : v = x := by simpa [htarget] using hw
        exact hchange.contains (hlive w v hu)
      · exact hchange.contains (ht.live (hsame hwu ▸ hw))
    · simp only [List.map_cons, List.map_nil] at hw
      rw [hrecorded] at hw
      rcases List.mem_append.1 hw with hw | hw
      · exact hchange.known (ht.known hw)
      · rw [List.mem_singleton.1 hw]
        exact hknown
    · simp only [List.map_cons, List.map_nil]
      rw [hrecorded, List.nodup_append]
      refine ⟨ht.once, by simp, ?_⟩
      rintro w hw x hx rfl
      exact hfresh (List.mem_singleton.1 hx ▸ hw)
  · have hnone : users = [] := by
      refine List.eq_nil_iff_forall_not_mem.2 fun p hp => hmade ⟨p.1, p.2, hp⟩
    subst hnone
    have hsame (u : User) : s'.target? u = s.target? u :=
      hchange.target?_eq fun a => List.not_mem_nil
    refine ht.later rfl hchange.known (fun {u t} hu => ⟨t, hsame u ▸ hu, rfl⟩) fun {u v} hu => ?_
    exact hchange.contains (ht.live (hsame u ▸ hu))

/-- A replacement moves the targets that were the old value. The new one is there, which is the
condition. -/
theorem replace (ht : Tracked s r) {old new : Ref .value} (hnew : s.values.contains new = true) :
    Tracked (s.rewire old (some new)) (r ++ [.replaced old new]) := by
  have htarget {u : User} {t : Handle .value}
      (hu : (s.rewire old (some new)).target? u = some t) :
      ∃ t', s.target? u = some t' ∧ t = redirected old (some new) t' := by
    rw [Store.target?_rewire] at hu
    obtain ⟨t', hu', rfl⟩ := Option.map_eq_some_iff.1 hu
    exact ⟨t', hu', rfl⟩
  refine ht.later rfl (fun {u} hu => by cases u <;> exact hu) htarget fun {u v} hu => ?_
  obtain ⟨t', hu', hv⟩ := htarget hu
  rw [Store.contains_rewire]
  unfold redirected at hv
  split at hv
  · cases hv
    exact hnew
  · exact ht.live (hv ▸ hu')

/-- The targets after a value is released, be it there before or not. -/
theorem target?_of_release {v : Ref .value} {u : User} {t : Handle .value}
    (hu : (s.release v).target? u = some t) :
    ∃ t', s.target? u = some t' ∧ t = redirected v none t' := by
  rw [Store.target?_release] at hu
  split at hu
  · cases hu
  · obtain ⟨t', hu', rfl⟩ := Option.map_eq_some_iff.1 hu
    exact ⟨t', hu', rfl⟩

/-- Who still has a target after a release has one that is there, for those that had the released
value have nothing. -/
theorem live_release (ht : Tracked s r) {v w : Ref .value} {u : User}
    (hu : (s.release v).target? u = some (some w)) : (s.release v).values.contains w = true := by
  -- what is redirected by a release comes to nothing
  obtain ⟨t', hu', hw⟩ := target?_of_release hu
  unfold redirected at hw
  split at hw
  · cases hw
  · rename_i hne
    rw [← hw] at hne hu'
    simp only [Store.contains_release, ht.live hu', Bool.and_true, decide_eq_true_eq]
    rintro rfl
    exact hne rfl

/-- References that were given out remain given out. -/
theorem known_release {v : Ref .value} {u : User} (hu : u.Known s) : u.Known (s.release v) := by
  cases u with
  | globalAlias w =>
    rw [User.Known, Store.next_release]
    exact hu
  | wrapper d =>
    have hmetadata : (s.release v).metadata.next = (s.unlist v).metadata.next := rfl
    rw [User.Known, hmetadata, Store.metadata_unlist]
    exact hu

/-- A release takes its value from all who had it. -/
theorem release (ht : Tracked s r) (v : Ref .value) :
    Tracked (s.release v) (r ++ [.released v]) :=
  ht.later rfl known_release target?_of_release ht.live_release

/-- Nobody uses a value that is gone, so nothing changes when it is released once more. -/
theorem vanish (ht : Tracked s r) {v : Ref .value} (hv : s.values.get? v = none) :
    Tracked (s.release v) (r ++ []) := by
  refine ht.later rfl known_release (fun {u t} hu => ?_) ht.live_release
  obtain ⟨t', hu', rfl⟩ := target?_of_release hu
  refine ⟨t', hu', if_neg ?_⟩
  rintro rfl
  have hlive := ht.live hu'
  rw [Arena.contains, hv] at hlive
  cases hlive

end Tracked

/-- **Every step keeps targets on record.** -/
theorem tracked_of_step {h h' : Host} {a : Action} {r rs : List Record} (hs : h.Sole)
    (hok : UsesLive h a) (hstep : Step h a h' rs) (ht : Tracked h.store r) :
    Tracked h'.store (r ++ rs) := by
  cases hstep with
  | @edit e users s hchange husers =>
    refine ht.edit hchange fun u v hu => ?_
    -- the edit looks whether the value is there, or it is a wrapping, which has the condition
    rcases Store.contains_of_uses (husers ▸ hu) with hlive | rfl
    · exact hlive
    · rwa [← hs.containsValue]
  | replace hne hold => exact ht.replace (by rwa [← hs.containsValue])
  | release hfront hv => exact ht.release _
  | vanish hfront hv => exact ht.vanish hv
  | tellCache hfront =>
    rw [store_notify]
    exact ht.aside (by simp [Record.isAside])
  | retire hfront => exact ht.later rfl id (fun {u t} hu => ⟨t, hu, rfl⟩) ht.live
  | _ => exact ht.aside (by simp [Record.isAside])

/-- In the beginning nobody uses anything. -/
theorem tracked_opened : Tracked opened.store [] where
  origin {u t} hu := by cases u <;> cases hu
  live {u v} hu := by cases u <;> cases hu
  known hu := by cases hu
  once := List.nodup_nil

/-- So targets are on record after every run that keeps to the conditions. -/
theorem tracked_run {actions : List Action} (hok : Along UsesLive opened actions) :
    Tracked (opened.run actions).store (opened.history actions) := by
  refine run_invariant (P := fun h r => Tracked h.store r) ?_ (r := []) sole_opened hok
    tracked_opened
  intro h r a h' rs hs hok hstep ht
  exact tracked_of_step hs hok hstep ht

/-! ## No way back

A user without a target is not given one: edits make new users and never change old ones, and a
replacement moves only what is there. -/

/-- A user that was there at some time and has no target now. -/
def Lost (s : Store) (u : User) : Prop := u.Known s ∧ ∀ {t}, s.target? u = some t → t = none

/-- A user that has lost its target never gets one again. -/
theorem lost_run {h : Host} (hs : h.Sole) {u : User} (hu : Lost h.store u)
    (actions : List Action) : Lost (h.run actions).store u := by
  refine store_run (P := fun s => Lost s u) ?_ ?_ ?_ (fun _ hu => hu) hs hu actions
  · rintro s e users hchange ⟨hknown, hnone⟩
    refine ⟨hchange.known hknown, fun {t} ht => hnone (t := t) ?_⟩
    rw [← ht]
    -- the user that the edit makes is a new one
    refine (hchange.target?_eq fun a ha => ?_).symm
    exact (hchange.made ha).2.1 hknown
  · rintro s old new ⟨hknown, hnone⟩
    refine ⟨by cases u <;> exact hknown, fun {t} ht => ?_⟩
    rw [Store.target?_rewire] at ht
    obtain ⟨t', ht', rfl⟩ := Option.map_eq_some_iff.1 ht
    rw [hnone ht', redirected_none]
  · rintro s v ⟨hknown, hnone⟩
    refine ⟨Tracked.known_release hknown, fun {t} ht => ?_⟩
    obtain ⟨t', ht', rfl⟩ := Tracked.target?_of_release ht
    rw [hnone ht', redirected_none]

/-! ## Aliases of globals

An alias is made for a global. It can come to stand for something else only by a replacement, so
it depends on what replaces what. -/

/-- A global that is replaced is replaced by a global. -/
def ReplacesByGlobal (h : Host) (a : Action) : Prop :=
  ∀ old new x, a = .replaceAllUses old new → h.store.values.get? old = some x →
    x.isGlobal = true → ∃ y, h.store.values.get? new = some y ∧ y.isGlobal = true

/-- What an alias stands for is a global that is there. -/
def AliasesGlobals (s : Store) : Prop :=
  ∀ v w, s.target? (.globalAlias v) = some (some w) → ∃ x, s.values.get? w = some x ∧ x.isGlobal = true

/-- Every step keeps aliases on globals. Redirecting a value changes neither its sort nor whether
it is a global. -/
theorem aliasesGlobals_of_step {h h' : Host} {a : Action} {rs : List Record}
    (hok : ReplacesByGlobal h a) (hstep : Step h a h' rs) (hglobals : AliasesGlobals h.store) :
    AliasesGlobals h'.store := by
  have hredirect {old : Ref .value} {new : Handle .value} {x : Value} (hx : x.isGlobal = true) :
      (x.redirect old new).isGlobal = true := by
    rw [Value.isGlobal, Value.kind_redirect]
    exact hx
  have hrelease (v : Ref .value) : AliasesGlobals (h.store.release v) := by
    intro u w hu
    obtain ⟨t', hu', hw⟩ := Tracked.target?_of_release hu
    unfold redirected at hw
    split at hw
    · cases hw
    · rename_i hne
      rw [← hw] at hne hu'
      obtain ⟨x, hx, hglobal⟩ := hglobals _ _ hu'
      refine ⟨x.redirect v none, ?_, hredirect hglobal⟩
      rw [Store.get?_values_release, if_neg (fun heq => hne (by rw [heq])), hx]
      rfl
  cases hstep with
  | @edit e users s hchange husers =>
    intro v w hv
    by_cases hmade : ∃ a, (.globalAlias v, a) ∈ users
    · obtain ⟨a, ha⟩ := hmade
      obtain rfl : a = w := by simpa [(hchange.made ha).2.2.2] using hv
      exact hchange.alias_of_global ha
    · have hsame := hchange.target?_eq fun a ha => hmade ⟨a, ha⟩
      obtain ⟨x, hx, hglobal⟩ := hglobals v w (hsame ▸ hv)
      obtain ⟨y, hy, -, hkind, -⟩ := hchange.kept hx
      refine ⟨y, hy, ?_⟩
      rw [Value.isGlobal, hkind]
      exact hglobal
  | @replace old new hne hold =>
    intro v w hv
    rw [Store.target?_rewire] at hv
    obtain ⟨t', hv', hw⟩ := Option.map_eq_some_iff.1 hv
    obtain ⟨x, hx, hglobal⟩ : ∃ x, h.store.values.get? w = some x ∧ x.isGlobal = true := by
      unfold redirected at hw
      split at hw
      · -- the alias stood for `old`, which was a global then
        rename_i heq
        cases hw
        obtain ⟨x, hx, hglobal⟩ := hglobals v old (heq ▸ hv')
        exact hok old new x rfl hx hglobal
      · exact hglobals v w (hw ▸ hv')
    exact ⟨x.redirect old (some new), by rw [Store.get?_values_rewire, hx]; rfl, hredirect hglobal⟩
  | release hfront hv => exact hrelease _
  | vanish hfront hv => exact hrelease _
  | retire hfront => exact hglobals
  | tellCache hfront =>
    rw [store_notify]
    exact hglobals
  | _ => exact hglobals

/-- So aliases stand for globals after every run that replaces globals by globals. -/
theorem aliasesGlobals_run {actions : List Action} (hok : Along ReplacesByGlobal opened actions) :
    AliasesGlobals (opened.run actions).store := by
  have hstart : AliasesGlobals opened.store := by
    intro v w hv
    cases hv
  refine run_invariant (P := fun h _ => AliasesGlobals h.store) ?_ (r := []) sole_opened hok hstart
  intro h r a h' rs _ hok hstep hglobals
  exact aliasesGlobals_of_step hok hstep hglobals

/-! ## Uses

The four parts of the theorem are the sections above. -/

/-- **Uses are tracked exactly and never dangle**, in every state that a run reaches.

The target of an alias or a wrapper is what became of the one value that it was made for. It is
nothing or a value that the context contains; once it is nothing it stays so; and if globals are
replaced by globals only, then aliases stand for globals only.

What became of a value is read off the record alone, by following it through the replacements and
deletions that are put down there (`follow`); the store is not asked.  The run is only asked to have
values that are there when a user is made for them or when they take the place of others. -/
theorem uses_tracked {actions : List Action} (hok : Along UsesLive opened actions) :
    let s := (opened.run actions).store
    (∀ u t, s.target? u = some t →
      ∃ before v after, opened.history actions = before ++ .used u v :: after ∧
        (∀ w, .used u w ∉ before ++ after) ∧ t = follow (some v) after) ∧
    (∀ u v, s.target? u = some (some v) → s.containsValue soleContext v = true) ∧
    (∀ first second u t, actions = first ++ second →
      (opened.run first).store.target? u = some none → s.target? u = some t → t = none) ∧
    (Along ReplacesByGlobal opened actions → ∀ v w, s.target? (.globalAlias v) = some (some w) →
      s.containsValue soleContext w = true ∧
        ∃ x, s.values.get? w = some x ∧ x.isGlobal = true) := by
  intro s
  have ht := tracked_run hok
  have hsole := sole_run sole_opened actions
  have hlive (u : User) (v : Ref .value) (hu : s.target? u = some (some v)) :
      s.containsValue soleContext v = true := by
    rw [hsole.containsValue]
    exact ht.live hu
  refine ⟨?_, hlive, ?_, ?_⟩
  · intro u t hu
    obtain ⟨before, v, after, hhistory, hfollow⟩ := ht.origin hu
    refine ⟨before, v, after, hhistory, fun w hw => ?_, hfollow⟩
    -- a second record of the user would be a repetition among the users made
    have hcons : (Record.used u v :: after).filterMap Record.user? =
        u :: after.filterMap Record.user? := rfl
    have honce := ht.once
    rw [hhistory, List.filterMap_append, hcons, List.nodup_append, List.nodup_cons] at honce
    obtain ⟨-, ⟨hafter, -⟩, hbefore⟩ := honce
    rcases List.mem_append.1 hw with hw | hw
    · exact hbefore u (List.mem_filterMap.2 ⟨_, hw, rfl⟩) u List.mem_cons_self rfl
    · exact hafter (List.mem_filterMap.2 ⟨_, hw, rfl⟩)
  · intro first second u t hactions hfirst hu
    have hlost : Lost (opened.run first).store u := by
      refine ⟨Store.known_of_target? hfirst, fun {t} ht => ?_⟩
      exact Option.some.inj (ht.symm.trans hfirst)
    have hend := lost_run (sole_run sole_opened first) hlost second
    rw [← run_append, ← hactions] at hend
    exact hend.2 hu
  · intro hglobals v w hv
    exact ⟨hlive _ w hv, aliasesGlobals_run hglobals v w hv⟩

/-- A variable gets an alias and a wrapper; another variable replaces it and is then deleted. -/
def replacedThenDeleted : List Action :=
  [.edit (.createModule "m"), .edit (.addGlobalVariable ⟨0⟩ "v"),
    .edit (.addGlobalVariable ⟨0⟩ "w"), .edit (.addGlobalAlias ⟨0⟩ "a" ⟨0⟩),
    .edit (.valueAsMetadata ⟨0⟩), .replaceAllUses ⟨0⟩ ⟨1⟩, .delete ⟨1⟩, .step]

/-- The alias and the wrapper have nothing in the end, as the record says, and before the deletion
the alias stands for a global. -/
theorem replacedThenDeleted_tracked :
    Along UsesLive opened replacedThenDeleted ∧
      Along ReplacesByGlobal opened (replacedThenDeleted.take 7) ∧
      (∃ before v after, opened.history replacedThenDeleted =
        before ++ .used (.globalAlias ⟨2⟩) v :: after ∧ none = follow (some v) after) ∧
      (∃ before v after, opened.history replacedThenDeleted =
        before ++ .used (.wrapper ⟨0⟩) v :: after ∧ none = follow (some v) after) ∧
      ∃ x, (opened.run (replacedThenDeleted.take 7)).store.values.get? ⟨1⟩ = some x ∧
        x.isGlobal = true := by
  have hok : Along UsesLive opened replacedThenDeleted :=
    ⟨trivial, trivial, trivial, trivial, rfl, rfl, trivial, trivial, trivial⟩
  have hfirst : Along UsesLive opened (replacedThenDeleted.take 7) :=
    ⟨trivial, trivial, trivial, trivial, rfl, rfl, trivial, trivial⟩
  have hglobals : Along ReplacesByGlobal opened (replacedThenDeleted.take 7) := by
    refine ⟨?_, ?_, ?_, ?_, ?_, ?_, ?_, trivial⟩ <;> intro old new x ha hx hglobal <;> cases ha
    exact ⟨_, rfl, rfl⟩
  obtain ⟨horigin, -⟩ := uses_tracked hok
  obtain ⟨before, v, after, hhistory, -, hfollow⟩ := horigin (.globalAlias ⟨2⟩) none rfl
  obtain ⟨before', v', after', hhistory', -, hfollow'⟩ := horigin (.wrapper ⟨0⟩) none rfl
  obtain ⟨-, -, -, haliases⟩ := uses_tracked hfirst
  exact ⟨hok, hglobals, ⟨before, v, after, hhistory, hfollow⟩,
    ⟨before', v', after', hhistory', hfollow'⟩, (haliases hglobals ⟨2⟩ ⟨1⟩ rfl).2⟩

end ForeignHandles.Host
