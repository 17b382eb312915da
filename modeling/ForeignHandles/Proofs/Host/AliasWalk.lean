import ForeignHandles.Proofs.Host.Ownership
import ForeignHandles.Proofs.Store.AliasWalk

/-!
  The walk over the aliases of a module is complete, over every run of a host.

  What a walk should meet is said by the run and not by the lists: of the aliases that were made in
  the module, in the order in which they were made (`aliasesMade`), those that are still there.  That
  the list of the module is just that is an invariant of all actions, whatever else is deleted,
  unlinked or redirected meanwhile and whatever consumers do in between.
-/
namespace ForeignHandles.Host

/-- The alias that an action makes in a module, if it makes one. -/
def aliasesMade (m : Ref .module) (h : Host) : Action → List (Ref .value)
  | .edit (.addGlobalAlias n name aliasee) =>
    if n = m then (h.store.addGlobalAlias m name aliasee).1.toOption.toList else []
  | _ => []

/-- The new alias is the new user. -/
theorem aliasesMade_edit (m : Ref .module) (h : Host) (e : Edit) :
    aliasesMade m h (.edit e) =
      if e.addsTo? = some m then
        (h.store.uses soleContext e).filterMap Store.User.madeAlias
      else [] := by
  cases e with
  | addGlobalAlias n name aliasee =>
    simp only [aliasesMade, Edit.addsTo?, Option.some.injEq]
    -- an alias of another module is none of this one's
    split
    · rename_i hn
      subst hn
      simp only [Store.uses]
      cases (h.store.addGlobalAlias n name aliasee).1 <;> rfl
    · rfl
  | addGlobalVariable n name => exact (ite_self _).symm
  | addFunction n name count => exact (ite_self _).symm
  | _ => rfl

/-- Nothing but an edit makes aliases. -/
theorem aliasesMade_of_ne {m : Ref .module} {h : Host} {a : Action} (ha : ∀ e, a ≠ .edit e) :
    aliasesMade m h a = [] := by
  cases a with
  | edit e => exact absurd rfl (ha e)
  | _ => rfl

/-- The list of a module has the aliases that were made in it and are still there, in the order in
which they were made: the induction over a run, with an edit as the one step that makes any. -/
theorem tracksAliases_run (m : Ref .module) (actions : List Action) :
    (opened.run actions).store.TracksAliases m (opened.gather (aliasesMade m) actions) := by
  have hany : Along (fun _ _ => True) opened actions :=
    along_of_forall (fun _ _ => trivial) opened actions
  have hstart : opened.store.TracksAliases m [] := by
    refine ⟨fun v hv => ?_, fun _ => rfl, fun {x} hm => ?_⟩
    · cases hv
    · cases hm
  have hrun : (opened.run actions).store.ListsGlobals ∧
      (opened.run actions).store.TracksAliases m ([] ++ opened.gather (aliasesMade m) actions) := by
    refine gather_invariant (P := fun h made => h.store.ListsGlobals ∧ h.store.TracksAliases m made)
      ?_ sole_opened hany ⟨lists_opened, hstart⟩
    rintro h made a hs - ⟨hlists, htracks⟩
    by_cases ha : ∃ e, a = .edit e
    · obtain ⟨e, rfl⟩ := ha
      -- an edit is one change, which makes the aliases it notes as users
      have hchange := Store.change_edit (fun n x hn => hs.modules hn) e
      rw [aliasesMade_edit]
      exact ⟨hlists.change hchange, htracks.change hchange⟩
    · have hne : ∀ e, a ≠ .edit e := fun e he => ha ⟨e, he⟩
      rw [aliasesMade_of_ne hne, List.append_nil]
      exact store_act (P := fun s => s.ListsGlobals ∧ s.TracksAliases m made)
        (fun _ _ h => ⟨h.1.rewire _ _, h.2.rewire _ _⟩) (fun _ h => ⟨h.1.release _, h.2.release h.1 _⟩)
        (fun _ _ h => ⟨h.1.retire _, h.2.retire _⟩) hs hne ⟨hlists, htracks⟩
  exact hrun.2

/-- **The walk over the aliases of a module is complete**, in every state that a run reaches.

A caller who starts at the first alias of a module that is there and asks for the next one until
there is none comes to an end, and has met those of the aliases that were made in the module which
are still there, each once and in the order in which they were made.  The list of these that the
library makes in bounded steps is the same.  After what is no alias there is no next one. -/
theorem alias_walk_is_complete (actions : List Action) :
    let s := (opened.run actions).store
    (∀ m x, s.modules.get? m = some x →
      let alive := (opened.gather (aliasesMade m) actions).filter s.values.contains
      alive.Nodup ∧ (∀ vs, s.WalksAliases (s.firstAlias (some m)) vs ↔ vs = alive) ∧
        s.aliasWalk (some m) = alive) ∧
    ∀ h, (∀ y, s.value? h = some y → y.kind ≠ .globalAlias) → s.nextAlias h = none := by
  intro s
  have hlists : s.ListsGlobals := lists_run actions
  refine ⟨fun m x hm => ?_, fun h hno => hlists.nextAlias_of_no_alias hno⟩
  intro alive
  have hlisted : x.aliases = alive := (tracksAliases_run m actions).listed hm
  have hwalk : s.WalksAliases (s.firstAlias (some m)) alive := hlisted ▸ hlists.walksAliases hm
  refine ⟨hlisted ▸ hlists.once .globalAlias hm, fun vs => ⟨fun h => h.unique hwalk, ?_⟩,
    (hlists.aliasWalk_eq hm).trans hlisted⟩
  rintro rfl
  exact hwalk

/-- Of three aliases, the second takes the place of their aliasee and is deleted; then the aliasee
begins to go, too. -/
def aliasesRetargeted : List Action :=
  [.edit (.createModule "m"), .edit (.addGlobalVariable ⟨0⟩ "g"),
    .edit (.addGlobalAlias ⟨0⟩ "a" ⟨0⟩), .edit (.addGlobalAlias ⟨0⟩ "b" ⟨0⟩),
    .edit (.addGlobalAlias ⟨0⟩ "c" ⟨2⟩), .replaceAllUses ⟨0⟩ ⟨2⟩, .delete ⟨2⟩, .step, .delete ⟨0⟩]

/-- Then the first and the third alias are met, and nothing comes after the variable. -/
theorem aliasesRetargeted_walk :
    let s := (opened.run aliasesRetargeted).store
    s.WalksAliases (s.firstAlias (some ⟨0⟩)) [⟨1⟩, ⟨3⟩] ∧ s.nextAlias (some ⟨0⟩) = none := by
  intro s
  obtain ⟨hwalk, hnext⟩ := alias_walk_is_complete aliasesRetargeted
  refine ⟨((hwalk ⟨0⟩ _ rfl).2.1 [⟨1⟩, ⟨3⟩]).2 rfl, hnext (some ⟨0⟩) fun y hy => ?_⟩
  cases hy
  decide

end ForeignHandles.Host
