import Mathlib.Data.List.Perm.Subperm
import Mathlib.Data.List.TakeWhile
import ForeignHandles.Proofs.Store.Ownership

/-!
  Walking over the aliases of a module.

  A caller starts at the first alias of a module and asks for the next one until there is none.  The
  next alias is looked up from scratch each time: in the list of the parent that the alias has, behind
  the place where it stands.  So the walk depends on the parent of every alias on the way, and on each
  of them standing in one place.  Both are in `ListsGlobals`, and with it the walk is the list of the
  module (`walksAliases`).

  What that list is over time is a matter of the operations: aliases are added at its end and taken
  off it when they are released, so it has those of all that were made which are still there
  (`TracksAliases`).
-/
namespace ForeignHandles.Store

variable {c : Ref .context} {s t : Store} {m : Ref .module} {x : Module} {v : Ref .value}

/-! ## The walk

The walk is a relation, so that it need not be shown to end before one can speak of it;
`WalksAliases.unique` makes it a function, and the bound on the steps of `aliasWalk` is met
because a module lists no more aliases than there are values. -/

/-- A caller who starts at a handle and asks for the next alias until there is none meets these. -/
inductive WalksAliases (s : Store) : Handle .value → List (Ref .value) → Prop where
  | ended : WalksAliases s none []
  | meet {v : Ref .value} {vs : List (Ref .value)} (h : WalksAliases s (s.nextAlias (some v)) vs) :
    WalksAliases s (some v) (v :: vs)

/-- There is one walk from a handle. -/
theorem WalksAliases.unique {h : Handle .value} {vs ws : List (Ref .value)}
    (hvs : s.WalksAliases h vs) (hws : s.WalksAliases h ws) : vs = ws := by
  induction hvs generalizing ws with
  | ended =>
    cases hws
    rfl
  | meet h ih =>
    cases hws with
    | meet h' => rw [ih h']

/-- The aliases that are met in so many steps, if these are enough for all. -/
theorem WalksAliases.aliasesFrom_eq {h : Handle .value} {vs : List (Ref .value)}
    (hwalk : s.WalksAliases h vs) {steps : Nat} (hsteps : vs.length ≤ steps) :
    s.aliasesFrom steps h = vs := by
  induction hwalk generalizing steps with
  | ended => cases steps <;> rfl
  | meet h ih =>
    cases steps with
    | zero => cases hsteps
    | succ steps => rw [aliasesFrom, ih (Nat.le_of_succ_le_succ hsteps)]

/-- Behind an alias comes what is behind it in the list, at the first place where it stands, -/
theorem aliasAfter_of_split {before after : List (Ref .value)}
    (haliases : x.aliases = before ++ v :: after) (hv : v ∉ before) :
    x.aliasAfter v = after.head? := by
  -- going through the list, everything before the alias is passed over
  have hdrop : x.aliases.dropWhile (· ≠ v) = v :: after := by
    rw [haliases, List.dropWhile_append_of_pos]
    · exact List.dropWhile_cons_of_neg (by simp)
    · intro w hw
      have hne : w ≠ v := fun heq => hv (heq ▸ hw)
      exact decide_eq_true hne
  rw [Module.aliasAfter, hdrop]

/-- and behind anything else comes nothing. -/
theorem aliasAfter_of_not_mem (hv : v ∉ x.aliases) : x.aliasAfter v = none := by
  have hdrop : x.aliases.dropWhile (· ≠ v) = [] := by
    refine List.dropWhile_eq_nil_iff.2 fun w hw => ?_
    have hne : w ≠ v := fun heq => hv (heq ▸ hw)
    exact decide_eq_true hne
  rw [Module.aliasAfter, hdrop]

namespace ListsGlobals

/-- The next alias of one that is listed is looked up in the list that it is on. -/
theorem nextAlias_of_mem (hs : s.ListsGlobals) (hm : s.modules.get? m = some x)
    (hv : v ∈ x.aliases) : s.nextAlias (some v) = x.aliasAfter v := by
  obtain ⟨y, hy, -, hparent⟩ := hs.listed (k := .globalAlias) hm hv
  simp [nextAlias, aliasAfter, hy, hparent, hm]

/-- From any alias on, the walk meets the rest of the list. -/
theorem walksAliases_from (hs : s.ListsGlobals) (hm : s.modules.get? m = some x)
    {before after : List (Ref .value)} (haliases : x.aliases = before ++ after) :
    s.WalksAliases after.head? after := by
  induction after generalizing before with
  | nil => exact .ended
  | cons v after ih =>
    have hnodup : (before ++ v :: after).Nodup := haliases ▸ hs.once .globalAlias hm
    -- no alias is on the list twice, so this is the first place
    have hv : v ∉ before := fun hmem =>
      (List.nodup_append.1 hnodup).2.2 v hmem v List.mem_cons_self rfl
    have hmem : v ∈ x.aliases := by simp [haliases]
    have hnext : s.nextAlias (some v) = after.head? :=
      (hs.nextAlias_of_mem hm hmem).trans (aliasAfter_of_split haliases hv)
    refine .meet ?_
    rw [hnext]
    have hrest : x.aliases = (before ++ [v]) ++ after := by simpa using haliases
    exact ih hrest

/-- The walk over a module meets its list. -/
theorem walksAliases (hs : s.ListsGlobals) (hm : s.modules.get? m = some x) :
    s.WalksAliases (s.firstAlias (some m)) x.aliases := by
  have hfirst : s.firstAlias (some m) = x.aliases.head? := by
    simp [firstAlias, module?, hm]
  rw [hfirst]
  have hall : x.aliases = [] ++ x.aliases := rfl
  exact hs.walksAliases_from hm hall

/-- There is a step for every value, and that is enough. -/
theorem aliasWalk_eq (hs : s.ListsGlobals) (hm : s.modules.get? m = some x) :
    s.aliasWalk (some m) = x.aliases := by
  refine (hs.walksAliases hm).aliasesFrom_eq ?_
  -- every alias of the module is a value that is there, and is counted once
  have hsub : x.aliases ⊆ s.values.refs := by
    intro v hv
    obtain ⟨y, hy, -⟩ := hs.listed (k := .globalAlias) hm hv
    exact (s.values.mem_refs_iff v).2 (Option.isSome_iff_exists.2 ⟨y, hy⟩)
  have hnodup : x.aliases.Nodup := hs.once .globalAlias hm
  simpa [Arena.refs, Arena.size] using (hnodup.subperm hsub).length_le

/-- Nothing comes after what is no alias. -/
theorem nextAlias_of_no_alias (hs : s.ListsGlobals) {h : Handle .value}
    (hno : ∀ y, s.value? h = some y → y.kind ≠ .globalAlias) : s.nextAlias h = none := by
  cases h with
  | none => rfl
  | some v =>
    cases hy : s.values.get? v with
    | none => simp [nextAlias, hy]
    | some y =>
      cases hp : y.parent with
      | none => simp [nextAlias, hy, hp]
      | some m =>
        cases hm : s.modules.get? m with
        | none => simp [nextAlias, aliasAfter, hy, hp, hm]
        | some x =>
          -- only aliases are listed with the aliases
          have hnot : v ∉ x.aliases := by
            intro hmem
            obtain ⟨z, hz, hkind, -⟩ := hs.listed (k := .globalAlias) hm hmem
            obtain rfl : y = z := by simpa [hy] using hz
            exact hno y hy hkind
          simp [nextAlias, aliasAfter, hy, hp, hm, aliasAfter_of_not_mem hnot]

end ListsGlobals

/-! ## The list over time

The list of a module changes in two ways only. Rather than follow it, the invariant keeps all
aliases that were ever made in the module and says that the list has those of them which are
there; since references are not used again, nothing comes back. -/

/-- The aliases of a module, while there is one, are those of all that were made in it which are
still there.  References of aliases are not used again, nor are those of modules. -/
structure TracksAliases (m : Ref .module) (made : List (Ref .value)) (s : Store) : Prop where
  /-- What was made is known. -/
  issued : ∀ v ∈ made, v.index < s.values.next
  /-- Before the module is made, nothing is made in it. -/
  unborn : s.modules.next ≤ m.index → made = []
  listed : ∀ {x}, s.modules.get? m = some x → x.aliases = made.filter s.values.contains

/-- The alias that is among new users, if there is one. -/
def User.madeAlias : User × Ref .value → Option (Ref .value)
  | (.globalAlias v, _) => some v
  | (.wrapper _, _) => none

/-- No edit brings back what is gone. -/
theorem Change.contains_of_lt {home : Handle .module} {users : List (User × Ref .value)}
    (h : Change c s home users t) (hv : v.index < s.values.next) :
    t.values.contains v = s.values.contains v := by
  cases hx : s.values.get? v with
  | some x =>
    have hthere : s.values.contains v = true := Option.isSome_iff_exists.2 ⟨x, hx⟩
    rw [hthere, h.contains hthere]
  | none =>
    cases hy : t.values.get? v with
    | none => simp [Arena.contains, hx, hy]
    | some y =>
      -- it would be new, and new references are beyond this one
      have hle := (h.fresh hy hx).1
      omega

namespace TracksAliases

variable {made : List (Ref .value)}

/-- What was made stays as it is, and so does the list of the module, or the module is new. -/
theorem keep (h : TracksAliases m made s) (hnext : s.values.next ≤ t.values.next)
    (hmodule : s.modules.next ≤ t.modules.next)
    (hsame : ∀ v, v.index < s.values.next → t.values.contains v = s.values.contains v)
    (hlists : ∀ {x}, t.modules.get? m = some x →
      (∃ y, s.modules.get? m = some y ∧ x.aliases = y.aliases) ∨
        s.modules.next ≤ m.index ∧ x.aliases = []) : TracksAliases m made t where
  issued v hv := Nat.lt_of_lt_of_le (h.issued v hv) hnext
  unborn hle := h.unborn (Nat.le_trans hmodule hle)
  listed {x} hm := by
    rcases hlists hm with ⟨y, hy, heq⟩ | ⟨hle, heq⟩
    · rw [heq, h.listed hy]
      exact List.filter_congr fun v hv => (hsame v (h.issued v hv)).symm
    -- a module that is new has nothing yet
    · rw [heq, h.unborn hle, List.filter_nil]

/-- Free objects are no aliases. -/
theorem grow (h : TracksAliases m made s) (hgrow : Grows c s t) : TracksAliases m made t := by
  have hchange : Change c s none [] t := .grow hgrow
  refine h.keep hchange.next hchange.nextModule (fun v => hchange.contains_of_lt) fun {x} hm => ?_
  obtain ⟨y, hy, hlinks⟩ := hgrow.module hm
  exact .inl ⟨y, hy, congrFun (Module.links_eq_iff.1 hlinks).2 .globalAlias⟩

/-- A new global is there, and the others are as before. -/
theorem contains_adopt (s : Store) (n : Ref .module) (d : Ref .context) (name : String)
    (body : ValueBody) (list : Ref .value → Module → Module) (v : Ref .value) :
    (s.adopt n d name body list).2.values.contains v =
      (v = (s.adopt n d name body list).1 || s.values.contains v) := by
  rw [Arena.contains, get?_values_adopt]
  by_cases hv : v = (s.adopt n d name body list).1 <;> simp [hv, Arena.contains]

/-- A new global that is no alias, or one of another module. -/
theorem adopt_other (h : TracksAliases m made s) {n : Ref .module} {d : Ref .context}
    {name : String} {body : ValueBody} {list : Ref .value → Module → Module}
    (hlist : Extends body.kind list) (hother : ¬ (m = n ∧ body.kind = .globalAlias)) :
    TracksAliases m made (s.adopt n d name body list).2 := by
  refine h.keep (Nat.le_succ _) (Nat.le_refl _) (fun v hv => ?_) fun {x} hm => ?_
  -- what was known is not what is made
  · have hne : v ≠ (s.adopt n d name body list).1 := by
      rintro rfl
      exact Nat.lt_irrefl _ hv
    simp [contains_adopt, hne]
  · obtain ⟨y, hy, hlists⟩ := listOf_of_adopt hlist hm
    refine .inl ⟨y, hy, (congrFun hlists .globalAlias).trans (if_neg ?_)⟩
    rintro ⟨hmn, hkind⟩
    exact hother ⟨hmn, hkind.symm⟩

/-- A new alias of the module is the last one. -/
theorem adopt_alias (h : TracksAliases m made s) (hm : s.modules.get? m = some x)
    {d : Ref .context} {name : String} {body : ValueBody} {list : Ref .value → Module → Module}
    (hlist : Extends body.kind list) (hkind : body.kind = .globalAlias) :
    TracksAliases m (made ++ [(s.adopt m d name body list).1]) (s.adopt m d name body list).2 where
  issued v hv := by
    rcases List.mem_append.1 hv with hv | hv
    · exact Nat.lt_succ_of_lt (h.issued v hv)
    · rw [List.mem_singleton.1 hv]
      exact Nat.lt_succ_self _
  unborn hle := absurd (Arena.index_lt_next_of_get? hm) (Nat.not_lt.2 hle)
  listed {y} hy := by
    obtain ⟨z, hz, hlists⟩ := listOf_of_adopt hlist hy
    have haliases : y.aliases = z.aliases ++ [(s.adopt m d name body list).1] :=
      (congrFun hlists .globalAlias).trans (if_pos ⟨rfl, hkind.symm⟩)
    -- those that were made before are there or not as they were
    have hold : made.filter (s.adopt m d name body list).2.values.contains =
        made.filter s.values.contains := by
      refine List.filter_congr fun v hv => ?_
      have hne : v ≠ (s.adopt m d name body list).1 := by
        rintro rfl
        exact Nat.lt_irrefl _ (h.issued _ hv)
      simp [contains_adopt, hne]
    rw [haliases, h.listed hz, List.filter_append, hold]
    simp [contains_adopt]

/-- What an edit makes in the module comes after all that was made before. Of the five ways two
concern aliases at all: a link may add one, and a new module has none. -/
theorem change (h : TracksAliases m made s) {home : Handle .module}
    {users : List (User × Ref .value)} (hchange : Change c s home users t) :
    TracksAliases m
      (made ++ if home = some m then users.filterMap User.madeAlias else []) t := by
  -- without a new alias nothing is added
  have hnone (hno : users.filterMap User.madeAlias = []) (ht : TracksAliases m made t) :
      TracksAliases m
        (made ++ if home = some m then users.filterMap User.madeAlias else []) t := by
    rw [hno, ite_self, List.append_nil]
    exact ht
  -- in whichever way the edit goes, what was made is there or not as it was
  have hkeep := h.keep hchange.next hchange.nextModule (fun v => hchange.contains_of_lt)
  cases hchange with
  | grow hgrow => exact hnone rfl (h.grow hgrow)
  | @link u n z name body list users hhome hgrow hn hlist husers =>
    have hu := h.grow hgrow
    subst hhome
    by_cases hnm : n = m
    · subst hnm
      rw [if_pos rfl]
      cases husers with
      | globalAlias ha hglobal => exact hu.adopt_alias hn hlist rfl
      | other hbody hkind =>
        rw [List.filterMap_nil, List.append_nil]
        exact hu.adopt_other hlist fun hboth => hkind hboth.2
    · have hne : ¬ (some n : Handle .module) = some m := fun heq => hnm (Option.some.inj heq)
      rw [if_neg hne, List.append_nil]
      exact hu.adopt_other hlist fun hboth => hnm hboth.1.symm
  | @unlink n z w hn hw =>
    refine hnone rfl (hkeep fun {x} hm => ?_)
    rw [removeGlobalVariable_eq hn hw] at hm
    -- a variable is taken off another list than that of the aliases
    obtain ⟨y, hy, rfl⟩ := Arena.get?_modify_eq_some_iff.1 hm
    refine .inl ⟨y, hy, ?_⟩
    split <;> rfl
  | found name =>
    refine hnone rfl (hkeep fun {x} hm => ?_)
    rw [get?_modules_createModule] at hm
    split at hm
    · rename_i hnew
      cases hm
      exact .inr ⟨Nat.le_of_eq (congrArg Ref.index hnew.symm), rfl⟩
    · exact .inl ⟨x, hm, rfl⟩
  | wrap context w isLocal => exact hnone rfl (hkeep fun {x} hm => .inl ⟨x, hm, rfl⟩)

/-- A value that is released leaves the aliases, if it was one of them. -/
theorem release (h : TracksAliases m made s) (hs : s.ListsGlobals) (v : Ref .value) :
    TracksAliases m made (s.release v) where
  issued w hw := by
    rw [next_release]
    exact h.issued w hw
  unborn hle := h.unborn (by rwa [next_modules_release] at hle)
  listed {x} hm := by
    obtain ⟨y, hy, hlists⟩ := (hs.withdraws_release v).before hm
    have haliases : x.aliases = y.aliases.erase v := congrFun hlists .globalAlias
    have hnodup : y.aliases.Nodup := hs.once .globalAlias hy
    -- it was listed once at the most, so taking it off is leaving it out
    rw [haliases, hnodup.erase_eq_filter, h.listed hy, List.filter_filter]
    refine List.filter_congr fun w _ => ?_
    rw [contains_release, bne, Bool.beq_eq_decide_eq, decide_not]

/-- Redirecting an alias leaves it in its place, -/
theorem rewire (h : TracksAliases m made s) (old : Ref .value) (new : Handle .value) :
    TracksAliases m made (s.rewire old new) := by
  refine h.keep (Nat.le_refl _) (Nat.le_refl _) (fun v _ => contains_rewire s old new v)
    fun {x} hm => .inl ⟨x, hm, rfl⟩

/-- and retiring another module does not matter. -/
theorem retire (h : TracksAliases m made s) (n : Ref .module) :
    TracksAliases m made (s.retireModule n) := by
  refine h.keep (Nat.le_refl _) (Nat.le_refl _) (fun _ _ => rfl) fun {x} hm => ?_
  rw [get?_modules_retireModule] at hm
  split at hm
  · cases hm
  · exact .inl ⟨x, hm, rfl⟩

end TracksAliases

end ForeignHandles.Store
