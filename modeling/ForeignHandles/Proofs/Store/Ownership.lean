import ForeignHandles.Proofs.Arena
import ForeignHandles.Proofs.Store.Rewire

/-!
  Globals and their modules.

  A global says which module it is in, and a module lists its globals.  `ListsGlobals` says that the
  lists are right: what is listed is there, of the right sort, and has the module as its parent.  No
  list has a value twice, and a value has one parent and one sort, so no value is on two lists.
  Every operation on the store keeps this.

  `Owns` says the converse as well: what has a parent is on its list there.  Most operations keep
  that, too.  The one that needs care is to retire a module: its lists have to be empty, or their
  values would be left with a parent that is gone.

  Both records of a belonging are written by hand in the program, in different places, so nothing
  but these invariants says that they agree. `ListsGlobals` is stated apart from `Owns` because it
  holds of every store whatever callers do, while `Owns` needs modules to be emptied before they are
  retired; whatever follows from the lists alone is then true without that condition.

  Taking a value off its list happens in two operations, when a variable is unlinked and when a
  value is released. `Withdraws` says what they have in common, and the work is done once for both.
-/
namespace ForeignHandles

namespace Store

/-- Everything that the modules list. -/
def listed (s : Store) : List (Ref .value) := s.modules.items.flatMap (fun p => p.2.linked)

/-- What modules list is what is on the list of some sort of some module. -/
theorem mem_listed_iff {s : Store} {v : Ref .value} :
    v ∈ s.listed ↔ ∃ m x k, s.modules.get? m = some x ∧ v ∈ x.listOf k := by
  simp only [listed, List.mem_flatMap, Module.mem_linked_iff]
  constructor
  · rintro ⟨p, hp, k, hk⟩
    exact ⟨p.1, p.2, k, (s.modules.mem_items_iff p.1 p.2).1 hp, hk⟩
  · rintro ⟨m, x, k, hm, hk⟩
    exact ⟨(m, x), (s.modules.mem_items_iff m x).2 hm, k, hk⟩

/-- What the modules list is there, of the sort of its list and with the module as its parent. -/
structure ListsGlobals (s : Store) : Prop where
  listed : ∀ {m x k v}, s.modules.get? m = some x → v ∈ x.listOf k →
    ∃ y, s.values.get? v = some y ∧ y.kind = k ∧ y.parent = some m
  once : ∀ {m x} (k : ValueKind), s.modules.get? m = some x → (x.listOf k).Nodup

/-- The lists of the modules and the parents of the values agree: what is listed has the module as
its parent, nothing is listed twice, and what has a parent is listed there under its sort. -/
structure Owns (s : Store) : Prop where
  listed : ∀ {m x k v}, s.modules.get? m = some x → v ∈ x.listOf k →
    ∃ y, s.values.get? v = some y ∧ y.kind = k ∧ y.parent = some m
  once : ∀ {m x} (k : ValueKind), s.modules.get? m = some x → (x.listOf k).Nodup
  /-- Whoever has a parent is on a list of it. -/
  parent : ∀ {v y m}, s.values.get? v = some y → y.parent = some m →
    ∃ x, s.modules.get? m = some x ∧ v ∈ x.listOf y.kind

variable {c : Ref .context} {s t : Store}

/-- From `s` to `t` a value is taken off all lists and left without a parent; other values keep
theirs. -/
structure Withdraws (s t : Store) (v : Ref .value) : Prop where
  /-- Modules stay, with the value off every list. -/
  lists : ∀ n, (t.modules.get? n).map (·.listOf) =
    (s.modules.get? n).map (fun x k => (x.listOf k).erase v)
  /-- Other values keep their sorts and their parents, whatever else becomes of them. -/
  values : ∀ w, w ≠ v → (t.values.get? w).map (fun y => (y.kind, y.parent)) =
    (s.values.get? w).map (fun y => (y.kind, y.parent))
  /-- The value itself may have gone; if it is there it has no parent. -/
  gone : ∀ {y}, t.values.get? v = some y → y.parent = none

/-- A module afterwards is one from before with the value off its lists. -/
theorem Withdraws.before {v : Ref .value} (h : Withdraws s t v) {n : Ref .module} {x : Module}
    (hn : t.modules.get? n = some x) :
    ∃ y, s.modules.get? n = some y ∧ x.listOf = fun k => (y.listOf k).erase v := by
  have hlists := h.lists n
  rw [hn] at hlists
  obtain ⟨y, hy, heq⟩ := Option.map_eq_some_iff.1 hlists.symm
  exact ⟨y, hy, heq.symm⟩

/-- The lists after a new global is adopted. -/
theorem map_listOf_adopt {kind : ValueKind} {list : Ref .value → Module → Module}
    (hlist : Extends kind list) (s : Store) (m : Ref .module) (d : Ref .context) (name : String)
    (body : ValueBody) (n : Ref .module) :
    ((s.adopt m d name body list).2.modules.get? n).map (·.listOf) =
      (s.modules.get? n).map (fun x k =>
        if n = m ∧ k = kind then x.listOf k ++ [(s.adopt m d name body list).1]
        else x.listOf k) := by
  rw [get?_modules_adopt]
  by_cases hn : n = m
  -- the module that adopts has one more entry, on one list
  · cases s.modules.get? n with
    | none => simp [hn]
    | some x =>
      simp only [if_pos hn, Option.map_some, Option.some.injEq]
      funext k
      simp [hlist.listOf, hn]
  · simp [hn]

section Adopt
variable {kind k : ValueKind} {list : Ref .value → Module → Module} {m n : Ref .module}
  {d : Ref .context} {name : String} {body : ValueBody} {x : Module} {w : Ref .value}

/-- A module after a new global is adopted is one from before, with the new global at the end of
one list if it is the module that adopts. -/
theorem listOf_of_adopt (hlist : Extends kind list)
    (hn : (s.adopt m d name body list).2.modules.get? n = some x) :
    ∃ y, s.modules.get? n = some y ∧ x.listOf = fun k =>
      if n = m ∧ k = kind then y.listOf k ++ [(s.adopt m d name body list).1] else y.listOf k := by
  have hlists := map_listOf_adopt hlist s m d name body n
  rw [hn] at hlists
  obtain ⟨y, hy, heq⟩ := Option.map_eq_some_iff.1 hlists.symm
  exact ⟨y, hy, heq.symm⟩

/-- What is listed after a new global is adopted is the new one, or it was listed before. -/
theorem listed_adopt (hlist : Extends kind list)
    (hn : (s.adopt m d name body list).2.modules.get? n = some x) (hw : w ∈ x.listOf k) :
    ∃ y, s.modules.get? n = some y ∧
      (w ∈ y.listOf k ∨ n = m ∧ k = kind ∧ w = (s.adopt m d name body list).1) := by
  obtain ⟨y, hy, heq⟩ := listOf_of_adopt hlist hn
  refine ⟨y, hy, ?_⟩
  rw [heq] at hw
  simp only at hw
  split at hw
  · rename_i hnk
    rcases List.mem_append.1 hw with hw | hw
    · exact .inl hw
    · exact .inr ⟨hnk.1, hnk.2, List.mem_singleton.1 hw⟩
  · exact .inl hw

end Adopt

/-- A variable is taken off the list of variables only, -/
theorem listOf_removeVariable (x : Module) (v : Ref .value) (k : ValueKind) :
    ({ x with globalVariables := x.globalVariables.erase v } : Module).listOf k =
      if k = .globalVariable then (x.listOf k).erase v else x.listOf k := by
  cases k <;> rfl

/-- a new module is there and the others are as they were, -/
theorem get?_modules_createModule (s : Store) (d : Ref .context) (name : String)
    (n : Ref .module) :
    (s.createModule d name).2.modules.get? n =
      if n = (s.createModule d name).1 then some { context := d, name, sourceFileName := name }
      else s.modules.get? n := Arena.get?_alloc ..

/-- and a module that is retired is gone. -/
theorem get?_modules_retireModule (s : Store) (m n : Ref .module) :
    (s.retireModule m).modules.get? n = if n = m then none else s.modules.get? n :=
  Arena.get?_erase ..

namespace ListsGlobals

/-- A value that is listed in two places is listed there once. -/
theorem unique (hs : s.ListsGlobals) {m n : Ref .module} {x z : Module} {k l : ValueKind}
    {v : Ref .value} (hm : s.modules.get? m = some x) (hn : s.modules.get? n = some z)
    (hk : v ∈ x.listOf k) (hl : v ∈ z.listOf l) : m = n ∧ k = l := by
  obtain ⟨y, hy, hkind, hparent⟩ := hs.listed hm hk
  -- a value has one parent and one sort
  obtain ⟨y', hy', hkind', hparent'⟩ := hs.listed hn hl
  obtain rfl : y = y' := by simpa [hy] using hy'
  exact ⟨Option.some.inj (hparent.symm.trans hparent'), hkind.symm.trans hkind'⟩

/-- A value that is not there is not listed. -/
theorem not_mem_of_none (hs : s.ListsGlobals) {m : Ref .module} {x : Module} {k : ValueKind}
    {v : Ref .value} (hm : s.modules.get? m = some x) (hv : s.values.get? v = none) :
    v ∉ x.listOf k := by
  intro hk
  obtain ⟨y, hy, -⟩ := hs.listed hm hk
  rw [hv] at hy
  cases hy

/-- The globals of one module occur once each. -/
theorem nodup_linked (hs : s.ListsGlobals) {m : Ref .module} {x : Module}
    (hm : s.modules.get? m = some x) : x.linked.Nodup := by
  have hvariables : x.globalVariables.Nodup := hs.once .globalVariable hm
  have haliases : x.aliases.Nodup := hs.once .globalAlias hm
  have hfunctions : x.functions.Nodup := hs.once .function hm
  have hdisjoint {k l : ValueKind} (hne : k ≠ l) :
      ∀ v ∈ x.listOf k, ∀ w ∈ x.listOf l, v ≠ w := by
    rintro v hv w hw rfl
    exact hne (hs.unique hm hm hv hw).2
  unfold Module.linked
  rw [List.nodup_append, List.nodup_append]
  -- the lists of two sorts have nothing in common
  refine ⟨⟨hvariables, haliases, ?_⟩, hfunctions, ?_⟩
  · exact hdisjoint (k := .globalVariable) (l := .globalAlias) (by simp)
  · intro v hv w hw
    rcases List.mem_append.1 hv with hv | hv
    · exact hdisjoint (k := .globalVariable) (l := .function) (by simp) v hv w hw
    · exact hdisjoint (k := .globalAlias) (l := .function) (by simp) v hv w hw

/-- What is listed after a value is taken off was listed before, and it is not that one. -/
theorem listed_withdraw (hs : s.ListsGlobals) {v : Ref .value} (h : Withdraws s t v)
    {n : Ref .module} {x : Module} (hn : t.modules.get? n = some x) {k : ValueKind}
    {w : Ref .value} (hw : w ∈ x.listOf k) :
    ∃ y, s.modules.get? n = some y ∧ w ∈ y.listOf k ∧ w ≠ v := by
  obtain ⟨y, hy, hlists⟩ := h.before hn
  rw [hlists] at hw
  exact ⟨y, hy, List.mem_of_mem_erase hw, ((hs.once k hy).mem_erase_iff.1 hw).1⟩

/-! ## Edits and lists

One lemma for each constructor of `Change`, and `change` for all of them. A value that was not
there is on no list; this is what keeps a list free of repetitions when a new global is put at its
end. -/

/-- What is listed keeps its links when free objects are made. -/
theorem grow (hs : s.ListsGlobals) (h : Grows c s t) : t.ListsGlobals where
  listed {m x k v} hm hv := by
    obtain ⟨z, hz, hlinks⟩ := h.module hm
    have hlist : x.listOf = z.listOf := (Module.links_eq_iff.1 hlinks).2
    obtain ⟨y, hy, hkind, hparent⟩ := hs.listed hz (hlist ▸ hv)
    -- what is listed is kept, with its sort and its parent
    obtain ⟨y', hy', hlinks'⟩ := h.kept hy
    obtain ⟨-, hkind', hparent', -⟩ := Value.links_eq_iff.1 hlinks'
    exact ⟨y', hy', hkind'.trans hkind, hparent'.trans hparent⟩
  once {m x} k hm := by
    obtain ⟨z, hz, hlinks⟩ := h.module hm
    rw [(Module.links_eq_iff.1 hlinks).2]
    exact hs.once k hz

/-- A new global is on its list and nowhere else. -/
theorem link (hs : s.ListsGlobals) {m : Ref .module} {d : Ref .context} {name : String}
    {body : ValueBody} {list : Ref .value → Module → Module} (hlist : Extends body.kind list) :
    (s.adopt m d name body list).2.ListsGlobals := by
  have hnone := get?_adopted s m d name body list
  have hvalues := get?_values_adopt s m d name body list
  refine ⟨fun {n x k w} hn hw => ?_, fun {n x} k hn => ?_⟩
  · obtain ⟨y, hy, hold | ⟨rfl, rfl, rfl⟩⟩ := listed_adopt hlist hn hw
    · obtain ⟨u, hu, hkind, hparent⟩ := hs.listed hy hold
      refine ⟨u, ?_, hkind, hparent⟩
      rw [hvalues, if_neg]
      · exact hu
      · rintro rfl
        rw [hnone] at hu
        cases hu
    · exact ⟨_, (hvalues _).trans (if_pos rfl), rfl, rfl⟩
  · obtain ⟨y, hy, heq⟩ := listOf_of_adopt hlist hn
    rw [heq]
    simp only
    split
    · rw [List.nodup_append]
      refine ⟨hs.once k hy, by simp, ?_⟩
      -- what is listed is there, and the new global was not
      rintro w hw w' hw' rfl
      obtain rfl := List.mem_singleton.1 hw'
      exact hs.not_mem_of_none hy hnone hw
    · exact hs.once k hy

/-- A value that is taken off all lists was on them once at most, and what else is listed stays as
it is. -/
theorem withdraw (hs : s.ListsGlobals) {v : Ref .value} (h : Withdraws s t v) :
    t.ListsGlobals where
  listed {n x k w} hn hw := by
    obtain ⟨y, hy, hmem, hne⟩ := hs.listed_withdraw h hn hw
    obtain ⟨u, hu, rfl, hparent⟩ := hs.listed hy hmem
    -- it is another value, so it is as it was
    have hvalues := h.values w hne
    rw [hu] at hvalues
    obtain ⟨u', hu', heq⟩ := Option.map_eq_some_iff.1 hvalues
    obtain ⟨hkind, hparent'⟩ := Prod.mk.inj heq
    exact ⟨u', hu', hkind, hparent'.trans hparent⟩
  once {n x} k hn := by
    obtain ⟨y, hy, hlists⟩ := h.before hn
    rw [hlists]
    exact (hs.once k hy).erase v

/-- A variable that is unlinked is taken off the one list that it is on. -/
theorem withdraws_unlink (hs : s.ListsGlobals) {m : Ref .module} {z : Module} {v : Ref .value}
    (hm : s.modules.get? m = some z) (hv : v ∈ z.globalVariables) :
    Withdraws s (s.removeGlobalVariable m v).2 v := by
  rw [removeGlobalVariable_eq hm hv]
  refine ⟨fun n => ?_, fun w hw => by simp [Arena.get?_modify, hw], fun {y} hy => ?_⟩
  · simp only [Arena.get?_modify]
    cases hn : s.modules.get? n with
    | none => simp
    | some x =>
      -- erasing does nothing to the lists that the variable is not on
      have hoff {k : ValueKind} (hk : n = m → k ≠ .globalVariable) : v ∉ x.listOf k := by
        intro hmem
        obtain ⟨hnm, hkind⟩ := hs.unique hn hm hmem (l := .globalVariable) hv
        exact hk hnm hkind
      split
      · simp only [Option.map_some, Option.some.injEq]
        funext k
        rw [listOf_removeVariable]
        split
        · rfl
        · rename_i hk
          exact (List.erase_of_not_mem (hoff fun _ => hk)).symm
      · rename_i hnm
        simp only [Option.map_some, Option.some.injEq]
        funext k
        exact (List.erase_of_not_mem (hoff fun heq => absurd heq hnm)).symm
  · simp only [Arena.get?_modify, if_true] at hy
    obtain ⟨x, -, rfl⟩ := Option.map_eq_some_iff.1 hy
    rfl

/-- A new module lists nothing. -/
theorem found (hs : s.ListsGlobals) (d : Ref .context) (name : String) :
    (s.createModule d name).2.ListsGlobals := by
  refine ⟨fun {n x k w} hn hw => ?_, fun {n x} k hn => ?_⟩
  · rw [get?_modules_createModule] at hn
    split at hn
    · cases hn
      cases k <;> cases hw
    · exact hs.listed hn hw
  · rw [get?_modules_createModule] at hn
    split at hn
    · cases hn
      cases k <;> exact List.nodup_nil
    · exact hs.once k hn

/-- Every edit keeps the lists right. -/
theorem change (hs : s.ListsGlobals) {home : Handle .module} {users : List (User × Ref .value)}
    (h : Change c s home users t) : t.ListsGlobals := by
  cases h with
  | grow hgrow => exact hs.grow hgrow
  | link hhome hgrow hm hlist husers => exact (hs.grow hgrow).link hlist
  | unlink hm hv => exact hs.withdraw (hs.withdraws_unlink hm hv)
  | found name => exact hs.found c name
  | wrap context v isLocal => exact ⟨hs.listed, hs.once⟩

/-! ## Rewiring, releasing and retiring, and lists

The operations that are no edits. None of them adds to a list. -/

/-- Redirecting an alias does not move it to another list or module. -/
theorem rewire (hs : s.ListsGlobals) (old : Ref .value) (new : Handle .value) :
    (s.rewire old new).ListsGlobals where
  listed hm hv := by
    obtain ⟨y, hy, hkind, hparent⟩ := hs.listed hm hv
    refine ⟨y.redirect old new, by rw [get?_values_rewire, hy]; rfl, ?_, ?_⟩
    · rw [Value.kind_redirect]
      exact hkind
    · rw [Value.parent_redirect]
      exact hparent
  once k hm := hs.once k hm

/-- A value that is released is taken off the list of its module, and it is on no other. -/
theorem withdraws_release (hs : s.ListsGlobals) (v : Ref .value) :
    Withdraws s (s.release v) v := by
  refine ⟨fun n => ?_, fun w hw => ?_, fun {y} hy => ?_⟩
  · rw [get?_modules_release]
    cases hn : s.modules.get? n with
    | none => simp
    | some x =>
      split
      · simp only [Option.map_some, Option.some.injEq]
        funext k
        exact Module.listOf_forget x v k
      · -- a module that is not the parent does not list the value
        rename_i hparent
        simp only [Option.map_some, Option.some.injEq]
        funext k
        refine (List.erase_of_not_mem fun hmem => hparent ?_).symm
        obtain ⟨y, hy, -, hy'⟩ := hs.listed hn hmem
        rw [hy]
        exact hy'
  · rw [get?_values_release, if_neg hw, Option.map_map]
    congr 1
    funext y
    exact Prod.ext (Value.kind_redirect ..) (Value.parent_redirect ..)
  · rw [get?_values_release, if_pos rfl] at hy
    cases hy

/-- A release is a withdrawal. -/
theorem release (hs : s.ListsGlobals) (v : Ref .value) : (s.release v).ListsGlobals :=
  hs.withdraw (hs.withdraws_release v)

/-- A module that goes takes its lists along, and the others are as they were. -/
theorem retire (hs : s.ListsGlobals) (m : Ref .module) : (s.retireModule m).ListsGlobals := by
  refine ⟨fun {n x k w} hn hw => ?_, fun {n x} k hn => ?_⟩
  · rw [get?_modules_retireModule] at hn
    split at hn
    · cases hn
    · exact hs.listed hn hw
  · rw [get?_modules_retireModule] at hn
    split at hn
    · cases hn
    · exact hs.once k hn

end ListsGlobals

namespace Owns

/-- The lists are right where they agree with the parents, -/
theorem lists (hs : s.Owns) : s.ListsGlobals := ⟨hs.listed, hs.once⟩

/-- and right lists agree with the parents if whoever has a parent is on a list of it. -/
theorem of_lists (hs : s.ListsGlobals)
    (hparent : ∀ {v y m}, s.values.get? v = some y → y.parent = some m →
      ∃ x, s.modules.get? m = some x ∧ v ∈ x.listOf y.kind) : s.Owns :=
  ⟨hs.listed, hs.once, hparent⟩

/-- No value is listed twice, in one module or in two. -/
theorem nodup_listed (hs : s.Owns) : s.listed.Nodup := by
  refine List.pairwise_flatMap.2 ⟨fun p hp => ?_, s.modules.ordered.imp_of_mem ?_⟩
  -- in one module,
  · exact hs.lists.nodup_linked ((s.modules.mem_items_iff p.1 p.2).1 hp)
  · -- a value on the lists of two modules would have two parents
    intro p q hp hq hlt v hv w hw hvw
    obtain ⟨k, hk⟩ := Module.mem_linked_iff.1 hv
    obtain ⟨l, hl⟩ := Module.mem_linked_iff.1 (hvw ▸ hw)
    have hpq := hs.lists.unique ((s.modules.mem_items_iff p.1 p.2).1 hp)
      ((s.modules.mem_items_iff q.1 q.2).1 hq) hk hl
    rw [hpq.1] at hlt
    exact Nat.lt_irrefl _ hlt

/-! ## Edits and parents

The same five ways for the converse: a value that has a parent is listed there. New values have no
parent unless they are linked, and then they are listed. -/

/-- New values are free, and the others have their parents and lists as before. -/
theorem grow (hs : s.Owns) (h : Grows c s t) : t.Owns := by
  refine of_lists (hs.lists.grow h) fun {v y m} hv hp => ?_
  cases hx : s.values.get? v with
  | none =>
    -- new values are free
    rw [(h.fresh hv hx).2.2.1] at hp
    cases hp
  | some x =>
    obtain ⟨y', hy', hlinks⟩ := h.kept hx
    obtain rfl : y = y' := by simpa [hv] using hy'
    obtain ⟨-, hkind, hparent, -⟩ := Value.links_eq_iff.1 hlinks
    obtain ⟨z, hz, hmem⟩ := hs.parent hx (hparent.symm.trans hp)
    -- the module is still there, with the same lists
    have hmodule := h.modules m
    rw [hz] at hmodule
    obtain ⟨z', hz', hlinks'⟩ := Option.map_eq_some_iff.1 hmodule
    refine ⟨z', hz', ?_⟩
    rw [(Module.links_eq_iff.1 hlinks').2, hkind]
    exact hmem

/-- A new global is listed in its module. -/
theorem link (hs : s.Owns) {m : Ref .module} {z : Module} {d : Ref .context} {name : String}
    {body : ValueBody} {list : Ref .value → Module → Module} (hm : s.modules.get? m = some z)
    (hlist : Extends body.kind list) : (s.adopt m d name body list).2.Owns := by
  -- the new global, or one that was there
  refine of_lists (hs.lists.link hlist) fun {w y n} hw hp => ?_
  have hlists := map_listOf_adopt hlist s m d name body
  have hvalues := get?_values_adopt s m d name body list
  -- a module from before is there with at most one entry more
  have hafter {n : Ref .module} {y : Module} (hn : s.modules.get? n = some y) :
      ∃ x, (s.adopt m d name body list).2.modules.get? n = some x ∧ x.listOf =
        fun k => if n = m ∧ k = body.kind then y.listOf k ++ [(s.adopt m d name body list).1]
          else y.listOf k := by
    have hlistn := hlists n
    rw [hn] at hlistn
    exact Option.map_eq_some_iff.1 hlistn
  rw [hvalues] at hw
  split at hw
  · rename_i hwv
    cases hw
    cases hp
    obtain ⟨x, hx, heq⟩ := hafter hm
    refine ⟨x, hx, ?_⟩
    rw [heq, hwv]
    simp [Value.kind]
  · obtain ⟨x, hx, hmem⟩ := hs.parent hw hp
    obtain ⟨x', hx', heq⟩ := hafter hx
    refine ⟨x', hx', ?_⟩
    rw [heq]
    simp only
    split
    · exact List.mem_append_left _ hmem
    · exact hmem

/-- Whoever keeps a parent stays on its list when another value is taken off. -/
theorem withdraw (hs : s.Owns) {v : Ref .value} (h : Withdraws s t v) : t.Owns := by
  refine of_lists (hs.lists.withdraw h) fun {w y n} hw hp => ?_
  -- the one that is taken off has no parent any more
  have hne : w ≠ v := by
    rintro rfl
    rw [h.gone hw] at hp
    cases hp
  have hvalues := h.values w hne
  rw [hw] at hvalues
  obtain ⟨u, hu, heq⟩ := Option.map_eq_some_iff.1 hvalues.symm
  obtain ⟨hkind, hparent⟩ := Prod.mk.inj heq
  obtain ⟨x, hx, hmem⟩ := hs.parent hu (hparent.trans hp)
  have hlists := h.lists n
  rw [hx] at hlists
  obtain ⟨x', hx', heq'⟩ := Option.map_eq_some_iff.1 hlists
  refine ⟨x', hx', ?_⟩
  rw [heq', ← hkind]
  exact (List.mem_erase_of_ne hne).2 hmem

/-- A new module is nobody's parent. -/
theorem found (hs : s.Owns) (d : Ref .context) (name : String) :
    (s.createModule d name).2.Owns := by
  refine of_lists (hs.lists.found d name) fun {w y n} hw hp => ?_
  -- the parent is a module from before, and the new one has another reference
  obtain ⟨x, hx, hmem⟩ := hs.parent (v := w) hw hp
  refine ⟨x, ?_, hmem⟩
  rw [get?_modules_createModule, if_neg]
  · exact hx
  · intro heq
    have hnone := s.modules.get?_alloc_fst { context := d, name, sourceFileName := name }
    rw [heq] at hx
    cases hnone.symm.trans hx

/-- Every edit keeps lists and parents in agreement. -/
theorem change (hs : s.Owns) {home : Handle .module} {users : List (User × Ref .value)}
    (h : Change c s home users t) : t.Owns := by
  cases h with
  | grow hgrow => exact hs.grow hgrow
  | link hhome hgrow hm hlist husers => exact (hs.grow hgrow).link hm hlist
  | unlink hm hv => exact hs.withdraw (hs.lists.withdraws_unlink hm hv)
  | found name => exact hs.found c name
  | wrap context v isLocal => exact ⟨hs.listed, hs.once, hs.parent⟩

/-! ## Rewiring, releasing and retiring, and parents

Here retiring is the one that has a condition. -/

/-- Redirecting an alias leaves it with its parent. -/
theorem rewire (hs : s.Owns) (old : Ref .value) (new : Handle .value) :
    (s.rewire old new).Owns := by
  refine of_lists (hs.lists.rewire old new) fun {v y m} hv hp => ?_
  rw [get?_values_rewire] at hv
  obtain ⟨y, hy, rfl⟩ := Option.map_eq_some_iff.1 hv
  rw [Value.parent_redirect] at hp
  rw [Value.kind_redirect]
  exact hs.parent hy hp

/-- A value that is released has no parent any more, because it is gone. -/
theorem release (hs : s.Owns) (v : Ref .value) : (s.release v).Owns :=
  hs.withdraw (hs.lists.withdraws_release v)

/-- A module may be retired once nothing is listed in it. -/
theorem retire (hs : s.Owns) {m : Ref .module}
    (hempty : ∀ {x k v}, s.modules.get? m = some x → v ∉ x.listOf k) :
    (s.retireModule m).Owns := by
  refine of_lists (hs.lists.retire m) fun {w y n} hw hp => ?_
  obtain ⟨x, hx, hmem⟩ := hs.parent (v := w) hw hp
  refine ⟨x, ?_, hmem⟩
  rw [get?_modules_retireModule, if_neg]
  · exact hx
  · rintro rfl
    exact hempty hx hmem

end Owns

/-! ## Who gets a parent

A value without a parent stays without one: there is no operation that gives a module a value that
is already there. Removing a variable from its module is therefore final, and it can be said of
runs that a variable that was unlinked is not deleted with its module. -/

/-- A value that was there at some time and has no parent now. -/
def Parentless (s : Store) (v : Ref .value) : Prop :=
  v.index < s.values.next ∧ ∀ {y}, s.values.get? v = some y → y.parent = none

/-- Whether an edit unlinks a variable: it takes it off the list of a module, or off that of the
module that the variable is in. -/
def Unlinks (s : Store) (v : Ref .value) : Edit → Prop
  | .removeGlobalVariable m w => w = v ∧ (s.removeGlobalVariable m v).1 = true
  | .unlinkVariable w => w = some v ∧ ∃ x, s.values.get? v = some x ∧ x.kind = .globalVariable
  | _ => False

/-- What is listed after an edit was listed before, unless the edit adds a global to the module. -/
theorem Change.listed_of {home : Handle .module} {users : List (User × Ref .value)}
    (h : Change c s home users t) (hs : s.ListsGlobals) {m : Ref .module} {x : Module}
    (hm : t.modules.get? m = some x) {k : ValueKind} {v : Ref .value} (hv : v ∈ x.listOf k) :
    home = some m ∨ ∃ y, s.modules.get? m = some y ∧ v ∈ y.listOf k := by
  have hgrown {u : Store} (hgrow : Grows c s u) (hm : u.modules.get? m = some x) :
      ∃ y, s.modules.get? m = some y ∧ v ∈ y.listOf k := by
    obtain ⟨y, hy, hlinks⟩ := hgrow.module hm
    exact ⟨y, hy, (Module.links_eq_iff.1 hlinks).2 ▸ hv⟩
  cases h with
  | grow hgrow => exact .inr (hgrown hgrow hm)
  | @link u n z name body list _ hhome hgrow hn hlist husers =>
    rw [get?_modules_adopt] at hm
    split at hm
    · rename_i hmn
      exact .inl (hmn ▸ hhome)
    · exact .inr (hgrown hgrow hm)
  | @unlink n z w hn hw =>
    -- a list that is shorter has nothing new
    obtain ⟨y, hy, hmem, -⟩ := hs.listed_withdraw (hs.withdraws_unlink hn hw) hm hv
    exact .inr ⟨y, hy, hmem⟩
  | found name =>
    simp only [createModule, Arena.get?_alloc] at hm
    split at hm
    · cases hm
      cases k <;> cases hv
    · exact .inr ⟨x, hm, hv⟩
  | wrap context w isLocal => exact .inr ⟨x, hm, hv⟩

/-- An edit gives a parent to a new value only. -/
theorem Change.parent_of {home : Handle .module} {users : List (User × Ref .value)}
    (h : Change c s home users t) {v : Ref .value} {y : Value} {m : Ref .module}
    (hv : t.values.get? v = some y) (hp : y.parent = some m) :
    s.values.next ≤ v.index ∨ ∃ x, s.values.get? v = some x ∧ x.parent = some m := by
  have hgrown {u : Store} (hgrow : Grows c s u) {y : Value} (hv : u.values.get? v = some y)
      (hp : y.parent = some m) :
      s.values.next ≤ v.index ∨ ∃ x, s.values.get? v = some x ∧ x.parent = some m := by
    cases hx : s.values.get? v with
    -- a new value has a reference beyond all from before
    | none => exact .inl (hgrow.fresh hv hx).1
    | some x =>
      obtain ⟨y', hy', hlinks⟩ := hgrow.kept hx
      obtain rfl : y = y' := by simpa [hv] using hy'
      exact .inr ⟨x, rfl, (Value.links_eq_iff.1 hlinks).2.2.1.symm.trans hp⟩
  cases h with
  | grow hgrow => exact hgrown hgrow hv hp
  | @link u n z name body list _ hhome hgrow hn hlist husers =>
    rw [get?_values_adopt] at hv
    split at hv
    · rename_i hnew
      rw [hnew]
      exact .inl hgrow.next
    · exact hgrown hgrow hv hp
  | @unlink n z w hn hw =>
    rw [removeGlobalVariable_eq hn hw] at hv
    simp only [Arena.get?_modify] at hv
    split at hv
    · obtain ⟨x, hx, rfl⟩ := Option.map_eq_some_iff.1 hv
      cases hp
    · exact .inr ⟨y, hv, hp⟩
  | found name => exact .inr ⟨y, hv, hp⟩
  | wrap context w isLocal => exact .inr ⟨y, hv, hp⟩

/-- Removing a variable from the module that lists it leaves it without a parent. -/
theorem parentless_removeGlobalVariable (hs : s.Owns) {m : Ref .module} {z : Module}
    {v : Ref .value} (hm : s.modules.get? m = some z) (hv : v ∈ z.globalVariables) :
    (s.removeGlobalVariable m v).2.Parentless v := by
  -- what is listed is there, so its reference has been given out
  have hlt : v.index < s.values.next := by
    obtain ⟨y, hy, -⟩ := hs.listed (k := .globalVariable) hm hv
    exact s.values.bounded _ ((s.values.mem_items_iff v y).2 hy)
  have hgone := hs.lists.withdraws_unlink hm hv
  rw [removeGlobalVariable_eq hm hv] at hgone ⊢
  exact ⟨hlt, hgone.gone⟩

/-- An unlinked variable has no parent any more. -/
theorem parentless_of_unlinks (hs : s.Owns) {v : Ref .value} {e : Edit} (h : s.Unlinks v e) :
    (s.edit c e).Parentless v := by
  cases e with
  | removeGlobalVariable m w =>
    obtain ⟨rfl, hsome⟩ := h
    cases hm : s.modules.get? m with
    | none => simp [removeGlobalVariable, hm] at hsome
    | some z =>
      have hv : w ∈ z.globalVariables := by
        refine Decidable.byContradiction fun hv => ?_
        simp [removeGlobalVariable, hm, hv] at hsome
      exact parentless_removeGlobalVariable hs hm hv
  | unlinkVariable w =>
    obtain ⟨rfl, x, hx, hkind⟩ := h
    cases hp : x.parent with
    | none =>
      -- it was unlinked before
      have hsame : s.edit c (.unlinkVariable (some v)) = s := by
        simp [edit, unlinkVariable, value?, hx, hp]
      rw [hsame]
      refine ⟨s.values.bounded _ ((s.values.mem_items_iff v x).2 hx), fun {y} hy => ?_⟩
      obtain rfl : x = y := by simpa [hx] using hy
      exact hp
    | some m =>
      obtain ⟨z, hm, hmem⟩ := hs.parent hx hp
      rw [hkind] at hmem
      -- to unlink it is to remove it from its module
      have hremoved : s.edit c (.unlinkVariable (some v)) = (s.removeGlobalVariable m v).2 := by
        simp [edit, unlinkVariable, value?, hx, hkind, hp]
      rw [hremoved]
      exact parentless_removeGlobalVariable hs hm hmem
  | _ => cases h

namespace Parentless

variable {v : Ref .value}

/-- No edit gives a parent to a value that is there, -/
theorem edit (hv : s.Parentless v) {home : Handle .module} {users : List (User × Ref .value)}
    (h : Change c s home users t) : t.Parentless v := by
  refine ⟨Nat.lt_of_lt_of_le hv.1 h.next, fun {y} hy => ?_⟩
  -- a parent now would be a parent before
  cases hp : y.parent with
  | none => rfl
  | some m =>
    rcases h.parent_of hy hp with hle | ⟨x, hx, hxp⟩
    · exact absurd hv.1 (Nat.not_lt.2 hle)
    · rw [hv.2 hx] at hxp
      cases hxp

/-- and neither does redirecting -/
theorem rewire (hv : s.Parentless v) (old : Ref .value) (new : Handle .value) :
    (s.rewire old new).Parentless v := by
  refine ⟨hv.1, fun {y} hy => ?_⟩
  rw [get?_values_rewire] at hy
  obtain ⟨x, hx, rfl⟩ := Option.map_eq_some_iff.1 hy
  rw [Value.parent_redirect]
  exact hv.2 hx

/-- or releasing. -/
theorem release (hv : s.Parentless v) (w : Ref .value) : (s.release w).Parentless v := by
  refine ⟨by rw [next_release]; exact hv.1, fun {y} hy => ?_⟩
  rw [get?_values_release] at hy
  split at hy
  · cases hy
  · obtain ⟨x, hx, rfl⟩ := Option.map_eq_some_iff.1 hy
    rw [Value.parent_redirect]
    exact hv.2 hx

/-- A value without a parent is on no list. -/
theorem not_mem_listed (hv : s.Parentless v) (hs : s.Owns) : v ∉ s.listed := by
  intro hmem
  obtain ⟨m, x, k, hm, hk⟩ := mem_listed_iff.1 hmem
  obtain ⟨y, hy, -, hparent⟩ := hs.listed hm hk
  rw [hv.2 hy] at hparent
  cases hparent

end Parentless

end Store

end ForeignHandles
