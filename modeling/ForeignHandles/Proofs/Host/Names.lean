import ForeignHandles.Proofs.Host.Ownership
import ForeignHandles.Proofs.Store.Names

/-!
  The names of linked globals, over every run of a host.

  An addition looks at the names that are linked at that moment, and these change: variables are
  unlinked, values are deleted, modules are disposed of, values are renamed.  As long as no renaming
  gives a value the name of another one in its module (`RenamesApart`), each module is a namespace
  for its globals in every state of a run.
-/
namespace ForeignHandles.Host

/-- No value gets the name of another value that is linked in its module. -/
def RenamesApart (h : Host) (a : Action) : Prop :=
  ∀ e, a = .edit e → h.store.RenamesApart e

/-- Only a renaming can fail to be apart. -/
theorem renamesApart_of_ne {h : Host} {a : Action}
    (ha : ∀ v name, a ≠ .edit (.setValueName v name)) : RenamesApart h a := by
  rintro e rfl v name m x rfl
  exact absurd rfl (ha v name)

/-- Linked globals have different names in every state of a run without clashing renamings. -/
theorem namesApart_run {actions : List Action} (hok : Along RenamesApart opened actions) :
    (opened.run actions).store.ListsGlobals ∧ (opened.run actions).store.NamesApart := by
  have hstart : opened.store.NamesApart := by
    intro m x v w hm
    cases hm
  refine store_run_along (P := fun s => s.ListsGlobals ∧ s.NamesApart) ?_ ?_ ?_ ?_ sole_opened hok
    ⟨lists_opened, hstart⟩
  · rintro h e hs hrename ⟨hlists, hnames⟩
    have hcontext : ∀ m x, h.store.modules.get? m = some x → x.context = soleContext :=
      fun m x hm => hs.modules hm
    exact ⟨hlists.change (Store.change_edit hcontext e), hnames.edit hlists hcontext (hrename e rfl)⟩
  · rintro s old new ⟨hlists, hnames⟩
    exact ⟨hlists.rewire _ _, hnames.keep (.rewire _ _ _)⟩
  · rintro s v ⟨hlists, hnames⟩
    exact ⟨hlists.release v, hnames.keep (.release hlists v)⟩
  · rintro s m ⟨hlists, hnames⟩
    exact ⟨hlists.retire m, hnames.keep (.retire _ m)⟩

/-- **A module is a namespace for its globals**, in every state that a run reaches in which no
renaming gives a value the name of another one in its module.

The values that are linked in the module have different names.  So what the three look-ups find
under a name is the one linked value that has it, if there is one.  A variable or a function is
declined exactly if the name is taken, and an alias if its aliasee is no global or, failing that,
under the same condition.  Whatever is declined has changed nothing.

Names are looked at when a value is linked, and not when it is renamed; hence the condition on the
run.  A value that is in no module may be given any name. -/
theorem modules_are_namespaces {actions : List Action} (hok : Along RenamesApart opened actions)
    {m : Ref .module} {x : Module} (hm : (opened.run actions).store.modules.get? m = some x) :
    (opened.run actions).store.GlobalNamespace m x := by
  obtain ⟨hlists, hnames⟩ := namesApart_run hok
  exact hnames.globalNamespace hlists hm

/-- A variable is renamed, its old name is given to a function, and it is unlinked; then an alias
takes the new name. -/
def namesPassedOn : List Action :=
  [.edit (.createModule "m"), .edit (.addGlobalVariable ⟨0⟩ "g"), .edit (.setValueName ⟨0⟩ "h"),
    .edit (.addFunction ⟨0⟩ "g" 2), .edit (.unlinkVariable (some ⟨0⟩)),
    .edit (.addGlobalAlias ⟨0⟩ "h" ⟨3⟩)]

/-- Then both names are taken, and a function that is declined leaves no arguments behind. -/
theorem namesPassedOn_is_namespace :
    let s := (opened.run namesPassedOn).store
    Along RenamesApart opened namesPassedOn ∧
      s.globalsNamed ⟨0⟩ "g" = [⟨3⟩] ∧ s.globalsNamed ⟨0⟩ "h" = [⟨4⟩] ∧
      s.addFunction ⟨0⟩ "h" 2 = (.error (.duplicateGlobal "h"), s) ∧
      s.addGlobalAlias ⟨0⟩ "k" ⟨1⟩ = (.error (.invalidAliasee "k"), s) := by
  intro s
  have hok : Along RenamesApart opened namesPassedOn := by
    refine ⟨renamesApart_of_ne (by simp), renamesApart_of_ne (by simp), ?_,
      renamesApart_of_ne (by simp), renamesApart_of_ne (by simp), renamesApart_of_ne (by simp),
      trivial⟩
    -- the renamed variable is the only one there
    rintro e he v name m x rfl hm hv w hw hne
    cases he
    have hx : (m, x) = (⟨0⟩, _) := List.mem_singleton.1 ((Arena.mem_items_iff _ m x).2 hm)
    obtain ⟨rfl, rfl⟩ := Prod.mk.inj hx
    exact absurd ((List.mem_singleton.1 hw).trans (List.mem_singleton.1 hv).symm) hne
  have hspace : s.GlobalNamespace ⟨0⟩ _ := modules_are_namespaces hok rfl
  refine ⟨hok, rfl, rfl, (hspace.addFunction "h" 2).declined ⟨⟨4⟩, ?_, rfl⟩,
    hspace.addInvalid "k" ⟨1⟩ ?_⟩
  · decide
  · rintro ⟨y, hy, hglobal⟩
    cases hy
    cases hglobal

end ForeignHandles.Host
