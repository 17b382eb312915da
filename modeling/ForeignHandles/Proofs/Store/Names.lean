import ForeignHandles.Proofs.Store.Ownership

/-!
  The names of linked globals.

  A name is looked for on the three lists of a module together when a global is added, and nowhere
  else.  So the names of what a module lists are different for as long as nobody gives one of them
  the name of another (`NamesApart`).  Nothing but a renaming changes the name of a value that is
  there (`ages_names_edit`), and nothing but an addition puts a value on a list; whatever else
  happens only takes names away, and these are free again (`KeepsNames`).

  With that invariant a name stands for one global of a module at most, whichever list it is on.
  What the look-ups find and when an addition is declined is then said by the names alone.
-/
namespace ForeignHandles.Store

variable {c : Ref .context} {s t : Store} {m : Ref .module} {x : Module} {v w : Ref .value}
  {name : String}

/-- The name of a value that is there. -/
def name? (s : Store) (v : Ref .value) : Option String := (s.values.get? v).map (·.name)

/-- What the program compares is the name of a value that is there. -/
theorem isNamed_iff : s.isNamed name v = true ↔ s.name? v = some name := by
  unfold isNamed name?
  cases s.values.get? v <;> simp

/-! ## Who changes names

The arena of values ages with its names if whoever was there and still is has the same name. All
edits but one do this, and so do the operations that are no edits. -/

/-- A redirected value keeps its name. -/
theorem name_redirect (old : Ref .value) (new : Handle .value) (y : Value) :
    (y.redirect old new).name = y.name := by
  unfold Value.redirect
  split
  · split <;> rfl
  · rfl

/-- Arguments are new, and nobody is renamed for them. -/
theorem ages_names_addArguments (c : Ref .context) (count : Nat) (s : Store) (index : Nat) :
    Arena.Ages Value.name s.values (s.addArguments c index count).2.values := by
  induction count generalizing s index with
  | zero => exact .refl _ _
  | succ count ih =>
    -- one argument, and then the others
    have hfirst : Arena.Ages Value.name s.values
        (s.addValue c "" (.argument (.ofNat index))).2.values := .alloc _ _ _
    exact hfirst.trans (ih _ _)

/-- A variable that is removed keeps its name. -/
theorem ages_names_removeGlobalVariable (s : Store) (m : Ref .module) (v : Ref .value) :
    Arena.Ages Value.name s.values (s.removeGlobalVariable m v).2.values := by
  unfold removeGlobalVariable
  split
  · exact .modify s.values v (f := fun y => { y with parent := none }) fun _ => rfl
  · exact .refl _ _

/-- An instruction keeps its name, whatever becomes of its records. -/
theorem ages_names_attachDebugRecord (ht : s.attachDebugRecord v = .ok t) :
    Arena.Ages Value.name s.values t.values := by
  obtain rfl | ⟨y, before, more, hv, -, rfl⟩ := attachDebugRecord_cases ht
  · exact .refl _ _
  · refine .map s.values
      (f := fun w z => if w = v then { y with body := .instruction more } else z)
      fun {w z} hz => ?_
    -- the value that is put there is the one that was there, with another record
    split
    · rename_i hw
      obtain rfl : y = z := by simpa [hw, hv] using hz
      rfl
    · rfl

/-- Only a renaming gives another name to a value that is there. -/
theorem ages_names_edit (c : Ref .context) (s : Store) {e : Edit}
    (he : ∀ v name, e ≠ .setValueName v name) :
    Arena.Ages Value.name s.values (s.edit c e).values := by
  cases e with
  | setValueName v name => exact absurd rfl (he v name)
  | constInt bits value => exact .alloc _ _ _
  | constNull => exact .alloc _ _ _
  | constDataArray bits raw =>
    rcases s.edit_constDataArray_cases c bits raw with heq | ⟨data, heq⟩
    · rw [heq]
      exact .refl _ _
    · rw [heq]
      exact .alloc _ _ _
  | constString text terminated => exact .alloc _ _ _
  | createInstruction name => exact .alloc _ _ _
  | attachDebugRecord v =>
    cases hattach : s.attachDebugRecord v with
    | error f =>
      simp only [edit, hattach, after]
      exact .refl _ _
    | ok t =>
      simp only [edit, hattach, after]
      exact ages_names_attachDebugRecord hattach
  | addGlobalVariable m name =>
    simp only [edit, addGlobalVariable]
    split
    · exact .refl _ _
    · exact .alloc _ _ _
  | addFunction m name count =>
    simp only [edit, addFunction]
    split
    · exact .refl _ _
    -- the arguments are made, and then the function
    · exact (ages_names_addArguments _ _ _ _).trans (.alloc _ _ _)
  | addGlobalAlias m name aliasee =>
    simp only [edit, addGlobalAlias]
    split
    · exact .refl _ _
    · split
      · exact .refl _ _
      · exact .alloc _ _ _
  | removeGlobalVariable m v => exact ages_names_removeGlobalVariable s m v
  | unlinkVariable v =>
    simp only [edit, unlinkVariable]
    split
    · split
      · exact ages_names_removeGlobalVariable s _ _
      · exact .refl _ _
    · exact .refl _ _
  | _ =>
    -- the other edits do not write to values
    rw [values_edit c s rfl]
    exact .refl _ _

/-! ## Different names

`KeepsNames` is what an operation has to satisfy that neither adds nor renames: it may take values
off the lists, and that is all. -/

/-- What is linked in one module has different names. -/
def NamesApart (s : Store) : Prop :=
  ∀ m x v w, s.modules.get? m = some x → v ∈ x.linked → w ∈ x.linked →
    s.name? v = s.name? w → v = w

/-- Whatever is linked in a module was linked there before, under the same name. -/
def KeepsNames (s t : Store) : Prop :=
  ∀ m y v, t.modules.get? m = some y → v ∈ y.linked →
    ∃ x, s.modules.get? m = some x ∧ v ∈ x.linked ∧ t.name? v = s.name? v

/-- What is linked is there, so it has a name. -/
theorem ListsGlobals.get?_of_mem_linked (hs : s.ListsGlobals) (hm : s.modules.get? m = some x)
    (hv : v ∈ x.linked) : ∃ y, s.values.get? v = some y ∧ y.parent = some m := by
  obtain ⟨k, hk⟩ := Module.mem_linked_iff.1 hv
  obtain ⟨y, hy, -, hparent⟩ := hs.listed hm hk
  exact ⟨y, hy, hparent⟩

namespace KeepsNames

/-- An edit that adds nothing and renames nothing. -/
theorem of_change {users : List (User × Ref .value)} (hs : s.ListsGlobals) {home : Handle .module}
    (hchange : Change c s home users t) (hhome : home = none)
    (hages : Arena.Ages Value.name s.values t.values) : KeepsNames s t := by
  intro m y v hm hv
  obtain ⟨k, hk⟩ := Module.mem_linked_iff.1 hv
  rcases hchange.listed_of hs hm hk with hnone | ⟨x, hx, hmem⟩
  · cases hhome.symm.trans hnone
  · obtain ⟨z, hz, -⟩ := (hs.change hchange).listed hm hk
    obtain ⟨z', hz', -⟩ := hs.listed hx hmem
    -- a value that was there before is listed, so it has aged
    have hold := hages.old hz (Arena.index_lt_next_of_get? hz')
    refine ⟨x, hx, Module.mem_linked_iff.2 ⟨k, hmem⟩, ?_⟩
    rw [name?, name?, hz, hold, Option.map_some]

/-- Redirecting renames nobody. -/
theorem rewire (s : Store) (old : Ref .value) (new : Handle .value) :
    KeepsNames s (s.rewire old new) := by
  intro m y v hm hv
  refine ⟨y, hm, hv, ?_⟩
  simp only [name?, get?_values_rewire, Option.map_map]
  congr 1
  funext z
  exact name_redirect old new z

/-- A release takes a value off a list and renames nobody, -/
theorem release (hs : s.ListsGlobals) (w : Ref .value) : KeepsNames s (s.release w) := by
  intro m y v hm hv
  obtain ⟨k, hk⟩ := Module.mem_linked_iff.1 hv
  -- what is still listed is another value than the one released
  obtain ⟨x, hx, hmem, hne⟩ := hs.listed_withdraw (hs.withdraws_release w) hm hk
  refine ⟨x, hx, Module.mem_linked_iff.2 ⟨k, hmem⟩, ?_⟩
  simp only [name?, get?_values_release, if_neg hne, Option.map_map]
  congr 1
  funext z
  exact name_redirect w none z

/-- and a module that is retired takes its lists along. -/
theorem retire (s : Store) (n : Ref .module) : KeepsNames s (s.retireModule n) := by
  intro m y v hm hv
  rw [get?_modules_retireModule] at hm
  split at hm
  · cases hm
  · exact ⟨y, hm, hv, rfl⟩

end KeepsNames

namespace NamesApart

/-- What adds and renames nothing keeps names apart. -/
theorem keep (hs : s.NamesApart) (h : KeepsNames s t) : t.NamesApart := by
  intro m y v w hm hv hw hname
  obtain ⟨x, hx, hv', hsame⟩ := h m y v hm hv
  -- both were linked before, in the same module and under these names
  obtain ⟨x', hx', hw', hsame'⟩ := h m y w hm hw
  obtain rfl : x = x' := by simpa [hx] using hx'
  exact hs m x v w hx hv' hw' (by rw [← hsame, ← hsame', hname])

/-- A new global whose name is free in its module. -/
theorem adopt (hs : s.NamesApart) (hlists : s.ListsGlobals) {d : Ref .context} {body : ValueBody}
    {list : Ref .value → Module → Module} (hlist : Extends body.kind list)
    (hfree : ∀ {x}, s.modules.get? m = some x → ∀ w ∈ x.linked, s.name? w ≠ some name) :
    (s.adopt m d name body list).2.NamesApart := by
  have hvalues := get?_values_adopt s m d name body list
  have hnone := get?_adopted s m d name body list
  have hnew : (s.adopt m d name body list).2.name? (s.adopt m d name body list).1 = some name := by
    rw [name?, hvalues, if_pos rfl, Option.map_some]
  -- a linked value is the new one, or it was linked before and has kept its name
  have hbefore {n : Ref .module} {y : Module} {v : Ref .value}
      (hn : (s.adopt m d name body list).2.modules.get? n = some y) (hv : v ∈ y.linked) :
      ∃ x, s.modules.get? n = some x ∧
        (n = m ∧ v = (s.adopt m d name body list).1 ∨
          v ∈ x.linked ∧ (s.adopt m d name body list).2.name? v = s.name? v) := by
    obtain ⟨k, hk⟩ := Module.mem_linked_iff.1 hv
    obtain ⟨x, hx, hold | ⟨hnm, -, hvu⟩⟩ := listed_adopt hlist hn hk
    · refine ⟨x, hx, .inr ⟨Module.mem_linked_iff.2 ⟨k, hold⟩, ?_⟩⟩
      rw [name?, name?, hvalues, if_neg]
      rintro rfl
      exact hlists.not_mem_of_none hx hnone hold
    · exact ⟨x, hx, .inl ⟨hnm, hvu⟩⟩
  intro n y v w hn hv hw hname
  obtain ⟨x, hx, hv⟩ := hbefore hn hv
  obtain ⟨x', hx', hw⟩ := hbefore hn hw
  obtain rfl : x = x' := by simpa [hx] using hx'
  rcases hv with ⟨hnm, hvu⟩ | ⟨hv, hsame⟩ <;> rcases hw with ⟨hnm', hwu⟩ | ⟨hw, hsame'⟩
  · exact hvu.trans hwu.symm
  · -- the name of the new one is not that of a value from before
    subst hnm hvu
    exact absurd (hsame'.symm.trans (hname.symm.trans hnew)) (hfree hx w hw)
  · subst hnm' hwu
    exact absurd (hsame.symm.trans (hname.trans hnew)) (hfree hx v hv)
  · exact hs n x v w hx hv hw (by rw [← hsame, ← hsame', hname])

end NamesApart

/-! ## Additions

An addition looks for the name first. `DeclinesExactly` says of a call when it fails, with which
error, and that it has changed nothing then; it is stated for the three sorts of globals with one
condition. -/

/-- Whether a linked value of a module has a name. -/
def Carries (s : Store) (x : Module) (name : String) : Prop :=
  ∃ v ∈ x.linked, s.name? v = some name

/-- An operation fails with an error exactly under a condition, and then it has changed nothing. -/
structure DeclinesExactly {α : Type} (s : Store) (e : HostError) (P : Prop)
    (result : Except HostError α × Store) : Prop where
  /-- A failure is this error, and the store is as it was. -/
  declined : P → result = (.error e, s)
  /-- Otherwise the call succeeds. -/
  done : ¬ P → ∃ a, result.1 = .ok a

/-- A name that is taken is refused, -/
theorem checkAddition_of_carries (hm : s.modules.get? m = some x) (h : s.Carries x name) :
    s.checkAddition m name = .error (.duplicateGlobal name) := by
  obtain ⟨v, hv, hname⟩ := h
  -- the program goes through the three lists in one
  have hany : x.linked.any (s.isNamed name) = true :=
    List.any_eq_true.2 ⟨v, hv, isNamed_iff.2 hname⟩
  simp only [checkAddition, hm, ensureUnique, hany, if_true, Except.map]

/-- and one that is free passes. -/
theorem checkAddition_of_free (hm : s.modules.get? m = some x) (h : ¬ s.Carries x name) :
    s.checkAddition m name = .ok x := by
  have hnone : x.linked.any (s.isNamed name) = false :=
    List.any_eq_false.2 fun v hv hname => h ⟨v, hv, isNamed_iff.1 hname⟩
  simp only [checkAddition, hm, ensureUnique, hnone, Bool.false_eq_true, if_false, Except.map]

/-- A name that passes is carried by nothing in the module. -/
theorem not_carries_of_checkAddition (h : s.checkAddition m name = .ok x) :
    ¬ s.Carries x name := by
  intro hcarries
  rw [checkAddition_of_carries (get?_of_checkAddition h) hcarries] at h
  cases h

/-- A variable is declined exactly if its name is taken, -/
theorem declinesExactly_addGlobalVariable (hm : s.modules.get? m = some x) (name : String) :
    DeclinesExactly s (.duplicateGlobal name) (s.Carries x name) (s.addGlobalVariable m name) where
  declined h := by simp only [addGlobalVariable, checkAddition_of_carries hm h]
  done h := by
    simp only [addGlobalVariable, checkAddition_of_free hm h]
    exact ⟨_, rfl⟩

/-- so is a function, however many arguments it has, -/
theorem declinesExactly_addFunction (hm : s.modules.get? m = some x) (name : String)
    (count : UInt32) :
    DeclinesExactly s (.duplicateGlobal name) (s.Carries x name)
      (s.addFunction m name count) where
  declined h := by simp only [addFunction, checkAddition_of_carries hm h]
  done h := by
    simp only [addFunction, checkAddition_of_free hm h]
    exact ⟨_, rfl⟩

/-- Whether a value is there and is a global. -/
def IsGlobal (s : Store) (v : Ref .value) : Prop :=
  ∃ y, s.values.get? v = some y ∧ y.isGlobal = true

/-- What the program asks of an aliasee. -/
theorem any_isGlobal_iff : (s.values.get? v).any (·.isGlobal) = true ↔ s.IsGlobal v := by
  unfold IsGlobal
  cases s.values.get? v <;> simp

/-- An alias of what is no global is declined before the name is looked at, -/
theorem addGlobalAlias_of_not_isGlobal (h : ¬ s.IsGlobal v) (m : Ref .module) (name : String) :
    s.addGlobalAlias m name v = (.error (.invalidAliasee name), s) := by
  have hnot : (s.values.get? v).any (·.isGlobal) = false :=
    Bool.eq_false_iff.2 fun hglobal => h (any_isGlobal_iff.1 hglobal)
  simp only [addGlobalAlias, hnot, Bool.not_false, if_true]

/-- and otherwise it is like the other two. -/
theorem declinesExactly_addGlobalAlias (hm : s.modules.get? m = some x) (hv : s.IsGlobal v)
    (name : String) :
    DeclinesExactly s (.duplicateGlobal name) (s.Carries x name)
      (s.addGlobalAlias m name v) where
  declined h := by
    simp only [addGlobalAlias, any_isGlobal_iff.2 hv, Bool.not_true, Bool.false_eq_true, if_false,
      checkAddition_of_carries hm h]
  done h := by
    simp only [addGlobalAlias, any_isGlobal_iff.2 hv, Bool.not_true, Bool.false_eq_true, if_false,
      checkAddition_of_free hm h]
    exact ⟨_, rfl⟩

/-! ## What keeps names apart

An addition only happens under a name that is free. A renaming does not look, so it is on whoever
renames to choose a name that no other global of the module has. -/

/-- No value gets the name of another value that is linked in its module. -/
def RenamesApart (s : Store) (e : Edit) : Prop :=
  ∀ v name m x, e = .setValueName v name → s.modules.get? m = some x → v ∈ x.linked →
    ∀ w ∈ x.linked, w ≠ v → s.name? w ≠ some name

namespace NamesApart

/-- Other values may be made before the new global, the arguments of a function. -/
theorem add (hs : s.NamesApart) (hlists : s.ListsGlobals) (hcheck : s.checkAddition m name = .ok x)
    (hgrow : Grows c s t) (hages : Arena.Ages Value.name s.values t.values) {d : Ref .context}
    {body : ValueBody} {list : Ref .value → Module → Module} (hlist : Extends body.kind list) :
    (t.adopt m d name body list).2.NamesApart := by
  have hchange : Change c s none [] t := .grow hgrow
  -- what is made before the global itself is free, so the names are as they were
  have hkeeps : KeepsNames s t := .of_change hlists hchange rfl hages
  refine (hs.keep hkeeps).adopt (hlists.grow hgrow) hlist fun {y} hy w hw hname => ?_
  obtain ⟨x', hx', hmem, hsame⟩ := hkeeps m y w hy hw
  obtain rfl : x = x' := by simpa [get?_of_checkAddition hcheck] using hx'
  exact not_carries_of_checkAddition hcheck ⟨w, hmem, hsame.symm.trans hname⟩

/-- A value that is renamed gets a name of its own in its module. -/
theorem setValueName (hs : s.NamesApart) (hlists : s.ListsGlobals)
    (h : s.RenamesApart (.setValueName v name)) : (s.setValueName v name).NamesApart := by
  -- the others keep their names
  have hother {w : Ref .value} (hw : w ≠ v) : (s.setValueName v name).name? w = s.name? w := by
    simp only [name?, Store.setValueName, Arena.get?_modify, if_neg hw]
  -- the new name is nobody else's
  have hclash {m : Ref .module} {x : Module} {w : Ref .value} (hm : s.modules.get? m = some x)
      (hv : v ∈ x.linked) (hw : w ∈ x.linked) (hne : w ≠ v) :
      (s.setValueName v name).name? v ≠ (s.setValueName v name).name? w := by
    obtain ⟨y, hy, -⟩ := hlists.get?_of_mem_linked hm hv
    have hnew : (s.setValueName v name).name? v = some name := by
      simp only [name?, Store.setValueName, Arena.get?_modify, if_true, hy, Option.map_some]
    rw [hnew, hother hne]
    exact fun hname => h v name m x rfl hm hv w hw hne hname.symm
  intro m x w w' hm hw hw' hname
  -- the renamed value is one of the two, both or neither
  by_cases hwv : w = v <;> by_cases hw'v : w' = v
  · exact hwv.trans hw'v.symm
  · subst hwv
    exact absurd hname (hclash hm hw hw' hw'v)
  · subst hw'v
    exact absurd hname.symm (hclash hm hw' hw hwv)
  · rw [hother hwv, hother hw'v] at hname
    exact hs m x w w' hm hw hw' hname

/-- Every edit keeps names apart, but for renamings that do not. -/
theorem edit (hs : s.NamesApart) (hlists : s.ListsGlobals)
    (hcontext : ∀ m x, s.modules.get? m = some x → x.context = c) {e : Edit}
    (h : s.RenamesApart e) : (s.edit c e).NamesApart := by
  cases e with
  | setValueName v name => exact hs.setValueName hlists h
  | addGlobalVariable m name =>
    cases hcheck : s.checkAddition m name with
    | error e =>
      simp only [Store.edit, addGlobalVariable, hcheck]
      exact hs
    | ok x =>
      simp only [Store.edit, addGlobalVariable, hcheck]
      exact hs.add hlists hcheck (.refl c s) (.refl _ _) extends_globalVariables
  | addFunction m name count =>
    cases hcheck : s.checkAddition m name with
    | error e =>
      simp only [Store.edit, addFunction, hcheck]
      exact hs
    | ok x =>
      simp only [Store.edit, addFunction, hcheck]
      exact hs.add hlists hcheck (.of_addArguments x.context _ s 0)
        (ages_names_addArguments x.context _ s 0) extends_functions
  | addGlobalAlias m name aliasee =>
    simp only [Store.edit, addGlobalAlias]
    split
    · exact hs
    -- the aliasee is a global, and then the name is looked at
    · cases hcheck : s.checkAddition m name with
      | error e => exact hs
      | ok x =>
        have hlist : Extends (ValueBody.globalAlias (some aliasee)).kind _ := extends_aliases
        exact hs.add hlists hcheck (.refl c s) (.refl _ _) hlist
  | _ =>
    refine hs.keep (.of_change hlists (change_edit hcontext _) rfl (ages_names_edit c s ?_))
    intro v name
    simp

end NamesApart

/-! ## Looking for a name

Each sort has a look-up of its own, along its list. Since names are apart over all three lists
together, at most one of the look-ups finds something. -/

/-- What a module has under a name, by the three look-ups. -/
def globalsNamed (s : Store) (m : Ref .module) (name : String) : List (Ref .value) :=
  [s.globalVariable? m name, s.function? m name, s.globalAlias? m name].filterMap id

/-- Each look-up is for one sort of global. -/
theorem globalsNamed_eq (hm : s.modules.get? m = some x) (name : String) :
    s.globalsNamed m name = [.globalVariable, .function, .globalAlias].filterMap
      (fun k => s.findNamed (x.listOf k) name) := by
  rw [globalsNamed, globalVariable?, function?, globalAlias?, hm]
  rfl

/-- What is found is on the list and has the name. -/
theorem of_findNamed {vs : List (Ref .value)} (h : s.findNamed vs name = some v) :
    v ∈ vs ∧ s.name? v = some name :=
  ⟨List.mem_of_find?_eq_some h, isNamed_iff.1 (List.find?_some h)⟩

/-- If one element at most has a result, there is one result at most. -/
theorem length_filterMap_le_one {α β : Type} {f : α → Option β} {l : List α} (hl : l.Nodup)
    (hone : ∀ a b x y, f a = some x → f b = some y → a = b) : (l.filterMap f).length ≤ 1 := by
  induction l with
  | nil => exact Nat.zero_le _
  | cons a l ih =>
    obtain ⟨ha, hl⟩ := List.nodup_cons.1 hl
    cases hf : f a with
    | none =>
      rw [List.filterMap_cons_none hf]
      exact ih hl
    | some x =>
      have hrest : l.filterMap f = [] := by
        refine List.filterMap_eq_nil_iff.2 fun b hb => Option.eq_none_iff_forall_ne_some.2 ?_
        intro y hy
        exact ha (hone a b x y hf hy ▸ hb)
      rw [List.filterMap_cons_some hf, hrest]
      exact Nat.le_refl _

namespace NamesApart

/-- A value is found on its list by its name. -/
theorem findNamed_eq_some_iff (hs : s.NamesApart) (hm : s.modules.get? m = some x)
    {k : ValueKind} :
    s.findNamed (x.listOf k) name = some v ↔ v ∈ x.listOf k ∧ s.name? v = some name := by
  refine ⟨of_findNamed, fun ⟨hv, hname⟩ => ?_⟩
  cases hfind : s.findNamed (x.listOf k) name with
  | none => exact absurd (isNamed_iff.2 hname) (List.find?_eq_none.1 hfind v hv)
  | some w =>
    obtain ⟨hw, hname'⟩ := of_findNamed hfind
    -- the look-up stops at the first value of the name, and there is only one
    have heq : w = v := hs m x w v hm (Module.mem_linked_iff.2 ⟨k, hw⟩)
      (Module.mem_linked_iff.2 ⟨k, hv⟩) (hname'.trans hname.symm)
    rw [heq]

/-- The look-ups find exactly the linked values of the name. -/
theorem mem_globalsNamed_iff (hs : s.NamesApart) (hm : s.modules.get? m = some x) :
    v ∈ s.globalsNamed m name ↔ v ∈ x.linked ∧ s.name? v = some name := by
  rw [globalsNamed_eq hm, List.mem_filterMap, Module.mem_linked_iff]
  simp only [hs.findNamed_eq_some_iff hm]
  constructor
  · rintro ⟨k, -, hk, hname⟩
    exact ⟨⟨k, hk⟩, hname⟩
  · rintro ⟨⟨k, hk⟩, hname⟩
    refine ⟨k, ?_, hk, hname⟩
    -- the lists of the other sorts are empty
    cases k <;> simp_all [Module.listOf]

/-- One of the look-ups finds something at most. -/
theorem length_globalsNamed_le (hs : s.NamesApart) (hlists : s.ListsGlobals)
    (hm : s.modules.get? m = some x) (name : String) : (s.globalsNamed m name).length ≤ 1 := by
  rw [globalsNamed_eq hm]
  refine length_filterMap_le_one (by decide) fun k l v w hv hw => ?_
  obtain ⟨hk, hname⟩ := of_findNamed hv
  obtain ⟨hl, hname'⟩ := of_findNamed hw
  obtain rfl : v = w := hs m x v w hm (Module.mem_linked_iff.2 ⟨k, hk⟩)
    (Module.mem_linked_iff.2 ⟨l, hl⟩) (hname.trans hname'.symm)
  exact (hlists.unique hm hm hk hl).2

/-- What is linked is there, and the names are different. -/
theorem nodup_names (hs : s.NamesApart) (hlists : s.ListsGlobals) (hm : s.modules.get? m = some x) :
    ∃ names : List String, x.linked.map s.name? = names.map some ∧ names.Nodup := by
  have hthere : ∀ v ∈ x.linked, (s.name? v).isSome := by
    intro v hv
    obtain ⟨y, hy, -⟩ := hlists.get?_of_mem_linked hm hv
    rw [name?, hy]
    rfl
  -- so the names can be written without the absence of one
  have hsome : x.linked.map s.name? = (x.linked.filterMap s.name?).map some := by
    rw [List.map_filterMap]
    refine (List.filterMap_eq_map_iff_forall_eq_some.2 fun v hv => ?_).symm
    obtain ⟨name, hname⟩ := Option.isSome_iff_exists.1 (hthere v hv)
    rw [hname, Option.map_some]
  have hnodup : (x.linked.map s.name?).Nodup :=
    (hlists.nodup_linked hm).map_on fun v hv w hw hname => hs m x v w hm hv hw hname
  exact ⟨_, hsome, (hsome ▸ hnodup).of_map _⟩

end NamesApart

/-! ## A namespace

What the invariant amounts to for callers. -/

/-- The globals of a module are a namespace: what is linked has different names, a name stands for
one value at most, and an addition is declined exactly if its name is taken. -/
structure GlobalNamespace (s : Store) (m : Ref .module) (x : Module) : Prop where
  /-- Every linked value has a name, and no two have the same. -/
  distinct : ∃ names : List String, x.linked.map s.name? = names.map some ∧ names.Nodup
  /-- The look-ups find what is linked under the name, and only that. -/
  found : ∀ name v, v ∈ s.globalsNamed m name ↔ v ∈ x.linked ∧ s.name? v = some name
  unique : ∀ name, (s.globalsNamed m name).length ≤ 1
  /-- A variable and a function are declined if the name is taken, by a global of whatever sort. -/
  addVariable : ∀ name,
    DeclinesExactly s (.duplicateGlobal name) (s.Carries x name) (s.addGlobalVariable m name)
  addFunction : ∀ name count,
    DeclinesExactly s (.duplicateGlobal name) (s.Carries x name) (s.addFunction m name count)
  /-- Whether the aliasee is a global is looked at first. -/
  addInvalid : ∀ name a, ¬ s.IsGlobal a →
    s.addGlobalAlias m name a = (.error (.invalidAliasee name), s)
  /-- For an alias of a global, it is as for the others. -/
  addAlias : ∀ name a, s.IsGlobal a →
    DeclinesExactly s (.duplicateGlobal name) (s.Carries x name) (s.addGlobalAlias m name a)

/-- **Names that are apart make a namespace.** -/
theorem NamesApart.globalNamespace (hs : s.NamesApart) (hlists : s.ListsGlobals)
    (hm : s.modules.get? m = some x) : s.GlobalNamespace m x where
  distinct := hs.nodup_names hlists hm
  found _ _ := hs.mem_globalsNamed_iff hm
  unique name := hs.length_globalsNamed_le hlists hm name
  addVariable name := declinesExactly_addGlobalVariable hm name
  addFunction name count := declinesExactly_addFunction hm name count
  addInvalid name _ ha := addGlobalAlias_of_not_isGlobal ha m name
  addAlias name _ ha := declinesExactly_addGlobalAlias hm ha name

end ForeignHandles.Store
