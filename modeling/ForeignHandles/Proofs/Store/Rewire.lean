import ForeignHandles.Proofs.Store.Edit

/-!
  What rewiring, releasing and retiring do to the links among the objects.

  Redirecting a value's uses moves the targets of its users and nothing else.  Releasing a value
  redirects its uses to nothing, takes it off the lists of its module and takes it away.  Retiring a
  module takes the module away and leaves values alone.

  A user has a target, and the target of a user is all that the three operations have in common; so
  what they do is said by one function on targets (`redirected`). Everything else about values and
  metadata, their context, their parent and their name, is shown to stay, one field at a time, since
  each of the later invariants is about one such field.
-/
namespace ForeignHandles

/-! ## Redirecting one object -/

/-- A target after every use of `old` is redirected. -/
def redirected (old : Ref .value) (new target : Handle .value) : Handle .value :=
  if target = some old then new else target

namespace Value

/-- A value stays in its context. -/
theorem context_redirect (old : Ref .value) (new : Handle .value) (x : Value) :
    (x.redirect old new).context = x.context := by
  unfold redirect
  split
  · split <;> rfl
  · rfl

/-- A value stays in its module, also an alias that loses its target. -/
theorem parent_redirect (old : Ref .value) (new : Handle .value) (x : Value) :
    (x.redirect old new).parent = x.parent := by
  unfold redirect
  split
  · split <;> rfl
  · rfl

/-- What an alias stands for is redirected; values of other sorts stand for nothing before and
after. -/
theorem target?_redirect (old : Ref .value) (new : Handle .value) (x : Value) :
    (x.redirect old new).target? = x.target?.map (redirected old new) := by
  unfold redirect target? redirected
  cases hb : x.body with
  | globalAlias a => by_cases ha : a = some old <;> simp [ha, hb]
  | _ => simp [hb]

end Value

/-- The same for wrappers, which are the other users. -/
theorem Metadata.target?_redirect (old : Ref .value) (new : Handle .value) (x : Metadata) :
    (x.redirect old new).target? = x.target?.map (redirected old new) := by
  unfold redirect target? redirected
  cases hb : x.body with
  | value a isLocal => by_cases ha : a = some old <;> simp [ha, hb]
  | _ => simp [hb]

/-! ## Redirecting all uses -/

namespace Store

variable (s : Store)

/-- After a rewiring each user, alias or wrapper, has its target redirected. -/
theorem target?_rewire (old : Ref .value) (new : Handle .value) (u : User) :
    (s.rewire old new).target? u = (s.target? u).map (redirected old new) := by
  cases u with
  | globalAlias v =>
    simp only [target?, get?_values_rewire]
    cases s.values.get? v with
    | none => rfl
    | some x => simp [Value.target?_redirect]
  | wrapper d =>
    simp only [target?, rewire, Arena.get?_map]
    cases s.metadata.get? d with
    | none => rfl
    | some x => simp [Metadata.target?_redirect]

/-- No value comes or goes. -/
@[simp] theorem contains_rewire (old : Ref .value) (new : Handle .value) (v : Ref .value) :
    (s.rewire old new).values.contains v = s.values.contains v := by
  simp [Arena.contains, get?_values_rewire]

/-! ## Releasing a value -/

/-- Taking a value off the lists of its module is no matter of metadata. -/
theorem metadata_unlist (v : Ref .value) : (s.unlist v).metadata = s.metadata := by
  unfold unlist
  split <;> rfl

/-- The module of a value forgets it; other modules stay as they are. -/
theorem get?_modules_release (v : Ref .value) (m : Ref .module) :
    (s.release v).modules.get? m =
      if (s.values.get? v).bind (·.parent) = some m then (s.modules.get? m).map (·.forget v)
      else s.modules.get? m := by
  have hmodules : (s.release v).modules = (s.unlist v).modules := rfl
  rw [hmodules]
  unfold unlist
  -- the parent is read before the value goes
  cases hp : (s.values.get? v).bind (·.parent) with
  | none => simp
  | some n => simp [Arena.get?_modify, eq_comm]

/-- No reference to a value becomes free again, -/
theorem next_release (v : Ref .value) : (s.release v).values.next = s.values.next := by
  have hnext : (s.release v).values.next = (s.unlist v).values.next := rfl
  rw [hnext, values_unlist]

/-- and no reference to a module. -/
theorem next_modules_release (v : Ref .value) : (s.release v).modules.next = s.modules.next := by
  have hnext : (s.release v).modules.next = (s.unlist v).modules.next := rfl
  rw [hnext]
  unfold unlist
  split <;> rfl

/-- The value that is released is gone, and the others are there as before. -/
theorem contains_release (v w : Ref .value) :
    (s.release v).values.contains w = (w ≠ v && s.values.contains w) := by
  by_cases hw : w = v <;> simp [Arena.contains, get?_values_release, hw]

/-- Releasing redirects the uses of the value to nothing; an alias that is itself released is no
user any more. -/
theorem target?_release (v : Ref .value) (u : User) :
    (s.release v).target? u =
      if u = .globalAlias v then none else (s.target? u).map (redirected v none) := by
  cases u with
  | globalAlias w =>
    simp only [target?, get?_values_release, User.globalAlias.injEq]
    split
    · rfl
    · cases s.values.get? w with
      | none => rfl
      | some x => simp [Value.target?_redirect]
  | wrapper d =>
    simp only [target?, get?_metadata_release, reduceCtorEq, if_false]
    cases s.metadata.get? d with
    | none => rfl
    | some x => simp [Metadata.target?_redirect]

end Store

/-! ## Forgetting a value -/

/-- A module forgets a value in every list at once, though it can only be in one of them. -/
theorem Module.listOf_forget (x : Module) (v : Ref .value) (k : ValueKind) :
    (x.forget v).listOf k = (x.listOf k).erase v := by
  cases k <;> rfl

end ForeignHandles
