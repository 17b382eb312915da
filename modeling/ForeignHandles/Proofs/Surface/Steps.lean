import ForeignHandles.Proofs.Host.Step
import ForeignHandles.Proofs.Surface.Entries

/-!
  What can happen to the objects of the host, whoever does it.

  Callers and the host have many ways to act, but only a few to act on objects: edits, contexts that
  are made and disposed of, uses that are redirected, values that are released and modules that
  retire.  Each call of an entry and each operation of the host is at most one `StoreStep`.  So what
  holds at the start and every `StoreStep` keeps holds in every reachable world
  (`store_invariant`), and nobody has to go through the entries for it.

  There are seven kinds of steps. That an entry is one of them is read off its body, case by case;
  most entries do a single edit, and those that find no context, no module or no cursor do nothing.
  An entry that ends in a fault is not considered, since nothing is reached by it.
-/
namespace ForeignHandles

/-- What can happen to the objects of the host. -/
inductive StoreStep : Store → Store → Prop where
  | unchanged {s : Store} : StoreStep s s
  | edit {s : Store} (context : Ref .context) (e : Edit) : StoreStep s (s.edit context e)
  | createContext {s : Store} : StoreStep s s.createContext.2
  | disposeContext {s : Store} (context : Ref .context) :
    StoreStep s (s.disposeContext (some context))
  | rewire {s : Store} (old : Ref .value) (new : Handle .value) : StoreStep s (s.rewire old new)
  | release {s : Store} (value : Ref .value) : StoreStep s (s.release value)
  | retireModule {s : Store} (module : Ref .module) : StoreStep s (s.retireModule module)

namespace Surface

variable {α : Type}

/-! ## Entries

Edits are made in some context, but only those that make objects depend on which one. For the
others the sole context of the host stands in. -/

/-- An operation that can fault is the edit of the same name whenever it does not. The edit has to
come to some store even then, so it leaves objects as they are; a caller does not get that far. -/
theorem storeStep_of_map {s t : Store} (e : Edit) {result : Except Fault Store} {answer : Unit}
    (hedit : s.edit Host.soleContext e = s.after result)
    (hcall : result.map (((), ·)) = .ok (answer, t)) : StoreStep s t := by
  cases result with
  | error f => cases hcall
  | ok u =>
    have hu : s.edit Host.soleContext e = t := hedit.trans (congrArg Prod.snd (Except.ok.inj hcall))
    exact hu ▸ .edit _ _

/-- Commands are edits of some context, but for the two that make and dispose of contexts. -/
theorem StoreCommand.storeStep_call {s t : Store} {answer : α} (x : StoreCommand α)
    (hcall : x.call s = .ok (answer, t)) : StoreStep s t := by
  cases x with
  | contextCreate =>
    cases hcall
    exact .createContext
  | contextDispose c =>
    cases hcall
    cases c with
    | none => exact .unchanged
    | some c => exact .disposeContext c
  | contextSetIsOdrUniquingDebugTypes c enabled =>
    cases hcall
    cases c with
    | none => exact .unchanged
    | some c => exact .edit c (.setOdrUniquing _)
  | removeGlobalFromParent v =>
    cases hcall
    exact .edit Host.soleContext (.unlinkVariable v)
  | mdNodeReplaceOperand d index target =>
    exact storeStep_of_map (.setOperand d index target) rfl hcall
  | constantAsMetadata v =>
    have ht : (s.constantAsMetadata v).2 = t := congrArg Prod.snd (Except.ok.inj hcall)
    exact ht ▸ .edit Host.soleContext (.constantAsMetadata v)
  | namedMdNodeSetOperand x index target =>
    exact storeStep_of_map (.setNamedOperand x index target) rfl hcall
  | namedMdNodeAddOperand x target =>
    cases hcall
    exact .edit Host.soleContext (.addNamedOperand x target)
  | namedMdNodeClearOperands x =>
    cases hcall
    exact .edit Host.soleContext (.clearNamedOperands x)
  | namedMetadataEraseFromParent x =>
    cases hcall
    exact .edit Host.soleContext (.eraseNamedMetadata x)
  | moduleCreateWithName c name =>
    have ht : (s.createModuleNamed c name).2 = t := congrArg Prod.snd (Except.ok.inj hcall)
    rw [← ht]
    cases c with
    | none => exact .unchanged
    | some c => exact .edit c (.createModuleNamed name)
  | moduleSetName m name =>
    cases hcall
    exact .edit Host.soleContext (.setModuleName m name)
  | moduleSetSourceFileName m name =>
    cases hcall
    exact .edit Host.soleContext (.setModuleSource m name)
  | moduleInsertOrUpdateComdat m name kind =>
    have ht : (s.insertOrUpdateComdat m name kind).2 = t :=
      congrArg Prod.snd (Except.ok.inj hcall)
    exact ht ▸ .edit Host.soleContext (.insertOrUpdateComdat m name kind)
  | moduleComdatRemove m x =>
    cases hcall
    exact .edit Host.soleContext (.dropComdat m x)
  | moduleComdatClear m =>
    cases hcall
    exact .edit Host.soleContext (.dropAllComdats m)
  | moduleBeginComdats m =>
    have ht : (s.beginComdats m).2 = t := congrArg Prod.snd (Except.ok.inj hcall)
    exact ht ▸ .edit Host.soleContext (.beginComdats m)
  | comdatIteratorMoveNext k =>
    cases hcall
    exact .edit Host.soleContext (.moveComdatCursor k)
  | comdatIteratorReset k =>
    cases hcall
    exact .edit Host.soleContext (.resetComdatCursor k)
  | disposeComdatIterator k =>
    cases hcall
    exact .edit Host.soleContext (.disposeComdatCursor k)

/-- Entries on caches do not touch objects, and a module that goes only puts jobs on the agenda. -/
theorem HostEntry.store_call (h : Host) (spell : Spelling) (x : HostEntry α) :
    (x.call h spell).2.store = h.store := by
  cases x with
  | moduleDispose m =>
    simp only [HostEntry.call, Host.disposeModule]
    split <;> rfl
  | valueCacheCreate c onDeleted onReplaced => cases c <;> rfl
  | valueCacheDispose k => cases k <;> rfl
  | valueCacheInsert k v handle =>
    simp only [HostEntry.call, Host.cacheInsert]
    split
    · rfl
    · cases k <;> rfl
  | valueCacheRemove k v place =>
    simp only [HostEntry.call, Host.cacheRemove]
    split
    · rfl
    · cases k <;> rfl
  | _ => rfl

/-- An entry that only answers leaves the world as it is, if it has an answer. -/
theorem eq_of_map {w w' : World} {result : Except Fault α} {answer : α}
    (hcall : result.map (·, w) = .ok (answer, w')) : w' = w := by
  cases result with
  | error f => cases hcall
  | ok x => exact (congrArg Prod.snd (Except.ok.inj hcall)).symm

/-- Every call of an entry that comes back is one step, or none. -/
theorem Entry.storeStep_call {w w' : World} {setting : Setting} {answer : α} (entry : Entry α)
    (hcall : entry.call w setting = .ok (answer, w')) : StoreStep w.host.store w'.host.store := by
  cases entry with
  -- a query reads, and may end in a fault
  | query q => exact eq_of_map hcall ▸ .unchanged
  | command x =>
    cases hx : x.call w.host.store with
    | error f => simp [Entry.call, hx, Except.map] at hcall
    | ok y =>
      simp only [Entry.call, hx, Except.map, Except.ok.injEq, Prod.mk.injEq, Prod.map] at hcall
      rw [← hcall.2]
      exact x.storeStep_call hx
  | host x =>
    cases hcall
    -- caches are of the host, but their entries do not touch objects
    show StoreStep w.host.store (x.call w.host setting.toSpelling).2.store
    rw [HostEntry.store_call]
    exact .unchanged
  -- object files, dylibs and targets have a state of their own
  | shelf x =>
    cases hcall
    exact .unchanged
  | jit x =>
    cases hcall
    exact .unchanged
  | registry x =>
    cases hcall
    exact .unchanged
  | plain x => exact eq_of_map hcall ▸ .unchanged

/-! ## The host

What the host does by itself comes from its agenda or from an embedder. Callbacks change the
objects only through the operations that they are made of. -/

/-- A job releases a value or retires a module, or it leaves the objects alone. -/
theorem storeStep_step (h : Host) : StoreStep h.store h.step.store := by
  unfold Host.step
  split
  · exact .unchanged
  · rename_i job agenda hagenda
    cases job with
    | await o notice => exact .unchanged
    -- a cache that settles may start a callback, which touches nothing yet
    | settle k =>
      simp only
      split <;> exact .unchanged
    | tell l notice =>
      cases l with
      | observer o => exact .unchanged
      | cache k =>
        show StoreStep h.store (Host.notify { h with agenda } k notice).store
        rw [Host.store_notify]
        exact .unchanged
    | delete c v =>
      simp only [Host.delete]
      split <;> exact .unchanged
    | release c v => exact .release v
    | retire m => exact .retireModule m

/-- So is every operation of the host: redirecting uses, if both values are there, and for the
rest an edit, a job or nothing. -/
theorem HostOperation.storeStep_perform (h : Host) (operation : HostOperation) :
    StoreStep h.store (operation.perform h).store := by
  cases operation with
  | edit c e => exact .edit c e
  | delete c v =>
    simp only [HostOperation.perform, Host.delete]
    split <;> exact .unchanged
  | replaceAllUses c old new =>
    simp only [HostOperation.perform, Host.replaceAllUses]
    split
    · exact .unchanged
    · split
      · exact .rewire old (some new)
      · exact .unchanged
  -- whoever listens changes nothing by listening
  | addObserver c => exact .unchanged
  | dropObserver o => exact .unchanged
  | step => exact storeStep_step h
  | answer handle =>
    simp only [HostOperation.perform, Host.answer]
    split <;> exact .unchanged

/-! ## Reachable worlds

The induction over reachable worlds is done here once and for all. -/

/-- What holds at the start and every step keeps holds in every reachable world. -/
theorem store_invariant {P : Store → Prop} (hstart : P (default : Host).store)
    (hstep : ∀ {s t}, StoreStep s t → P s → P t) {w : World} (hw : Reachable w) :
    P w.host.store := by
  induction hw with
  | start => exact hstart
  | operate operation h ih => exact hstep (operation.storeStep_perform _) ih
  | elsewhere shelf jit registry h ih => exact ih
  | call setting entry h hcall ih => exact hstep (entry.storeStep_call hcall) ih

/-- A caller can make a first context. -/
theorem reachable_opened : Reachable { host := Host.opened } :=
  .call .plain (.command .contextCreate) .start rfl

/-- The host can make any edits. -/
theorem reachable_foldl_edit {w : World} (c : Ref .context) (edits : List Edit) (hw : Reachable w) :
    Reachable { w with
      host := { w.host with store := edits.foldl (·.edit c) w.host.store } } := by
  induction edits generalizing w with
  | nil => exact hw
  | cons e edits ih => exact ih (.operate (.edit c e) hw)

end Surface

end ForeignHandles
