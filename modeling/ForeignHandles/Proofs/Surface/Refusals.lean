import ForeignHandles.Proofs.Host.CacheCalls
import ForeignHandles.Proofs.Jit.Run
import ForeignHandles.Proofs.Surface.Entries

/-!
  A call that fails changes nothing.

  Seven entry points answer with an error: three that work on caches, two on sessions, one on the
  registry and one on the attribute catalog.  `Attempt` is a call of one of them, typed by what its
  place holds.  They look at their arguments in different orders, and write to their place at
  different moments; but each has a lemma that it either fails and changes nothing or succeeds
  (`cacheLookup_cases` and its like, and those below), whatever state it is called in.  So it does
  not matter who calls, or from where: a callback that calls its own cache is such a state.

  What a failure leaves in the place is `cleared`.  It is never a result (`IsResult`).
-/
namespace ForeignHandles

/-- A registration fails and changes nothing, or it succeeds. -/
theorem Registry.registerTarget_cases (r : Registry) (target : Int32) (kinds : UInt32)
    (b : Build) : (∃ e, r.registerTarget target kinds b = (.error e, r)) ∨
      ∃ r', r.registerTarget target kinds b = (.ok (), r') := by
  cases ht : Target.validate target b with
  | error e => exact .inl ⟨e, by simp [registerTarget, ht]⟩
  | ok t => cases t <;> exact .inr ⟨_, by simp only [registerTarget, ht]; rfl⟩

/-- A query fails and leaves the place alone, or it answers. -/
theorem AttributeInfo.query_cases (name : Input) (place : Bool) :
    (∃ e, AttributeInfo.query name place = .refused e) ∨
      ∃ info, AttributeInfo.query name place = .ok true info := by
  cases hname : name.required "attribName" with
  | error e => exact .inl ⟨e, by simp [query, hname]⟩
  | ok name =>
    cases place with
    | false => exact .inl ⟨.nullOutParam "pInfo", by simp [query, hname]⟩
    | true => exact .inr ⟨.ofName name, by simp [query, hname]⟩

namespace Surface

/-! ## Attempts

The answers of the seven entries have different forms. `Attempt.call` brings them into one, a
reply and the world after it. -/

/-- A call that may fail.  `α` is what its place holds; a call without a place has nothing there. -/
inductive Attempt : Type → Type where
  | cacheLookup (cache : Handle .cache) (value : Handle .value) (place : Bool) :
    Attempt ExternalHandle
  | cacheInsert (cache : Handle .cache) (value : Handle .value) (handle : ExternalHandle) :
    Attempt Empty
  | cacheRemove (cache : Handle .cache) (value : Handle .value) (place : Bool) :
    Attempt ExternalHandle
  | createDylib (session : Handle .session) (name : Input) (place : Bool) :
    Attempt (Handle .dylib)
  | removeDylib (session : Handle .session) (dylib : Handle .dylib) : Attempt Empty
  | registerTarget (target : Int32) (kinds : UInt32) : Attempt Empty
  | attributeInfo (name : Input) (place : Bool) : Attempt AttributeInfo

namespace Attempt

variable {α : Type}

/-- The answer of an entry that has no place. -/
def withoutPlace (answer : Except BoundaryError Unit × World) : Reply Empty × World :=
  (⟨answer.1, none⟩, answer.2)

/-- Calls the entry. -/
def call (w : World) (setting : Setting) : Attempt α → Except Fault (Reply α × World)
  | .cacheLookup k v place => (Entry.host (.valueCacheLookup k v place)).call w setting
  | .cacheInsert k v handle =>
    ((Entry.host (.valueCacheInsert k v handle)).call w setting).map withoutPlace
  | .cacheRemove k v place => (Entry.host (.valueCacheRemove k v place)).call w setting
  | .createDylib s name place =>
    (Entry.jit (.executionSessionCreateJitDylib s name place)).call w setting
  | .removeDylib s d =>
    ((Entry.jit (.executionSessionRemoveDylib s d)).call w setting).map withoutPlace
  | .registerTarget target kinds =>
    ((Entry.registry (.registerTarget target kinds)).call w setting).map withoutPlace
  | .attributeInfo name place => (Entry.plain (.getAttributeInfo name place)).call w setting

/-- What a failure writes to the place, if there is one: a handle is cleared, and what is known
about an attribute is left as it was. -/
def cleared : Attempt α → Option α
  | .cacheLookup _ _ place | .cacheRemove _ _ place => if place then some noHandle else none
  | .createDylib _ _ place => if place then some none else none
  | .cacheInsert _ _ _ | .removeDylib _ _ | .registerTarget _ _ | .attributeInfo _ _ => none

/-- Whether what is in the place is a result: a handle that is not zero, a dylib, an attribute. -/
def IsResult : Attempt α → α → Prop
  | .cacheLookup _ _ _, handle | .cacheRemove _ _ _, handle => handle ≠ noHandle
  | .createDylib _ _ _, dylib => dylib ≠ none
  | .attributeInfo _ _, _ => True

/-- What has been cleared is no result. -/
theorem not_isResult_of_cleared {a : Attempt α} {x : α} (hx : a.cleared = some x) :
    ¬ a.IsResult x := by
  cases a with
  | cacheLookup k v place =>
    cases place <;> cases hx
    exact fun h => h rfl
  | cacheRemove k v place =>
    cases place <;> cases hx
    exact fun h => h rfl
  | createDylib s name place =>
    cases place <;> cases hx
    exact fun h => h rfl
  | _ => cases hx

/-- An attempt fails, changes nothing and clears its place, or it succeeds. -/
theorem call_cases (w : World) (setting : Setting) (a : Attempt α) :
    (∃ e, a.call w setting = .ok (⟨.error e, a.cleared⟩, w)) ∨
      ∃ written w', a.call w setting = .ok (⟨.ok (), written⟩, w') := by
  cases a with
  | cacheLookup k v place =>
    simp only [call, Entry.call, HostEntry.call]
    -- each entry has its own order of looking at arguments, which its lemma knows
    rcases w.host.cacheLookup_cases k v place with
      ⟨e, he⟩ | ⟨k, x, v, rfl, rfl, rfl, hx, hidle⟩
    · exact .inl ⟨e, by rw [he]; rfl⟩
    · exact .inr ⟨_, _, by rw [Host.cacheLookup_of_idle hx hidle]; rfl⟩
  | cacheInsert k v handle =>
    simp only [call, Entry.call, HostEntry.call]
    rcases w.host.cacheInsert_cases k v handle with
      ⟨e, he⟩ | ⟨k, x, v, rfl, rfl, hhandle, hx, hidle, hv⟩
    · exact .inl ⟨e, by rw [he]; rfl⟩
    · exact .inr ⟨_, _, by rw [Host.cacheInsert_of_absent hx hidle hv hhandle]; rfl⟩
  | cacheRemove k v place =>
    simp only [call, Entry.call, HostEntry.call]
    rcases w.host.cacheRemove_cases k v place with ⟨e, he⟩ | ⟨k, x, v, rfl, rfl, hx, hidle⟩
    · exact .inl ⟨e, by rw [he]; rfl⟩
    · exact .inr ⟨_, _, by rw [Host.cacheRemove_of_idle hx hidle]; rfl⟩
  | createDylib s name place =>
    simp only [call, Entry.call, JitEntry.call]
    rcases w.jit.createDylibNamed_cases s name place with
      ⟨e, he⟩ | ⟨_, _, _, _, _, _, _, _, hok⟩
    · exact .inl ⟨e, by rw [he]; rfl⟩
    · exact .inr ⟨_, _, by rw [hok]; rfl⟩
  | removeDylib s d =>
    simp only [call, Entry.call, JitEntry.call]
    rcases w.jit.removeDylibHandle_cases s d with ⟨e, he⟩ | ⟨_, _, _, _, _, _, _, hok⟩
    · exact .inl ⟨e, by rw [he]; rfl⟩
    · exact .inr ⟨_, _, by rw [hok]; rfl⟩
  | registerTarget target kinds =>
    simp only [call, Entry.call, RegistryEntry.call]
    -- whether the target is built in does not matter here
    rcases w.registry.registerTarget_cases target kinds setting.build with ⟨e, he⟩ | ⟨r, hok⟩
    · exact .inl ⟨e, by rw [he]; rfl⟩
    · exact .inr ⟨_, _, by rw [hok]; rfl⟩
  | attributeInfo name place =>
    simp only [call, Entry.call, PlainEntry.answer]
    rcases AttributeInfo.query_cases name place with ⟨e, he⟩ | ⟨info, hok⟩
    · exact .inl ⟨e, by rw [he]; rfl⟩
    · exact .inr ⟨_, _, by rw [hok]; rfl⟩

end Attempt

/-! ## Failures

There is no hypothesis on the world: it may be one that nobody can reach, as well as one in which
a callback is running. -/

/-- **A call that fails changes nothing.**  In every world each of these calls comes back.  If it is
with an error, then the world is as before, and so is the place, but for a handle, which is cleared;
so a result never comes with an error.

Nothing is assumed of the world, so it need not be a reachable one.  By `call_cases` a call
either ends with an error, in the world that it was made in, or it has its result. -/
theorem failed_call_changes_nothing {α : Type} (w : World) (setting : Setting) (a : Attempt α) :
    ∃ reply w', a.call w setting = .ok (reply, w') ∧
      (∀ e, reply.outcome = .error e → w' = w ∧ reply.written = a.cleared) ∧
      ∀ x, reply.written = some x → a.IsResult x → reply.outcome = .ok () := by
  rcases a.call_cases w setting with ⟨e, he⟩ | ⟨written, w', hok⟩
  · refine ⟨_, _, he, fun _ _ => ⟨rfl, rfl⟩, fun x hx hresult => ?_⟩
    exact absurd hresult (Attempt.not_isResult_of_cleared hx)
  · refine ⟨_, _, hok, fun e he => ?_, fun _ _ _ => rfl⟩
    cases he

/-- A value that is cached is being deleted, and the cache calls its consumer. -/
def deletingWorld : World where
  host := Host.opened.run
    [.edit (.createModule "m"), .edit (.addGlobalVariable ⟨0⟩ "v"), .createCache true true,
      .cacheInsert (some ⟨0⟩) (some ⟨0⟩) 7, .delete ⟨0⟩, .step]

/-- The consumer tries to remove the value from the cache that calls it. -/
theorem removal_inside_callback_changes_nothing :
    deletingWorld.host.call? = some (.cache ⟨0⟩ (.deleted ⟨0⟩ 7)) ∧
      (Attempt.cacheRemove (some ⟨0⟩) (some ⟨0⟩) true).call deletingWorld .plain =
        .ok (⟨.error (.cache .callbackInProgress), some noHandle⟩, deletingWorld) := by
  refine ⟨rfl, ?_⟩
  obtain ⟨reply, w', hcall, hfail, -⟩ := failed_call_changes_nothing deletingWorld
    .plain (.cacheRemove (some ⟨0⟩) (some ⟨0⟩) true)
  have houtcome : reply.outcome = .error (.cache .callbackInProgress) := by
    cases hcall
    rfl
  obtain ⟨rfl, hwritten⟩ := hfail _ houtcome
  cases reply
  rw [hcall]
  simp only at houtcome hwritten
  rw [houtcome, hwritten]
  rfl

end Surface

end ForeignHandles
