import ForeignHandles.Proofs.Cache.Step

/-!
  A mapping that nothing is about stays as it is.

  A notification is about one key, its `subject`: the key that is deleted or replaced.  No other key
  loses its mapping to it, not even the key that the replaced one moves to, for a mapping that is
  there wins.  So a key keeps its mapping over a run if no notification about it is waiting or
  underway at the start, none is raised, and no caller removes it (`get?_run`).

  This is the lemma behind all statements of the form "and it stays so": a cache that follows its
  objects keeps a handle for a value as long as nothing is announced about that value. The converse,
  that a notification about the key does move or drop the mapping, is a matter of other modules.

  A stage and the queue have to be looked at together, since what waits will be applied later. The
  queue may hold anything about other keys, and callbacks for those may give whatever handles they
  like; they can neither take the mapping of this key nor overwrite it.
-/
namespace ForeignHandles

variable {K : Type}

/-- The key whose mapping a notification is about. -/
def Event.subject : Event K → K
  | .deleted key => key
  | .replaced old _ => old

/-- The key whose mapping a callback is about. -/
def Stage.subject : Stage K → K
  | .deleting key _ => key
  | .replacing old _ _ => old
  | .orphaning old _ => old

namespace Cache

/-- A mapping that has a key, and a stage that is not about it. -/
def Spares [DecidableEq K] (key : K) (handle : ExternalHandle)
    (next : Mapping K × Option (Stage K)) : Prop :=
  next.1.get? key = some handle ∧ ∀ s, next.2 = some s → s.subject ≠ key

/-- A key is mapped, and nothing that waits or is underway is about it. -/
structure Keeps [DecidableEq K] (key : K) (handle : ExternalHandle) (c : Cache K) : Prop where
  spares : Spares key handle (c.mapping, c.stage)
  queue : ∀ e ∈ c.pending, e.subject ≠ key

variable [DecidableEq K] {c : Cache K} {key : K} {handle : ExternalHandle}

/-- Another key goes. -/
theorem spares_erase (h : c.mapping.get? key = some handle) {k : K} (hk : k ≠ key) :
    Spares key handle (c.mapping.erase k, none) := by
  refine ⟨?_, fun s hs => by cases hs⟩
  show (c.mapping.erase k).get? key = some handle
  rw [Mapping.get?_erase, if_neg hk.symm, h]

/-- A mapping moves from another key. It cannot come to be under this one, since a mapping that is
there wins. -/
theorem spares_rekey (h : c.mapping.get? key = some handle) {old : K} (hold : old ≠ key)
    (moved : ExternalHandle) (new : K) : Spares key handle (c.rekey old moved new) := by
  have hrest : (c.mapping.erase old).get? key = some handle := (spares_erase h hold).1
  cases hnew : (c.mapping.erase old).get? new with
  | none =>
    simp only [rekey, hnew]
    refine ⟨?_, fun s hs => by cases hs⟩
    show ((c.mapping.erase old).insertNew new moved).get? key = some handle
    rw [Mapping.get?_insertNew]
    -- under `new` there is nothing, and under the key there is
    have hne : key ≠ new := by
      rintro rfl
      rw [hnew] at hrest
      cases hrest
    rw [if_neg hne, hrest]
  | some existing =>
    simp only [rekey, hnew]
    refine ⟨hrest, fun s hs => ?_⟩
    split at hs
    · cases hs
      exact hold
    · cases hs

/-- A notification about another key does not touch the mapping, and neither does the callback
that it may lead to. -/
theorem spares_apply (h : c.mapping.get? key = some handle) {e : Event K}
    (he : e.subject ≠ key) : Spares key handle (c.apply e) := by
  have hnothing : Spares key handle (c.mapping, none) := ⟨h, fun s hs => by cases hs⟩
  cases e with
  | deleted k =>
    simp only [apply]
    split
    · exact hnothing
    · split
      · exact ⟨h, fun s hs => by cases hs; exact he⟩
      · exact spares_erase h he
  | replaced old new =>
    simp only [apply]
    split
    · exact hnothing
    · split
      · exact hnothing
      · split
        · exact ⟨h, fun s hs => by cases hs; exact he⟩
        · exact spares_rekey h he _ new

/-- When such a callback returns, its own key is dealt with. -/
theorem spares_conclude (h : c.mapping.get? key = some handle) {s : Stage K}
    (hs : s.subject ≠ key) (answer : Option ExternalHandle) :
    Spares key handle (c.conclude answer s) := by
  cases s with
  | deleting k _ => exact spares_erase h hs
  | orphaning _ _ => exact ⟨h, fun s hs => by cases hs⟩
  | replacing old _ new => exact spares_rekey h hs _ new

/-- Draining a queue in which nothing is about the key. The induction is on the queue; the mapping
in front of each notification still has the key. -/
theorem keeps_drain (h : c.mapping.get? key = some handle) {queue : List (Event K)}
    (hqueue : ∀ e ∈ queue, e.subject ≠ key) : Keeps key handle (c.drain queue) := by
  induction queue generalizing c with
  | nil => exact ⟨⟨h, fun s hs => by cases hs⟩, fun e he => by cases he⟩
  | cons e queue ih =>
    obtain ⟨he, hrest⟩ := List.forall_mem_cons.1 hqueue
    have happly := spares_apply h he
    rw [drain_cons]
    rcases hnext : c.apply e with ⟨mapping, _ | stage⟩
    · rw [hnext] at happly
      exact ih (c := { c with mapping }) happly.1 hrest
    · rw [hnext] at happly
      exact ⟨happly, hrest⟩

/-- The same for going on after a callback. -/
theorem keeps_proceed {next : Mapping K × Option (Stage K)} (h : Spares key handle next)
    {queue : List (Event K)} (hqueue : ∀ e ∈ queue, e.subject ≠ key) :
    Keeps key handle (c.proceed next queue) := by
  rcases next with ⟨mapping, _ | stage⟩
  · exact keeps_drain (c := { c with mapping }) h.1 hqueue
  · exact ⟨h, hqueue⟩

/-- **A step that is not about the key keeps its mapping.** Callers may insert under any key, as
an insertion under this one is declined. -/
theorem keeps_of_step {c' : Cache K} {a : Action K} {rs : List (Record K)} (hstep : Step c a c' rs)
    (hraise : ∀ e, a = .raise e → e.subject ≠ key) (hremove : a ≠ .remove key)
    (h : Keeps key handle c) : Keeps key handle c' := by
  obtain ⟨⟨hmapped, hstage⟩, hqueue⟩ := h
  -- what is raised is put behind what waits, and neither is about the key
  have hqueued : ∀ e, a = .raise e → ∀ f ∈ c.pending ++ [e], f.subject ≠ key := by
    intro e ha f hf
    rcases List.mem_append.1 hf with hf | hf
    · exact hqueue f hf
    · exact List.mem_singleton.1 hf ▸ hraise e ha
  cases hstep with
  | defer e => exact ⟨⟨hmapped, hstage⟩, hqueued e rfl⟩
  | dispatch e => exact keeps_drain hmapped (hqueued e rfl)
  | resume answer hs => exact keeps_proceed (spares_conclude hmapped (hstage _ hs) answer) hqueue
  | abandon => exact ⟨⟨hmapped, fun s hs => by cases hs⟩, hqueue⟩
  | @store _ k handle' ha hidle hkey =>
    refine ⟨⟨?_, hstage⟩, hqueue⟩
    show (c.mapping.insertNew k handle').get? key = some handle
    have hne : key ≠ k := by
      rintro rfl
      rw [hkey] at hmapped
      cases hmapped
    rw [Mapping.get?_insertNew, if_neg hne, hmapped]
  | @erase k _ hidle hkey =>
    have hne : k ≠ key := fun heq => hremove (heq ▸ rfl)
    exact ⟨⟨(spares_erase hmapped hne).1, hstage⟩, hqueue⟩
  | none => exact ⟨⟨hmapped, hstage⟩, hqueue⟩

/-- A key keeps its mapping over a run in which nothing is about it. -/
theorem get?_run (h : Keeps key handle c) {actions : List (Action K)}
    (hraise : ∀ e, .raise e ∈ actions → e.subject ≠ key) (hremove : .remove key ∉ actions) :
    (c.run actions).mapping.get? key = some handle := by
  have hkeeps : Keeps key handle (c.run actions) :=
    run_invariant (P := fun d _ => Keeps key handle d) (h := [])
      (fun d _ a ha d' rs hstep hd =>
        keeps_of_step hstep (fun e he => hraise e (he ▸ ha)) (fun heq => hremove (heq ▸ ha)) hd) h
  exact hkeeps.spares.1

end Cache

end ForeignHandles
