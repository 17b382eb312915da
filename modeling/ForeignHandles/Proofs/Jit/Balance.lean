import Mathlib.Data.List.Perm.Lattice
import ForeignHandles.Proofs.Arena
import ForeignHandles.Proofs.Jit.Run

/-!
  The books of a symbol pool balance.

  Every pointer is stored somewhere: by the consumer that it was handed to, or by a dylib.  `held`
  lists them all, each by the entry that it points to.  The count of an entry is how often it
  occurs there.

  Inside an operation that is not so.  A pointer is counted before it is stored, and it is taken
  from where it was stored before it is counted off.  Such a pointer is *loose*, and the counts are
  those of the pointers that are held and loose together (`Balanced`).  Then each little step of an
  operation has one lemma: `internEntry` and `retain` bring a loose pointer, `handOut` and `keep`
  store one, `takeBack` and `eraseDylib` make held ones loose, and `release` ends one.  As a pointer
  that is released is a loose one, its entry is there and its count is not zero.

  The other half of the books is that a pool has one entry for a name.
-/
namespace ForeignHandles.Jit

variable {j j' : Jit} {a : Action} {rs : List Record} {d : Ref .dylib} {e : Ref .poolEntry}
  {pool : Ref .pool} {name : String} {loose : List (Ref .poolEntry)}

/-! ## Who points to what

A pointer is an object of its own if a consumer has it, and an entry of a list if a dylib has it.
In `held` both are the entry that is pointed to, and the same entry occurs as often as there are
pointers to it; the order does not matter, so the lemmas are about permutations. -/

/-- The pointers that consumers and dylibs hold, each by its entry. -/
def held (j : Jit) : List (Ref .poolEntry) :=
  j.pointers.items.map (·.2.entry) ++ j.dylibs.items.flatMap (·.2.symbols)

/-- The number of pointers to an entry that consumers and dylibs hold. -/
def holders (j : Jit) (e : Ref .poolEntry) : Nat := j.held.count e

/-- A pointer that is there is held, -/
theorem mem_held_of_pointer {r : Ref .symbolPointer} {x : SymbolPointer}
    (hx : j.pointers.get? r = some x) : x.entry ∈ j.held :=
  List.mem_append_left _ (List.mem_map.2 ⟨(r, x), (j.pointers.mem_items_iff r x).2 hx, rfl⟩)

/-- and so is one that a dylib has. -/
theorem mem_held_of_symbol {x : Dylib} (hx : j.dylibs.get? d = some x)
    (he : e ∈ x.symbols) : e ∈ j.held :=
  List.mem_append_right _ (List.mem_flatMap.2 ⟨(d, x), (j.dylibs.mem_items_iff d x).2 hx, he⟩)

/-- A pointer that is handed out is held. -/
theorem held_handOut (j : Jit) (e : Ref .poolEntry) : (j.handOut e).2.held.Perm (e :: j.held) := by
  simp only [held, handOut, Arena.alloc, List.map_append, List.map_cons, List.map_nil,
    List.append_assoc, List.singleton_append]
  exact List.perm_middle

/-- What is taken back from a consumer was held, and the rest still is. -/
theorem held_takeBack {r : Ref .symbolPointer} {x : SymbolPointer}
    (hx : j.pointers.get? r = some x) :
    j.held.Perm (x.entry :: held { j with pointers := j.pointers.erase r }) :=
  ((Arena.perm_items_erase hx).map _).append_right _

/-- A pointer that a dylib keeps is held. -/
theorem held_keep {x : Dylib} (hx : j.dylibs.get? d = some x) (e : Ref .poolEntry) :
    (held { j with
      dylibs := j.dylibs.modify d (fun y => { y with symbols := y.symbols ++ [e] }) }).Perm
      (e :: j.held) := by
  -- take the dylib out of both lists; then the symbols stand in front
  have hnew := (Arena.perm_items_modify hx
    (fun y => { y with symbols := y.symbols ++ [e] })).flatMap_right (·.2.symbols)
  have hold := (Arena.perm_items_erase hx).flatMap_right (·.2.symbols)
  simp only [List.flatMap_cons] at hnew hold
  have hfront : (x.symbols ++ [e] ++ (j.dylibs.erase d).items.flatMap (·.2.symbols)).Perm
      (e :: j.dylibs.items.flatMap (·.2.symbols)) := by
    rw [List.append_assoc]
    exact List.perm_middle.trans (hold.symm.cons e)
  exact ((hnew.trans hfront).append_left _).trans List.perm_middle

/-- A dylib that goes leaves all its pointers behind. -/
theorem held_eraseDylib {x : Dylib} (hx : j.dylibs.get? d = some x) :
    j.held.Perm (x.symbols ++ held { j with dylibs := j.dylibs.erase d }) := by
  have hold := (Arena.perm_items_erase hx).flatMap_right (·.2.symbols)
  rw [List.flatMap_cons] at hold
  exact (hold.append_left _).trans (List.perm_append_comm_assoc ..)

/-! ## Counts and keys of entries

What the little steps do to the entries. A count is changed in one place and read everywhere, so
each lemma says what all counts are afterwards: one more, or one less, in that place. -/

/-- The count of an entry that is there, -/
theorem refCount_of_get? {x : PoolEntry} (hx : j.entries.get? e = some x) :
    j.refCount (some e) = x.count := by
  simp [refCount, hx]

/-- and of one that is not. -/
theorem refCount_of_none (h : j.entries.get? e = none) : j.refCount (some e) = 0 := by
  simp [refCount, h]

/-- One pointer more to one entry, -/
theorem refCount_retain {x : PoolEntry} (hx : j.entries.get? e = some x) (e' : Ref .poolEntry) :
    (j.retain e).refCount (some e') = j.refCount (some e') + [e].count e' := by
  by_cases h : e' = e
  · subst h
    simp [refCount, retain, Arena.get?_modify, hx]
  · have hne : ¬ e = e' := fun heq => h heq.symm
    simp [refCount, retain, Arena.get?_modify, h, hne]

/-- and one less. Subtraction stops at zero, so this says nothing of the pointer by itself. -/
theorem refCount_release (j : Jit) (e e' : Ref .poolEntry) :
    (j.release e).refCount (some e') = j.refCount (some e') - [e].count e' := by
  by_cases h : e' = e
  · subst h
    cases hx : j.entries.get? e' <;> simp [refCount, release, Arena.get?_modify, hx]
  · have hne : ¬ e = e' := fun heq => h heq.symm
    simp [refCount, release, Arena.get?_modify, h, hne]

/-- A change of an entry that leaves its key alone. -/
theorem map_key_modify (entries : Arena .poolEntry PoolEntry) (e e' : Ref .poolEntry)
    {f : PoolEntry → PoolEntry} (hf : ∀ x, (f x).key = x.key) :
    ((entries.modify e f).get? e').map PoolEntry.key = (entries.get? e').map PoolEntry.key := by
  rw [Arena.get?_modify]
  split
  · simp only [Option.map_map, Function.comp_def, hf]
  · rfl

/-- Counting changes no keys, -/
@[simp] theorem key?_retain (j : Jit) (e e' : Ref .poolEntry) :
    (j.retain e).key? e' = j.key? e' := map_key_modify _ _ _ fun _ => rfl

/-- neither up nor down. -/
@[simp] theorem key?_release (j : Jit) (e e' : Ref .poolEntry) :
    (j.release e).key? e' = j.key? e' := map_key_modify _ _ _ fun _ => rfl

/-- A new entry has its key, and the others keep theirs. -/
theorem key?_alloc (j : Jit) (x : PoolEntry) (e : Ref .poolEntry) :
    key? { j with entries := (j.entries.alloc x).2 } e =
      if e = (j.entries.alloc x).1 then some x.key else j.key? e := by
  rw [key?, Arena.get?_alloc]
  split <;> rfl

/-- A new entry starts with its own count, and the others keep theirs. -/
theorem refCount_alloc (j : Jit) {x : PoolEntry} (hx : x.count = 1) (e : Ref .poolEntry) :
    refCount { j with entries := (j.entries.alloc x).2 } (some e) =
      j.refCount (some e) + [(j.entries.alloc x).1].count e := by
  have hnew : j.entries.get? (j.entries.alloc x).1 = none :=
    Arena.get?_eq_none_of_next_le _ (Nat.le_refl _)
  rw [refCount, Option.bind_some, Arena.get?_alloc]
  by_cases h : e = (j.entries.alloc x).1
  · rw [if_pos h, h, refCount_of_none hnew]
    simp [hx]
  · have hne : ¬ (j.entries.alloc x).1 = e := fun heq => h heq.symm
    rw [if_neg h]
    simp [refCount, hne]

/-- Clearing a pool keeps the entries of other pools and those that are pointed to. -/
theorem get?_clearDeadEntries (j : Jit) (pool : Ref .pool) (e : Ref .poolEntry) :
    (j.clearDeadEntries pool).entries.get? e =
      (j.entries.get? e).filter (fun x => x.pool ≠ pool || 0 < x.count) :=
  j.entries.get?_filter (fun _ x => x.pool ≠ pool || 0 < x.count) e

/-- What is found for a name has that name. -/
theorem key?_of_found (h : j.entry? pool name = some e) : j.key? e = some (pool, name) := by
  obtain ⟨x, hx, hkey⟩ := Arena.get?_of_find? h
  have hkey : x.pool = pool ∧ x.name = name := by simpa using hkey
  simp [key?, hx, PoolEntry.key, hkey]

/-- If nothing is found for a name then no entry of the pool has it. -/
theorem key?_ne_of_not_found (h : j.entry? pool name = none) (e : Ref .poolEntry) :
    j.key? e ≠ some (pool, name) := by
  intro hkey
  obtain ⟨x, hx, hkey⟩ := Option.map_eq_some_iff.1 hkey
  obtain ⟨rfl, rfl⟩ := Prod.mk.inj hkey
  simpa using Arena.eq_false_of_find?_eq_none h hx

/-! ## The balance

One lemma for each little step, with the loose pointers before and after. An operation is a chain
of these lemmas in the order of its steps, and begins and ends with nothing loose. -/

/-- A pool has one entry for a name, and the count of an entry is the number of pointers to it that
are held or loose. -/
structure Balanced (j : Jit) (loose : List (Ref .poolEntry)) : Prop where
  unique : ∀ {e e' key}, j.key? e = some key → j.key? e' = some key → e = e'
  count : ∀ e, j.refCount (some e) = (j.held ++ loose).count e

namespace Balanced

/-- A pool finds an entry by its key. -/
theorem entry?_of_key? (hb : Balanced j loose) (h : j.key? e = some (pool, name)) :
    j.entry? pool name = some e := by
  cases hfound : j.entry? pool name with
  | none => exact absurd h (key?_ne_of_not_found hfound e)
  | some e' => rw [hb.unique h (key?_of_found hfound)]

/-- Pointers do not dangle. -/
theorem get?_of_mem (hb : Balanced j loose) (he : e ∈ j.held ++ loose) :
    ∃ x, j.entries.get? e = some x ∧ 0 < x.count := by
  have hpos : 0 < j.refCount (some e) := by
    rw [hb.count]
    exact List.count_pos_iff.2 he
  cases hx : j.entries.get? e with
  | none =>
    rw [refCount_of_none hx] at hpos
    exact absurd hpos (Nat.lt_irrefl 0)
  | some x =>
    rw [refCount_of_get? hx] at hpos
    exact ⟨x, rfl, hpos⟩

/-- Pointers change hands. -/
theorem of_perm (hb : Balanced j loose) {loose' : List (Ref .poolEntry)}
    (hentries : j'.entries = j.entries) (hperm : (j'.held ++ loose').Perm (j.held ++ loose)) :
    Balanced j' loose' where
  unique {e e' key} he he' := by
    rw [key?, hentries] at he he'
    exact hb.unique he he'
  count e := by
    rw [refCount, hentries, hperm.count_eq]
    exact hb.count e

/-- One loose pointer more is one more in the count of its entry. -/
theorem count_cons_loose (held loose : List (Ref .poolEntry)) (e e' : Ref .poolEntry) :
    (held ++ e :: loose).count e' = (held ++ loose).count e' + [e].count e' := by
  rw [List.perm_middle.count_eq, ← List.singleton_append, List.count_append, Nat.add_comm]

/-- Another pointer to an entry that is there is loose at first. -/
theorem retain (hb : Balanced j loose) {x : PoolEntry} (hx : j.entries.get? e = some x) :
    Balanced (j.retain e) (e :: loose) where
  unique {e₁ e₂ key} h₁ h₂ := by
    rw [key?_retain] at h₁ h₂
    exact hb.unique h₁ h₂
  count e' := by
    rw [refCount_retain hx, hb.count]
    exact (count_cons_loose ..).symm

/-- A loose pointer is dropped: its entry is there, and the count goes down by one. -/
theorem release (hb : Balanced j (e :: loose)) : Balanced (j.release e) loose where
  unique {e₁ e₂ key} h₁ h₂ := by
    rw [key?_release] at h₁ h₂
    exact hb.unique h₁ h₂
  count e' := by
    rw [refCount_release, hb.count, count_cons_loose, Nat.add_sub_cancel]
    rfl

/-- Many loose pointers are dropped one after the other. -/
theorem releaseAll {es : List (Ref .poolEntry)} (hb : Balanced j (es ++ loose)) :
    Balanced (es.foldl Jit.release j) loose := by
  induction es generalizing j with
  | nil => exact hb
  | cons e es ih => exact ih hb.release

/-- Interning brings a loose pointer, to the old entry for the name or to a new one. -/
theorem internEntry (hb : Balanced j loose) (he : j.internEntry pool name = (e, j')) :
    Balanced j' (e :: loose) := by
  obtain ⟨hfound, rfl⟩ | ⟨hfound, rfl, rfl⟩ := internEntry_cases he
  · obtain ⟨x, hx, -⟩ := Arena.get?_of_find? hfound
    exact hb.retain hx
  · refine ⟨fun {e₁ e₂ key} h₁ h₂ => ?_, fun e => ?_⟩
    · -- the name had no entry, so the new one is the only one
      rw [key?_alloc] at h₁ h₂
      -- each of the two entries is the new one or an old one
      split at h₁ <;> split at h₂
      · subst_vars
        rfl
      · cases h₁
        exact absurd h₂ (key?_ne_of_not_found hfound e₂)
      · cases h₂
        exact absurd h₁ (key?_ne_of_not_found hfound e₁)
      · exact hb.unique h₁ h₂
    · rw [refCount_alloc j rfl, hb.count]
      exact (count_cons_loose ..).symm

/-- A loose pointer is handed out. -/
theorem handOut (hb : Balanced j (e :: loose)) : Balanced (j.handOut e).2 loose := by
  refine hb.of_perm rfl (((held_handOut j e).append_right loose).trans ?_)
  exact List.perm_middle.symm

/-- A loose pointer is kept by a dylib. -/
theorem keep (hb : Balanced j (e :: loose)) {x : Dylib} (hx : j.dylibs.get? d = some x) :
    Balanced { j with
      dylibs := j.dylibs.modify d (fun y => { y with symbols := y.symbols ++ [e] }) } loose := by
  refine hb.of_perm rfl (((held_keep hx e).append_right loose).trans ?_)
  exact List.perm_middle.symm

/-- A pointer that is taken back from a consumer is loose. -/
theorem takeBack (hb : Balanced j loose) {r : Ref .symbolPointer} {x : SymbolPointer}
    (hx : j.pointers.get? r = some x) :
    Balanced { j with pointers := j.pointers.erase r } (x.entry :: loose) := by
  refine hb.of_perm rfl (List.perm_middle.trans ?_)
  exact ((held_takeBack hx).append_right loose).symm

/-- The pointers of a dylib that goes are all loose. -/
theorem eraseDylib (hb : Balanced j loose) {x : Dylib} (hx : j.dylibs.get? d = some x) :
    Balanced { j with dylibs := j.dylibs.erase d } (x.symbols ++ loose) := by
  refine hb.of_perm rfl ((List.perm_append_comm_assoc ..).trans ?_)
  rw [← List.append_assoc]
  exact ((held_eraseDylib hx).append_right loose).symm

/-- Entries that nothing points to may go. -/
theorem clearDeadEntries (hb : Balanced j loose) (pool : Ref .pool) :
    Balanced (j.clearDeadEntries pool) loose := by
  refine ⟨fun {e e' key} he he' => ?_, fun e => ?_⟩
  -- what is there after clearing was there before, with its key
  · have hold {e} (he : (j.clearDeadEntries pool).key? e = some key) : j.key? e = some key := by
      obtain ⟨x, hx, hkey⟩ := Option.map_eq_some_iff.1 he
      rw [get?_clearDeadEntries] at hx
      rw [key?, (Option.filter_eq_some_iff.1 hx).1, Option.map_some, hkey]
    exact hb.unique (hold he) (hold he')
  · refine Eq.trans ?_ (hb.count e)
    have hget := get?_clearDeadEntries j pool e
    cases hx : j.entries.get? e with
    | none =>
      rw [hx, Option.filter_none] at hget
      rw [refCount_of_none hx, refCount_of_none hget]
    | some x =>
      rw [hx, Option.filter_some] at hget
      split at hget
      · rw [refCount_of_get? hx, refCount_of_get? hget]
      · -- what goes has the count of what is not there
        have hzero : x.count = 0 := by simp_all
        rw [refCount_of_get? hx, refCount_of_none hget, hzero]

end Balanced

/-! ## Removing dylibs

A dylib that goes drops its pointers one after the other, and a session discards its dylibs. Both
are folds, and what each turn preserves the whole preserves. -/

/-- Dropping pointers has nothing to do with the dylibs. -/
theorem foldl_release_dylibs (dylibs : Arena .dylib Dylib) (es : List (Ref .poolEntry))
    (j : Jit) :
    { es.foldl release j with dylibs := dylibs } =
      es.foldl release { j with dylibs := dylibs } := by
  induction es generalizing j with
  | nil => rfl
  | cons e es ih => exact ih (j.release e)

/-- A dylib that is there goes first and then drops what it has. -/
theorem discardDylib_of_get? {x : Dylib} (hx : j.dylibs.get? d = some x) :
    j.discardDylib d = x.symbols.foldl release { j with dylibs := j.dylibs.erase d } := by
  rw [← foldl_release_dylibs, discardDylib, hx]
  rfl

/-- One that is not there has nothing to drop. -/
theorem discardDylib_of_none (hx : j.dylibs.get? d = none) : j.discardDylib d = j := by
  simp [discardDylib, hx, Arena.erase_of_none hx]

/-- What dropping a pointer preserves, removing a dylib preserves, if it does not matter which
dylibs there are. -/
theorem discardDylib_induction {P : Jit → Prop} (hrelease : ∀ j e, P j → P (j.release e))
    (hdylibs : ∀ j dylibs, P j → P { j with dylibs }) (d : Ref .dylib) (hstart : P j) :
    P (j.discardDylib d) :=
  hdylibs _ _ (List.foldlRecOn _ _ hstart fun j hj e _ => hrelease j e hj)

/-- What removing a dylib preserves, disposing of a session preserves, if it does not matter which
sessions there are. -/
theorem disposeSession_induction {P : Jit → Prop} (hdiscard : ∀ j d, P j → P (j.discardDylib d))
    (hsessions : ∀ j sessions, P j → P { j with sessions }) (s : Handle .session) (hstart : P j) :
    P (j.disposeSession s) := by
  cases s with
  | none => exact hstart
  | some s => exact hsessions _ _ (List.foldlRecOn _ _ hstart fun j hj d _ => hdiscard j d hj)

/-- Removing a dylib takes no pointers from consumers. -/
theorem pointers_discardDylib (j : Jit) (d : Ref .dylib) :
    (j.discardDylib d).pointers = j.pointers :=
  discardDylib_induction (P := fun j' => j'.pointers = j.pointers)
    (fun _ _ heq => heq) (fun _ _ heq => heq) d rfl

/-! ## The books stay balanced

The operations, put together from their steps. -/

/-- Interning has nothing to do with dylibs. -/
theorem dylibs_internEntry (he : j.internEntry pool name = (e, j')) :
    j'.dylibs = j.dylibs := by
  obtain ⟨-, rfl⟩ | ⟨-, -, rfl⟩ := internEntry_cases he <;> rfl

namespace Balanced

/-- A dylib that is removed takes its pointers out of the books and out of the counts, -/
theorem discardDylib (hb : Balanced j loose) (d : Ref .dylib) :
    Balanced (j.discardDylib d) loose := by
  cases hx : j.dylibs.get? d with
  | none =>
    rw [discardDylib_of_none hx]
    exact hb
  | some x =>
    rw [discardDylib_of_get? hx]
    exact (hb.eraseDylib hx).releaseAll

/-- and so does a session with all its dylibs. -/
theorem disposeSession (hb : Balanced j loose) (s : Handle .session) :
    Balanced (j.disposeSession s) loose :=
  disposeSession_induction (P := fun j => Balanced j loose) (fun _ d hb => hb.discardDylib d)
    (fun _ _ hb => hb.of_perm rfl (.refl _)) s hb

/-- A dylib has no pointers at first. -/
theorem createDylib (hb : Balanced j loose) (s : Ref .session) (pool : Ref .pool)
    (name : String) :
    Balanced { j with dylibs := (j.dylibs.alloc { session := s, pool, name }).2 } loose := by
  refine hb.of_perm rfl (.of_eq ?_)
  simp [held, Arena.alloc]

end Balanced

/-- **Every step keeps the books balanced.** A definition is the longest chain: the name is
interned, which leaves one pointer loose, another is made for the dylib and kept there, and the
first is handed out. -/
theorem balanced_step (hs : Step j a j' rs) (hb : Balanced j []) : Balanced j' [] := by
  cases hs with
  | createSession => exact hb.of_perm rfl (.refl _)
  | disposeSession s => exact hb.disposeSession (some s)
  | createDylib => exact hb.createDylib ..
  | removeDylib => exact hb.discardDylib _
  | @define _ x _ e j' hx he =>
    have hb' := hb.internEntry he
    -- the loose pointer keeps the entry alive while it is retained again
    obtain ⟨y, hy, -⟩ := hb'.get?_of_mem (e := e) (by simp)
    rw [← dylibs_internEntry he] at hx
    exact ((hb'.retain hy).keep hx).handOut
  | intern he => exact (hb.internEntry he).handOut
  | clonePointer hx =>
    obtain ⟨y, hy, -⟩ := hb.get?_of_mem (List.mem_append_left _ (mem_held_of_pointer hx))
    exact (hb.retain hy).handOut
  | dropPointer hx => exact (hb.takeBack hx).release
  | clearDeadEntries pool => exact hb.clearDeadEntries pool
  | none => exact hb

/-- So they are balanced after every run -/
theorem balanced_run (actions : List Action) (hb : Balanced j []) : Balanced (j.run actions) [] :=
  run_invariant (P := fun j _ => Balanced j []) (h := [])
    (fun _ _ _ _ _ hs hb => balanced_step hs hb) actions hb

/-- from the beginning on. -/
theorem balanced_initial : Balanced initial [] where
  unique he := nomatch he
  count _ := rfl

end ForeignHandles.Jit
