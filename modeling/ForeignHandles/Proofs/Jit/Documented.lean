import ForeignHandles.Proofs.Jit.Balance

/-!
  Pointers and the names that they were handed out for.

  An entry keeps its key as long as it is there, and a new entry has a new reference
  (`Ages PoolEntry.key`).  Only clearing its pool removes an entry (`key?_step`).

  `Documented` ties the pointers of a state to the record of a run: a pointer that a consumer holds
  is to the entry of the name that it was handed out for, and those that a dylib holds are to the
  entries of the names that it has defined, in order.  The books have to balance for that, as an
  entry that is pointed to must not go away.

  The record says under which name a pointer was handed out and which names a dylib has defined, and
  it never forgets. The state has entries, which may go. What links the two is that the key of an
  entry does not change while it is there, and that it is there as long as something points to it.
  The first is a matter of the entries alone (`ages_step`), the second of the balance of the books,
  which is why a balanced state is a hypothesis nearly everywhere.

  An action either leaves the pointers that there are alone, or hands out one more, or has a dylib
  keep one more: `later`, `handOut` and `keep`. Every action is put together from these.
-/
namespace ForeignHandles.Jit

open Arena (Ages)

variable {j j' : Jit} {a : Action} {h rs : List Record} {d : Ref .dylib} {e : Ref .poolEntry}
  {pool : Ref .pool} {name : String} {loose : List (Ref .poolEntry)}

/-! ## Entries over time

An entry is known by its pool and its name together, its key. The count beside them changes all
the time, and nothing here is about it: all lemmas are about what is left of an entry when the
count is disregarded. -/

/-- Counting up changes no key, -/
theorem ages_retain (j : Jit) (e : Ref .poolEntry) :
    Ages PoolEntry.key j.entries (j.retain e).entries :=
  Ages.modify j.entries e (f := fun x => { x with count := x.count + 1 }) fun _ => rfl

/-- and neither does counting down, even to zero: an entry stays until its pool is cleared. -/
theorem ages_release (j : Jit) (e : Ref .poolEntry) :
    Ages PoolEntry.key j.entries (j.release e).entries :=
  Ages.modify j.entries e (f := fun x => { x with count := x.count - 1 }) fun _ => rfl

/-- Interning counts an entry up or makes a new one. -/
theorem ages_internEntry (he : j.internEntry pool name = (e, j')) :
    Ages PoolEntry.key j.entries j'.entries := by
  obtain ⟨-, rfl⟩ | ⟨-, -, rfl⟩ := internEntry_cases he
  · exact ages_retain ..
  · exact .alloc ..

/-- A dylib that goes counts its entries down, one by one. -/
theorem ages_discardDylib (j : Jit) (d : Ref .dylib) :
    Ages PoolEntry.key j.entries (j.discardDylib d).entries :=
  discardDylib_induction (P := fun j' => Ages PoolEntry.key j.entries j'.entries)
    (fun j' e hages => hages.trans (ages_release j' e)) (fun _ _ hages => hages) d (.refl ..)

/-- A session that goes discards its dylibs, one by one. -/
theorem ages_disposeSession (j : Jit) (s : Handle .session) :
    Ages PoolEntry.key j.entries (j.disposeSession s).entries :=
  disposeSession_induction (P := fun j' => Ages PoolEntry.key j.entries j'.entries)
    (fun j' d hages => hages.trans (ages_discardDylib j' d)) (fun _ _ hages => hages) s (.refl ..)

/-- An action leaves the key of an entry alone. -/
theorem ages_step (hs : Step j a j' rs) : Ages PoolEntry.key j.entries j'.entries := by
  cases hs with
  | createSession => exact .refl ..
  | disposeSession s => exact ages_disposeSession j (some s)
  | createDylib => exact .refl ..
  | removeDylib => exact ages_discardDylib j _
  | @define _ _ _ _ j' _ he => exact (ages_internEntry he).trans (ages_retain j' _)
  | @intern _ _ _ j' he =>
    have hages : Ages PoolEntry.key j.entries j'.entries := ages_internEntry he
    exact hages
  | clonePointer => exact ages_retain j _
  | dropPointer => exact ages_release j _
  | clearDeadEntries =>
    simp only [clearDeadEntries]
    exact .filter ..
  | none => exact .refl ..

/-- Hence a run leaves the key of an entry alone. -/
theorem ages_run (j : Jit) (actions : List Action) :
    Ages PoolEntry.key j.entries (j.run actions).entries :=
  run_invariant (P := fun j' _ => Ages PoolEntry.key j.entries j'.entries) (h := [])
    (fun _ _ _ _ _ hs hages => hages.trans (ages_step hs)) actions (.refl ..)

/-- An entry that is there in two states has the same key in both. -/
theorem key?_of_ages {key : Ref .pool × String} (hages : Ages PoolEntry.key j.entries j'.entries)
    (hkey : j.key? e = some key) {y : PoolEntry} (hy : j'.entries.get? e = some y) :
    j'.key? e = some key := by
  obtain ⟨x, hx, -⟩ := Option.map_eq_some_iff.1 hkey
  have hsame : j.key? e = some y.key := hages.old hy (Arena.index_lt_next_of_get? hx)
  rw [← hkey, hsame, key?, hy, Option.map_some]

/-- Discarding a dylib removes no entry, -/
@[simp] theorem key?_discardDylib (j : Jit) (d : Ref .dylib) (e : Ref .poolEntry) :
    (j.discardDylib d).key? e = j.key? e :=
  discardDylib_induction (P := fun j' => j'.key? e = j.key? e)
    (fun j' e' heq => (key?_release j' e' e).trans heq) (fun _ _ heq => heq) d rfl

/-- and neither does disposing of a session: entries are kept until somebody clears the pool. -/
@[simp] theorem key?_disposeSession (j : Jit) (s : Handle .session) (e : Ref .poolEntry) :
    (j.disposeSession s).key? e = j.key? e :=
  disposeSession_induction (P := fun j' => j'.key? e = j.key? e)
    (fun j' d heq => (key?_discardDylib j' d e).trans heq) (fun _ _ heq => heq) s rfl

/-- Interning removes no entry, and a new one takes no reference of an old one. -/
theorem key?_internEntry_of_key? {key : Ref .pool × String}
    (he : j.internEntry pool name = (e, j')) {e' : Ref .poolEntry} (hkey : j.key? e' = some key) :
    j'.key? e' = some key := by
  obtain ⟨-, rfl⟩ | ⟨-, -, rfl⟩ := internEntry_cases he
  · rw [key?_retain, hkey]
  · obtain ⟨x, hx, -⟩ := Option.map_eq_some_iff.1 hkey
    have hne : e' ≠ (j.entries.alloc { pool, name, count := 1 }).1 := by
      rintro rfl
      exact Nat.lt_irrefl _ (Arena.index_lt_next_of_get? hx)
    rw [key?_alloc, if_neg hne, hkey]

/-- Interning brings the entry for the name. -/
theorem key?_internEntry (he : j.internEntry pool name = (e, j')) :
    j'.key? e = some (pool, name) := by
  obtain ⟨hfound, rfl⟩ | ⟨-, rfl, rfl⟩ := internEntry_cases he
  · rw [key?_retain, key?_of_found hfound]
  · rw [key?_alloc, if_pos rfl, PoolEntry.key]

/-- Only clearing its pool removes an entry. -/
theorem key?_step (hs : Step j a j' rs) (ha : a ≠ .clearDeadEntries pool)
    (hkey : j.key? e = some (pool, name)) : j'.key? e = some (pool, name) := by
  cases hs with
  | createSession => exact hkey
  | disposeSession s => rwa [key?_disposeSession]
  | createDylib => exact hkey
  | removeDylib => rwa [key?_discardDylib]
  | define _ he => exact (key?_retain ..).trans (key?_internEntry_of_key? he hkey)
  | intern he => exact key?_internEntry_of_key? he hkey
  | clonePointer => exact (key?_retain ..).trans hkey
  | dropPointer => exact (key?_release ..).trans hkey
  | clearDeadEntries pool' =>
    obtain ⟨x, hx, hk⟩ := Option.map_eq_some_iff.1 hkey
    -- another pool is cleared
    have hpool : x.pool ≠ pool' := by
      rintro rfl
      exact ha (by rw [(Prod.mk.inj hk).1])
    rw [key?, get?_clearDeadEntries, hx, Option.filter_some_pos (by simp [hpool]),
      Option.map_some, hk]
  | none => exact hkey

/-- So in a run in which its pool is not cleared an entry is there to the end, with its key. -/
theorem key?_run (actions : List Action) (ha : ∀ a ∈ actions, a ≠ .clearDeadEntries pool)
    (hkey : j.key? e = some (pool, name)) : (j.run actions).key? e = some (pool, name) := by
  induction actions generalizing j with
  | nil => exact hkey
  | cons a actions ih =>
    have hrest : ∀ a ∈ actions, a ≠ .clearDeadEntries pool :=
      fun a hm => ha a (List.mem_cons_of_mem _ hm)
    exact ih hrest (key?_step (j.step_act a) (ha a List.mem_cons_self) hkey)

/-! ## Pointers and the record

The four conditions below come in two pairs, one for pointers that consumers hold and one for
those that dylibs hold. In each pair the first says that what is on record is old, which is why a
new pointer can never be mistaken for one on record; the others tie what is there to what is on
record. -/

/-- The pointers of `j` are to the entries of the names that `h` says. What is on record has a
reference that was handed out, what is there is on record, and the keys agree. -/
structure Documented (j : Jit) (h : List Record) : Prop where
  handed_next : ∀ {r key}, .handed r key ∈ h → r.index < j.pointers.next
  handed : ∀ {r x}, j.pointers.get? r = some x → ∃ key, .handed r key ∈ h
  handed_key : ∀ {r key x}, .handed r key ∈ h → j.pointers.get? r = some x →
    j.key? x.entry = some key
  defined_next : ∀ {d symbol}, .defined d symbol ∈ h → d.index < j.dylibs.next
  defined_keys : ∀ {d x}, j.dylibs.get? d = some x →
    x.symbols.map j.key? = (definitions d h).map (fun symbol => some (x.pool, symbol))

/-- A dylib of which nothing is on record has defined nothing. -/
theorem definitions_eq_nil (hnot : ∀ symbol, .defined d symbol ∉ h) : definitions d h = [] := by
  refine List.filterMap_eq_nil_iff.2 fun record hm => ?_
  cases record with
  | handed r key => rfl
  | defined d' symbol =>
    have hne : d' ≠ d := by
      rintro rfl
      exact hnot symbol hm
    exact if_neg hne

namespace Documented

/-- Pointers that are still there are documented still, and a new dylib has none. -/
theorem later (hd : Documented j h) (hb' : Balanced j' loose)
    (hentries : Ages PoolEntry.key j.entries j'.entries)
    (hnext : j.pointers.next ≤ j'.pointers.next)
    (hpointers : ∀ {r x}, j'.pointers.get? r = some x → j.pointers.get? r = some x)
    (hdnext : j.dylibs.next ≤ j'.dylibs.next)
    (hdylibs : ∀ {d x}, j'.dylibs.get? d = some x →
      j.dylibs.get? d = some x ∨ j.dylibs.next ≤ d.index ∧ x.symbols = []) :
    Documented j' h where
  handed_next hm := Nat.lt_of_lt_of_le (hd.handed_next hm) hnext
  handed hx := hd.handed (hpointers hx)
  handed_key {r key x} hm hx := by
    -- an entry that is pointed to is there, because the books balance
    obtain ⟨y, hy, -⟩ := hb'.get?_of_mem (List.mem_append_left _ (mem_held_of_pointer hx))
    exact key?_of_ages hentries (hd.handed_key hm (hpointers hx)) hy
  defined_next hm := Nat.lt_of_lt_of_le (hd.defined_next hm) hdnext
  defined_keys {d x} hx := by
    -- a dylib that was there, whose entries are still there, or a new one without symbols
    rcases hdylibs hx with hold | ⟨hnew, hnil⟩
    · rw [← hd.defined_keys hold]
      refine List.map_congr_left fun e he => ?_
      obtain ⟨y, hy, -⟩ := hb'.get?_of_mem (List.mem_append_left _ (mem_held_of_symbol hx he))
      have hkey : j.key? e ∈ x.symbols.map j.key? := List.mem_map_of_mem he
      rw [hd.defined_keys hold] at hkey
      obtain ⟨symbol, -, hsymbol⟩ := List.mem_map.1 hkey
      rw [← hsymbol]
      exact key?_of_ages hentries hsymbol.symm hy
    -- nothing can be on record of a dylib that was not there yet
    · have hnone : definitions d h = [] :=
        definitions_eq_nil fun symbol hm => Nat.not_lt.2 hnew (hd.defined_next hm)
      rw [hnil, hnone]
      rfl

/-- Entries may change if they keep their keys and the books balance. -/
theorem ofEntries (hd : Documented j h) (hb' : Balanced j' loose)
    (hentries : Ages PoolEntry.key j.entries j'.entries)
    (hpointers : j'.pointers = j.pointers) (hdylibs : j'.dylibs = j.dylibs) : Documented j' h :=
  hd.later hb' hentries (Nat.le_of_eq (by rw [hpointers])) (fun hx => hpointers ▸ hx)
    (Nat.le_of_eq (by rw [hdylibs])) fun hx => .inl (hdylibs ▸ hx)

/-- Counting up documents nothing new. -/
theorem retain (hd : Documented j h) (hb' : Balanced (j.retain e) loose) :
    Documented (j.retain e) h := hd.ofEntries hb' (ages_retain j e) rfl rfl

/-- Interning changes entries alone. -/
theorem internEntry (hd : Documented j h) (hb' : Balanced j' loose)
    (he : j.internEntry pool name = (e, j')) : Documented j' h := by
  have hages := ages_internEntry he
  obtain ⟨-, rfl⟩ | ⟨-, -, rfl⟩ := internEntry_cases he <;> exact hd.ofEntries hb' hages rfl rfl

/-- A pointer goes on record as it is handed out. -/
theorem handOut (hd : Documented j h) {key : Ref .pool × String} (hkey : j.key? e = some key) :
    Documented (j.handOut e).2 (h ++ [.handed ⟨j.pointers.next⟩ key]) where
  handed_next {r key'} hm := by
    rcases List.mem_append.1 hm with hold | hnew
    · exact Nat.lt_succ_of_lt (hd.handed_next hold)
    · obtain ⟨rfl, -⟩ : r = ⟨j.pointers.next⟩ ∧ key' = key := by simpa using hnew
      exact Nat.lt_succ_self _
  handed {r x} hx := by
    rw [Jit.handOut, Arena.get?_alloc] at hx
    split at hx
    next hr => exact ⟨key, List.mem_append_right _ (by simp [hr, Arena.alloc])⟩
    next =>
      obtain ⟨key', hm⟩ := hd.handed hx
      exact ⟨key', List.mem_append_left _ hm⟩
  handed_key {r key' x} hm hx := by
    rw [Jit.handOut, Arena.get?_alloc] at hx
    rcases List.mem_append.1 hm with hold | hnew
    -- what is on record from before is about an older pointer
    · have hne : r ≠ (j.pointers.alloc { entry := e }).1 := by
        rintro rfl
        exact Nat.lt_irrefl _ (hd.handed_next hold)
      rw [if_neg hne] at hx
      exact hd.handed_key hold hx
    · obtain ⟨rfl, rfl⟩ : r = ⟨j.pointers.next⟩ ∧ key' = key := by simpa using hnew
      obtain rfl : ({ entry := e } : SymbolPointer) = x := by simpa [Arena.alloc] using hx
      exact hkey
  defined_next hm := by
    rcases List.mem_append.1 hm with hold | hnew
    · exact hd.defined_next hold
    · simp at hnew
  defined_keys hx := by
    rw [definitions_append]
    exact (hd.defined_keys hx).trans (by simp [definitions])

/-- A symbol goes on record as a dylib keeps a pointer to its name. -/
theorem keep (hd : Documented j h) {x : Dylib} (hx : j.dylibs.get? d = some x) {symbol : String}
    (hkey : j.key? e = some (x.pool, symbol)) :
    Documented { j with
      dylibs := j.dylibs.modify d (fun y => { y with symbols := y.symbols ++ [e] }) }
      (h ++ [.defined d symbol]) where
  handed_next hm := by
    rcases List.mem_append.1 hm with hold | hnew
    · exact hd.handed_next hold
    · simp at hnew
  handed hx := by
    obtain ⟨key, hm⟩ := hd.handed hx
    exact ⟨key, List.mem_append_left _ hm⟩
  handed_key hm hx := by
    rcases List.mem_append.1 hm with hold | hnew
    · exact hd.handed_key hold hx
    · simp at hnew
  defined_next {d' symbol'} hm := by
    rcases List.mem_append.1 hm with hold | hnew
    · exact hd.defined_next hold
    · obtain ⟨rfl, -⟩ : d' = d ∧ symbol' = symbol := by simpa using hnew
      exact j.dylibs.index_lt_next_of_get? hx
  defined_keys {d' y} hy := by
    change y.symbols.map j.key? = _
    rw [Arena.get?_modify] at hy
    rw [definitions_append, List.map_append]
    by_cases hd' : d' = d
    · subst hd'
      obtain rfl : { x with symbols := x.symbols ++ [e] } = y := by simpa [hx] using hy
      rw [← hd.defined_keys hx]
      simpa [definitions] using hkey
    · have hne : ¬ d = d' := fun heq => hd' heq.symm
      rw [if_neg hd'] at hy
      rw [← hd.defined_keys hy]
      simp [definitions, hne]

/-- A dylib that goes leaves its record behind, and the pointers of consumers are as they were. -/
theorem discardDylib (hd : Documented j h) (hb : Balanced j loose) (d : Ref .dylib) :
    Documented (j.discardDylib d) h := by
  have hpointers := pointers_discardDylib j d
  refine hd.later (hb.discardDylib d) (ages_discardDylib j d)
    (Nat.le_of_eq (by rw [hpointers])) (fun hx => hpointers ▸ hx) (Nat.le_refl _) fun hx => .inl ?_
  exact Arena.get?_of_get?_erase (a := j.dylibs) hx

end Documented

/-- **An action keeps the record and the pointers in step.** What it puts on record is what it
hands out or defines. -/
theorem documented_step (hs : Step j a j' rs) (hb : Balanced j []) (hd : Documented j h) :
    Documented j' (h ++ rs) := by
  have hb' := balanced_step hs hb
  have hages := ages_step hs
  cases hs with
  | createSession =>
    rw [List.append_nil]
    exact hd.ofEntries hb' hages rfl rfl
  | disposeSession s =>
    rw [List.append_nil]
    -- dylib by dylib; each needs the books to balance, so both go through together
    refine (disposeSession_induction (P := fun j => Balanced j [] ∧ Documented j h)
      (fun _ d hj => ⟨hj.1.discardDylib d, hj.2.discardDylib hj.1 d⟩) (fun j sessions hj => ?_)
      (some s) ⟨hb, hd⟩).2
    have hsame : Balanced { j with sessions } [] := hj.1.of_perm rfl (.refl _)
    exact ⟨hsame, hj.2.ofEntries hsame (.refl ..) rfl rfl⟩
  | @createDylib _ s pool name =>
    rw [List.append_nil]
    refine hd.later hb' hages (Nat.le_refl _) (fun hx => hx) (Nat.le_succ _)
      fun {d x} hx => ?_
    rw [Arena.get?_alloc] at hx
    split at hx
    next hnew =>
      cases hx
      exact .inr ⟨by rw [hnew]; exact Nat.le_refl _, rfl⟩
    next => exact .inl hx
  | removeDylib =>
    rw [List.append_nil]
    exact hd.discardDylib hb _
  | @define d x symbol e j' hx he =>
    -- interning gives one pointer; the dylib keeps it, and a second one is handed out
    have hb₁ := hb.internEntry he
    obtain ⟨y, hy, -⟩ := hb₁.get?_of_mem (e := e) (by simp)
    have hb₂ := hb₁.retain hy
    have hd₂ := (hd.internEntry hb₁ he).retain hb₂
    -- counting up for the second pointer leaves the key that interning gave
    have hkey : (j'.retain e).key? e = some (x.pool, symbol) := by
      rw [key?_retain]
      exact key?_internEntry he
    rw [← dylibs_internEntry he] at hx
    have hd₃ := (hd₂.keep hx hkey).handOut (e := e) hkey
    rw [List.append_assoc] at hd₃
    exact hd₃
  | intern he => exact (hd.internEntry (hb.internEntry he) he).handOut (key?_internEntry he)
  | @clonePointer r x hx =>
    obtain ⟨y, hy, -⟩ := hb.get?_of_mem (List.mem_append_left _ (mem_held_of_pointer hx))
    have hkey : j.key? x.entry = some y.key := by rw [key?, hy, Option.map_some]
    have hd' := (hd.retain (hb.retain hy)).handOut (e := x.entry) ((key?_retain ..).trans hkey)
    rw [hkey]
    exact hd'
  | @dropPointer r x hx =>
    rw [List.append_nil]
    exact hd.later hb' hages (Nat.le_refl _) Arena.get?_of_get?_erase (Nat.le_refl _) .inl
  | clearDeadEntries =>
    rw [List.append_nil]
    exact hd.ofEntries hb' hages rfl rfl
  | none =>
    rw [List.append_nil]
    exact hd

/-- At the start there are no pointers and there is no record. -/
theorem documented_initial : Documented initial [] where
  handed_next hm := nomatch hm
  handed hx := nomatch hx
  handed_key hm := nomatch hm
  defined_next hm := nomatch hm
  defined_keys hx := nomatch hx

/-- The books balance after every run, and the pointers are those on record. -/
theorem books_run (actions : List Action) (hb : Balanced j []) (hd : Documented j h) :
    Balanced (j.run actions) [] ∧ Documented (j.run actions) (h ++ j.history actions) :=
  run_invariant (P := fun j h => Balanced j [] ∧ Documented j h)
    (fun _ _ _ _ _ hs hj => ⟨balanced_step hs hj.1, documented_step hs hj.1 hj.2⟩) actions
    ⟨hb, hd⟩

end ForeignHandles.Jit
