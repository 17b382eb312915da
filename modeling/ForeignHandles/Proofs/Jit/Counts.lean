import Mathlib.Data.List.Nodup
import ForeignHandles.Proofs.Jit.Documented

/-!
  Reference counts of symbols are exact.

  `CountsExact` says it for one state.  Pools and pointers are as they should be: one entry for a
  name, and every pointer to an entry that is there, under the name it is on record for.  Counts are
  exact: an entry counts its pointers, what drops pointers counts off just these, and clearing a
  pool removes the entries without a pointer.  And entries stay what they are: a name that is
  interned again has its old entry until the pool is cleared, and a new one after that.

  Every state that a run can reach is one of these (`counts_exact`).

  The invariant behind it is that the books are balanced (`Balanced`): what is held and what is
  counted are the same pointers. Most clauses are read off two balanced states, one before and one
  after, and what goes from the one goes from the other (`count_of_perm`).
-/
namespace ForeignHandles.Jit

variable {j j' : Jit} {d : Ref .dylib} {e : Ref .poolEntry} {pool : Ref .pool} {name : String}

/-- The pools of `j` and the pointers into them are in order; `h` is what is on record. -/
structure CountsExact (j : Jit) (h : List Record) : Prop where
  /-- A pool has one entry for a name. -/
  unique : ∀ pool, ((j.entriesOf pool).map (·.2.name)).Nodup
  /-- A consumer's pointer is on record, and it is to the entry of the name it was handed out
  for. -/
  pointer : ∀ {r x}, j.pointers.get? r = some x →
    (∃ key, .handed r key ∈ h) ∧
      ∀ pool name, .handed r (pool, name) ∈ h → j.entry? pool name = some x.entry
  /-- A dylib's pointers are to the entries of the symbols that it has defined. -/
  symbols : ∀ {d x}, j.dylibs.get? d = some x →
    x.symbols.map some = (definitions d h).map (fun symbol => j.entry? x.pool symbol)
  /-- The count of an entry is the number of pointers to it. -/
  count : ∀ {e x}, j.entries.get? e = some x → x.count = j.holders e
  /-- Dropping a pointer counts off one. -/
  drop : ∀ {r x}, j.pointers.get? r = some x → ∀ e,
    j.refCount (some e) = (j.dropPointer r).refCount (some e) + [x.entry].count e
  /-- Removing a dylib counts off its pointers. -/
  discard : ∀ {d x}, j.dylibs.get? d = some x → ∀ e,
    j.refCount (some e) = (j.discardDylib d).refCount (some e) + x.symbols.count e
  /-- Disposing of a session counts off the pointers of its dylibs. -/
  dispose : ∀ s e, j.refCount (some e) =
    (j.disposeSession (some s)).refCount (some e) +
      ((j.dylibsOf s).flatMap (·.2.symbols)).count e
  /-- Clearing a pool removes those of its entries that have no pointer, and no others. -/
  clear : ∀ pool e, (j.clearDeadEntries pool).entries.get? e =
    (j.entries.get? e).filter (fun x => x.pool ≠ pool || 0 < j.holders e)
  /-- Until its pool is cleared, a name has the same entry, pointers or not. -/
  again : ∀ {e x}, j.entries.get? e = some x → ∀ actions,
    (∀ a ∈ actions, a ≠ .clearDeadEntries x.pool) →
      ((j.run actions).intern x.pool x.name).2.pointers.get?
        ((j.run actions).intern x.pool x.name).1 = some { entry := e }
  /-- Once the pool has been cleared of an entry, its name has another, which is new. -/
  afresh : ∀ {e x}, j.entries.get? e = some x → j.holders e = 0 → ∀ actions,
    ∃ e', j.entries.next ≤ e'.index ∧
      (((j.clearDeadEntries x.pool).run actions).intern x.pool x.name).2.pointers.get?
        (((j.clearDeadEntries x.pool).run actions).intern x.pool x.name).1 = some { entry := e' }

/-! ## What is held after a disposal

Disposing of a session removes its dylibs one by one. What they held is what they all had
together, in whatever order it is counted off. -/

/-- Dylibs that are removed are no longer there, -/
theorem dylibs_foldl_discardDylib (ds : List (Ref .dylib)) (j : Jit) :
    (ds.foldl discardDylib j).dylibs.items = j.dylibs.items.filter (fun p => p.1 ∉ ds) := by
  induction ds generalizing j with
  | nil => simp
  | cons d ds ih =>
    rw [List.foldl_cons, ih]
    simp only [discardDylib, Arena.erase, Arena.filter, List.filter_filter]
    refine List.filter_congr fun p _ => ?_
    simp [Bool.and_comm]

/-- so after a session has been disposed of, there are those of the other sessions. -/
theorem dylibs_disposeSession (j : Jit) (s : Ref .session) :
    (j.disposeSession (some s)).dylibs.items =
      j.dylibs.items.filter (fun p => p.2.session ≠ s) := by
  rw [disposeSession, dylibs_foldl_discardDylib]
  refine List.filter_congr fun p hp => ?_
  -- the dylibs that are removed are those of the session
  have hmem : p.1 ∈ (j.dylibsOf s).map (·.1) ↔ p.2.session = s := by
    refine ⟨fun hm => ?_, fun hs => List.mem_map_of_mem (List.mem_filter.2 ⟨hp, by simpa using hs⟩)⟩
    obtain ⟨q, hq, heq⟩ := List.mem_map.1 hm
    obtain ⟨hq, hs⟩ := List.mem_filter.1 hq
    have hsame : some p.2 = some q.2 := by
      rw [← (j.dylibs.mem_items_iff _ _).1 hp, ← (j.dylibs.mem_items_iff _ _).1 hq, heq]
    rw [Option.some.inj hsame]
    simpa using hs
  simp [hmem]

/-- Consumers' pointers stay. -/
theorem pointers_disposeSession (j : Jit) (s : Handle .session) :
    (j.disposeSession s).pointers = j.pointers :=
  disposeSession_induction (P := fun j' => j'.pointers = j.pointers)
    (fun j' d heq => (pointers_discardDylib j' d).trans heq) (fun _ _ heq => heq) s rfl

/-- What was held is what the dylibs of the session held and what is held still. -/
theorem held_disposeSession (j : Jit) (s : Ref .session) :
    j.held.Perm ((j.dylibsOf s).flatMap (·.2.symbols) ++ (j.disposeSession (some s)).held) := by
  have hsplit := (List.filter_append_perm (fun p => decide (p.2.session = s))
    j.dylibs.items).symm.flatMap_right (·.2.symbols)
  rw [List.flatMap_append] at hsplit
  have hrest : j.dylibs.items.filter (fun p => !decide (p.2.session = s)) =
      (j.disposeSession (some s)).dylibs.items := by
    rw [dylibs_disposeSession]
    exact List.filter_congr fun p _ => by simp
  rw [hrest] at hsplit
  rw [held, held, pointers_disposeSession]
  exact (hsplit.append_left _).trans (List.perm_append_comm_assoc ..)

/-! ## Counts of balanced books

In these, no pointer is under way: every pointer is either with a consumer or with a dylib. -/

namespace Balanced

/-- The count of an entry is the number of pointers to it. -/
theorem count_holders (hb : Balanced j []) (e : Ref .poolEntry) :
    j.refCount (some e) = j.holders e := by
  rw [hb.count, List.append_nil, holders]

/-- What goes from the held pointers goes from the counts. -/
theorem count_of_perm (hb : Balanced j []) (hb' : Balanced j' []) {es : List (Ref .poolEntry)}
    (hperm : j.held.Perm (es ++ j'.held)) (e : Ref .poolEntry) :
    j.refCount (some e) = j'.refCount (some e) + es.count e := by
  rw [hb.count_holders, hb'.count_holders, holders, holders, hperm.count_eq, List.count_append,
    Nat.add_comm]

/-- Dropping a pointer counts off one, -/
theorem count_drop (hb : Balanced j []) {r : Ref .symbolPointer} {x : SymbolPointer}
    (hx : j.pointers.get? r = some x) (e : Ref .poolEntry) :
    j.refCount (some e) = (j.dropPointer r).refCount (some e) + [x.entry].count e := by
  -- the books are balanced before and after
  have hb' := balanced_step (j.step_act (.dropPointer r)) hb
  have heq : (j.dropPointer r).held = held { j with pointers := j.pointers.erase r } := by
    rw [dropPointer, hx]
    rfl
  refine hb.count_of_perm hb' ?_ e
  rw [act, heq]
  exact held_takeBack hx

/-- and removing a dylib those that it holds. -/
theorem count_discard (hb : Balanced j []) {x : Dylib} (hx : j.dylibs.get? d = some x)
    (e : Ref .poolEntry) :
    j.refCount (some e) = (j.discardDylib d).refCount (some e) + x.symbols.count e := by
  have heq : (j.discardDylib d).held = held { j with dylibs := j.dylibs.erase d } := by
    rw [held, held, pointers_discardDylib]
    rfl
  refine hb.count_of_perm (hb.discardDylib d) ?_ e
  rw [heq]
  exact held_eraseDylib hx

/-- Entries without a pointer go when their pool is cleared. -/
theorem get?_clearDeadEntries (hb : Balanced j []) (pool : Ref .pool) (e : Ref .poolEntry) :
    (j.clearDeadEntries pool).entries.get? e =
      (j.entries.get? e).filter (fun x => x.pool ≠ pool || 0 < j.holders e) := by
  rw [Jit.get?_clearDeadEntries]
  cases hx : j.entries.get? e with
  | none => rfl
  | some x => rw [Option.filter_some, Option.filter_some, ← hb.count_holders, refCount_of_get? hx]

/-- Entries with these names are the entries that are found by them, -/
theorem entry?_of_keys (hb : Balanced j []) {es : List (Ref .poolEntry)} {names : List String}
    (h : es.map j.key? = names.map (fun name => some (pool, name))) :
    es.map some = names.map (fun name => j.entry? pool name) := by
  induction es generalizing names with
  | nil =>
    cases names with
    | nil => rfl
    | cons name names => cases h
  | cons e es ih =>
    cases names with
    | nil => cases h
    | cons name names =>
      obtain ⟨hkey, hrest⟩ := List.cons.inj h
      rw [List.map_cons, List.map_cons, ih hrest, hb.entry?_of_key? hkey]

/-- for there are no two with the same name. -/
theorem nodup_names (hb : Balanced j []) (pool : Ref .pool) :
    ((j.entriesOf pool).map (·.2.name)).Nodup := by
  have hkey {p : Ref .poolEntry × PoolEntry} (hp : p ∈ j.entriesOf pool) :
      j.key? p.1 = some (pool, p.2.name) := by
    obtain ⟨hp, hpool⟩ := List.mem_filter.1 hp
    rw [key?, (j.entries.mem_items_iff p.1 p.2).1 hp, Option.map_some, PoolEntry.key,
      of_decide_eq_true hpool]
  refine List.Nodup.map_on (fun p hp q hq hname => ?_) (j.entries.nodup_items.filter _)
  -- two entries of a pool with one name have one key
  have hsame : p.1 = q.1 := hb.unique (hkey hp) (by rw [hkey hq, hname])
  have hget := (j.entries.mem_items_iff p.1 p.2).1 (List.mem_filter.1 hp).1
  rw [hsame, (j.entries.mem_items_iff q.1 q.2).1 (List.mem_filter.1 hq).1] at hget
  exact Prod.ext hsame (Option.some.inj hget).symm

end Balanced

/-! ## A name that is interned again

Entries are found by their names, and clearing a pool is the only way to lose one. Numbers of
entries are not given back, so an entry that is made after that is a new one. -/

/-- The pointer that interning hands out is to the entry it has found or made. -/
theorem pointer_intern (he : j.internEntry pool name = (e, j')) :
    (j.intern pool name).2.pointers.get? (j.intern pool name).1 = some { entry := e } := by
  simp only [intern, he, handOut, Arena.get?_alloc, if_pos]

namespace Balanced

/-- A name keeps its entry until the pool is cleared. -/
theorem intern_again (hb : Balanced j []) {x : PoolEntry} (hx : j.entries.get? e = some x)
    {actions : List Action} (ha : ∀ a ∈ actions, a ≠ .clearDeadEntries x.pool) :
    ((j.run actions).intern x.pool x.name).2.pointers.get?
      ((j.run actions).intern x.pool x.name).1 = some { entry := e } := by
  have hb' := balanced_run actions hb
  have hkey : j.key? e = some (x.pool, x.name) := by rw [key?, hx, Option.map_some, PoolEntry.key]
  -- the entry is there still, and is found
  have hfound := hb'.entry?_of_key? (key?_run actions ha hkey)
  exact pointer_intern (by rw [Jit.internEntry, hfound])

/-- After that it gets another one, unless somebody holds a pointer. -/
theorem intern_afresh (hb : Balanced j []) {x : PoolEntry} (hx : j.entries.get? e = some x)
    (hnone : j.holders e = 0) (actions : List Action) :
    ∃ e', j.entries.next ≤ e'.index ∧
      (((j.clearDeadEntries x.pool).run actions).intern x.pool x.name).2.pointers.get?
        (((j.clearDeadEntries x.pool).run actions).intern x.pool x.name).1 =
          some { entry := e' } := by
  have hages := ages_run (j.clearDeadEntries x.pool) actions
  generalize (j.clearDeadEntries x.pool).run actions = j' at hages ⊢
  rcases he : j'.internEntry x.pool x.name with ⟨e', j''⟩
  refine ⟨e', ?_, pointer_intern he⟩
  obtain ⟨hfound, -⟩ | ⟨-, rfl, -⟩ := internEntry_cases he
  · -- an old entry with this key would be `e`, but that has been removed
    refine Nat.not_lt.1 fun hlt => ?_
    obtain ⟨y, hy, hkey⟩ := Option.map_eq_some_iff.1 (key?_of_found hfound)
    have hold := hages.old hy hlt
    rw [hb.get?_clearDeadEntries, hkey] at hold
    obtain ⟨z, hz, hzkey⟩ := Option.map_eq_some_iff.1 hold
    obtain ⟨hz, hkeep⟩ := Option.filter_eq_some_iff.1 hz
    have hkey' : j.key? e' = some (x.pool, x.name) := by rw [key?, hz, Option.map_some, hzkey]
    have hkey : j.key? e = some (x.pool, x.name) := by
      rw [key?, hx, Option.map_some, PoolEntry.key]
    obtain rfl : e' = e := hb.unique hkey' hkey
    obtain rfl : x = z := by simpa [hx] using hz
    simp [hnone] at hkeep
  · exact hages.next_le

end Balanced

/-- **Exact counts.** Whatever happens to sessions, every state on the way has its pools in order:
the count of an entry is the number of pointers to it that consumers and dylibs hold.

Two invariants carry this, kept by every single action.  In the state, the books balance: an entry
counts as many pointers as there are holders of it (`Balanced`).  In the record, everything that was
ever handed out or defined is put down with the key that it had (`Documented`).  The clauses about
pointers are read off the record, and all others off the books. -/
theorem counts_exact (actions : List Action) :
    CountsExact (initial.run actions) (initial.history actions) := by
  obtain ⟨hb, hd⟩ := books_run actions balanced_initial documented_initial
  rw [List.nil_append] at hd
  exact {
    unique := hb.nodup_names
    pointer := fun hx => ⟨hd.handed hx, fun pool name hm =>
      hb.entry?_of_key? (hd.handed_key hm hx)⟩
    symbols := fun hx => hb.entry?_of_keys (hd.defined_keys hx)
    count := fun hx => by rw [← refCount_of_get? hx, hb.count_holders]
    drop := hb.count_drop
    discard := hb.count_discard
    dispose := fun s e => hb.count_of_perm (hb.disposeSession (some s)) (held_disposeSession _ s) e
    clear := hb.get?_clearDeadEntries
    again := fun hx actions ha => hb.intern_again hx ha
    afresh := fun hx hnone actions => hb.intern_afresh hx hnone actions }

/-- A dylib and a clone keep the entry of a symbol, and another entry has lost its only pointer. -/
def lingering : List Action :=
  [.createSession, .createDylib ⟨0⟩ "main", .define ⟨0⟩ "entry", .clonePointer ⟨0⟩,
    .dropPointer ⟨0⟩, .intern ⟨0⟩ "draw", .dropPointer ⟨2⟩]

/-- The session after that. -/
def lingered : Jit := initial.run lingering

/-- One entry is held by a dylib and by a clone; the other one has no pointer, stays until the
pool is cleared, and goes then. -/
theorem lingering_counts_exact :
    lingered.refCount (some ⟨0⟩) = 2 ∧ lingered.refCount (some ⟨1⟩) = 0 ∧
      lingered.entry? ⟨0⟩ "draw" = some ⟨1⟩ ∧
      Jit.entry? (lingered.clearDeadEntries ⟨0⟩) ⟨0⟩ "draw" = none ∧
      CountsExact lingered (initial.history lingering) :=
  ⟨by decide, by decide, by decide, by decide, counts_exact lingering⟩

end ForeignHandles.Jit
