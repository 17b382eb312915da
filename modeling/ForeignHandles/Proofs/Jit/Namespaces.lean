import Mathlib.Data.List.Count
import ForeignHandles.Proofs.Arena
import ForeignHandles.Proofs.Jit.Counts
import ForeignHandles.Proofs.Text.Require

/-!
  The dylibs of a session are a namespace.

  All dylibs are in one arena.  Two of them never have the same session and name, their names are
  texts that a caller can say, and a dylib lives in a session that is there, on the pool of that
  session (`Homed`).  Only creating a dylib brings a new one; every other action removes some, or
  changes what they define (`Homed.of_kept`).

  With it a name stands for at most one dylib of a session, so creating and removing are decided by
  what is on the session's list (`Namespaces`).  What a removal counts off is read from the record of
  the run: one for each time that the dylib has defined a symbol.

  The host can make dylibs on its own, from names that it does not check. The theorem asks of those
  names only that a caller could have given them; a dylib without a name, for example, could not be
  told from the absence of a name.
-/
namespace ForeignHandles.Jit

variable {j j' : Jit} {a : Action} {h rs : List Record} {s : Ref .session} {d : Ref .dylib}
  {x : Dylib} {pool : Ref .pool} {name : String} {input : Input}

/-- A dylib is on the list of a session if it is there and belongs to it. -/
theorem mem_dylibsOf_iff : (d, x) ∈ j.dylibsOf s ↔ j.dylibs.get? d = some x ∧ x.session = s := by
  rw [dylibsOf, Arena.mem_select_iff, decide_eq_true_eq]

/-! ## The invariant

`Homed` is about the arena of dylibs and what it says of sessions. Nearly all actions satisfy one
condition (`Homed.of_kept`): whatever dylib is there afterwards was there before, with its
session, its name and its pool, and the pool of its session is the same. -/

/-- No two dylibs of a session have the same name, every name can be said, and every dylib is on the
pool of its session. -/
structure Homed (j : Jit) : Prop where
  keyed : j.dylibs.KeyedBy (fun x => (x.session, x.name))
  said : ∀ {d x}, j.dylibs.get? d = some x → ∃ input : Input, input.Says x.name
  home : ∀ {d x}, j.dylibs.get? d = some x → j.poolOf (some x.session) = some x.pool

/-- In the beginning there are no dylibs. -/
theorem homed_initial : Homed initial where
  keyed := .of_none fun _ => rfl
  said hx := nomatch hx
  home hx := nomatch hx

namespace Homed

/-- The dylibs that are left are still themselves, and so are their sessions. -/
theorem of_kept (hj : Homed j)
    (hkept : ∀ {d x'}, j'.dylibs.get? d = some x' → ∃ x, j.dylibs.get? d = some x ∧
      x'.session = x.session ∧ x'.name = x.name ∧ x'.pool = x.pool ∧
        j'.poolOf (some x.session) = j.poolOf (some x.session)) : Homed j' where
  keyed := by
    intro d₁ d₂ y₁ y₂ h₁ h₂ heq
    obtain ⟨x₁, hx₁, hs₁, hn₁, -⟩ := hkept h₁
    obtain ⟨x₂, hx₂, hs₂, hn₂, -⟩ := hkept h₂
    obtain ⟨hs, hn⟩ := Prod.mk.inj heq
    exact hj.keyed _ _ _ _ hx₁ hx₂
      (Prod.ext (hs₁.symm.trans (hs.trans hs₂)) (hn₁.symm.trans (hn.trans hn₂)))
  said hy := by
    obtain ⟨x, hx, -, hname, -⟩ := hkept hy
    rw [hname]
    exact hj.said hx
  home hy := by
    obtain ⟨x, hx, hs, -, hpool, hsame⟩ := hkept hy
    rw [hs, hpool, hsame]
    exact hj.home hx

/-- What does not write dylibs or sessions keeps the namespaces, -/
theorem of_eq (hj : Homed j) (hdylibs : j'.dylibs = j.dylibs) (hsessions : j'.sessions = j.sessions) :
    Homed j' :=
  hj.of_kept fun {d x} hx => ⟨x, hdylibs ▸ hx, rfl, rfl, rfl, by rw [poolOf, poolOf, hsessions]⟩

/-- and so does taking a dylib away. -/
theorem of_erase (hj : Homed j) (hdylibs : j'.dylibs = j.dylibs.erase d)
    (hsessions : j'.sessions = j.sessions) : Homed j' :=
  hj.of_kept fun {_ x} hx =>
    ⟨x, Arena.get?_of_get?_erase (hdylibs ▸ hx), rfl, rfl, rfl, by rw [poolOf, poolOf, hsessions]⟩

/-- A new dylib has a name that was free, and the pool of its session. -/
theorem createDylib (hj : Homed j) (hpool : j.poolOf (some s) = some pool)
    (hname : j.dylib? s name = none) (hsaid : ∃ input : Input, input.Says name) :
    Homed { j with dylibs := (j.dylibs.alloc { session := s, pool, name }).2 } where
  keyed := by
    refine hj.keyed.alloc fun d y hy heq => ?_
    have hnot := Arena.eq_false_of_find?_eq_none hname hy
    obtain ⟨hs, hn⟩ := Prod.mk.inj heq
    simp [hs, hn] at hnot
  said hx := by
    rcases Arena.get?_alloc_eq_some_iff.1 hx with ⟨-, rfl⟩ | hx
    · exact hsaid
    · exact hj.said hx
  home hx := by
    rcases Arena.get?_alloc_eq_some_iff.1 hx with ⟨-, rfl⟩ | hx
    · exact hpool
    · exact hj.home hx

/-- A new session has a pool of its own. No dylib is in it yet, so the sessions of the dylibs that
there are have the pools that they had. -/
theorem createSession (hj : Homed j) : Homed j.createSession.2 := by
  refine hj.of_kept fun {d x} hx => ⟨x, hx, rfl, rfl, rfl, ?_⟩
  obtain ⟨y, hy, -⟩ := Option.map_eq_some_iff.1 (hj.home hx)
  -- a dylib is in a session that was there
  have hold : x.session ≠ (j.sessions.alloc { pool := (j.pools.alloc ()).1 }).1 := by
    intro heq
    rw [Option.bind_some, heq, Arena.get?_alloc_fst] at hy
    cases hy
  simp only [poolOf, Option.bind_some, Jit.createSession]
  rw [Arena.get?_alloc, if_neg hold]

end Homed

/-- Discarding a dylib leaves sessions -/
theorem sessions_discardDylib (j : Jit) (d : Ref .dylib) :
    (j.discardDylib d).sessions = j.sessions :=
  discardDylib_induction (P := fun j' => j'.sessions = j.sessions)
    (fun _ _ heq => heq) (fun _ _ heq => heq) d rfl

/-- and pools alone, -/
theorem pools_discardDylib (j : Jit) (d : Ref .dylib) : (j.discardDylib d).pools = j.pools :=
  discardDylib_induction (P := fun j' => j'.pools = j.pools)
    (fun _ _ heq => heq) (fun _ _ heq => heq) d rfl

/-- any number of them as well, -/
theorem sessions_foldl_discardDylib (ds : List (Ref .dylib)) (j : Jit) :
    (ds.foldl discardDylib j).sessions = j.sessions := by
  induction ds generalizing j with
  | nil => rfl
  | cons d ds ih => rw [List.foldl_cons, ih, sessions_discardDylib]

/-- so disposing of a session takes that session away and no other. -/
theorem sessions_disposeSession (j : Jit) (s : Ref .session) :
    (j.disposeSession (some s)).sessions = j.sessions.erase s := by
  simp only [disposeSession, sessions_foldl_discardDylib]

/-- Interning has nothing to do with sessions. -/
theorem sessions_internEntry {e : Ref .poolEntry} (he : j.internEntry pool name = (e, j')) :
    j'.sessions = j.sessions := by
  obtain ⟨-, rfl⟩ | ⟨-, -, rfl⟩ := internEntry_cases he <;> rfl

/-- No dylib of a session is left when it has been disposed of. -/
theorem get?_dylibs_disposeSession
    (hx : (j.disposeSession (some s)).dylibs.get? d = some x) :
    j.dylibs.get? d = some x ∧ x.session ≠ s := by
  rw [← Arena.mem_items_iff, dylibs_disposeSession, List.mem_filter, Arena.mem_items_iff] at hx
  exact ⟨hx.1, by simpa using hx.2⟩

/-- An action keeps the namespaces in order, if a name that does not come from a caller could have
come from one. -/
theorem homed_step (hs : Step j a j' rs)
    (hsaid : ∀ s name, a = .createDylib s name → ∃ input : Input, input.Says name)
    (hj : Homed j) : Homed j' := by
  cases hs with
  | createSession => exact hj.createSession
  | disposeSession s =>
    refine hj.of_kept fun {d x} hx => ?_
    obtain ⟨hx, hne⟩ := get?_dylibs_disposeSession hx
    refine ⟨x, hx, rfl, rfl, rfl, ?_⟩
    rw [poolOf, poolOf, sessions_disposeSession, Option.bind_some, Option.bind_some,
      Arena.get?_erase, if_neg hne]
  | createDylib ha hpool hname =>
    refine hj.createDylib hpool hname ?_
    obtain ha | ⟨input, -, hinput⟩ := ha
    · exact hsaid _ _ ha
    · exact ⟨input, Input.required_eq_ok_iff.1 hinput⟩
  | removeDylib => exact hj.of_erase rfl (sessions_discardDylib ..)
  | define hx he =>
    have hj' := hj.of_eq (dylibs_internEntry he) (sessions_internEntry he)
    refine hj'.of_kept fun {d y} hy => ?_
    obtain ⟨y', hy', rfl⟩ := Arena.get?_modify_eq_some_iff.1 hy
    refine ⟨y', hy', ?_⟩
    split <;> exact ⟨rfl, rfl, rfl, rfl⟩
  | intern he =>
    have hj' := hj.of_eq (dylibs_internEntry he) (sessions_internEntry he)
    exact hj'.of_eq rfl rfl
  | clonePointer => exact hj.of_eq rfl rfl
  | dropPointer => exact hj.of_eq rfl rfl
  | clearDeadEntries => exact hj.of_eq rfl rfl
  | none => exact hj

/-- So namespaces are in order after every run. -/
theorem homed_run (actions : List Action)
    (hsaid : ∀ s name, .createDylib s name ∈ actions → ∃ input : Input, input.Says name)
    (hj : Homed j) : Homed (j.run actions) := by
  induction actions generalizing j with
  | nil => exact hj
  | cons a actions ih =>
    refine ih (fun s name hm => hsaid s name (List.mem_cons_of_mem _ hm)) ?_
    refine homed_step (j.step_act a) (fun s name ha => hsaid s name ?_) hj
    rw [ha]
    exact List.mem_cons_self

/-! ## Creating by name

All conditions of a creation are in one equivalence, so what callers are refused and why can be
read off it. -/

/-- A name is free exactly if no dylib on the session's list has it. -/
theorem dylib?_eq_none_iff : j.dylib? s name = none ↔ ∀ p ∈ j.dylibsOf s, p.2.name ≠ name := by
  constructor
  · rintro hfree ⟨d, x⟩ hp rfl
    obtain ⟨hx, hs⟩ := mem_dylibsOf_iff.1 hp
    have hnot := Arena.eq_false_of_find?_eq_none hfree hx
    simp [hs] at hnot
  · intro hfree
    cases hfind : j.dylib? s name with
    | none => rfl
    | some d =>
      obtain ⟨x, hx, hfound⟩ := Arena.get?_of_find? hfind
      simp only [Bool.and_eq_true, decide_eq_true_eq, beq_iff_eq] at hfound
      exact absurd hfound.2 (hfree (d, x) (mem_dylibsOf_iff.2 ⟨hx, hfound.1⟩))

/-- A name that is said and free is given to a new dylib. -/
theorem createDylibNamed_of_free (hpool : j.poolOf (some s) = some pool) (hname : input.Says name)
    (hfree : ∀ p ∈ j.dylibsOf s, p.2.name ≠ name) :
    j.createDylibNamed (some s) input true =
      (.ok true (some (j.dylibs.alloc { session := s, pool, name }).1),
        { j with dylibs := (j.dylibs.alloc { session := s, pool, name }).2 }) := by
  have hrequired : input.required "name" = .ok name := Input.required_eq_ok_iff.2 hname
  simp [createDylibNamed, createDylib, hpool, hrequired, dylib?_eq_none_iff.2 hfree]

/-- A caller gets a dylib if there is a place for it, the session is there, the name can be read
and the name is free. There is no other reason for failure. -/
theorem createDylibNamed_ok_iff {handle : Handle .session} {place : Bool} :
    (j.createDylibNamed handle input place).1.outcome = .ok () ↔
      place = true ∧ ∃ s name, handle = some s ∧ j.sessions.contains s = true ∧ input.Says name ∧
        ∀ p ∈ j.dylibsOf s, p.2.name ≠ name := by
  constructor
  · intro hok
    rcases createDylibNamed_cases j handle input place with
      ⟨e, hfail⟩ | ⟨s, pool, name, rfl, rfl, hpool, hinput, hfree, -⟩
    · rw [hfail] at hok
      cases hok
    · obtain ⟨y, hy, -⟩ := Option.map_eq_some_iff.1 hpool
      have hlive : j.sessions.get? s = some y := hy
      exact ⟨rfl, s, name, rfl, by rw [Arena.contains, hlive]; rfl,
        Input.required_eq_ok_iff.1 hinput, dylib?_eq_none_iff.1 hfree⟩
  · rintro ⟨rfl, s, name, rfl, hlive, hname, hfree⟩
    obtain ⟨y, hy⟩ := Option.isSome_iff_exists.1 hlive
    have hpool : j.poolOf (some s) = some y.pool := by rw [poolOf, Option.bind_some, hy]; rfl
    rw [createDylibNamed_of_free hpool hname hfree]
    rfl

/-- Whatever is wrong, nothing happens, and the caller's place is null. -/
theorem createDylibNamed_declined {handle : Handle .session} {place : Bool}
    (hnot : (j.createDylibNamed handle input place).1.outcome ≠ .ok ()) :
    ∃ e, j.createDylibNamed handle input place = (.failed place none e, j) := by
  rcases createDylibNamed_cases j handle input place with
    hfail | ⟨s, pool, name, rfl, rfl, -, -, -, hok⟩
  · exact hfail
  · rw [hok] at hnot
    exact absurd rfl hnot

/-- A new dylib comes last on the list of its session. -/
theorem dylibsOf_alloc (j : Jit) (x : Dylib) (s : Ref .session) :
    dylibsOf { j with dylibs := (j.dylibs.alloc x).2 } s =
      if x.session = s then j.dylibsOf s ++ [((j.dylibs.alloc x).1, x)] else j.dylibsOf s := by
  rw [dylibsOf, dylibsOf, Arena.select_alloc]
  simp only [decide_eq_true_eq]

/-! ## Removing by handle

A handle is good for removal through the session that it belongs to, as long as the dylib is
there. -/

/-- A dylib on the list of the session is discarded. -/
theorem removeDylibHandle_of_mem (hx : (d, x) ∈ j.dylibsOf s) :
    j.removeDylibHandle (some s) (some d) = (.ok (), j.discardDylib d) := by
  obtain ⟨hget, hs⟩ := mem_dylibsOf_iff.1 hx
  simp only [removeDylibHandle, removeDylib, hget, Option.any_some, hs, decide_true, if_true]
  rfl

/-- A removal succeeds for what is on the list, -/
theorem removeDylibHandle_ok_iff {handle : Handle .session} {dylib : Handle .dylib} :
    (j.removeDylibHandle handle dylib).1 = .ok () ↔
      ∃ s d x, handle = some s ∧ dylib = some d ∧ (d, x) ∈ j.dylibsOf s := by
  constructor
  · intro hok
    rcases removeDylibHandle_cases j handle dylib with
      ⟨e, hfail⟩ | ⟨s, d, x, rfl, rfl, hx, hs, -⟩
    · rw [hfail] at hok
      cases hok
    · exact ⟨s, d, x, rfl, rfl, mem_dylibsOf_iff.2 ⟨hx, hs⟩⟩
  · rintro ⟨s, d, x, rfl, rfl, hx⟩
    rw [removeDylibHandle_of_mem hx]

/-- and if it fails, nothing has happened. -/
theorem removeDylibHandle_declined {handle : Handle .session} {dylib : Handle .dylib}
    (hnot : (j.removeDylibHandle handle dylib).1 ≠ .ok ()) :
    (j.removeDylibHandle handle dylib).2 = j := by
  rcases removeDylibHandle_cases j handle dylib with ⟨e, hfail⟩ | ⟨s, d, x, rfl, rfl, -, -, hok⟩
  · rw [hfail]
  · rw [hok] at hnot
    exact absurd rfl hnot

/-- A dylib that is discarded is gone from all lists, -/
theorem dylibsOf_discardDylib (j : Jit) (d : Ref .dylib) (s : Ref .session) :
    (j.discardDylib d).dylibsOf s = (j.dylibsOf s).filter (fun p => p.1 ≠ d) :=
  Arena.select_erase ..

/-- of which it was on one. -/
theorem dylibsOf_discardDylib_of_ne {s' : Ref .session} (hx : (d, x) ∈ j.dylibsOf s)
    (hs : s' ≠ s) : (j.discardDylib d).dylibsOf s' = j.dylibsOf s' := by
  rw [dylibsOf_discardDylib, List.filter_eq_self]
  rintro ⟨d', y⟩ hy
  refine decide_eq_true fun heq => ?_
  obtain rfl : d' = d := heq
  obtain ⟨hget, hmine⟩ := mem_dylibsOf_iff.1 hx
  obtain ⟨hget', hother⟩ := mem_dylibsOf_iff.1 hy
  cases hget.symm.trans hget'
  exact hs (hother.symm.trans hmine)

/-- The name of a dylib that is removed is free again. -/
theorem Homed.free_discardDylib (hj : Homed j) (hx : (d, x) ∈ j.dylibsOf s) :
    ∀ p ∈ (j.discardDylib d).dylibsOf s, p.2.name ≠ x.name := by
  rintro ⟨d', y⟩ hp hname
  rw [dylibsOf_discardDylib, List.mem_filter] at hp
  obtain ⟨hy, hne⟩ := hp
  obtain ⟨hget, hs⟩ := mem_dylibsOf_iff.1 hx
  obtain ⟨hget', hs'⟩ := mem_dylibsOf_iff.1 hy
  have hsame : d' = d := hj.keyed _ _ _ _ hget' hget (Prod.ext (hs'.trans hs.symm) hname)
  simp [hsame] at hne

/-! ## What a removal counts off

The record of the run has one entry for each definition. The symbols of a dylib are the entries
for those names in the pool of its session, in the same order, so counting off the symbols is
counting the definitions. -/

/-- With one entry for a name, the entry found is the one with the key. -/
theorem Balanced.entry?_eq_some_iff (hb : Balanced j []) {e : Ref .poolEntry} :
    j.entry? pool name = some e ↔ j.key? e = some (pool, name) :=
  ⟨key?_of_found, hb.entry?_of_key?⟩

/-- Removing a dylib leaves the entries in their pools. -/
theorem Balanced.entry?_discardDylib (hb : Balanced j []) (d : Ref .dylib) (pool : Ref .pool)
    (symbol : String) : Jit.entry? (j.discardDylib d) pool symbol = j.entry? pool symbol := by
  refine Option.ext fun e => ?_
  rw [(hb.discardDylib d).entry?_eq_some_iff, hb.entry?_eq_some_iff, key?_discardDylib]

/-- Names that have an entry in some pool are told apart by it, from each other and from the names in
other pools. -/
theorem count_map_entry? {home : Ref .pool} {names : List String}
    (hnames : ∀ n ∈ names, j.entry? home n ≠ none) (pool : Ref .pool) (symbol : String) :
    (names.map fun n => j.entry? home n).count (Jit.entry? j pool symbol) =
      if pool = home then names.count symbol else 0 := by
  -- entries are the same exactly if their keys are
  have hsame : ∀ n ∈ names, j.entry? home n = j.entry? pool symbol ↔ pool = home ∧ n = symbol := by
    intro n hn
    constructor
    · intro heq
      obtain ⟨e, he⟩ := Option.ne_none_iff_exists'.1 (hnames n hn)
      have hkey := (key?_of_found he).symm.trans (key?_of_found (heq.symm.trans he))
      obtain ⟨hhome, hsymbol⟩ := Prod.mk.inj (Option.some.inj hkey)
      exact ⟨hhome.symm, hsymbol⟩
    · rintro ⟨rfl, rfl⟩
      rfl
  rw [List.count_eq_countP, List.countP_map]
  split
  · rename_i hpool
    refine List.countP_congr fun n hn => ?_
    rw [Function.comp_apply, beq_iff_eq, beq_iff_eq, hsame n hn, and_iff_right hpool]
  · rename_i hpool
    exact List.countP_eq_zero.2 fun n hn => by simp [hsame n hn, hpool]

/-- Removing a dylib counts off one pointer for each time it has defined a symbol. -/
theorem refCount_discardDylib (hb : Balanced j []) (hd : Documented j h)
    (hx : j.dylibs.get? d = some x) (pool : Ref .pool) (symbol : String) :
    j.refCount (Jit.entry? j pool symbol) =
      (j.discardDylib d).refCount (Jit.entry? (j.discardDylib d) pool symbol) +
        if pool = x.pool then (definitions d h).count symbol else 0 := by
  have hsymbols : x.symbols.map some = (definitions d h).map fun n => j.entry? x.pool n :=
    hb.entry?_of_keys (hd.defined_keys hx)
  -- a symbol that is held has its entry
  have hnames : ∀ n ∈ definitions d h, j.entry? x.pool n ≠ none := by
    intro n hn hnone
    have hmem : j.entry? x.pool n ∈ x.symbols.map some := by
      rw [hsymbols]
      exact List.mem_map_of_mem hn
    simp [hnone] at hmem
  have hcount : (x.symbols.map some).count (Jit.entry? j pool symbol) =
      if pool = x.pool then (definitions d h).count symbol else 0 := by
    rw [hsymbols, count_map_entry? hnames]
  rw [hb.entry?_discardDylib, ← hcount]
  cases j.entry? pool symbol with
  | none =>
    have hzero : (x.symbols.map some).count none = 0 := List.count_eq_zero.2 (by simp)
    rw [hzero]
    rfl
  | some e =>
    rw [List.count_map_of_injective _ _ fun _ _ => Option.some.inj]
    exact hb.count_discard hx e

/-! ## Every reachable state

The theorem holds with the record that led to the state, since `countedOff` speaks about it. -/

/-- The sessions of `j` are namespaces of dylibs; `h` is what is on record. -/
structure Namespaces (j : Jit) (h : List Record) : Prop where
  nodup : ∀ s, ((j.dylibsOf s).map (fun p => p.2.name)).Nodup
  /-- A name is a text that a caller can say, and so it is not empty. -/
  named : ∀ s d x, (d, x) ∈ j.dylibsOf s → x.name ≠ "" ∧ ∃ input : Input, input.Says x.name
  /-- A dylib belongs to one session, and counts its symbols in the pool of that session. -/
  home : ∀ s d x, (d, x) ∈ j.dylibsOf s → x.session = s ∧ j.poolOf (some s) = some x.pool
  create : ∀ handle input place,
    (j.createDylibNamed handle input place).1.outcome = .ok () ↔
      place = true ∧ ∃ s name, handle = some s ∧ j.sessions.contains s = true ∧ input.Says name ∧
        ∀ p ∈ j.dylibsOf s, p.2.name ≠ name
  /-- A new dylib comes last on the list of its session, empty, under a reference that was never in
  use; no other session has a new one, and nothing else changes. -/
  created : ∀ s input name, j.sessions.contains s = true → input.Says name →
    (∀ p ∈ j.dylibsOf s, p.2.name ≠ name) →
      ∃ d x j', j.createDylibNamed (some s) input true = (.ok true (some d), j') ∧
        j.dylibs.next ≤ d.index ∧ x.name = name ∧ x.symbols = [] ∧
        j'.dylibsOf s = j.dylibsOf s ++ [(d, x)] ∧
        (∀ s', s' ≠ s → j'.dylibsOf s' = j.dylibsOf s') ∧
        j' = { j with dylibs := j'.dylibs }
  /-- If no dylib is created then nothing happens, and the place for it is null. -/
  notCreated : ∀ handle input place,
    (j.createDylibNamed handle input place).1.outcome ≠ .ok () →
      ∃ e, j.createDylibNamed handle input place = (.failed place none e, j)
  remove : ∀ handle dylib, (j.removeDylibHandle handle dylib).1 = .ok () ↔
    ∃ s d x, handle = some s ∧ dylib = some d ∧ (d, x) ∈ j.dylibsOf s
  /-- The dylib is gone from the list of its session, and that is all that lists show.  Its name can
  be given again. -/
  removed : ∀ s d x, (d, x) ∈ j.dylibsOf s → ∀ j', j' = (j.removeDylibHandle (some s) (some d)).2 →
    j'.dylibsOf s = (j.dylibsOf s).filter (fun p => p.1 ≠ d) ∧
      (∀ s', s' ≠ s → j'.dylibsOf s' = j.dylibsOf s') ∧
      (∀ input : Input, input.Says x.name →
        (j'.createDylibNamed (some s) input true).1.outcome = .ok ()) ∧
      j'.sessions = j.sessions ∧ j'.pools = j.pools ∧ j'.pointers = j.pointers
  /-- The count of a symbol in a pool goes down by the times that the dylib has defined it there. -/
  countedOff : ∀ s d x, (d, x) ∈ j.dylibsOf s →
    ∀ j', j' = (j.removeDylibHandle (some s) (some d)).2 → ∀ pool symbol,
      j.refCount (Jit.entry? j pool symbol) = j'.refCount (Jit.entry? j' pool symbol) +
        if pool = x.pool then (definitions d h).count symbol else 0
  notRemoved : ∀ handle dylib, (j.removeDylibHandle handle dylib).1 ≠ .ok () →
    (j.removeDylibHandle handle dylib).2 = j

/-- **Sessions whose dylibs are homed are namespaces**, if the counts are in balance and the
record is kept. -/
theorem Homed.namespaces (hj : Homed j) (hb : Balanced j []) (hd : Documented j h) :
    Namespaces j h where
  nodup s := hj.keyed.nodup_select fun x y hx hy hname => by
    simp only [decide_eq_true_eq] at hx hy
    rw [hx, hy, hname]
  named s d x hx := by
    obtain ⟨input, hinput⟩ := hj.said (mem_dylibsOf_iff.1 hx).1
    exact ⟨hinput.ne_empty, input, hinput⟩
  home s d x hx := by
    obtain ⟨hget, rfl⟩ := mem_dylibsOf_iff.1 hx
    exact ⟨rfl, hj.home hget⟩
  create _ _ _ := createDylibNamed_ok_iff
  created s input name hlive hname hfree := by
    obtain ⟨y, hy⟩ := Option.isSome_iff_exists.1 hlive
    have hpool : j.poolOf (some s) = some y.pool := by rw [poolOf, Option.bind_some, hy]; rfl
    refine ⟨_, { session := s, pool := y.pool, name }, _,
      createDylibNamed_of_free hpool hname hfree, Nat.le_refl _, rfl, rfl,
      (dylibsOf_alloc ..).trans (if_pos rfl), fun s' hs => ?_, rfl⟩
    exact (dylibsOf_alloc ..).trans (if_neg (Ne.symm hs))
  notCreated _ _ _ := createDylibNamed_declined
  remove _ _ := removeDylibHandle_ok_iff
  removed s d x hx j' hj' := by
    rw [removeDylibHandle_of_mem hx] at hj'
    subst hj'
    refine ⟨dylibsOf_discardDylib .., fun _ => dylibsOf_discardDylib_of_ne hx, ?_,
      sessions_discardDylib .., pools_discardDylib .., pointers_discardDylib ..⟩
    intro input hinput
    obtain ⟨y, hy, -⟩ := Option.map_eq_some_iff.1 (hj.home (mem_dylibsOf_iff.1 hx).1)
    rw [(mem_dylibsOf_iff.1 hx).2, Option.bind_some] at hy
    refine createDylibNamed_ok_iff.2 ⟨rfl, s, x.name, rfl, ?_, hinput, hj.free_discardDylib hx⟩
    rw [sessions_discardDylib, Arena.contains, hy]
    rfl
  countedOff s d x hx j' hj' pool symbol := by
    rw [removeDylibHandle_of_mem hx] at hj'
    subst hj'
    exact refCount_discardDylib hb hd (mem_dylibsOf_iff.1 hx).1 pool symbol
  notRemoved _ _ := removeDylibHandle_declined

/-- **Dylib namespaces.** Whatever happens to any number of sessions, in every state on the way each
session is a namespace of its dylibs: callers create exactly under names that are free there, remove
exactly what is there, and a removal counts off exactly what the dylib has defined.  Dylibs that the
host makes on its own have names that callers could have given.

That is the one condition on the run, and nothing but `named` depends on it.  Everything else is kept
by whatever the host and the callers do, in any order and over any number of sessions. -/
theorem dylibs_are_namespaces (actions : List Action)
    (hsaid : ∀ s name, .createDylib s name ∈ actions → ∃ input : Input, input.Says name) :
    Namespaces (initial.run actions) (initial.history actions) := by
  obtain ⟨hb, hd⟩ := books_run actions balanced_initial documented_initial
  exact (homed_run actions hsaid homed_initial).namespaces hb hd

/-- Two sessions have a dylib of the same name; that of the first has been removed, and its name has
been given again.  One symbol has been defined twice by the new one, and once by the other. -/
def recycling : List Action :=
  [.createSession, .createSession, .createDylibNamed (some ⟨0⟩) (.bytes [97]) true,
    .createDylibNamed (some ⟨1⟩) (.bytes [97]) true, .define ⟨0⟩ "f",
    .removeDylibHandle (some ⟨0⟩) (some ⟨0⟩), .createDylib ⟨0⟩ "a", .define ⟨2⟩ "f",
    .define ⟨2⟩ "f", .define ⟨1⟩ "f"]

/-- The sessions after that. -/
def recycled : Jit := initial.run recycling

/-- There a second removal fails, and so does a removal through the other session; the name is taken,
and removing the new dylib counts off two. -/
theorem recycled_namespaces :
    Namespaces recycled (initial.history recycling) ∧
      (recycled.dylibsOf ⟨0⟩).map (fun p => (p.1, p.2.name)) = [(⟨2⟩, "a")] ∧
      (recycled.dylibsOf ⟨1⟩).map (fun p => (p.1, p.2.name)) = [(⟨1⟩, "a")] ∧
      (recycled.removeDylibHandle (some ⟨0⟩) (some ⟨0⟩)).1.isOk = false ∧
      (recycled.removeDylibHandle (some ⟨0⟩) (some ⟨1⟩)).1.isOk = false ∧
      recycled.refCount (Jit.entry? recycled ⟨0⟩ "f") =
        (recycled.removeDylibHandle (some ⟨0⟩) (some ⟨2⟩)).2.refCount
          (Jit.entry? (recycled.removeDylibHandle (some ⟨0⟩) (some ⟨2⟩)).2 ⟨0⟩ "f") + 2 := by
  have hsaid : ∀ s name, Action.createDylib s name ∈ recycling → ∃ input : Input, input.Says name := by
    intro s name hm
    obtain ⟨-, rfl⟩ : s = ⟨0⟩ ∧ name = "a" := by simpa [recycling] using hm
    exact ⟨.bytes [97], [97], rfl, by decide, rfl⟩
  exact ⟨dylibs_are_namespaces recycling hsaid, by decide, by decide, by decide, by decide, by decide⟩

end ForeignHandles.Jit
