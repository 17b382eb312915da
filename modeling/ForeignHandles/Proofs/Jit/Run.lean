import ForeignHandles.Jit

/-!
  Runs of JIT sessions, and what they leave on record.

  A run is the list of everything that happens, in order of time: sessions come and go, dylibs are
  made and removed, by the host or by callers, symbols are defined and names interned, and the
  pointers that this hands out are cloned and dropped.

  The sessions forget under which name a pointer was handed out, and which names a dylib has
  defined; the record has it.  `Step` lists the ways that an action can go, and `step_act` says that
  there are no others.

  Most actions can fail, and one that fails does nothing at all: that is the last case of `Step`.
  The same goes for an action on an object that is gone, which no caller can ask for and which does
  not do any harm either.
-/
namespace ForeignHandles

/-- What an entry is found by. -/
def PoolEntry.key (x : PoolEntry) : Ref .pool × String := (x.pool, x.name)

namespace Jit

/-- No sessions yet. -/
def initial : Jit := default

/-! ## Actions and records

Some actions are there twice, as the host does them and as callers do, who pass places and texts
that may be null. What they do in the end is the same. -/

/-- What can happen to sessions. -/
inductive Action where
  /-- A session comes with a pool of its own. -/
  | createSession
  | disposeSession (session : Handle .session)
  /-- The host makes a dylib, or a caller does. -/
  | createDylib (session : Ref .session) (name : String)
  | createDylibNamed (session : Handle .session) (name : Input) (place : Bool)
  /-- The host removes a dylib from a session, or a caller does. -/
  | removeDylib (session : Ref .session) (dylib : Ref .dylib)
  | removeDylibHandle (session : Handle .session) (dylib : Handle .dylib)
  /-- A symbol is defined in a dylib, and somebody gets a pointer to its name. -/
  | define (dylib : Ref .dylib) (symbol : String)
  /-- A name is interned, and somebody gets a pointer to it. -/
  | intern (pool : Ref .pool) (name : String)
  | clonePointer (pointer : Ref .symbolPointer)
  | dropPointer (pointer : Ref .symbolPointer)
  | clearDeadEntries (pool : Ref .pool)

/-- What an action leaves on record. -/
inductive Record where
  /-- A pointer is handed out for a name in a pool. -/
  | handed (pointer : Ref .symbolPointer) (key : Ref .pool × String)
  /-- A dylib has defined a symbol. -/
  | defined (dylib : Ref .dylib) (symbol : String)

/-- What an entry of some pool is found by. -/
def key? (j : Jit) (e : Ref .poolEntry) : Option (Ref .pool × String) :=
  (j.entries.get? e).map PoolEntry.key

/-- Lets something happen to the sessions. -/
def act (j : Jit) : Action → Jit
  | .createSession => j.createSession.2
  | .disposeSession s => j.disposeSession s
  | .createDylib s name =>
    match j.poolOf (some s) with
    | none => j
    | some pool => (j.createDylib s pool name).2
  | .createDylibNamed s name place => (j.createDylibNamed s name place).2
  | .removeDylib s d => (j.removeDylib s d).2
  | .removeDylibHandle s d => (j.removeDylibHandle s d).2
  | .define d symbol => (j.define d symbol).2
  | .intern pool name => (j.intern pool name).2
  | .clonePointer r => (j.clonePointer r).2
  | .dropPointer r => j.dropPointer r
  | .clearDeadEntries pool => j.clearDeadEntries pool

/-- What an action leaves on record.  A clone is for the name that its original points to. -/
def records (j : Jit) : Action → List Record
  | .define d symbol =>
    match j.dylibs.get? d, (j.define d symbol).1 with
    | some x, some r => [.defined d symbol, .handed r (x.pool, symbol)]
    | _, _ => []
  | .intern pool name => [.handed (j.intern pool name).1 (pool, name)]
  | .clonePointer r =>
    match j.entryOf? r, (j.clonePointer r).1 with
    | some (_, x), some r => [.handed r x.key]
    | _, _ => []
  | _ => []

/-- The sessions after a run. -/
def run (j : Jit) (actions : List Action) : Jit := actions.foldl act j

/-- What a run leaves on record, in order of time. -/
def history (j : Jit) : List Action → List Record
  | [] => []
  | a :: actions => j.records a ++ (j.act a).history actions

/-- The symbols that a dylib has defined, in order. -/
def definitions (d : Ref .dylib) (history : List Record) : List String :=
  history.filterMap fun
    | .defined d' symbol => if d' = d then some symbol else none
    | .handed _ _ => none

/-- A run is one action -/
@[simp] theorem run_nil (j : Jit) : j.run [] = j := rfl

/-- after the other. -/
@[simp] theorem run_cons (j : Jit) (a : Action) (actions : List Action) :
    j.run (a :: actions) = (j.act a).run actions := rfl

/-- The record is read piece by piece. -/
@[simp] theorem definitions_append (d : Ref .dylib) (first second : List Record) :
    definitions d (first ++ second) = definitions d first ++ definitions d second :=
  List.filterMap_append

/-! ## Every way that an action can go

The lemmas `internEntry_cases` and so on say how the single operations can go, and `Step` is put
together from them. -/

/-- Interning finds the entry for a name and counts one more pointer, or makes the entry. -/
theorem internEntry_cases {j j' : Jit} {pool : Ref .pool} {name : String} {e : Ref .poolEntry}
    (he : j.internEntry pool name = (e, j')) :
    j.entry? pool name = some e ∧ j' = j.retain e ∨
      j.entry? pool name = none ∧ e = (j.entries.alloc { pool, name, count := 1 }).1 ∧
        j' = { j with entries := (j.entries.alloc { pool, name, count := 1 }).2 } := by
  cases hfound : j.entry? pool name with
  | some e₀ =>
    simp only [internEntry, hfound] at he
    cases he
    exact .inl ⟨rfl, rfl⟩
  | none =>
    simp only [internEntry, hfound] at he
    cases he
    exact .inr ⟨rfl, rfl, rfl⟩

/-- A dylib is added, or there is an error and nothing happens. -/
theorem createDylib_cases (j : Jit) (s : Ref .session) (pool : Ref .pool) (name : String) :
    (j.dylib? s name ≠ none ∧ j.createDylib s pool name = (.error (.duplicateDylib name), j)) ∨
      j.dylib? s name = none ∧
        j.createDylib s pool name = (.ok (j.dylibs.alloc { session := s, pool, name }).1,
          { j with dylibs := (j.dylibs.alloc { session := s, pool, name }).2 }) := by
  cases hname : j.dylib? s name with
  | some d => exact .inl ⟨by simp, by simp [createDylib, hname]⟩
  | none => exact .inr ⟨rfl, by simp [createDylib, hname]⟩

/-- A caller adds a dylib, or there is an error, the place is null and nothing happens. -/
theorem createDylibNamed_cases (j : Jit) (h : Handle .session) (input : Input) (place : Bool) :
    (∃ e, j.createDylibNamed h input place = (.failed place none e, j)) ∨
      ∃ s pool name, h = some s ∧ place = true ∧ j.poolOf h = some pool ∧
        input.required "name" = .ok name ∧ j.dylib? s name = none ∧
        j.createDylibNamed h input place =
          (.ok true (some (j.dylibs.alloc { session := s, pool, name }).1),
            { j with dylibs := (j.dylibs.alloc { session := s, pool, name }).2 }) := by
  cases place with
  -- the null place, the null session, a session that has gone and the name are looked at in this
  -- order
  | false => exact .inl ⟨_, rfl⟩
  | true =>
    cases h with
    | none => exact .inl ⟨_, rfl⟩
    | some s =>
      cases hpool : j.poolOf (some s) with
      | none => exact .inl ⟨.nullOrEmpty "session", by simp [createDylibNamed, hpool]⟩
      | some pool =>
        cases hname : input.required "name" with
        | error e => exact .inl ⟨e, by simp [createDylibNamed, hpool, hname]⟩
        | ok name =>
          rcases createDylib_cases j s pool name with ⟨-, hfail⟩ | ⟨hnew, hok⟩
          · exact .inl ⟨.host (.duplicateDylib name),
              by simp [createDylibNamed, hpool, hname, hfail]⟩
          · exact .inr ⟨s, pool, name, rfl, rfl, rfl, rfl, hnew,
              by simp [createDylibNamed, hpool, hname, hok]⟩

/-- A dylib of the session is removed, or there is an error and nothing happens. -/
theorem removeDylib_cases (j : Jit) (s : Ref .session) (d : Ref .dylib) :
    (∃ e, j.removeDylib s d = (.error e, j)) ∨
      ∃ x, j.dylibs.get? d = some x ∧ x.session = s ∧
        j.removeDylib s d = (.ok (), j.discardDylib d) := by
  cases hx : j.dylibs.get? d with
  | none => exact .inl ⟨.unknownDylib d, by simp [removeDylib, hx]⟩
  | some x =>
    by_cases hs : x.session = s
    · exact .inr ⟨x, rfl, hs, by simp [removeDylib, hx, hs]⟩
    · exact .inl ⟨.unknownDylib d, by simp [removeDylib, hx, hs]⟩

/-- A caller removes a dylib of a session, or there is an error and nothing happens. -/
theorem removeDylibHandle_cases (j : Jit) (h : Handle .session) (dylib : Handle .dylib) :
    (∃ e, j.removeDylibHandle h dylib = (.error e, j)) ∨
      ∃ s d x, h = some s ∧ dylib = some d ∧ j.dylibs.get? d = some x ∧ x.session = s ∧
        j.removeDylibHandle h dylib = (.ok (), j.discardDylib d) := by
  cases h with
  | none => exact .inl ⟨_, rfl⟩
  | some s =>
    cases dylib with
    | none => exact .inl ⟨_, rfl⟩
    | some d =>
      rcases removeDylib_cases j s d with ⟨e, hfail⟩ | ⟨x, hx, hs, hok⟩
      · exact .inl ⟨.host e, by simp only [removeDylibHandle, hfail]; rfl⟩
      · exact .inr ⟨s, d, x, rfl, rfl, hx, hs,
          by simp only [removeDylibHandle, hok]; rfl⟩

/-- One action, the sessions after it and what it leaves on record: every way that it can go. -/
inductive Step (j : Jit) : Action → Jit → List Record → Prop where
  | createSession : Step j .createSession j.createSession.2 []
  | disposeSession (s : Ref .session) :
    Step j (.disposeSession (some s)) (j.disposeSession (some s)) []
  /-- A dylib is made for a name that the session does not have yet, whoever asks for it. -/
  | createDylib {a : Action} {s : Ref .session} {pool : Ref .pool} {name : String}
    (ha : a = .createDylib s name ∨
      ∃ input, a = .createDylibNamed (some s) input true ∧ input.required "name" = .ok name)
    (hpool : j.poolOf (some s) = some pool) (hname : j.dylib? s name = none) :
    Step j a { j with dylibs := (j.dylibs.alloc { session := s, pool, name }).2 } []
  /-- A dylib is removed from its own session only. -/
  | removeDylib {a : Action} {s : Ref .session} {d : Ref .dylib} {x : Dylib}
    (ha : a = .removeDylib s d ∨ a = .removeDylibHandle (some s) (some d))
    (hx : j.dylibs.get? d = some x) (hs : x.session = s) : Step j a (j.discardDylib d) []
  /-- The dylib keeps one pointer to the name of the symbol, and another one is handed out. -/
  | define {d : Ref .dylib} {x : Dylib} {symbol : String} {e : Ref .poolEntry} {j' : Jit}
    (hx : j.dylibs.get? d = some x) (he : j.internEntry x.pool symbol = (e, j')) :
    Step j (.define d symbol)
      (handOut { j'.retain e with
        dylibs := j'.dylibs.modify d (fun y => { y with symbols := y.symbols ++ [e] }) } e).2
      [.defined d symbol, .handed ⟨j'.pointers.next⟩ (x.pool, symbol)]
  /-- One pointer is handed out. -/
  | intern {pool : Ref .pool} {name : String} {e : Ref .poolEntry} {j' : Jit}
    (he : j.internEntry pool name = (e, j')) :
    Step j (.intern pool name) (j'.handOut e).2 [.handed ⟨j'.pointers.next⟩ (pool, name)]
  /-- A clone is a pointer to the same entry, and is counted like any other. -/
  | clonePointer {r : Ref .symbolPointer} {x : SymbolPointer} (hx : j.pointers.get? r = some x) :
    Step j (.clonePointer r) ((j.retain x.entry).handOut x.entry).2
      ((j.key? x.entry).toList.map (.handed ⟨j.pointers.next⟩))
  /-- A pointer that is dropped is counted off. -/
  | dropPointer {r : Ref .symbolPointer} {x : SymbolPointer} (hx : j.pointers.get? r = some x) :
    Step j (.dropPointer r) { j.release x.entry with pointers := j.pointers.erase r } []
  | clearDeadEntries (pool : Ref .pool) :
    Step j (.clearDeadEntries pool) (j.clearDeadEntries pool) []
  /-- Nothing happens: an error, or an object that is gone. -/
  | none (a : Action) : Step j a j []

/-- A definition may find no dylib, -/
theorem step_define (j : Jit) (d : Ref .dylib) (symbol : String) :
    Step j (.define d symbol) (j.act (.define d symbol)) (j.records (.define d symbol)) := by
  cases hx : j.dylibs.get? d with
  | none =>
    simp only [act, records, define, hx]
    exact .none _
  | some x =>
    rcases he : j.internEntry x.pool symbol with ⟨e, j'⟩
    simp only [act, records, define, hx, he]
    exact .define hx he

/-- and a clone may find no pointer. -/
theorem step_clonePointer (j : Jit) (r : Ref .symbolPointer) :
    Step j (.clonePointer r) (j.act (.clonePointer r)) (j.records (.clonePointer r)) := by
  cases hx : j.pointers.get? r with
  | none =>
    have hrecords : j.records (.clonePointer r) = [] := by
      simp [records, clonePointer, entryOf?, hx]
    simp only [act, clonePointer, hx, hrecords]
    exact .none _
  | some x =>
    have hrecords : j.records (.clonePointer r) =
        (j.key? x.entry).toList.map (.handed ⟨j.pointers.next⟩) := by
      -- what is on record is the name of the entry, if the entry is there
      cases hy : j.entries.get? x.entry <;>
        simp [records, clonePointer, entryOf?, key?, handOut, retain, Arena.alloc, hx, hy]
    simp only [act, clonePointer, hx, hrecords]
    exact .clonePointer hx

/-- Every action goes one of these ways. -/
theorem step_act (j : Jit) (a : Action) : Step j a (j.act a) (j.records a) := by
  cases a with
  | createSession => exact .createSession
  | disposeSession s =>
    cases s with
    | none => exact .none _
    | some s => exact .disposeSession s
  | createDylib s name =>
    simp only [act, records]
    cases hpool : j.poolOf (some s) with
    | none => exact .none _
    | some pool =>
      rcases createDylib_cases j s pool name with ⟨-, hfail⟩ | ⟨hname, hok⟩
      · simp only [hfail]
        exact .none _
      · simp only [hok]
        exact .createDylib (.inl rfl) hpool hname
  -- a caller who adds a dylib, and does so properly, adds it as the host does
  | createDylibNamed h input place =>
    rcases createDylibNamed_cases j h input place with
      ⟨e, hfail⟩ | ⟨s, pool, name, rfl, rfl, hpool, hinput, hname, hok⟩
    · simp only [act, records, hfail]
      exact .none _
    · simp only [act, records, hok]
      exact .createDylib (.inr ⟨input, rfl, hinput⟩) hpool hname
  | removeDylib s d =>
    rcases removeDylib_cases j s d with ⟨e, hfail⟩ | ⟨x, hx, hs, hok⟩
    · simp only [act, records, hfail]
      exact .none _
    · simp only [act, records, hok]
      exact .removeDylib (.inl rfl) hx hs
  | removeDylibHandle h dylib =>
    rcases removeDylibHandle_cases j h dylib with ⟨e, hfail⟩ | ⟨s, d, x, rfl, rfl, hx, hs, hok⟩
    · simp only [act, records, hfail]
      exact .none _
    · simp only [act, records, hok]
      exact .removeDylib (.inr rfl) hx hs
  | define d symbol => exact step_define j d symbol
  | intern pool name =>
    rcases he : j.internEntry pool name with ⟨e, j'⟩
    simp only [act, records, intern, he]
    exact .intern he
  | clonePointer r => exact step_clonePointer j r
  | dropPointer r =>
    simp only [act, records, Jit.dropPointer]
    cases hx : j.pointers.get? r with
    | none => exact .none _
    | some x => exact .dropPointer hx
  | clearDeadEntries pool => exact .clearDeadEntries pool

/-- What every step of a run preserves holds at its end. -/
theorem run_invariant {P : Jit → List Record → Prop}
    (hstep : ∀ j h a j' rs, Step j a j' rs → P j h → P j' (h ++ rs)) {j : Jit} {h : List Record}
    (actions : List Action) (hstart : P j h) : P (j.run actions) (h ++ j.history actions) := by
  induction actions generalizing j h with
  | nil => simpa [history] using hstart
  | cons a actions ih =>
    have hnext : P (j.act a) (h ++ j.records a) := hstep j h a _ _ (j.step_act a) hstart
    rw [run_cons, history, ← List.append_assoc]
    exact ih hnext

end Jit

end ForeignHandles
