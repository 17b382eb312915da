import Mathlib.Data.List.Induction
import ForeignHandles.ObjectFile.Shelf
import ForeignHandles.Proofs.Arena

/-!
  Runs of a shelf, and where what is on it comes from.

  A run is the list of everything that happens to files and cursors, in order of time.  There are
  four sorts of objects on a shelf, each with an arena of its own, but they all have the same kind of
  life: some action makes an object under a new reference, later ones move it on, and one takes it
  back.  `Custody` is such a sort: the `Role` of every action, and what the arena is after it.  What
  is there after a run can then be read off the run (`Custody.get?_run`).
-/
namespace ForeignHandles

deriving instance DecidableEq for ObjectItem

namespace Shelf

/-! ## Actions

The null handle is an argument like any other: opening and cloning it give null, moving and
closing it do nothing. -/

/-- What can happen to files and cursors. -/
inductive Action where
  /-- A file is built and handed out. -/
  | handOut (script : List ObjectItem)
  | dropFile (file : Ref .objectFile)
  | openSections (file : Handle .objectFile)
  | cloneSection (cursor : Handle .sectionCursor)
  | moveSection (cursor : Handle .sectionCursor)
  | closeSection (cursor : Handle .sectionCursor)
  | openSymbols (file : Handle .objectFile)
  | cloneSymbol (cursor : Handle .symbolCursor)
  | moveSymbol (cursor : Handle .symbolCursor)
  | closeSymbol (cursor : Handle .symbolCursor)
  | openRelocations (cursor : Handle .sectionCursor)
  | cloneRelocation (cursor : Handle .relocationCursor)
  | moveRelocation (cursor : Handle .relocationCursor)
  | closeRelocation (cursor : Handle .relocationCursor)
  deriving DecidableEq

/-- Lets something happen.  A script that cannot be built leaves no file. -/
def act (s : Shelf) : Action → Shelf
  | .handOut script =>
    match ObjectFile.build script with
    | .ok f => (s.addFile f).2
    | .error _ => s
  | .dropFile f => s.dropFile f
  | .openSections f => (s.openSections f).2
  | .cloneSection k => (s.cloneSection k).2
  | .moveSection k => s.moveSection k
  | .closeSection k => s.closeSection k
  | .openSymbols f => (s.openSymbols f).2
  | .cloneSymbol k => (s.cloneSymbol k).2
  | .moveSymbol k => s.moveSymbol k
  | .closeSymbol k => s.closeSymbol k
  | .openRelocations k => (s.openRelocations k).2
  | .cloneRelocation k => (s.cloneRelocation k).2
  | .moveRelocation k => s.moveRelocation k
  | .closeRelocation k => s.closeRelocation k

/-- The shelf after a run. -/
def run (s : Shelf) (actions : List Action) : Shelf := actions.foldl act s

/-- Nothing on the shelf. -/
def initial : Shelf := default

/-- Nothing happens in an empty run, -/
@[simp] theorem run_nil (s : Shelf) : s.run [] = s := rfl

/-- and a run is taken apart at its end. -/
theorem run_concat (s : Shelf) (actions : List Action) (a : Action) :
    s.run (actions ++ [a]) = (s.run actions).act a := by
  simp [run]

/-! ## One sort of objects

The four arenas are independent of each other, but for what is made: a cursor is made from a file,
or from another cursor. That is why what an action makes is looked up in the whole shelf
(`made?`), and everything else in the arena alone. -/

/-- What an action is to the objects of a sort: one that makes one of them, changes it or takes it
back, or none of these. -/
inductive Role (k : Kind) where
  | makes
  | moves (object : Handle k)
  | drops (object : Handle k)
  | other
  deriving DecidableEq

/-- What is left of an arena of such objects after the action.  `made` is the object that it makes, if
any, and `next` is what a move makes of an object. -/
def Role.apply {k : Kind} {α : Type} (next : α → α) (made : Option α) (arena : Arena k α) :
    Role k → Arena k α
  | .makes => made.elim arena (fun x => (arena.alloc x).2)
  | .moves object => object.elim arena (arena.modify · next)
  | .drops object => object.elim arena arena.erase
  | .other => arena

/-- A sort of objects on a shelf. -/
structure Custody (k : Kind) (α : Type) where
  held : Shelf → Arena k α
  role : Action → Role k
  /-- The object that an action makes, if it makes one. -/
  made? : Shelf → Action → Option α
  /-- What the caller gets for it. -/
  answer : Shelf → Action → Handle k
  /-- The object after it has been moved. -/
  next : α → α
  held_initial : ∀ r, (held initial).get? r = none
  made?_eq_none : ∀ {s a}, role a ≠ .makes → made? s a = none
  answer_eq : ∀ s a, answer s a = (made? s a).map (fun x => ((held s).alloc x).1)
  held_act : ∀ s a, held (s.act a) = (role a).apply next (made? s a) (held s)

namespace Custody

variable {k : Kind} {α : Type} (c : Custody k α) {s : Shelf} {a : Action} {r : Ref k} {x y : α}

/-- What is there after an action: what it makes, and what was there and is not taken back. -/
theorem get?_act : (c.held (s.act a)).get? r = some y ↔
    c.made? s a = some y ∧ c.answer s a = some r ∨
      c.role a ≠ .drops (some r) ∧ ∃ x, (c.held s).get? r = some x ∧
        (if c.role a = .moves (some r) then c.next x else x) = y := by
  rw [c.held_act, c.answer_eq]
  -- one case for each role
  cases hrole : c.role a with
  | makes =>
    cases hmade : c.made? s a with
    | none => simp [Role.apply]
    | some x => simp [Role.apply, Arena.get?_alloc_eq_some_iff, and_comm]
  | moves h =>
    have hmade : c.made? s a = none := c.made?_eq_none (by simp [hrole])
    cases h <;> simp [Role.apply, hmade, Arena.get?_modify_eq_some_iff]
  | drops h =>
    have hmade : c.made? s a = none := c.made?_eq_none (by simp [hrole])
    cases h <;> simp [Role.apply, hmade, Arena.get?_erase_eq_some_iff]
  | other =>
    have hmade : c.made? s a = none := c.made?_eq_none (by simp [hrole])
    simp [Role.apply, hmade]

/-- An action leaves an object alone if it neither moves it nor takes it back. -/
theorem get?_act_of_get? (hx : (c.held s).get? r = some x) (hmove : c.role a ≠ .moves (some r))
    (hdrop : c.role a ≠ .drops (some r)) : (c.held (s.act a)).get? r = some x :=
  c.get?_act.2 (.inr ⟨hdrop, x, hx, if_neg hmove⟩)

/-- An object that is made is handed out under a new reference. -/
theorem exists_answer (hx : c.made? s a = some x) :
    ∃ r, c.answer s a = some r ∧ (c.held s).get? r = none :=
  ⟨_, by rw [c.answer_eq, hx, Option.map_some], Arena.get?_alloc_fst ..⟩

/-- What is there was made at some point of the run and has not been taken back since, and it is
what the moves since then have made of it. -/
theorem get?_run {actions : List Action} :
    (c.held (initial.run actions)).get? r = some y ↔
      ∃ before a after start, actions = before ++ a :: after ∧
        c.made? (initial.run before) a = some start ∧ c.answer (initial.run before) a = some r ∧
        (∀ b ∈ after, c.role b ≠ .drops (some r)) ∧
        after.foldl (fun x b => if c.role b = .moves (some r) then c.next x else x) start = y := by
  induction actions using List.reverseRecOn generalizing y with
  | nil => simp [c.held_initial]
  | append_singleton actions last ih =>
    rw [run_concat, c.get?_act]
    constructor
    · rintro (⟨hmade, hanswer⟩ | ⟨hdrop, x, hx, rfl⟩)
      -- it has just been made, and nothing has happened to it since
      · exact ⟨actions, last, [], y, rfl, hmade, hanswer, by simp, rfl⟩
      · obtain ⟨before, a, after, start, rfl, hmade, hanswer, hkept, rfl⟩ := ih.1 hx
        -- it was there before, and the last action is one more that has happened to it
        refine ⟨before, a, after ++ [last], start, by simp, hmade, hanswer, ?_, by simp⟩
        intro b hb
        rcases List.mem_append.1 hb with hb | hb
        · exact hkept b hb
        · rwa [List.mem_singleton.1 hb]
    · rintro ⟨before, a, after, start, hsplit, hmade, hanswer, hkept, rfl⟩
      -- the last action of the run is the one that makes the object, or it comes after it
      rcases List.eq_nil_or_concat after with rfl | ⟨after, b, rfl⟩
      · obtain ⟨rfl, hlast⟩ := List.append_inj' hsplit rfl
        cases hlast
        exact .inl ⟨hmade, hanswer⟩
      · rw [List.concat_eq_append] at hsplit hkept ⊢
        rw [← List.cons_append, ← List.append_assoc] at hsplit
        obtain ⟨rfl, hlast⟩ := List.append_inj' hsplit rfl
        cases hlast
        refine .inr ⟨hkept last (by simp), _, ih.2 ⟨before, a, after, start, rfl, hmade, hanswer,
          fun b hb => hkept b (by simp [hb]), rfl⟩, by simp⟩

/-- What holds of the objects that are made from such, and is kept when they are moved, holds of all
of them. -/
theorem invariant {P : α → Prop}
    (hmade : ∀ {s a y}, (∀ r x, (c.held s).get? r = some x → P x) → c.made? s a = some y → P y)
    (hnext : ∀ {x}, P x → P (c.next x)) (actions : List Action) :
    ∀ r x, (c.held (initial.run actions)).get? r = some x → P x := by
  induction actions using List.reverseRecOn with
  | nil => simp [c.held_initial]
  | append_singleton actions a ih =>
    intro r y hy
    rw [run_concat, c.get?_act] at hy
    rcases hy with ⟨hmake, -⟩ | ⟨-, x, hx, rfl⟩
    · exact hmade ih hmake
    · split
      · exact hnext (ih r x hx)
      · exact ih r x hx

end Custody

end Shelf

end ForeignHandles
