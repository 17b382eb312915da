import ForeignHandles.Proofs.ObjectFile.Run
import ForeignHandles.Proofs.ObjectFile.Script

/-!
  Cursors read what was built, each from its own place.

  A cursor is made by opening a file, or a section for its relocations, or by cloning another cursor
  of its kind.  From then on only its own moves count: it stands as many elements behind the place
  where it was made as it has been moved, or at the end (`foldl_next`).  What the caller does with
  the file, with the origin of a clone or with the section cursor of a relocation cursor makes no
  difference.

  The three kinds of cursors are sorts of objects with a position (`Track`), and what a run does to
  the cursors of a kind is the same for all of them (`Track.Follows`).  `CursorsFaithful` adds what
  the files are and what a caller reads at a cursor, and every run has it (`cursors_faithful`).

  A cursor carries its own file. That is how the code keeps a file alive under a cursor after the
  caller has dropped it, and it is why nothing has to be said here about when a file may be dropped:
  a file under a cursor is a file of some script (`hasFile_run`), whoever else still has it.
-/
namespace ForeignHandles.Shelf

variable {s : Shelf} {a : Action} {actions : List Action}

/-! ## Moves

A move beyond the last element leaves a cursor at the end, so a position is the number of moves
cut off at the length of the list. -/

/-- Moves take a cursor on, one element each, up to the end. `put` is the cursor at a position. -/
theorem foldl_next {α : Type} {put : Nat → α} {next : α → α} {length : Nat}
    (hnext : ∀ position, next (put position) = put (advancePosition length position))
    (move : Action) (actions : List Action) {position : Nat} (h : position ≤ length) :
    actions.foldl (fun x a => if a = move then next x else x) (put position) =
      put (min length (position + actions.count move)) := by
  induction actions generalizing position with
  | nil => simp [h]
  | cons a actions ih =>
    rw [List.foldl_cons]
    by_cases hmove : a = move
    -- one move more, and one less to come
    · rw [if_pos hmove, hnext, ih (advancePosition_le h), advancePosition_eq_min _ _ h, hmove,
        List.count_cons_self]
      have hmin : min length (min length (position + 1) + actions.count move) =
          min length (position + (actions.count move + 1)) := by omega
      rw [hmin]
    · rw [if_neg hmove, ih h, List.count_cons_of_ne hmove]

/-! ## A sort of cursors

What a cursor is to a run is said once, for anything that has a position and a length. A sort
brings its actions, its arena and the equations that tie a move to the position; it does not bring
what is read at a cursor, which is different for each of the three. -/

/-- A sort of objects with a position in a list, which only their own moves change. -/
structure Track (k : Kind) (α : Type) extends Custody k α where
  position : α → Nat
  /-- The length of the list that a cursor goes through. -/
  length : α → Nat
  /-- The cursor at another position. -/
  placed : α → Nat → α
  move : Handle k → Action
  close : Handle k → Action
  role_eq_moves_iff : ∀ {a h}, role a = .moves h ↔ a = move h
  role_eq_drops_iff : ∀ {a h}, role a = .drops h ↔ a = close h
  placed_position : ∀ x, placed x (position x) = x
  position_placed : ∀ x p, position (placed x p) = p
  length_placed : ∀ x p, length (placed x p) = length x
  next_placed : ∀ x p, next (placed x p) = placed x (advancePosition (length x) p)
  /-- A cursor is made at the first element or where another one stands. -/
  position_of_made : ∀ {s a x}, made? s a = some x →
    position x = 0 ∨ ∃ r, (held s).get? r = some x

namespace Track

variable {k : Kind} {α : Type} (t : Track k α)

/-- A move leaves the list, -/
theorem length_next (x : α) : t.length (t.next x) = t.length x := by
  rw [← t.placed_position x, t.next_placed, t.length_placed, t.length_placed]

/-- and takes the position on by one, or leaves it at the end. -/
theorem position_next (x : α) :
    t.position (t.next x) = advancePosition (t.length x) (t.position x) := by
  conv_lhs => rw [← t.placed_position x, t.next_placed, t.position_placed]

/-- A cursor is never beyond the end. -/
theorem position_le (actions : List Action) {r : Ref k} {x : α}
    (hx : (t.held (initial.run actions)).get? r = some x) : t.position x ≤ t.length x := by
  refine t.invariant (P := fun x => t.position x ≤ t.length x) ?_ ?_ actions r x hx
  · intro s a y hall hmade
    rcases t.position_of_made hmade with h | ⟨r, h⟩
    · exact h ▸ Nat.zero_le _
    · exact hall r y h
  · intro x hx
    rw [t.length_next, t.position_next]
    exact advancePosition_le hx

/-- Where cursors are. -/
theorem get?_run_iff {actions : List Action} {r : Ref k} {x : α} :
    (t.held (initial.run actions)).get? r = some x ↔
      ∃ before a after start, actions = before ++ a :: after ∧
        t.made? (initial.run before) a = some start ∧ t.answer (initial.run before) a = some r ∧
        t.close (some r) ∉ after ∧
        t.placed start
          (min (t.length start) (t.position start + after.count (t.move (some r)))) = x := by
  rw [t.get?_run]
  refine exists_congr fun before => exists_congr fun a => exists_congr fun after =>
    exists_congr fun start => and_congr_right fun _ => and_congr_right fun hmade =>
      and_congr_right fun _ => ?_
  -- where a cursor is made is not beyond the end, so the moves can be counted from there
  have hle : t.position start ≤ t.length start := by
    rcases t.position_of_made hmade with h | ⟨r, h⟩
    · exact h ▸ Nat.zero_le _
    · exact t.position_le before h
  -- only its own closing drops a cursor
  have hkept : (∀ b ∈ after, t.role b ≠ .drops (some r)) ↔ t.close (some r) ∉ after := by
    simp only [ne_eq, t.role_eq_drops_iff]
    exact ⟨fun h hmem => h _ hmem rfl, fun h b hb hclose => h (hclose ▸ hb)⟩
  have hmoves := foldl_next (t.next_placed start) (t.move (some r)) after hle
  rw [t.placed_position] at hmoves
  simp only [t.role_eq_moves_iff]
  rw [hkept, hmoves]

/-- What a run does to the cursors of a sort. -/
structure Follows (actions : List Action) : Prop where
  /-- A cursor is there exactly if it was made at some point of the run and has not been closed since.
  It stands as many elements behind the place where it was made as it has been moved since, or at
  the end. -/
  stands : ∀ r x, (t.held (initial.run actions)).get? r = some x ↔
    ∃ before a after start, actions = before ++ a :: after ∧
      t.made? (initial.run before) a = some start ∧ t.answer (initial.run before) a = some r ∧
      t.close (some r) ∉ after ∧
      t.placed start
        (min (t.length start) (t.position start + after.count (t.move (some r)))) = x
  within : ∀ r x, (t.held (initial.run actions)).get? r = some x → t.position x ≤ t.length x
  /-- A cursor that can be made next is handed out under a new handle, and stands where it was
  made. -/
  makes : ∀ a x, t.made? (initial.run actions) a = some x →
    ∃ r, t.answer (initial.run actions) a = some r ∧
      (t.held (initial.run actions)).get? r = none ∧
      (t.held (initial.run (actions ++ [a]))).get? r = some x
  refuses : ∀ a, t.made? (initial.run actions) a = none → t.answer (initial.run actions) a = none
  /-- Whatever happens next leaves a cursor alone, unless it moves or closes this very cursor. -/
  apart : ∀ a r x, (t.held (initial.run actions)).get? r = some x → a ≠ t.move (some r) →
    a ≠ t.close (some r) → (t.held (initial.run (actions ++ [a]))).get? r = some x

/-- Every sort of cursors follows, in every run. -/
theorem follows (actions : List Action) : t.Follows actions where
  stands _ _ := t.get?_run_iff
  within _ _ hx := t.position_le actions hx
  makes a x hmade := by
    obtain ⟨r, hanswer, hfresh⟩ := t.exists_answer hmade
    refine ⟨r, hanswer, hfresh, ?_⟩
    rw [run_concat]
    exact t.get?_act.2 (.inl ⟨hmade, hanswer⟩)
  refuses a hmade := by rw [t.answer_eq, hmade, Option.map_none]
  apart a r x hx hmove hclose := by
    rw [run_concat]
    exact t.get?_act_of_get? hx (mt t.role_eq_moves_iff.1 hmove) (mt t.role_eq_drops_iff.1 hclose)

end Track

/-! ## What actions are to files and cursors

Every action is, to each of the four arenas, one of these: it makes an object, takes one on by a
move, drops one, or is none of its business. `act_eq` says that this describes all that an action
does. -/

/-- What an action is to files. -/
def fileRole : Action → Role .objectFile
  | .handOut _ => .makes
  | .dropFile file => .drops (some file)
  | _ => .other

/-- The file that an action hands out. -/
def fileMade? : Action → Option ObjectFile
  | .handOut script => (ObjectFile.build script).toOption
  | _ => none

/-- What an action is to section cursors. -/
def sectionRole : Action → Role .sectionCursor
  | .openSections _ | .cloneSection _ => .makes
  | .moveSection cursor => .moves cursor
  | .closeSection cursor => .drops cursor
  | _ => .other

/-- The section cursor that an action makes: one at the first section of a file, or one where
another cursor stands. -/
def sectionMade? (s : Shelf) : Action → Option SectionCursor
  | .openSections file => (s.file? file).map (fun file => { file, position := 0 })
  | .cloneSection origin => s.section? origin
  | _ => none

/-- What the caller gets for it. -/
def sectionAnswer (s : Shelf) : Action → Handle .sectionCursor
  | .openSections file => (s.openSections file).1
  | .cloneSection origin => (s.cloneSection origin).1
  | _ => none

/-- What an action is to symbol cursors. -/
def symbolRole : Action → Role .symbolCursor
  | .openSymbols _ | .cloneSymbol _ => .makes
  | .moveSymbol cursor => .moves cursor
  | .closeSymbol cursor => .drops cursor
  | _ => .other

/-- The symbol cursor that an action makes: one at the first symbol of a file, or one where another
cursor stands. -/
def symbolMade? (s : Shelf) : Action → Option SymbolCursor
  | .openSymbols file => (s.file? file).map (fun file => { file, position := 0 })
  | .cloneSymbol origin => s.symbol? origin
  | _ => none

/-- What the caller gets for it. -/
def symbolAnswer (s : Shelf) : Action → Handle .symbolCursor
  | .openSymbols file => (s.openSymbols file).1
  | .cloneSymbol origin => (s.cloneSymbol origin).1
  | _ => none

/-- What an action is to relocation cursors. -/
def relocationRole : Action → Role .relocationCursor
  | .openRelocations _ | .cloneRelocation _ => .makes
  | .moveRelocation cursor => .moves cursor
  | .closeRelocation cursor => .drops cursor
  | _ => .other

/-- The relocation cursor that an action makes: one at the first relocation of the section where a
section cursor stands, or one where another relocation cursor stands. -/
def relocationMade? (s : Shelf) : Action → Option RelocationCursor
  | .openRelocations cursor =>
    (s.section? cursor).map (fun x =>
      { file := x.file, sectionIndex := x.position, position := 0 })
  | .cloneRelocation origin => s.relocation? origin
  | _ => none

/-- What the caller gets for it. -/
def relocationAnswer (s : Shelf) : Action → Handle .relocationCursor
  | .openRelocations cursor => (s.openRelocations cursor).1
  | .cloneRelocation origin => (s.cloneRelocation origin).1
  | _ => none

/-- A cursor that can be made is allocated, and the caller gets its handle; otherwise nothing
happens. So for section cursors, -/
theorem addSection_eq (s : Shelf) (x : Option SectionCursor) :
    s.addSection x = (x.map (fun x => (s.sections.alloc x).1),
      { s with sections := x.elim s.sections (fun x => (s.sections.alloc x).2) }) := by
  cases x <;> rfl

/-- for symbol cursors -/
theorem addSymbol_eq (s : Shelf) (x : Option SymbolCursor) :
    s.addSymbol x = (x.map (fun x => (s.symbols.alloc x).1),
      { s with symbols := x.elim s.symbols (fun x => (s.symbols.alloc x).2) }) := by
  cases x <;> rfl

/-- and for relocation cursors. -/
theorem addRelocation_eq (s : Shelf) (x : Option RelocationCursor) :
    s.addRelocation x = (x.map (fun x => (s.relocations.alloc x).1),
      { s with relocations := x.elim s.relocations (fun x => (s.relocations.alloc x).2) }) := by
  cases x <;> rfl

/-- Every action works on the four arenas by its roles. -/
theorem act_eq (s : Shelf) (a : Action) : s.act a =
    { files := (fileRole a).apply id (fileMade? a) s.files
      sections := (sectionRole a).apply (·.next) (sectionMade? s a) s.sections
      symbols := (symbolRole a).apply (·.next) (symbolMade? s a) s.symbols
      relocations := (relocationRole a).apply (·.next) (relocationMade? s a) s.relocations } := by
  cases a with
  | handOut script =>
    simp only [act, fileMade?]
    -- a script may be refused, and then no arena changes
    cases ObjectFile.build script <;> rfl
  | dropFile file => rfl
  | openSections file =>
    rw [act, openSections, addSection_eq]
    rfl
  | cloneSection origin =>
    rw [act, cloneSection, addSection_eq]
    rfl
  | moveSection cursor => cases cursor <;> rfl
  | closeSection cursor => cases cursor <;> rfl
  | openSymbols file =>
    rw [act, openSymbols, addSymbol_eq]
    rfl
  | cloneSymbol origin =>
    rw [act, cloneSymbol, addSymbol_eq]
    rfl
  | moveSymbol cursor => cases cursor <;> rfl
  | closeSymbol cursor => cases cursor <;> rfl
  | openRelocations cursor =>
    rw [act, openRelocations, addRelocation_eq]
    rfl
  | cloneRelocation origin =>
    rw [act, cloneRelocation, addRelocation_eq]
    rfl
  | moveRelocation cursor => cases cursor <;> rfl
  | closeRelocation cursor => cases cursor <;> rfl

/-! ## The four sorts

Files are only handed out and dropped, so they are a `Custody` without moves. The three sorts of
cursors are tracks; their fields follow from `act_eq` and from what `next` does to a position. -/

/-- Files are held from handing out to dropping, and are never changed. -/
def fileCustody : Custody .objectFile ObjectFile where
  held := Shelf.files
  role := fileRole
  made? _ := fileMade?
  answer s a := (fileMade? a).map (fun f => (s.addFile f).1)
  next := id
  held_initial _ := rfl
  made?_eq_none {s a} h := by
    cases a with
    | handOut script => exact absurd rfl h
    | _ => rfl
  answer_eq _ _ := rfl
  held_act s a := congrArg Shelf.files (act_eq s a)

/-- Section cursors go through the sections of their file. -/
def sectionTrack : Track .sectionCursor SectionCursor where
  held := Shelf.sections
  role := sectionRole
  made? := sectionMade?
  answer := sectionAnswer
  next := SectionCursor.next
  held_initial _ := rfl
  made?_eq_none {s a} h := by
    cases a with
    | openSections | cloneSection => exact absurd rfl h
    | _ => rfl
  answer_eq s a := by
    cases a with
    | openSections file => exact congrArg Prod.fst (addSection_eq s _)
    | cloneSection origin => exact congrArg Prod.fst (addSection_eq s _)
    | _ => rfl
  held_act s a := congrArg Shelf.sections (act_eq s a)
  position := SectionCursor.position
  length := (·.file.sections.length)
  placed x position := { x with position }
  move := .moveSection
  close := .closeSection
  role_eq_moves_iff {a h} := by cases a <;> simp [sectionRole]
  role_eq_drops_iff {a h} := by cases a <;> simp [sectionRole]
  placed_position _ := rfl
  position_placed _ _ := rfl
  length_placed _ _ := rfl
  next_placed _ _ := rfl
  position_of_made {s a x} h := by
    cases a with
    | openSections file =>
      obtain ⟨_, -, rfl⟩ := Option.map_eq_some_iff.1 h
      exact .inl rfl
    | cloneSection origin =>
      obtain ⟨r, -, hr⟩ := Option.bind_eq_some_iff.1 h
      exact .inr ⟨r, hr⟩
    | _ => cases h

/-- Symbol cursors go through the symbols of their file. -/
def symbolTrack : Track .symbolCursor SymbolCursor where
  held := Shelf.symbols
  role := symbolRole
  made? := symbolMade?
  answer := symbolAnswer
  next := SymbolCursor.next
  held_initial _ := rfl
  made?_eq_none {s a} h := by
    cases a with
    | openSymbols | cloneSymbol => exact absurd rfl h
    | _ => rfl
  answer_eq s a := by
    cases a with
    | openSymbols file => exact congrArg Prod.fst (addSymbol_eq s _)
    | cloneSymbol origin => exact congrArg Prod.fst (addSymbol_eq s _)
    | _ => rfl
  held_act s a := congrArg Shelf.symbols (act_eq s a)
  position := SymbolCursor.position
  length := (·.file.symbols.length)
  placed x position := { x with position }
  move := .moveSymbol
  close := .closeSymbol
  role_eq_moves_iff {a h} := by cases a <;> simp [symbolRole]
  role_eq_drops_iff {a h} := by cases a <;> simp [symbolRole]
  placed_position _ := rfl
  position_placed _ _ := rfl
  length_placed _ _ := rfl
  next_placed _ _ := rfl
  position_of_made {s a x} h := by
    cases a with
    | openSymbols file =>
      obtain ⟨_, -, rfl⟩ := Option.map_eq_some_iff.1 h
      exact .inl rfl
    | cloneSymbol origin =>
      obtain ⟨r, -, hr⟩ := Option.bind_eq_some_iff.1 h
      exact .inr ⟨r, hr⟩
    | _ => cases h

/-- Relocation cursors go through the relocations of the section where they were opened. -/
def relocationTrack : Track .relocationCursor RelocationCursor where
  held := Shelf.relocations
  role := relocationRole
  made? := relocationMade?
  answer := relocationAnswer
  next := RelocationCursor.next
  held_initial _ := rfl
  made?_eq_none {s a} h := by
    cases a with
    | openRelocations | cloneRelocation => exact absurd rfl h
    | _ => rfl
  answer_eq s a := by
    cases a with
    | openRelocations cursor => exact congrArg Prod.fst (addRelocation_eq s _)
    | cloneRelocation origin => exact congrArg Prod.fst (addRelocation_eq s _)
    | _ => rfl
  held_act s a := congrArg Shelf.relocations (act_eq s a)
  position := RelocationCursor.position
  length := (·.relocations.length)
  placed x position := { x with position }
  move := .moveRelocation
  close := .closeRelocation
  role_eq_moves_iff {a h} := by cases a <;> simp [relocationRole]
  role_eq_drops_iff {a h} := by cases a <;> simp [relocationRole]
  placed_position _ := rfl
  position_placed _ _ := rfl
  length_placed _ _ := rfl
  next_placed _ _ := rfl
  position_of_made {s a x} h := by
    cases a with
    | openRelocations cursor =>
      obtain ⟨_, -, rfl⟩ := Option.map_eq_some_iff.1 h
      exact .inl rfl
    | cloneRelocation origin =>
      obtain ⟨r, -, hr⟩ := Option.bind_eq_some_iff.1 h
      exact .inr ⟨r, hr⟩
    | _ => cases h

/-! ## Files

A file comes to the shelf by being handed out, and by nothing else. After that it may be in the
caller's hands and under any number of cursors. -/

/-- A file that a caller holds, or that lies under a cursor. -/
def HasFile (s : Shelf) (f : ObjectFile) : Prop :=
  (∃ r, s.files.get? r = some f) ∨ (∃ r x, s.sections.get? r = some x ∧ x.file = f) ∨
    (∃ r x, s.symbols.get? r = some x ∧ x.file = f) ∨
    ∃ r x, s.relocations.get? r = some x ∧ x.file = f

/-- A new section cursor has the file that it was opened for, or that of the cursor it is a clone
of. -/
theorem hasFile_of_sectionMade? {x : SectionCursor} (h : sectionMade? s a = some x) :
    s.HasFile x.file := by
  cases a with
  | openSections file =>
    obtain ⟨f, hf, rfl⟩ := Option.map_eq_some_iff.1 h
    obtain ⟨r, -, hr⟩ := Option.bind_eq_some_iff.1 hf
    exact .inl ⟨r, hr⟩
  | cloneSection origin =>
    obtain ⟨r, -, hr⟩ := Option.bind_eq_some_iff.1 h
    exact .inr (.inl ⟨r, x, hr, rfl⟩)
  | _ => cases h

/-- So does a new symbol cursor. -/
theorem hasFile_of_symbolMade? {x : SymbolCursor} (h : symbolMade? s a = some x) :
    s.HasFile x.file := by
  cases a with
  | openSymbols file =>
    obtain ⟨f, hf, rfl⟩ := Option.map_eq_some_iff.1 h
    obtain ⟨r, -, hr⟩ := Option.bind_eq_some_iff.1 hf
    exact .inl ⟨r, hr⟩
  | cloneSymbol origin =>
    obtain ⟨r, -, hr⟩ := Option.bind_eq_some_iff.1 h
    exact .inr (.inr (.inl ⟨r, x, hr, rfl⟩))
  | _ => cases h

/-- A new relocation cursor has the file of the section cursor, or of the cursor it is a clone of.
-/
theorem hasFile_of_relocationMade? {x : RelocationCursor} (h : relocationMade? s a = some x) :
    s.HasFile x.file := by
  cases a with
  | openRelocations cursor =>
    obtain ⟨y, hy, rfl⟩ := Option.map_eq_some_iff.1 h
    obtain ⟨r, -, hr⟩ := Option.bind_eq_some_iff.1 hy
    exact .inr (.inl ⟨r, y, hr, rfl⟩)
  | cloneRelocation origin =>
    obtain ⟨r, -, hr⟩ := Option.bind_eq_some_iff.1 h
    exact .inr (.inr (.inr ⟨r, x, hr, rfl⟩))
  | _ => cases h

/-- The only files that come to the shelf are those handed out. -/
theorem hasFile_act {f : ObjectFile} (h : (s.act a).HasFile f) :
    fileMade? a = some f ∨ s.HasFile f := by
  rcases h with ⟨r, h⟩ | ⟨r, y, h, rfl⟩ | ⟨r, y, h, rfl⟩ | ⟨r, y, h, rfl⟩
  -- a file in the hands of the caller was handed out by this action, or was held before
  · rcases fileCustody.get?_act.1 h with ⟨hmade, -⟩ | ⟨-, x, hx, rfl⟩
    · exact .inl hmade
    · exact .inr (.inl ⟨r, hx.trans (by split <;> rfl)⟩)
  -- a cursor was made by this action, on a file that was there, or goes on with its file
  · rcases sectionTrack.get?_act.1 h with ⟨hmade, -⟩ | ⟨-, x, hx, rfl⟩
    · exact .inr (hasFile_of_sectionMade? hmade)
    · exact .inr (.inr (.inl ⟨r, x, hx, by split <;> rfl⟩))
  · rcases symbolTrack.get?_act.1 h with ⟨hmade, -⟩ | ⟨-, x, hx, rfl⟩
    · exact .inr (hasFile_of_symbolMade? hmade)
    · exact .inr (.inr (.inr (.inl ⟨r, x, hx, by split <;> rfl⟩)))
  · rcases relocationTrack.get?_act.1 h with ⟨hmade, -⟩ | ⟨-, x, hx, rfl⟩
    · exact .inr (hasFile_of_relocationMade? hmade)
    · exact .inr (.inr (.inr (.inr ⟨r, x, hx, by split <;> rfl⟩)))

/-- A script makes a file if no relocation comes before the first section, and the file is what
the script describes. -/
theorem fileMade?_eq_some_iff {f : ObjectFile} : fileMade? a = some f ↔
    ∃ script, a = .handOut script ∧ Script.leading script = [] ∧ Script.file script = f := by
  cases a with
  | handOut script =>
    rw [fileMade?, Script.build_eq]
    by_cases h : Script.leading script = [] <;> simp [h, Except.toOption]
  | _ => simp [fileMade?]

/-- Every file on the shelf is what some script of the run describes. -/
theorem hasFile_run {f : ObjectFile} (h : (initial.run actions).HasFile f) :
    ∃ script, .handOut script ∈ actions ∧ Script.leading script = [] ∧ Script.file script = f := by
  induction actions using List.reverseRecOn with
  | nil => simp [HasFile, initial, default, Arena.get?] at h
  | append_singleton actions a ih =>
    rw [run_concat] at h
    rcases hasFile_act h with hmade | h
    · obtain ⟨script, rfl, hbuilt⟩ := fileMade?_eq_some_iff.1 hmade
      exact ⟨script, by simp, hbuilt⟩
    · obtain ⟨script, hmem, hbuilt⟩ := ih h
      exact ⟨script, by simp [hmem], hbuilt⟩

/-- The caller holds a file from the moment it is handed out until it is dropped. -/
theorem files_run {r : Ref .objectFile} {f : ObjectFile} :
    (initial.run actions).files.get? r = some f ↔
      ∃ before script after, actions = before ++ .handOut script :: after ∧
        Script.leading script = [] ∧ Script.file script = f ∧
        ((initial.run before).addFile f).1 = r ∧ .dropFile r ∉ after := by
  refine fileCustody.get?_run.trans ?_
  constructor
  · rintro ⟨before, a, after, start, rfl, hmade, hanswer, hkept, rfl⟩
    obtain ⟨script, rfl, hleading, rfl⟩ := fileMade?_eq_some_iff.1 hmade
    refine ⟨before, script, after, rfl, hleading, ?_, ?_, fun h => hkept _ h rfl⟩
    -- nothing that happens to a file changes it
    · exact (List.foldl_fixed' (fun _ => ite_self _) after).symm
    · rw [fileCustody.answer_eq, hmade] at hanswer
      exact Option.some.inj hanswer
  · rintro ⟨before, script, after, rfl, hleading, rfl, rfl, hkept⟩
    have hmade : fileMade? (.handOut script) = some (Script.file script) :=
      fileMade?_eq_some_iff.2 ⟨script, rfl, hleading, rfl⟩
    refine ⟨before, .handOut script, after, Script.file script, rfl, hmade, ?_, ?_, ?_⟩
    · exact congrArg (Option.map _) hmade
    · intro b hb hdrop
      cases b with
      | dropFile file =>
        cases hdrop
        exact hkept hb
      | _ => cases hdrop
    · exact List.foldl_fixed' (fun _ => ite_self _) after

/-! ## Reading

The three structures list every getter of a cursor, at an element and at the end. What is lent is
a place with a length, and none for an empty text. -/

/-- What a caller reads at a section cursor. -/
structure ReadsSection (s : Shelf) (h : Handle .sectionCursor) (x : SectionCursor) : Prop where
  atEnd : s.sectionAtEnd h = true ↔ x.position = x.file.sections.length
  element : ∀ e, x.file.sections[x.position]? = some e →
    s.sectionName h = lendText e.name ∧ s.sectionAddress h = e.address ∧
      s.sectionContents h = lend e.contents
  ended : x.position = x.file.sections.length →
    s.sectionName h = none ∧ s.sectionAddress h = 0 ∧ s.sectionContents h = none

/-- What a caller reads at a symbol cursor. -/
structure ReadsSymbol (s : Shelf) (h : Handle .symbolCursor) (x : SymbolCursor) : Prop where
  atEnd : s.symbolAtEnd h = true ↔ x.position = x.file.symbols.length
  element : ∀ e, x.file.symbols[x.position]? = some e →
    s.symbolName h = lendText e.name ∧ s.symbolAddress h = e.address
  ended : x.position = x.file.symbols.length → s.symbolName h = none ∧ s.symbolAddress h = 0

/-- What a caller reads at a relocation cursor. -/
structure ReadsRelocation (s : Shelf) (h : Handle .relocationCursor) (x : RelocationCursor) :
    Prop where
  /-- The cursor goes through the relocations of its section, or through nothing if it was made at
  the end of the sections. -/
  onSection : ∀ e, x.file.sections[x.sectionIndex]? = some e → x.relocations = e.relocations
  offSections : x.sectionIndex = x.file.sections.length → x.relocations = []
  atEnd : s.relocationAtEnd h = true ↔ x.position = x.relocations.length
  element : ∀ e, x.relocations[x.position]? = some e →
    s.relocationOffset h = e.offset ∧ s.relocationKind h = e.kind
  symbol : ∀ e index y, x.relocations[x.position]? = some e → e.symbol = some index →
    x.file.symbols[index]? = some y → s.relocationSymbol h = lendText y.name
  noSymbol : ∀ e, x.relocations[x.position]? = some e →
    (∀ index, e.symbol = some index → x.file.symbols.length ≤ index) → s.relocationSymbol h = none
  ended : x.position = x.relocations.length →
    s.relocationOffset h = 0 ∧ s.relocationKind h = 0 ∧ s.relocationSymbol h = none

/-- What the getters of a section cursor give, -/
theorem readsSection {h : Handle .sectionCursor} {x : SectionCursor} (hx : s.section? h = some x)
    (hle : x.position ≤ x.file.sections.length) : s.ReadsSection h x where
  atEnd := by
    simp only [sectionAtEnd, hx, Option.all_some, SectionCursor.atEnd, decide_eq_true_eq]
    omega
  element e he := by
    simp [sectionName, sectionAddress, sectionContents, hx, SectionCursor.current?, he]
  ended hend := by
    simp [sectionName, sectionAddress, sectionContents, hx, SectionCursor.current?, hend]

/-- those of a symbol cursor -/
theorem readsSymbol {h : Handle .symbolCursor} {x : SymbolCursor} (hx : s.symbol? h = some x)
    (hle : x.position ≤ x.file.symbols.length) : s.ReadsSymbol h x where
  atEnd := by
    simp only [symbolAtEnd, hx, Option.all_some, SymbolCursor.atEnd, decide_eq_true_eq]
    omega
  element e he := by simp [symbolName, symbolAddress, hx, SymbolCursor.current?, he]
  ended hend := by simp [symbolName, symbolAddress, hx, SymbolCursor.current?, hend]

/-- and those of a relocation cursor. -/
theorem readsRelocation {h : Handle .relocationCursor} {x : RelocationCursor}
    (hx : s.relocation? h = some x) (hle : x.position ≤ x.relocations.length) :
    s.ReadsRelocation h x where
  onSection e he := by simp [RelocationCursor.relocations, ObjectFile.relocationsOf, he]
  offSections hend := by simp [RelocationCursor.relocations, ObjectFile.relocationsOf, hend]
  atEnd := by
    simp only [relocationAtEnd, hx, Option.all_some, RelocationCursor.atEnd, decide_eq_true_eq]
    omega
  element e he := by
    simp [relocationOffset, relocationKind, hx, RelocationCursor.current?, he]
  symbol e index y he hindex hy := by
    simp [relocationSymbol, hx, RelocationCursor.symbolName?, RelocationCursor.current?, he, hindex,
      hy]
  noSymbol e he hindex := by
    cases hsymbol : e.symbol with
    -- a relocation without a symbol, or with one that the file does not have
    | none =>
      simp [relocationSymbol, hx, RelocationCursor.symbolName?, RelocationCursor.current?, he,
        hsymbol]
    | some index =>
      simp [relocationSymbol, hx, RelocationCursor.symbolName?, RelocationCursor.current?, he,
        hsymbol, hindex index hsymbol]
  ended hend := by
    simp [relocationOffset, relocationKind, relocationSymbol, hx, RelocationCursor.symbolName?,
      RelocationCursor.current?, hend]

/-- What files and cursors are after a run. -/
structure CursorsFaithful (actions : List Action) : Prop where
  /-- A file is what its script describes, and it is there until it is dropped. -/
  files : ∀ r f, (initial.run actions).files.get? r = some f ↔
    ∃ before script after, actions = before ++ .handOut script :: after ∧
      Script.leading script = [] ∧ Script.file script = f ∧
      ((initial.run before).addFile f).1 = r ∧ .dropFile r ∉ after
  /-- Also under a cursor, where it may have been dropped, a file is what a script describes. -/
  built : ∀ f, (initial.run actions).HasFile f →
    ∃ script, .handOut script ∈ actions ∧ Script.leading script = [] ∧ Script.file script = f
  sections : sectionTrack.Follows actions
  symbols : symbolTrack.Follows actions
  relocations : relocationTrack.Follows actions
  readsSection : ∀ h x, (initial.run actions).section? h = some x →
    (initial.run actions).ReadsSection h x
  readsSymbol : ∀ h x, (initial.run actions).symbol? h = some x →
    (initial.run actions).ReadsSymbol h x
  readsRelocation : ∀ h x, (initial.run actions).relocation? h = some x →
    (initial.run actions).ReadsRelocation h x

/-- **Cursors read what was built.** However files are handed out and dropped and cursors opened,
cloned, moved and closed, every cursor stands where its own moves have taken it from the place where
it was made, reads the element there of what was built, and is at the end and reads nothing behind
the last one.

The three sorts of cursors differ in what they walk over and are alike in everything else, so where
they stand is shown once (`Track`), for a table of cursors whose bound may depend on the file.  What
they read there is shown for each sort, since elements have different parts. -/
theorem cursors_faithful (actions : List Action) : CursorsFaithful actions where
  files _ _ := files_run
  built _ h := hasFile_run h
  sections := sectionTrack.follows actions
  symbols := symbolTrack.follows actions
  relocations := relocationTrack.follows actions
  readsSection h x hx := by
    obtain ⟨r, rfl, hr⟩ := Option.bind_eq_some_iff.1 hx
    exact Shelf.readsSection hx (sectionTrack.position_le actions hr)
  readsSymbol h x hx := by
    obtain ⟨r, rfl, hr⟩ := Option.bind_eq_some_iff.1 hx
    exact Shelf.readsSymbol hx (symbolTrack.position_le actions hr)
  readsRelocation h x hx := by
    obtain ⟨r, rfl, hr⟩ := Option.bind_eq_some_iff.1 hx
    exact Shelf.readsRelocation hx (relocationTrack.position_le actions hr)

/-- Two sections with a relocation each, whose file is dropped while cursors go on: the section cursor
at its end, a clone of it and the relocations of the first section where they were made. -/
example :
    let s := initial.run
      [.handOut [.addSection "text" 16 [], .addRelocation ⟨1, 4, none⟩, .addSection "data" 32 [],
          .addRelocation ⟨2, 4, some 0⟩],
        .openSections (some ⟨0⟩), .openRelocations (some ⟨0⟩), .dropFile ⟨0⟩,
        .moveSection (some ⟨0⟩), .cloneSection (some ⟨0⟩), .moveSection (some ⟨0⟩),
        .moveSection (some ⟨0⟩)]
    s.sectionAtEnd (some ⟨0⟩) = true ∧ s.sectionAddress (some ⟨0⟩) = 0 ∧
      s.sectionAtEnd (some ⟨1⟩) = false ∧ s.sectionAddress (some ⟨1⟩) = 32 ∧
      s.relocationOffset (some ⟨0⟩) = 1 := by
  decide

end ForeignHandles.Shelf
