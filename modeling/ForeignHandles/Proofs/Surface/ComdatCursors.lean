import ForeignHandles.Proofs.Surface.ComdatLists

/-!
  Cursors over the comdats of a module that changes meanwhile.

  A cursor is an index and nothing else.  Whatever happens to the comdats of its module happens under
  it, and what it points at is read off the list at that moment: reading and moving are sound, and a
  cursor that has come to the end stays there until it is reset or the list grows.

  A walk is made of rounds: the current comdat is read, then the cursor is moved, and anything may
  happen in between (`Round`).  If the list only grows meanwhile, then what is read from some index on
  is what is behind that index at the end; the induction is on the rounds, with the index below the
  length of the list (`visits_eq_drop`).  There is one exception.  On an empty list the index is not
  below the length, nothing is read, and a comdat that is added before the cursor is moved is stepped
  over.

  Comdats may also go while a walk is under way. Then the walk may miss some, as everybody who
  iterates over a list while elements are taken out expects, and nothing is said of that but what
  holds of every cursor (`CursorSound`).
-/
namespace ForeignHandles

namespace Host

variable {h : Host} {k : Ref .comdatCursor} {m : Ref .module} {x : ComdatCursor}

/-! ## What actions do to comdats and cursors

Edits are the only actions that make comdats, and they are the only ones to move cursors. Of the
others, redirecting uses and releasing values touch neither, and retiring a module takes away the
comdats of that module. -/

/-- The comdat that an action makes in a module, if it makes a new one. -/
def comdatsMade (m : Ref .module) (h : Host) : Action → List (Ref .comdat)
  | .edit e => h.store.newComdats m e
  | _ => []

/-- Whether an action can take comdats of a module away; a job may retire the module. -/
def Action.dropsFrom (m : Ref .module) : Action → Bool
  | .edit e => e.dropsFrom m
  | .step => true
  | _ => false

/-- What an action makes of a cursor over a module with so many comdats. -/
def Action.cursorAfter (k : Ref .comdatCursor) (count : Nat) (x : ComdatCursor) :
    Action → Option ComdatCursor
  | .edit e => e.cursorAfter k count x
  | _ => some x

/-- Every action leaves, of the comdats of a module, those that it does not take away, in their
order, and adds what it makes at the end. -/
theorem comdatsChange_act (hs : h.Sole) (m : Ref .module) (a : Action) :
    Store.ComdatsChange m (comdatsMade m h a) h.store (h.act a).store := by
  -- jobs and deletions make no comdat, whatever they consist of
  have hother (ha : ∀ e, a ≠ .edit e) : Store.ComdatsChange m [] h.store (h.act a).store := by
    refine store_act (P := fun t => Store.ComdatsChange m [] h.store t) (fun old new ht => ?_)
      (fun v ht => ?_) (fun n _ ht => ?_) hs ha (.of_eq rfl)
    · exact ht.trans (.of_eq rfl)
    · exact ht.trans (.of_eq ((Store.changesOnly_release _ v).comdats (by decide)))
    · exact ht.trans (.of_filter (q := fun _ x => x.module ≠ n) rfl)
  cases a with
  | edit e => exact Store.comdatsChange_edit soleContext h.store m e
  | _ => exact hother (by simp)

/-- An action that takes nothing away only adds. -/
theorem comdatsGrow_act (hs : h.Sole) {a : Action} (ha : a.dropsFrom m = false) :
    Store.ComdatsGrow m (comdatsMade m h a) h.store (h.act a).store := by
  have hother (ha : ∀ e, a ≠ .edit e) (hstep : a ≠ .step) :
      (h.act a).store.comdats = h.store.comdats :=
    store_act (P := fun t => t.comdats = h.store.comdats) (fun _ _ ht => ht)
      (fun v ht => ((Store.changesOnly_release _ v).comdats (by decide)).trans ht)
      (fun _ heq _ => absurd heq hstep) hs ha rfl
  cases a with
  | edit e => exact Store.comdatsGrow_edit soleContext h.store ha
  | step => cases ha
  | _ => exact .of_eq (hother (by simp) (by simp))

/-- Only edits touch cursors, -/
theorem comdatCursors_act (hs : h.Sole) {a : Action} (ha : ∀ e, a ≠ .edit e) :
    (h.act a).store.comdatCursors = h.store.comdatCursors :=
  store_act (P := fun t => t.comdatCursors = h.store.comdatCursors) (fun _ _ ht => ht)
    (fun v ht => ((Store.changesOnly_release _ v).comdatCursors (by decide)).trans ht)
    (fun _ _ ht => ht) hs ha rfl

/-- and what becomes of one is said by `Action.cursorAfter`. -/
theorem get?_comdatCursors_act (hs : h.Sole) (a : Action)
    (hk : k.index < h.store.comdatCursors.next) :
    (h.act a).store.comdatCursors.get? k = (h.store.comdatCursors.get? k).bind
      fun x => a.cursorAfter k (h.store.comdatRefs x.module).length x := by
  cases a with
  | edit e => exact Store.get?_comdatCursors_edit soleContext h.store e hk
  | _ =>
    rw [comdatCursors_act hs (by simp)]
    simp [Action.cursorAfter]

/-- The numbers of cursors are not given back. -/
theorem next_comdatCursors_act (hs : h.Sole) (a : Action) :
    h.store.comdatCursors.next ≤ (h.act a).store.comdatCursors.next := by
  cases a with
  | edit e => exact Store.next_comdatCursors_edit soleContext h.store e
  | _ => exact Nat.le_of_eq (by rw [comdatCursors_act hs (by simp)])

/-! ## The order of the comdats

What a run has made so far, in the order of time, is gathered along the run. The list of a module
is what is left of that. -/

/-- What was made in a module so far is known, and what is left of it is the list. -/
structure TracksComdats (m : Ref .module) (made : List (Ref .comdat)) (h : Host) : Prop where
  known : ∀ r ∈ made, r.index < h.store.comdats.next
  refs : h.store.comdatRefs m = made.filter h.store.comdats.contains

/-- One action more. -/
theorem TracksComdats.act {made : List (Ref .comdat)} (ht : TracksComdats m made h) (hs : h.Sole)
    (a : Action) : TracksComdats m (made ++ comdatsMade m h a) (h.act a) := by
  have hchange := comdatsChange_act hs m a
  -- what is made by this action is there after it
  have hnew : ∀ r ∈ comdatsMade m h a, (h.act a).store.comdats.contains r = true := by
    intro r hr
    refine Store.contains_of_mem_comdatRefs (m := m) ?_
    rw [hchange.refs]
    exact List.mem_append_right _ hr
  constructor
  · intro r hr
    rcases List.mem_append.1 hr with hr | hr
    · exact Nat.lt_of_lt_of_le (ht.known r hr) hchange.next
    · obtain ⟨y, hy⟩ := Option.isSome_iff_exists.1 (hnew r hr)
      exact Arena.index_lt_next_of_get? hy
  · have hold : (made.filter h.store.comdats.contains).filter (h.act a).store.comdats.contains =
        made.filter (h.act a).store.comdats.contains := by
      rw [List.filter_filter]
      refine List.filter_congr fun r hr => ?_
      -- what is there now and is not new was there before
      cases hthere : (h.act a).store.comdats.contains r with
      | false => rfl
      | true => rw [hchange.old hthere (ht.known r hr)]; rfl
    rw [hchange.refs, ht.refs, hold, List.filter_append, List.filter_eq_self.2 hnew]

/-- The comdats of a module are those that were made in it and are still there, in the order in
which they were made. -/
theorem comdatRefs_run (m : Ref .module) (actions : List Action) :
    (opened.run actions).store.comdatRefs m =
      (opened.gather (comdatsMade m) actions).filter
        (opened.run actions).store.comdats.contains := by
  have hany : Along (fun _ _ => True) opened actions :=
    along_of_forall (fun _ _ => trivial) opened actions
  have hstart : TracksComdats m [] opened := ⟨by simp, rfl⟩
  have hrun := gather_invariant (P := fun h made => TracksComdats m made h)
    (fun h made a hs _ ht => ht.act hs a) sole_opened hany hstart
  exact hrun.refs

/-! ## The end of the list

Once a cursor is at the end, the list may become shorter, and the index stays. So it is at the end
or beyond it, until something is added. -/

/-- A cursor over a module that is at or past the end of its list, or has been disposed of. -/
structure PastEnd (h : Host) (k : Ref .comdatCursor) (m : Ref .module) : Prop where
  known : k.index < h.store.comdatCursors.next
  past : ∀ {x}, h.store.comdatCursors.get? k = some x →
    x.module = m ∧ (h.store.comdatRefs m).length ≤ x.index

namespace PastEnd

/-- There is nothing at it. -/
theorem comdatAt (he : h.PastEnd k m) : h.store.comdatAt (some k) = none := by
  cases hk : h.store.comdatCursors.get? k with
  | none => exact Store.comdatAt_of_none hk
  | some x =>
    obtain ⟨rfl, hle⟩ := he.past hk
    rw [Store.comdatAt_eq hk]
    exact List.getElem?_eq_none hle

/-- The cursor stays there until it is reset or a comdat is added. -/
theorem act (hs : h.Sole) (he : h.PastEnd k m) {a : Action}
    (ha : a ≠ .edit (.resetComdatCursor (some k))) (hnew : comdatsMade m h a = []) :
    (h.act a).PastEnd k m where
  known := Nat.lt_of_lt_of_le he.known (next_comdatCursors_act hs a)
  past {x} hx := by
    -- nothing is added, so the list has not become longer
    have hlength : ((h.act a).store.comdatRefs m).length ≤ (h.store.comdatRefs m).length := by
      rw [(comdatsChange_act hs m a).refs, hnew, List.append_nil]
      exact List.length_filter_le ..
    rw [get?_comdatCursors_act hs a he.known] at hx
    obtain ⟨y, hy, hafter⟩ := Option.bind_eq_some_iff.1 hx
    obtain ⟨rfl, hle⟩ := he.past hy
    have hstay : x = y := by
      cases a with
      | edit e => exact Edit.cursorAfter_of_le hle (fun he => ha (he ▸ rfl)) hafter
      | _ => exact (Option.some.inj hafter).symm
    subst hstay
    exact ⟨rfl, Nat.le_trans hlength hle⟩

/-- Moving it says that there is nothing. -/
theorem moved (hs : h.Sole) (he : h.PastEnd k m) :
    (h.store.moveComdatCursor (some k)).1 = false := by
  have hafter : (h.act (.edit (.moveComdatCursor (some k)))).PastEnd k m :=
    he.act hs (by simp) rfl
  rw [Store.moveComdatCursor_fst _ soleContext]
  exact congrArg Option.isSome hafter.comdatAt

/-- It stays there over a run. -/
theorem run (hs : h.Sole) (he : h.PastEnd k m) {actions : List Action}
    (hok : Along (fun h a => a ≠ .edit (.resetComdatCursor (some k)) ∧ comdatsMade m h a = [])
      h actions) : (h.run actions).PastEnd k m := by
  induction actions generalizing h with
  | nil => exact he
  | cons a actions ih =>
    exact ih (sole_of_step (step_act hs a) hs) (he.act hs hok.1.1 hok.1.2) hok.2

end PastEnd

/-- What a cursor that is there becomes when it is moved. -/
theorem get?_moved (hs : h.Sole) (hx : h.store.comdatCursors.get? k = some x) :
    (h.act (.edit (.moveComdatCursor (some k)))).store.comdatCursors.get? k =
      some (if x.index < (h.store.comdatRefs x.module).length then
        { x with index := x.index + 1 } else x) := by
  rw [get?_comdatCursors_act hs _ (Arena.index_lt_next_of_get? hx), hx]
  simp [Action.cursorAfter, Edit.cursorAfter]

/-- Once there is nothing at its new place, it is past the end. -/
theorem pastEnd_of_moved (hs : h.Sole) (hx : h.store.comdatCursors.get? k = some x)
    (hmove : (h.store.moveComdatCursor (some k)).1 = false) :
    (h.act (.edit (.moveComdatCursor (some k)))).PastEnd k x.module where
  known := Nat.lt_of_lt_of_le (Arena.index_lt_next_of_get? hx) (next_comdatCursors_act hs _)
  past {y} hy := by
    have hmodule : y.module = x.module := by
      rw [get?_moved hs hx, Option.some.injEq] at hy
      rw [← hy]
      split <;> rfl
    have hnone : (h.act (.edit (.moveComdatCursor (some k)))).store.comdatAt (some k) = none :=
      Option.isSome_eq_false_iff.1 hmove |> Option.isNone_iff_eq_none.1
    rw [Store.comdatAt_eq hy, hmodule] at hnone
    exact ⟨hmodule, List.getElem?_eq_none_iff.1 hnone⟩

/-! ## Walks

A round has two gaps in which anything undisturbing may happen: before the comdat is read and
between reading and moving. Whether what happens in the second gap is missed depends on whether
there was anything to read. -/

/-- A round of a walk: what happens before the current comdat is read, and what happens from then
until the cursor is moved. -/
structure Round where
  before : List Action
  between : List Action

/-- All that happens in a round over a cursor. -/
def Round.actions (k : Ref .comdatCursor) (r : Round) : List Action :=
  r.before ++ r.between ++ [.edit (.moveComdatCursor (some k))]

/-- What a caller gets to know in a round, and which comdats are added behind its back. -/
structure Reading where
  current : Handle .comdat
  /-- Comdats that are made between the reading and the move. -/
  added : List (Ref .comdat)
  moved : Bool

/-- The reading of one round. -/
def reading (h : Host) (k : Ref .comdatCursor) (m : Ref .module) (r : Round) : Reading where
  current := (h.run r.before).store.comdatAt (some k)
  added := (h.run r.before).gather (comdatsMade m) r.between
  moved := ((h.run (r.before ++ r.between)).store.moveComdatCursor (some k)).1

/-- The readings of a walk. -/
def readings (h : Host) (k : Ref .comdatCursor) (m : Ref .module) : List Round → List Reading
  | [] => []
  | r :: rounds => h.reading k m r :: (h.run (r.actions k)).readings k m rounds

/-- All that happens in a walk. -/
def walk (k : Ref .comdatCursor) (rounds : List Round) : List Action :=
  rounds.flatMap (Round.actions k)

/-- Whether an action takes comdats of the module away or works on the cursor itself. -/
def Action.disturbs (k : Ref .comdatCursor) (m : Ref .module) : Action → Bool
  | .edit (.moveComdatCursor j) | .edit (.resetComdatCursor j) | .edit (.disposeComdatCursor j) =>
    j = some k
  | a => a.dropsFrom m

/-- What does not disturb a cursor leaves it where it is, -/
theorem Action.cursorAfter_of_not_disturbs {a : Action} (ha : a.disturbs k m = false) (count : Nat)
    (x : ComdatCursor) : a.cursorAfter k count x = some x := by
  cases a with
  | edit e =>
    cases e with
    | moveComdatCursor j =>
      have hne : j ≠ some k := by simpa [disturbs] using ha
      simp [cursorAfter, Edit.cursorAfter, hne]
    | resetComdatCursor j =>
      have hne : j ≠ some k := by simpa [disturbs] using ha
      simp [cursorAfter, Edit.cursorAfter, hne]
    | disposeComdatCursor j =>
      have hne : j ≠ some k := by simpa [disturbs] using ha
      simp [cursorAfter, Edit.cursorAfter, hne]
    | _ => rfl
  | _ => rfl

/-- and takes nothing away from the list. -/
theorem Action.dropsFrom_of_not_disturbs {a : Action} (ha : a.disturbs k m = false) :
    a.dropsFrom m = false := by
  cases a with
  | edit e =>
    cases e with
    | dropComdat j y => exact ha
    | dropAllComdats j => exact ha
    | _ => rfl
  | step => exact ha
  | _ => rfl

/-- As long as nothing is taken away, what is made is added at the end. -/
theorem comdatRefs_run_of_grow (hs : h.Sole) {actions : List Action}
    (hgrow : ∀ a ∈ actions, a.dropsFrom m = false) :
    (h.run actions).store.comdatRefs m =
      h.store.comdatRefs m ++ h.gather (comdatsMade m) actions := by
  induction actions generalizing h with
  | nil => exact (List.append_nil _).symm
  | cons a actions ih =>
    have hfirst := (comdatsGrow_act hs (hgrow a List.mem_cons_self)).refs
    have hrest := ih (sole_of_step (step_act hs a) hs)
      fun b hb => hgrow b (List.mem_cons_of_mem a hb)
    rw [run_cons, hrest, hfirst, gather, List.append_assoc]

/-- An undisturbed cursor stays where it is. -/
theorem get?_comdatCursors_run (hs : h.Sole) (hx : h.store.comdatCursors.get? k = some x)
    {actions : List Action} (hquiet : ∀ a ∈ actions, a.disturbs k m = false) :
    (h.run actions).store.comdatCursors.get? k = some x := by
  induction actions generalizing h with
  | nil => exact hx
  | cons a actions ih =>
    refine ih (sole_of_step (step_act hs a) hs) ?_ fun b hb => hquiet b (List.mem_cons_of_mem a hb)
    rw [get?_comdatCursors_act hs a (Arena.index_lt_next_of_get? hx), hx]
    exact Action.cursorAfter_of_not_disturbs (hquiet a List.mem_cons_self) _ x

/-- A round in which nothing is disturbed: the list grows while it goes on, and the cursor moves on
if it is not at the end of what the list is then. -/
theorem round_spec (hs : h.Sole) (hx : h.store.comdatCursors.get? k = some x) (hm : x.module = m)
    {r : Round} (hquiet : ∀ a ∈ r.before ++ r.between, a.disturbs k m = false) :
    ∃ before,
      (h.reading k m r).current = (h.store.comdatRefs m ++ before)[x.index]? ∧
      (h.run (r.actions k)).store.comdatRefs m =
        h.store.comdatRefs m ++ before ++ (h.reading k m r).added ∧
      ∃ y, (h.run (r.actions k)).store.comdatCursors.get? k = some y ∧ y.module = m ∧
        y.index = (if x.index < ((h.run (r.actions k)).store.comdatRefs m).length then
          x.index + 1 else x.index) ∧
        ((h.reading k m r).moved = true ↔
          y.index < ((h.run (r.actions k)).store.comdatRefs m).length) := by
  subst hm
  have hbefore : ∀ a ∈ r.before, a.disturbs k x.module = false :=
    fun a ha => hquiet a (List.mem_append_left _ ha)
  have hs₂ : (h.run (r.before ++ r.between)).Sole := sole_run hs _
  -- nothing disturbs the cursor, neither until it is read nor until it is moved
  have hx₁ := get?_comdatCursors_run hs hx hbefore
  have hx₂ := get?_comdatCursors_run hs hx hquiet
  -- and nothing is taken away
  have hgrow₁ := comdatRefs_run_of_grow hs
    fun a ha => Action.dropsFrom_of_not_disturbs (hbefore a ha)
  have hgrow₂ := comdatRefs_run_of_grow hs
    fun a ha => Action.dropsFrom_of_not_disturbs (hquiet a ha)
  have hmove : h.run (r.actions k) =
      (h.run (r.before ++ r.between)).act (.edit (.moveComdatCursor (some k))) := by
    rw [Round.actions, run_append]
    rfl
  -- the move itself leaves the list alone
  have hrefs : (h.run (r.actions k)).store.comdatRefs x.module =
      (h.run (r.before ++ r.between)).store.comdatRefs x.module := by
    rw [hmove]
    exact (comdatsGrow_act hs₂ (m := x.module) rfl).refs.trans (List.append_nil _)
  refine ⟨h.gather (comdatsMade x.module) r.before, ?_, ?_, ?_⟩
  · exact (Store.comdatAt_eq hx₁).trans (by rw [hgrow₁])
  · rw [hrefs, hgrow₂, gather_append, ← List.append_assoc]
    rfl
  · have hy := get?_moved hs₂ hx₂
    rw [← hmove, ← hrefs] at hy
    have hmodule : (if x.index < ((h.run (r.actions k)).store.comdatRefs x.module).length then
        { x with index := x.index + 1 } else x).module = x.module := by split <;> rfl
    refine ⟨_, hy, hmodule, by split <;> rfl, ?_⟩
    have hmoved : (h.reading k x.module r).moved =
        ((h.run (r.actions k)).store.comdatAt (some k)).isSome := by rw [hmove]; rfl
    rw [hmoved, Store.comdatAt_eq hy, hmodule]
    simp

/-- An undisturbed walk takes nothing away. -/
theorem dropsFrom_of_mem_walk {rounds : List Round}
    (hquiet : ∀ r ∈ rounds, ∀ a ∈ r.before ++ r.between, a.disturbs k m = false) {a : Action}
    (ha : a ∈ walk k rounds) : a.dropsFrom m = false := by
  obtain ⟨r, hr, ha⟩ := List.mem_flatMap.1 ha
  rcases List.mem_append.1 ha with ha | ha
  · exact Action.dropsFrom_of_not_disturbs (hquiet r hr a ha)
  · rw [List.mem_singleton.1 ha]
    rfl

/-- A walk is over after a round that found nothing at the new place, and it goes on after one that
did. -/
theorem over_or_more {r : Round} {rounds : List Round} {n : Nat}
    (hmoved : (h.readings k m (r :: rounds)).map (·.moved) = List.replicate n true ++ [false]) :
    rounds = [] ∧ (h.reading k m r).moved = false ∨
      ∃ n, (h.reading k m r).moved = true ∧
        ((h.run (r.actions k)).readings k m rounds).map (·.moved) =
          List.replicate n true ++ [false] := by
  rw [readings, List.map_cons] at hmoved
  cases n with
  | zero =>
    obtain ⟨hfirst, hnone⟩ := List.cons.inj (hmoved.trans (List.nil_append _))
    cases rounds with
    | nil => exact .inl ⟨rfl, hfirst⟩
    | cons r' rounds => cases hnone
  | succ n =>
    obtain ⟨hfirst, hlater⟩ := List.cons.inj hmoved
    exact .inr ⟨n, hfirst, hlater⟩

/-- Behind an index of a list is the element there and what is behind the next index. -/
theorem drop_append_eq_cons {α : Type} {l rest : List α} {i : Nat} (hi : i < l.length) :
    (l ++ rest).drop i = l[i] :: (l ++ rest).drop (i + 1) := by
  rw [List.drop_append_of_le_length (Nat.le_of_lt hi), List.drop_append_of_le_length hi,
    List.drop_eq_getElem_cons hi]
  rfl

/-- What is read from an index on is what the list has behind that index at the end. -/
theorem visits_eq_drop (hs : h.Sole) (hx : h.store.comdatCursors.get? k = some x)
    (hm : x.module = m) (hindex : x.index = 0 ∨ x.index < (h.store.comdatRefs m).length)
    {rounds : List Round}
    (hquiet : ∀ r ∈ rounds, ∀ a ∈ r.before ++ r.between, a.disturbs k m = false) {n : Nat}
    (hmoved : (h.readings k m rounds).map (·.moved) = List.replicate n true ++ [false])
    (hempty : ∀ r ∈ h.readings k m rounds, r.current = none → r.added = []) :
    (h.readings k m rounds).filterMap (·.current) =
      ((h.run (walk k rounds)).store.comdatRefs m).drop x.index := by
  induction rounds generalizing h x n with
  | nil => simp [readings] at hmoved
  | cons r rounds ih =>
    have hrest : ∀ r ∈ rounds, ∀ a ∈ r.before ++ r.between, a.disturbs k m = false :=
      fun r hr => hquiet r (List.mem_cons_of_mem _ hr)
    obtain ⟨before, hcurrent, hrefs, y, hy, hmodule, hyindex, hstop⟩ :=
      round_spec hs hx hm (hquiet r List.mem_cons_self)
    have hs' : (h.run (r.actions k)).Sole := sole_run hs _
    have hwalk : h.run (walk k (r :: rounds)) = (h.run (r.actions k)).run (walk k rounds) :=
      run_append h (r.actions k) (walk k rounds)
    -- what comes after the round only adds to the list
    have hend := comdatRefs_run_of_grow hs' fun a ha => dropsFrom_of_mem_walk hrest ha
    rw [hwalk, readings]
    by_cases hlt : x.index < (h.store.comdatRefs m ++ before).length
    · have hlong : x.index < ((h.run (r.actions k)).store.comdatRefs m).length := by
        rw [hrefs, List.length_append]
        omega
      -- a comdat is read here, and the cursor moves on by one
      have hnext : y.index = x.index + 1 := by rw [hyindex, if_pos hlong]
      have hread : (h.reading k m r).current =
          some ((h.store.comdatRefs m ++ before)[x.index]) :=
        hcurrent.trans (List.getElem?_eq_getElem hlt)
      have hdrop : (((h.run (r.actions k)).run (walk k rounds)).store.comdatRefs m).drop x.index =
          (h.store.comdatRefs m ++ before)[x.index] ::
            (((h.run (r.actions k)).run (walk k rounds)).store.comdatRefs m).drop y.index := by
        rw [hend, hrefs, hnext, List.append_assoc, drop_append_eq_cons hlt]
      rw [List.filterMap_cons_some hread, hdrop]
      refine congrArg _ ?_
      -- the walk is over at the end of the list, or goes on behind this comdat
      rcases over_or_more hmoved with ⟨rfl, hover⟩ | ⟨n, hmore, hlater⟩
      · have hle : ((h.run (r.actions k)).store.comdatRefs m).length ≤ y.index :=
          Nat.le_of_not_lt fun hlt => absurd (hstop.2 hlt) (Bool.eq_false_iff.1 hover)
        exact (List.drop_eq_nil_of_le hle).symm
      · exact ih hs' hy hmodule (.inr (hstop.1 hmore)) hrest hlater
          fun r hr => hempty r (List.mem_cons_of_mem _ hr)
    · -- only an empty list is read like that, and nothing may be added to it
      have hnone : (h.reading k m r).current = none :=
        hcurrent.trans (List.getElem?_eq_none (Nat.le_of_not_lt hlt))
      have hadded : (h.reading k m r).added = [] := hempty _ List.mem_cons_self hnone
      have hnil : (h.run (r.actions k)).store.comdatRefs m = [] := by
        rw [List.length_append] at hlt
        rw [hrefs, hadded, List.append_nil, ← List.length_eq_zero_iff, List.length_append]
        omega
      rcases over_or_more hmoved with ⟨rfl, -⟩ | ⟨n, hmore, -⟩
      · have hover : ((h.run (r.actions k)).run (walk k [])).store.comdatRefs m = [] := hnil
        rw [List.filterMap_cons_none hnone, hover, List.drop_nil]
        rfl
      · have hlt := hstop.1 hmore
        rw [hnil] at hlt
        cases hlt

/-! ## Soundness

The clauses of `CursorSound` are what the header says, for one cursor in one state; the last two
are about all that may come later. -/

/-- The comdats that a walk reads. -/
def visits (h : Host) (k : Ref .comdatCursor) (m : Ref .module) (rounds : List Round) :
    List (Ref .comdat) := (h.readings k m rounds).filterMap (·.current)

/-- What callers can rely on when they use a cursor over comdats that change. -/
structure CursorSound (h : Host) (k : Ref .comdatCursor) (x : ComdatCursor) : Prop where
  current : h.store.comdatAt (some k) = (h.store.comdatRefs x.module)[x.index]?
  /-- A move says whether there is a comdat afterwards. -/
  moved : (h.store.moveComdatCursor (some k)).1 =
    ((h.act (.edit (.moveComdatCursor (some k)))).store.comdatAt (some k)).isSome
  /-- Moving, resetting and disposing of it is all that changes a cursor. -/
  act : ∀ a, (h.act a).store.comdatCursors.get? k =
    a.cursorAfter k (h.store.comdatRefs x.module).length x
  /-- After a move that found nothing there is nothing, however often the cursor is moved, until it is
  reset or a comdat is made in its module. -/
  ended : (h.store.moveComdatCursor (some k)).1 = false → ∀ later,
    Along (fun h a => a ≠ .edit (.resetComdatCursor (some k)) ∧ comdatsMade x.module h a = [])
      (h.act (.edit (.moveComdatCursor (some k)))) later →
    (((h.act (.edit (.moveComdatCursor (some k)))).run later).store.comdatAt (some k) = none ∧
      (((h.act (.edit (.moveComdatCursor (some k)))).run later).store.moveComdatCursor
        (some k)).1 = false)
  /-- A walk from the first comdat until the first move that finds nothing reads all comdats that
  there are at the end, in their order, if none is taken away and none is added between a reading
  of nothing and the move after it. -/
  complete : x.index = 0 → ∀ rounds n,
    (∀ r ∈ rounds, ∀ a ∈ r.before ++ r.between, a.disturbs k x.module = false) →
    (h.readings k x.module rounds).map (·.moved) = List.replicate n true ++ [false] →
    (∀ r ∈ h.readings k x.module rounds, r.current = none → r.added = []) →
    h.visits k x.module rounds = (h.run (walk k rounds)).store.comdatRefs x.module

/-- Every cursor is sound. -/
theorem cursorSound (hs : h.Sole) (hx : h.store.comdatCursors.get? k = some x) :
    h.CursorSound k x where
  current := Store.comdatAt_eq hx
  moved := rfl
  act a := by
    rw [get?_comdatCursors_act hs a (Arena.index_lt_next_of_get? hx), hx]
    rfl
  ended hmove later hok := by
    have hs' : (h.act (.edit (.moveComdatCursor (some k)))).Sole := sole_of_step (step_act hs _) hs
    have hpast := (pastEnd_of_moved hs hx hmove).run hs' hok
    exact ⟨hpast.comdatAt, hpast.moved (sole_run hs' later)⟩
  complete hstart rounds n hquiet hmoved hempty := by
    have hdrop := visits_eq_drop hs hx rfl (.inl hstart) hquiet hmoved hempty
    rw [hstart, List.drop_zero] at hdrop
    exact hdrop

/-- **Cursors over comdats are sound while the comdats change**, in every state that a run reaches.

The comdats of a module stand in the order in which they were made, each once.  A new cursor is at the
first place, and any cursor is sound: what it is at, what a move says, what stays as it is at the end
and what a walk visits (`CursorSound`). -/
theorem comdat_cursors_are_sound (actions : List Action) :
    let h := opened.run actions
    (∀ m, (h.store.comdatRefs m).Nodup ∧ h.store.comdatRefs m =
      (opened.gather (comdatsMade m) actions).filter h.store.comdats.contains) ∧
    (∀ m, ∃ k, (h.store.beginComdats (some m)).1 = some k ∧
      (h.act (.edit (.beginComdats (some m)))).store.comdatCursors.get? k = some ⟨m, 0⟩) ∧
    ∀ k x, h.store.comdatCursors.get? k = some x → h.CursorSound k x := by
  intro h
  refine ⟨fun m => ⟨Store.nodup_comdatRefs _ m, comdatRefs_run m actions⟩, fun m => ?_,
    fun k x hx => cursorSound (sole_run sole_opened actions) hx⟩
  exact ⟨_, rfl, (Arena.get?_alloc ..).trans (if_pos rfl)⟩

/-- A module with two comdats, and a cursor over it. -/
def twoComdats : List Action :=
  [.edit (.createModule "m"), .edit (.insertOrUpdateComdat (some ⟨0⟩) (.bytes [97]) 0),
    .edit (.insertOrUpdateComdat (some ⟨0⟩) (.bytes [98]) 0), .edit (.beginComdats (some ⟨0⟩))]

/-- While the first one is current, a third one is made and the first one is updated.  All three are
visited. -/
theorem twoComdats_walk :
    let rounds : List Round :=
      [⟨[], [.edit (.insertOrUpdateComdat (some ⟨0⟩) (.bytes [99]) 0),
        .edit (.insertOrUpdateComdat (some ⟨0⟩) (.bytes [97]) 1)]⟩, ⟨[], []⟩, ⟨[], []⟩]
    (opened.run twoComdats).visits ⟨0⟩ ⟨0⟩ rounds = [⟨0⟩, ⟨1⟩, ⟨2⟩] := by
  intro rounds
  obtain ⟨-, -, hsound⟩ := comdat_cursors_are_sound twoComdats
  have hcursor : (opened.run twoComdats).store.comdatCursors.get? ⟨0⟩ = some ⟨⟨0⟩, 0⟩ := rfl
  refine ((hsound ⟨0⟩ _ hcursor).complete rfl rounds 2 ?_ rfl ?_).trans rfl
  · simp [rounds, Action.disturbs, Action.dropsFrom, Edit.dropsFrom]
  · -- there is always something to read
    have hreadings : (opened.run twoComdats).readings ⟨0⟩ ⟨0⟩ rounds =
        [⟨some ⟨0⟩, [⟨2⟩], true⟩, ⟨some ⟨1⟩, [], true⟩, ⟨some ⟨2⟩, [], false⟩] := rfl
    simp [hreadings]

/-- Without the last condition a walk can miss a comdat: there is none when the cursor is read, one is
made, and the move steps over it. -/
theorem walk_can_miss_comdat :
    ¬ ∀ (actions : List Action) (k : Ref .comdatCursor) (x : ComdatCursor) (rounds : List Round)
        (n : Nat), (opened.run actions).store.comdatCursors.get? k = some x → x.index = 0 →
      (∀ r ∈ rounds, ∀ a ∈ r.before ++ r.between, a.disturbs k x.module = false) →
      ((opened.run actions).readings k x.module rounds).map (·.moved) =
        List.replicate n true ++ [false] →
      (opened.run actions).visits k x.module rounds =
        ((opened.run actions).run (walk k rounds)).store.comdatRefs x.module := by
  intro hall
  have hmissed := hall [.edit (.createModule "m"), .edit (.beginComdats (some ⟨0⟩))] ⟨0⟩ ⟨⟨0⟩, 0⟩
    [⟨[], [.edit (.insertOrUpdateComdat (some ⟨0⟩) (.bytes [97]) 0)]⟩] 0 rfl rfl
    (by simp [Action.disturbs, Action.dropsFrom, Edit.dropsFrom]) rfl
  have hnone : ([] : List (Ref .comdat)) = [⟨0⟩] := hmissed
  cases hnone

end Host

end ForeignHandles
