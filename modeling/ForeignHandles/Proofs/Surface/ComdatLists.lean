import ForeignHandles.Proofs.Surface.Comdats

/-!
  The comdats of one module over time, and what is at a place in them.

  The comdats of a module are a list, and a cursor over them is a module and a place.  To know what a
  cursor is at, and when it can be moved, it is enough to know the list of references
  (`comdatRefs`).  An edit may take some of them away and may add one at the end (`ComdatsChange`);
  those that take nothing away from the module leave the list as the beginning of the new one
  (`ComdatsGrow`).  The place itself is changed by three edits on that very cursor and by nothing else
  (`Edit.cursorAfter`).

  Growing is the special case of changing in which nothing goes, and it is the usual case: all edits
  but two grow the list of every module, and those two grow the lists of all modules but one. So
  most lemmas are about growing, and `comdatsChange_edit` treats only what is left. That no
  reference is used again is part of both, since otherwise an object that went and one that came
  could be taken for the same when two changes are put together (`ComdatsChange.trans`).

  Nothing is said here about runs. What a walk over a whole run sees is put together elsewhere, from
  these statements about one edit.
-/
namespace ForeignHandles

/-- Whether an edit takes comdats of a module away. -/
def Edit.dropsFrom (m : Ref .module) : Edit → Bool
  | .dropComdat h _ | .dropAllComdats h => h = some m
  | _ => false

namespace Store

variable {c : Ref .context} {s t : Store} {m : Ref .module} {x : Ref .comdat} {y : Comdat}

/-! ## The comdats of a module over time

The list of a module is a filter of the list of all comdats, so every operation on the arena is
seen in it: a filter stays a filter, a change in place keeps the references, and a new comdat
comes at the end. The lemmas below say this of the arena operations, and the edits follow. -/

/-- The comdats of a module, in the order of the list. -/
def comdatRefs (s : Store) (m : Ref .module) : List (Ref .comdat) := (s.comdatsOf m).map (·.1)

/-- The references of a module are those of the comdats that belong to it. -/
theorem mem_comdatRefs_iff :
    x ∈ s.comdatRefs m ↔ ∃ y, s.comdats.get? x = some y ∧ y.module = m := by
  simp only [comdatRefs, List.mem_map]
  constructor
  · rintro ⟨⟨r, y⟩, hy, rfl⟩
    exact ⟨y, mem_comdatsOf_iff.1 hy⟩
  · rintro ⟨y, hy⟩
    exact ⟨(x, y), mem_comdatsOf_iff.2 hy, rfl⟩

/-- All of them are there. -/
theorem contains_of_mem_comdatRefs (hx : x ∈ s.comdatRefs m) : s.comdats.contains x = true := by
  obtain ⟨y, hy, -⟩ := mem_comdatRefs_iff.1 hx
  exact Option.isSome_iff_exists.2 ⟨y, hy⟩

/-- None of them comes twice, since the list is a part of the list of all references. -/
theorem nodup_comdatRefs (s : Store) (m : Ref .module) : (s.comdatRefs m).Nodup := by
  have hsub : (s.comdatRefs m).Sublist s.comdats.refs := List.filter_sublist.map _
  exact s.comdats.nodup_refs.sublist hsub

/-- The list depends on the comdats alone. -/
theorem comdatRefs_of_eq (ht : t.comdats = s.comdats) (m : Ref .module) :
    t.comdatRefs m = s.comdatRefs m := by
  rw [comdatRefs, comdatRefs, comdatsOf, comdatsOf, ht]

/-- From `s` to `t` a module may lose comdats, and gets some new ones at the end. No reference is
used again: what is there later under a reference that was handed out before was there before. -/
structure ComdatsChange (m : Ref .module) (new : List (Ref .comdat)) (s t : Store) : Prop where
  next : s.comdats.next ≤ t.comdats.next
  old : ∀ {x}, t.comdats.contains x = true → x.index < s.comdats.next →
    s.comdats.contains x = true
  refs : t.comdatRefs m = (s.comdatRefs m).filter t.comdats.contains ++ new

/-- From `s` to `t` a module loses no comdats. -/
structure ComdatsGrow (m : Ref .module) (new : List (Ref .comdat)) (s t : Store) : Prop where
  change : ComdatsChange m new s t
  refs : t.comdatRefs m = s.comdatRefs m ++ new

namespace ComdatsChange

/-- Comdats go, and none comes. What is left of the list is what is still there. -/
theorem of_filter {q : Ref .comdat → Comdat → Bool} (ht : t.comdats = s.comdats.filter q) :
    ComdatsChange m [] s t where
  next := Nat.le_of_eq (by rw [ht]; rfl)
  old {x} hx _ := by
    obtain ⟨y, hy⟩ := Option.isSome_iff_exists.1 hx
    rw [ht, Arena.get?_filter] at hy
    exact Option.isSome_iff_exists.2 ⟨y, (Option.filter_eq_some_iff.1 hy).1⟩
  refs := by
    rw [comdatRefs, comdatRefs, comdatsOf_filter ht, List.filter_map, List.append_nil]
    refine congrArg (List.map _) (List.filter_congr fun p hp => ?_)
    have hget := (mem_comdatsOf_iff.1 hp).1
    simp only [Function.comp_apply, Arena.contains, ht, Arena.get?_filter, hget]
    -- a comdat is there afterwards if the filter keeps it
    cases hq : q p.1 p.2 <;> simp [Option.filter, hq]

/-- Two changes without new comdats are one; what the second finds was there before the first. -/
theorem trans {u : Store} (h : ComdatsChange m [] s t) (h' : ComdatsChange m [] t u) :
    ComdatsChange m [] s u where
  next := Nat.le_trans h.next h'.next
  old hx hlt := h.old (h'.old hx (Nat.lt_of_lt_of_le hlt h.next)) hlt
  refs := by
    rw [h'.refs, h.refs, List.append_nil, List.append_nil, List.append_nil, List.filter_filter]
    refine List.filter_congr fun x hx => ?_
    -- what is there at the end was there in the middle
    cases hthere : u.comdats.contains x with
    | false => rfl
    | true =>
      have hlt : x.index < t.comdats.next := by
        obtain ⟨z, hz, -⟩ := mem_comdatRefs_iff.1 hx
        exact Nat.lt_of_lt_of_le (Arena.index_lt_next_of_get? hz) h.next
      rw [h'.old hthere hlt]
      rfl

end ComdatsChange

namespace ComdatsGrow

/-- A change of the list is growing if the old list is the beginning of the new one; then nothing
of it can have gone. -/
theorem of_refs {new : List (Ref .comdat)} (hnext : s.comdats.next ≤ t.comdats.next)
    (hold : ∀ {x}, t.comdats.contains x = true → x.index < s.comdats.next →
      s.comdats.contains x = true)
    (hrefs : t.comdatRefs m = s.comdatRefs m ++ new) : ComdatsGrow m new s t := by
  -- every one of the old list is in the new one, hence there
  have hkept : (s.comdatRefs m).filter t.comdats.contains = s.comdatRefs m := by
    refine List.filter_eq_self.2 fun x hx => contains_of_mem_comdatRefs (m := m) ?_
    rw [hrefs]
    exact List.mem_append_left _ hx
  exact ⟨⟨hnext, hold, by rw [hrefs, hkept]⟩, hrefs⟩

/-- Nothing happens to comdats. -/
theorem of_eq (ht : t.comdats = s.comdats) : ComdatsGrow m [] s t := by
  refine of_refs (Nat.le_of_eq (by rw [ht])) (fun hx _ => ht ▸ hx) ?_
  rw [comdatRefs_of_eq ht, List.append_nil]

/-- What is taken away is of other modules. -/
theorem of_filter {q : Ref .comdat → Comdat → Bool} (ht : t.comdats = s.comdats.filter q)
    (hrefs : t.comdatsOf m = s.comdatsOf m) : ComdatsGrow m [] s t := by
  have hchange : ComdatsChange m [] s t := .of_filter ht
  exact ⟨hchange, by rw [comdatRefs, comdatRefs, hrefs, List.append_nil]⟩

/-- A comdat gets another selection, and stays where it is. -/
theorem of_modify {f : Comdat → Comdat} (ht : t.comdats = s.comdats.modify x f)
    (hmodule : ∀ y, (f y).module = y.module) : ComdatsGrow m [] s t := by
  refine of_refs (Nat.le_of_eq (by rw [ht]; rfl)) (fun {r} hr _ => ?_) ?_
  · obtain ⟨z, hz⟩ := Option.isSome_iff_exists.1 hr
    obtain ⟨y, hy, -⟩ := Arena.get?_modify_eq_some_iff.1 (ht ▸ hz)
    exact Option.isSome_iff_exists.2 ⟨y, hy⟩
  · rw [comdatRefs, comdatRefs, comdatsOf_modify ht hmodule, List.map_map, List.append_nil]
    refine List.map_congr_left fun p _ => ?_
    simp only [Function.comp_apply]
    split <;> rfl

/-- A comdat is added at the end, of this module or of another. -/
theorem of_alloc (ht : t.comdats = (s.comdats.alloc y).2) :
    ComdatsGrow m (if y.module = m then [(s.comdats.alloc y).1] else []) s t := by
  refine of_refs ?_ (fun {x} hx hlt => ?_) ?_
  · rw [ht]
    exact Nat.le_succ _
  · obtain ⟨z, hz⟩ := Option.isSome_iff_exists.1 hx
    rcases Arena.get?_alloc_eq_some_iff.1 (ht ▸ hz) with ⟨rfl, -⟩ | hold
    · exact absurd hlt (Nat.lt_irrefl _)
    · exact Option.isSome_iff_exists.2 ⟨z, hold⟩
  · rw [comdatRefs, comdatRefs, comdatsOf_alloc ht]
    split
    · exact List.map_append
    · exact (List.append_nil _).symm

end ComdatsGrow

/-- An edit that leaves comdats alone changes no list. -/
theorem ComdatsChange.of_eq (ht : t.comdats = s.comdats) : ComdatsChange m [] s t :=
  (ComdatsGrow.of_eq ht).change

/-- The comdat that an edit makes in a module, if it makes a new one. -/
def newComdats (s : Store) (m : Ref .module) : Edit → List (Ref .comdat)
  | .insertOrUpdateComdat h name kind =>
    if h = some m then
      ((s.insertOrUpdateComdat h name kind).1.filter (fun x => !s.comdats.contains x)).toList
    else []
  | _ => []

/-- Putting a comdat under a name that is taken changes that comdat in place, and under a free
name it adds one at the end. -/
theorem comdatsGrow_putComdat (s : Store) (m n : Ref .module) (name : String)
    (selection : SelectionKind) :
    ComdatsGrow m
      (if n = m ∧ s.comdats.contains (s.putComdat n name selection).1 = false then
        [(s.putComdat n name selection).1] else [])
      s (s.putComdat n name selection).2 := by
  cases hfind : s.comdatNamed? n name with
  | some x =>
    -- the name is taken: no new reference
    have hthere : s.comdats.contains x = true := Arena.contains_of_find? hfind
    simp only [putComdat, hfind, hthere, Bool.true_eq_false, and_false, if_false]
    exact .of_modify (f := fun y => { y with selection }) rfl fun _ => rfl
  | none =>
    -- the name is free: the reference is a new one
    have hnew : s.comdats.contains (s.comdats.alloc { module := n, name, selection }).1 = false := by
      rw [Arena.contains, Arena.get?_alloc_fst]
      rfl
    simp only [putComdat, hfind, hnew, and_true]
    exact .of_alloc (y := { module := n, name, selection }) rfl

/-- An insertion is declined, or it puts a comdat under the name that was passed. -/
theorem insertOrUpdateComdat_cases (s : Store) (h : Handle .module) (input : Input)
    (kind : UInt32) :
    s.insertOrUpdateComdat h input kind = (none, s) ∨
      ∃ m name selection, h = some m ∧ s.insertOrUpdateComdat h input kind =
        (some (s.putComdat m name selection).1, (s.putComdat m name selection).2) := by
  unfold insertOrUpdateComdat
  split
  · exact .inr ⟨_, _, _, rfl, rfl⟩
  · exact .inl rfl

/-- The guarded insertion does the same, or it is declined and does nothing. -/
theorem comdatsGrow_insertOrUpdateComdat (c : Ref .context) (s : Store) (m : Ref .module)
    (h : Handle .module) (name : Input) (kind : UInt32) :
    ComdatsGrow m (s.newComdats m (.insertOrUpdateComdat h name kind)) s
      (s.edit c (.insertOrUpdateComdat h name kind)) := by
  simp only [edit, newComdats]
  rcases insertOrUpdateComdat_cases s h name kind with hdeclined | ⟨n, name', k, rfl, hput⟩
  · simp only [hdeclined, Option.filter_none, Option.toList_none, ite_self]
    exact .of_eq rfl
  · have hgrow := comdatsGrow_putComdat s m n name' k
    simp only [hput, Option.some.injEq]
    by_cases hn : n = m
    · subst hn
      cases hthere : s.comdats.contains (s.putComdat n name' k).1 <;>
        simpa [hthere, Option.filter] using hgrow
    · simpa [hn] using hgrow

/-- Comdats of another module go. -/
theorem comdatsGrow_dropComdat (c : Ref .context) (s : Store) {m : Ref .module}
    {h : Handle .module} (y : Handle .comdat) (hne : h ≠ some m) :
    ComdatsGrow m [] s (s.edit c (.dropComdat h y)) := by
  cases h with
  | none => exact .of_eq rfl
  | some n =>
    have hmn : m ≠ n := fun heq => hne (heq ▸ rfl)
    cases y with
    | none => exact .of_eq rfl
    | some x =>
      by_cases hx : ∃ y, (x, y) ∈ s.comdatsOf n
      · obtain ⟨y, hy⟩ := hx
        exact .of_filter (comdats_dropComdat hy) (comdatsOf_dropComdat_of_ne hy hmn)
      -- a comdat that is not of that module is not dropped
      · have hsame : s.edit c (.dropComdat (some n) (some x)) = s :=
          dropComdat_of_not_mem fun y hy => hx ⟨y, hy⟩
        rw [hsame]
        exact .of_eq rfl

/-- An edit that takes no comdats of a module away. -/
theorem comdatsGrow_edit (c : Ref .context) (s : Store) {m : Ref .module} {e : Edit}
    (he : e.dropsFrom m = false) : ComdatsGrow m (s.newComdats m e) s (s.edit c e) := by
  by_cases hpart : e.part = .comdats
  · cases e with
    | insertOrUpdateComdat h name kind => exact comdatsGrow_insertOrUpdateComdat c s m h name kind
    | dropComdat h y => exact comdatsGrow_dropComdat c s y (by simpa [Edit.dropsFrom] using he)
    | dropAllComdats h =>
      have hne : h ≠ some m := by simpa [Edit.dropsFrom] using he
      cases h with
      | none => exact .of_eq rfl
      | some n =>
        have hmn : m ≠ n := fun heq => hne (heq ▸ rfl)
        exact .of_filter (q := fun _ x => x.module ≠ n) rfl
          ((s.comdatsOf_dropAllComdats n m).trans (if_neg hmn))
    | _ => cases hpart
  -- an edit of another part
  · have hnone : s.newComdats m e = [] := by
      cases e with
      | insertOrUpdateComdat h name kind => exact absurd rfl hpart
      | _ => rfl
    rw [hnone]
    exact .of_eq ((changesOnly_edit c s e).comdats hpart)

/-- **What an edit may do to the comdats of a module**: it takes some away, or it adds one at the
end. -/
theorem comdatsChange_edit (c : Ref .context) (s : Store) (m : Ref .module) (e : Edit) :
    ComdatsChange m (s.newComdats m e) s (s.edit c e) := by
  cases he : e.dropsFrom m with
  | false => exact (comdatsGrow_edit c s he).change
  | true =>
    cases e with
    | dropComdat h y =>
      simp only [edit, dropComdat, removeComdat]
      split
      · split
        · rename_i y _
          exact .of_filter (q := fun r _ => r ≠ y) rfl
        · exact .of_eq rfl
      · exact .of_eq rfl
    | dropAllComdats h =>
      cases h with
      | none => exact .of_eq rfl
      | some n => exact .of_filter (q := fun _ x => x.module ≠ n) rfl
    | _ => cases he

/-! ## What a cursor is at

A cursor holds no reference to a comdat. It is a place, so a comdat that is dropped in front of it
lets it skip the next one, and one that is added behind is still reached. -/

section Cursor
variable {k : Ref .comdatCursor} {x : ComdatCursor}

/-- A cursor is at the comdat of its place in the list, or at none if the list is shorter. -/
theorem comdatAt_eq (hk : s.comdatCursors.get? k = some x) :
    s.comdatAt (some k) = (s.comdatRefs x.module)[x.index]? := by
  simp [comdatAt, hk, comdatRefs]

/-- A cursor that is gone is at nothing. -/
theorem comdatAt_of_none (hk : s.comdatCursors.get? k = none) : s.comdatAt (some k) = none := by
  simp [comdatAt, hk]

/-- Moving a cursor answers whether it is at a comdat afterwards. -/
theorem moveComdatCursor_fst (s : Store) (c : Ref .context) (k : Ref .comdatCursor) :
    (s.moveComdatCursor (some k)).1 =
      ((s.edit c (.moveComdatCursor (some k))).comdatAt (some k)).isSome := rfl

end Cursor

end Store

/-- What an edit makes of a cursor over a module with so many comdats. -/
def Edit.cursorAfter (k : Ref .comdatCursor) (count : Nat) (x : ComdatCursor) :
    Edit → Option ComdatCursor
  | .moveComdatCursor h =>
    some (if h = some k ∧ x.index < count then { x with index := x.index + 1 } else x)
  | .resetComdatCursor h => some (if h = some k then { x with index := 0 } else x)
  | .disposeComdatCursor h => if h = some k then none else some x
  | _ => some x

/-- A cursor at the end of the list or past it stays there, unless it is reset or disposed of. -/
theorem Edit.cursorAfter_of_le {k : Ref .comdatCursor} {count : Nat} {x y : ComdatCursor} {e : Edit}
    (hle : count ≤ x.index) (he : e ≠ .resetComdatCursor (some k))
    (h : e.cursorAfter k count x = some y) : y = x := by
  cases e with
  | moveComdatCursor j =>
    have hnot : ¬ (j = some k ∧ x.index < count) := fun hboth => Nat.not_lt.2 hle hboth.2
    rw [cursorAfter, if_neg hnot] at h
    exact (Option.some.inj h).symm
  | resetComdatCursor j =>
    have hne : j ≠ some k := fun heq => he (heq ▸ rfl)
    rw [cursorAfter, if_neg hne] at h
    exact (Option.some.inj h).symm
  | disposeComdatCursor j =>
    rw [cursorAfter] at h
    split at h
    · cases h
    · exact (Option.some.inj h).symm
  | _ => exact (Option.some.inj h).symm

namespace Store

variable {c : Ref .context} {s t : Store} {m : Ref .module} {x : Ref .comdat} {y : Comdat}

/-- **A cursor is moved by the edits that name it and by no other.** How far depends only on how
long the list is, and not on what is in it. -/
theorem get?_comdatCursors_edit (c : Ref .context) (s : Store) (e : Edit) {k : Ref .comdatCursor}
    (hk : k.index < s.comdatCursors.next) :
    (s.edit c e).comdatCursors.get? k =
      (s.comdatCursors.get? k).bind fun x => e.cursorAfter k (s.comdatRefs x.module).length x := by
  by_cases hpart : e.part = .comdatCursors
  · cases e with
    | beginComdats h =>
      -- a new cursor is another one
      have hsame : (s.edit c (.beginComdats h)).comdatCursors.get? k =
          s.comdatCursors.get? k := by
        cases h with
        | none => rfl
        | some n =>
          simp only [edit, beginComdats, Arena.get?_alloc]
          refine if_neg ?_
          rintro rfl
          exact Nat.lt_irrefl _ hk
      rw [hsame]
      simp [Edit.cursorAfter]
    | moveComdatCursor h =>
      cases h with
      | none => simp [edit, moveComdatCursor, Edit.cursorAfter]
      | some j =>
        by_cases hj : j = k
        · subst hj
          -- the guard of the move counts comdats, and here references are counted
          have hlength (m : Ref .module) : (s.comdatRefs m).length = (s.comdatsOf m).length :=
            List.length_map _
          cases hget : s.comdatCursors.get? j <;>
            simp [edit, moveComdatCursor, Edit.cursorAfter, Arena.get?_modify, hget, hlength]
        · have hj' : k ≠ j := fun h => hj h.symm
          simp [edit, moveComdatCursor, Edit.cursorAfter, Arena.get?_modify, hj, hj']
    | resetComdatCursor h =>
      cases h with
      | none => simp [edit, resetComdatCursor, Edit.cursorAfter]
      | some j =>
        by_cases hj : j = k
        · subst hj
          cases hget : s.comdatCursors.get? j <;>
            simp [edit, resetComdatCursor, Edit.cursorAfter, Arena.get?_modify, hget]
        · have hj' : k ≠ j := fun h => hj h.symm
          simp [edit, resetComdatCursor, Edit.cursorAfter, Arena.get?_modify, hj, hj']
    | disposeComdatCursor h =>
      cases h with
      | none => simp [edit, disposeComdatCursor, Edit.cursorAfter]
      | some j =>
        by_cases hj : j = k
        · subst hj
          cases hget : s.comdatCursors.get? j <;>
            simp [edit, disposeComdatCursor, Edit.cursorAfter, Arena.get?_erase]
        · have hj' : k ≠ j := fun h => hj h.symm
          simp [edit, disposeComdatCursor, Edit.cursorAfter, Arena.get?_erase, hj, hj']
    | _ => cases hpart
  -- an edit of another part does not name a cursor
  · have hsame (count : Nat) (x : ComdatCursor) : e.cursorAfter k count x = some x := by
      cases e <;> first | rfl | exact absurd rfl hpart
    rw [(changesOnly_edit c s e).comdatCursors hpart]
    simp [hsame]

/-- No reference to a cursor becomes free again. -/
theorem next_comdatCursors_edit (c : Ref .context) (s : Store) (e : Edit) :
    s.comdatCursors.next ≤ (s.edit c e).comdatCursors.next := by
  by_cases hpart : e.part = .comdatCursors
  · cases e with
    | beginComdats h =>
      cases h with
      | none => exact Nat.le_refl _
      | some m => exact Nat.le_succ _
    | moveComdatCursor h => cases h <;> exact Nat.le_refl _
    | resetComdatCursor h => cases h <;> exact Nat.le_refl _
    | disposeComdatCursor h => cases h <;> exact Nat.le_refl _
    | _ => cases hpart
  · exact Nat.le_of_eq (by rw [(changesOnly_edit c s e).comdatCursors hpart])

end Store

end ForeignHandles
