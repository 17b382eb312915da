import ForeignHandles.Proofs.Arena
import ForeignHandles.Proofs.Store.Parts
import ForeignHandles.Proofs.Surface.Steps
import ForeignHandles.Proofs.Text.Require

/-!
  The comdats of a module are a map from names to selection kinds, in insertion order.

  All comdats of the host are in one arena.  Two of them never have the same module and name, and no
  name is empty (`ComdatsKeyed`); only three edits touch comdats at all, and they keep this, as does
  a module that goes with its comdats.  With it a name stands for at most one comdat of a module, and
  each call changes the list of one module, in the way one expects of a list that stands for a map
  (`ComdatMap`).

  The calls are made with handles and texts that may be absent, and with a number for the kind. What
  callers mean by them is said by `Input.Says` and by the code of a kind, not by the decoder, so the
  statements below do not depend on how a text is decoded.
-/
namespace ForeignHandles

/-- A number stands for a kind exactly if it is the number of the kind. -/
theorem SelectionKind.ofCode?_eq_some_iff {n : UInt32} {k : SelectionKind} :
    ofCode? n = some k ↔ k.code = n := by
  have hcode : ∀ i : Fin all.length, all[i].code.toNat = i := by decide
  constructor
  · intro h
    obtain ⟨hlt, rfl⟩ := List.getElem?_eq_some_iff.1 h
    exact UInt32.toNat_inj.1 (hcode ⟨n.toNat, hlt⟩)
  · rintro rfl
    exact ofCode?_code k

namespace Store

variable {s t : Store} {m : Ref .module} {x : Ref .comdat} {y : Comdat}

/-! ## The invariant

The key of a comdat is its module and its name together. An arena in which no two objects have the
same key is a map, and looking a key up is looking for the only object with it. -/

/-- No two comdats of a module have the same name, and no name is empty. -/
structure ComdatsKeyed (s : Store) : Prop where
  keyed : s.comdats.KeyedBy (fun x => (x.module, x.name))
  named : ∀ {r x}, s.comdats.get? r = some x → x.name ≠ ""

/-- A comdat is on the list of a module if it is there and has the module. -/
theorem mem_comdatsOf_iff : (x, y) ∈ s.comdatsOf m ↔ s.comdats.get? x = some y ∧ y.module = m := by
  rw [comdatsOf, Arena.mem_select_iff, decide_eq_true_eq]

namespace ComdatsKeyed

/-- Operations that write no comdats keep them apart, -/
theorem of_eq (h : s.ComdatsKeyed) (ht : t.comdats = s.comdats) : t.ComdatsKeyed where
  keyed := ht ▸ h.keyed
  named hx := h.named (ht ▸ hx)

/-- and so does taking some of them away. -/
theorem of_filter {q : Ref .comdat → Comdat → Bool} (h : s.ComdatsKeyed)
    (ht : t.comdats = s.comdats.filter q) : t.ComdatsKeyed where
  keyed := ht ▸ h.keyed.filter q
  named hx := by
    rw [ht, Arena.get?_filter] at hx
    exact h.named (Option.filter_eq_some_iff.1 hx).1

/-- A name is looked up by going through the arena. Since keys are not shared, the first comdat
that fits is the only one. -/
theorem comdatNamed?_eq_some_iff {name : String} (h : s.ComdatsKeyed) :
    s.comdatNamed? m name = some x ↔ ∃ y, (x, y) ∈ s.comdatsOf m ∧ y.name = name := by
  rw [comdatNamed?, h.keyed.find?_eq_some_iff (m, name) (by simp)]
  simp only [mem_comdatsOf_iff, Prod.mk.injEq, and_assoc]

end ComdatsKeyed

/-! ## Putting a comdat

A call that puts a comdat updates one that is there, in its place, or makes a new one. The two
lemmas `putComdat_of_mem` and `putComdat_of_absent` say what happens to the arena in each case;
everything else follows from them. -/

section Put
variable {name : String} {selection : SelectionKind} {input : Input} {kind : UInt32}

/-- A comdat of that name is found, and its kind is set. -/
theorem putComdat_of_mem (h : s.ComdatsKeyed) (hx : (x, y) ∈ s.comdatsOf m)
    (selection : SelectionKind) :
    (s.putComdat m y.name selection).1 = x ∧ (s.putComdat m y.name selection).2.comdats =
      s.comdats.modify x (fun y => { y with selection }) := by
  have hfind : s.comdatNamed? m y.name = some x := h.comdatNamed?_eq_some_iff.2 ⟨y, hx, rfl⟩
  simp only [putComdat, hfind, and_self]

/-- If no comdat of the module has the name, a new one is made. -/
theorem putComdat_of_absent (h : s.ComdatsKeyed) (habsent : ∀ p ∈ s.comdatsOf m, p.2.name ≠ name)
    (selection : SelectionKind) :
    (s.putComdat m name selection).1 = (s.comdats.alloc { module := m, name, selection }).1 ∧
      (s.putComdat m name selection).2.comdats =
        (s.comdats.alloc { module := m, name, selection }).2 := by
  have hfind : s.comdatNamed? m name = none := by
    refine Option.eq_none_iff_forall_ne_some.2 fun x hx => ?_
    obtain ⟨y, hy, hname⟩ := h.comdatNamed?_eq_some_iff.1 hx
    exact habsent _ hy hname
  simp only [putComdat, hfind, and_self]

/-- Either way keys stay distinct: a change of the kind is none of the key, and a new key is one
that was absent. -/
theorem ComdatsKeyed.putComdat (h : s.ComdatsKeyed) (hname : name ≠ "") :
    (s.putComdat m name selection).2.ComdatsKeyed := by
  -- the name is on the list of the module or it is not
  rcases Arena.exists_mem_or_forall_ne (s.comdatsOf m) Comdat.name name with
    ⟨x, y, hx, rfl⟩ | habsent
  · obtain ⟨-, hput⟩ := putComdat_of_mem h hx selection
    refine ⟨hput ▸ h.keyed.modify x (fun _ => rfl), fun {r z} hz => ?_⟩
    obtain ⟨z', hz', rfl⟩ := Arena.get?_modify_eq_some_iff.1 (hput ▸ hz)
    have hne := h.named hz'
    split <;> exact hne
  · obtain ⟨-, hput⟩ := putComdat_of_absent h habsent selection
    refine ⟨hput ▸ h.keyed.alloc fun r z hz heq => ?_, fun {r z} hz => ?_⟩
    · obtain ⟨hmodule, hsame⟩ := Prod.mk.inj heq
      exact habsent (r, z) (mem_comdatsOf_iff.2 ⟨hz, hmodule⟩) hsame
    · rcases Arena.get?_alloc_eq_some_iff.1 (hput ▸ hz) with ⟨-, rfl⟩ | hz
      · exact hname
      · exact h.named hz

/-- A call with a text and a number that stands for a kind puts a comdat of that name and kind. -/
theorem insertOrUpdateComdat_eq (hname : input.Says name) (hkind : selection.code = kind) :
    s.insertOrUpdateComdat (some m) input kind =
      (some (s.putComdat m name selection).1, (s.putComdat m name selection).2) := by
  have hrequired : input.required "name" = .ok name := Input.required_eq_ok_iff.2 hname
  have hselection := SelectionKind.ofCode?_eq_some_iff.2 hkind
  simp only [insertOrUpdateComdat, hrequired, hselection]

/-- What is no module, no text or no kind is declined. -/
theorem insertOrUpdateComdat_declined {h : Handle .module}
    (hbad : h = none ∨ (∀ name, ¬ input.Says name) ∨ ∀ selection : SelectionKind,
      selection.code ≠ kind) : s.insertOrUpdateComdat h input kind = (none, s) := by
  unfold insertOrUpdateComdat
  split
  · rename_i hrequired hselection
    rcases hbad with hm | hname | hkind
    · cases hm
    · exact absurd (Input.required_eq_ok_iff.1 hrequired) (hname _)
    · exact absurd (SelectionKind.ofCode?_eq_some_iff.1 hselection) (hkind _)
  · rfl

/-- Whatever it is called with, it keeps comdats apart. A text that is accepted is not empty. -/
theorem ComdatsKeyed.insertOrUpdateComdat (h : s.ComdatsKeyed) (handle : Handle .module)
    (input : Input) (kind : UInt32) : (s.insertOrUpdateComdat handle input kind).2.ComdatsKeyed := by
  unfold Store.insertOrUpdateComdat
  split
  · rename_i hrequired _
    exact h.putComdat (Input.required_eq_ok_iff.1 hrequired).ne_empty
  · exact h

end Put

/-! ## All that can happen

Three of the edits write to comdats, and a module that goes, or a context, takes its comdats with
it. Nothing else in the store does. -/

/-- Every edit keeps comdats apart, -/
theorem ComdatsKeyed.edit (h : s.ComdatsKeyed) (c : Ref .context) (e : Edit) :
    (s.edit c e).ComdatsKeyed := by
  by_cases hpart : e.part = .comdats
  · cases e with
    | insertOrUpdateComdat m name kind => exact h.insertOrUpdateComdat m name kind
    | dropComdat m x =>
      simp only [Store.edit, dropComdat, removeComdat]
      split
      · split
        · rename_i x _
          exact h.of_filter (q := fun r _ => r ≠ x) rfl
        · exact h
      · exact h
    | dropAllComdats m =>
      cases m with
      | none => exact h
      | some m => exact h.of_filter (q := fun _ x => x.module ≠ m) rfl
    | _ => cases hpart
  · exact h.of_eq ((changesOnly_edit c s e).comdats hpart)

/-- and every step of the store. -/
theorem comdatsKeyed_step (hstep : StoreStep s t) (h : s.ComdatsKeyed) : t.ComdatsKeyed := by
  cases hstep with
  | unchanged => exact h
  | edit c e => exact h.edit c e
  | createContext => exact h.of_eq rfl
  | disposeContext c =>
    exact h.of_filter
      (q := fun _ x => !(s.modules.get? x.module).any (fun y => y.context = c)) rfl
  | rewire old new => exact h.of_eq rfl
  | release v => exact h.of_eq ((changesOnly_release s v).comdats (by decide))
  | retireModule m => exact h.of_filter (q := fun _ x => x.module ≠ m) rfl

/-! ## One module at a time

The list of a module is a selection from the arena, so what happens to the arena is read off the
list: a change in place is a map, a new comdat is appended, and a filter is a filter. -/

/-- A change in place is seen in place, -/
theorem comdatsOf_modify {f : Comdat → Comdat} (ht : t.comdats = s.comdats.modify x f)
    (hmodule : ∀ y, (f y).module = y.module) (m : Ref .module) :
    t.comdatsOf m = (s.comdatsOf m).map (fun p => if p.1 = x then (p.1, f p.2) else p) := by
  rw [comdatsOf, comdatsOf, ht, Arena.select_modify _ _ (by simp [hmodule])]

/-- a new comdat is seen at the end of one list, -/
theorem comdatsOf_alloc (ht : t.comdats = (s.comdats.alloc y).2) (m : Ref .module) :
    t.comdatsOf m =
      if y.module = m then s.comdatsOf m ++ [((s.comdats.alloc y).1, y)] else s.comdatsOf m := by
  rw [comdatsOf, comdatsOf, ht, Arena.select_alloc]
  simp only [decide_eq_true_eq]

/-- and what is taken away is gone from every list. -/
theorem comdatsOf_filter {q : Ref .comdat → Comdat → Bool} (ht : t.comdats = s.comdats.filter q)
    (m : Ref .module) : t.comdatsOf m = (s.comdatsOf m).filter (fun p => q p.1 p.2) := by
  rw [comdatsOf, comdatsOf, ht, Arena.select_filter]

/-- A comdat of one module is not on the list of another. -/
theorem fst_ne_of_mem_comdatsOf {m' : Ref .module} {p : Ref .comdat × Comdat}
    (hx : (x, y) ∈ s.comdatsOf m) (hm : m' ≠ m) (hp : p ∈ s.comdatsOf m') : p.1 ≠ x := by
  rintro rfl
  obtain ⟨hget, hmodule⟩ := mem_comdatsOf_iff.1 hp
  obtain ⟨hget', hmodule'⟩ := mem_comdatsOf_iff.1 hx
  cases hget.symm.trans hget'
  exact hm (hmodule.symm.trans hmodule')

/-- Putting a comdat into one module does not show in another. -/
theorem comdatsOf_insertOrUpdateComdat_of_ne {m' : Ref .module} (h : s.ComdatsKeyed) (input : Input)
    (kind : UInt32) (hm : m' ≠ m) :
    (s.insertOrUpdateComdat (some m) input kind).2.comdatsOf m' = s.comdatsOf m' := by
  unfold insertOrUpdateComdat
  split
  · rename_i name selection hm' _ _
    cases hm'
    simp only
    rcases Arena.exists_mem_or_forall_ne (s.comdatsOf m) Comdat.name name with
      ⟨x, y, hx, rfl⟩ | habsent
    · obtain ⟨-, hput⟩ := putComdat_of_mem h hx selection
      rw [comdatsOf_modify hput (fun _ => rfl)]
      -- the updated comdat is not on the list of the other module
      refine (List.map_congr_left fun p hp => ?_).trans (List.map_id _)
      exact if_neg (fst_ne_of_mem_comdatsOf hx hm hp)
    · obtain ⟨-, hput⟩ := putComdat_of_absent h habsent selection
      rw [comdatsOf_alloc hput, if_neg (Ne.symm hm)]
  · rfl

/-- A text finds exactly the comdat whose name it says. A text that says nothing finds nothing. -/
theorem findComdat_eq_some_iff {input : Input} (h : s.ComdatsKeyed) :
    s.findComdat (some m) input = some x ↔ ∃ y, (x, y) ∈ s.comdatsOf m ∧ input.Says y.name := by
  cases hrequired : input.required "name" with
  | error e =>
    have hnot (name : String) : ¬ input.Says name := fun hname => by
      cases hrequired.symm.trans (Input.required_eq_ok_iff.2 hname)
    simp [findComdat, hrequired, hnot]
  | ok name =>
    have hname := Input.required_eq_ok_iff.1 hrequired
    simp only [findComdat, hrequired, h.comdatNamed?_eq_some_iff]
    refine exists_congr fun y => and_congr_right fun _ => ⟨?_, fun hy => hy.unique hname⟩
    rintro rfl
    exact hname

/-- A comdat of the module is taken out of the arena, -/
theorem comdats_dropComdat (hx : (x, y) ∈ s.comdatsOf m) :
    (s.dropComdat (some m) (some x)).comdats = s.comdats.erase x := by
  obtain ⟨hget, hmodule⟩ := mem_comdatsOf_iff.1 hx
  simp [dropComdat, removeComdat, hget, hmodule]

/-- other modules do not notice, -/
theorem comdatsOf_dropComdat_of_ne {m' : Ref .module} (hx : (x, y) ∈ s.comdatsOf m) (hm : m' ≠ m) :
    (s.dropComdat (some m) (some x)).comdatsOf m' = s.comdatsOf m' := by
  rw [comdatsOf_filter (comdats_dropComdat hx), List.filter_eq_self]
  exact fun p hp => decide_eq_true (fst_ne_of_mem_comdatsOf hx hm hp)

/-- and one that is not of the module is left where it is, and so is the rest of the store. -/
theorem dropComdat_of_not_mem (hnot : ∀ y, (x, y) ∉ s.comdatsOf m) :
    s.dropComdat (some m) (some x) = s := by
  cases hget : s.comdats.get? x with
  | none => simp [dropComdat, removeComdat, hget]
  | some y =>
    have hmodule : y.module ≠ m := fun hm => hnot y (mem_comdatsOf_iff.2 ⟨hget, hm⟩)
    simp [dropComdat, removeComdat, hget, hmodule]

/-- Dropping all comdats empties one list. -/
theorem comdatsOf_dropAllComdats (s : Store) (m m' : Ref .module) :
    (s.dropAllComdats (some m)).comdatsOf m' = if m' = m then [] else s.comdatsOf m' := by
  have hfilter : (s.dropAllComdats (some m)).comdats =
      s.comdats.filter (fun _ x => x.module ≠ m) := rfl
  rw [comdatsOf_filter hfilter]
  split
  · rename_i hm
    refine List.filter_eq_nil_iff.2 fun p hp => ?_
    simp [(mem_comdatsOf_iff.1 hp).2, hm]
  · rename_i hm
    refine List.filter_eq_self.2 fun p hp => ?_
    simp [(mem_comdatsOf_iff.1 hp).2, hm]

/-- What callers can rely on: the comdats of a module are a list that stands for a map from names to
selection kinds, and every call works on the list of one module. -/
structure ComdatMap (s : Store) : Prop where
  nodup : ∀ m, ((s.comdatsOf m).map (fun p => p.2.name)).Nodup
  named : ∀ m x y, (x, y) ∈ s.comdatsOf m → y.module = m ∧ y.name ≠ ""
  /-- A name that is there keeps its handle and its place; only its kind is set. -/
  update : ∀ m x y input selection, (x, y) ∈ s.comdatsOf m → input.Says y.name →
    (s.insertOrUpdateComdat (some m) input selection.code).1 = some x ∧
      (s.insertOrUpdateComdat (some m) input selection.code).2.comdatsOf m =
        (s.comdatsOf m).map (fun p => if p.1 = x then (x, { p.2 with selection }) else p)
  /-- Any other name is added at the end, under a handle that was not in use. -/
  append : ∀ m input name selection, input.Says name → (∀ p ∈ s.comdatsOf m, p.2.name ≠ name) →
    ∃ x, (s.insertOrUpdateComdat (some m) input selection.code).1 = some x ∧
      s.comdat? (some x) = none ∧
      (s.insertOrUpdateComdat (some m) input selection.code).2.comdatsOf m =
        s.comdatsOf m ++ [(x, { module := m, name, selection })]
  insertApart : ∀ m m' input kind, m' ≠ m →
    (s.insertOrUpdateComdat (some m) input kind).2.comdatsOf m' = s.comdatsOf m'
  /-- Without a name, or without a kind that is known, nothing happens. -/
  declined : ∀ h input kind, ((∀ name, ¬ input.Says name) ∨ ∀ selection : SelectionKind,
    selection.code ≠ kind) → s.insertOrUpdateComdat h input kind = (none, s)
  /-- Exactly the names that are there are found. -/
  find : ∀ m input x, s.findComdat (some m) input = some x ↔
    ∃ y, (x, y) ∈ s.comdatsOf m ∧ input.Says y.name
  /-- A comdat of this module is taken out of its list, and the rest stays in order. -/
  remove : ∀ m x y, (x, y) ∈ s.comdatsOf m →
    (s.dropComdat (some m) (some x)).comdatsOf m = (s.comdatsOf m).filter (fun p => p.1 ≠ x) ∧
      ∀ m', m' ≠ m → (s.dropComdat (some m) (some x)).comdatsOf m' = s.comdatsOf m'
  /-- A comdat of another module, or one that is gone, is left alone, and so is all else. -/
  removeForeign : ∀ m x, (∀ y, (x, y) ∉ s.comdatsOf m) → s.dropComdat (some m) (some x) = s
  clear : ∀ m m', (s.dropAllComdats (some m)).comdatsOf m' =
    if m' = m then [] else s.comdatsOf m'
  count : ∀ m, (s.comdatsOf m).length < 4294967296 →
    (s.comdatCount (some m)).toNat = (s.comdatsOf m).length

/-- **Comdats that are kept apart are a map.** Each field is one of the lemmas above. -/
theorem ComdatsKeyed.comdatMap (h : s.ComdatsKeyed) : s.ComdatMap where
  nodup m := h.keyed.nodup_select fun x y hx hy hname => by
    simp only [decide_eq_true_eq] at hx hy
    rw [hx, hy, hname]
  named m x y hx := by
    obtain ⟨hget, hmodule⟩ := mem_comdatsOf_iff.1 hx
    exact ⟨hmodule, h.named hget⟩
  update m x y input selection hx hname := by
    obtain ⟨hfirst, hput⟩ := putComdat_of_mem h hx selection
    rw [insertOrUpdateComdat_eq hname rfl, hfirst, comdatsOf_modify hput (fun _ => rfl)]
    refine ⟨rfl, List.map_congr_left fun p _ => ?_⟩
    by_cases hp : p.1 = x
    · rw [if_pos hp, if_pos hp, hp]
    · rw [if_neg hp, if_neg hp]
  append m input name selection hname habsent := by
    obtain ⟨hfirst, hput⟩ := putComdat_of_absent h habsent selection
    rw [insertOrUpdateComdat_eq hname rfl, hfirst, comdatsOf_alloc hput, if_pos rfl]
    exact ⟨_, rfl, Arena.get?_alloc_fst .., rfl⟩
  insertApart _ _ input kind hm := comdatsOf_insertOrUpdateComdat_of_ne h input kind hm
  declined _ _ _ hbad := insertOrUpdateComdat_declined (.inr hbad)
  find _ _ _ := findComdat_eq_some_iff h
  remove m x y hx :=
    ⟨comdatsOf_filter (comdats_dropComdat hx) m, fun _ => comdatsOf_dropComdat_of_ne hx⟩
  removeForeign _ _ hnot := dropComdat_of_not_mem hnot
  clear m m' := s.comdatsOf_dropAllComdats m m'
  count _ hlt := toNat_count32 hlt

/-- In the beginning there are no comdats. -/
theorem comdatsKeyed_start : (default : Host).store.ComdatsKeyed where
  keyed := .of_none fun _ => rfl
  named hx := by cases hx

end Store

namespace Surface

/-- **The comdats of a module are an ordered map.** In every reachable world names are distinct within
a module and not empty, and calls put, find and remove comdats by them: a new one at the end, a known
one in its place, none in another module, and nothing at all without a name or a kind.

That names stay apart is the invariant of the store, and every entry of the surface keeps it, as
`store_invariant` has it.  All other clauses are then about a single call in a single store. -/
theorem comdats_are_ordered_map {w : World} (hw : Reachable w) : w.host.store.ComdatMap :=
  (store_invariant Store.comdatsKeyed_start Store.comdatsKeyed_step hw).comdatMap

/-- Two modules with a comdat of the same name, and the first has another one. -/
def comdatWorld : World where
  host := { Host.opened with
    store := [.createModule "m", .createModule "n",
      .insertOrUpdateComdat (some ⟨0⟩) (.bytes [97]) 0,
      .insertOrUpdateComdat (some ⟨1⟩) (.bytes [97]) 1,
      .insertOrUpdateComdat (some ⟨0⟩) (.bytes [98]) 2].foldl (·.edit ⟨0⟩) Host.opened.store }

/-- There the first comdat is updated in its place, and the second module cannot remove it. -/
theorem comdatWorld_is_ordered_map :
    Reachable comdatWorld ∧ comdatWorld.host.store.ComdatMap ∧
      (comdatWorld.host.store.insertOrUpdateComdat (some ⟨0⟩) (.bytes [97]) 4).2.comdatsOf ⟨0⟩ =
        [(⟨0⟩, ⟨⟨0⟩, "a", .sameSize⟩), (⟨2⟩, ⟨⟨0⟩, "b", .largest⟩)] ∧
      comdatWorld.host.store.dropComdat (some ⟨1⟩) (some ⟨0⟩) = comdatWorld.host.store := by
  have hw : Reachable comdatWorld :=
    reachable_foldl_edit ⟨0⟩ _
      (.call .plain (.command .contextCreate) .start rfl)
  exact ⟨hw, comdats_are_ordered_map hw, rfl, rfl⟩

end Surface

end ForeignHandles
