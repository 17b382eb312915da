import ForeignHandles.Proofs.Arena
import ForeignHandles.Proofs.Store.Parts
import ForeignHandles.Proofs.Surface.Steps

/-!
  Named metadata is a map from names to lists.

  As with comdats, all lists of the host are in one arena, and no two have the same module and name
  (`NamedKeyed`).  An operation on the operands of a list looks at the list, at the operand and at the
  index before it does anything, but what it does can be said in one way: it changes the operands of
  one list by a function on lists (`onOperands`), which does nothing past the end.

  So the operands of a list after any edits are what the same functions make of the operands before
  (`named?_foldl_edit`), as long as the list is not erased.
-/
namespace ForeignHandles

/-- The list whose operands an edit changes, and how. -/
def Edit.operandEdit? :
    Edit → Option (Ref .namedMetadata × (List (Ref .metadata) → List (Ref .metadata)))
  | .addNamedOperand (some x) (some target) => some (x, (· ++ [target]))
  | .setNamedOperand (some x) index (some target) => some (x, (·.set index.toNat target))
  | .clearNamedOperands (some x) => some (x, fun _ => [])
  | _ => none

/-- What an edit makes of the operands of a list. -/
def Edit.onOperands (x : Ref .namedMetadata) (e : Edit) (operands : List (Ref .metadata)) :
    List (Ref .metadata) :=
  match e.operandEdit? with
  | some (y, f) => if y = x then f operands else operands
  | none => operands

namespace Store

variable {s t : Store} {m : Ref .module} {x : Ref .namedMetadata} {n : NamedMetadata}
  {f : List (Ref .metadata) → List (Ref .metadata)}

/-! ## Operands

The three operations on the operands of a list, each brought into the one form. Null handles and
indices past the end are the cases in which the program writes nothing; on the side of lists these
are `List.set` past the end, and a change of a list that is not there. -/

/-- Changes the operands of a list, if it is there. -/
def onOperands (s : Store) (x : Ref .namedMetadata)
    (f : List (Ref .metadata) → List (Ref .metadata)) : Store :=
  { s with
    namedMetadata := s.namedMetadata.modify x (fun n => { n with operands := f n.operands }) }

/-- Writing a list back with other operands is a change of its operands. -/
theorem putNamed_eq (hn : s.named? (some x) = some n) :
    s.putNamed x { n with operands := f n.operands } = s.onOperands x f := by
  have hmodify : s.namedMetadata.modify x (fun _ => { n with operands := f n.operands }) =
      s.namedMetadata.modify x (fun n => { n with operands := f n.operands }) :=
    Arena.modify_congr fun n' hn' => by cases hn.symm.trans hn'; rfl
  rw [putNamed, onOperands, hmodify]

/-- Without the list nothing is changed, -/
theorem onOperands_of_none (hn : s.named? (some x) = none) : s.onOperands x f = s := by
  have hmodify := Arena.modify_of_none (a := s.namedMetadata) hn
    (fun n => { n with operands := f n.operands })
  rw [onOperands, hmodify]

/-- and nothing either if the operands stay. -/
theorem onOperands_eq_self (hn : s.named? (some x) = some n) (hf : f n.operands = n.operands) :
    s.onOperands x f = s := by
  have hmodify := Arena.modify_of_get? (a := s.namedMetadata) (f := fun n =>
    { n with operands := f n.operands }) hn (by rw [hf])
  rw [onOperands, hmodify]

/-- Adding an operand puts it at the end. -/
theorem addNamedOperand_eq (s : Store) (x : Ref .namedMetadata) (target : Ref .metadata) :
    s.addNamedOperand (some x) (some target) = s.onOperands x (· ++ [target]) := by
  cases hn : s.named? (some x) with
  | none => simp only [addNamedOperand, hn, onOperands_of_none hn]
  | some n => simp only [addNamedOperand, hn, ← putNamed_eq hn]

/-- Clearing leaves no operands. -/
theorem clearNamedOperands_eq (s : Store) (x : Ref .namedMetadata) :
    s.clearNamedOperands (some x) = s.onOperands x (fun _ => []) := by
  cases hn : s.named? (some x) with
  | none => simp only [clearNamedOperands, hn, onOperands_of_none hn]
  | some n => simp only [clearNamedOperands, hn, ← putNamed_eq hn]

/-- Storing past the end does nothing, and neither does `List.set`. -/
theorem setNamedOperand_eq (s : Store) (x : Ref .namedMetadata) (index : UInt32)
    (target : Ref .metadata) : s.setNamedOperand (some x) index (some target) =
      .ok (s.onOperands x (·.set index.toNat target)) := by
  cases hn : s.named? (some x) with
  | none => simp only [setNamedOperand, hn, onOperands_of_none hn]
  | some n =>
    by_cases hlt : index.toNat < n.operands.length
    · simp only [setNamedOperand, hn, hlt, if_true, NamedMetadata.setOperand, Except.map,
        ← putNamed_eq hn]
    · rw [onOperands_eq_self hn (List.set_eq_of_length_le (Nat.not_lt.1 hlt))]
      simp only [setNamedOperand, hn, hlt, if_false]

/-- Only the one list has other operands afterwards. Its module and its name stay. -/
theorem named?_onOperands (s : Store) (x y : Ref .namedMetadata) : (s.onOperands x f).named? (some y) =
    (s.named? (some y)).map (fun n => if y = x then { n with operands := f n.operands } else n) := by
  have hmodify := Arena.get?_modify s.namedMetadata x y
    (fun n => { n with operands := f n.operands })
  refine hmodify.trans ?_
  split <;> simp [named?]

/-! ## The invariant

A list is known by its module and its name, as a comdat is. The operands are no part of the key. -/

/-- No two lists of a module have the same name. -/
def NamedKeyed (s : Store) : Prop := s.namedMetadata.KeyedBy (fun n => (n.parent, n.name))

/-- The lists of a module are those that have it as their parent. -/
theorem mem_namedMetadataOf_iff :
    (x, n) ∈ s.namedMetadataOf m ↔ s.named? (some x) = some n ∧ n.parent = m := by
  rw [namedMetadataOf, Arena.mem_select_iff, decide_eq_true_eq]
  rfl

/-- Operations that do not write named metadata keep names distinct, -/
theorem NamedKeyed.of_eq (h : s.NamedKeyed) (ht : t.namedMetadata = s.namedMetadata) :
    t.NamedKeyed := by
  rw [NamedKeyed, ht]
  exact h

/-- so does taking lists away, -/
theorem NamedKeyed.of_filter {q : Ref .namedMetadata → NamedMetadata → Bool} (h : s.NamedKeyed)
    (ht : t.namedMetadata = s.namedMetadata.filter q) : t.NamedKeyed := by
  rw [NamedKeyed, ht]
  exact Arena.KeyedBy.filter h q

/-- and so do changes of operands, which are no part of the key. -/
theorem NamedKeyed.onOperands (h : s.NamedKeyed) (x : Ref .namedMetadata)
    (f : List (Ref .metadata) → List (Ref .metadata)) : (s.onOperands x f).NamedKeyed :=
  Arena.KeyedBy.modify h x (fun _ => rfl)

section Name
variable {name : String}

/-- A name finds the list that has it. -/
theorem NamedKeyed.namedMetadata?_eq_some_iff (h : s.NamedKeyed) :
    s.namedMetadata? m name = some x ↔ ∃ n, (x, n) ∈ s.namedMetadataOf m ∧ n.name = name := by
  rw [namedMetadata?, Arena.KeyedBy.find?_eq_some_iff h (m, name) (by simp)]
  simp only [mem_namedMetadataOf_iff, Prod.mk.injEq, and_assoc]
  rfl

/-- A name that is there brings the list, and nothing is made, -/
theorem getOrInsertNamedMetadata_of_mem (h : s.NamedKeyed) (hx : (x, n) ∈ s.namedMetadataOf m) :
    s.getOrInsertNamedMetadata m n.name = (x, s) := by
  have hfind : s.namedMetadata? m n.name = some x :=
    h.namedMetadata?_eq_some_iff.2 ⟨n, hx, rfl⟩
  simp only [getOrInsertNamedMetadata, hfind]

/-- while another name brings a new one. -/
theorem getOrInsertNamedMetadata_of_absent (h : s.NamedKeyed)
    (habsent : ∀ p ∈ s.namedMetadataOf m, p.2.name ≠ name) :
    (s.getOrInsertNamedMetadata m name).1 = (s.namedMetadata.alloc { parent := m, name }).1 ∧
      (s.getOrInsertNamedMetadata m name).2.namedMetadata =
        (s.namedMetadata.alloc { parent := m, name }).2 := by
  have hfind : s.namedMetadata? m name = none := by
    refine Option.eq_none_iff_forall_ne_some.2 fun x hx => ?_
    obtain ⟨n, hn, hname⟩ := h.namedMetadata?_eq_some_iff.1 hx
    exact habsent _ hn hname
  simp only [getOrInsertNamedMetadata, hfind, and_self]

/-- Names stay distinct, for a list is made only if its name is absent. -/
theorem NamedKeyed.getOrInsertNamedMetadata (h : s.NamedKeyed) (m : Ref .module) (name : String) :
    (s.getOrInsertNamedMetadata m name).2.NamedKeyed := by
  rcases Arena.exists_mem_or_forall_ne (s.namedMetadataOf m) NamedMetadata.name name with
    ⟨x, n, hx, rfl⟩ | habsent
  · rw [getOrInsertNamedMetadata_of_mem h hx]
    exact h
  · obtain ⟨-, hmade⟩ := getOrInsertNamedMetadata_of_absent h habsent
    rw [NamedKeyed, hmade]
    refine Arena.KeyedBy.alloc h fun r n hn heq => ?_
    obtain ⟨hparent, hname⟩ := Prod.mk.inj heq
    exact habsent (r, n) (mem_namedMetadataOf_iff.2 ⟨hn, hparent⟩) hname

end Name

/-! ## Edits

Four of the edits concern named metadata directly; `namedMetadata_edit_cases` sorts all edits by
what they do to it. -/

/-- A null operand is not added, -/
theorem addNamedOperand_null (s : Store) (x : Handle .namedMetadata) :
    s.addNamedOperand x none = s := by
  cases x with
  | none => rfl
  | some x => cases hn : s.named? (some x) <;> simp only [addNamedOperand, hn]

/-- nor is it stored. -/
theorem setNamedOperand_null (s : Store) (x : Handle .namedMetadata) (index : UInt32) :
    s.setNamedOperand x index none = .ok s := by
  cases x with
  | none => rfl
  | some x => cases hn : s.named? (some x) <;> simp only [setNamedOperand, hn]

/-- An edit asks for a list, erases one, changes the operands of one, or leaves named metadata
alone. -/
theorem namedMetadata_edit_cases (c : Ref .context) (s : Store) (e : Edit) :
    (∃ m name, e = .getOrInsertNamedMetadata m name) ∨ (∃ x, e = .eraseNamedMetadata (some x)) ∨
      (∃ x f, e.operandEdit? = some (x, f) ∧ s.edit c e = s.onOperands x f) ∨
        e.operandEdit? = none ∧ (s.edit c e).namedMetadata = s.namedMetadata := by
  cases e with
  | getOrInsertNamedMetadata m name => exact .inl ⟨m, name, rfl⟩
  | eraseNamedMetadata x =>
    cases x with
    | none => exact .inr (.inr (.inr ⟨rfl, rfl⟩))
    | some x => exact .inr (.inl ⟨x, rfl⟩)
  | setNamedOperand x index target =>
    cases x with
    | none => exact .inr (.inr (.inr ⟨rfl, rfl⟩))
    | some x =>
      cases target with
      | none =>
        refine .inr (.inr (.inr ⟨rfl, ?_⟩))
        rw [edit, setNamedOperand_null, after]
      | some target =>
        refine .inr (.inr (.inl ⟨x, _, rfl, ?_⟩))
        rw [edit, setNamedOperand_eq, after]
  | addNamedOperand x target =>
    cases x with
    | none => exact .inr (.inr (.inr ⟨rfl, rfl⟩))
    | some x =>
      cases target with
      | none =>
        refine .inr (.inr (.inr ⟨rfl, ?_⟩))
        rw [edit, addNamedOperand_null]
      | some target => exact .inr (.inr (.inl ⟨x, _, rfl, s.addNamedOperand_eq x target⟩))
  | clearNamedOperands x =>
    cases x with
    | none => exact .inr (.inr (.inr ⟨rfl, rfl⟩))
    | some x => exact .inr (.inr (.inl ⟨x, _, rfl, s.clearNamedOperands_eq x⟩))
  | _ =>
    refine .inr (.inr (.inr ⟨rfl, (changesOnly_edit c s _).namedMetadata fun hpart => ?_⟩))
    cases hpart

/-- Every edit keeps names distinct, -/
theorem NamedKeyed.edit (h : s.NamedKeyed) (c : Ref .context) (e : Edit) :
    (s.edit c e).NamedKeyed := by
  rcases s.namedMetadata_edit_cases c e with
    ⟨m, name, rfl⟩ | ⟨x, rfl⟩ | ⟨x, f, -, hedit⟩ | ⟨-, hsame⟩
  · exact h.getOrInsertNamedMetadata m name
  · exact h.of_filter (q := fun y _ => y ≠ x) rfl
  · rw [hedit]
    exact h.onOperands x f
  · exact h.of_eq hsame

/-- A list that is not erased stays, with the operands that the edit makes of its operands. Asking
for a list, its own name included, does nothing to it. -/
theorem named?_edit (h : s.NamedKeyed) (c : Ref .context) {e : Edit}
    (hn : s.named? (some x) = some n) (he : e ≠ .eraseNamedMetadata (some x)) :
    (s.edit c e).named? (some x) = some { n with operands := e.onOperands x n.operands } := by
  rcases s.namedMetadata_edit_cases c e with
    ⟨m, name, rfl⟩ | ⟨y, rfl⟩ | ⟨y, f, hf, hedit⟩ | ⟨hnone, hsame⟩
  · rcases Arena.exists_mem_or_forall_ne (s.namedMetadataOf m) NamedMetadata.name name with
      ⟨y, n', hy, rfl⟩ | habsent
    · rw [edit, getOrInsertNamedMetadata_of_mem h hy]
      exact hn
    · obtain ⟨-, hmade⟩ := getOrInsertNamedMetadata_of_absent h habsent
      rw [edit, named?, hmade]
      exact Arena.get?_alloc_eq_some_iff.2 (.inr hn)
  -- it is another list that is erased
  · have hne : y ≠ x := fun hy => he (hy ▸ rfl)
    exact Arena.get?_erase_eq_some_iff.2 ⟨hne, hn⟩
  · rw [hedit, named?_onOperands, hn, Option.map_some, Edit.onOperands, hf]
    by_cases hy : y = x
    · simp [hy]
    · simp [hy, Ne.symm hy]
  · rw [named?, hsame, Edit.onOperands, hnone]
    exact hn

/-! ## Runs

A list lives until it is erased. Over any edits in between, of any context, its operands take the
same course as a list of nodes would. -/

/-- After any edits that do not erase a list, its operands are what the edits make of them one after
the other. -/
theorem named?_foldl_edit {edits : List (Ref .context × Edit)} (h : s.NamedKeyed)
    (hn : s.named? (some x) = some n)
    (hedits : ∀ p ∈ edits, p.2 ≠ .eraseNamedMetadata (some x)) :
    (edits.foldl (fun s p => s.edit p.1 p.2) s).named? (some x) =
      some { n with operands := edits.foldl (fun l p => p.2.onOperands x l) n.operands } := by
  induction edits generalizing s n with
  | nil => exact hn
  | cons p edits ih =>
    rw [List.forall_mem_cons] at hedits
    exact ih (h.edit p.1 p.2) (named?_edit h p.1 hn hedits.1) hedits.2

/-- In the beginning there is no named metadata, -/
theorem namedKeyed_start : (default : Host).store.NamedKeyed := Arena.KeyedBy.of_none fun _ => rfl

/-- and every step of the store keeps names distinct. -/
theorem namedKeyed_step (hstep : StoreStep s t) (h : s.NamedKeyed) : t.NamedKeyed := by
  cases hstep with
  | unchanged => exact h
  | edit c e => exact h.edit c e
  | createContext => exact h.of_eq rfl
  | disposeContext c =>
    exact h.of_filter
      (q := fun _ n => !(s.modules.get? n.parent).any (fun y => y.context = c)) rfl
  | rewire old new => exact h.of_eq rfl
  | release v => exact h.of_eq ((changesOnly_release s v).namedMetadata (by decide))
  | retireModule m => exact h.of_filter (q := fun _ n => n.parent ≠ m) rfl

/-! ## One module at a time

The named metadata of a module is a selection from the arena, in the order of creation. -/

/-- A change of operands is seen in the place of the list, -/
theorem namedMetadataOf_onOperands (s : Store) (x : Ref .namedMetadata)
    (f : List (Ref .metadata) → List (Ref .metadata)) (m : Ref .module) :
    (s.onOperands x f).namedMetadataOf m = (s.namedMetadataOf m).map (fun p =>
      if p.1 = x then (p.1, { p.2 with operands := f p.2.operands }) else p) := by
  rw [namedMetadataOf, namedMetadataOf, onOperands, Arena.select_modify _ _ (by simp)]

/-- an erased list is missing, -/
theorem namedMetadataOf_eraseNamedMetadata (s : Store) (x : Ref .namedMetadata) (m : Ref .module) :
    (s.eraseNamedMetadata (some x)).namedMetadataOf m =
      (s.namedMetadataOf m).filter (fun p => p.1 ≠ x) :=
  Arena.select_erase ..

/-- and a new one is seen at the end of one module. -/
theorem namedMetadataOf_alloc (ht : t.namedMetadata = (s.namedMetadata.alloc n).2)
    (m : Ref .module) : t.namedMetadataOf m =
      if n.parent = m then s.namedMetadataOf m ++ [((s.namedMetadata.alloc n).1, n)]
      else s.namedMetadataOf m := by
  rw [namedMetadataOf, namedMetadataOf, ht, Arena.select_alloc]
  simp only [decide_eq_true_eq]

/-- What callers can rely on: the named metadata of a module is a list that stands for a map from
names to lists of operands. -/
structure NamedMetadataMap (s : Store) : Prop where
  nodup : ∀ m, ((s.namedMetadataOf m).map (fun p => p.2.name)).Nodup
  /-- A name that is there is found, with the operands that it has. -/
  found : ∀ m x n, (x, n) ∈ s.namedMetadataOf m → s.getOrInsertNamedMetadata m n.name = (x, s)
  /-- Any other name is added, under a handle that was not in use and without operands. -/
  made : ∀ m name, (∀ p ∈ s.namedMetadataOf m, p.2.name ≠ name) →
    ∃ x, (s.getOrInsertNamedMetadata m name).1 = x ∧ s.named? (some x) = none ∧
      ∀ m', (s.getOrInsertNamedMetadata m name).2.namedMetadataOf m' =
        if m' = m then s.namedMetadataOf m ++ [(x, ⟨m, name, []⟩)] else s.namedMetadataOf m'
  erase : ∀ x m, (s.eraseNamedMetadata (some x)).namedMetadataOf m =
    (s.namedMetadataOf m).filter (fun p => p.1 ≠ x)
  /-- A name that has been erased is not there any more, so that it can be added again. -/
  erased : ∀ m x n, (x, n) ∈ s.namedMetadataOf m →
    ∀ p ∈ (s.eraseNamedMetadata (some x)).namedMetadataOf m, p.2.name ≠ n.name
  count : ∀ x n, s.named? (some x) = some n → n.operands.length < 4294967296 →
    (s.namedOperandCount (some x)).toNat = n.operands.length
  read : ∀ x n (index : UInt32), s.named? (some x) = some n →
    s.namedOperand (some x) index = .ok n.operands[index.toNat]?
  /-- The operands of a list change as by `add`, `set` and `clear` on lists, and no other list of any
  module does. -/
  add : ∀ x target m, (s.addNamedOperand (some x) (some target)).namedMetadataOf m =
    (s.namedMetadataOf m).map (fun p =>
      if p.1 = x then (p.1, { p.2 with operands := p.2.operands ++ [target] }) else p)
  set : ∀ x (index : UInt32) target, ∃ t, s.setNamedOperand (some x) index (some target) = .ok t ∧
    ∀ m, t.namedMetadataOf m = (s.namedMetadataOf m).map (fun p =>
      if p.1 = x then (p.1, { p.2 with operands := p.2.operands.set index.toNat target }) else p)
  clear : ∀ x m, (s.clearNamedOperands (some x)).namedMetadataOf m =
    (s.namedMetadataOf m).map (fun p =>
      if p.1 = x then (p.1, { p.2 with operands := [] }) else p)
  /-- Null operands and indices past the end change nothing at all. -/
  declined : ∀ x, s.addNamedOperand x none = s ∧
    (∀ index, s.setNamedOperand x index none = .ok s) ∧
      ∀ n index target, s.named? x = some n → n.operands.length ≤ index.toNat →
        s.setNamedOperand x index target = .ok s
  /-- Over any edits that do not erase it, a list keeps its place in its module and its name, and its
  operands are what the edits make of them. -/
  course : ∀ (edits : List (Ref .context × Edit)) x n, s.named? (some x) = some n →
    (∀ p ∈ edits, p.2 ≠ .eraseNamedMetadata (some x)) →
      (edits.foldl (fun s p => s.edit p.1 p.2) s).named? (some x) =
        some { n with operands := edits.foldl (fun l p => p.2.onOperands x l) n.operands }

/-- **Lists with distinct names are a map.** -/
theorem NamedKeyed.namedMetadataMap (h : s.NamedKeyed) : s.NamedMetadataMap where
  nodup m := Arena.KeyedBy.nodup_select h fun x y hx hy hname => by
    simp only [decide_eq_true_eq] at hx hy
    rw [hx, hy, hname]
  found _ _ _ hx := getOrInsertNamedMetadata_of_mem h hx
  made m name habsent := by
    obtain ⟨hfirst, hmade⟩ := getOrInsertNamedMetadata_of_absent h habsent
    refine ⟨_, hfirst, Arena.get?_alloc_fst .., fun m' => ?_⟩
    rw [namedMetadataOf_alloc hmade]
    by_cases hm : m' = m
    · simp [hm]
    · simp [hm, Ne.symm hm]
  erase := s.namedMetadataOf_eraseNamedMetadata
  erased m x n hx p hp hname := by
    rw [namedMetadataOf_eraseNamedMetadata] at hp
    obtain ⟨hp, hne⟩ := List.mem_filter.1 hp
    obtain ⟨hget, hparent⟩ := mem_namedMetadataOf_iff.1 hp
    obtain ⟨hget', hparent'⟩ := mem_namedMetadataOf_iff.1 hx
    -- another list of that name would have the key of the erased one
    have hsame : p.1 = x := h _ _ _ _ hget hget' (Prod.ext (hparent.trans hparent'.symm) hname)
    exact absurd hsame (of_decide_eq_true hne)
  count x n hn hlt := by
    rw [namedOperandCount, hn]
    exact toNat_count32 hlt
  read x n index hn := by
    rw [namedOperand, hn]
    by_cases hlt : index.toNat < n.operands.length
    · simp [hlt, NamedMetadata.operand, Except.map]
    · simp [hlt]
  add x target m := by
    rw [addNamedOperand_eq, namedMetadataOf_onOperands]
  set x index target := ⟨_, s.setNamedOperand_eq x index target, s.namedMetadataOf_onOperands x _⟩
  clear x m := by
    rw [clearNamedOperands_eq, namedMetadataOf_onOperands]
  declined x := by
    refine ⟨s.addNamedOperand_null x, s.setNamedOperand_null x, fun n index target hn hle => ?_⟩
    obtain ⟨r, rfl, -⟩ := Option.bind_eq_some_iff.1 hn
    cases target with
    | none => exact s.setNamedOperand_null _ index
    | some target =>
      rw [setNamedOperand_eq, onOperands_eq_self hn (List.set_eq_of_length_le hle)]
  course _ _ _ hn hedits := named?_foldl_edit h hn hedits

end Store

namespace Surface

/-- **Named metadata is a map from names to lists.** In every reachable world names are distinct
within a module, a list is made when its name is not there and found when it is, and what is done to
the operands of a list is what the same operation does to a list of nodes; it shows nowhere else.

Only the names need an invariant (`store_invariant`).  What a list has in it after any number of edits
is a fold over the edits, since each of them acts on that list as it acts on a list of nodes. -/
theorem named_metadata_is_map {w : World} (hw : Reachable w) : w.host.store.NamedMetadataMap :=
  (store_invariant Store.namedKeyed_start Store.namedKeyed_step hw).namedMetadataMap

/-- Two modules with a list of the same name; the list of the first has two operands. -/
def namedWorld : World where
  host := { Host.opened with
    store := [.createModule "m", .createModule "n", .mdNode .distinct [], .mdNode .distinct [],
      .getOrInsertNamedMetadata ⟨0⟩ "flags", .getOrInsertNamedMetadata ⟨1⟩ "flags",
      .addNamedOperand (some ⟨0⟩) (some ⟨0⟩), .addNamedOperand (some ⟨0⟩) (some ⟨1⟩)].foldl
        (·.edit ⟨0⟩) Host.opened.store }

/-- There the list is found, an operand is replaced, one past the end is not, and after the list has
been erased its name brings an empty one. -/
theorem namedWorld_is_map :
    Reachable namedWorld ∧ namedWorld.host.store.NamedMetadataMap ∧
      (namedWorld.host.store.getOrInsertNamedMetadata ⟨0⟩ "flags").1 = ⟨0⟩ ∧
      ((namedWorld.host.store.edit ⟨0⟩ (.setNamedOperand (some ⟨0⟩) 1 (some ⟨0⟩))).edit ⟨0⟩
          (.setNamedOperand (some ⟨0⟩) 2 (some ⟨1⟩))).namedMetadataOf ⟨0⟩ =
        [(⟨0⟩, ⟨⟨0⟩, "flags", [⟨0⟩, ⟨0⟩]⟩)] ∧
      ((namedWorld.host.store.eraseNamedMetadata (some ⟨0⟩)).getOrInsertNamedMetadata ⟨0⟩
          "flags").2.namedMetadataOf ⟨0⟩ = [(⟨2⟩, ⟨⟨0⟩, "flags", []⟩)] := by
  have hw : Reachable namedWorld :=
    reachable_foldl_edit ⟨0⟩ _
      (.call .plain (.command .contextCreate) .start rfl)
  exact ⟨hw, named_metadata_is_map hw, rfl, rfl, rfl⟩

end Surface

end ForeignHandles
