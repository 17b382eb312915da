import ForeignHandles.Proofs.Arena
import ForeignHandles.Proofs.Store.Rewire

/-!
  Functions and their arguments.

  A function is made with all its arguments, and from then on neither the list of its arguments nor
  the index that an argument carries changes; what may happen to an argument is that it is deleted.
  `ListsArguments` says what follows: an argument is on the list of one function, in one place, and
  its index is that place.

  There is one operation that makes functions with arguments.  All others leave functions and
  arguments as they are and make none (`SameFunctions`), and that is enough to keep
  `ListsArguments`.

  An argument knows its index but not its function, and a function knows its arguments by reference.
  That the two agree is not enforced anywhere after the function is made; it stays true because no
  operation writes either of them. So the work is at the one place where functions are made: the
  arguments are handed out in a row, directly before the function, so their references are new, none
  is a reference of an argument of another function, and the place in the list can be read off the
  reference (`addArguments_spec`).

  Deletion takes arguments away and leaves the list of their function alone, so an entry of the list
  may be dead. The statements about values that are there are therefore conditional, and the last
  section is about the arguments that are.
-/
namespace ForeignHandles

/-! ## Arguments of a value -/

/-- What a value says about arguments: its index, if it is one, and which ones it has. -/
def Value.signature (x : Value) : Option UInt32 × List (Ref .value) :=
  (x.argumentIndex?, x.arguments)

namespace Value

variable {x y : Value}

/-- Two values say the same of arguments if they agree on both parts. -/
theorem signature_eq_iff :
    x.signature = y.signature ↔ x.argumentIndex? = y.argumentIndex? ∧ x.arguments = y.arguments := by
  simp [signature]

/-- Redirecting uses does not touch what a value says of arguments: a use of an argument is no
place in a list. -/
theorem signature_redirect (old : Ref .value) (new : Handle .value) (x : Value) :
    (x.redirect old new).signature = x.signature := by
  unfold redirect
  cases hb : x.body with
  | globalAlias a => by_cases ha : a = some old <;> simp [ha, hb, signature, argumentIndex?, arguments]
  | _ => rfl

/-- What has an index is an argument, so it has no arguments itself. -/
theorem of_argumentIndex? {i : UInt32} (h : x.argumentIndex? = some i) :
    x.kind = .argument ∧ x.arguments = [] := by
  unfold argumentIndex? at h
  cases hb : x.body <;> simp_all [kind, ValueBody.kind, arguments]

/-- What has arguments is a function. -/
theorem kind_of_mem_arguments {a : Ref .value} (h : a ∈ x.arguments) : x.kind = .function := by
  unfold arguments at h
  cases hb : x.body <;> simp_all [kind, ValueBody.kind]

end Value

namespace Store

variable {c : Ref .context} {s t u : Store}

/-! ## No new functions

What an operation may do without disturbing any of this: values may come and go, as long as those
that stay keep what they say of arguments, and those that come have none. Both parts compose, and
nearly every operation satisfies them at once. -/

/-- Functions and arguments are as they were, and no function with arguments is new. -/
structure SameFunctions (s t : Store) : Prop where
  ages : Arena.Ages Value.signature s.values t.values
  fresh : ∀ {f x}, t.values.get? f = some x → s.values.next ≤ f.index → x.arguments = []

namespace SameFunctions

/-- Nothing is new if no reference was handed out. -/
theorem of_ages (hages : Arena.Ages Value.signature s.values t.values)
    (hnext : t.values.next = s.values.next) : SameFunctions s t where
  ages := hages
  fresh {f x} hx hle := by
    have hlt : f.index < t.values.next := Arena.index_lt_next_of_get? hx
    omega

/-- Operations that write no values, -/
theorem of_values (h : t.values = s.values) : SameFunctions s t :=
  of_ages (h ▸ .refl _ _) (by rw [h])

protected theorem refl (s : Store) : SameFunctions s s := of_values rfl

/-- Two such operations in a row. A function of the last store is either new in the second step,
or it was there in between. -/
protected theorem trans (h : SameFunctions s t) (h' : SameFunctions t u) : SameFunctions s u where
  ages := h.ages.trans h'.ages
  fresh {f z} hz hle := by
    by_cases hlt : f.index < t.values.next
    · -- it came with the first step, and the second left it as it was
      obtain ⟨y, hy, hsame⟩ := Option.map_eq_some_iff.1 (h'.ages.old hz hlt)
      rw [← (Value.signature_eq_iff.1 hsame).2]
      exact h.fresh hy hle
    · exact h'.fresh hz (Nat.le_of_not_lt hlt)

/-- A new value without arguments. -/
theorem of_alloc {x : Value} (hx : x.arguments = []) (ht : t.values = (s.values.alloc x).2) :
    SameFunctions s t where
  ages := ht ▸ .alloc _ _ x
  fresh {f y} hy hle := by
    rw [ht] at hy
    rcases Arena.get?_alloc_eq_some_iff.1 hy with ⟨-, rfl⟩ | hold
    · exact hx
    · have hlt := Arena.index_lt_next_of_get? hold
      omega

/-- A change of all values that leaves alone what they say of arguments. -/
theorem of_map {f : Ref .value → Value → Value} (ht : t.values = s.values.map f)
    (hf : ∀ {v x}, s.values.get? v = some x → (f v x).signature = x.signature) :
    SameFunctions s t :=
  of_ages (ht ▸ .map s.values hf) (by rw [ht]; rfl)

/-- The same for a change of one value. -/
theorem of_modify {v : Ref .value} {f : Value → Value} (ht : t.values = s.values.modify v f)
    (hf : ∀ {x}, s.values.get? v = some x → (f x).signature = x.signature) :
    SameFunctions s t := by
  refine of_map ht fun {w x} hx => ?_
  split
  · rename_i hw
    exact hf (hw ▸ hx)
  · rfl

/-- Where an operation faults, nothing happens to functions either. -/
theorem after {r : Except Fault Store} (h : ∀ t, r = .ok t → SameFunctions s t) :
    SameFunctions s (s.after r) := by
  cases r with
  | error e => exact .refl s
  | ok t => exact h t rfl

end SameFunctions

/-- Data has no arguments, whatever bytes it is made of. -/
theorem sameFunctions_constDataArray {bits : UInt32} {raw : List UInt8} :
    SameFunctions s (s.edit c (.constDataArray bits raw)) := by
  rcases s.edit_constDataArray_cases c bits raw with heq | ⟨data, heq⟩
  · rw [heq]
    exact .refl s
  · rw [heq]
    exact .of_alloc (x := { context := c, name := "", body := .constantData data }) rfl rfl

/-- An instruction has no arguments, however many debug records it has. -/
theorem sameFunctions_attachDebugRecord (s : Store) (v : Ref .value) :
    SameFunctions s (s.after (s.attachDebugRecord v)) := by
  refine .after fun t ht => ?_
  obtain rfl | ⟨x, before, more, hv, hb, rfl⟩ := attachDebugRecord_cases ht
  · exact .refl t
  · refine .of_modify (f := fun _ => { x with body := .instruction more }) rfl
      fun {y} hy => ?_
    -- neither before nor after has an instruction anything to do with arguments
    obtain rfl : x = y := by simpa [hv] using hy
    simp [Value.signature, Value.argumentIndex?, Value.arguments, hb]

/-- A global variable loses its parent and nothing else. -/
theorem sameFunctions_removeGlobalVariable (s : Store) (m : Ref .module) (v : Ref .value) :
    SameFunctions s (s.removeGlobalVariable m v).2 := by
  unfold removeGlobalVariable
  split
  · exact .of_modify (f := fun x => { x with parent := none }) rfl fun _ => rfl
  · exact .refl s

/-- Every edit but one leaves functions and arguments alone. -/
theorem sameFunctions_edit (c : Ref .context) (s : Store) {e : Edit}
    (he : ∀ m name count, e ≠ .addFunction m name count) : SameFunctions s (s.edit c e) := by
  cases e with
  | addFunction m name count => exact absurd rfl (he m name count)
  | constInt bits value =>
    exact .of_alloc (x := { context := c, name := "", body := .constantInt bits value }) rfl rfl
  | constNull =>
    exact .of_alloc (x := { context := c, name := "", body := .constantPointerNull }) rfl rfl
  | constDataArray bits raw => exact sameFunctions_constDataArray
  | constString text terminated =>
    exact .of_alloc (x := ⟨c, "", none, .constantData (.ofText text terminated)⟩) rfl rfl
  | createInstruction name =>
    exact .of_alloc (x := { context := c, name, body := .instruction 0 }) rfl rfl
  | setValueName v name => exact .of_modify (f := fun x => { x with name }) rfl fun _ => rfl
  | attachDebugRecord v => exact sameFunctions_attachDebugRecord s v
  | addGlobalVariable m name =>
    cases h : s.checkAddition m name with
    | error e =>
      simp only [edit, addGlobalVariable, h]
      exact .refl s
    | ok x =>
      simp only [edit, addGlobalVariable, h]
      exact .of_alloc (x := ⟨x.context, name, some m, .globalVariable⟩) rfl rfl
  | addGlobalAlias m name aliasee =>
    simp only [edit, addGlobalAlias]
    split
    · exact .refl s
    · cases h : s.checkAddition m name with
      | error e => exact .refl s
      | ok x =>
        exact .of_alloc (x := ⟨x.context, name, some m, .globalAlias (some aliasee)⟩) rfl rfl
  | removeGlobalVariable m v => exact sameFunctions_removeGlobalVariable s m v
  | unlinkVariable v =>
    simp only [edit, unlinkVariable]
    split
    · split
      · exact sameFunctions_removeGlobalVariable s _ _
      · exact .refl s
    · exact .refl s
  | _ => exact .of_values (values_edit c s rfl)

/-! ## Arguments of functions -/

/-- An argument is on the list of one function, in one place, and its index is that place. -/
structure ListsArguments (s : Store) : Prop where
  placed : ∀ {f x a} {i : Nat}, s.values.get? f = some x → x.arguments[i]? = some a →
    i < UInt32.size ∧ a.index < s.values.next ∧
      ∀ {y}, s.values.get? a = some y → y.argumentIndex? = some (.ofNat i)
  apart : ∀ {f g x y a} {i j : Nat}, s.values.get? f = some x → s.values.get? g = some y →
    x.arguments[i]? = some a → y.arguments[j]? = some a → f = g ∧ i = j

/-- The new arguments are handed out one after another, and each has the index that follows. -/
theorem addArguments_spec (c : Ref .context) (count : Nat) (s : Store) (index : Nat) :
    SameFunctions s (s.addArguments c index count).2 ∧
      (s.addArguments c index count).2.values.next = s.values.next + count ∧
      ∀ {a} {i : Nat}, (s.addArguments c index count).1[i]? = some a →
        i < count ∧ a = ⟨s.values.next + i⟩ ∧
          ∀ {y}, (s.addArguments c index count).2.values.get? a = some y →
            y.argumentIndex? = some (.ofNat (index + i)) := by
  induction count generalizing s index with
  | zero => exact ⟨.refl s, rfl, fun h => by simp [addArguments] at h⟩
  | succ count ih =>
    -- the induction is on the number of arguments that are still to come; the index goes up as it
    -- goes down
    obtain ⟨hrest, hnext, hlist⟩ := ih (s.addValue c "" (.argument (.ofNat index))).2 (index + 1)
    have hfirst : SameFunctions s (s.addValue c "" (.argument (.ofNat index))).2 :=
      .of_alloc (x := { context := c, name := "", body := .argument (.ofNat index) }) rfl rfl
    refine ⟨hfirst.trans hrest, ?_, fun {a i} ha => ?_⟩
    · exact hnext.trans (Nat.add_right_comm ..)
    · cases i with
      | zero =>
        obtain rfl : (⟨s.values.next⟩ : Ref .value) = a := Option.some.inj ha
        refine ⟨Nat.succ_pos _, rfl, fun {y} hy => ?_⟩
        -- the others come after it and leave it as it is
        have hold := hrest.ages.old hy (Nat.lt_succ_self s.values.next)
        obtain ⟨z, hz, hsame⟩ := Option.map_eq_some_iff.1 hold
        have hmade : (s.addValue c "" (.argument (.ofNat index))).2.values.get? ⟨s.values.next⟩ =
            some { context := c, name := "", body := .argument (.ofNat index) } :=
          (Arena.get?_alloc ..).trans (if_pos rfl)
        obtain rfl := Option.some.inj (hz.symm.trans hmade)
        exact (Value.signature_eq_iff.1 hsame).1.symm
      | succ i =>
        obtain ⟨hlt, rfl, hindex⟩ := hlist ha
        refine ⟨Nat.succ_lt_succ hlt, ?_, fun {y} hy => ?_⟩
        · exact congrArg Ref.mk (Nat.add_right_comm ..)
        · rw [hindex hy, Nat.add_right_comm, Nat.add_assoc]

namespace ListsArguments

/-- **What leaves functions alone keeps arguments in their places.** Every function with arguments
is an old one, so its list is an old list. -/
theorem keep (hs : s.ListsArguments) (h : SameFunctions s t) : t.ListsArguments := by
  -- a function with arguments is old, and had the same list before
  have hbefore {f : Ref .value} {x : Value} {i : Nat} {a : Ref .value}
      (hf : t.values.get? f = some x) (ha : x.arguments[i]? = some a) :
      ∃ y, s.values.get? f = some y ∧ y.arguments[i]? = some a := by
    by_cases hlt : f.index < s.values.next
    · obtain ⟨y, hy, hsame⟩ := Option.map_eq_some_iff.1 (h.ages.old hf hlt)
      exact ⟨y, hy, (Value.signature_eq_iff.1 hsame).2 ▸ ha⟩
    · rw [h.fresh hf (Nat.le_of_not_lt hlt)] at ha
      cases ha
  refine ⟨fun {f x a i} hf ha => ?_, fun {f g x y a i j} hf hg hi hj => ?_⟩
  · obtain ⟨y, hy, hi⟩ := hbefore hf ha
    obtain ⟨hsize, hlt, hindex⟩ := hs.placed hy hi
    refine ⟨hsize, Nat.lt_of_lt_of_le hlt h.ages.next_le, fun {z} hz => ?_⟩
    obtain ⟨z', hz', hsame⟩ := Option.map_eq_some_iff.1 (h.ages.old hz hlt)
    rw [← (Value.signature_eq_iff.1 hsame).1]
    exact hindex hz'
  · obtain ⟨x', hx', hi'⟩ := hbefore hf hi
    obtain ⟨y', hy', hj'⟩ := hbefore hg hj
    exact hs.apart hx' hy' hi' hj'

/-- A new function, with arguments that no other function has. -/
theorem adopt (hs : t.ListsArguments) {arguments : List (Ref .value)} {m : Ref .module}
    {name : String} {list : Ref .value → Module → Module}
    (hplaced : ∀ {a} {i : Nat}, arguments[i]? = some a → i < UInt32.size ∧ a.index < t.values.next ∧
      ∀ {y}, t.values.get? a = some y → y.argumentIndex? = some (.ofNat i))
    (honce : ∀ {a} {i j : Nat}, arguments[i]? = some a → arguments[j]? = some a → i = j)
    (hnew : ∀ {f x a}, t.values.get? f = some x → a ∈ x.arguments → a ∉ arguments) :
    (t.adopt m c name (.function arguments) list).2.ListsArguments := by
  -- the new function, or an old one
  have hcases {f : Ref .value} {x : Value}
      (hf : (t.adopt m c name (.function arguments) list).2.values.get? f = some x) :
      f = ⟨t.values.next⟩ ∧ x.arguments = arguments ∨ t.values.get? f = some x := by
    rcases Arena.get?_alloc_eq_some_iff.1 hf with ⟨rfl, rfl⟩ | hold
    · exact .inl ⟨rfl, rfl⟩
    · exact .inr hold
  refine ⟨fun {f x a i} hf ha => ?_, fun {f g x y a i j} hf hg hi hj => ?_⟩
  · have hbefore : i < UInt32.size ∧ a.index < t.values.next ∧
        ∀ {y}, t.values.get? a = some y → y.argumentIndex? = some (.ofNat i) := by
      rcases hcases hf with ⟨-, hx⟩ | hold
      · exact hplaced (hx ▸ ha)
      · exact hs.placed hold ha
    obtain ⟨hsize, hlt, hindex⟩ := hbefore
    refine ⟨hsize, Nat.lt_succ_of_lt hlt, fun {y} hy => ?_⟩
    rcases hcases hy with ⟨rfl, -⟩ | hold
    · exact absurd hlt (Nat.lt_irrefl _)
    · exact hindex hold
  · rcases hcases hf with ⟨rfl, hx⟩ | hf <;> rcases hcases hg with ⟨rfl, hy⟩ | hg
    · exact ⟨rfl, honce (hx ▸ hi) (hy ▸ hj)⟩
    -- one of the two is the new function, and no other has its arguments
    · exact absurd (List.mem_of_getElem? (hx ▸ hi)) (hnew hg (List.mem_of_getElem? hj))
    · exact absurd (List.mem_of_getElem? (hy ▸ hj)) (hnew hf (List.mem_of_getElem? hi))
    · exact hs.apart hf hg hi hj

/-- A new function finds its arguments directly before it, all of them new. Those of other
functions are older, so no two lists share one. -/
theorem addFunction (hs : s.ListsArguments) (m : Ref .module) (name : String) (count : UInt32) :
    (s.addFunction m name count).2.ListsArguments := by
  cases h : s.checkAddition m name with
  | error e =>
    simp only [Store.addFunction, h]
    exact hs
  | ok x =>
    simp only [Store.addFunction, h]
    obtain ⟨hsame, hnext, hlist⟩ := addArguments_spec x.context count.toNat s 0
    refine (hs.keep hsame).adopt (fun {a i} ha => ?_) (fun {a i j} hi hj => ?_)
      fun {f y a} hf ha hmem => ?_
    · obtain ⟨hlt, rfl, hindex⟩ := hlist ha
      refine ⟨Nat.lt_trans hlt count.toNat_lt_size, ?_, fun {y} hy => ?_⟩
      · rw [hnext]
        exact Nat.add_lt_add_left hlt _
      · rw [hindex hy, Nat.zero_add]
    · obtain ⟨-, heq, -⟩ := hlist hi
      obtain ⟨-, heq', -⟩ := hlist hj
      -- the reference of an argument says its place
      have hindex : s.values.next + i = s.values.next + j :=
        congrArg Ref.index (heq.symm.trans heq')
      omega
    · -- the arguments of other functions were handed out before
      obtain ⟨i, hi⟩ := List.mem_iff_getElem?.1 hmem
      obtain ⟨-, rfl, -⟩ := hlist hi
      have hlt : f.index < s.values.next ∨ s.values.next ≤ f.index := Nat.lt_or_ge ..
      rcases hlt with hlt | hle
      · obtain ⟨z, hz, hsig⟩ := Option.map_eq_some_iff.1 (hsame.ages.old hf hlt)
        obtain ⟨j, hj⟩ := List.mem_iff_getElem?.1 ((Value.signature_eq_iff.1 hsig).2 ▸ ha)
        have hold := (hs.placed hz hj).2.1
        simp only at hold
        omega
      · rw [hsame.fresh hf hle] at ha
        cases ha

/-- One edit makes a function, and all others leave functions alone. -/
theorem edit (hs : s.ListsArguments) (c : Ref .context) (e : Edit) :
    (s.edit c e).ListsArguments := by
  by_cases he : ∃ m name count, e = .addFunction m name count
  · obtain ⟨m, name, count, rfl⟩ := he
    exact hs.addFunction m name count
  · exact hs.keep (sameFunctions_edit c s fun m name count heq => he ⟨m, name, count, heq⟩)

/-- Rewiring changes what aliases stand for. -/
theorem rewire (hs : s.ListsArguments) (old : Ref .value) (new : Handle .value) :
    (s.rewire old new).ListsArguments :=
  hs.keep (.of_map rfl fun _ => Value.signature_redirect ..)

/-- Releasing rewires and takes one value away; the lists of functions may then name something
that is gone. -/
theorem release (hs : s.ListsArguments) (v : Ref .value) : (s.release v).ListsArguments := by
  have hrewired : SameFunctions s ((s.unlist v).rewire v none) :=
    .of_map (by rw [← values_unlist s v]; rfl) fun _ => Value.signature_redirect ..
  refine hs.keep (hrewired.trans (.of_ages ?_ rfl))
  exact .filter Value.signature ((s.unlist v).rewire v none).values fun w _ => w ≠ v

/-! ## The arguments of one function -/

variable {f g a b : Ref .value} {x y : Value}

/-- Arguments of a function are arguments, and have none themselves. -/
theorem argument (hs : s.ListsArguments) (hf : s.values.get? f = some x) (ha : a ∈ x.arguments)
    (hy : s.values.get? a = some y) : y.kind = .argument ∧ y.arguments = [] := by
  obtain ⟨i, hi⟩ := List.mem_iff_getElem?.1 ha
  exact Value.of_argumentIndex? ((hs.placed hf hi).2.2 hy)

/-- An argument has one function, -/
theorem unique (hs : s.ListsArguments) (hf : s.values.get? f = some x)
    (hg : s.values.get? g = some y) (hx : a ∈ x.arguments) (hy : a ∈ y.arguments) : f = g := by
  obtain ⟨i, hi⟩ := List.mem_iff_getElem?.1 hx
  obtain ⟨j, hj⟩ := List.mem_iff_getElem?.1 hy
  exact (hs.apart hf hg hi hj).1

/-- and is on its list once. -/
theorem nodup (hs : s.ListsArguments) (hf : s.values.get? f = some x) : x.arguments.Nodup := by
  refine List.nodup_iff_getElem?_ne_getElem?.2 fun i j hij hj heq => ?_
  have hsome : x.arguments[j]? = some x.arguments[j] := List.getElem?_eq_getElem hj
  have hsame := (hs.apart hf hf (heq.trans hsome) hsome).2
  omega

/-- The arguments that are there come in the order of their indices. -/
theorem increasing (hs : s.ListsArguments) (hf : s.values.get? f = some x) :
    (x.arguments.filter s.values.contains).Pairwise
      (fun a b => s.argumentIndex (some a) < s.argumentIndex (some b)) := by
  have hread {i : Nat} {a : Ref .value} (ha : x.arguments[i]? = some a)
      (hthere : s.values.contains a = true) : (s.argumentIndex (some a)).toNat = i := by
    obtain ⟨y, hy⟩ := Option.isSome_iff_exists.1 hthere
    obtain ⟨hsize, -, hindex⟩ := hs.placed hf ha
    rw [argumentIndex, value?, Option.bind_some, hy, Option.bind_some, hindex hy]
    exact UInt32.toNat_ofNat_of_lt hsize
  rw [List.pairwise_filter]
  refine List.pairwise_iff_getElem.2 fun i j hi hj hij ha hb => ?_
  rw [UInt32.lt_iff_toNat_lt, hread (List.getElem?_eq_getElem hi) ha,
    hread (List.getElem?_eq_getElem hj) hb]
  exact hij

end ListsArguments

end Store

end ForeignHandles
