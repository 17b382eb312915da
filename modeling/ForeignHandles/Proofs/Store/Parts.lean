import ForeignHandles.Proofs.Store.Edit

/-!
  Which part of a store an edit changes.

  Values, modules and metadata are linked with each other; what else there is lies aside of them:
  attributes, comdats, cursors over comdats, and named metadata.  Every edit has one part that it
  may change (`Edit.part`), and it leaves all that lies aside of it alone (`changesOnly_edit`).
  What holds of comdats, say, is then a matter of three edits and not of all of them.

  There are many edits, and most of them are not about comdats or attributes at all. So the main
  theorem goes through the edits once, and each case is one of two sorts: the edit changes objects
  only, which leaves all four other parts as they are by definition, or it is one of the few that
  name their part, for which `with_comdats` and its like say that a single field was written. Edits
  with checks of their own have a lemma each, which follows the checks of the operation: wherever
  the operation declines, the store is the same, and where it goes through, the fields that it
  writes can be read off its result.

  Later modules use only three consequences. The attributes of a store stay checked because one edit
  makes attributes; comdats stay keyed because three edits touch them; cursors and named metadata
  follow their own operations. A new edit of the objects needs one line here and nothing there.
-/
namespace ForeignHandles

/-- A part of a store. -/
inductive Part where
  | objects | contexts | attributes | comdats | comdatCursors | namedMetadata
  deriving DecidableEq

/-- The part that an edit may change. -/
def Edit.part : Edit → Part
  | .setOdrUniquing _ => .contexts
  | .createAttribute _ => .attributes
  | .insertOrUpdateComdat _ _ _ | .dropComdat _ _ | .dropAllComdats _ => .comdats
  | .beginComdats _ | .moveComdatCursor _ | .resetComdatCursor _ | .disposeComdatCursor _ =>
    .comdatCursors
  | .getOrInsertNamedMetadata _ _ | .setNamedOperand _ _ _ | .addNamedOperand _ _
  | .clearNamedOperands _ | .eraseNamedMetadata _ => .namedMetadata
  | _ => .objects

namespace Store

variable {part : Part} {s t u : Store}

/-- Nothing that lies aside has changed, but for the given part. Each field is guarded by the
part's not being the one that may change, so that a case of `changesOnly_edit` only has to look at
what its own operation writes. -/
structure ChangesOnly (part : Part) (s t : Store) : Prop where
  attributes : part ≠ .attributes → t.attributes = s.attributes
  comdats : part ≠ .comdats → t.comdats = s.comdats
  comdatCursors : part ≠ .comdatCursors → t.comdatCursors = s.comdatCursors
  namedMetadata : part ≠ .namedMetadata → t.namedMetadata = s.namedMetadata

namespace ChangesOnly

/-- All that lies aside is the same. -/
theorem of_eq (hattributes : t.attributes = s.attributes) (hcomdats : t.comdats = s.comdats)
    (hcursors : t.comdatCursors = s.comdatCursors) (hnamed : t.namedMetadata = s.namedMetadata) :
    ChangesOnly part s t :=
  ⟨fun _ => hattributes, fun _ => hcomdats, fun _ => hcursors, fun _ => hnamed⟩

/-- Doing nothing changes no part, whichever part one would be allowed to change. -/
protected theorem refl (part : Part) (s : Store) : ChangesOnly part s s := of_eq rfl rfl rfl rfl

/-- What two steps in a row leave alone is left alone by both together, provided they may change
the same part. -/
protected theorem trans (h : ChangesOnly part s t) (h' : ChangesOnly part t u) :
    ChangesOnly part s u where
  attributes hne := (h'.attributes hne).trans (h.attributes hne)
  comdats hne := (h'.comdats hne).trans (h.comdats hne)
  comdatCursors hne := (h'.comdatCursors hne).trans (h.comdatCursors hne)
  namedMetadata hne := (h'.namedMetadata hne).trans (h.namedMetadata hne)

/-- Writing the attributes alone is a change of the attributes. -/
theorem with_attributes (s : Store) (attributes : Arena .attribute OwnedAttribute) :
    ChangesOnly .attributes s { s with attributes } :=
  ⟨fun hne => absurd rfl hne, fun _ => rfl, fun _ => rfl, fun _ => rfl⟩

/-- Writing the comdats alone is a change of the comdats; what modules say of themselves is not
kept there. -/
theorem with_comdats (s : Store) (comdats : Arena .comdat Comdat) :
    ChangesOnly .comdats s { s with comdats } :=
  ⟨fun _ => rfl, fun hne => absurd rfl hne, fun _ => rfl, fun _ => rfl⟩

/-- Writing the cursors alone is a change of the cursors, and not of the comdats that they are at.
-/
theorem with_comdatCursors (s : Store) (comdatCursors : Arena .comdatCursor ComdatCursor) :
    ChangesOnly .comdatCursors s { s with comdatCursors } :=
  ⟨fun _ => rfl, fun _ => rfl, fun hne => absurd rfl hne, fun _ => rfl⟩

/-- Writing the named metadata alone is a change of it; the nodes that it lists are objects. -/
theorem with_namedMetadata (s : Store) (namedMetadata : Arena .namedMetadata NamedMetadata) :
    ChangesOnly .namedMetadata s { s with namedMetadata } :=
  ⟨fun _ => rfl, fun _ => rfl, fun _ => rfl, fun hne => absurd rfl hne⟩

/-- An operation that can fault has no effect when it does, so only the result of a success has to
be looked at. -/
theorem after {r : Except Fault Store} (h : ∀ t, r = .ok t → ChangesOnly part s t) :
    ChangesOnly part s (s.after r) := by
  cases r with
  | error e => exact .refl part s
  | ok t => exact h t rfl

end ChangesOnly

/-! ## Objects -/

/-- The arguments of a function are made one after the other, and each of them is a value and
nothing else. The induction is on how many are still to be made, with the index of the next one
free. -/
theorem changesOnly_addArguments (c : Ref .context) (count : Nat) (s : Store) (index : Nat) :
    ChangesOnly .objects s (s.addArguments c index count).2 := by
  induction count generalizing s index with
  | zero => exact .refl _ s
  | succ count ih =>
    -- one argument is made here, and the others from the store that has it
    have hvalue : ChangesOnly .objects s (s.addValue c "" (.argument (UInt32.ofNat index))).2 :=
      .of_eq rfl rfl rfl rfl
    exact hvalue.trans (ih _ _)

/-- A global variable is a value and an entry in a list of its module, both of them objects; where
the name is taken, nothing happens. -/
theorem changesOnly_addGlobalVariable (s : Store) (m : Ref .module) (name : String) :
    ChangesOnly .objects s (s.addGlobalVariable m name).2 := by
  unfold addGlobalVariable
  split <;> exact .of_eq rfl rfl rfl rfl

/-- A function comes with its arguments; the check of the name is made first, and both of its
outcomes leave what lies aside alone. -/
theorem changesOnly_addFunction (s : Store) (m : Ref .module) (name : String) (count : UInt32) :
    ChangesOnly .objects s (s.addFunction m name count).2 := by
  cases h : s.checkAddition m name with
  | error e =>
    simp only [addFunction, h]
    exact .refl _ s
  | ok x =>
    simp only [addFunction, h]
    -- the arguments come first, then the function that lists them
    exact .trans (changesOnly_addArguments x.context count.toNat s 0) (.of_eq rfl rfl rfl rfl)

/-- An alias is declined for what is no global before its name is looked at, and makes one value
otherwise. -/
theorem changesOnly_addGlobalAlias (s : Store) (m : Ref .module) (name : String)
    (aliasee : Ref .value) : ChangesOnly .objects s (s.addGlobalAlias m name aliasee).2 := by
  unfold addGlobalAlias
  split
  · exact .refl _ s
  · split <;> exact .of_eq rfl rfl rfl rfl

/-- A global variable that leaves its module stays a value, without a parent. -/
theorem changesOnly_removeGlobalVariable (s : Store) (m : Ref .module) (v : Ref .value) :
    ChangesOnly .objects s (s.removeGlobalVariable m v).2 := by
  unfold removeGlobalVariable
  split <;> exact .of_eq rfl rfl rfl rfl

/-- The same with a handle that may be null, dead, or name something that is in no module. -/
theorem changesOnly_unlinkVariable (s : Store) (v : Handle .value) :
    ChangesOnly .objects s (s.unlinkVariable v) := by
  unfold unlinkVariable
  split
  · split
    · exact changesOnly_removeGlobalVariable s _ _
    · exact .refl _ s
  · exact .refl _ s

/-- A wrapper is found or made; in either case only metadata can be new. -/
theorem changesOnly_valueAsMetadata (s : Store) (c : Ref .context) (v : Ref .value) :
    ChangesOnly .objects s (s.valueAsMetadata c v).2 := by
  unfold valueAsMetadata
  split <;> exact .of_eq rfl rfl rfl rfl

/-- For a constant this is the wrapper of the value, and for anything else there is nothing to do.
-/
theorem changesOnly_constantAsMetadata (s : Store) (v : Handle .value) :
    ChangesOnly .objects s (s.constantAsMetadata v).2 := by
  unfold constantAsMetadata
  split
  · split
    · exact changesOnly_valueAsMetadata s _ _
    · exact .refl _ s
  · exact .refl _ s

/-- A debug record is a count within the instruction. That the count can be full does not matter
here, since a fault changes nothing. -/
theorem changesOnly_attachDebugRecord {v : Ref .value} (ht : s.attachDebugRecord v = .ok t) :
    ChangesOnly .objects s t := by
  obtain rfl | ⟨x, before, after, -, -, rfl⟩ := attachDebugRecord_cases ht
  · exact .refl _ t
  · exact .of_eq rfl rfl rfl rfl

/-- However the store of an operand ends, one node changes at most (`setOperand_cases`), and nodes
are objects. -/
theorem changesOnly_setOperand {d : Handle .metadata} {index : UInt32} {target : Handle .metadata}
    (ht : s.setOperand d index target = .ok t) : ChangesOnly .objects s t := by
  obtain ⟨u, hu, hcases⟩ := s.setOperand_cases d index target
  -- the result that is given is the one that the operation has
  obtain rfl := Except.ok.inj (hu.symm.trans ht)
  obtain rfl | ⟨x, f, rfl⟩ := hcases
  · exact .refl _ _
  · exact .of_eq rfl rfl rfl rfl

/-- Releasing a value rewires its users, takes it off a list and takes it away: three changes of
objects. -/
theorem changesOnly_release (s : Store) (v : Ref .value) :
    ChangesOnly .objects s (s.release v) := by
  unfold release unlist
  split <;> exact .of_eq rfl rfl rfl rfl

/-! ## Comdats and named metadata -/

/-- A comdat is either given another selection or added at the end. -/
theorem changesOnly_putComdat (s : Store) (m : Ref .module) (name : String)
    (selection : SelectionKind) : ChangesOnly .comdats s (s.putComdat m name selection).2 := by
  unfold putComdat
  split <;> exact .with_comdats s _

/-- The guarded form declines a null module, a name that is no text and a number that is no
selection, and then puts the comdat. -/
theorem changesOnly_insertOrUpdateComdat (s : Store) (m : Handle .module) (name : Input)
    (kind : UInt32) : ChangesOnly .comdats s (s.insertOrUpdateComdat m name kind).2 := by
  unfold insertOrUpdateComdat
  split
  · exact changesOnly_putComdat s _ _ _
  · exact .refl _ s

/-- Only a comdat that belongs to the module is dropped; all other requests do nothing. -/
theorem changesOnly_dropComdat (s : Store) (m : Handle .module) (x : Handle .comdat) :
    ChangesOnly .comdats s (s.dropComdat m x) := by
  unfold dropComdat removeComdat
  split
  · split
    · exact .with_comdats s _
    · exact .refl _ s
  · exact .refl _ s

/-- Named metadata is found, or a new one without operands is added. -/
theorem changesOnly_getOrInsertNamedMetadata (s : Store) (m : Ref .module) (name : String) :
    ChangesOnly .namedMetadata s (s.getOrInsertNamedMetadata m name).2 := by
  unfold getOrInsertNamedMetadata
  split
  · exact .refl _ s
  · exact .with_namedMetadata s _

/-- Storing an operand changes one entry of one list. Past the end the guarded form does nothing,
so the fault of the unguarded one is out of reach. -/
theorem changesOnly_setNamedOperand {x : Handle .namedMetadata} {index : UInt32}
    {target : Handle .metadata} (ht : s.setNamedOperand x index target = .ok t) :
    ChangesOnly .namedMetadata s t := by
  unfold setNamedOperand at ht
  split at ht
  · rename_i m n d hn
    split at ht
    · rename_i hlt
      -- the guard of the operation is the bound of the list
      simp only [NamedMetadata.setOperand, if_pos hlt, Except.map, Except.ok.injEq] at ht
      exact ht ▸ .with_namedMetadata s _
    · cases ht
      exact .refl _ s
  · cases ht
    exact .refl _ s

/-- An operand is added to a list that is there; a null handle adds nothing. -/
theorem changesOnly_addNamedOperand (s : Store) (x : Handle .namedMetadata)
    (target : Handle .metadata) : ChangesOnly .namedMetadata s (s.addNamedOperand x target) := by
  unfold addNamedOperand
  split
  · exact .with_namedMetadata s _
  · exact .refl _ s

/-- Clearing empties one list and keeps the named metadata itself. -/
theorem changesOnly_clearNamedOperands (s : Store) (x : Handle .namedMetadata) :
    ChangesOnly .namedMetadata s (s.clearNamedOperands x) := by
  unfold clearNamedOperands
  split
  · exact .with_namedMetadata s _
  · exact .refl _ s

/-! ## All edits -/

/-- **An edit changes nothing that lies aside, but for its own part.** The cases are the edits;
those not spelled out write objects alone, and the store says so by definition. -/
theorem changesOnly_edit (c : Ref .context) (s : Store) (e : Edit) :
    ChangesOnly e.part s (s.edit c e) := by
  cases e with
  | constDataArray bits raw =>
    rcases s.edit_constDataArray_cases c bits raw with heq | ⟨data, heq⟩
    · rw [heq]
      exact .refl _ s
    · rw [heq]
      exact .of_eq rfl rfl rfl rfl
  | attachDebugRecord v => exact .after fun t => changesOnly_attachDebugRecord
  | createModuleNamed name =>
    simp only [edit, createModuleNamed]
    split <;> exact .of_eq rfl rfl rfl rfl
  | setModuleName m name =>
    simp only [edit, setModuleName]
    split <;> exact .of_eq rfl rfl rfl rfl
  | setModuleSource m name =>
    simp only [edit, setModuleSource]
    split <;> exact .of_eq rfl rfl rfl rfl
  | addGlobalVariable m name => exact changesOnly_addGlobalVariable s m name
  | addFunction m name count => exact changesOnly_addFunction s m name count
  | addGlobalAlias m name aliasee => exact changesOnly_addGlobalAlias s m name aliasee
  | removeGlobalVariable m v => exact changesOnly_removeGlobalVariable s m v
  | unlinkVariable v => exact changesOnly_unlinkVariable s v
  | mdString text =>
    simp only [edit, mdString]
    split <;> exact .of_eq rfl rfl rfl rfl
  | valueAsMetadata v => exact changesOnly_valueAsMetadata s c v
  | constantAsMetadata v => exact changesOnly_constantAsMetadata s v
  | setOperand d index target => exact .after fun t => changesOnly_setOperand
  -- an attribute that fails its check is not made
  | createAttribute a =>
    cases ha : a.make with
    | error f => simp [edit, createAttribute, ha, Except.map, Store.after, ChangesOnly.refl]
    | ok b =>
      simp only [edit, createAttribute, ha, Except.map, Store.after]
      exact .with_attributes s _
  | insertOrUpdateComdat m name kind => exact changesOnly_insertOrUpdateComdat s m name kind
  | dropComdat m x => exact changesOnly_dropComdat s m x
  -- the null handle is declined by each of the operations that follow
  | dropAllComdats m =>
    cases m with
    | none => exact .refl _ s
    | some m => exact .with_comdats s _
  | beginComdats m =>
    cases m with
    | none => exact .refl _ s
    | some m => exact .with_comdatCursors s _
  | moveComdatCursor k =>
    cases k with
    | none => exact .refl _ s
    | some k => exact .with_comdatCursors s _
  | resetComdatCursor k =>
    cases k with
    | none => exact .refl _ s
    | some k => exact .with_comdatCursors s _
  | disposeComdatCursor k =>
    cases k with
    | none => exact .refl _ s
    | some k => exact .with_comdatCursors s _
  | getOrInsertNamedMetadata m name => exact changesOnly_getOrInsertNamedMetadata s m name
  | setNamedOperand x index target => exact .after fun t => changesOnly_setNamedOperand
  | addNamedOperand x target => exact changesOnly_addNamedOperand s x target
  | clearNamedOperands x => exact changesOnly_clearNamedOperands s x
  | eraseNamedMetadata x =>
    cases x with
    | none => exact .refl _ s
    | some x => exact .with_namedMetadata s _
  | _ => exact .of_eq rfl rfl rfl rfl

end Store

end ForeignHandles
