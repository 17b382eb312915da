import ForeignHandles.Proofs.Store.Nodes
import ForeignHandles.Store.Attributes
import ForeignHandles.Store.Comdats
import ForeignHandles.Store.Metadata
import ForeignHandles.Store.Modules
import ForeignHandles.Store.NamedMetadata

/-!
  Operations on the objects of one context that announce nothing, and what they do to the links
  among the objects.

  Values, modules and metadata refer to each other in three ways: a value has a parent module and a
  module lists its globals; an alias stands for a value; a wrapper has a value.  Nearly everything
  else about an object (its name, its text, its operands) is of no concern to these links.

  1. **What is linked.**  `Value.links` and `Module.links` are what an object is to the others, and
     a `User` of a value is an alias or a wrapper; `Store.target?` reads whom it uses.

  2. **Which operations there are.**  `Edit` has a constructor for each, `Store.edit` performs it,
     and `Store.uses` says which alias or wrapper it makes, and of which value.  A fault leaves the
     store as it is.

  3. **What they can do** (`change_edit`).  An edit only ever makes free objects (`Grows`), links a
     new global into a module, unlinks a variable, makes an empty module, or makes a wrapper.
     Later proofs go through these five ways (`Change`) and not through the thirty-odd operations.
-/
namespace ForeignHandles

/-! ## Links

Two objects with the same links are interchangeable for everything that the development says about
uses, ownership and notices. Equality of links is therefore what the operations below are compared
by: a name, a text or an operand may change under it. -/

/-- Whom an alias stands for: a value, or nothing any more.  Other values are no aliases. -/
def Value.target? (x : Value) : Option (Handle .value) :=
  match x.body with
  | .globalAlias target => some target
  | _ => none

/-- Whom a wrapper has: a value, or nothing any more.  Other metadata is no wrapper. -/
def Metadata.target? (x : Metadata) : Option (Handle .value) :=
  match x.body with
  | .value target _ => some target
  | _ => none

/-- The list of a module that values of a sort are on; only globals are listed. -/
def Module.listOf (x : Module) : ValueKind → List (Ref .value)
  | .globalVariable => x.globalVariables
  | .globalAlias => x.aliases
  | .function => x.functions
  | _ => []

/-- What a value is to the objects around it. -/
structure Value.Links where
  context : Ref .context
  kind : ValueKind
  parent : Handle .module
  target? : Option (Handle .value)

/-- Everything about a value that other objects depend on. -/
def Value.links (x : Value) : Value.Links := ⟨x.context, x.kind, x.parent, x.target?⟩

/-- What a module is to the objects around it. -/
structure Module.Links where
  context : Ref .context
  listOf : ValueKind → List (Ref .value)

/-- Everything about a module that its values depend on. -/
def Module.links (x : Module) : Module.Links := ⟨x.context, x.listOf⟩

/-- Who can use a value. -/
inductive User where
  | globalAlias (value : Ref .value)
  | wrapper (metadata : Ref .metadata)
  deriving DecidableEq

/-- The links of two values agree if all four parts do, -/
theorem Value.links_eq_iff {x y : Value} : x.links = y.links ↔
    x.context = y.context ∧ x.kind = y.kind ∧ x.parent = y.parent ∧ x.target? = y.target? := by
  simp [links]

/-- and those of two modules if both parts do. -/
theorem Module.links_eq_iff {x y : Module} : x.links = y.links ↔
    x.context = y.context ∧ x.listOf = y.listOf := by
  simp [links]

/-- Only an alias stands for something. -/
theorem Value.target?_eq_none {x : Value} (h : x.kind ≠ .globalAlias) : x.target? = none := by
  cases hb : x.body <;> simp_all [target?, kind, ValueBody.kind]

/-- A value is linked into a module if it is on the list of some sort, -/
theorem Module.mem_linked_iff {x : Module} {v : Ref .value} :
    v ∈ x.linked ↔ ∃ k, v ∈ x.listOf k := by
  constructor
  · intro h
    simp only [linked, List.mem_append] at h
    rcases h with (h | h) | h
    · exact ⟨.globalVariable, h⟩
    · exact ⟨.globalAlias, h⟩
    · exact ⟨.function, h⟩
  · rintro ⟨k, hk⟩
    cases k <;> simp_all [listOf, linked]

/-- and the order in which a module gives its values up does not matter for that. -/
theorem Module.mem_owned_iff {x : Module} {v : Ref .value} : v ∈ x.owned ↔ v ∈ x.linked := by
  simp only [owned, linked, List.mem_append]
  rw [or_comm (a := v ∈ x.aliases)]

namespace Store

/-- The value that a user refers to; none if it is no alias or wrapper that is there. -/
def target? (s : Store) : User → Option (Handle .value)
  | .globalAlias v => (s.values.get? v).bind Value.target?
  | .wrapper d => (s.metadata.get? d).bind Metadata.target?

end Store

/-! ## Edits

Operations that announce something are not among the edits; they are steps of the host, and are
treated where notices are. An edit is given the context it is called in, for many of them make
objects there. -/

/-- An operation on the objects of a context that announces nothing. -/
inductive Edit where
  -- contexts, constants and instructions
  | setOdrUniquing (on : Bool)
  | constInt (bits : UInt32) (value : UInt64)
  | constNull
  | constDataArray (bits : UInt32) (raw : List UInt8)
  | constString (text : List UInt8) (terminated : Bool)
  | createInstruction (name : String)
  | setValueName (value : Ref .value) (name : String)
  | attachDebugRecord (value : Ref .value)
  -- modules and their globals
  | createModule (name : String)
  | createModuleNamed (name : Input)
  | setModuleName (module : Handle .module) (name : Input)
  | setModuleSource (module : Handle .module) (name : Input)
  | addGlobalVariable (module : Ref .module) (name : String)
  | addFunction (module : Ref .module) (name : String) (argumentCount : UInt32)
  | addGlobalAlias (module : Ref .module) (name : String) (aliasee : Ref .value)
  | removeGlobalVariable (module : Ref .module) (value : Ref .value)
  | unlinkVariable (value : Handle .value)
  -- metadata
  | mdString (text : String)
  | mdNode (storage : NodeStorage) (operands : List (Handle .metadata))
  | valueAsMetadata (value : Ref .value)
  | constantAsMetadata (value : Handle .value)
  | makeUniqued (metadata : Ref .metadata)
  | setOperand (metadata : Handle .metadata) (index : UInt32) (target : Handle .metadata)
  -- attributes and comdats
  | createAttribute (a : Attribute)
  | insertOrUpdateComdat (module : Handle .module) (name : Input) (kind : UInt32)
  | dropComdat (module : Handle .module) (comdat : Handle .comdat)
  | dropAllComdats (module : Handle .module)
  | beginComdats (module : Handle .module)
  | moveComdatCursor (cursor : Handle .comdatCursor)
  | resetComdatCursor (cursor : Handle .comdatCursor)
  | disposeComdatCursor (cursor : Handle .comdatCursor)
  -- named metadata
  | getOrInsertNamedMetadata (module : Ref .module) (name : String)
  | setNamedOperand (list : Handle .namedMetadata) (index : UInt32) (target : Handle .metadata)
  | addNamedOperand (list : Handle .namedMetadata) (target : Handle .metadata)
  | clearNamedOperands (list : Handle .namedMetadata)
  | eraseNamedMetadata (list : Handle .namedMetadata)

/-- The module that an edit adds a global to, if it is not declined. -/
def Edit.addsTo? : Edit → Handle .module
  | .addGlobalVariable m _ | .addFunction m _ _ | .addGlobalAlias m _ _ => some m
  | _ => none

/-- Whether an edit leaves values, modules and metadata alone. -/
def Edit.isAside : Edit → Bool
  | .setOdrUniquing _ | .createAttribute _
  | .insertOrUpdateComdat _ _ _ | .dropComdat _ _ | .dropAllComdats _
  | .beginComdats _ | .moveComdatCursor _ | .resetComdatCursor _ | .disposeComdatCursor _
  | .getOrInsertNamedMetadata _ _ | .setNamedOperand _ _ _ | .addNamedOperand _ _
  | .clearNamedOperands _ | .eraseNamedMetadata _ => true
  | _ => false

/-- Whether an edit leaves values alone. -/
def Edit.sparesValues : Edit → Bool
  | .createModule _ | .createModuleNamed _ | .setModuleName _ _ | .setModuleSource _ _
  | .mdString _ | .mdNode _ _ | .valueAsMetadata _ | .constantAsMetadata _ | .makeUniqued _
  | .setOperand _ _ _ => true
  | e => e.isAside

namespace Store

/-- The store after an operation that may fault; a fault leaves it as it is. -/
def after (s : Store) : Except Fault Store → Store
  | .ok s' => s'
  | .error _ => s

/-- Performs an edit in a context. -/
def edit (s : Store) (c : Ref .context) : Edit → Store
  | .setOdrUniquing on => s.setOdrUniquing (some c) on
  | .constInt bits value => (s.constInt c bits value).2
  | .constNull => (s.constNull c).2
  | .constDataArray bits raw => s.after ((s.constDataArray c bits raw).map (·.2))
  | .constString text terminated => (s.constString c text terminated).2
  | .createInstruction name => (s.createInstruction c name).2
  | .setValueName v name => s.setValueName v name
  | .attachDebugRecord v => s.after (s.attachDebugRecord v)
  | .createModule name => (s.createModule c name).2
  | .createModuleNamed name => (s.createModuleNamed (some c) name).2
  | .setModuleName m name => s.setModuleName m name
  | .setModuleSource m name => s.setModuleSource m name
  | .addGlobalVariable m name => (s.addGlobalVariable m name).2
  | .addFunction m name argumentCount => (s.addFunction m name argumentCount).2
  | .addGlobalAlias m name aliasee => (s.addGlobalAlias m name aliasee).2
  | .removeGlobalVariable m v => (s.removeGlobalVariable m v).2
  | .unlinkVariable v => s.unlinkVariable v
  | .mdString text => (s.mdString c text).2
  | .mdNode storage operands => (s.mdNode c storage operands).2
  | .valueAsMetadata v => (s.valueAsMetadata c v).2
  | .constantAsMetadata v => (s.constantAsMetadata v).2
  | .makeUniqued d => (s.makeUniqued d).2
  | .setOperand d index target => s.after (s.setOperand d index target)
  | .createAttribute a => s.after ((s.createAttribute c a).map (·.2))
  | .insertOrUpdateComdat m name kind => (s.insertOrUpdateComdat m name kind).2
  | .dropComdat m x => s.dropComdat m x
  | .dropAllComdats m => s.dropAllComdats m
  | .beginComdats m => (s.beginComdats m).2
  | .moveComdatCursor k => (s.moveComdatCursor k).2
  | .resetComdatCursor k => s.resetComdatCursor k
  | .disposeComdatCursor k => s.disposeComdatCursor k
  | .getOrInsertNamedMetadata m name => (s.getOrInsertNamedMetadata m name).2
  | .setNamedOperand x index target => s.after (s.setNamedOperand x index target)
  | .addNamedOperand x target => s.addNamedOperand x target
  | .clearNamedOperands x => s.clearNamedOperands x
  | .eraseNamedMetadata x => s.eraseNamedMetadata x

/-- A wrapper that was asked for is a new user of the value unless it was there before. -/
def newWrapper (s : Store) (d : Ref .metadata) (v : Ref .value) : List (User × Ref .value) :=
  if s.metadata.contains d then [] else [(.wrapper d, v)]

/-- The user that an edit makes, with the value that it is made for. -/
def uses (s : Store) (c : Ref .context) : Edit → List (User × Ref .value)
  | .addGlobalAlias m name aliasee =>
    match (s.addGlobalAlias m name aliasee).1 with
    | .ok v => [(.globalAlias v, aliasee)]
    | .error _ => []
  | .valueAsMetadata v => s.newWrapper (s.valueAsMetadata c v).1 v
  | .constantAsMetadata h =>
    match h, (s.constantAsMetadata h).1 with
    | some v, some d => s.newWrapper d v
    | _, _ => []
  | _ => []

/-! ## The ways in which an edit changes the links

`Change` is the interface between the operations and the invariants. It has five constructors, and
an invariant of the links takes five short arguments where the operations would take forty; an
operation that is added to the program needs one line in `change_edit` if it does one of the
five. -/

/-- Only free objects are added: values without a parent that are no globals, metadata other than
wrappers. Whatever was linked stays linked as it was, and no module is made. The bounds on
references say that what is new was never there before. -/
structure Grows (c : Ref .context) (s s' : Store) : Prop where
  /-- Values may change in place, but not in their links. -/
  kept : ∀ {v x}, s.values.get? v = some x → ∃ x', s'.values.get? v = some x' ∧ x'.links = x.links
  /-- What is new is free, and its reference is beyond all that there were. -/
  fresh : ∀ {v x'}, s'.values.get? v = some x' → s.values.get? v = none →
    s.values.next ≤ v.index ∧ x'.context = c ∧ x'.parent = none ∧ x'.isGlobal = false
  next : s.values.next ≤ s'.values.next
  nextMetadata : s.metadata.next ≤ s'.metadata.next
  nextModule : s'.modules.next = s.modules.next
  /-- No module is made, and none gets or loses a global. -/
  modules : ∀ m, (s'.modules.get? m).map Module.links = (s.modules.get? m).map Module.links
  /-- Nor is there a new wrapper, or one that has another value now. -/
  wrappers : ∀ d, s'.target? (.wrapper d) = s.target? (.wrapper d)

/-- `list v` puts `v` at the end of the list of one sort and leaves the rest of the module alone.
The three functions that the host uses for this are shown to do so below. -/
structure Extends (kind : ValueKind) (list : Ref .value → Module → Module) : Prop where
  context : ∀ v x, (list v x).context = x.context
  listOf : ∀ v x k, (list v x).listOf k = if k = kind then x.listOf k ++ [v] else x.listOf k

/-- What a new global uses: an alias of a global that is there uses it, others use nothing. -/
inductive Introduces (s : Store) (v : Ref .value) : ValueBody → List (User × Ref .value) → Prop
  /-- The aliasee of an alias was there before the alias. -/
  | globalAlias {a : Ref .value} {x : Value} (h : s.values.get? a = some x)
    (hglobal : x.isGlobal = true) :
    Introduces s v (.globalAlias (some a)) [(.globalAlias v, a)]
  /-- Variables and functions stand for nothing. -/
  | other {body : ValueBody} (h : body.kind.isGlobal = true) (hkind : body.kind ≠ .globalAlias) :
    Introduces s v body []

/-- Every way in which an edit can change the links, with the users that it makes. `home` is the
module that it may add a global to. -/
inductive Change (c : Ref .context) (s : Store) (home : Handle .module) :
    List (User × Ref .value) → Store → Prop
  /-- Most edits: links stay, and what is new has none. -/
  | grow {s' : Store} (h : Grows c s s') : Change c s home [] s'
  /-- A new global, the last on its list.  The arguments of a function are made before it. -/
  | link {t : Store} {m : Ref .module} {x : Module} {name : String} {body : ValueBody}
    {list : Ref .value → Module → Module} {users : List (User × Ref .value)}
    (hhome : home = some m) (hgrow : Grows c s t) (hm : t.modules.get? m = some x)
    (hlist : Extends body.kind list)
    (husers : Introduces t (t.adopt m x.context name body list).1 body users) :
    Change c s home users (t.adopt m x.context name body list).2
  /-- A variable loses its place on the list, and its parent. -/
  | unlink {m : Ref .module} {x : Module} {v : Ref .value} (hm : s.modules.get? m = some x)
    (hv : v ∈ x.globalVariables) : Change c s home [] (s.removeGlobalVariable m v).2
  /-- A new module has nothing on its lists. -/
  | found (name : String) : Change c s home [] (s.createModule c name).2
  /-- A new wrapper uses its value, whether or not that is there. -/
  | wrap (context : Ref .context) (v : Ref .value) (isLocal : Bool) :
    Change c s home [(.wrapper (s.addMetadata context (.value (some v) isLocal)).1, v)]
      (s.addMetadata context (.value (some v) isLocal)).2

variable {c : Ref .context} {s t u : Store}

namespace Grows

/-- Doing nothing adds nothing, -/
theorem refl (c : Ref .context) (s : Store) : Grows c s s where
  kept h := ⟨_, h, rfl⟩
  fresh h hnone := by simp [h] at hnone
  next := Nat.le_refl _
  nextMetadata := Nat.le_refl _
  nextModule := rfl
  modules _ := rfl
  wrappers _ := rfl

/-- and what two operations in a row add is added by both together. -/
theorem trans (h : Grows c s t) (h' : Grows c t u) : Grows c s u where
  kept hv := by
    obtain ⟨y, hy, hlinks⟩ := h.kept hv
    -- a value that is kept twice is kept
    obtain ⟨z, hz, hlinks'⟩ := h'.kept hy
    exact ⟨z, hz, hlinks'.trans hlinks⟩
  fresh {v z} hz hnone := by
    -- the value came with the first step or with the second
    cases hy : t.values.get? v with
    | none =>
      obtain ⟨hle, hfree⟩ := h'.fresh hz hy
      exact ⟨Nat.le_trans h.next hle, hfree⟩
    | some y =>
      obtain ⟨hle, hcontext, hparent, hglobal⟩ := h.fresh hy hnone
      -- what the first step has made free, the second leaves so
      obtain ⟨z', hz', hlinks⟩ := h'.kept hy
      rw [hz] at hz'
      cases hz'
      obtain ⟨hc, hk, hp, -⟩ := Value.links_eq_iff.1 hlinks
      refine ⟨hle, hc.trans hcontext, hp.trans hparent, ?_⟩
      rw [Value.isGlobal, hk]
      exact hglobal
  next := Nat.le_trans h.next h'.next
  nextMetadata := Nat.le_trans h.nextMetadata h'.nextMetadata
  nextModule := h'.nextModule.trans h.nextModule
  modules m := (h'.modules m).trans (h.modules m)
  wrappers d := (h'.wrappers d).trans (h.wrappers d)

/-- Values, modules and metadata are all that matters. -/
theorem of_eq (hvalues : t.values = s.values) (hmodules : t.modules = s.modules)
    (hmetadata : t.metadata = s.metadata) : Grows c s t where
  kept h := ⟨_, hvalues ▸ h, rfl⟩
  fresh h hnone := by
    rw [hvalues, hnone] at h
    cases h
  next := Nat.le_of_eq (by rw [hvalues])
  nextMetadata := Nat.le_of_eq (by rw [hmetadata])
  nextModule := by rw [hmodules]
  modules m := by rw [hmodules]
  wrappers d := by rw [target?, target?, hmetadata]

/-- Values may change in place if their links stay. -/
theorem of_modify_value {v : Ref .value} {f : Value → Value}
    (hf : ∀ x, s.values.get? v = some x → (f x).links = x.links) :
    Grows c s { s with values := s.values.modify v f } where
  kept {w x} h := by
    by_cases hw : w = v
    · subst hw
      exact ⟨f x, by simp [Arena.get?_modify, h], hf x h⟩
    · exact ⟨x, by simp [Arena.get?_modify, hw, h], rfl⟩
  fresh {w x'} h hnone := by
    simp only [Arena.get?_modify, hnone, Option.map_none, ite_self] at h
    cases h
  next := Nat.le_refl _
  nextMetadata := Nat.le_refl _
  nextModule := rfl
  modules _ := rfl
  wrappers _ := rfl

/-- Modules may change in place if their lists stay. -/
theorem of_modify_module {m : Ref .module} {f : Module → Module}
    (hf : ∀ x, (f x).links = x.links) :
    Grows c s { s with modules := s.modules.modify m f } where
  kept h := ⟨_, h, rfl⟩
  fresh h hnone := by simp [h] at hnone
  next := Nat.le_refl _
  nextMetadata := Nat.le_refl _
  nextModule := rfl
  modules n := by
    simp only [Arena.get?_modify]
    split
    · cases s.modules.get? n <;> simp [hf]
    · rfl
  wrappers _ := rfl

/-- Metadata may change in place if it has the same value afterwards. -/
theorem of_modify_metadata {d : Ref .metadata} {f : Metadata → Metadata}
    (hf : ∀ x, (f x).target? = x.target?) :
    Grows c s { s with metadata := s.metadata.modify d f } where
  kept h := ⟨_, h, rfl⟩
  fresh h hnone := by simp [h] at hnone
  next := Nat.le_refl _
  nextMetadata := Nat.le_refl _
  nextModule := rfl
  modules _ := rfl
  wrappers e := by
    simp only [target?, Arena.get?_modify]
    split
    · cases s.metadata.get? e <;> simp [hf]
    · rfl

/-- New metadata is free unless it is a wrapper, -/
theorem of_addMetadata {context : Ref .context} {body : MetadataBody}
    (hbody : Metadata.target? ⟨context, body⟩ = none) :
    Grows c s (s.addMetadata context body).2 where
  kept h := ⟨_, h, rfl⟩
  fresh {v x'} h hnone := by
    have h' : s.values.get? v = some x' := h
    simp [h'] at hnone
  next := Nat.le_refl _
  nextMetadata := Nat.le_succ _
  nextModule := rfl
  modules _ := rfl
  wrappers d := by
    simp only [target?, addMetadata, Arena.get?_alloc]
    split
    · -- the new object is no wrapper, and there was nothing under its reference
      rename_i hd
      have hnone : s.metadata.get? d = none := by
        rw [hd]
        exact s.metadata.get?_eq_none_of_next_le (Nat.le_refl _)
      simp [hnone, hbody]
    · rfl

/-- and a new value is free unless it is a global. -/
theorem of_addValue {name : String} {body : ValueBody} (hbody : body.kind.isGlobal = false) :
    Grows c s (s.addValue c name body).2 where
  kept {v x} h := by
    refine ⟨x, ?_, rfl⟩
    -- nothing was there under the new reference
    have hold : v ≠ (s.values.alloc { context := c, name, body }).1 := by
      rintro rfl
      rw [s.values.get?_eq_none_of_next_le (Nat.le_refl _)] at h
      cases h
    simp only [addValue, Arena.get?_alloc, if_neg hold, h]
  fresh {v x'} h hnone := by
    simp only [addValue, Arena.get?_alloc] at h
    split at h
    · rename_i hv
      cases h
      exact ⟨by rw [hv]; exact Nat.le_refl _, rfl, rfl, hbody⟩
    · rw [hnone] at h
      cases h
  next := Nat.le_succ _
  nextMetadata := Nat.le_refl _
  nextModule := rfl
  modules _ := rfl
  wrappers _ := rfl

/-- Arguments are made one by one, each of them free. -/
theorem of_addArguments (c : Ref .context) (count : Nat) (s : Store) (index : Nat) :
    Grows c s (s.addArguments c index count).2 := by
  induction count generalizing s index with
  -- no arguments left to make
  | zero => exact refl c s
  | succ count ih => exact (of_addValue rfl).trans (ih _ _)

/-- An operation that may fault adds only free objects if it does so whenever it comes back. -/
theorem after {r : Except Fault Store} (h : ∀ t, r = .ok t → Grows c s t) :
    Grows c s (s.after r) := by
  cases r with
  | error e => exact refl c s
  | ok t => exact h t rfl

end Grows

/-! ## Every edit changes the links in one of the ways

First the edits that only make free objects or change something in place, then those that do not
touch values, modules or metadata at all, and then the edits that link, unlink or wrap.
`change_edit` puts them together, one case for each constructor. -/

/-- Bytes that are accepted add one value with their data, and others add none. -/
theorem edit_constDataArray_cases (s : Store) (c : Ref .context) (bits : UInt32)
    (raw : List UInt8) : s.edit c (.constDataArray bits raw) = s ∨
      ∃ data, s.edit c (.constDataArray bits raw) = (s.addValue c "" (.constantData data)).2 := by
  rw [edit, constDataArray]
  cases DataSequence.ofRaw bits raw with
  | error f => exact .inl rfl
  | ok data => exact .inr ⟨data, rfl⟩

/-- Data is a free value, if the bytes are accepted. -/
theorem grows_constDataArray (c : Ref .context) (s : Store) (bits : UInt32) (raw : List UInt8) :
    Grows c s (s.edit c (.constDataArray bits raw)) := by
  rcases s.edit_constDataArray_cases c bits raw with heq | ⟨data, heq⟩
  · rw [heq]
    exact .refl c s
  · rw [heq]
    exact .of_addValue rfl

/-- A debug record changes an instruction in place. Nothing is linked to the count. -/
theorem grows_attachDebugRecord (c : Ref .context) (s : Store) (v : Ref .value) :
    Grows c s (s.after (s.attachDebugRecord v)) := by
  refine .after fun t ht => ?_
  -- what is no instruction is left as it is
  obtain rfl | ⟨x, before, more, hv, hb, rfl⟩ := attachDebugRecord_cases ht
  · exact .refl c t
  · -- an instruction stays one, only its count changes
    refine .of_modify_value fun y hy => ?_
    obtain rfl : y = x := by simpa [hv] using hy.symm
    -- neither is an alias, before or after
    simp [Value.links, Value.kind, Value.target?, hb, ValueBody.kind]

/-- A string is found, or it is new metadata. -/
theorem grows_mdString (c context : Ref .context) (s : Store) (text : String) :
    Grows c s (s.mdString context text).2 := by
  unfold mdString
  split
  · exact .refl c s
  · exact .of_addMetadata rfl

/-- A node is no wrapper, before and after a change to it. -/
theorem target?_mapNode (f : Node → Node) (x : Metadata) :
    (x.mapNode f).target? = x.target? := by
  cases hb : x.body <;> simp [Metadata.mapNode, Metadata.target?, hb]

/-- Setting an operand of a node changes a node in place, whether or not the node has to be
uniqued again. -/
theorem grows_setOperand (c : Ref .context) (s : Store) (d : Handle .metadata) (index : UInt32)
    (target : Handle .metadata) : Grows c s (s.after (s.setOperand d index target)) := by
  -- an operand past the end faults, which leaves the store alone
  obtain ⟨t, ht, rfl | ⟨x, f, rfl⟩⟩ := s.setOperand_cases d index target
  · rw [ht]
    exact .refl c t
  · rw [ht]
    exact .of_modify_metadata (target?_mapNode f)

/-- The edits that lie aside are checked one by one: each writes a part of the store of its own. -/
theorem edit_of_aside (c : Ref .context) (s : Store) {e : Edit} (h : e.isAside = true) :
    (s.edit c e).values = s.values ∧ (s.edit c e).modules = s.modules ∧
      (s.edit c e).metadata = s.metadata := by
  cases e with
  | setOdrUniquing on => exact ⟨rfl, rfl, rfl⟩
  | createAttribute a =>
    -- an attribute that faults is not kept
    cases ha : a.make <;> simp [edit, createAttribute, ha, Except.map, after]
  | insertOrUpdateComdat m name kind =>
    simp only [edit, insertOrUpdateComdat, putComdat]
    split
    · split <;> exact ⟨rfl, rfl, rfl⟩
    · exact ⟨rfl, rfl, rfl⟩
  | dropComdat m x =>
    simp only [edit, dropComdat, removeComdat]
    split
    · split <;> exact ⟨rfl, rfl, rfl⟩
    · exact ⟨rfl, rfl, rfl⟩
  | dropAllComdats m => cases m <;> exact ⟨rfl, rfl, rfl⟩
  | beginComdats m => cases m <;> exact ⟨rfl, rfl, rfl⟩
  | moveComdatCursor k => cases k <;> exact ⟨rfl, rfl, rfl⟩
  | resetComdatCursor k => cases k <;> exact ⟨rfl, rfl, rfl⟩
  | disposeComdatCursor k => cases k <;> exact ⟨rfl, rfl, rfl⟩
  | getOrInsertNamedMetadata m name =>
    simp only [edit, getOrInsertNamedMetadata]
    split <;> exact ⟨rfl, rfl, rfl⟩
  | setNamedOperand x index target =>
    simp only [edit, setNamedOperand]
    split
    · split
      · rename_i n t _ _
        -- a list of named metadata is written back, or the operand is out of range
        cases hn : n.setOperand index.toNat t <;>
          simp [Except.map, after, putNamed]
      · exact ⟨rfl, rfl, rfl⟩
    · exact ⟨rfl, rfl, rfl⟩
  | addNamedOperand x target =>
    simp only [edit, addNamedOperand]
    split <;> exact ⟨rfl, rfl, rfl⟩
  | clearNamedOperands x =>
    simp only [edit, clearNamedOperands]
    split <;> exact ⟨rfl, rfl, rfl⟩
  | eraseNamedMetadata x => cases x <;> exact ⟨rfl, rfl, rfl⟩
  | _ => cases h

/-- Modules and metadata are made and changed without a write to a value. -/
theorem values_edit (c : Ref .context) (s : Store) {e : Edit} (h : e.sparesValues = true) :
    (s.edit c e).values = s.values := by
  cases e with
  | createModule name => rfl
  | createModuleNamed name =>
    simp only [edit, createModuleNamed]
    split <;> rfl
  | setModuleName m name =>
    simp only [edit, setModuleName]
    split <;> rfl
  | setModuleSource m name =>
    simp only [edit, setModuleSource]
    split <;> rfl
  | mdString text =>
    simp only [edit, mdString]
    split <;> rfl
  | mdNode storage operands => rfl
  | valueAsMetadata v =>
    simp only [edit, valueAsMetadata]
    split <;> rfl
  | constantAsMetadata v =>
    simp only [edit, constantAsMetadata, valueAsMetadata]
    split
    · split
      · split <;> rfl
      · rfl
    · rfl
  | makeUniqued d => rfl
  | setOperand d index target =>
    obtain ⟨t, ht, rfl | ⟨x, f, rfl⟩⟩ := s.setOperand_cases d index target
    · simp only [edit, ht, after]
    · simp only [edit, ht, after]
      rfl
  | _ =>
    -- what is left lies aside, or it is no case at all
    first
      | exact (edit_of_aside c s rfl).1
      | cases h

/-- Contexts, attributes, comdats and named metadata have no part in the links, so the edits that
write only those add nothing. -/
theorem grows_of_aside (c : Ref .context) (s : Store) {e : Edit} (h : e.isAside = true) :
    Grows c s (s.edit c e) := by
  obtain ⟨hvalues, hmodules, hmetadata⟩ := edit_of_aside c s h
  exact .of_eq hvalues hmodules hmetadata

/-- Only a module that is there gets a new global. -/
theorem get?_of_checkAddition {m : Ref .module} {name : String} {x : Module}
    (h : s.checkAddition m name = .ok x) : s.modules.get? m = some x := by
  unfold checkAddition at h
  split at h
  · cases h
  · rename_i y hy
    -- the name is looked at after the module has been found
    cases hu : s.ensureUnique y name <;> simp [hu, Except.map] at h
    exact h ▸ hy

/-- Each sort of globals has a list, and adding to it leaves the other two as they are. -/
theorem extends_globalVariables : Extends .globalVariable
    (fun v y => { y with globalVariables := y.globalVariables ++ [v] }) :=
  ⟨fun _ _ => rfl, fun _ _ k => by cases k <;> rfl⟩

/-- The same for aliases, -/
theorem extends_aliases : Extends .globalAlias
    (fun v y => { y with aliases := y.aliases ++ [v] }) :=
  ⟨fun _ _ => rfl, fun _ _ k => by cases k <;> rfl⟩

/-- and for functions. -/
theorem extends_functions : Extends .function
    (fun v y => { y with functions := y.functions ++ [v] }) :=
  ⟨fun _ _ => rfl, fun _ _ k => by cases k <;> rfl⟩

/-- A new global variable uses nothing. -/
theorem change_addGlobalVariable (c : Ref .context) (s : Store) (m : Ref .module) (name : String) :
    Change c s (some m) [] (s.addGlobalVariable m name).2 := by
  cases h : s.checkAddition m name with
  | error e =>
    simp only [addGlobalVariable, h]
    exact .grow (.refl c s)
  | ok x =>
    simp only [addGlobalVariable, h]
    exact .link rfl (.refl c s) (get?_of_checkAddition h) extends_globalVariables
      (.other rfl (by simp [ValueBody.kind]))

/-- A function is linked after its arguments are made. They are free values, and they belong to
the context of the module, which is why that has to be the context of the edit. -/
theorem change_addFunction (m : Ref .module) (name : String) (argumentCount : UInt32)
    (hcontext : ∀ x, s.modules.get? m = some x → x.context = c) :
    Change c s (some m) [] (s.addFunction m name argumentCount).2 := by
  -- a name that is taken, or a module that is gone, declines all three additions alike
  cases h : s.checkAddition m name with
  | error e =>
    simp only [addFunction, h]
    exact .grow (.refl c s)
  | ok x =>
    have hm := get?_of_checkAddition h
    have hgrow : Grows c s (s.addArguments x.context 0 argumentCount.toNat).2 :=
      hcontext x hm ▸ .of_addArguments x.context _ s 0
    -- the module is the one from before, for arguments are made outside modules
    have hmodules : ∀ index s', (addArguments s' x.context index argumentCount.toNat).2.modules =
        s'.modules := by
      induction argumentCount.toNat with
      | zero => exact fun _ _ => rfl
      | succ count ih => exact fun index s' => ih (index + 1) _
    simp only [addFunction, h]
    refine .link rfl hgrow ?_ extends_functions (.other rfl (by simp [ValueBody.kind]))
    rw [hmodules]
    exact hm

/-- A new alias uses its aliasee, which is a global that is there. If it is declined for any of
the three reasons, nothing happens and there is no user. -/
theorem change_addGlobalAlias (c : Ref .context) (s : Store) (m : Ref .module) (name : String)
    (aliasee : Ref .value) :
    Change c s (some m) (s.uses c (.addGlobalAlias m name aliasee))
      (s.addGlobalAlias m name aliasee).2 := by
  cases ha : s.values.get? aliasee with
  | none =>
    simp only [uses, addGlobalAlias, ha]
    exact .grow (.refl c s)
  | some y =>
    cases hglobal : y.isGlobal with
    | false =>
      -- what is no global cannot be aliased
      simp only [uses, addGlobalAlias, ha, Option.any_some, hglobal]
      exact .grow (.refl c s)
    | true =>
      cases h : s.checkAddition m name with
      | error e =>
        simp only [uses, addGlobalAlias, ha, Option.any_some, hglobal, h]
        exact .grow (.refl c s)
      | ok x =>
        simp only [uses, addGlobalAlias, ha, Option.any_some, hglobal, Bool.not_true,
          Bool.false_eq_true, if_false, h]
        exact .link rfl (.refl c s) (get?_of_checkAddition h) extends_aliases
          (.globalAlias ha hglobal)

/-- Removing a variable unlinks it if it is on the list of the module, -/
theorem change_removeGlobalVariable (c : Ref .context) (s : Store) (m : Ref .module)
    (v : Ref .value) : Change c s none [] (s.removeGlobalVariable m v).2 := by
  cases h : s.modules.get? m with
  | none =>
    simp only [removeGlobalVariable, h]
    exact .grow (.refl c s)
  | some x =>
    by_cases hv : v ∈ x.globalVariables
    -- it is listed, so it is unlinked
    · exact .unlink h hv
    · simp only [removeGlobalVariable, h, Option.any_some, List.contains_iff_mem, hv]
      exact .grow (.refl c s)

/-- and unlinking removes it from the module that it has. -/
theorem change_unlinkVariable (c : Ref .context) (s : Store) (v : Handle .value) :
    Change c s none [] (s.unlinkVariable v) := by
  unfold unlinkVariable
  split
  · split
    · exact change_removeGlobalVariable c s _ _
    · exact .grow (.refl c s)
  · exact .grow (.refl c s)

/-- A new module is empty, and a name that is no text makes none. -/
theorem change_createModuleNamed (c : Ref .context) (s : Store) (name : Input) :
    Change c s none [] (s.createModuleNamed (some c) name).2 := by
  unfold createModuleNamed
  split
  · rename_i d bs h hbs
    cases h
    exact .found _
  · exact .grow (.refl c s)

/-- Wrapping finds the wrapper of the value or makes one. One that is found is no new user, and
one that is made was not there. -/
theorem change_valueAsMetadata (c context : Ref .context) (s : Store) (v : Ref .value) :
    Change c s none (s.newWrapper (s.valueAsMetadata context v).1 v)
      (s.valueAsMetadata context v).2 := by
  -- wrappers are looked up by context and value
  cases h : s.metadata.find? (fun m => m.context = context && m.value == some v) with
  | some d =>
    have hd : s.metadata.contains d = true := Arena.contains_of_find? h
    simp only [valueAsMetadata, h, newWrapper, hd, if_true]
    exact .grow (.refl c s)
  | none =>
    -- the wrapper is local or not, but it is new either way
    have hnew (body : MetadataBody) :
        s.metadata.contains (s.addMetadata context body).1 = false := by
      have hnone : s.metadata.get? (s.addMetadata context body).1 = none :=
        s.metadata.get?_eq_none_of_next_le (Nat.le_refl _)
      rw [Arena.contains, hnone]
      rfl
    simp only [valueAsMetadata, h, newWrapper, hnew, Bool.false_eq_true, if_false]
    exact .wrap context v _

/-- A constant is wrapped in its own context, and nothing else is wrapped. -/
theorem change_constantAsMetadata (c : Ref .context) (s : Store) (v : Handle .value) :
    Change c s none (s.uses c (.constantAsMetadata v)) (s.constantAsMetadata v).2 := by
  cases v with
  | none => exact .grow (.refl c s)
  | some v =>
    cases hv : s.values.get? v with
    | none =>
      simp only [uses, constantAsMetadata, value?, Option.bind_some, hv]
      exact .grow (.refl c s)
    | some x =>
      cases hconstant : x.isConstant with
      | false =>
        simp only [uses, constantAsMetadata, value?, Option.bind_some, hv, hconstant,
          Bool.false_eq_true, if_false]
        exact .grow (.refl c s)
      | true =>
        simp only [uses, constantAsMetadata, value?, Option.bind_some, hv, hconstant, if_true]
        exact change_valueAsMetadata c x.context s v

/-- **Every edit is a change**, in a context whose modules are its own. The hypothesis is needed
for the arguments of functions, which are made in the context of the module. -/
theorem change_edit (hcontext : ∀ m x, s.modules.get? m = some x → x.context = c) (e : Edit) :
    Change c s e.addsTo? (s.uses c e) (s.edit c e) := by
  cases e with
  | constInt bits value => exact .grow (.of_addValue rfl)
  | constNull => exact .grow (.of_addValue rfl)
  | constDataArray bits raw => exact .grow (grows_constDataArray c s bits raw)
  | constString text terminated => exact .grow (.of_addValue rfl)
  | createInstruction name => exact .grow (.of_addValue rfl)
  | setValueName v name => exact .grow (.of_modify_value fun _ _ => rfl)
  | attachDebugRecord v => exact .grow (grows_attachDebugRecord c s v)
  | createModule name => exact .found name
  | createModuleNamed name => exact change_createModuleNamed c s name
  | setModuleName m name =>
    refine .grow ?_
    simp only [edit, setModuleName]
    split
    · exact .of_modify_module fun _ => Module.links_eq_iff.2 ⟨rfl, rfl⟩
    · exact .refl c s
  | setModuleSource m name =>
    refine .grow ?_
    simp only [edit, setModuleSource]
    split
    · exact .of_modify_module fun _ => Module.links_eq_iff.2 ⟨rfl, rfl⟩
    · exact .refl c s
  | addGlobalVariable m name => exact change_addGlobalVariable c s m name
  | addFunction m name argumentCount =>
    exact change_addFunction m name argumentCount (hcontext m)
  | addGlobalAlias m name aliasee => exact change_addGlobalAlias c s m name aliasee
  | removeGlobalVariable m v => exact change_removeGlobalVariable c s m v
  | unlinkVariable v => exact change_unlinkVariable c s v
  | mdString text => exact .grow (grows_mdString c c s text)
  | mdNode storage operands => exact .grow (.of_addMetadata rfl)
  | valueAsMetadata v => exact change_valueAsMetadata c c s v
  | constantAsMetadata v => exact change_constantAsMetadata c s v
  | makeUniqued d => exact .grow (.of_modify_metadata (target?_mapNode _))
  | setOperand d index target => exact .grow (grows_setOperand c s d index target)
  | _ => exact .grow (grows_of_aside c s rfl)

/-! ## What every edit keeps

Consequences of `Change` that hold for all five ways alike: values stay, references are not used
again, and new objects are in the context of the edit. -/

/-- Adopting makes one value, with the module as its parent, -/
theorem get?_values_adopt (s : Store) (m : Ref .module) (d : Ref .context) (name : String)
    (body : ValueBody) (list : Ref .value → Module → Module) (v : Ref .value) :
    (s.adopt m d name body list).2.values.get? v =
      if v = (s.adopt m d name body list).1 then
        some { context := d, name, parent := some m, body }
      else s.values.get? v := Arena.get?_alloc ..

/-- and changes one module, by putting the value on a list of it. -/
theorem get?_modules_adopt (s : Store) (m : Ref .module) (d : Ref .context) (name : String)
    (body : ValueBody) (list : Ref .value → Module → Module) (n : Ref .module) :
    (s.adopt m d name body list).2.modules.get? n =
      if n = m then (s.modules.get? n).map (list (s.adopt m d name body list).1)
      else s.modules.get? n := Arena.get?_modify ..

/-- A new global is not there before. -/
theorem get?_adopted (s : Store) (m : Ref .module) (d : Ref .context) (name : String)
    (body : ValueBody) (list : Ref .value → Module → Module) :
    s.values.get? (s.adopt m d name body list).1 = none :=
  s.values.get?_eq_none_of_next_le (Nat.le_refl _)

/-- What unlinking does to a variable that is on the list: the module loses the entry and the
variable its parent. -/
theorem removeGlobalVariable_eq {m : Ref .module} {x : Module} {v : Ref .value}
    (hm : s.modules.get? m = some x) (hv : v ∈ x.globalVariables) :
    s.removeGlobalVariable m v =
      (true,
       { s with
         modules := s.modules.modify m (fun y =>
           { y with globalVariables := y.globalVariables.erase v })
         values := s.values.modify v (fun y => { y with parent := none }) }) := by
  simp [removeGlobalVariable, hm, hv]

/-- No edit takes a value away, changes its sort or whom it stands for. An alias that stands for
nothing any more does not come back by an edit either. -/
theorem Change.kept {home : Handle .module} {users : List (User × Ref .value)}
    (h : Change c s home users t) {v : Ref .value} {x : Value} (hv : s.values.get? v = some x) :
    ∃ y, t.values.get? v = some y ∧ y.context = x.context ∧ y.kind = x.kind ∧
      y.target? = x.target? := by
  cases h with
  | grow hgrow =>
    obtain ⟨y, hy, hlinks⟩ := hgrow.kept hv
    obtain ⟨hcontext, hkind, -, htarget⟩ := Value.links_eq_iff.1 hlinks
    exact ⟨y, hy, hcontext, hkind, htarget⟩
  | @link u m z name body list _ hhome hgrow hm hlist husers =>
    obtain ⟨y, hy, hlinks⟩ := hgrow.kept hv
    obtain ⟨hcontext, hkind, -, htarget⟩ := Value.links_eq_iff.1 hlinks
    -- the new global takes nobody's place
    have hold : v ≠ (u.adopt m z.context name body list).1 := by
      intro heq
      have hnone := get?_adopted u m z.context name body list
      rw [← heq, hy] at hnone
      cases hnone
    refine ⟨y, ?_, hcontext, hkind, htarget⟩
    -- so it is read as before the adoption
    rw [get?_values_adopt, if_neg hold]
    exact hy
  | @unlink m z w hm hw =>
    rw [removeGlobalVariable_eq hm hw]
    by_cases hvw : v = w
    · subst hvw
      exact ⟨{ x with parent := none }, by simp [Arena.get?_modify, hv], rfl, rfl, rfl⟩
    · exact ⟨x, by simp [Arena.get?_modify, hvw, hv], rfl, rfl, rfl⟩
  | found name => exact ⟨x, hv, rfl, rfl, rfl⟩
  | wrap context w isLocal => exact ⟨x, hv, rfl, rfl, rfl⟩

/-- References of values only go up, -/
theorem Change.next {home : Handle .module} {users : List (User × Ref .value)}
    (h : Change c s home users t) : s.values.next ≤ t.values.next := by
  cases h with
  | grow hgrow => exact hgrow.next
  | link hhome hgrow hm hlist husers => exact Nat.le_succ_of_le hgrow.next
  | unlink hm hw =>
    have hremoved := removeGlobalVariable_eq hm hw
    exact Nat.le_of_eq (congrArg (·.2.values.next) hremoved.symm)
  | found name => exact Nat.le_refl _
  | wrap context w isLocal => exact Nat.le_refl _

/-- those of metadata as well, -/
theorem Change.nextMetadata {home : Handle .module} {users : List (User × Ref .value)}
    (h : Change c s home users t) : s.metadata.next ≤ t.metadata.next := by
  cases h with
  | grow hgrow => exact hgrow.nextMetadata
  | link hhome hgrow hm hlist husers => exact hgrow.nextMetadata
  | unlink hm hw =>
    have hremoved := removeGlobalVariable_eq hm hw
    exact Nat.le_of_eq (congrArg (·.2.metadata.next) hremoved.symm)
  | found name => exact Nat.le_refl _
  | wrap context w isLocal => exact Nat.le_succ _

/-- and those of modules. -/
theorem Change.nextModule {home : Handle .module} {users : List (User × Ref .value)}
    (h : Change c s home users t) : s.modules.next ≤ t.modules.next := by
  cases h with
  | grow hgrow => exact Nat.le_of_eq hgrow.nextModule.symm
  | link hhome hgrow hm hlist husers => exact Nat.le_of_eq hgrow.nextModule.symm
  | unlink hm hw =>
    have hremoved := removeGlobalVariable_eq hm hw
    exact Nat.le_of_eq (congrArg (·.2.modules.next) hremoved.symm)
  | found name => exact Nat.le_succ _
  | wrap context w isLocal => exact Nat.le_refl _

/-- Modules that are there after free objects are made were there before, with the same lists. -/
theorem Grows.module (h : Grows c s t) {m : Ref .module} {y : Module}
    (hm : t.modules.get? m = some y) :
    ∃ x, s.modules.get? m = some x ∧ y.links = x.links := by
  have hlinks := h.modules m
  rw [hm] at hlinks
  obtain ⟨x, hx, hlinks'⟩ := Option.map_eq_some_iff.1 hlinks.symm
  exact ⟨x, hx, hlinks'.symm⟩

/-- Modules stay in their context, and new ones are made in the context of the edit. -/
theorem Change.module_context {home : Handle .module} {users : List (User × Ref .value)}
    (h : Change c s home users t) (hcontext : ∀ {m x}, s.modules.get? m = some x → x.context = c)
    {m : Ref .module} {y : Module} (hm : t.modules.get? m = some y) : y.context = c := by
  cases h with
  | grow hgrow =>
    obtain ⟨x, hx, hlinks⟩ := hgrow.module hm
    exact (Module.links_eq_iff.1 hlinks).1.trans (hcontext hx)
  | @link u n z name body list _ hhome hgrow hn hlist husers =>
    -- modules are as they were when the global is linked
    have hthere : ∀ {z}, u.modules.get? m = some z → z.context = c := by
      intro z hz
      obtain ⟨x, hx, hlinks⟩ := hgrow.module hz
      exact (Module.links_eq_iff.1 hlinks).1.trans (hcontext hx)
    rw [get?_modules_adopt] at hm
    split at hm
    · obtain ⟨z, hz, rfl⟩ := Option.map_eq_some_iff.1 hm
      exact (hlist.context _ z).trans (hthere hz)
    · exact hthere hm
  | @unlink n z v hn hv =>
    rw [removeGlobalVariable_eq hn hv, Arena.get?_modify] at hm
    split at hm
    · obtain ⟨z, hz, rfl⟩ := Option.map_eq_some_iff.1 hm
      exact hcontext (x := z) hz
    · exact hcontext hm
  | found name =>
    simp only [createModule, Arena.get?_alloc] at hm
    split at hm
    · cases hm
      rfl
    · exact hcontext hm
  | wrap context v isLocal => exact hcontext hm

/-- References of values are not used again, and a new value is in the context of the edit or in
that of its module. -/
theorem Change.fresh {home : Handle .module} {users : List (User × Ref .value)}
    (h : Change c s home users t) {v : Ref .value} {y : Value} (hv : t.values.get? v = some y)
    (hnone : s.values.get? v = none) :
    s.values.next ≤ v.index ∧
      (y.context = c ∨ ∃ m x, s.modules.get? m = some x ∧ y.context = x.context) := by
  -- before a new global is linked, all that is new is free
  have hgrown {u : Store} (hgrow : Grows c s u) (hv : u.values.get? v = some y) :
      s.values.next ≤ v.index ∧
        (y.context = c ∨ ∃ m x, s.modules.get? m = some x ∧ y.context = x.context) := by
    obtain ⟨hle, hcontext, -⟩ := hgrow.fresh hv hnone
    exact ⟨hle, .inl hcontext⟩
  have hsame (hv : s.values.get? v = some y) : False := by
    rw [hnone] at hv
    cases hv
  cases h with
  | grow hgrow => exact hgrown hgrow hv
  | @link u m z name body list _ hhome hgrow hm hlist husers =>
    rw [get?_values_adopt] at hv
    split at hv
    · rename_i hnew
      cases hv
      obtain ⟨x, hx, hlinks⟩ := hgrow.module hm
      exact ⟨hnew ▸ hgrow.next, .inr ⟨m, x, hx, (Module.links_eq_iff.1 hlinks).1⟩⟩
    · exact hgrown hgrow hv
  | @unlink m z w hm hw =>
    rw [removeGlobalVariable_eq hm hw] at hv
    simp [Arena.get?_modify, hnone] at hv
  | found name => exact (hsame hv).elim
  | wrap context w isLocal => exact (hsame hv).elim

/-- If modules are in the context of the edit, new values are as well. -/
theorem Change.value_context {home : Handle .module} {users : List (User × Ref .value)}
    (h : Change c s home users t) (hcontext : ∀ {m x}, s.modules.get? m = some x → x.context = c)
    {v : Ref .value} {y : Value} (hv : t.values.get? v = some y) (hnone : s.values.get? v = none) :
    y.context = c := by
  -- a new value is in the context of the edit or in that of its module
  rcases (h.fresh hv hnone).2 with hown | ⟨m, x, hm, hmodule⟩
  · exact hown
  · exact hmodule.trans (hcontext hm)

/-- A value that is there stays there. -/
theorem Change.contains {home : Handle .module} {users : List (User × Ref .value)}
    (h : Change c s home users t) {v : Ref .value} (hv : s.values.contains v = true) :
    t.values.contains v = true := by
  obtain ⟨x, hx⟩ := Option.isSome_iff_exists.1 hv
  obtain ⟨y, hy, -⟩ := h.kept hx
  exact Option.isSome_iff_exists.2 ⟨y, hy⟩

end Store

end ForeignHandles
