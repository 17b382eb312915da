import ForeignHandles.Proofs.Store.Edit

/-!
  What an edit does to the metadata of a context.

  An edit makes one object of metadata at most.  Strings and wrappers are looked up before they are
  made, so a new one is the only one of its text or its value at that moment (`Fresh`).  What is
  there already changes in one way only: a node gets other operands or another storage.

  `Recorded` says this of two stores, and `recorded_edit` says it of every edit.  It sees what
  `Change` leaves out on purpose: the context of metadata, its sort and its text.

  Which node changes, and how, the edit says by itself (`Edit.onNode`).  So metadata that is there is,
  after an edit, what the edit makes of it (`get?_metadata_edit`), and a string or a node that was not
  there is the one that was asked for (`metadata_edit_cases`).

  The two descriptions serve different ends. `Recorded` is for invariants over the metadata of a
  context, such as that no text is there twice, and needs to know of a new object only what it may
  be. The second is for following one object, where the edit has to say exactly what becomes of it.
-/
namespace ForeignHandles

/-- Whether an edit leaves metadata alone. -/
def Edit.sparesMetadata : Edit → Bool
  | .mdString _ | .mdNode _ _ | .valueAsMetadata _ | .constantAsMetadata _ | .makeUniqued _
  | .setOperand _ _ _ => false
  | _ => true

/-- The node that an edit changes, and how. -/
def Edit.nodeEdit? : Edit → Option (Ref .metadata × (Node → Node))
  | .makeUniqued d => some (d, fun n => { n with storage := .uniqued })
  | .setOperand (some d) index target =>
    some (d, fun n => { n with operands := n.operands.set index.toNat target })
  | _ => none

/-- What an edit makes of a node. -/
def Edit.onNode (d : Ref .metadata) (e : Edit) (n : Node) : Node :=
  match e.nodeEdit? with
  | some (x, f) => if x = d then f n else n
  | none => n

namespace Edit

/-- An edit stores an operand in a node, or it leaves the operands of the node alone. -/
theorem operands_onNode (d : Ref .metadata) (e : Edit) (n : Node) :
    (∃ index target, e = .setOperand (some d) index target ∧
        (e.onNode d n).operands = n.operands.set index.toNat target) ∨
      (∀ index target, e ≠ .setOperand (some d) index target) ∧
        (e.onNode d n).operands = n.operands := by
  cases e with
  | makeUniqued x =>
    refine .inr ⟨nofun, ?_⟩
    by_cases hx : x = d <;> simp [onNode, nodeEdit?, hx]
  | setOperand x index target =>
    by_cases hx : x = some d
    · subst hx
      exact .inl ⟨index, target, rfl, by simp [onNode, nodeEdit?]⟩
    · refine .inr ⟨fun _ _ heq => hx (by cases heq; rfl), ?_⟩
      cases x with
      | none => rfl
      | some x => simp [onNode, nodeEdit?, show x ≠ d from fun h => hx (h ▸ rfl)]
  | _ => exact .inr ⟨nofun, rfl⟩

/-- No edit changes how many operands a node has. -/
theorem length_onNode (d : Ref .metadata) (e : Edit) (n : Node) :
    (e.onNode d n).operands.length = n.operands.length := by
  rcases e.operands_onNode d n with ⟨index, target, -, hset⟩ | ⟨-, hsame⟩
  · rw [hset, List.length_set]
  · rw [hsame]

end Edit

namespace Store

/-! ## Wrappers

Reading the value of a wrapper. -/

/-- A wrapper's value, as callers read it, is its target as a user. -/
theorem wrappedValue_eq_some_iff {s : Store} {d : Ref .metadata} {v : Ref .value} :
    s.wrappedValue (some d) = some v ↔ s.target? (.wrapper d) = some (some v) := by
  simp only [wrappedValue, metadata?, target?, Option.bind_some]
  cases s.metadata.get? d with
  | none => simp
  | some m => cases hb : m.body <;> simp [Metadata.value, Metadata.target?, hb]

/-- The value of a wrapper that is there. -/
theorem wrappedValue_of_get? {s : Store} {d : Ref .metadata} {m : Metadata}
    (hd : s.metadata.get? d = some m) : s.wrappedValue (some d) = m.value := by
  rw [wrappedValue, metadata?, Option.bind_some, hd]
  rfl

/-- Whoever has a value is there. -/
theorem get?_of_wrappedValue {s : Store} {d : Ref .metadata} {v : Ref .value}
    (h : s.wrappedValue (some d) = some v) : ∃ m, s.metadata.get? d = some m ∧ m.value = some v :=
  Option.bind_eq_some_iff.1 h

/-! ## The ways in which metadata changes

What is looked up before it is made cannot be there when it is made: the search goes over the
whole arena, and compares context and text, or context and value. -/

/-- What can be made: a text or a wrapped value that the context does not have, or a node.  A
wrapper is local unless its value is a constant. -/
inductive Fresh (c : Ref .context) (s : Store) : MetadataBody → Prop where
  | string {text : String}
    (hnone : ∀ {d m}, s.metadata.get? d = some m → m.context = c → m.string? ≠ some text) :
    Fresh c s (.string text)
  | node (n : Node) : Fresh c s (.node n)
  | wrapper {v : Ref .value}
    (hnone : ∀ {d m}, s.metadata.get? d = some m → m.context = c → m.value ≠ some v) :
    Fresh c s (.value (some v) (!(s.values.get? v).any (·.isConstant)))

/-- Every way in which an edit can change the metadata of a store. -/
inductive Recorded (c : Ref .context) (s s' : Store) : Prop where
  | same (hmetadata : s'.metadata = s.metadata)
  | node {d : Ref .metadata} {f : Node → Node}
    (hmetadata : s'.metadata = s.metadata.modify d (·.mapNode f))
  /-- One new object; values are left alone then. -/
  | made {body : MetadataBody} (hbody : Fresh c s body) (hvalues : s'.values = s.values)
    (hmetadata : s'.metadata = (s.metadata.alloc { context := c, body }).2)

variable {c : Ref .context} {s s' : Store}

namespace Recorded

/-- New metadata that was not to be found is one of the ways. -/
theorem of_addMetadata {body : MetadataBody} (hbody : Fresh c s body) :
    Recorded c s (s.addMetadata c body).2 := .made hbody rfl rfl

/-- A string is found, or the context does not have its text. -/
theorem of_mdString (c : Ref .context) (s : Store) (text : String) :
    Recorded c s (s.mdString c text).2 := by
  cases h : s.metadata.find? (fun m => m.context = c && m.string? == some text) with
  | some d =>
    simp only [mdString, h]
    exact .same rfl
  | none =>
    simp only [mdString, h]
    refine of_addMetadata (.string fun {d m} hd hm htext => ?_)
    -- the search would have found a string with that text
    simpa [hm, htext] using Arena.eq_false_of_find?_eq_none h hd

/-- A wrapper is found, or the context has none of that value. -/
theorem of_valueAsMetadata (c : Ref .context) (s : Store) (v : Ref .value) :
    Recorded c s (s.valueAsMetadata c v).2 := by
  cases h : s.metadata.find? (fun m => m.context = c && m.value == some v) with
  | some d =>
    simp only [valueAsMetadata, h]
    exact .same rfl
  | none =>
    simp only [valueAsMetadata, h]
    refine of_addMetadata (.wrapper fun {d m} hd hm hvalue => ?_)
    simpa [hm, hvalue] using Arena.eq_false_of_find?_eq_none h hd

/-- The wrapper of a constant is made in the context of the constant. -/
theorem of_constantAsMetadata (hvalues : ∀ {v x}, s.values.get? v = some x → x.context = c)
    (h : Handle .value) : Recorded c s (s.constantAsMetadata h).2 := by
  cases h with
  | none => exact .same rfl
  | some v =>
    cases hv : s.values.get? v with
    | none =>
      simp only [constantAsMetadata, value?, Option.bind_some, hv]
      exact .same rfl
    | some x =>
      simp only [constantAsMetadata, value?, Option.bind_some, hv]
      split
      · rw [hvalues hv]
        exact of_valueAsMetadata c s v
      · exact .same rfl

/-- An operand of a node is stored, or nothing happens. -/
theorem of_setOperand (c : Ref .context) (s : Store) (d : Handle .metadata) (index : UInt32)
    (target : Handle .metadata) : Recorded c s (s.after (s.setOperand d index target)) := by
  obtain ⟨t, ht, rfl | ⟨x, f, rfl⟩⟩ := s.setOperand_cases d index target
  · rw [ht]
    exact .same rfl
  · rw [ht]
    exact .node rfl

end Recorded

/-! ## Edits

Most edits do not write metadata; the six that do are taken one by one. -/

/-- Arguments are values. -/
theorem metadata_addArguments (s : Store) (c : Ref .context) (index count : Nat) :
    (s.addArguments c index count).2.metadata = s.metadata := by
  induction count generalizing s index with
  | zero => rfl
  | succ count ih => exact ih _ (index + 1)

/-- Edits on values, modules and the rest leave metadata alone. -/
theorem metadata_edit_of_spares (c : Ref .context) (s : Store) {e : Edit}
    (he : e.sparesMetadata = true) : (s.edit c e).metadata = s.metadata := by
  cases e with
  | mdString text => cases he
  | mdNode storage operands => cases he
  | valueAsMetadata v => cases he
  | constantAsMetadata v => cases he
  | makeUniqued d => cases he
  | setOperand d index target => cases he
  | constInt bits value => rfl
  | constNull => rfl
  | constString text terminated => rfl
  | createInstruction name => rfl
  | setValueName v name => rfl
  | createModule name => rfl
  | constDataArray bits raw =>
    rcases s.edit_constDataArray_cases c bits raw with heq | ⟨data, heq⟩
    · rw [heq]
    · rw [heq]
      rfl
  | attachDebugRecord v =>
    simp only [edit, attachDebugRecord]
    split
    · rfl
    · rename_i x _
      cases hx : x.attachDebugRecord <;> rfl
  | createModuleNamed name =>
    simp only [edit, createModuleNamed]
    split <;> rfl
  | setModuleName m name =>
    simp only [edit, setModuleName]
    split <;> rfl
  | setModuleSource m name =>
    simp only [edit, setModuleSource]
    split <;> rfl
  | addGlobalVariable m name =>
    simp only [edit, addGlobalVariable]
    split <;> rfl
  | addFunction m name argumentCount =>
    simp only [edit, addFunction]
    split
    · rfl
    · exact metadata_addArguments ..
  | addGlobalAlias m name aliasee =>
    simp only [edit, addGlobalAlias]
    split
    · rfl
    · split <;> rfl
  | removeGlobalVariable m v =>
    simp only [edit, removeGlobalVariable]
    split <;> rfl
  | unlinkVariable v =>
    simp only [edit, unlinkVariable]
    split
    · split
      · simp only [removeGlobalVariable]
        split <;> rfl
      · rfl
    · rfl
  | _ => exact (edit_of_aside c s rfl).2.2

/-- **Every edit changes metadata in one of these ways**, in a context whose values are its own. -/
theorem recorded_edit (hvalues : ∀ {v x}, s.values.get? v = some x → x.context = c) (e : Edit) :
    Recorded c s (s.edit c e) := by
  cases e with
  | mdString text => exact .of_mdString c s text
  | mdNode storage operands => exact .of_addMetadata (.node _)
  | valueAsMetadata v => exact .of_valueAsMetadata c s v
  | constantAsMetadata v => exact .of_constantAsMetadata hvalues v
  | makeUniqued d => exact .node rfl
  | setOperand d index target => exact .of_setOperand c s d index target
  | _ => exact .same (metadata_edit_of_spares c s rfl)

/-! ## What every edit keeps

A node that changes stays a node, in its context. -/

/-- A change of a node leaves its context, -/
theorem context_mapNode (f : Node → Node) (m : Metadata) : (m.mapNode f).context = m.context := by
  cases hb : m.body <;> simp [Metadata.mapNode, hb]

/-- its sort -/
theorem kind_mapNode (f : Node → Node) (m : Metadata) : (m.mapNode f).kind = m.kind := by
  cases hb : m.body <;> simp [Metadata.mapNode, Metadata.kind, hb]

/-- and, since nodes wrap nothing, its value. -/
theorem value_mapNode (f : Node → Node) (m : Metadata) : (m.mapNode f).value = m.value := by
  cases hb : m.body <;> simp [Metadata.mapNode, Metadata.value, hb]

/-- Metadata after an edit was there before, of the same sort and with the same value, or it is the
one object that the edit makes. -/
theorem Recorded.origin (h : Recorded c s s') {d : Ref .metadata} {m' : Metadata}
    (hd : s'.metadata.get? d = some m') :
    (∃ m, s.metadata.get? d = some m ∧ m'.context = m.context ∧ m'.kind = m.kind ∧
      m'.value = m.value) ∨
    (d = ⟨s.metadata.next⟩ ∧ m'.context = c ∧ Fresh c s m'.body ∧ s'.values = s.values) := by
  cases h with
  | same hmetadata =>
    rw [hmetadata] at hd
    exact .inl ⟨m', hd, rfl, rfl, rfl⟩
  | @node e f hmetadata =>
    rw [hmetadata, Arena.get?_modify] at hd
    split at hd
    · obtain ⟨m, hm, rfl⟩ := Option.map_eq_some_iff.1 hd
      exact .inl ⟨m, hm, context_mapNode f m, kind_mapNode f m, value_mapNode f m⟩
    · exact .inl ⟨m', hd, rfl, rfl, rfl⟩
  | made hbody hvalues hmetadata =>
    rw [hmetadata, Arena.get?_alloc] at hd
    split at hd
    · rename_i hnew
      cases hd
      exact .inr ⟨hnew, rfl, hbody, hvalues⟩
    · exact .inl ⟨m', hd, rfl, rfl, rfl⟩

/-! ## One node changes, or one object is added

Here it counts what exactly is added. A wrapper is of no interest, so it is enough that it is
neither a string nor a node. -/

/-- A string adds itself or nothing, -/
theorem metadata_mdString (s : Store) (c : Ref .context) (text : String) :
    (s.mdString c text).2.metadata = s.metadata ∨
      (s.mdString c text).2.metadata =
        (s.metadata.alloc { context := c, body := .string text }).2 := by
  unfold mdString
  split
  · exact .inl rfl
  · exact .inr rfl

/-- a value adds a wrapper or nothing, -/
theorem metadata_valueAsMetadata (s : Store) (c : Ref .context) (v : Ref .value) :
    (s.valueAsMetadata c v).2.metadata = s.metadata ∨
      ∃ target isLocal context, (s.valueAsMetadata c v).2.metadata =
        (s.metadata.alloc { context, body := .value target isLocal }).2 := by
  unfold valueAsMetadata
  split
  · exact .inl rfl
  · exact .inr ⟨_, _, c, rfl⟩

/-- and so does a constant. -/
theorem metadata_constantAsMetadata (s : Store) (h : Handle .value) :
    (s.constantAsMetadata h).2.metadata = s.metadata ∨
      ∃ target isLocal context, (s.constantAsMetadata h).2.metadata =
        (s.metadata.alloc { context, body := .value target isLocal }).2 := by
  unfold constantAsMetadata
  split
  · split
    · exact s.metadata_valueAsMetadata _ _
    · exact .inl rfl
  · exact .inl rfl

/-- An edit changes one node, or it adds one object of metadata at most.  No string or node is added
but the one that is asked for. -/
theorem metadata_edit_cases (c : Ref .context) (s : Store) (e : Edit) :
    (∃ d f, e.nodeEdit? = some (d, f) ∧ s.edit c e = s.onNode d f) ∨
      e.nodeEdit? = none ∧ ((s.edit c e).metadata = s.metadata ∨
        ∃ m, (∀ text, m.string? = some text → e = .mdString text) ∧
          (∀ n, m.node? = some n → e = .mdNode n.storage n.operands) ∧
          (s.edit c e).metadata = (s.metadata.alloc m).2) := by
  -- a wrapper is no string and no node, so there is nothing to say of it
  have hwrapper {t : Store} (ht : t.metadata = s.metadata ∨
      ∃ v isLocal context, t.metadata =
        (s.metadata.alloc { context, body := .value v isLocal }).2) :
      t.metadata = s.metadata ∨ ∃ m, (∀ text, m.string? = some text → e = .mdString text) ∧
        (∀ n, m.node? = some n → e = .mdNode n.storage n.operands) ∧
        t.metadata = (s.metadata.alloc m).2 := by
    refine ht.imp_right ?_
    rintro ⟨v, isLocal, context, hmade⟩
    exact ⟨{ context, body := .value v isLocal }, by simp [Metadata.string?],
      by simp [Metadata.node?], hmade⟩
  cases e with
  | makeUniqued d => exact .inl ⟨d, _, rfl, rfl⟩
  | setOperand d index target =>
    cases d with
    | none => exact .inr ⟨rfl, .inl rfl⟩
    | some d =>
      refine .inl ⟨d, _, rfl, ?_⟩
      rw [edit, setOperand_eq, after]
  | mdString text =>
    refine .inr ⟨rfl, (s.metadata_mdString c text).imp_right fun hmade => ?_⟩
    exact ⟨{ context := c, body := .string text },
      fun text' htext => congrArg Edit.mdString (Option.some.inj htext),
      by simp [Metadata.node?], hmade⟩
  | mdNode storage operands =>
    refine .inr ⟨rfl, .inr ⟨{ context := c, body := .node ⟨storage, operands⟩ },
      by simp [Metadata.string?], fun n hn => ?_, rfl⟩⟩
    obtain rfl : Node.mk storage operands = n := Option.some.inj hn
    rfl
  | valueAsMetadata v => exact .inr ⟨rfl, hwrapper (s.metadata_valueAsMetadata c v)⟩
  | constantAsMetadata v => exact .inr ⟨rfl, hwrapper (s.metadata_constantAsMetadata v)⟩
  | _ => exact .inr ⟨rfl, .inl (metadata_edit_of_spares c s rfl)⟩

/-- Metadata that is there stays, and it is changed only if it is a node that the edit is about. -/
theorem get?_metadata_edit {d : Ref .metadata} {m : Metadata} (hd : s.metadata.get? d = some m) (c : Ref .context)
    (e : Edit) : (s.edit c e).metadata.get? d = some (m.mapNode (e.onNode d)) := by
  rcases s.metadata_edit_cases c e with ⟨x, f, hedit, heq⟩ | ⟨hnone, hmetadata⟩
  -- the edit changes the node `x`, which may be this one
  · have hon : e.onNode d = fun n => if x = d then f n else n := by
      funext n
      rw [Edit.onNode, hedit]
    rw [heq, get?_onNode, hd, Option.map_some, hon]
    by_cases hx : x = d
    · simp [hx]
    · rw [if_neg (Ne.symm hx), Metadata.mapNode_eq_self fun n _ => if_neg hx]
  · have hon : e.onNode d = fun n => n := by
      funext n
      rw [Edit.onNode, hnone]
    rw [hon, Metadata.mapNode_eq_self fun _ _ => rfl]
    rcases hmetadata with hsame | ⟨m', -, -, hmade⟩
    · rw [hsame]
      exact hd
    · rw [hmade]
      exact Arena.get?_alloc_eq_some_iff.2 (.inr hd)

end Store

end ForeignHandles
