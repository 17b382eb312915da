import ForeignHandles.Proofs.Store.Parts
import ForeignHandles.Proofs.Surface.Steps

/-!
  No entry point faults.

  A fault is the end of the program, so it must not get out to foreign callers.  Few operations can
  fault at all: those that take an index, and those that need the name of an attribute kind.

  1. **Indices.**  An entry looks at an index before the operation does, and it looks at the very
     length that the operation looks at.  So it goes through with the operation exactly if that does
     not fault (`operandSlot_isOk` and the lemmas after it), whatever the objects are.

  2. **Kinds.**  A kind that a caller passes is looked at by the entry.  The kind of an attribute
     that is printed is not, so there it is an invariant that helps: an attribute has been checked
     when it was made (`AttributesChecked`), and among the edits nothing but making one changes the
     attributes of the host (`attributes_edit`).

  The invariant holds in every reachable world, so no entry faults there (`surface_never_faults`).

  The converse questions are not asked here. That the unguarded operations of the host do fault
  where they are documented to is part of their definitions; what is shown is that no caller gets
  there through an entry, with whatever arguments. Handles that are dead or of another object are
  among those arguments, since nothing in the proofs looks up where a handle comes from.
-/
namespace ForeignHandles

namespace Store

variable {s t : Store} {c : Ref .context}

/-! ## Indices -/

/-- There is a slot exactly for the indices below the number of operands. -/
theorem operandSlot_isOk (s : Store) (d : Handle .metadata) (index : UInt32) :
    ∃ slot, s.operandSlot d index = .ok slot ∧
      (slot.isSome ↔ ∃ n, s.node? d = some n ∧ index.toNat < n.operands.length) := by
  cases d with
  | none => exact ⟨none, rfl, by simp [node?, metadata?]⟩
  | some d =>
    by_cases hslot : s.HasSlot ⟨d, index.toNat⟩
    · exact ⟨_, operandSlot_of_hasSlot hslot, ⟨fun _ => hslot, fun _ => rfl⟩⟩
    · exact ⟨none, operandSlot_of_not_hasSlot hslot, iff_of_false Bool.false_ne_true hslot⟩

/-- There is an operand exactly for the indices below their number. -/
theorem namedOperand_isOk (s : Store) (x : Handle .namedMetadata) (index : UInt32) :
    ∃ target, s.namedOperand x index = .ok target ∧
      (target.isSome ↔ ∃ n, s.named? x = some n ∧ index.toNat < n.operands.length) := by
  unfold namedOperand
  cases hn : s.named? x with
  | none => exact ⟨none, rfl, by simp⟩
  | some n =>
    by_cases hlt : index.toNat < n.operands.length
    · refine ⟨some n.operands[index.toNat], ?_, by simp [hlt]⟩
      simp [hlt, NamedMetadata.operand, Except.map]
    · exact ⟨none, by simp [hlt], by simp [Nat.not_lt.1 hlt]⟩

/-- Storing an operand past the end is declined by the entry before the operation can fault. -/
theorem setNamedOperand_isOk (s : Store) (x : Handle .namedMetadata) (index : UInt32)
    (target : Handle .metadata) : ∃ t, s.setNamedOperand x index target = .ok t := by
  unfold setNamedOperand
  split
  · rename_i m n d hn
    by_cases hlt : index.toNat < n.operands.length
    · simp [hlt, NamedMetadata.setOperand, Except.map]
    · exact ⟨s, by rw [if_neg hlt]⟩
  · exact ⟨s, rfl⟩

/-! ## Kinds -/

/-- Every attribute has passed the check of its kind. -/
def AttributesChecked (s : Store) : Prop :=
  ∀ a x, s.attributes.get? a = some x → x.content.check = true

/-- What leaves the attributes alone keeps them checked. -/
theorem attributesChecked_of_eq (h : t.attributes = s.attributes) (hs : s.AttributesChecked) :
    t.AttributesChecked := by
  intro a x hx
  rw [h] at hx
  exact hs a x hx

/-- An attribute that has passed its check can be printed, and a handle that names none prints
nothing. -/
theorem attributeMessage_isOk (hs : s.AttributesChecked) (a : Handle .attribute) :
    ∃ text, s.attributeMessage a = .ok text := by
  unfold attributeMessage
  cases ha : s.attribute? a with
  | none => exact ⟨none, rfl⟩
  | some content =>
    obtain ⟨x, hx, rfl⟩ := Option.map_eq_some_iff.1 ha
    -- the handle names an attribute that is there, so it has been checked
    obtain ⟨r, rfl, hr⟩ := Option.bind_eq_some_iff.1 hx
    obtain ⟨text, htext⟩ := Attribute.print_isOk_of_check (hs r x hr)
    exact ⟨some (.ofString text), by simp [htext, Except.map]⟩

/-- An edit leaves the attributes alone, or it makes one that has passed its check. -/
theorem attributes_edit (c : Ref .context) (s : Store) (e : Edit) :
    (s.edit c e).attributes = s.attributes ∨
      ∃ a, e = .createAttribute a ∧ a.check = true ∧
        (s.edit c e).attributes = (s.attributes.alloc { context := c, content := a }).2 := by
  by_cases hpart : e.part = .attributes
  · cases e with
    | createAttribute a =>
      cases ha : a.make with
      | error f => exact .inl (by simp [edit, createAttribute, ha, Except.map, after])
      | ok b =>
        obtain ⟨hcheck, rfl⟩ := (Attribute.make_eq_ok_iff a b).1 ha
        exact .inr ⟨a, rfl, hcheck, by simp [edit, createAttribute, ha, Except.map, after]⟩
    | _ => cases hpart
  · exact .inl ((changesOnly_edit c s e).attributes hpart)

/-- An edit keeps attributes checked: the only one it can bring has been checked. -/
theorem attributesChecked_edit (c : Ref .context) (hs : s.AttributesChecked) (e : Edit) :
    (s.edit c e).AttributesChecked := by
  rcases attributes_edit c s e with hsame | ⟨a, -, hcheck, halloc⟩
  · exact attributesChecked_of_eq hsame hs
  · intro r x hx
    rw [halloc, Arena.get?_alloc] at hx
    split at hx
    · cases hx
      exact hcheck
    · exact hs r x hx

/-- Attributes go with their context, and the others stay as they are. -/
theorem attributesChecked_disposeContext (hs : s.AttributesChecked) (c : Ref .context) :
    (s.disposeContext (some c)).AttributesChecked := by
  intro a x hx
  have hkept : (s.attributes.get? a).filter (fun x => x.context ≠ c) = some x :=
    (Arena.get?_filter ..).symm.trans hx
  exact hs a x (Option.filter_eq_some_iff.1 hkept).1

/-- So every step of the store keeps attributes checked. -/
theorem attributesChecked_step (hstep : StoreStep s t) (hs : s.AttributesChecked) :
    t.AttributesChecked := by
  cases hstep with
  | unchanged => exact hs
  | edit c e => exact attributesChecked_edit c hs e
  | createContext => exact hs
  | disposeContext c => exact attributesChecked_disposeContext hs c
  | rewire old new => exact hs
  | release v => exact attributesChecked_of_eq ((changesOnly_release s v).attributes (by decide)) hs
  | retireModule m => exact hs

end Store

/-- A kind that is out of range is answered with no name, before the catalog is asked for one. -/
theorem attributeNameOfId_isOk (kind : UInt32) : ∃ name, attributeNameOfId kind = .ok name := by
  unfold attributeNameOfId
  split
  · exact ⟨none, rfl⟩
  · rename_i hlt
    have hkind : kind < AttributeDef.endKind := UInt32.not_le.1 hlt
    simp [AttributeDef.nameOfKind, hkind, Except.map]

namespace Surface

variable {α : Type} {s : Store}

/-! ## The entries -/

/-- **Queries come back.** Three of them could fault: two take an index, and one prints an
attribute. -/
theorem StoreQuery.answer_isOk (hs : s.AttributesChecked) (spell : Spelling) (q : StoreQuery α) :
    ∃ answer, q.answer s spell = .ok answer := by
  cases q with
  | mdNodeGetOperand d index =>
    obtain ⟨slot, hslot, -⟩ := s.operandSlot_isOk d index
    exact ⟨slot, hslot⟩
  | namedMdNodeGetOperand x index =>
    obtain ⟨target, htarget, -⟩ := s.namedOperand_isOk x index
    exact ⟨target, htarget⟩
  | attributeToString a => exact s.attributeMessage_isOk hs a
  | _ => exact ⟨_, rfl⟩

/-- Of the entries without a state one could fault, the one that is asked for the name of a kind.
Reading log directives, in particular, is of no consequence here, whatever the library does that
reads them. -/
theorem PlainEntry.answer_isOk (setting : Setting) (x : PlainEntry α) :
    ∃ answer, x.answer setting = .ok answer := by
  cases x with
  | getAttributeNameFromId id => exact attributeNameOfId_isOk id
  | _ => exact ⟨_, rfl⟩

/-- Of the commands on the store two take an index. -/
theorem StoreCommand.call_isOk (s : Store) (x : StoreCommand α) :
    ∃ answer t, x.call s = .ok (answer, t) := by
  cases x with
  | mdNodeReplaceOperand d index target =>
    obtain ⟨t, ht, -⟩ := s.setOperand_cases d index target
    exact ⟨(), t, by simp [StoreCommand.call, ht, Except.map]⟩
  | namedMdNodeSetOperand x index target =>
    obtain ⟨t, ht⟩ := s.setNamedOperand_isOk x index target
    exact ⟨(), t, by simp [StoreCommand.call, ht, Except.map]⟩
  | _ => exact ⟨_, _, rfl⟩

/-! ## No fault in any reachable world -/

/-- The calls of entries come back, and they keep attributes checked. -/
theorem Entry.call_isOk {w : World} (hs : w.host.store.AttributesChecked) (setting : Setting)
    (entry : Entry α) : ∃ answer w', entry.call w setting = .ok (answer, w') ∧
      w'.host.store.AttributesChecked := by
  -- that the call comes back is one thing, what it leaves behind follows from
  -- `Entry.storeStep_call`
  have hback : ∃ answer w', entry.call w setting = .ok (answer, w') := by
    cases entry with
    | query q =>
      obtain ⟨answer, hanswer⟩ := q.answer_isOk hs setting.toSpelling
      exact ⟨answer, w, by simp [Entry.call, hanswer, Except.map]⟩
    | command x =>
      obtain ⟨answer, t, hcall⟩ := x.call_isOk w.host.store
      exact ⟨answer, _, by rw [Entry.call, hcall]; rfl⟩
    | plain x =>
      obtain ⟨answer, hanswer⟩ := x.answer_isOk setting
      exact ⟨answer, w, by simp [Entry.call, hanswer, Except.map]⟩
    | host x => exact ⟨_, _, rfl⟩
    | shelf x => exact ⟨_, _, rfl⟩
    | jit x => exact ⟨_, _, rfl⟩
    | registry x => exact ⟨_, _, rfl⟩
  obtain ⟨answer, w', hcall⟩ := hback
  exact ⟨answer, w', hcall, Store.attributesChecked_step (entry.storeStep_call hcall) hs⟩

/-- Attributes are checked in every reachable world, since there are none at the start. -/
theorem attributesChecked_of_reachable {w : World} (hw : Reachable w) :
    w.host.store.AttributesChecked :=
  store_invariant (fun _ _ hx => by cases hx) Store.attributesChecked_step hw

/-- **The surface never faults.**  In every reachable world every entry comes back with an answer,
whatever it is called with, and the world is a reachable one again; and every attribute can be
printed.

Entries look at an index or a kind before they use it, and most are without faults in any world at
all.  One invariant is needed, for the attributes: printing one would fault if its kind were a number
without a name, and the kind is looked at when the attribute is made, not when it is printed
(`AttributesChecked`). -/
theorem surface_never_faults {w : World} (hw : Reachable w) :
    (∀ {α : Type} (setting : Setting) (entry : Entry α), ∃ answer w',
      entry.call w setting = .ok (answer, w') ∧ Reachable w') ∧
      ∀ a x, w.host.store.attributes.get? a = some x → ∃ text, x.content.print = .ok text := by
  have hs := attributesChecked_of_reachable hw
  refine ⟨fun setting entry => ?_, fun a x hx => Attribute.print_isOk_of_check (hs a x hx)⟩
  obtain ⟨answer, w', hcall, -⟩ := entry.call_isOk hs setting
  exact ⟨answer, w', hcall, .call setting entry hw hcall⟩

/-- A context with an alignment and a node of one operand. -/
def alignedStore : Store :=
  (Host.opened.store.edit ⟨0⟩ (.createAttribute (.int 32 8))).edit ⟨0⟩ (.mdNode .uniqued [none])

/-- The same store in a world in which nothing else has happened. -/
def alignedWorld : World := { host := { Host.opened with store := alignedStore } }

/-- Asking for the eighth operand is no fault there, and the alignment can be printed. -/
theorem alignedWorld_never_faults :
    Reachable alignedWorld ∧
      (∃ answer w', (Entry.query (.mdNodeGetOperand (some ⟨0⟩) 7)).call alignedWorld
        .plain = .ok (answer, w') ∧ Reachable w') ∧
      ∃ text, (Attribute.int 32 8).print = .ok text := by
  have hw : Reachable alignedWorld :=
    .operate (.edit ⟨0⟩ (.mdNode .uniqued [none]))
      (.operate (.edit ⟨0⟩ (.createAttribute (.int 32 8)))
        (.call .plain (.command .contextCreate) .start rfl))
  exact ⟨hw, (surface_never_faults hw).1 _ _, (surface_never_faults hw).2 ⟨0⟩ ⟨⟨0⟩, .int 32 8⟩ rfl⟩

end Surface

end ForeignHandles
