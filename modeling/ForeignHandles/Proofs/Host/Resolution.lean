import ForeignHandles.Proofs.Host.Run
import ForeignHandles.Proofs.Store.Nodes

/-!
  When metadata is resolved.

  A node is resolved if it is no placeholder and has none among its operands.  That looks one step
  far and no further, so circles do no harm, and it depends on two things only: on the operands of
  the node itself and on which metadata is a placeholder (`isResolved_iff`).

  1. **Reading.**  Callers can find out by themselves whether metadata is resolved: they go through
     its slots and ask of every operand whether it is a placeholder.

  2. **Changes.**  Making a node shared leaves operands alone and makes no placeholder, so whatever
     is resolved stays resolved (`isResolved_of_le`).  Storing an operand makes no placeholder and
     ends none, so it matters to the one node that gets the operand.
-/
namespace ForeignHandles

/-- A flag that is passed out is one if it is set -/
theorem cBool_eq_one_iff {b : Bool} : cBool b = 1 ↔ b = true := by cases b <;> decide

/-- and zero otherwise. -/
theorem cBool_eq_zero_iff {b : Bool} : cBool b = 0 ↔ b = false := by cases b <;> decide

namespace Store

variable {s t : Store} {d : Handle .metadata} {e : Ref .metadata} {n : Node}

/-! ## What resolution depends on

`isResolved_iff` takes the question apart: is the metadata there, is it a placeholder, is any
operand of it one? Nothing is asked of the operands of operands. -/

/-- What is no placeholder is no node, or a node of another storage. -/
theorem isTemporary_eq_false_iff :
    s.isTemporary d = false ↔ ∀ n, s.node? d = some n → n.storage ≠ .temporary := by
  cases hn : s.node? d <;> simp [isTemporary, hasStorage, hn]

/-- Metadata is resolved if it is there, is no placeholder, and has none among its operands. -/
theorem isResolved_iff : s.isResolved d = true ↔
    (s.metadata? d).isSome = true ∧ s.isTemporary d = false ∧
      ∀ n, s.node? d = some n → ∀ target ∈ n.operands, s.isTemporary target = false := by
  rw [isTemporary_eq_false_iff]
  cases hd : s.metadata? d with
  | none => simp [isResolved, hd]
  | some m => cases hn : m.node? <;> simp [isResolved, node?, hd, hn, nodeIsResolved]

/-- Metadata stays resolved while its operands stay and nothing becomes a placeholder. -/
theorem isResolved_of_le (hthere : (s.metadata? d).isSome = true → (t.metadata? d).isSome = true)
    (hoperands : ∀ n', t.node? d = some n' → ∃ n, s.node? d = some n ∧ n'.operands = n.operands)
    (htemporary : ∀ e, s.isTemporary e = false → t.isTemporary e = false)
    (h : s.isResolved d = true) : t.isResolved d = true := by
  obtain ⟨hd, hself, hall⟩ := isResolved_iff.1 h
  refine isResolved_iff.2 ⟨hthere hd, htemporary d hself, fun n' hn' target htarget => ?_⟩
  obtain ⟨n, hn, heq⟩ := hoperands n' hn'
  exact htemporary target (hall n hn target (heq ▸ htarget))

/-! ## Reading

Callers count operands with 32 bits and get a slot for each. A node with fewer than two to the 32
operands has a slot for every one of them. -/

/-- A slot below the number of operands is handed out, and the operand is read from it. -/
theorem readSlot_operandSlot {d : Ref .metadata} {index : UInt32}
    (hn : s.node? (some d) = some n) (hlt : index.toNat < n.operands.length) :
    s.operandSlot (some d) index = .ok (some ⟨d, index.toNat⟩) ∧
      s.readSlot (some ⟨d, index.toNat⟩) = n.operands[index.toNat] := by
  refine ⟨operandSlot_of_hasSlot ⟨n, hn, hlt⟩, ?_⟩
  rw [readSlot_of_node (x := ⟨d, index.toNat⟩) hn, List.getElem?_eq_getElem hlt]
  rfl

/-- The operands of metadata, if it is a node, are what is read from its slots. -/
theorem forall_operands_iff {d : Ref .metadata}
    (hshort : ∀ n, s.node? (some d) = some n → n.operands.length < 4294967296)
    (p : Handle .metadata → Prop) :
    (∀ n, s.node? (some d) = some n → ∀ target ∈ n.operands, p target) ↔
      ∀ index, index < s.operandCount (some d) →
        ∃ slot, s.operandSlot (some d) index = .ok slot ∧ p (s.readSlot slot) := by
  cases hn : s.node? (some d) with
  | none => simp [operandCount, hn]
  | some n =>
    -- the number of operands fits into 32 bits, so callers get to know it
    have hlt : n.operands.length < 4294967296 := hshort n hn
    have hcount : (s.operandCount (some d)).toNat = n.operands.length := by
      rw [operandCount, hn]
      exact toNat_count32 hlt
    constructor
    · intro hall index hindex
      rw [UInt32.lt_iff_toNat_lt, hcount] at hindex
      obtain ⟨hslot, hoperand⟩ := readSlot_operandSlot hn hindex
      refine ⟨_, hslot, ?_⟩
      rw [hoperand]
      exact hall n rfl _ (List.getElem_mem hindex)
    · rintro hall n' heq target htarget
      obtain rfl : n = n' := Option.some.inj heq
      obtain ⟨i, hi, rfl⟩ := List.getElem_of_mem htarget
      -- every index fits into 32 bits
      have hword : (UInt32.ofNat i).toNat = i := UInt32.toNat_ofNat_of_lt' (Nat.lt_trans hi hlt)
      -- the operand is one that callers ask for
      obtain ⟨slot, hslot, hp⟩ := hall (UInt32.ofNat i) (by
        rw [UInt32.lt_iff_toNat_lt, hcount, hword]
        exact hi)
      obtain ⟨hslot', hoperand⟩ := readSlot_operandSlot hn (hword.symm ▸ hi)
      obtain rfl := Except.ok.inj (hslot.symm.trans hslot')
      rw [hoperand] at hp
      simpa only [hword] using hp

/-! ## Changes

Both changes are made on a single node, by a function of it. What matters is what the function
does to the storage of the node. -/

/-- A change of a node leaves all metadata where it is. -/
theorem isSome_metadata?_onNode (s : Store) (e : Ref .metadata) (f : Node → Node)
    (d : Handle .metadata) :
    ((s.onNode e f).metadata? d).isSome = (s.metadata? d).isSome := by
  cases d with
  | none => rfl
  | some d => simp [metadata?, get?_onNode]

/-- A change that makes no node temporary makes no placeholder, -/
theorem isTemporary_onNode_of_le {f : Node → Node}
    (hf : ∀ n, (f n).storage = .temporary → n.storage = .temporary)
    (h : s.isTemporary d = false) : (s.onNode e f).isTemporary d = false := by
  cases d with
  | none => rfl
  | some d =>
    rw [isTemporary_eq_false_iff] at h ⊢
    intro n' hn'
    rw [node?_onNode] at hn'
    obtain ⟨n, hn, rfl⟩ := Option.map_eq_some_iff.1 hn'
    split
    · exact fun htemporary => h n hn (hf n htemporary)
    · exact h n hn

/-- and one that leaves storages alone neither makes one nor ends one. -/
theorem isTemporary_onNode {f : Node → Node} (hf : ∀ n, (f n).storage = n.storage)
    (d : Handle .metadata) : (s.onNode e f).isTemporary d = s.isTemporary d := by
  cases d with
  | none => rfl
  | some d =>
    unfold isTemporary hasStorage
    rw [node?_onNode]
    cases s.node? (some d) with
    | none => rfl
    | some n =>
      by_cases hde : d = e
      · simp [hde, hf]
      · simp [hde]

/-- Whatever is resolved stays resolved when a node is made shared. -/
theorem isResolved_makeUniqued (e : Ref .metadata) (h : s.isResolved d = true) :
    (s.makeUniqued e).2.isResolved d = true := by
  rw [makeUniqued_eq]
  refine isResolved_of_le (fun hd => ?_) (fun n' hn' => ?_)
    (fun _ => isTemporary_onNode_of_le nofun) h
  · rwa [isSome_metadata?_onNode]
  · cases d with
    | none => cases hn'
    | some d =>
      rw [node?_onNode] at hn'
      obtain ⟨n, hn, rfl⟩ := Option.map_eq_some_iff.1 hn'
      exact ⟨n, hn, by split <;> rfl⟩

/-- Storing an operand in a node matters to the resolution of no other metadata. -/
theorem isResolved_onNode_of_ne {f : Node → Node} (hf : ∀ n, (f n).storage = n.storage)
    (hne : d ≠ some e) : (s.onNode e f).isResolved d = s.isResolved d := by
  have hnode : (s.onNode e f).node? d = s.node? d := by
    cases d with
    | none => rfl
    | some d =>
      have hde : d ≠ e := fun heq => hne (heq ▸ rfl)
      simp [node?_onNode, hde]
  rw [Bool.eq_iff_iff, isResolved_iff, isResolved_iff, hnode]
  simp only [isSome_metadata?_onNode, isTemporary_onNode hf]

/-! ## What callers can rely on -/

/-- What callers see of resolution, and what they can do to it. -/
structure ResolutionLocal (s : Store) : Prop where
  /-- Metadata is resolved exactly if it is there, is no placeholder, and no slot of it has one. -/
  read : ∀ d : Handle .metadata, (∀ r ∈ d, s.metadata.contains r = true) →
    (∀ n, s.node? d = some n → n.operands.length < 4294967296) →
    (cBool (s.isResolved d) = 1 ↔ d ≠ none ∧ cBool (s.isTemporary d) = 0 ∧
      ∀ index, index < s.operandCount d → ∃ slot, s.operandSlot d index = .ok slot ∧
        (s.readSlot slot = none ∨ cBool (s.isTemporary (s.readSlot slot)) = 0))
  /-- Nothing becomes unresolved when a node is made shared. -/
  uniqued : ∀ e d, cBool (s.isResolved d) = 1 → cBool ((s.makeUniqued e).2.isResolved d) = 1
  /-- Storing an operand matters to nothing but the node it is stored in. -/
  stored : ∀ e index target, ∃ t, s.setOperand e index target = .ok t ∧
    ∀ d, d ≠ e → t.isResolved d = s.isResolved d
  /-- Where there are no placeholders, everything is resolved. -/
  settled : (∀ r, cBool (s.isTemporary (some r)) = 0) →
    ∀ r, s.metadata.contains r = true → cBool (s.isResolved (some r)) = 1

/-- **Resolution is local**, in whatever state metadata is, with circles in it or not.

Whether a node is resolved is read off its own slots: it looks one step far and never follows an
operand, so there is no induction here, and a node in a circle is resolved like any other.  What has
to be seen to is that all slots are read, also when they are counted in 32 bits. -/
theorem resolution_is_local (s : Store) : s.ResolutionLocal where
  read d hlive hshort := by
    simp only [cBool_eq_one_iff, cBool_eq_zero_iff, isResolved_iff]
    cases d with
    | none => simp [metadata?]
    | some d =>
      have hd : (s.metadata? (some d)).isSome = true := hlive d rfl
      -- the null operand is no placeholder either
      have hnull (target : Handle .metadata) :
          (target = none ∨ s.isTemporary target = false) ↔ s.isTemporary target = false :=
        or_iff_right_of_imp (by rintro rfl; rfl)
      simp only [hnull, forall_operands_iff hshort fun target => s.isTemporary target = false, hd,
        true_and, ne_eq, reduceCtorEq, not_false_eq_true]
  uniqued e d := by
    simp only [cBool_eq_one_iff]
    exact isResolved_makeUniqued e
  stored e index target := by
    cases e with
    | none => exact ⟨s, rfl, fun _ _ => rfl⟩
    | some e =>
      exact ⟨_, s.setOperand_eq e index target, fun d => isResolved_onNode_of_ne fun _ => rfl⟩
  settled hnone r hr := by
    simp only [cBool_eq_one_iff, cBool_eq_zero_iff] at hnone ⊢
    have hall (target : Handle .metadata) : s.isTemporary target = false := by
      cases target with
      | none => rfl
      | some r => exact hnone r
    exact isResolved_iff.2 ⟨hr, hall _, fun _ _ target _ => hall target⟩

/-- A placeholder and a node that have each other as operands, and a string. -/
def circle : Store :=
  [.mdNode .temporary [some ⟨1⟩], .mdNode .distinct [some ⟨0⟩, none, some ⟨2⟩], .mdString "a"].foldl
    (·.edit Host.soleContext) Host.opened.store

/-- The node waits for the placeholder, and everything is resolved once that is made shared. -/
theorem circle_settled :
    circle.isResolved (some ⟨1⟩) = false ∧
      ∀ r, circle.metadata.contains r = true →
        cBool ((circle.makeUniqued ⟨0⟩).2.isResolved (some r)) = 1 := by
  have hnone : ∀ r, cBool ((circle.makeUniqued ⟨0⟩).2.isTemporary (some r)) = 0 := by
    rintro ⟨_ | _ | _ | _⟩ <;> rfl
  refine ⟨rfl, fun r hr => ?_⟩
  have hthere : (circle.makeUniqued ⟨0⟩).2.metadata.contains r = true := by
    exact (circle.isSome_metadata?_onNode ⟨0⟩ _ (some r)).trans hr
  exact (resolution_is_local (circle.makeUniqued ⟨0⟩).2).settled hnone r hthere

end Store

end ForeignHandles
