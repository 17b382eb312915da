import ForeignHandles.Proofs.Arena
import ForeignHandles.Store.Metadata

/-!
  Nodes of metadata and their operand slots.

  The guarded operation on operands looks at the handle and at the index before it does anything,
  but what it does can be said in one way: it changes one node by a function on nodes (`onNode`),
  which does nothing past the end (`setOperand_eq`).  Making a node shared is another such change.
  What such a change does to the rest of the store is then nobody's concern any more.

  A node is reached by a reference, and whether there is one is not known beforehand: the reference
  may be dead, or name a string or a wrapper. All these cases are the same here, since `onNode` does
  nothing in any of them. So two changes are equal as soon as they agree on the node that is there
  (`onNode_congr`), and a change that does nothing to that node does nothing at all
  (`onNode_eq_self`). These two lemmas are all that is needed to see that a store past the end and a
  store into nothing are the same as no store.

  The last section is about reading. A slot is a node and an index; it is handed out for an index
  that is in range and for no other, and it reads whatever the node has there now.
-/
namespace ForeignHandles

namespace Metadata

variable {m : Metadata} {f g : Node → Node}

/-- The node of what is changed is the node, changed; what has no node has none afterwards. -/
theorem node?_mapNode (f : Node → Node) (m : Metadata) :
    (m.mapNode f).node? = m.node?.map f := by
  cases hb : m.body <;> simp [mapNode, node?, hb]

/-- A change of nodes leaves the text of strings alone. -/
theorem string?_mapNode (f : Node → Node) (m : Metadata) : (m.mapNode f).string? = m.string? := by
  cases hb : m.body <;> simp [mapNode, string?, hb]

/-- Redirecting uses moves the target of wrappers, and no operand of a node. -/
theorem node?_redirect (old : Ref .value) (new : Handle .value) (m : Metadata) :
    (m.redirect old new).node? = m.node? := by
  unfold redirect node?
  cases hb : m.body with
  | value target isLocal => by_cases h : target = some old <;> simp [h, hb]
  | _ => simp [hb]

/-- Nor does it touch the text of a string. -/
theorem string?_redirect (old : Ref .value) (new : Handle .value) (m : Metadata) :
    (m.redirect old new).string? = m.string? := by
  unfold redirect string?
  cases hb : m.body with
  | value target isLocal => by_cases h : target = some old <;> simp [h, hb]
  | _ => simp [hb]

/-- Metadata stays in its context when uses are redirected. -/
theorem context_redirect (old : Ref .value) (new : Handle .value) (m : Metadata) :
    (m.redirect old new).context = m.context := by
  unfold redirect
  split
  · split <;> rfl
  · rfl

/-- Only the value of a change at the node that is there matters. -/
theorem mapNode_congr (h : ∀ n, m.node? = some n → f n = g n) : m.mapNode f = m.mapNode g := by
  cases hb : m.body with
  | node n => simp only [mapNode, hb, h n (by simp [node?, hb])]
  | _ => simp only [mapNode, hb]

/-- A change that leaves the node as it is leaves the metadata as it is. This is the case of two
changes that agree, the other one being the identity. -/
theorem mapNode_eq_self (h : ∀ n, m.node? = some n → f n = n) : m.mapNode f = m := by
  rw [mapNode_congr (g := id) h]
  obtain ⟨c, body⟩ := m
  cases body <;> rfl

end Metadata

namespace Store

variable {s : Store} {d e : Ref .metadata} {n : Node} {f g : Node → Node} {x : Slot}

/-! ## Changing a node -/

/-- Changes a node, if it is there. -/
def onNode (s : Store) (d : Ref .metadata) (f : Node → Node) : Store :=
  { s with metadata := s.metadata.modify d (·.mapNode f) }

/-- What is found after a change of one node: that node changed, and everything else as before. -/
theorem get?_onNode (s : Store) (d e : Ref .metadata) (f : Node → Node) :
    (s.onNode d f).metadata.get? e =
      (s.metadata.get? e).map (fun m => if e = d then m.mapNode f else m) := by
  rw [onNode, Arena.get?_modify]
  split <;> simp

/-- The same for nodes, through the handle by which they are reached. -/
theorem node?_onNode (s : Store) (d e : Ref .metadata) (f : Node → Node) :
    (s.onNode d f).node? (some e) =
      (s.node? (some e)).map (fun n => if e = d then f n else n) := by
  simp only [node?, metadata?, Option.bind_some, get?_onNode]
  cases s.metadata.get? e with
  | none => rfl
  | some m =>
    by_cases he : e = d
    · simp [he, m.node?_mapNode f]
    · simp [he]

/-- Metadata that is there has the node that it has. -/
theorem node?_of_get? {m : Metadata} (hd : s.metadata.get? d = some m) :
    s.node? (some d) = m.node? := by
  rw [node?, metadata?, Option.bind_some, hd, Option.bind_some]

/-- A dead reference has no node. -/
theorem node?_of_none (hd : s.metadata.get? d = none) : s.node? (some d) = none := by
  rw [node?, metadata?, Option.bind_some, hd, Option.bind_none]

/-- Whether the reference is dead and whether it names a node are two questions with one answer. -/
theorem node?_eq_join (s : Store) (d : Ref .metadata) :
    s.node? (some d) = ((s.metadata.get? d).map Metadata.node?).join := by
  cases hd : s.metadata.get? d with
  | none => exact node?_of_none hd
  | some m => exact node?_of_get? hd

/-- Two changes that agree on the node that is there have the same effect on the store. -/
theorem onNode_congr (h : ∀ n, s.node? (some d) = some n → f n = g n) :
    s.onNode d f = s.onNode d g := by
  have hmodify : s.metadata.modify d (·.mapNode f) = s.metadata.modify d (·.mapNode g) :=
    Arena.modify_congr fun m hm =>
      Metadata.mapNode_congr fun n hn => h n ((node?_of_get? hm).trans hn)
  rw [onNode, onNode, hmodify]

/-- A change that does nothing to the node that is there does nothing to the store; so does a
change of a node that is not there. -/
theorem onNode_eq_self (h : ∀ n, s.node? (some d) = some n → f n = n) : s.onNode d f = s := by
  have hmodify : s.metadata.modify d (·.mapNode f) = s.metadata :=
    Arena.modify_eq_self fun m hm =>
      Metadata.mapNode_eq_self fun n hn => h n ((node?_of_get? hm).trans hn)
  rw [onNode, hmodify]

/-- Making a node shared changes where it is kept and nothing else of it. -/
theorem makeUniqued_eq (s : Store) (d : Ref .metadata) :
    (s.makeUniqued d).2 = s.onNode d (fun n => { n with storage := .uniqued }) := rfl

/-- **A guarded store of an operand is a change of one node.** It never faults, and since storing
past the end of a list does nothing either, the guard on the index need not be seen from outside. -/
theorem setOperand_eq (s : Store) (d : Ref .metadata) (index : UInt32)
    (target : Handle .metadata) : s.setOperand (some d) index target =
      .ok (s.onNode d (fun n => { n with operands := n.operands.set index.toNat target })) := by
  cases hn : s.node? (some d) with
  | none =>
    -- without a node there is nothing to change, and the guard says so too
    rw [onNode_eq_self (by simp [hn])]
    simp only [setOperand, hn]
  | some n =>
    by_cases hlt : index.toNat < n.operands.length
    -- the operation stores the whole node that it has read; that node is the one that is there
    · have hset : s.onNode d (fun _ => { n with operands := n.operands.set index.toNat target }) =
          s.onNode d (fun n => { n with operands := n.operands.set index.toNat target }) :=
        onNode_congr fun n' hn' => by
          obtain rfl : n = n' := by simpa [hn] using hn'
          rfl
      rw [← hset]
      simp only [setOperand, hn, hlt, if_true, replaceOperand, Node.replaceOperand, Except.map,
        onNode]
    -- past the end, setting the list changes nothing, so the store is the same
    · have hsame : ∀ n', s.node? (some d) = some n' →
          { n' with operands := n'.operands.set index.toNat target } = n' := by
        intro n' hn'
        obtain rfl : n = n' := by simpa [hn] using hn'
        rw [List.set_eq_of_length_le (Nat.not_lt.1 hlt)]
      rw [onNode_eq_self hsame]
      simp only [setOperand, hn, hlt, if_false]

/-- Whatever is asked for, one node changes at most. -/
theorem setOperand_cases (s : Store) (d : Handle .metadata) (index : UInt32)
    (target : Handle .metadata) :
    ∃ t, s.setOperand d index target = .ok t ∧ (t = s ∨ ∃ x f, t = s.onNode x f) := by
  cases d with
  | none => exact ⟨s, rfl, .inl rfl⟩
  | some d => exact ⟨_, s.setOperand_eq d index target, .inr ⟨d, _, rfl⟩⟩

/-! ## Slots -/

/-- A slot that is there: one of a node, below the number of its operands. Whether it is depends
on the node alone, and the number of operands of a node never changes. -/
def HasSlot (s : Store) (x : Slot) : Prop :=
  ∃ n, s.node? (some x.node) = some n ∧ x.index < n.operands.length

/-- An index in range is answered with its slot, whatever is stored there, even if that is
nothing. -/
theorem operandSlot_of_hasSlot {index : UInt32} (h : s.HasSlot ⟨d, index.toNat⟩) :
    s.operandSlot (some d) index = .ok (some ⟨d, index.toNat⟩) := by
  obtain ⟨n, hn, hlt⟩ := h
  simp only at hn hlt
  simp [operandSlot, hn, hlt, Node.operand, Except.map]

/-- Any other index is answered with no slot, and so is a handle that names no node. -/
theorem operandSlot_of_not_hasSlot {index : UInt32} (h : ¬ s.HasSlot ⟨d, index.toNat⟩) :
    s.operandSlot (some d) index = .ok none := by
  cases hn : s.node? (some d) with
  | none => simp only [operandSlot, hn]
  | some n =>
    have hge : ¬ index.toNat < n.operands.length := fun hlt => h ⟨n, hn, hlt⟩
    simp only [operandSlot, hn, hge, if_false]

/-- A slot reads what its node has at the index now; it is a view and not a copy. -/
theorem readSlot_of_node (hn : s.node? (some x.node) = some n) :
    s.readSlot (some x) = n.operands[x.index]?.join := by
  cases hx : n.operands[x.index]? <;> simp [readSlot, hn, hx]

end Store

end ForeignHandles
