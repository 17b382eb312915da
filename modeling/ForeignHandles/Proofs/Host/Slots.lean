import ForeignHandles.Proofs.Host.Step
import ForeignHandles.Proofs.Store.MetadataEdit

/-!
  Operand slots over every run of a host.

  A slot is a place in a node and not a copy of what is in it, so whoever has one sees every operand
  that is stored there later, through whichever entry.

  1. **One call** (`slotsSound`).  A slot is handed out for every index in range and for no other, and
     storing an operand changes the one slot that it is stored in.  This holds of every store.

  2. **Runs** (`slots_are_stable_views`).  Metadata stays, and a node keeps its number of operands.
     What a slot reads is the last operand that an action of the run has stored there (`storedIn`);
     the first one is there from the making of the node.
-/
namespace ForeignHandles

/-! ## One call

Whether there is a slot is a question about the node and the index (`HasSlot`), and the four
clauses of `SlotsSound` are the answers of the calls in either case. -/

/-- What callers can rely on when they ask for slots of a store and store operands. -/
structure Store.SlotsSound (s : Store) : Prop where
  /-- There is no slot exactly if the metadata is no node or the index is out of range. -/
  handed : ∀ (d : Handle .metadata) (index : UInt32), ∃ slot, s.operandSlot d index = .ok slot ∧
    (slot = none ↔ ¬ ∃ n, s.node? d = some n ∧ index.toNat < n.operands.length) ∧
    ∀ x ∈ slot, d = some x.node ∧ index.toNat = x.index
  count : ∀ d n, s.node? d = some n → n.operands.length < 4294967296 →
    (s.operandCount d).toNat = n.operands.length
  /-- What is stored in range is the operand there, and nothing else changes.  What is stored
  elsewhere changes nothing at all. -/
  stored : ∀ (d : Handle .metadata) (index : UInt32) target, ∃ t,
    s.setOperand d index target = .ok t ∧
    { t with metadata := s.metadata } = s ∧
    (∀ e, d ≠ some e → t.metadata.get? e = s.metadata.get? e) ∧
    (∀ n, s.node? d = some n →
      t.node? d = some { n with operands := n.operands.set index.toNat target }) ∧
    ((¬ ∃ n, s.node? d = some n ∧ index.toNat < n.operands.length) → t = s)

/-- All of it holds of every store. -/
theorem Store.slotsSound (s : Store) : s.SlotsSound where
  handed d index := by
    cases d with
    | none => exact ⟨none, rfl, by simp [node?, metadata?], by simp⟩
    | some d =>
      -- there is a slot at every index of the node, and nowhere else
      by_cases hslot : s.HasSlot ⟨d, index.toNat⟩
      · refine ⟨_, operandSlot_of_hasSlot hslot, iff_of_false (by simp) (not_not.2 hslot), ?_⟩
        rintro x ⟨⟩
        exact ⟨rfl, rfl⟩
      · exact ⟨none, operandSlot_of_not_hasSlot hslot, iff_of_true rfl hslot, by simp⟩
  count d n hn hlt := by
    rw [operandCount, hn]
    exact toNat_count32 hlt
  stored d index target := by
    cases d with
    | none => exact ⟨s, rfl, rfl, fun _ _ => rfl, by simp [node?, metadata?], fun _ => rfl⟩
    | some d =>
      refine ⟨_, s.setOperand_eq d index target, rfl, fun e he => ?_, fun n hn => ?_, fun hno => ?_⟩
      -- three things to see: other metadata, the node itself, and what is stored out of range
      · have hne : e ≠ d := fun heq => he (heq ▸ rfl)
        simp [get?_onNode, hne]
      · simp [node?_onNode, hn]
      · refine onNode_eq_self fun n hn => ?_
        have hge : ¬ index.toNat < n.operands.length := fun hlt => hno ⟨n, hn, hlt⟩
        rw [List.set_eq_of_length_le (Nat.not_lt.1 hge)]

namespace Host

variable {h : Host} {d : Ref .metadata} {n : Node} {x : Store.Slot} {a : Action}

/-! ## Actions

Two actions put operands into slots: storing one, and making the node. All others leave every
operand where it is; what making a node shared does to it does not concern its operands. -/

/-- What an action makes of a node. -/
def Action.onNode (d : Ref .metadata) : Action → Node → Node
  | .edit e => e.onNode d
  | _ => id

/-- The operand that an action stores in a slot, if it stores one there. -/
def storedIn (x : Store.Slot) (h : Host) : Action → List (Handle .metadata)
  | .edit (.setOperand d index target) =>
    if d = some x.node ∧ index.toNat = x.index then [target] else []
  | .edit (.mdNode storage operands) =>
    if (h.store.mdNode soleContext storage operands).1 = x.node then operands[x.index]?.toList
    else []
  | _ => []

/-- No action changes the number of operands of a node. -/
theorem Action.length_onNode (d : Ref .metadata) (a : Action) (n : Node) :
    (a.onNode d n).operands.length = n.operands.length := by
  cases a with
  | edit e => exact e.length_onNode d n
  | _ => rfl

/-- Nothing is stored in the slots of metadata that is there but by storing an operand. -/
theorem storedIn_of_ne {e : Edit} (hd : h.store.metadata.contains x.node = true)
    (he : ∀ index target, e ≠ .setOperand (some x.node) index target) :
    storedIn x h (.edit e) = [] := by
  cases e with
  | setOperand d index target =>
    refine if_neg fun hx => he index target ?_
    rw [hx.1]
  | mdNode storage operands =>
    refine if_neg fun hnew => ?_
    have hnone := h.store.metadata.get?_alloc_fst
      { context := soleContext, body := .node ⟨storage, operands⟩ }
    obtain ⟨m, hm⟩ := Option.isSome_iff_exists.1 hd
    rw [← hnew] at hm
    cases hnone.symm.trans hm
  | _ => rfl

/-- What is in a slot after an action is what the action stores there, or else what was in it. -/
theorem operand_onNode {target : Handle .metadata}
    (hd : h.store.metadata.contains x.node = true) (hn : n.operands[x.index]? = some target)
    (a : Action) :
    (a.onNode x.node n).operands[x.index]? = some ((storedIn x h a).getLast?.getD target) := by
  have hlt : x.index < n.operands.length := (List.getElem?_eq_some_iff.1 hn).1
  cases a with
  | edit e =>
    rcases e.operands_onNode x.node n with ⟨index, target', rfl, hset⟩ | ⟨he, hsame⟩
    · rw [Action.onNode, hset, storedIn]
      by_cases hindex : index.toNat = x.index
      · simp [hindex, hlt]
      · simp [hindex, hn]
    · rw [Action.onNode, hsame, storedIn_of_ne hd he, hn]
      rfl
  | _ => exact hn

/-- Metadata stays, -/
theorem contains_metadata_act (hs : h.Sole) (hd : h.store.metadata.contains d = true) (a : Action) :
    (h.act a).store.metadata.contains d = true := by
  obtain ⟨m, hm⟩ := Option.isSome_iff_exists.1 hd
  obtain ⟨e, rfl⟩ | ha := a.eq_edit_or_ne
  · exact Option.isSome_iff_exists.2 ⟨_, Store.get?_metadata_edit hm soleContext e⟩
  · have hsame : ((h.act a).store.metadata.get? d).map (fun _ => ()) =
        (h.store.metadata.get? d).map (fun _ => ()) := metadata_act (fun _ _ _ => rfl) hs ha d
    rw [hm, Option.map_some] at hsame
    obtain ⟨m', hm', -⟩ := Option.map_eq_some_iff.1 hsame
    exact Option.isSome_iff_exists.2 ⟨m', hm'⟩

/-- Besides edits, no action does anything to a node. -/
theorem node?_act_of_ne (hs : h.Sole) (ha : ∀ e, a ≠ .edit e) (d : Ref .metadata) :
    (h.act a).store.node? (some d) = h.store.node? (some d) := by
  rw [Store.node?_eq_join, Store.node?_eq_join, metadata_act Metadata.node?_redirect hs ha d]

/-- and what an action makes of a node is said by `Action.onNode`. -/
theorem node?_act (hs : h.Sole) (hd : h.store.metadata.contains d = true) (a : Action) :
    (h.act a).store.node? (some d) = (h.store.node? (some d)).map (a.onNode d) := by
  obtain ⟨m, hm⟩ := Option.isSome_iff_exists.1 hd
  cases a with
  | edit e =>
    rw [Store.node?_of_get? hm]
    exact (Store.node?_of_get? (Store.get?_metadata_edit hm soleContext e)).trans
      (m.node?_mapNode _)
  | _ => exact (node?_act_of_ne hs (by simp) d).trans Option.map_id'.symm

/-- A node that was not there before has just been made. -/
theorem made_of_node?_act (hs : h.Sole) (hd : h.store.metadata.get? d = none)
    (hn : (h.act a).store.node? (some d) = some n) :
    a = .edit (.mdNode n.storage n.operands) ∧
      (h.store.mdNode soleContext n.storage n.operands).1 = d := by
  have hnone : h.store.node? (some d) = none := Store.node?_of_none hd
  obtain ⟨e, rfl⟩ | ha := a.eq_edit_or_ne
  · change (h.store.edit soleContext e).node? (some d) = some n at hn
    -- an edit changes nodes that are there, or makes new metadata, or does neither
    rcases h.store.metadata_edit_cases soleContext e with
      ⟨y, f, -, heq⟩ | ⟨-, hsame | ⟨m, -, hnode, hmade⟩⟩
    · rw [heq, Store.node?_onNode, hnone] at hn
      cases hn
    · rw [Store.node?_eq_join, hsame, hd] at hn
      cases hn
    · rw [Store.node?_eq_join, hmade, Arena.get?_alloc] at hn
      split at hn
      · rename_i hnew
        exact ⟨congrArg _ (hnode n hn), hnew.symm⟩
      · rw [hd] at hn
        cases hn
  · rw [node?_act_of_ne hs ha, hnone] at hn
    cases hn

/-! ## Runs

What was stored in a slot is gathered along the run. The induction is on the run, and a step is
one of two kinds: the node was there before, or it has just been made. -/

/-- Metadata stays, and a node keeps its number of operands. -/
theorem length_operands_run (hs : h.Sole) (hd : h.store.metadata.contains d = true)
    (actions : List Action) : (h.run actions).store.metadata.contains d = true ∧
      ((h.run actions).store.node? (some d)).map (·.operands.length) =
        (h.store.node? (some d)).map (·.operands.length) := by
  induction actions generalizing h with
  | nil => exact ⟨hd, rfl⟩
  | cons a actions ih =>
    have hrest := ih (sole_of_step (step_act hs a) hs) (contains_metadata_act hs hd a)
    refine ⟨hrest.1, hrest.2.trans ?_⟩
    rw [node?_act hs hd, Option.map_map]
    exact Option.map_congr fun n _ => a.length_onNode d n

/-- A slot that is there stays. -/
theorem hasSlot_run (hs : h.Sole) (hx : h.store.HasSlot x) (actions : List Action) :
    (h.run actions).store.HasSlot x := by
  obtain ⟨n, hn, hlt⟩ := hx
  obtain ⟨m, hm, -⟩ := Option.bind_eq_some_iff.1 hn
  have hd : h.store.metadata.contains x.node = true := Option.isSome_iff_exists.2 ⟨m, hm⟩
  have hlength := (length_operands_run hs hd actions).2
  rw [hn, Option.map_some] at hlength
  obtain ⟨n', hn', heq⟩ := Option.map_eq_some_iff.1 hlength
  exact ⟨n', hn', heq ▸ hlt⟩

/-- A slot reads the operand last stored in it: one step. -/
theorem lastStored_act (hs : h.Sole) {stored : List (Handle .metadata)} (a : Action)
    (hlast : h.store.HasSlot x → stored.getLast? = some (h.store.readSlot (some x)))
    (hx : (h.act a).store.HasSlot x) :
    (stored ++ storedIn x h a).getLast? = some ((h.act a).store.readSlot (some x)) := by
  obtain ⟨n', hn', hlt⟩ := hx
  rw [Store.readSlot_of_node hn']
  cases hd : h.store.metadata.get? x.node with
  | some m =>
    -- the node was there before
    have hthere : h.store.metadata.contains x.node = true := Option.isSome_iff_exists.2 ⟨m, hd⟩
    rw [node?_act hs hthere] at hn'
    obtain ⟨n, hn, rfl⟩ := Option.map_eq_some_iff.1 hn'
    rw [a.length_onNode] at hlt
    have hold := hlast ⟨n, hn, hlt⟩
    rw [Store.readSlot_of_node hn, List.getElem?_eq_getElem hlt] at hold
    rw [operand_onNode hthere (List.getElem?_eq_getElem hlt), List.getLast?_append, hold]
    cases (storedIn x h a).getLast? <;> rfl
  | none =>
    -- the action has made the node, with this operand
    obtain ⟨rfl, hnew⟩ := made_of_node?_act hs hd hn'
    rw [storedIn, if_pos hnew, List.getElem?_eq_getElem hlt]
    simp

/-- A slot reads the operand last stored in it. -/
theorem lastStored_run (actions : List Action) (hx : (opened.run actions).store.HasSlot x) :
    (opened.gather (storedIn x) actions).getLast? =
      some ((opened.run actions).store.readSlot (some x)) := by
  have hany : Along (fun _ _ => True) opened actions :=
    along_of_forall (fun _ _ => trivial) opened actions
  have hstart : opened.store.HasSlot x → ([] : List (Handle .metadata)).getLast? =
      some (opened.store.readSlot (some x)) := by
    rintro ⟨n, hn, -⟩
    cases hn
  have hrun : (opened.run actions).store.HasSlot x →
      ([] ++ opened.gather (storedIn x) actions).getLast? =
        some ((opened.run actions).store.readSlot (some x)) :=
    gather_invariant
      (P := fun h stored => h.store.HasSlot x → stored.getLast? = some (h.store.readSlot (some x)))
      (fun h stored a hs _ hlast => lastStored_act hs a hlast) sole_opened hany hstart
  exact hrun hx

/-- **Operand slots are stable views**, in every state that a run reaches and from then on.

Slots are handed out and operands are stored in their place (`SlotsSound`).  Whatever happens later, a
node keeps its number of operands, and a slot that was handed out reads the operand that was last
stored in it, be it before or after that. -/
theorem slots_are_stable_views (early late : List Action) :
    let s := (opened.run early).store
    let t := (opened.run (early ++ late)).store
    s.SlotsSound ∧
    (∀ d, s.metadata.contains d = true →
      (t.node? (some d)).map (·.operands.length) = (s.node? (some d)).map (·.operands.length) ∧
      t.operandCount (some d) = s.operandCount (some d)) ∧
    ∀ d index x, s.operandSlot d index = .ok (some x) →
      (opened.gather (storedIn x) (early ++ late)).getLast? = some (t.readSlot (some x)) := by
  intro s t
  have hs : (opened.run early).Sole := sole_run sole_opened early
  have hrun : t = ((opened.run early).run late).store := by rw [← run_append]
  refine ⟨s.slotsSound, fun d hd => ?_, fun d index x hslot => ?_⟩
  · have hlength := (length_operands_run hs hd late).2
    rw [← hrun] at hlength
    refine ⟨hlength, ?_⟩
    -- callers are told the number of operands in 32 bits, and it does not change either
    have hcount (u : Store) : u.operandCount (some d) =
        (((u.node? (some d)).map (·.operands.length)).map count32).getD 0 := by
      rw [Option.map_map]
      rfl
    rw [hcount, hcount, hlength]
  · obtain ⟨slot, hok, hnone, hplace⟩ := s.slotsSound.handed d index
    obtain rfl : slot = some x := Except.ok.inj (hok.symm.trans hslot)
    -- the slot was handed out, so it is there
    obtain ⟨n, hn, hlt⟩ := not_not.1 fun hno => nomatch hnone.2 hno
    obtain ⟨rfl, hindex⟩ := hplace x rfl
    have hx : s.HasSlot x := ⟨n, hn, hindex ▸ hlt⟩
    refine lastStored_run (early ++ late) ?_
    rw [run_append]
    exact hasSlot_run hs hx late

/-- A placeholder with two empty slots, a node with the placeholder in it, and a string. -/
def linkedNodes : List Action :=
  [.edit (.mdNode .temporary [none, none]), .edit (.mdNode .distinct [some ⟨0⟩]),
    .edit (.mdString "a")]

/-- The placeholder gets itself as an operand and is made shared; other slots are written, and some
that are not there. -/
def nodeClosed : List Action :=
  [.edit (.setOperand (some ⟨0⟩) 1 (some ⟨1⟩)), .edit (.setOperand (some ⟨0⟩) 1 (some ⟨0⟩)),
    .edit (.makeUniqued ⟨0⟩), .edit (.setOperand (some ⟨1⟩) 0 none),
    .edit (.setOperand (some ⟨0⟩) 2 (some ⟨2⟩)), .edit (.setOperand (some ⟨2⟩) 1 none)]

/-- The slot that was handed out before reads the node itself afterwards. -/
theorem nodeClosed_seen :
    (opened.run linkedNodes).store.operandSlot (some ⟨0⟩) 1 = .ok (some ⟨⟨0⟩, 1⟩) ∧
      (opened.run (linkedNodes ++ nodeClosed)).store.readSlot (some ⟨⟨0⟩, 1⟩) = some ⟨0⟩ ∧
      (opened.run (linkedNodes ++ nodeClosed)).store.operandCount (some ⟨0⟩) = 2 := by
  obtain ⟨-, hkept, hread⟩ := slots_are_stable_views linkedNodes nodeClosed
  have hslot : (opened.run linkedNodes).store.operandSlot (some ⟨0⟩) 1 =
      .ok (some ⟨⟨0⟩, 1⟩) := rfl
  have hlast : (opened.gather (storedIn ⟨⟨0⟩, 1⟩) (linkedNodes ++ nodeClosed)).getLast? =
      some (some ⟨0⟩) := rfl
  refine ⟨hslot, ?_, (hkept ⟨0⟩ rfl).2.trans rfl⟩
  exact Option.some.inj ((hread (some ⟨0⟩) 1 ⟨⟨0⟩, 1⟩ hslot).symm.trans hlast)

end Host

end ForeignHandles
