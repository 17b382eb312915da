import ForeignHandles.Proofs.Store.Rewire

/-!
  Aliases and wrappers, and whom an edit makes them use.

  An edit makes at most one user.  It is a new one: nobody referred to it before
  (`Change.made`).  All others have the target that they had (`Change.target?_eq`).

  Both kinds of users are treated alike. An alias has its target in its record, and a wrapper has it
  in its body; `Store.target?` reads either. What differs is when a user may be made: an alias is
  made for a global that is there (`Change.alias_of_global`), while nobody checks the value that a
  wrapper is asked for, and callers have to see to it that it is there (`contains_of_uses`).

  These are the facts that the record of uses in the host rests on: the host notes a use for each
  user made, and none for anything else that an edit does.
-/
namespace ForeignHandles

/-- Whether a user was there at some time. -/
def User.Known (s : Store) : User → Prop
  | .globalAlias v => v.index < s.values.next
  | .wrapper d => d.index < s.metadata.next

namespace Store

variable {c : Ref .context} {s t : Store} {home : Handle .module}
  {users : List (User × Ref .value)}

/-- The target of an alias is that of its record. -/
theorem target?_alias {v : Ref .value} {x : Value} (hv : s.values.get? v = some x) :
    s.target? (.globalAlias v) = x.target? := by
  rw [target?, hv]
  rfl

/-- Who has a target is there. -/
theorem known_of_target? {u : User} {a : Handle .value} (h : s.target? u = some a) :
    u.Known s := by
  cases u with
  | globalAlias v =>
    obtain ⟨x, hx, -⟩ := Option.bind_eq_some_iff.1 h
    exact s.values.bounded _ ((s.values.mem_items_iff v x).2 hx)
  | wrapper d =>
    obtain ⟨x, hx, -⟩ := Option.bind_eq_some_iff.1 h
    exact s.metadata.bounded _ ((s.metadata.mem_items_iff d x).2 hx)

/-- Values that are free are no aliases, so growing makes no user. -/
theorem Grows.target? (h : Grows c s t) (u : User) : t.target? u = s.target? u := by
  cases u with
  | wrapper d => exact h.wrappers d
  | globalAlias v =>
    cases hx : s.values.get? v with
    | some x =>
      obtain ⟨y, hy, hlinks⟩ := h.kept hx
      rw [target?_alias hx, target?_alias hy]
      exact (Value.links_eq_iff.1 hlinks).2.2.2
    | none =>
      -- a value that was not there before is free
      have hleft : t.target? (.globalAlias v) = none := by
        cases hy : t.values.get? v with
        | none =>
          rw [Store.target?, hy]
          rfl
        | some y =>
          have hglobal := (h.fresh hy hx).2.2.2
          rw [target?_alias hy]
          refine Value.target?_eq_none fun hkind => ?_
          rw [Value.isGlobal, hkind] at hglobal
          cases hglobal
      rw [hleft, Store.target?, hx]
      rfl

namespace Change

/-- Numbers are not given back, so whoever was known stays known. -/
theorem known (h : Change c s home users t) {u : User} (hu : u.Known s) : u.Known t := by
  cases u with
  | globalAlias v => exact Nat.lt_of_lt_of_le hu h.next
  | wrapper d => exact Nat.lt_of_lt_of_le hu h.nextMetadata

/-- Who is not made by an edit has the target from before. -/
theorem target?_eq (h : Change c s home users t) {u : User} (hu : ∀ a, (u, a) ∉ users) :
    t.target? u = s.target? u := by
  cases h with
  -- growing makes no user
  | grow hgrow => exact hgrow.target? u
  | @link w m z name body list _ hhome hgrow hm hlist husers =>
    rw [← hgrow.target? u]
    cases u with
    | wrapper d => rfl
    | globalAlias v =>
      by_cases hv : v = (w.adopt m z.context name body list).1
      · -- the new global is no alias, or it would be among the users made
        have hbefore : w.target? (.globalAlias v) = none := by
          rw [hv, Store.target?, get?_adopted]
          rfl
        rw [hbefore, target?_alias (by rw [get?_values_adopt, if_pos hv])]
        cases husers with
        | globalAlias ha hglobal => exact absurd List.mem_cons_self (hv ▸ hu _)
        | other hglobal hkind => exact Value.target?_eq_none hkind
      · simp only [Store.target?, get?_values_adopt, if_neg hv]
  -- a global that is taken out of its module keeps what it stands for
  | @unlink m z w hm hw =>
    rw [removeGlobalVariable_eq hm hw]
    cases u with
    | wrapper d => rfl
    | globalAlias v =>
      simp only [Store.target?, Arena.get?_modify]
      split
      · cases s.values.get? v <;> rfl
      · rfl
  | found name => cases u <;> rfl
  | wrap context w isLocal =>
    cases u with
    | globalAlias v => rfl
    | wrapper d =>
      -- the wrapper in question is not the one that is made
      have hd : d ≠ (s.addMetadata context (.value (some w) isLocal)).1 := by
        rintro rfl
        exact hu w List.mem_cons_self
      have hget : (s.addMetadata context (.value (some w) isLocal)).2.metadata.get? d =
          s.metadata.get? d := (Arena.get?_alloc ..).trans (if_neg hd)
      rw [Store.target?, Store.target?, hget]

/-- The user that an edit makes is the only one, is new, and has the value it is made for. -/
theorem made (h : Change c s home users t) {u : User} {a : Ref .value} (hu : (u, a) ∈ users) :
    users = [(u, a)] ∧ ¬ u.Known s ∧ u.Known t ∧ t.target? u = some (some a) := by
  cases h with
  | @link w m z name body list _ hhome hgrow hm hlist husers =>
    cases husers with
    | other hglobal hkind => cases hu
    | @globalAlias b x hb hglobal =>
      obtain ⟨rfl, rfl⟩ := Prod.mk.inj (List.mem_singleton.1 hu)
      have htarget : (w.adopt m z.context name (.globalAlias (some a)) list).2.target?
          (.globalAlias (w.adopt m z.context name (.globalAlias (some a)) list).1) = some (some a) := by
        rw [target?_alias (by rw [get?_values_adopt, if_pos rfl])]
        rfl
      refine ⟨rfl, ?_, known_of_target? htarget, htarget⟩
      -- the number of a new alias has not been given out before
      exact Nat.not_lt.2 hgrow.next
  | wrap context w isLocal =>
    obtain ⟨rfl, rfl⟩ := Prod.mk.inj (List.mem_singleton.1 hu)
    have hget : (s.addMetadata context (.value (some a) isLocal)).2.metadata.get?
        (s.addMetadata context (.value (some a) isLocal)).1 =
          some { context, body := .value (some a) isLocal } :=
      (Arena.get?_alloc ..).trans (if_pos rfl)
    have htarget : (s.addMetadata context (.value (some a) isLocal)).2.target?
        (.wrapper (s.addMetadata context (.value (some a) isLocal)).1) = some (some a) := by
      rw [Store.target?, hget]
      rfl
    -- nor has that of a new wrapper
    exact ⟨rfl, Nat.lt_irrefl _, known_of_target? htarget, htarget⟩
  | _ => cases hu

/-- An alias is made for a global. -/
theorem alias_of_global (h : Change c s home users t) {v a : Ref .value}
    (hu : (.globalAlias v, a) ∈ users) : ∃ x, t.values.get? a = some x ∧ x.isGlobal = true := by
  cases h with
  | @link w m z name body list _ hhome hgrow hm hlist husers =>
    cases husers with
    | other hglobal hkind => cases hu
    | @globalAlias b x hb hglobal =>
      obtain ⟨-, rfl⟩ := Prod.mk.inj (List.mem_singleton.1 hu)
      refine ⟨x, ?_, hglobal⟩
      -- an alias cannot stand for itself: what it stands for was there before it
      rw [get?_values_adopt, if_neg]
      · exact hb
      · intro heq
        rw [heq, get?_adopted] at hb
        cases hb
  | wrap context w isLocal => cases (Prod.mk.inj (List.mem_singleton.1 hu)).1
  | _ => cases hu

end Change

/-- An edit makes users of values that are there, with one exception: whoever asks for a wrapper of
a value has to see to that. -/
theorem contains_of_uses {e : Edit} {u : User} {a : Ref .value} (h : (u, a) ∈ s.uses c e) :
    s.values.contains a = true ∨ e = .valueAsMetadata a := by
  -- a wrapper uses the value it was asked for
  have hwrapper {d : Ref .metadata} {v : Ref .value} (h : (u, a) ∈ s.newWrapper d v) : a = v := by
    unfold newWrapper at h
    split at h
    · cases h
    · exact (Prod.mk.inj (List.mem_singleton.1 h)).2
  cases e with
  | addGlobalAlias m name aliasee =>
    simp only [uses] at h
    cases hv : s.values.get? aliasee with
    | none =>
      simp only [addGlobalAlias, hv] at h
      cases h
    | some x =>
      left
      have ha : a = aliasee := by
        split at h
        · exact (Prod.mk.inj (List.mem_singleton.1 h)).2
        · cases h
      rw [ha]
      simp [Arena.contains, hv]
  -- this is the exception: a value that has gone gets a wrapper too
  | valueAsMetadata v =>
    right
    rw [hwrapper h]
  | constantAsMetadata v =>
    left
    cases v with
    | none => cases h
    | some v =>
      cases hv : s.values.get? v with
      | none =>
        simp only [uses, constantAsMetadata, value?, Option.bind_some, hv] at h
        cases h
      | some x =>
        have ha : a = v := by
          simp only [uses] at h
          split at h
          · rename_i w d hw hd
            cases hw
            exact hwrapper h
          · cases h
        rw [ha]
        simp [Arena.contains, hv]
  | _ => cases h

end Store

end ForeignHandles
