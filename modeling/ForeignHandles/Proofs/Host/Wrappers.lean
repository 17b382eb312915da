import ForeignHandles.Proofs.Host.Uses
import ForeignHandles.Proofs.Store.MetadataEdit

/-!
  Wrappers of values over every run of a host: of which sort they are, and how many a value has.

  A wrapper is made local or not by the value that it is made for, and only if that value has none.
  Nothing but a replacement gives it another value, and a replacement looks at neither: it
  moves every wrapper of the old value, as it is, onto the new one.

  1. **The sort** (`wrapper_kinds_agree`).  Wrappers are of the sort that their value asks for in
     every state of a run exactly if no wrapped value is ever replaced by a constant when it is
     none, or the other way round (`KeepsSort`).

  2. **The number** (`wrappers_unique`).  No value has two wrappers in any state of a run exactly if
     no wrapped value is ever replaced by one that is wrapped as well (`KeepsApart`).

  For the first part of either, an action is a step of one of four kinds (`Rework`): it leaves
  values and metadata alone, edits, redirects, or releases.  That targets are there (`Tracked`)
  keeps a new value from coming under a wrapper that is there already.
-/
namespace ForeignHandles

/-- The sort of a wrapper of this value. -/
def Value.wrapperKind (x : Value) : MetadataKind :=
  if x.isConstant then .constantAsMetadata else .localAsMetadata

/-- Two values ask for the same sort if both are constants or neither is. -/
theorem Value.wrapperKind_eq_iff {x y : Value} :
    x.wrapperKind = y.wrapperKind ↔ x.isConstant = y.isConstant := by
  unfold wrapperKind
  cases x.isConstant <;> cases y.isConstant <;> simp

/-- That depends on the sort of a value, -/
theorem Value.wrapperKind_of_kind {x y : Value} (h : x.kind = y.kind) :
    x.wrapperKind = y.wrapperKind := by
  rw [wrapperKind_eq_iff, isConstant, isConstant, h]

/-- so redirecting its uses does not change it. -/
theorem Value.wrapperKind_redirect (old : Ref .value) (new : Handle .value) (x : Value) :
    (x.redirect old new).wrapperKind = x.wrapperKind :=
  wrapperKind_of_kind (kind_redirect old new x)

/-- The value of a wrapper is redirected like any target. -/
theorem Metadata.value_redirect (old : Ref .value) (new : Handle .value) (m : Metadata) :
    (m.redirect old new).value = redirected old new m.value := by
  unfold redirect value redirected
  cases hb : m.body with
  | value target isLocal => by_cases h : target = some old <;> simp [h, hb]
  | _ => simp [hb]

namespace Store

/-- Wrappers are of the sort that their value asks for, as long as it is there. -/
def KindsAgree (s : Store) : Prop :=
  ∀ d m v x, s.metadata.get? d = some m → s.wrappedValue (some d) = some v →
    s.values.get? v = some x → m.kind = x.wrapperKind

/-- A value has one wrapper at most. -/
def WrappedOnce (s : Store) (v : Ref .value) : Prop :=
  ∀ d d', s.wrappedValue (some d) = some v → s.wrappedValue (some d') = some v → d = d'

/-- All metadata is in one context. -/
def MetadataIn (c : Ref .context) (s : Store) : Prop :=
  ∀ d m, s.metadata.get? d = some m → m.context = c

variable {s s' : Store}

/-- Redirecting goes over all metadata. -/
theorem get?_metadata_rewire (s : Store) (old : Ref .value) (new : Handle .value)
    (d : Ref .metadata) :
    (s.rewire old new).metadata.get? d = (s.metadata.get? d).map (·.redirect old new) :=
  Arena.get?_map ..

/-- Redirecting the uses of a value moves its wrappers. -/
theorem wrappedValue_rewire (s : Store) (old : Ref .value) (new : Handle .value)
    (d : Ref .metadata) :
    (s.rewire old new).wrappedValue (some d) = redirected old new (s.wrappedValue (some d)) := by
  simp only [wrappedValue, metadata?, Option.bind_some, get?_metadata_rewire]
  cases s.metadata.get? d with
  | none => rfl
  | some m => exact m.value_redirect old new

/-- A release takes a value from all its wrappers. -/
theorem wrappedValue_release (s : Store) (v : Ref .value) (d : Ref .metadata) :
    (s.release v).wrappedValue (some d) = redirected v none (s.wrappedValue (some d)) := by
  simp only [wrappedValue, metadata?, Option.bind_some, get?_metadata_release]
  cases s.metadata.get? d with
  | none => rfl
  | some m => exact m.value_redirect v none

/-- What is redirected to nothing did not refer to the value before. -/
theorem of_redirected_none {v w : Ref .value} {t : Handle .value}
    (h : redirected v none t = some w) : t = some w ∧ w ≠ v := by
  unfold redirected at h
  split at h
  · cases h
  · rename_i hne
    refine ⟨h, ?_⟩
    rintro rfl
    exact hne h

/-! ## Asking for a wrapper

The search takes the first wrapper of the value. If there is only one it is that one, and with two
it depends on their order. -/

/-- Whoever asks for the wrapper of a value gets one that has the value. -/
theorem wrappedValue_valueAsMetadata (s : Store) (c : Ref .context) (v : Ref .value) :
    (s.valueAsMetadata c v).2.wrappedValue (some (s.valueAsMetadata c v).1) = some v := by
  cases h : s.metadata.find? (fun m => m.context = c && m.value == some v) with
  | some d =>
    obtain ⟨m, hd, hm⟩ := Arena.get?_of_find? h
    simp only [valueAsMetadata, h, wrappedValue_of_get? hd]
    simpa using (Bool.and_eq_true_iff.1 hm).2
  | none =>
    have hget : (s.addMetadata c (.value (some v) (!(s.values.get? v).any (·.isConstant)))).2.metadata.get?
        (s.addMetadata c (.value (some v) (!(s.values.get? v).any (·.isConstant)))).1 =
          some ⟨c, .value (some v) (!(s.values.get? v).any (·.isConstant))⟩ :=
      (Arena.get?_alloc ..).trans (if_pos rfl)
    simp only [valueAsMetadata, h, wrappedValue_of_get? hget]
    rfl

/-- A value that has one wrapper gets that one again. -/
theorem valueAsMetadata_of_wrappedOnce {c : Ref .context} (hs : s.MetadataIn c) {v : Ref .value}
    (honce : s.WrappedOnce v) {d : Ref .metadata} (hd : s.wrappedValue (some d) = some v) :
    s.valueAsMetadata c v = (d, s) := by
  cases h : s.metadata.find? (fun m => m.context = c && m.value == some v) with
  | some e =>
    obtain ⟨m, he, hm⟩ := Arena.get?_of_find? h
    have hvalue : s.wrappedValue (some e) = some v := by
      rw [wrappedValue_of_get? he]
      simpa using (Bool.and_eq_true_iff.1 hm).2
    simp only [valueAsMetadata, h, honce e d hvalue hd]
  | none =>
    obtain ⟨m, hm, hvalue⟩ := get?_of_wrappedValue hd
    have hfound := Arena.eq_false_of_find?_eq_none h hm
    simp [hs d m hm, hvalue] at hfound

/-- A constant is wrapped in its own context. -/
theorem constantAsMetadata_of_constant {v : Ref .value} {x : Value} (hv : s.values.get? v = some x)
    (hx : x.isConstant = true) :
    s.constantAsMetadata (some v) =
      (some (s.valueAsMetadata x.context v).1, (s.valueAsMetadata x.context v).2) := by
  simp only [constantAsMetadata, value?, Option.bind_some, hv, hx, if_true]

end Store

namespace Host

/-! ## What an action does to values and metadata

`Step` has twenty ways, of which only four differ in what they do to values and metadata. -/

/-- Every way in which one action can change values and metadata. -/
inductive Rework (s : Store) : Action → Store → Prop where
  | keep (a : Action) {s' : Store} (hvalues : s'.values = s.values)
    (hmetadata : s'.metadata = s.metadata) : Rework s a s'
  | edit {e : Edit} {s' : Store} {users : List (User × Ref .value)}
    (hchange : Store.Change soleContext s e.addsTo? users s')
    (hrecorded : Store.Recorded soleContext s s') : Rework s (.edit e) s'
  | replace {old new : Ref .value} (hne : old ≠ new) (hold : s.values.contains old = true) :
    Rework s (.replaceAllUses old new) (s.rewire old (some new))
  | release (a : Action) (v : Ref .value) : Rework s a (s.release v)

/-- Every step is one of the four, -/
theorem rework_of_step {h h' : Host} {a : Action} {rs : List Record} (hs : h.Sole)
    (hstep : Step h a h' rs) : Rework h.store a h'.store := by
  cases hstep with
  | edit hchange husers hedit =>
    refine .edit hchange ?_
    rw [hedit]
    exact Store.recorded_edit hs.values _
  | replace hne hold => exact .replace hne hold
  | release hfront hv => exact .release _ _
  | vanish hfront hv => exact .release _ _
  | tellCache hfront =>
    rw [store_notify]
    exact .keep _ rfl rfl
  | _ => exact .keep _ rfl rfl

variable {s s' : Store} {a : Action}

/-- and each of them leaves metadata in the context. -/
theorem metadataIn_of_rework (hwork : Rework s a s') (hin : s.MetadataIn soleContext) :
    s'.MetadataIn soleContext := by
  intro d m' hd
  cases hwork with
  | keep a hvalues hmetadata => exact hin d m' (hmetadata ▸ hd)
  | edit hchange hrecorded =>
    rcases hrecorded.origin hd with ⟨m, hm, hcontext, -, -⟩ | ⟨-, hcontext, -, -⟩
    · exact hcontext.trans (hin d m hm)
    · exact hcontext
  | @replace old new hne hold =>
    rw [Store.get?_metadata_rewire] at hd
    obtain ⟨m, hm, rfl⟩ := Option.map_eq_some_iff.1 hd
    exact (m.context_redirect old (some new)).trans (hin d m hm)
  | release a v =>
    rw [Store.get?_metadata_release] at hd
    obtain ⟨m, hm, rfl⟩ := Option.map_eq_some_iff.1 hd
    exact (m.context_redirect v none).trans (hin d m hm)

/-- What a wrapper has is there. -/
theorem Tracked.live_of_wrappedValue {r : List Record} (ht : Tracked s r) {d : Ref .metadata}
    {v : Ref .value} (h : s.wrappedValue (some d) = some v) : s.values.contains v = true :=
  ht.live (Store.wrappedValue_eq_some_iff.1 h)

/-- Everything that is needed of the wrappers of a host from one action to the next. -/
structure Wrapped (h : Host) (r : List Record) : Prop where
  tracked : Tracked h.store r
  context : h.store.MetadataIn soleContext

/-- Every step keeps what is needed, -/
theorem wrapped_of_step {h h' : Host} {r rs : List Record} (hs : h.Sole) (hok : UsesLive h a)
    (hstep : Step h a h' rs) (hw : Wrapped h r) : Wrapped h' (r ++ rs) where
  tracked := tracked_of_step hs hok hstep hw.tracked
  context := metadataIn_of_rework (rework_of_step hs hstep) hw.context

/-- a new host has it, -/
theorem wrapped_opened : Wrapped opened [] where
  tracked := tracked_opened
  context _ _ hd := by cases hd

/-- and so has every run. -/
theorem wrapped_run {actions : List Action} (hok : Along UsesLive opened actions) :
    Wrapped (opened.run actions) (opened.history actions) := by
  refine run_invariant (P := Wrapped) ?_ (r := []) sole_opened hok wrapped_opened
  intro h r a h' rs hs hok hstep hw
  exact wrapped_of_step hs hok hstep hw

/-! ## The sort of a wrapper

The local flag is set when a wrapper is made, from the value that it is made for, and never
written again. A replacement can therefore bring a flag and a value together that do not agree. -/

/-- A wrapped value is replaced by a constant only if it is one, and by another value only if it is
none. -/
def KeepsSort (h : Host) : Action → Prop
  | .replaceAllUses old new => old ≠ new → ∀ d x y, h.store.wrappedValue (some d) = some old →
    h.store.values.get? old = some x → h.store.values.get? new = some y →
    x.isConstant = y.isConstant
  | _ => True

/-- A new wrapper is of the sort that its value asks for. -/
theorem kind_of_fresh {m : Metadata} {v : Ref .value} {x : Value}
    (hfresh : Store.Fresh soleContext s m.body) (hvalue : m.value = some v)
    (hx : s.values.get? v = some x) : m.kind = x.wrapperKind := by
  obtain ⟨c, body⟩ := m
  cases hfresh with
  | string hnone => cases hvalue
  | node n => cases hvalue
  | wrapper hnone =>
    cases hvalue
    simp only [Metadata.kind, hx, Option.any_some, Value.wrapperKind]
    cases x.isConstant <;> rfl

/-- A wrapper was there before, and so was its value, for targets are never lost and found again;
or it is the new one. -/
theorem kindsAgree_of_edit {r : List Record} (ht : Tracked s r) {home : Handle .module}
    {users : List (User × Ref .value)} (hchange : Store.Change soleContext s home users s')
    (hrecorded : Store.Recorded soleContext s s') (hagree : s.KindsAgree) : s'.KindsAgree := by
  intro d m' v x' hd hvalue hx'
  rw [Store.wrappedValue_of_get? hd] at hvalue
  rcases hrecorded.origin hd with ⟨m, hm, -, hkind, hsame⟩ | ⟨-, -, hfresh, hvalues⟩
  · have hwraps : s.wrappedValue (some d) = some v :=
      (Store.wrappedValue_of_get? hm).trans (hsame ▸ hvalue)
    obtain ⟨x, hx⟩ := Option.isSome_iff_exists.1 (ht.live_of_wrappedValue hwraps)
    obtain ⟨y, hy, -, hkind', -⟩ := hchange.kept hx
    obtain rfl : x' = y := by simpa [hx'] using hy
    rw [hkind, hagree d m v x hm hwraps hx]
    exact Value.wrapperKind_of_kind hkind'.symm
  · exact kind_of_fresh hfresh hvalue (hvalues ▸ hx')

/-- The wrappers of the old value move, and the two values ask for the same sort. -/
theorem kindsAgree_of_rewire {old new : Ref .value} (hold : s.values.contains old = true)
    (hsort : ∀ d x y, s.wrappedValue (some d) = some old → s.values.get? old = some x →
      s.values.get? new = some y → x.isConstant = y.isConstant)
    (hagree : s.KindsAgree) : (s.rewire old (some new)).KindsAgree := by
  intro d m' v x' hd hvalue hx'
  rw [Store.wrappedValue_rewire] at hvalue
  rw [Store.get?_metadata_rewire] at hd
  rw [Store.get?_values_rewire] at hx'
  obtain ⟨m, hm, rfl⟩ := Option.map_eq_some_iff.1 hd
  obtain ⟨x, hx, rfl⟩ := Option.map_eq_some_iff.1 hx'
  rw [Metadata.kind_redirect, Value.wrapperKind_redirect]
  unfold redirected at hvalue
  split at hvalue
  · rename_i hwraps
    cases hvalue
    -- the wrapper moved: it agreed with the old value, and that with the new one
    obtain ⟨y, hy⟩ := Option.isSome_iff_exists.1 hold
    rw [hagree d m old y hm hwraps hy, Value.wrapperKind_eq_iff]
    exact hsort d y x hwraps hy hx
  · exact hagree d m v x hm hvalue hx

/-- A release takes the value from its wrappers, and those of other values are as before. -/
theorem kindsAgree_of_release (hagree : s.KindsAgree) (w : Ref .value) :
    (s.release w).KindsAgree := by
  intro d m' v x' hd hvalue hx'
  rw [Store.wrappedValue_release] at hvalue
  obtain ⟨hwraps, hvw⟩ := Store.of_redirected_none hvalue
  rw [Store.get?_metadata_release] at hd
  rw [Store.get?_values_release, if_neg hvw] at hx'
  obtain ⟨m, hm, rfl⟩ := Option.map_eq_some_iff.1 hd
  obtain ⟨x, hx, rfl⟩ := Option.map_eq_some_iff.1 hx'
  rw [Metadata.kind_redirect, Value.wrapperKind_redirect]
  exact hagree d m v x hm hwraps hx

/-- Each of the four ways keeps sorts in agreement, a replacement under the condition. -/
theorem kindsAgree_of_rework {h : Host} {r : List Record} (ht : Tracked h.store r)
    (hok : KeepsSort h a) (hwork : Rework h.store a s') (hagree : h.store.KindsAgree) :
    s'.KindsAgree := by
  cases hwork with
  | keep a hvalues hmetadata =>
    intro d m v x hd hvalue hx
    rw [Store.wrappedValue_of_get? hd] at hvalue
    rw [hmetadata] at hd
    rw [hvalues] at hx
    exact hagree d m v x hd ((Store.wrappedValue_of_get? hd).trans hvalue) hx
  | edit hchange hrecorded => exact kindsAgree_of_edit ht hchange hrecorded hagree
  | replace hne hold => exact kindsAgree_of_rewire hold (hok hne) hagree
  | release a w => exact kindsAgree_of_release hagree w

/-- A replacement of a value that is there rewires. -/
theorem store_of_replaceAllUses {h : Host} (hs : h.Sole) {old new : Ref .value} (hne : old ≠ new)
    (hold : h.store.values.contains old = true) :
    (h.act (.replaceAllUses old new)).store = h.store.rewire old (some new) := by
  simp [act, replaceAllUses, hne, hs.containsValue, hold]

/-- If wrappers are of the right sort before and after a replacement, then the values are of one
sort. -/
theorem sort_of_kindsAgree {h : Host} {r : List Record} (hs : h.Sole) (hw : Wrapped h r)
    (hagree : h.store.KindsAgree) {old new : Ref .value}
    (hafter : (h.act (.replaceAllUses old new)).store.KindsAgree) :
    KeepsSort h (.replaceAllUses old new) := by
  intro hne d x y hwraps hx hy
  rw [store_of_replaceAllUses hs hne (hw.tracked.live_of_wrappedValue hwraps)] at hafter
  obtain ⟨m, hm, -⟩ := Store.get?_of_wrappedValue hwraps
  -- the wrapper keeps its sort and has the new value afterwards
  have hkind := hafter d (m.redirect old (some new)) new (y.redirect old (some new))
    (by rw [Store.get?_metadata_rewire, hm]; rfl)
    (by rw [Store.wrappedValue_rewire, hwraps, redirected, if_pos rfl])
    (by rw [Store.get?_values_rewire, hy]; rfl)
  rw [Metadata.kind_redirect, Value.wrapperKind_redirect, hagree d m old x hm hwraps hx,
    Value.wrapperKind_eq_iff] at hkind
  exact hkind

/-- In a run so far, the condition says exactly what the next action needs. -/
theorem keepsSort_iff {h : Host} {r : List Record} (hs : h.Sole) (hw : Wrapped h r)
    (hagree : h.store.KindsAgree) : KeepsSort h a ↔ (h.act a).store.KindsAgree := by
  constructor
  · intro hok
    exact kindsAgree_of_rework hw.tracked hok (rework_of_step hs (step_act hs a)) hagree
  · intro hafter
    cases a with
    | replaceAllUses old new => exact sort_of_kindsAgree hs hw hagree hafter
    | _ => trivial

/-- Before every action of a run, everything is known of the wrappers that is needed. -/
theorem wrapped_before {actions first second : List Action} (hok : Along UsesLive opened actions)
    (heq : actions = first ++ a :: second) :
    (opened.run first).Sole ∧ Wrapped (opened.run first) (opened.history first) ∧
      UsesLive (opened.run first) a := by
  rw [heq, along_append] at hok
  exact ⟨sole_run sole_opened first, wrapped_run hok.1, hok.2.1⟩

/-- So the condition along a run is agreement in all its states. The condition is on a state and
the next action, and agreement is on states; the step between them is `keepsSort_iff`. -/
theorem keepsSort_along_iff {actions : List Action} (hok : Along UsesLive opened actions) :
    Along KeepsSort opened actions ↔
      ∀ first second, actions = first ++ second → (opened.run first).store.KindsAgree := by
  have hstart : opened.store.KindsAgree := by
    intro d m v x hd
    cases hd
  refine along_iff_forall_prefix (P := fun h => h.store.KindsAgree) hstart ?_
  intro first a second heq hagree
  obtain ⟨hs, hw, -⟩ := wrapped_before hok heq
  exact keepsSort_iff hs hw hagree

/-- Where all wrappers are of the right sort, a constant gets one for constants.  Asking for it is one
more action, and no replacement. -/
theorem metadataKindCode_of_constant {h : Host} {r : List Record} (hs : h.Sole) (hw : Wrapped h r)
    (hagree : h.store.KindsAgree) {v : Ref .value} {x : Value}
    (hx : h.store.values.get? v = some x) (hconstant : x.isConstant = true) :
    (h.store.valueAsMetadata x.context v).2.metadataKindCode
      (some (h.store.valueAsMetadata x.context v).1) = MetadataKind.constantAsMetadata.code := by
  let a : Action := .edit (.constantAsMetadata (some v))
  -- asking for a wrapper replaces nothing
  have hsort : KeepsSort h a := trivial
  have hstore : (h.act a).store = (h.store.valueAsMetadata x.context v).2 :=
    congrArg Prod.snd (Store.constantAsMetadata_of_constant hx hconstant)
  have hafter : (h.store.valueAsMetadata x.context v).2.KindsAgree := by
    rw [← hstore]
    exact kindsAgree_of_rework hw.tracked hsort (rework_of_step hs (step_act hs a)) hagree
  have hvalues : (h.store.valueAsMetadata x.context v).2.values = h.store.values := by
    unfold Store.valueAsMetadata
    split <;> rfl
  have hwraps := h.store.wrappedValue_valueAsMetadata x.context v
  obtain ⟨m, hm, -⟩ := Store.get?_of_wrappedValue hwraps
  have hkind := hafter _ m v x hm hwraps (by rw [hvalues]; exact hx)
  rw [Value.wrapperKind, if_pos hconstant] at hkind
  simp only [Store.metadataKindCode, Store.metadata?, Option.bind_some, hm, Option.map_some,
    Option.getD_some, hkind]

/-- **Wrappers are of the sort that their value asks for** in every state of a run exactly if no
wrapped value is replaced by a constant when it is none, or the other way round.

A constant always gets a wrapper that has it; along such a run it is one for constants.

The condition is exact because a wrapper has its sort for good, while its value may be replaced: the
first replacement across the border leaves a wrapper of the wrong sort, and nothing else does. -/
theorem wrapper_kinds_agree {actions : List Action} (hok : Along UsesLive opened actions) :
    let s := (opened.run actions).store
    (Along KeepsSort opened actions ↔
      ∀ first second, actions = first ++ second → (opened.run first).store.KindsAgree) ∧
    ∀ v x, s.values.get? v = some x → x.isConstant = true →
      ∃ d s', s.constantAsMetadata (some v) = (some d, s') ∧
        s'.wrappedValue (some d) = some v ∧
        (Along KeepsSort opened actions →
          s'.metadataKindCode (some d) = MetadataKind.constantAsMetadata.code) := by
  intro s
  refine ⟨keepsSort_along_iff hok, fun v x hx hconstant => ?_⟩
  have hmade := Store.constantAsMetadata_of_constant hx hconstant
  have hwraps := s.wrappedValue_valueAsMetadata x.context v
  refine ⟨_, _, hmade, hwraps, fun hkeeps => ?_⟩
  have hs : (opened.run actions).Sole := sole_run sole_opened actions
  have hagree : s.KindsAgree := (keepsSort_along_iff hok).1 hkeeps actions [] (by simp)
  exact metadataKindCode_of_constant hs (wrapped_run hok) hagree hx hconstant

/-- A wrapped constant is replaced by another one; an instruction is wrapped as well. -/
def constantReplaced : List Action :=
  [.edit (.constInt 32 1), .edit (.constInt 32 2), .edit (.createInstruction "i"),
    .edit (.valueAsMetadata ⟨0⟩), .edit (.valueAsMetadata ⟨2⟩), .replaceAllUses ⟨0⟩ ⟨1⟩]

/-- The wrapper that moved is still of the right sort, and the constant gets it. -/
theorem constantReplaced_agrees :
    Along UsesLive opened constantReplaced ∧ Along KeepsSort opened constantReplaced ∧
      (opened.run constantReplaced).store.KindsAgree ∧
      ∃ d s', (opened.run constantReplaced).store.constantAsMetadata (some ⟨1⟩) = (some d, s') ∧
        s'.wrappedValue (some d) = some ⟨1⟩ ∧
        s'.metadataKindCode (some d) = MetadataKind.constantAsMetadata.code := by
  have hok : Along UsesLive opened constantReplaced :=
    ⟨trivial, trivial, trivial, rfl, rfl, rfl, trivial⟩
  have hkeeps : Along KeepsSort opened constantReplaced := by
    refine ⟨trivial, trivial, trivial, trivial, trivial, ?_, trivial⟩
    intro hne d x y hwraps hx hy
    cases hx
    cases hy
    rfl
  obtain ⟨hiff, hconstant⟩ := wrapper_kinds_agree hok
  obtain ⟨d, s', hmade, hwraps, hkind⟩ := hconstant ⟨1⟩ _ rfl rfl
  exact ⟨hok, hkeeps, hiff.1 hkeeps _ [] (by simp), d, s', hmade, hwraps, hkind hkeeps⟩

/-- A wrapped instruction is replaced by a constant. -/
def localReplaced : List Action :=
  [.edit (.createInstruction "i"), .edit (.constInt 32 4), .edit (.valueAsMetadata ⟨0⟩),
    .replaceAllUses ⟨0⟩ ⟨1⟩]

/-- The wrapper stays local, and the constant gets it. -/
theorem localReplaced_disagrees :
    Along UsesLive opened localReplaced ∧ ¬ (opened.run localReplaced).store.KindsAgree ∧
      ∃ x d s', (opened.run localReplaced).store.values.get? ⟨1⟩ = some x ∧
        x.isConstant = true ∧
        (opened.run localReplaced).store.constantAsMetadata (some ⟨1⟩) = (some d, s') ∧
        s'.metadataKindCode (some d) = MetadataKind.localAsMetadata.code := by
  refine ⟨⟨trivial, trivial, rfl, rfl, trivial⟩, fun hagree => ?_, _, _, _, rfl, rfl, rfl, rfl⟩
  have hkind := hagree ⟨0⟩ _ ⟨1⟩ _ rfl rfl rfl
  cases hkind

/-! ## The number of wrappers

Asking for a wrapper makes none if there is one already. A replacement moves wrappers without
asking. -/

/-- A wrapped value is replaced only by one that is not wrapped. -/
def KeepsApart (h : Host) : Action → Prop
  | .replaceAllUses old new => old ≠ new → ∀ d d', h.store.wrappedValue (some d) = some old →
    h.store.wrappedValue (some d') ≠ some new
  | _ => True

/-- The wrapper that an edit makes is the only one of its value. -/
theorem unwrapped_of_fresh (hin : s.MetadataIn soleContext) {m : Metadata} {v : Ref .value}
    (hfresh : Store.Fresh soleContext s m.body) (hvalue : m.value = some v) (d : Ref .metadata) :
    s.wrappedValue (some d) ≠ some v := by
  obtain ⟨c, body⟩ := m
  cases hfresh with
  | string hnone => cases hvalue
  | node n => cases hvalue
  | wrapper hnone =>
    cases hvalue
    intro hwraps
    obtain ⟨m, hm, hsame⟩ := Store.get?_of_wrappedValue hwraps
    exact hnone hm (hin d m hm) hsame

/-- An edit makes a wrapper only for a value that has none. -/
theorem wrappedOnce_of_edit (hin : s.MetadataIn soleContext)
    (hrecorded : Store.Recorded soleContext s s') {v : Ref .value} (honce : s.WrappedOnce v) :
    s'.WrappedOnce v := by
  -- a wrapper had the value before or it is the new one
  have horigin (d : Ref .metadata) (hwraps : s'.wrappedValue (some d) = some v) :
      s.wrappedValue (some d) = some v ∨
        d = ⟨s.metadata.next⟩ ∧ ∀ e, s.wrappedValue (some e) ≠ some v := by
    obtain ⟨m', hm', hvalue⟩ := Store.get?_of_wrappedValue hwraps
    rcases hrecorded.origin hm' with ⟨m, hm, -, -, hsame⟩ | ⟨hnew, -, hfresh, -⟩
    · exact .inl ((Store.wrappedValue_of_get? hm).trans (hsame ▸ hvalue))
    · exact .inr ⟨hnew, unwrapped_of_fresh hin hfresh hvalue⟩
  intro d d' hd hd'
  -- both from before, or both the new one
  rcases horigin d hd with hold | ⟨hnew, hnone⟩
  · rcases horigin d' hd' with hold' | ⟨-, hnone'⟩
    · exact honce d d' hold hold'
    · exact absurd hold (hnone' d)
  · rcases horigin d' hd' with hold' | ⟨hnew', -⟩
    · exact absurd hold' (hnone d')
    · rw [hnew, hnew']

/-- The wrappers of a value after a redirection are those from before, or if it is the new value,
those of either. -/
theorem wrappedOnce_of_rewire {old new v : Ref .value}
    (hapart : ∀ d d', s.wrappedValue (some d) = some old → s.wrappedValue (some d') ≠ some new)
    (honce : ∀ w, s.WrappedOnce w) : (s.rewire old (some new)).WrappedOnce v := by
  intro d d' hd hd'
  rw [Store.wrappedValue_rewire] at hd hd'
  unfold redirected at hd hd'
  split at hd
  · rename_i hold
    cases hd
    split at hd'
    · rename_i hold'
      exact honce old d d' hold hold'
    · exact absurd hd' (hapart d d' hold)
  · split at hd'
    · rename_i hold'
      cases hd'
      exact absurd hd (hapart d' d hold')
    · exact honce v d d' hd hd'

/-- Each of the four ways leaves a value with one wrapper at most, a replacement under the
condition. -/
theorem wrappedOnce_of_rework {h : Host} (hin : h.store.MetadataIn soleContext)
    (hok : KeepsApart h a) (hwork : Rework h.store a s') (honce : ∀ v, h.store.WrappedOnce v)
    (v : Ref .value) : s'.WrappedOnce v := by
  cases hwork with
  | keep a hvalues hmetadata =>
    intro d d' hd hd'
    have hsame (e : Ref .metadata) : s'.wrappedValue (some e) = h.store.wrappedValue (some e) := by
      simp only [Store.wrappedValue, Store.metadata?, hmetadata]
    exact honce v d d' (hsame d ▸ hd) (hsame d' ▸ hd')
  | edit hchange hrecorded => exact wrappedOnce_of_edit hin hrecorded (honce v)
  | @replace old new hne hold =>
    exact wrappedOnce_of_rewire (hok hne) honce
  | release a w =>
    intro d d' hd hd'
    rw [Store.wrappedValue_release] at hd hd'
    obtain ⟨hd, -⟩ := Store.of_redirected_none hd
    obtain ⟨hd', -⟩ := Store.of_redirected_none hd'
    exact honce v d d' hd hd'

/-- Every value of the context has one wrapper at most. -/
def WrappersUnique (h : Host) : Prop :=
  ∀ v, h.store.containsValue soleContext v = true → h.store.WrappedOnce v

/-- Values that are gone have no wrappers at all. -/
theorem WrappersUnique.wrappedOnce {h : Host} {r : List Record} (hs : h.Sole) (hw : Wrapped h r)
    (hunique : h.WrappersUnique) (v : Ref .value) : h.store.WrappedOnce v := by
  intro d d' hd hd'
  refine hunique v ?_ d d' hd hd'
  rw [hs.containsValue]
  exact hw.tracked.live_of_wrappedValue hd

/-- If no value has two wrappers after a replacement, then one of the two values had none. -/
theorem apart_of_wrappersUnique {h : Host} {r : List Record} (hs : h.Sole) (hw : Wrapped h r)
    {old new : Ref .value} (hlive : h.store.containsValue soleContext new = true)
    (hafter : (h.act (.replaceAllUses old new)).WrappersUnique) :
    KeepsApart h (.replaceAllUses old new) := by
  intro hne d d' hold hnew
  have hthere := hw.tracked.live_of_wrappedValue hold
  have hstore := store_of_replaceAllUses hs hne hthere
  have hnewthere : (h.act (.replaceAllUses old new)).store.containsValue soleContext new = true := by
    rw [(sole_of_step (step_act hs _) hs).containsValue, hstore, Store.contains_rewire,
      ← hs.containsValue]
    exact hlive
  have honce := hafter new hnewthere
  rw [hstore] at honce
  -- both wrappers have the new value afterwards, so they are one, which had one value before
  have hboth : d = d' := by
    refine honce d d' ?_ ?_
    · rw [Store.wrappedValue_rewire, hold, redirected, if_pos rfl]
    · rw [Store.wrappedValue_rewire, hnew, redirected, if_neg]
      intro heq
      exact hne (Option.some.inj heq).symm
  rw [hboth, hnew] at hold
  exact hne (Option.some.inj hold).symm

/-- In a run so far, the condition says exactly what the next action needs. -/
theorem keepsApart_iff {h : Host} {r : List Record} (hs : h.Sole) (hw : Wrapped h r)
    (hlive : UsesLive h a) (hunique : h.WrappersUnique) :
    KeepsApart h a ↔ (h.act a).WrappersUnique := by
  constructor
  · intro hok v _
    have hwork := rework_of_step hs (step_act hs a)
    exact wrappedOnce_of_rework hw.context hok hwork (hunique.wrappedOnce hs hw) v
  · intro hafter
    cases a with
    | replaceAllUses old new => exact apart_of_wrappersUnique hs hw hlive hafter
    | _ => trivial

/-- So the condition along a run is uniqueness in all its states. -/
theorem keepsApart_along_iff {actions : List Action} (hok : Along UsesLive opened actions) :
    Along KeepsApart opened actions ↔
      ∀ first second, actions = first ++ second → (opened.run first).WrappersUnique := by
  have hstart : opened.WrappersUnique := by
    intro v hv
    cases hv
  refine along_iff_forall_prefix hstart fun first a second heq hunique => ?_
  obtain ⟨hs, hw, hlive⟩ := wrapped_before hok heq
  exact keepsApart_iff hs hw hlive hunique

/-- **No value has two wrappers** in any state of a run exactly if no wrapped value is replaced by
one that is wrapped as well.

Along such a run a wrapped value always gets its one wrapper again, and nothing is made.

The condition is exact here too.  A wrapper is made only for a value that has none, so two of them
can come to one value in one way only: by a replacement that moves a wrapper to a value with one. -/
theorem wrappers_unique {actions : List Action} (hok : Along UsesLive opened actions) :
    let s := (opened.run actions).store
    (Along KeepsApart opened actions ↔
      ∀ first second, actions = first ++ second → (opened.run first).WrappersUnique) ∧
    (Along KeepsApart opened actions → ∀ v d, s.wrappedValue (some d) = some v →
      s.valueAsMetadata soleContext v = (d, s)) := by
  intro s
  refine ⟨keepsApart_along_iff hok, fun hkeeps v d hd => ?_⟩
  have hs := sole_run sole_opened actions
  have hw := wrapped_run hok
  have hunique := (keepsApart_along_iff hok).1 hkeeps actions [] (by simp)
  exact Store.valueAsMetadata_of_wrappedOnce hw.context (hunique.wrappedOnce hs hw v) hd

/-- A wrapped constant is replaced by one that nobody has wrapped, and that one is asked for its
wrapper afterwards. -/
def unwrappedReplaces : List Action :=
  [.edit (.constInt 32 1), .edit (.constInt 32 2), .edit (.valueAsMetadata ⟨0⟩),
    .replaceAllUses ⟨0⟩ ⟨1⟩, .edit (.valueAsMetadata ⟨1⟩)]

/-- The new value has the wrapper that moved to it, and no other. -/
theorem unwrappedReplaces_unique :
    Along UsesLive opened unwrappedReplaces ∧ Along KeepsApart opened unwrappedReplaces ∧
      (opened.run unwrappedReplaces).WrappersUnique ∧
      (opened.run unwrappedReplaces).store.wrappedValue (some ⟨0⟩) = some ⟨1⟩ ∧
      ((opened.run unwrappedReplaces).store.valueAsMetadata soleContext ⟨1⟩).1 = ⟨0⟩ := by
  have hok : Along UsesLive opened unwrappedReplaces :=
    ⟨trivial, trivial, rfl, rfl, rfl, trivial⟩
  have hkeeps : Along KeepsApart opened unwrappedReplaces := by
    refine ⟨trivial, trivial, trivial, ?_, trivial, trivial⟩
    intro hne d d' hold hnew
    -- there is one object of metadata, and it cannot have both values
    have hzero (e : Ref .metadata) (v : Ref .value)
        (he : (opened.run (unwrappedReplaces.take 3)).store.wrappedValue (some e) = some v) :
        e = ⟨0⟩ := by
      obtain ⟨m, hm, -⟩ := Store.get?_of_wrappedValue he
      have hitem := (Arena.mem_items_iff _ e m).2 hm
      exact (Prod.mk.inj (List.mem_singleton.1 hitem)).1
    obtain rfl := hzero d' _ hnew
    cases hnew
  obtain ⟨hiff, hagain⟩ := wrappers_unique hok
  refine ⟨hok, hkeeps, hiff.1 hkeeps _ [] (by simp), rfl, ?_⟩
  rw [hagain hkeeps ⟨1⟩ ⟨0⟩ rfl]

/-- A wrapped constant is replaced by one that is wrapped as well. -/
def wrappedReplaces : List Action :=
  [.edit (.constInt 32 1), .edit (.constInt 32 2), .edit (.valueAsMetadata ⟨0⟩),
    .edit (.valueAsMetadata ⟨1⟩), .replaceAllUses ⟨0⟩ ⟨1⟩]

/-- The new value has two wrappers, and it gets the one that was not its own. -/
theorem wrappedReplaces_clash :
    Along UsesLive opened wrappedReplaces ∧
      (opened.run wrappedReplaces).store.containsValue soleContext ⟨1⟩ = true ∧
      ¬ (opened.run wrappedReplaces).store.WrappedOnce ⟨1⟩ ∧
      ((opened.run (wrappedReplaces.take 4)).store.valueAsMetadata soleContext ⟨1⟩).1 = ⟨1⟩ ∧
      ((opened.run wrappedReplaces).store.valueAsMetadata soleContext ⟨1⟩).1 = ⟨0⟩ := by
  refine ⟨⟨trivial, trivial, rfl, rfl, rfl, trivial⟩, rfl, fun honce => ?_, rfl, rfl⟩
  cases honce ⟨0⟩ ⟨1⟩ rfl rfl

end Host

end ForeignHandles
