import ForeignHandles.Proofs.Store.Arguments
import ForeignHandles.Proofs.Store.Ownership
import ForeignHandles.Proofs.Store.Parts

/-!
  What goes when values are deleted one after another.

  Deleting a value releases it and then deletes its arguments, so what there is to delete grows and
  shrinks while it is worked off.  But it is known beforehand what will go: the value, followed by
  those of its arguments that are there (`goesWith`).  Releasing the first of the values to delete,
  and putting its arguments in its place, takes just that value off the front of all that is going
  to go (`doomed_cons`).  All this needs is that nothing goes twice.

  For the globals of a module that is so, for no value is listed twice and no argument has two
  functions.  What goes with the module are its `contents`.
-/
namespace ForeignHandles

/-! ## Losing what is gone

What is left of an object when values it refers to have gone. Redirecting to nothing, once for
each value, comes to this. -/

/-- A value once others are gone: an alias of one of them stands for nothing. -/
def Value.without (gone : List (Ref .value)) (x : Value) : Value :=
  match x.body with
  | .globalAlias (some a) => if a ∈ gone then { x with body := .globalAlias none } else x
  | _ => x

/-- Metadata once values are gone: a wrapper of one of them has no value. -/
def Metadata.without (gone : List (Ref .value)) (x : Metadata) : Metadata :=
  match x.body with
  | .value (some a) isLocal => if a ∈ gone then { x with body := .value none isLocal } else x
  | _ => x

/-- If nothing is gone, nothing is lost. -/
theorem Value.without_nil (x : Value) : x.without [] = x := by
  unfold without
  split <;> simp

/-- The same for metadata. -/
theorem Metadata.without_nil (x : Metadata) : x.without [] = x := by
  unfold without
  split <;> simp

/-- Whatever is no alias stays as it is. -/
theorem Value.without_of_kind_ne (gone : List (Ref .value)) {x : Value}
    (h : x.kind ≠ .globalAlias) : x.without gone = x := by
  unfold without
  split
  · rename_i a hb
    exact absurd (show x.kind = .globalAlias by rw [kind, hb]; rfl) h
  · rfl

/-- Losing one value more is being redirected to nothing first. -/
theorem Value.without_cons (v : Ref .value) (gone : List (Ref .value)) (x : Value) :
    x.without (v :: gone) = (x.redirect v none).without gone := by
  obtain ⟨c, name, parent, body⟩ := x
  cases body with
  | globalAlias a =>
    cases a with
    | none => rfl
    -- what stands for the value that goes first stands for nothing, and is not looked at again
    | some a => by_cases ha : a = v <;> simp [without, redirect, ha]
  | _ => rfl

/-- The same for metadata. -/
theorem Metadata.without_cons (v : Ref .value) (gone : List (Ref .value)) (x : Metadata) :
    x.without (v :: gone) = (x.redirect v none).without gone := by
  obtain ⟨c, body⟩ := x
  cases body with
  | value a isLocal =>
    cases a with
    | none => rfl
    | some a => by_cases ha : a = v <;> simp [without, redirect, ha]
  | _ => rfl

/-- A module that does not list a value has nothing to forget. -/
theorem Module.forget_of_not_mem {x : Module} {v : Ref .value} (h : v ∉ x.linked) :
    x.forget v = x := by
  simp only [linked, List.mem_append, not_or] at h
  obtain ⟨⟨hvariables, haliases⟩, hfunctions⟩ := h
  rw [forget, List.erase_of_not_mem hvariables, List.erase_of_not_mem haliases,
    List.erase_of_not_mem hfunctions]

namespace Store

variable {s : Store} {v w f : Ref .value} {x : Value} {vs gone : List (Ref .value)}

/-! ## Releasing several values

The same store operation over and over, said at once: what is there afterwards is what was there
before and is not among the values, without what is gone. -/

/-- Releases values, one after another. -/
def releaseAll (s : Store) (vs : List (Ref .value)) : Store := vs.foldl release s

/-- The last value is released last. -/
theorem releaseAll_concat (s : Store) (vs : List (Ref .value)) (v : Ref .value) :
    s.releaseAll (vs ++ [v]) = (s.releaseAll vs).release v := List.foldl_append

/-- Arguments stay in their places when values are released. -/
theorem ListsArguments.releaseAll (hs : s.ListsArguments) (vs : List (Ref .value)) :
    (s.releaseAll vs).ListsArguments := by
  induction vs generalizing s with
  | nil => exact hs
  | cons v vs ih => exact ih (hs.release v)

/-- A value that is not among the released ones is there, without them. -/
theorem get?_values_releaseAll (s : Store) (gone : List (Ref .value)) (w : Ref .value) :
    (s.releaseAll gone).values.get? w =
      if w ∈ gone then none else (s.values.get? w).map (Value.without gone) := by
  induction gone generalizing s with
  | nil =>
    have hid : Value.without [] = id := funext Value.without_nil
    rw [if_neg List.not_mem_nil, hid, Option.map_id]
    rfl
  | cons v gone ih =>
    have hafter : (s.releaseAll (v :: gone)).values.get? w =
        if w ∈ gone then none else ((s.release v).values.get? w).map (Value.without gone) :=
      ih (s.release v)
    -- one redirection and then the rest, in one
    have hboth : Value.without gone ∘ Value.redirect v none = Value.without (v :: gone) :=
      funext fun x => (x.without_cons v gone).symm
    rw [hafter, get?_values_release]
    -- it goes later, goes now, or stays
    by_cases hw : w ∈ gone
    · rw [if_pos hw, if_pos (List.mem_cons_of_mem v hw)]
    · by_cases hv : w = v
      · rw [if_neg hw, if_pos hv, if_pos (hv ▸ List.mem_cons_self), Option.map_none]
      · have hnot : w ∉ v :: gone := fun hmem => (List.mem_cons.1 hmem).elim hv hw
        rw [if_neg hw, if_neg hv, if_neg hnot, Option.map_map, hboth]

/-- Metadata stays, without them. -/
theorem get?_metadata_releaseAll (s : Store) (gone : List (Ref .value)) (d : Ref .metadata) :
    (s.releaseAll gone).metadata.get? d = (s.metadata.get? d).map (Metadata.without gone) := by
  induction gone generalizing s with
  | nil =>
    have hid : Metadata.without [] = id := funext Metadata.without_nil
    rw [hid, Option.map_id]
    rfl
  | cons v gone ih =>
    have hboth : Metadata.without gone ∘ Metadata.redirect v none = Metadata.without (v :: gone) :=
      funext fun x => (x.without_cons v gone).symm
    have hafter : (s.releaseAll (v :: gone)).metadata.get? d =
        ((s.release v).metadata.get? d).map (Metadata.without gone) := ih (s.release v)
    rw [hafter, get?_metadata_release, Option.map_map, hboth]

/-- One value leaves, and the others keep their order. -/
theorem refs_values_release (s : Store) (v : Ref .value) :
    (s.release v).values.refs = s.values.refs.filter (· ≠ v) := by
  have hitems : (s.release v).values.items =
      (s.values.items.map fun p => (p.1, p.2.redirect v none)).filter (fun p => p.1 ≠ v) := by
    rw [← values_unlist s v]
    rfl
  rw [Arena.refs, Arena.refs, hitems, List.filter_map, List.filter_map, List.map_map]
  rfl

/-- Nothing else leaves, and what stays is in the order that it was in. -/
theorem refs_values_releaseAll (s : Store) (gone : List (Ref .value)) :
    (s.releaseAll gone).values.refs = s.values.refs.filter (· ∉ gone) := by
  induction gone generalizing s with
  | nil => exact (List.filter_eq_self.2 fun v _ => by simp).symm
  | cons v gone ih =>
    have hafter : (s.releaseAll (v :: gone)).values.refs =
        (s.release v).values.refs.filter (· ∉ gone) := ih (s.release v)
    -- two filters are one
    rw [hafter, refs_values_release, List.filter_filter]
    refine List.filter_congr fun w _ => ?_
    simp only [List.mem_cons, not_or, ne_eq, Bool.decide_and, Bool.and_comm]

/-- Metadata keeps its order, too, and none of it leaves. -/
theorem refs_metadata_releaseAll (s : Store) (gone : List (Ref .value)) :
    (s.releaseAll gone).metadata.refs = s.metadata.refs := by
  induction gone generalizing s with
  | nil => rfl
  | cons v gone ih =>
    have hone : (s.release v).metadata.refs = s.metadata.refs := by
      have hitems : (s.release v).metadata.items =
          s.metadata.items.map fun p => (p.1, p.2.redirect v none) := by
        rw [← metadata_unlist s v]
        rfl
      rw [Arena.refs, Arena.refs, hitems, List.map_map]
      rfl
    exact (ih (s.release v)).trans hone

/-- A module that lists none of the values is left alone. -/
theorem get?_modules_releaseAll {n : Ref .module}
    (h : ∀ {y}, s.modules.get? n = some y → ∀ v ∈ gone, v ∉ y.linked) :
    (s.releaseAll gone).modules.get? n = s.modules.get? n := by
  induction gone generalizing s with
  | nil => rfl
  | cons v gone ih =>
    -- the module may be the parent, but there is nothing on its lists to forget
    have hone : (s.release v).modules.get? n = s.modules.get? n := by
      rw [get?_modules_release]
      split
      · cases hn : s.modules.get? n with
        | none => rfl
        | some y =>
          rw [Option.map_some, Module.forget_of_not_mem (h hn v List.mem_cons_self)]
      · rfl
    -- the module is the same, so it lists none of the others either
    have hrest : ∀ {y}, (s.release v).modules.get? n = some y → ∀ w ∈ gone, w ∉ y.linked :=
      fun hy w hw => h (hone ▸ hy) w (List.mem_cons_of_mem v hw)
    exact (ih hrest).trans hone

/-- Contexts are left alone, and so is all that lies aside. -/
theorem changesOnly_releaseAll (s : Store) (gone : List (Ref .value)) :
    (s.releaseAll gone).contexts = s.contexts ∧ ChangesOnly .objects s (s.releaseAll gone) := by
  induction gone generalizing s with
  | nil => exact ⟨rfl, .refl _ s⟩
  | cons v gone ih =>
    obtain ⟨hcontexts, haside⟩ := ih (s.release v)
    have hone : (s.release v).contexts = s.contexts := by
      unfold release unlist
      split <;> rfl
    exact ⟨hcontexts.trans hone, (changesOnly_release s v).trans haside⟩

/-! ## What goes with a value

Arguments are values of their own, and one that has been deleted before its function is still on
the list of the function; it does not go a second time. -/

/-- The arguments of a function that are still there. -/
def liveArguments (s : Store) (f : Ref .value) : List (Ref .value) :=
  (((s.values.get? f).map (·.arguments)).getD []).filter s.values.contains

/-- What goes when a value is deleted; nothing if it is gone already. -/
def goesWith (s : Store) (v : Ref .value) : List (Ref .value) :=
  if s.values.contains v then v :: s.liveArguments v else []

/-- What goes when values are deleted one after another. -/
def doomed (s : Store) (vs : List (Ref .value)) : List (Ref .value) := vs.flatMap s.goesWith

/-- The arguments of a function that is there, -/
theorem liveArguments_of_get? (hv : s.values.get? v = some x) :
    s.liveArguments v = x.arguments.filter s.values.contains := by
  rw [liveArguments, hv]
  rfl

/-- nothing goes with what is gone, -/
theorem goesWith_of_none (hv : s.values.get? v = none) : s.goesWith v = [] := by
  rw [goesWith, Arena.contains, hv]
  rfl

/-- and a value that is there goes with those of its arguments that are. -/
theorem goesWith_of_get? (hv : s.values.get? v = some x) :
    s.goesWith v = v :: x.arguments.filter s.values.contains := by
  rw [goesWith, Arena.contains, hv, liveArguments_of_get? hv]
  rfl

/-- What goes with a value is that value or an argument of it. -/
theorem mem_goesWith_iff (hv : s.values.get? v = some x) :
    w ∈ s.goesWith v ↔ w = v ∨ w ∈ x.arguments ∧ s.values.contains w = true := by
  rw [goesWith_of_get? hv, List.mem_cons, List.mem_filter]

/-- A value that is gone adds nothing to what goes. -/
theorem doomed_cons_of_none (hv : s.values.get? v = none) : s.doomed (v :: vs) = s.doomed vs := by
  rw [doomed, List.flatMap_cons, goesWith_of_none hv]
  rfl

/-- Nothing else is lost for the arguments when a function is released. -/
theorem doomed_arguments (hs : s.ListsArguments) (hf : s.values.get? f = some x) :
    (s.release f).doomed x.arguments = x.arguments.filter s.values.contains := by
  -- for any part of the arguments, by induction along it
  have hsub : ∀ as : List (Ref .value), (∀ a ∈ as, a ∈ x.arguments) →
      (s.release f).doomed as = as.filter s.values.contains := by
    intro as
    induction as with
    | nil => exact fun _ => rfl
    | cons a as ih =>
      intro hmem
      have ha : a ∈ x.arguments := hmem a List.mem_cons_self
      have hrest := ih fun b hb => hmem b (List.mem_cons_of_mem a hb)
      have hne : a ≠ f := by
        rintro rfl
        -- a function that was an argument of itself would have no arguments
        rw [(hs.argument hf ha hf).2] at ha
        cases ha
      cases hget : s.values.get? a with
      | none =>
        have hgone : (s.release f).values.get? a = none := by
          rw [get?_values_release, if_neg hne, hget, Option.map_none]
        -- an argument that is gone does not go again
        have hskip : s.values.contains a = false := by rw [Arena.contains, hget]; rfl
        rw [doomed_cons_of_none hgone, hrest, List.filter_cons_of_neg (by simp [hskip])]
      | some y =>
        have hkept : (s.release f).values.get? a = some (y.redirect f none) := by
          rw [get?_values_release, if_neg hne, hget, Option.map_some]
        -- an argument takes nothing along
        have hnone : (y.redirect f none).arguments = [] := by
          rw [(Value.signature_eq_iff.1 (Value.signature_redirect f none y)).2]
          exact (hs.argument hf ha hget).2
        have hthere : s.values.contains a = true := by rw [Arena.contains, hget]; rfl
        rw [List.filter_cons_of_pos hthere, ← hrest, doomed, List.flatMap_cons,
          goesWith_of_get? hkept, hnone]
        rfl
  exact hsub x.arguments fun a ha => ha

/-- Whatever does not go with a value goes as before when the value is released. -/
theorem doomed_release (hv : s.values.get? v = some x) (hnot : v ∉ s.doomed vs) :
    (s.release v).doomed vs = s.doomed vs := by
  refine List.flatMap_congr fun w hw => ?_
  -- the released value is neither this one nor among its arguments
  have hout : v ∉ s.goesWith w := fun hmem => hnot (List.mem_flatMap.2 ⟨w, hw, hmem⟩)
  have hthere : s.values.contains v = true := by rw [Arena.contains, hv]; rfl
  cases hget : s.values.get? w with
  | none =>
    rw [goesWith_of_none hget, goesWith_of_none]
    rw [get?_values_release, hget]
    split <;> rfl
  | some y =>
    rw [mem_goesWith_iff hget, not_or] at hout
    obtain ⟨hne, harguments⟩ := hout
    have hkept : (s.release v).values.get? w = some (y.redirect v none) := by
      rw [get?_values_release, if_neg (Ne.symm hne), hget, Option.map_some]
    rw [goesWith_of_get? hkept, goesWith_of_get? hget,
      (Value.signature_eq_iff.1 (Value.signature_redirect v none y)).2]
    refine congrArg (w :: ·) (List.filter_congr fun a ha => ?_)
    -- the arguments of this value are others than the one released
    have hav : a ≠ v := by
      rintro rfl
      exact harguments ⟨ha, hthere⟩
    rw [contains_release, decide_eq_true hav, Bool.true_and]

/-- **The first of the values to delete is released, and its arguments take its place.** What is
going to go is the same list as before without its head. That nothing goes twice is needed because
the release would otherwise take something away from the rest. -/
theorem doomed_cons (hs : s.ListsArguments) (hv : s.values.get? v = some x)
    (hnodup : (s.doomed (v :: vs)).Nodup) :
    s.doomed (v :: vs) = v :: (s.release v).doomed (x.arguments ++ vs) := by
  have hsplit : s.doomed (v :: vs) =
      v :: (x.arguments.filter s.values.contains ++ s.doomed vs) := by
    rw [doomed, List.flatMap_cons, goesWith_of_get? hv]
    rfl
  -- it goes first, and nothing goes twice
  have hnot : v ∉ s.doomed vs := by
    rw [hsplit] at hnodup
    exact fun hmem => (List.nodup_cons.1 hnodup).1 (List.mem_append_right _ hmem)
  have happend : (s.release v).doomed (x.arguments ++ vs) =
      (s.release v).doomed x.arguments ++ (s.release v).doomed vs := List.flatMap_append
  rw [hsplit, happend, doomed_arguments hs hv, doomed_release hv hnot]

/-! ## What goes with a module

The globals of the module with their arguments, in the order in which they are announced: aliases
first, so that an alias goes before what it stands for. -/

/-- What a module takes with it: its aliases, its variables, and its functions, each followed by
those of its arguments that are there. -/
def contents (s : Store) (x : Module) : List (Ref .value) :=
  x.aliases ++ x.globalVariables ++ x.functions.flatMap (fun f => f :: s.liveArguments f)

section Contents

variable {m : Ref .module} {x : Module}

/-- What a module owns is a global that has it as its parent. -/
theorem ListsGlobals.of_mem_owned (hs : s.ListsGlobals) (hm : s.modules.get? m = some x)
    (hv : v ∈ x.owned) : ∃ y, s.values.get? v = some y ∧ y.isGlobal = true ∧ y.parent = some m := by
  obtain ⟨k, hk⟩ := Module.mem_linked_iff.1 (Module.mem_owned_iff.1 hv)
  obtain ⟨y, hy, rfl, hparent⟩ := hs.listed hm hk
  refine ⟨y, hy, ?_, hparent⟩
  rw [Value.isGlobal]
  cases hkind : y.kind <;> rw [hkind] at hk <;> first | rfl | cases hk

/-- What goes when the globals of a module are deleted are its contents: only functions take
something along. -/
theorem doomed_owned (hs : s.ListsGlobals) (hm : s.modules.get? m = some x) :
    s.doomed x.owned = s.contents x := by
  have hplain {k : ValueKind} (hk : k ≠ .function) :
      (x.listOf k).flatMap s.goesWith = x.listOf k := by
    refine (List.flatMap_congr fun v hv => ?_).trans (List.flatMap_singleton' _)
    obtain ⟨y, hy, rfl, -⟩ := hs.listed hm hv
    -- what is no function has no arguments
    have hnone : y.arguments = [] :=
      List.eq_nil_iff_forall_not_mem.2 fun a ha => hk (Value.kind_of_mem_arguments ha)
    rw [goesWith_of_get? hy, hnone, List.filter_nil]
  -- a function takes along what is there of its arguments
  have hfunctions : x.functions.flatMap s.goesWith =
      x.functions.flatMap (fun f => f :: s.liveArguments f) := by
    refine List.flatMap_congr fun f hf => ?_
    obtain ⟨y, hy, -⟩ := hs.listed (k := .function) hm hf
    rw [goesWith_of_get? hy, liveArguments_of_get? hy]
  have haliases := hplain (k := .globalAlias) (by simp)
  have hvariables := hplain (k := .globalVariable) (by simp)
  simp only [Module.listOf] at haliases hvariables
  rw [doomed, Module.owned, List.flatMap_append, List.flatMap_append, haliases, hvariables,
    hfunctions, contents]

/-- Nothing goes twice with a module. -/
theorem nodup_contents (hs : s.ListsGlobals) (ha : s.ListsArguments)
    (hm : s.modules.get? m = some x) : (s.contents x).Nodup := by
  have howned : x.owned.Nodup := by
    have hperm : x.owned.Perm x.linked := List.perm_append_comm.append_right x.functions
    exact hperm.nodup_iff.2 (hs.nodup_linked hm)
  -- a global is no argument, not even its own
  have hnot {v f : Ref .value} {y : Value} (hv : v ∈ x.owned) (hf : s.values.get? f = some y) :
      v ∉ y.arguments := by
    intro hmem
    obtain ⟨z, hz, hglobal, -⟩ := hs.of_mem_owned hm hv
    rw [Value.isGlobal, (ha.argument hf hmem hz).1] at hglobal
    cases hglobal
  -- no value goes twice with one global, and two globals have nothing in common
  rw [← doomed_owned hs hm, doomed, List.nodup_flatMap]
  constructor
  · intro v hv
    obtain ⟨y, hy, -⟩ := hs.of_mem_owned hm hv
    rw [goesWith_of_get? hy, List.nodup_cons]
    exact ⟨fun hmem => hnot hv hy (List.mem_filter.1 hmem).1, (ha.nodup hy).filter _⟩
  · refine howned.imp_of_mem fun {v w} hv hw hne => ?_
    obtain ⟨y, hy, -⟩ := hs.of_mem_owned hm hv
    obtain ⟨z, hz, -⟩ := hs.of_mem_owned hm hw
    intro a hav haw
    rcases (mem_goesWith_iff hy).1 hav with rfl | ⟨hmem, -⟩ <;>
      rcases (mem_goesWith_iff hz).1 haw with rfl | ⟨hmem', -⟩
    · exact hne rfl
    · exact hnot hv hz hmem'
    · exact hnot hw hy hmem
    · exact hne (ha.unique hy hz hmem hmem')

/-- The contents of a module are what it lists and the arguments of its functions that are there. -/
theorem mem_contents_iff (hs : s.ListsGlobals) (hm : s.modules.get? m = some x) :
    v ∈ s.contents x ↔ v ∈ x.linked ∨
      ∃ f ∈ x.functions, ∃ y, s.values.get? f = some y ∧ v ∈ y.arguments ∧
        s.values.contains v = true := by
  rw [← doomed_owned hs hm, doomed, List.mem_flatMap, ← Module.mem_owned_iff]
  constructor
  · rintro ⟨f, hf, hmem⟩
    obtain ⟨y, hy, -, hparent⟩ := hs.of_mem_owned hm hf
    rcases (mem_goesWith_iff hy).1 hmem with rfl | ⟨harguments, hthere⟩
    · exact .inl hf
    · -- only functions have arguments
      obtain ⟨k, hk⟩ := Module.mem_linked_iff.1 (Module.mem_owned_iff.1 hf)
      obtain ⟨z, hz, hkind, -⟩ := hs.listed hm hk
      obtain rfl : y = z := by simpa [hy] using hz
      rw [← hkind, Value.kind_of_mem_arguments harguments] at hk
      exact .inr ⟨f, hk, y, hy, harguments, hthere⟩
  · rintro (hv | ⟨f, hf, y, hy, harguments, hthere⟩)
    · obtain ⟨y, hy, -⟩ := hs.of_mem_owned hm hv
      exact ⟨v, hv, (mem_goesWith_iff hy).2 (.inl rfl)⟩
    · have howned : f ∈ x.owned :=
        Module.mem_owned_iff.2 (Module.mem_linked_iff.2 ⟨.function, hf⟩)
      exact ⟨f, howned, (mem_goesWith_iff hy).2 (.inr ⟨harguments, hthere⟩)⟩

/-- A value of another module, or of none, stays, and so do its arguments. -/
theorem not_mem_contents (hs : s.ListsGlobals) (ha : s.ListsArguments)
    (hm : s.modules.get? m = some x) {y : Value} (hv : s.values.get? v = some y)
    (hkind : y.kind ≠ .argument) (hparent : y.parent ≠ some m) :
    v ∉ s.contents x ∧ ∀ a ∈ y.arguments, a ∉ s.contents x := by
  -- whatever the module lists has it as its parent
  have hout : v ∉ x.linked := by
    intro hmem
    obtain ⟨z, hz, -, hmodule⟩ := hs.of_mem_owned hm (Module.mem_owned_iff.2 hmem)
    obtain rfl : y = z := by simpa [hv] using hz
    exact hparent hmodule
  refine ⟨fun hmem => ?_, fun a hay hmem => ?_⟩
  -- it is neither listed nor an argument
  · rcases (mem_contents_iff hs hm).1 hmem with hlinked | ⟨f, hf, z, hz, harguments, -⟩
    · exact hout hlinked
    · exact hkind (ha.argument hz harguments hv).1
  · rcases (mem_contents_iff hs hm).1 hmem with hlinked | ⟨f, hf, z, hz, harguments, -⟩
    · obtain ⟨z, hz, hglobal, -⟩ := hs.of_mem_owned hm (Module.mem_owned_iff.2 hlinked)
      rw [Value.isGlobal, (ha.argument hv hay hz).1] at hglobal
      cases hglobal
    · -- the function that has the argument is this one
      obtain rfl : f = v := ha.unique hz hv harguments hay
      exact hout (Module.mem_linked_iff.2 ⟨.function, hf⟩)

/-- What goes with a module is on the lists of no other one. -/
theorem not_mem_linked_of_mem_contents (hs : s.ListsGlobals) (ha : s.ListsArguments)
    (hm : s.modules.get? m = some x) (hv : v ∈ s.contents x) {n : Ref .module} {y : Module}
    (hne : n ≠ m) (hn : s.modules.get? n = some y) : v ∉ y.linked := by
  intro hlinked
  obtain ⟨z, hz, hglobal, hparent⟩ := hs.of_mem_owned hn (Module.mem_owned_iff.2 hlinked)
  refine (not_mem_contents hs ha hm hz (fun hkind => ?_) fun hparent' => ?_).1 hv
  · rw [Value.isGlobal, hkind] at hglobal
    cases hglobal
  · exact hne (Option.some.inj (hparent.symm.trans hparent'))

/-! ## A store without a module

`Sheds` describes a store by another one, in full: every arena is mentioned, with the order of
what stays, so that nothing can change that is not in the list of fields. -/

/-- From `s` to `t` the module `m` has gone with its contents, and nothing else. -/
structure Sheds (s : Store) (m : Ref .module) (x : Module) (t : Store) : Prop where
  /-- What is left, said without the contents: neither a global of the module nor an argument of
  one of its functions. -/
  left : ∀ v, t.values.contains v = true ↔ s.values.contains v = true ∧ v ∉ x.linked ∧
    ∀ f ∈ x.functions, ∀ y, s.values.get? f = some y → v ∉ y.arguments
  /-- Values that are left keep their order. -/
  refs : t.values.refs = s.values.refs.filter (· ∉ s.contents x)
  /-- An alias elsewhere whose aliasee has gone stands for nothing. -/
  values : ∀ v, t.values.get? v =
    if v ∈ s.contents x then none else (s.values.get? v).map (Value.without (s.contents x))
  /-- Values of other modules and of none are left, and so are the arguments of functions there. -/
  others : ∀ {v y}, s.values.get? v = some y → y.kind ≠ .argument → y.parent ≠ some m →
    t.values.get? v = some (y.without (s.contents x)) ∧
      ∀ a ∈ y.arguments, t.values.get? a = s.values.get? a
  /-- Other modules list what they listed. -/
  modules : ∀ n, t.modules.get? n = if n = m then none else s.modules.get? n
  /-- No metadata goes, and it keeps its order; a wrapper of what is gone has no value. -/
  metadataRefs : t.metadata.refs = s.metadata.refs
  metadata : ∀ d,
    t.metadata.get? d = (s.metadata.get? d).map (Metadata.without (s.contents x))
  /-- Contexts and attributes are not concerned. -/
  contexts : t.contexts = s.contexts
  attributes : t.attributes = s.attributes
  /-- Comdats and named metadata of the module go with it; cursors over them stay, and find
  nothing. -/
  comdats : t.comdats = s.comdats.filter (fun _ y => y.module ≠ m)
  comdatCursors : t.comdatCursors = s.comdatCursors
  namedMetadata : t.namedMetadata = s.namedMetadata.filter (fun _ y => y.parent ≠ m)

/-- When its contents are released and it is retired, a module has gone with its contents. -/
theorem sheds_contents (hs : s.ListsGlobals) (ha : s.ListsArguments)
    (hm : s.modules.get? m = some x) :
    s.Sheds m x ((s.releaseAll (s.contents x)).retireModule m) := by
  have hvalues : ∀ w, (s.releaseAll (s.contents x)).values.get? w =
      if w ∈ s.contents x then none else (s.values.get? w).map (Value.without (s.contents x)) :=
    s.get?_values_releaseAll (s.contents x)
  obtain ⟨hcontexts, haside⟩ := s.changesOnly_releaseAll (s.contents x)
  refine ⟨fun v => ?_, s.refs_values_releaseAll _, hvalues, fun {v y} hv hkind hparent => ?_,
    fun n => ?_, s.refs_metadata_releaseAll _, s.get?_metadata_releaseAll _, hcontexts,
    haside.attributes (by simp), ?_, haside.comdatCursors (by simp), ?_⟩
  -- what is there afterwards was there and is not of the contents
  · have hgone : ((s.releaseAll (s.contents x)).retireModule m).values.contains v = true ↔
        v ∉ s.contents x ∧ s.values.contains v = true := by
      show ((s.releaseAll (s.contents x)).values.get? v).isSome = true ↔ _
      rw [hvalues]
      by_cases hv : v ∈ s.contents x <;> simp [hv, Arena.contains]
    rw [hgone, mem_contents_iff hs hm, and_comm, not_or]
    refine and_congr_right fun hthere => and_congr_right fun _ => ?_
    simp only [hthere, and_true, not_exists, not_and]
  -- a value elsewhere stays, and so do its arguments; these are no aliases, so they lose nothing
  · obtain ⟨hstays, harguments⟩ := not_mem_contents hs ha hm hv hkind hparent
    refine ⟨(hvalues v).trans (by rw [if_neg hstays, hv, Option.map_some]), fun a hay => ?_⟩
    refine (hvalues a).trans ?_
    rw [if_neg (harguments a hay)]
    cases hget : s.values.get? a with
    | none => rfl
    | some z =>
      have hplain : z.kind ≠ .globalAlias := by
        rw [(ha.argument hv hay hget).1]
        simp
      rw [Option.map_some, Value.without_of_kind_ne _ hplain]
  · rw [get?_modules_retireModule]
    split
    · rfl
    · rename_i hne
      exact get?_modules_releaseAll fun hy v hv => not_mem_linked_of_mem_contents hs ha hm hv hne hy
  · rw [retireModule, haside.comdats (by simp)]
  · rw [retireModule, haside.namedMetadata (by simp)]

end Contents

end Store

end ForeignHandles
