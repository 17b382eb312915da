import Mathlib.Data.List.Perm.Basic
import ForeignHandles.Proofs.Flags
import ForeignHandles.Target.Registration

/-!
  Registration as a set that grows.

  A run of calls is a fold of folds: over the calls, over the targets of a call for all of them, and
  over the steps of a target.  At each level two facts pass from one turn to the whole fold, which
  lines are in the log afterwards (`mem_foldl`) and that what was there stays in front
  (`prefix_foldl`).  Since no line is there twice, they leave no choice to a call that asks for
  nothing new: it changes nothing at all (`eq_of_prefix`).

  What a call asks for (`Asks`) is said by the bits of the word that the caller passes, without the
  flag sets in which the registry computes.

  All of it holds of any build, and of the build one thing alone is used: no target that is built in
  has one of the three numbers with a meaning of their own (`special_of_mem_available`).  So the
  four ways to ask never overlap, and each gets a lemma for what the registry does and one for what
  was asked.
-/
namespace ForeignHandles

/-! ## What is asked for

The word of a caller may have any bits set. Those without a meaning are cut off before anything is
registered, so a step is named by its own bit and nothing else. -/

namespace RegistrationStep

/-- The bit of a step in the word of a caller. -/
def bit : RegistrationStep → Nat
  | .target => 0
  | .targetInfo => 1
  | .targetMachine => 2
  | .asmPrinter => 3
  | .disassembler => 4
  | .asmParser => 5

/-- Whether code generation needs the step. -/
def IsCodeGen (step : RegistrationStep) : Prop :=
  step = .target ∨ step = .targetInfo ∨ step = .targetMachine

instance : DecidablePred IsCodeGen := fun _ => inferInstanceAs (Decidable (_ ∨ _ ∨ _))

/-- Whether a word names the step. -/
def IsNamed (kinds : UInt32) (step : RegistrationStep) : Prop := kinds.toNat.testBit step.bit = true

/-- The list of all steps has all of them. -/
theorem mem_all (step : RegistrationStep) : step ∈ all := by cases step <;> decide

/-- The flag of a step has one bit, -/
theorem word_flag (step : RegistrationStep) : step.flag.word = BitVec.twoPow 64 step.bit := by
  cases step <;> rfl

/-- which is one of the six that are declared. -/
theorem bit_lt (step : RegistrationStep) : step.bit < 6 := by cases step <;> decide

/-- The flag of a step is a single bit, so to ask for all of it is to ask for that bit. -/
theorem allSet_flag (kinds : Flags registrationKind) (step : RegistrationStep) :
    kinds.allSet step.flag = kinds.bits.getLsbD step.bit := by
  have hbit : step.bit < 64 := Nat.lt_trans step.bit_lt (by decide)
  rw [Flags.allSet, word_flag, BitVec.twoPow_eq]
  exact Flags.bitSet_eq (by decide) kinds hbit

/-- Whether any step of code generation is asked for is a matter of three bits. -/
theorem anySet_codeGen (kinds : Flags registrationKind) :
    kinds.anySet codeGen = true ↔ ∃ step, IsCodeGen step ∧ kinds.bits.getLsbD step.bit = true := by
  have hcodeGen : codeGen.word = BitVec.twoPow 64 (bit .target) |||
      BitVec.twoPow 64 (bit .targetInfo) ||| BitVec.twoPow 64 (bit .targetMachine) := rfl
  have hwidth : registrationKind.width ≤ 64 := by decide
  rw [Flags.anySet, hcodeGen, BitVec.and_or_distrib_left, BitVec.and_or_distrib_left]
  simp only [BitVec.and_twoPow, Flags.getLsbD_word hwidth, IsCodeGen, exists_eq_left, or_and_right,
    exists_or]
  cases kinds.bits.getLsbD (bit .target) <;> cases kinds.bits.getLsbD (bit .targetInfo) <;>
    cases kinds.bits.getLsbD (bit .targetMachine) <;> decide

/-- The flags of a caller, as far as they are declared, are the steps that the word names. -/
theorem getLsbD_truncate (kinds : UInt32) (step : RegistrationStep) :
    (Flags.truncate (f := registrationKind) (.ofNat kinds.toNat)).bits.getLsbD step.bit = true ↔
      IsNamed kinds step := by
  have hdeclared : registrationKind.declared.getLsbD step.bit = true := by cases step <;> rfl
  have hbit : step.bit < registrationKind.width := Nat.lt_trans step.bit_lt (by decide)
  rw [Flags.mem_truncate, hdeclared, Bool.and_true, Flags.ofNat, BitVec.getLsbD_ofNat,
    decide_eq_true hbit, Bool.true_and, IsNamed]

end RegistrationStep

namespace Registry

/-- A call that may add to the log: of a caller, or of the library itself. -/
inductive Call where
  | target (number : Int32) (kinds : UInt32)
  | host (x : Registration)

/-- The log after a call. -/
def act (b : Build) (r : Registry) : Call → Registry
  | .target number kinds => (r.registerTarget number kinds b).2
  | .host x => (r.register x).2

/-- The log after a run of calls. -/
def run (b : Build) (r : Registry) (calls : List Call) : Registry := calls.foldl (act b) r

/-- What a call asks for. -/
inductive Asks (b : Build) : Call → Registration → Prop where
  | single {number kinds t step} : Target.ofCode? number = some t → t ∈ Target.available b →
    step.IsNamed kinds → Asks b (.target number kinds) ⟨t.name, step⟩
  | all {number kinds t step} : Target.ofCode? number = some .all → t ∈ Target.available b →
    step.IsNamed kinds → Asks b (.target number kinds) ⟨t.name, step⟩
  | native {number kinds step} : Target.ofCode? number = some .native → step.IsNamed kinds →
    Asks b (.target number kinds) ⟨(Target.host b).name, step⟩
  /-- For the target of this machine the steps of code generation go together. -/
  | widened {number kinds step} {other : RegistrationStep} : Target.ofCode? number = some .native →
    other.IsCodeGen → other.IsNamed kinds → step.IsCodeGen →
    Asks b (.target number kinds) ⟨(Target.host b).name, step⟩
  | host {x} : Asks b (.host x) x

/-- The numbers of targets that can be registered. -/
def IsSupported (b : Build) (number : Int32) : Prop :=
  ∃ t, Target.ofCode? number = some t ∧ (t = .native ∨ t = .all ∨ t ∈ Target.available b)

variable {b : Build} {r s : Registry} {number : Int32} {kinds : UInt32} {calls : List Call}
  {x : Registration}

/-! ## Folds

What one turn adds, the fold adds for each of its turns; and if each turn adds at the end, so does
the fold. -/

section
variable {α : Type} {f : Registry → α → Registry}

/-- What is in the log after a fold: what was there, and what each turn adds. -/
theorem mem_foldl {adds : α → Registration → Prop}
    (h : ∀ r a x, x ∈ (f r a).log ↔ x ∈ r.log ∨ adds a x) (r : Registry) (l : List α) :
    x ∈ (l.foldl f r).log ↔ x ∈ r.log ∨ ∃ a ∈ l, adds a x := by
  induction l generalizing r with
  | nil => simp
  | cons a l ih => simp [ih, h, or_assoc]

/-- A fold adds at the end if each turn does. -/
theorem prefix_foldl (h : ∀ r a, r.log <+: (f r a).log) (r : Registry) (l : List α) :
    r.log <+: (l.foldl f r).log := by
  induction l generalizing r with
  | nil => exact List.prefix_refl _
  | cons a l ih => exact (h r a).trans (ih _)

end

/-- A log that has the lines of another in front, and no others, is that log. -/
theorem eq_of_prefix (h : r.log <+: s.log) (hmem : ∀ x ∈ s.log, x ∈ r.log) : s = r := by
  obtain ⟨l, hl⟩ := h
  have hnodup := s.nodup
  rw [← hl, List.nodup_append] at hnodup
  have hnil : l = [] := List.eq_nil_iff_forall_not_mem.2 fun x hx =>
    hnodup.2.2 x (hmem x (hl ▸ List.mem_append_right _ hx)) x hx rfl
  cases r
  cases s
  simp_all

/-! ## One call

The numbers of targets are tried in four ways: one that is built in, all of them, the one of this
machine, or none. For each, one lemma says what the registry does and another one what was asked
for, in the same terms, and `mem_act` puts the two side by side. -/

/-- A registration is added at the end, unless it is there. -/
theorem prefix_register (r : Registry) (x : Registration) : r.log <+: (r.register x).2.log := by
  unfold register
  split
  · exact List.prefix_refl _
  · exact List.prefix_append _ _

/-- The steps of a target that are asked for are registered, each once, -/
theorem mem_registerSteps (r : Registry) (target : String) (kinds : Flags registrationKind)
    (x : Registration) : x ∈ (r.registerSteps target kinds).log ↔
      x ∈ r.log ∨ x.target = target ∧ kinds.bits.getLsbD x.step.bit = true := by
  rw [registerSteps, mem_foldl (fun r step x => r.mem_register ⟨target, step⟩ x)]
  simp only [RegistrationStep.ofFlags, List.mem_filter, RegistrationStep.mem_all, true_and,
    RegistrationStep.allSet_flag]
  refine or_congr_right ⟨?_, fun ⟨htarget, hstep⟩ => ⟨x.step, hstep, by rw [← htarget]⟩⟩
  rintro ⟨step, hstep, rfl⟩
  exact ⟨rfl, hstep⟩

/-- and so they are for several targets. -/
theorem mem_foldl_registerSteps {kinds : Flags registrationKind} {targets : List Target} :
    x ∈ (targets.foldl (fun r t => r.registerSteps t.name kinds) r).log ↔
      x ∈ r.log ∨ ∃ t ∈ targets, x.target = t.name ∧ kinds.bits.getLsbD x.step.bit = true :=
  mem_foldl (fun r (t : Target) x => r.mem_registerSteps t.name kinds x) r targets

/-- They are added at the end. -/
theorem prefix_registerSteps (r : Registry) (target : String) (kinds : Flags registrationKind) :
    r.log <+: (r.registerSteps target kinds).log :=
  prefix_foldl (fun r _ => r.prefix_register _) _ _

/-- One step of code generation brings all three. -/
theorem getLsbD_widen {kinds : Flags registrationKind} {step : RegistrationStep} :
    (widen kinds).bits.getLsbD step.bit = true ↔ kinds.bits.getLsbD step.bit = true ∨
      step.IsCodeGen ∧ ∃ other : RegistrationStep, other.IsCodeGen ∧
        kinds.bits.getLsbD other.bit = true := by
  have hcodeGen : RegistrationStep.codeGen.bits.getLsbD step.bit = true ↔ step.IsCodeGen := by
    cases step <;> decide
  rw [← RegistrationStep.anySet_codeGen, widen]
  split
  · rename_i h
    simp [Flags.mem_union, hcodeGen, h]
  · rename_i h
    simp [h]

/-- What a caller asks for, as the registry reads it. -/
def flagsOf (kinds : UInt32) : Flags registrationKind := (Flags.ofNat kinds.toNat).truncate

/-- No target that is built in has one of the numbers with a meaning of their own. -/
theorem special_of_mem_available {t : Target} (hmem : t ∈ Target.available b) :
    t ≠ .none ∧ t ≠ .native ∧ t ≠ .all := by
  obtain ⟨feature, -, rfl⟩ := List.mem_map.1 hmem
  cases feature <;> decide

/-- The number of a target that is built in registers the steps for that target. -/
theorem registerTarget_of_single {t : Target} (ht : Target.ofCode? number = some t)
    (hmem : t ∈ Target.available b) :
    r.registerTarget number kinds b = (.ok (), r.registerSteps t.name (flagsOf kinds)) := by
  obtain ⟨hnone, hnative, hall⟩ := special_of_mem_available hmem
  cases t with
  | none => exact absurd rfl hnone
  | native => exact absurd rfl hnative
  | all => exact absurd rfl hall
  | _ => simp [registerTarget, Target.validate, ht, hmem, flagsOf]

/-- For the target of this machine the request is widened first, -/
theorem registerTarget_of_native (ht : Target.ofCode? number = some .native) :
    r.registerTarget number kinds b =
      (.ok (), r.registerSteps (Target.host b).name (widen (flagsOf kinds))) := by
  simp [registerTarget, Target.validate, ht, flagsOf]

/-- and for all targets it is repeated for each that is built in. -/
theorem registerTarget_of_all (ht : Target.ofCode? number = some .all) :
    r.registerTarget number kinds b =
      (.ok (), (Target.available b).foldl (fun r t => r.registerSteps t.name (flagsOf kinds)) r) := by
  simp [registerTarget, Target.validate, ht, flagsOf]

/-- Any other number is refused, -/
theorem validate_of_not_isSupported (h : ¬ IsSupported b number) :
    ∃ e, Target.validate number b = .error e := by
  cases ht : Target.ofCode? number with
  | none => exact ⟨_, by rw [Target.validate, ht]⟩
  | some t =>
    -- a known number that is not supported names a target that is not built in
    have hnot : ¬ (t = .native ∨ t = .all ∨ (Target.available b).contains t = true) := by
      rw [List.contains_iff_mem]
      exact fun h' => h ⟨t, ht, h'⟩
    cases t with
    | none => exact ⟨_, by rw [Target.validate, ht]⟩
    | _ => exact ⟨_, by rw [Target.validate, ht]; exact if_neg hnot⟩

/-- before anything is registered. -/
theorem registerTarget_of_not_isSupported (r : Registry) (kinds : UInt32)
    (h : ¬ IsSupported b number) : ∃ e, r.registerTarget number kinds b = (.error e, r) := by
  obtain ⟨e, he⟩ := validate_of_not_isSupported h
  exact ⟨e, by simp only [registerTarget, he]⟩

/-- A call succeeds exactly for the numbers of targets that can be registered. -/
theorem registerTarget_ok_iff :
    (r.registerTarget number kinds b).1 = .ok () ↔ IsSupported b number := by
  by_cases h : IsSupported b number
  · refine iff_of_true ?_ h
    obtain ⟨t, ht, rfl | rfl | hmem⟩ := h
    · rw [registerTarget_of_native ht]
    · rw [registerTarget_of_all ht]
    · rw [registerTarget_of_single ht hmem]
  · obtain ⟨e, he⟩ := r.registerTarget_of_not_isSupported kinds h
    simp [he, h]

/-- Whoever asks for something uses a number that is supported. -/
theorem isSupported_of_asks (h : Asks b (.target number kinds) x) : IsSupported b number := by
  cases h with
  | single ht hmem _ => exact ⟨_, ht, .inr (.inr hmem)⟩
  | all ht _ _ => exact ⟨_, ht, .inr (.inl rfl)⟩
  | native ht _ => exact ⟨_, ht, .inl rfl⟩
  | widened ht _ _ _ => exact ⟨_, ht, .inl rfl⟩

/-- What a call for one target asks for, -/
theorem asks_single_iff {t : Target} (ht : Target.ofCode? number = some t)
    (hmem : t ∈ Target.available b) :
    Asks b (.target number kinds) x ↔ x.target = t.name ∧ x.step.IsNamed kinds := by
  obtain ⟨-, hnative, hall⟩ := special_of_mem_available hmem
  constructor
  · intro h
    cases h with
    | single ht' _ hnamed =>
      cases ht.symm.trans ht'
      exact ⟨rfl, hnamed⟩
    | all ht' _ _ => exact absurd (Option.some.inj (ht.symm.trans ht')) hall
    | native ht' _ => exact absurd (Option.some.inj (ht.symm.trans ht')) hnative
    | widened ht' _ _ _ => exact absurd (Option.some.inj (ht.symm.trans ht')) hnative
  · obtain ⟨target, step⟩ := x
    rintro ⟨rfl, hnamed⟩
    exact .single ht hmem hnamed

/-- a call for all targets, -/
theorem asks_all_iff (ht : Target.ofCode? number = some .all) :
    Asks b (.target number kinds) x ↔
      ∃ t ∈ Target.available b, x.target = t.name ∧ x.step.IsNamed kinds := by
  constructor
  · intro h
    cases h with
    | single _ hmem hnamed => exact ⟨_, hmem, rfl, hnamed⟩
    | all _ hmem hnamed => exact ⟨_, hmem, rfl, hnamed⟩
    | native ht' _ => cases ht.symm.trans ht'
    | widened ht' _ _ _ => cases ht.symm.trans ht'
  · obtain ⟨target, step⟩ := x
    rintro ⟨t, hmem, rfl, hnamed⟩
    exact .all ht hmem hnamed

/-- and one for the target of this machine. -/
theorem asks_native_iff (ht : Target.ofCode? number = some .native) :
    Asks b (.target number kinds) x ↔ x.target = (Target.host b).name ∧
      (x.step.IsNamed kinds ∨
        x.step.IsCodeGen ∧ ∃ other : RegistrationStep, other.IsCodeGen ∧ other.IsNamed kinds) := by
  constructor
  · intro h
    cases h with
    | single ht' hmem _ =>
      exact absurd (Option.some.inj (ht'.symm.trans ht)) (special_of_mem_available hmem).2.1
    | all ht' _ _ => cases ht.symm.trans ht'
    | native _ hnamed => exact ⟨rfl, .inl hnamed⟩
    | widened _ hother hnamed hstep => exact ⟨rfl, .inr ⟨hstep, _, hother, hnamed⟩⟩
  · obtain ⟨target, step⟩ := x
    rintro ⟨rfl, hnamed | ⟨hstep, other, hother, hnamed⟩⟩
    · exact .native ht hnamed
    · exact .widened ht hother hnamed hstep

/-- A call adds what it asks for and nothing else. -/
theorem mem_act (b : Build) (r : Registry) (c : Call) (x : Registration) :
    x ∈ (r.act b c).log ↔ x ∈ r.log ∨ Asks b c x := by
  cases c with
  | host y =>
    rw [act, mem_register]
    refine or_congr_right ⟨?_, ?_⟩
    · rintro rfl
      exact .host
    · rintro ⟨⟩
      rfl
  | target number kinds =>
    rw [act]
    by_cases h : IsSupported b number
    · obtain ⟨t, ht, rfl | rfl | hmem⟩ := h
      · rw [registerTarget_of_native ht, mem_registerSteps, getLsbD_widen, asks_native_iff ht]
        simp only [flagsOf, RegistrationStep.getLsbD_truncate]
      · rw [registerTarget_of_all ht, mem_foldl_registerSteps, asks_all_iff ht]
        simp only [flagsOf, RegistrationStep.getLsbD_truncate]
      · rw [registerTarget_of_single ht hmem, mem_registerSteps, asks_single_iff ht hmem, flagsOf,
          RegistrationStep.getLsbD_truncate]
    · obtain ⟨e, he⟩ := r.registerTarget_of_not_isSupported kinds h
      rw [he]
      exact ⟨.inl, fun h' => h'.resolve_right (fun hasks => h (isSupported_of_asks hasks))⟩

/-- A call adds at the end. -/
theorem prefix_act (b : Build) (r : Registry) (c : Call) : r.log <+: (r.act b c).log := by
  cases c with
  | host y => exact r.prefix_register y
  | target number kinds =>
    rw [act]
    by_cases h : IsSupported b number
    -- the three sorts of numbers that are supported
    · obtain ⟨t, ht, rfl | rfl | hmem⟩ := h
      · rw [registerTarget_of_native ht]
        exact r.prefix_registerSteps _ _
      · rw [registerTarget_of_all ht]
        exact prefix_foldl (fun r (t : Target) => r.prefix_registerSteps t.name _) r _
      · rw [registerTarget_of_single ht hmem]
        exact r.prefix_registerSteps _ _
    · obtain ⟨e, he⟩ := r.registerTarget_of_not_isSupported kinds h
      exact he.symm ▸ List.prefix_refl _

/-! ## Runs

Over a run the order of the calls shows in the order of the log only. -/

/-- What a run adds is what its calls ask for, -/
theorem mem_run : x ∈ (r.run b calls).log ↔ x ∈ r.log ∨ ∃ c ∈ calls, Asks b c x :=
  mem_foldl (mem_act b) r calls

/-- and what is in the log stays where it is while the run goes on. -/
theorem prefix_run (b : Build) (r : Registry) (before after : List Call) :
    (r.run b before).log <+: (r.run b (before ++ after)).log := by
  rw [run, run, List.foldl_append]
  exact prefix_foldl (prefix_act b) _ after

/-- A call that asks for nothing new changes nothing. -/
theorem act_eq_self {c : Call} (h : ∀ x, Asks b c x → x ∈ r.log) : r.act b c = r :=
  eq_of_prefix (r.prefix_act b c) fun x hx => ((r.mem_act b c x).1 hx).elim id (h x)

/-- What a run of calls does to the log. -/
structure GrowsAsSet (b : Build) (r : Registry) (calls : List Call) : Prop where
  nodup : (r.run b calls).log.Nodup
  /-- What is in the log stays where it is. -/
  grows : ∀ before after, calls = before ++ after → (r.run b before).log <+: (r.run b calls).log
  /-- The log has what was there and what the calls ask for. -/
  mem_iff : ∀ x, x ∈ (r.run b calls).log ↔ x ∈ r.log ∨ ∃ c ∈ calls, Asks b c x
  /-- A call asks for something only if it succeeds, -/
  succeeds_of_asks : ∀ number kinds x, Asks b (.target number kinds) x →
    ((r.run b calls).registerTarget number kinds b).1 = .ok ()
  /-- which is a matter of the number alone, -/
  succeeds_iff : ∀ number kinds,
    ((r.run b calls).registerTarget number kinds b).1 = .ok () ↔ IsSupported b number
  /-- and a call that fails adds nothing. -/
  fails : ∀ number kinds e, ((r.run b calls).registerTarget number kinds b).1 = .error e →
    ((r.run b calls).registerTarget number kinds b).2 = r.run b calls
  repeated : ∀ c ∈ calls, (r.run b calls).act b c = r.run b calls
  order : ∀ calls', calls.Perm calls' → ∀ x, x ∈ (r.run b calls').log ↔ x ∈ (r.run b calls).log

/-- **Registration is a set that grows.** Whatever the calls and their order, the log has exactly
what they ask for and what was there before, each line once and in the order in which it was first
registered.

It makes no difference which targets are built in and what the machine is.  What is asked for is said
without the registry, by the number and the bits that a caller passes, and the log may have had
anything in it before the first call. -/
theorem grows_as_set (b : Build) (r : Registry) (calls : List Call) : r.GrowsAsSet b calls where
  nodup := (r.run b calls).nodup
  grows := by
    rintro before after rfl
    exact r.prefix_run b before after
  mem_iff _ := mem_run
  succeeds_of_asks _ _ _ h := registerTarget_ok_iff.2 (isSupported_of_asks h)
  succeeds_iff _ _ := registerTarget_ok_iff
  fails number kinds e he := by
    have hnot : ¬ IsSupported b number := fun h => by
      rw [registerTarget_ok_iff.2 h] at he
      cases he
    obtain ⟨_, heq⟩ := (r.run b calls).registerTarget_of_not_isSupported kinds hnot
    rw [heq]
  repeated c hc := act_eq_self fun x hx => mem_run.2 (.inr ⟨c, hc, hx⟩)
  order calls' hperm x := by simp only [mem_run, hperm.mem_iff]

/-- The target of this machine, asked for a target machine and then by its own number. -/
example : (run {} {} [.target 1 4, .target 20 1]).log =
    [⟨"X86", .target⟩, ⟨"X86", .targetInfo⟩, ⟨"X86", .targetMachine⟩] := by
  decide

end Registry

end ForeignHandles
