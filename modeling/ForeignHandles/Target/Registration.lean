import ForeignHandles.Flags
import ForeignHandles.Sizing

/-!
  Which code generation targets are registered, and for what.

  The registry is a log of targets and steps, each pair once, in the order in which they were first
  registered. A caller names a target by number and the steps by flags. Three numbers name no single
  target: none is refused, native is the target of this machine, and all means every target that is
  built in. For the native target the three code generation steps go together: any of them brings
  the others.

  Which targets are built in, and what this machine is, is settled when the library is built
  (`Build`). Both are chosen from the same few targets, those that a build can leave out. A build
  need not have the target of the machine it is for, and the machine may be none of them; it is then
  registered under the name of the native target. Whatever is asked about targets here is asked of a
  build, the usual one unless another is given.
-/
namespace ForeignHandles

/-- What can be registered for a target. -/
inductive RegistrationStep where
  | target | targetInfo | targetMachine | asmPrinter | disassembler | asmParser
  deriving DecidableEq

namespace RegistrationStep

/-- The steps in the order in which they are registered. -/
def all : List RegistrationStep :=
  [.target, .targetInfo, .targetMachine, .asmPrinter, .disassembler, .asmParser]

def text : RegistrationStep → String
  | .target => "target"
  | .targetInfo => "target info"
  | .targetMachine => "target machine"
  | .asmPrinter => "asm printer"
  | .disassembler => "disassembler"
  | .asmParser => "asm parser"

end RegistrationStep

/-! ## Targets by number -/

/-- The targets that a number can name. -/
inductive Target where
  | none | native
  | aarch64 | amdgpu | arm | avr | bpf | hexagon | lanai | loongArch | mips | msp430 | nvptx
  | powerPC | riscv | sparc | spirv | systemZ | ve | webAssembly | x86 | xcore
  | all
  deriving DecidableEq

namespace Target

/-- The targets numbered from zero on. -/
def numbered : List Target :=
  [.none, .native, .aarch64, .amdgpu, .arm, .avr, .bpf, .hexagon, .lanai, .loongArch, .mips,
   .msp430, .nvptx, .powerPC, .riscv, .sparc, .spirv, .systemZ, .ve, .webAssembly, .x86, .xcore]

/-- The number that means every target: the largest. -/
def allCode : Int32 := 2147483647

/-- The number of a target. -/
def code (t : Target) : Int32 :=
  if t = .all then allCode else Int32.ofNat (numbered.idxOf t)

/-- The target of a number. -/
def ofCode? (n : Int32) : Option Target :=
  if n = allCode then some .all
  else if n.toInt < 0 then Option.none
  else numbered[n.toInt.toNat]?

def name : Target → String
  | .none => "None"
  | .native => "Native"
  | .aarch64 => "AArch64"
  | .amdgpu => "AMDGPU"
  | .arm => "ARM"
  | .avr => "AVR"
  | .bpf => "BPF"
  | .hexagon => "Hexagon"
  | .lanai => "Lanai"
  | .loongArch => "LoongArch"
  | .mips => "MIPS"
  | .msp430 => "MSP430"
  | .nvptx => "NVPTX"
  | .powerPC => "PowerPC"
  | .riscv => "RISCV"
  | .sparc => "Sparc"
  | .spirv => "SPIRV"
  | .systemZ => "SystemZ"
  | .ve => "VE"
  | .webAssembly => "WebAssembly"
  | .x86 => "X86"
  | .xcore => "XCore"
  | .all => "All"

end Target

/-! ## Builds -/

/-- A target that a build can have or leave out. -/
inductive TargetFeature where
  | aarch64 | arm | riscv | webAssembly | x86
  deriving DecidableEq

namespace TargetFeature

/-- The features in the order of their targets. -/
def all : List TargetFeature := [.aarch64, .arm, .riscv, .webAssembly, .x86]

def target : TargetFeature → Target
  | .aarch64 => .aarch64
  | .arm => .arm
  | .riscv => .riscv
  | .webAssembly => .webAssembly
  | .x86 => .x86

end TargetFeature

/-- How the library is built. -/
structure Build where
  /-- Which targets are built in. -/
  has : TargetFeature → Bool := fun feature => feature = .aarch64 ∨ feature = .x86
  /-- What the machine is, if it is one of these. -/
  machine : Option TargetFeature := some .x86

namespace Target

/-- The targets that are built in. -/
def available (b : Build := {}) : List Target :=
  (TargetFeature.all.filter b.has).map TargetFeature.target

/-- The target of this machine. -/
def host (b : Build := {}) : Target := (b.machine.map TargetFeature.target).getD .native

/-- The target of a number, provided it can be registered. -/
def validate (n : Int32) (b : Build := {}) : Except BoundaryError Target :=
  match ofCode? n with
  | Option.none | some .none => .error (.outOfRange "target" n.toInt)
  | some t =>
    if t = .native ∨ t = .all ∨ (available b).contains t then .ok t
    else .error (.unsupported ("target " ++ t.name))

/-- The number of targets that are built in. -/
def availableCount (b : Build := {}) : Int32 := Int32.ofNat (available b).length

/-- Writes the numbers of the targets that are built in to an array of the caller. -/
def fillAvailable (dest : Option (List Int32)) (length : Int32) (b : Build := {}) :
    Except BoundaryError Unit × Option (List Int32) :=
  match capacityOfInt "targets" length with
  | .error e => (.error e, dest)
  | .ok capacity => fillArray "targets" dest capacity ((available b).map code)

end Target

/-! ## Steps by flags -/

/-- The steps that a caller asks for. -/
def registrationKind : FlagFamily := ⟨32, 0x3F⟩

namespace RegistrationStep

/-- The flag of a step. -/
def flag : RegistrationStep → Flags registrationKind
  | .target => .ofNat 0x01
  | .targetInfo => .ofNat 0x02
  | .targetMachine => .ofNat 0x04
  | .asmPrinter => .ofNat 0x08
  | .disassembler => .ofNat 0x10
  | .asmParser => .ofNat 0x20

/-- The flags of the steps that code generation needs. -/
def codeGen : Flags registrationKind := .ofNat 0x07

/-- The steps of a flag set. -/
def ofFlags (kinds : Flags registrationKind) : List RegistrationStep :=
  all.filter (fun step => kinds.allSet step.flag)

end RegistrationStep

/-! ## The registry -/

/-- One line of the log. -/
structure Registration where
  target : String
  step : RegistrationStep
  deriving DecidableEq

/-- What has been registered, in the order in which it first was. -/
structure Registry where
  log : List Registration := []
  nodup : log.Nodup := by simp

instance : Inhabited Registry := ⟨{}⟩

namespace Registry

def isRegistered (r : Registry) (x : Registration) : Bool := r.log.contains x

/-- Adds a line at the end, unless it is there; says whether it was added. -/
def register (r : Registry) (x : Registration) : Bool × Registry :=
  if h : x ∈ r.log then (false, r)
  else
    (true,
     { log := r.log ++ [x]
       nodup := by
         rw [List.nodup_append]
         refine ⟨r.nodup, by simp, ?_⟩
         intro a ha b hb
         obtain rfl : b = x := by simpa using hb
         exact fun hab => h (hab ▸ ha) })

/-- Registers steps for one target, in order. -/
def registerSteps (r : Registry) (target : String) (kinds : Flags registrationKind) : Registry :=
  (RegistrationStep.ofFlags kinds).foldl (fun r step => (r.register ⟨target, step⟩).2) r

/-- The steps for the native target: one code generation step brings them all. -/
def widen (kinds : Flags registrationKind) : Flags registrationKind :=
  if kinds.anySet RegistrationStep.codeGen then kinds.union RegistrationStep.codeGen else kinds

/-- Registers what a caller asks for. Flags that are not declared ask for nothing. -/
def registerTarget (r : Registry) (target : Int32) (kinds : UInt32) (b : Build := {}) :
    Except BoundaryError Unit × Registry :=
  let kinds : Flags registrationKind := (Flags.ofNat kinds.toNat).truncate
  match Target.validate target b with
  | .error e => (.error e, r)
  | .ok .native => (.ok (), r.registerSteps (Target.host b).name (widen kinds))
  | .ok .all => (.ok (), (Target.available b).foldl (fun r t => r.registerSteps t.name kinds) r)
  | .ok t => (.ok (), r.registerSteps t.name kinds)

theorem mem_register (r : Registry) (x y : Registration) :
    y ∈ (r.register x).2.log ↔ y ∈ r.log ∨ y = x := by
  unfold register
  split
  · rename_i h
    constructor
    · exact Or.inl
    · rintro (h' | rfl)
      · exact h'
      · exact h
  · simp

end Registry

end ForeignHandles
