import ForeignHandles.Text.Boundary

/-!
  Target machines and their options.

  Everything is read one property at a time, choices as numbers. Null reads as the default
  machine.
-/
namespace ForeignHandles

inductive OptLevel where
  | none | less | default | aggressive
  deriving DecidableEq

inductive RelocMode where
  | default | static | pic | dynamicNoPic | ropi | rwpi | ropiRwpi
  deriving DecidableEq

inductive CodeModel where
  | default | jitDefault | tiny | small | kernel | medium | large
  deriving DecidableEq

/-- What happens when instruction selection does not manage. -/
inductive SelectionAbort where
  | enable | disable | disableWithDiag
  deriving DecidableEq

namespace OptLevel

def all : List OptLevel := [.none, .less, .default, .aggressive]

/-- The number of a choice is its place. -/
def code (x : OptLevel) : UInt32 := UInt32.ofNat (all.idxOf x)

def ofCode? (n : UInt32) : Option OptLevel := all[n.toNat]?

end OptLevel

namespace RelocMode

def all : List RelocMode := [.default, .static, .pic, .dynamicNoPic, .ropi, .rwpi, .ropiRwpi]

/-- The number of a choice is its place. -/
def code (x : RelocMode) : UInt32 := UInt32.ofNat (all.idxOf x)

def ofCode? (n : UInt32) : Option RelocMode := all[n.toNat]?

end RelocMode

namespace CodeModel

def all : List CodeModel := [.default, .jitDefault, .tiny, .small, .kernel, .medium, .large]

/-- The number of a choice is its place. -/
def code (x : CodeModel) : UInt32 := UInt32.ofNat (all.idxOf x)

def ofCode? (n : UInt32) : Option CodeModel := all[n.toNat]?

end CodeModel

namespace SelectionAbort

def all : List SelectionAbort := [.enable, .disable, .disableWithDiag]

/-- The number of a choice is its place. -/
def code (x : SelectionAbort) : UInt32 := UInt32.ofNat (all.idxOf x)

def ofCode? (n : UInt32) : Option SelectionAbort := all[n.toNat]?

end SelectionAbort

structure MachineOptions where
  cpu : String := ""
  features : String := ""
  abi : String := ""
  optLevel : OptLevel := .default
  relocMode : RelocMode := .default
  codeModel : CodeModel := .default

structure Machine where
  triple : String := ""
  options : MachineOptions := {}
  asmVerbose : Bool := false
  fastISel : Bool := false
  globalISel : Bool := false
  globalISelAbort : SelectionAbort := .enable
  machineOutliner : Bool := false

namespace Machine

/-- What callers read: null stands for the default machine. -/
def orDefault (m : Option Machine) : Machine := m.getD {}

def tripleText (m : Option Machine) : Option String := lendText (orDefault m).triple
def asmVerbosity (m : Option Machine) : Bool := (orDefault m).asmVerbose
def usesFastISel (m : Option Machine) : Bool := (orDefault m).fastISel
def usesGlobalISel (m : Option Machine) : Bool := (orDefault m).globalISel
def abortCode (m : Option Machine) : UInt32 := (orDefault m).globalISelAbort.code
def usesOutliner (m : Option Machine) : Bool := (orDefault m).machineOutliner

end Machine

namespace MachineOptions

/-- What callers read: null stands for the default options. -/
def orDefault (o : Option MachineOptions) : MachineOptions := o.getD {}

def cpuText (o : Option MachineOptions) : Option String := lendText (orDefault o).cpu
def featuresText (o : Option MachineOptions) : Option String := lendText (orDefault o).features
def abiText (o : Option MachineOptions) : Option String := lendText (orDefault o).abi
def optLevelCode (o : Option MachineOptions) : UInt32 := (orDefault o).optLevel.code
def relocModeCode (o : Option MachineOptions) : UInt32 := (orDefault o).relocMode.code
def codeModelCode (o : Option MachineOptions) : UInt32 := (orDefault o).codeModel.code

end MachineOptions

end ForeignHandles
