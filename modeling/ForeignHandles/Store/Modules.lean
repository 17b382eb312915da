import ForeignHandles.Store
import ForeignHandles.Text.Require

/-!
  Modules and their globals.

  Names of linked globals are distinct within a module when they are added. An addition that is
  declined changes nothing: the arguments of a function are made only after its name has passed.
  Unlinking a variable takes it out of its module and leaves it alive in its context.

  Names passed in from outside are read leniently, so a module's name is always text.
-/
namespace ForeignHandles.Store

/-! ## Creation and names -/

/-- A new module, whose source file name is its name. -/
def createModule (s : Store) (c : Ref .context) (name : String) : Ref .module × Store :=
  let (m, modules) := s.modules.alloc { context := c, name, sourceFileName := name }
  (m, { s with modules })

/-- A new module under a name from outside; none for a null context or a name that is nowhere. -/
def createModuleNamed (s : Store) (h : Handle .context) (name : Input) : Handle .module × Store :=
  match h, name.bytes? with
  | some c, some bs =>
    let (m, s) := s.createModule c (Utf8.lossy bs)
    (some m, s)
  | _, _ => (none, s)

/-- Removes a module with its comdats and named metadata. Its globals have to be gone. -/
def retireModule (s : Store) (m : Ref .module) : Store :=
  { s with
    modules := s.modules.erase m
    comdats := s.comdats.filter (fun _ x => x.module ≠ m)
    namedMetadata := s.namedMetadata.filter (fun _ x => x.parent ≠ m) }

def moduleName (s : Store) (h : Handle .module) : Option String :=
  (s.module? h).bind (fun m => lendText m.name)

def moduleSource (s : Store) (h : Handle .module) : Option String :=
  (s.module? h).bind (fun m => lendText m.sourceFileName)

/-- Renames a module, unless the name is nowhere. -/
def setModuleName (s : Store) (h : Handle .module) (name : Input) : Store :=
  match h, name.bytes? with
  | some m, some bs =>
    { s with modules := s.modules.modify m (fun x => { x with name := Utf8.lossy bs }) }
  | _, _ => s

/-- Sets the source file name of a module, unless the name is nowhere. -/
def setModuleSource (s : Store) (h : Handle .module) (name : Input) : Store :=
  match h, name.bytes? with
  | some m, some bs =>
    { s with modules := s.modules.modify m (fun x => { x with sourceFileName := Utf8.lossy bs }) }
  | _, _ => s

/-! ## Adding globals -/

/-- Whether a value has the given name. -/
def isNamed (s : Store) (name : String) (v : Ref .value) : Bool :=
  (s.values.get? v).any (fun x => x.name = name)

/-- Declines a name that a linked global of the module has. -/
def ensureUnique (s : Store) (m : Module) (name : String) : Except HostError Unit :=
  if m.linked.any (s.isNamed name) then .error (.duplicateGlobal name) else .ok ()

/-- A new global, with the module as its parent and at the end of the list that `list` extends. -/
def adopt (s : Store) (m : Ref .module) (c : Ref .context) (name : String) (body : ValueBody)
    (list : Ref .value → Module → Module) : Ref .value × Store :=
  let (v, values) := s.values.alloc { context := c, name, parent := some m, body }
  (v, { s with values, modules := s.modules.modify m (list v) })

/-- The module for a new global, if it is there and the name is free in it. -/
def checkAddition (s : Store) (m : Ref .module) (name : String) : Except HostError Module :=
  match s.modules.get? m with
  | none => .error .unknownModule
  | some x => (s.ensureUnique x name).map (fun _ => x)

/-- A new variable of a module. -/
def addGlobalVariable (s : Store) (m : Ref .module) (name : String) :
    Except HostError (Ref .value) × Store :=
  match s.checkAddition m name with
  | .error e => (.error e, s)
  | .ok x =>
    let (v, s) := s.adopt m x.context name .globalVariable
      (fun v y => { y with globalVariables := y.globalVariables ++ [v] })
    (.ok v, s)

/-- The arguments of a function, from the given index on, `count` of them. -/
def addArguments (s : Store) (c : Ref .context) (index : Nat) : Nat → List (Ref .value) × Store
  | 0 => ([], s)
  | count + 1 =>
    let (v, s) := s.addValue c "" (.argument (UInt32.ofNat index))
    let (vs, s) := s.addArguments c (index + 1) count
    (v :: vs, s)

/-- A new function of a module with unnamed arguments. -/
def addFunction (s : Store) (m : Ref .module) (name : String) (argumentCount : UInt32) :
    Except HostError (Ref .value) × Store :=
  match s.checkAddition m name with
  | .error e => (.error e, s)
  | .ok x =>
    let (arguments, s) := s.addArguments x.context 0 argumentCount.toNat
    let (v, s) := s.adopt m x.context name (.function arguments)
      (fun v y => { y with functions := y.functions ++ [v] })
    (.ok v, s)

/-- A new alias of a module. Its aliasee has to be a global; that is looked at before the name. -/
def addGlobalAlias (s : Store) (m : Ref .module) (name : String) (aliasee : Ref .value) :
    Except HostError (Ref .value) × Store :=
  if !(s.values.get? aliasee).any (·.isGlobal) then (.error (.invalidAliasee name), s)
  else match s.checkAddition m name with
    | .error e => (.error e, s)
    | .ok x =>
      let (v, s) := s.adopt m x.context name (.globalAlias (some aliasee))
        (fun v y => { y with aliases := y.aliases ++ [v] })
      (.ok v, s)

/-! ## Finding globals -/

/-- The first of the listed values with a name. -/
def findNamed (s : Store) (vs : List (Ref .value)) (name : String) : Handle .value :=
  vs.find? (s.isNamed name)

def globalVariable? (s : Store) (m : Ref .module) (name : String) : Handle .value :=
  (s.modules.get? m).bind (fun x => s.findNamed x.globalVariables name)

def function? (s : Store) (m : Ref .module) (name : String) : Handle .value :=
  (s.modules.get? m).bind (fun x => s.findNamed x.functions name)

def globalAlias? (s : Store) (m : Ref .module) (name : String) : Handle .value :=
  (s.modules.get? m).bind (fun x => s.findNamed x.aliases name)

/-- The alias with a name from outside; none if the name is empty or no text. -/
def aliasNamed (s : Store) (h : Handle .module) (name : Input) : Handle .value :=
  match h, name.required "name" with
  | some m, .ok name => s.globalAlias? m name
  | _, _ => none

/-- The first alias of a module. -/
def firstAlias (s : Store) (h : Handle .module) : Handle .value :=
  (s.module? h).bind (fun m => m.aliases.head?)

/-- The alias after a value in a given module. -/
def aliasAfter (s : Store) (m : Ref .module) (v : Ref .value) : Handle .value :=
  (s.modules.get? m).bind (fun x => x.aliasAfter v)

/-- The alias after a value in the value's own module. -/
def nextAlias (s : Store) (h : Handle .value) : Handle .value := do
  let v ← h
  let m ← (← s.values.get? v).parent
  s.aliasAfter m v

/-- The aliases that a caller meets from one alias on, in so many steps at most. -/
def aliasesFrom (s : Store) : Nat → Handle .value → List (Ref .value)
  | 0, _ => []
  | _, none => []
  | steps + 1, some v => v :: s.aliasesFrom steps (s.nextAlias (some v))

/-- The aliases of a module as a caller meets them, from the first one on. No alias comes twice, so
a step for every value is enough. -/
def aliasWalk (s : Store) (h : Handle .module) : List (Ref .value) :=
  s.aliasesFrom s.values.size (s.firstAlias h)

/-! ## Unlinking variables -/

/-- Unlinks a variable from a module; says whether it was linked there. -/
def removeGlobalVariable (s : Store) (m : Ref .module) (v : Ref .value) : Bool × Store :=
  if (s.modules.get? m).any (fun x => x.globalVariables.contains v) then
    (true,
     { s with
       modules := s.modules.modify m (fun x =>
         { x with globalVariables := x.globalVariables.erase v })
       values := s.values.modify v (fun x => { x with parent := none }) })
  else (false, s)

/-- Unlinks a variable from its module; does nothing to values of any other sort. -/
def unlinkVariable (s : Store) (h : Handle .value) : Store :=
  match h, s.value? h with
  | some v, some x =>
    match x.kind, x.parent with
    | .globalVariable, some m => (s.removeGlobalVariable m v).2
    | _, _ => s
  | _, _ => s

end ForeignHandles.Store
