import ForeignHandles.Attribute.Info
import ForeignHandles.Jit
import ForeignHandles.Logging
import ForeignHandles.ObjectFile.Shelf
import ForeignHandles.Proofs.Host.Run
import ForeignHandles.Target.Machine
import ForeignHandles.Target.Registration
import ForeignHandles.Version

/-!
  The surface: all entry points that foreign callers have, and the states that callers and the host
  can get to together.

  An entry point takes handles, numbers and bytes as they come.  Nothing is assumed of them: a
  number is any number of its width, and a handle may be null or name an object that is gone.  The
  type of an entry says what it answers.

  1. **Which entries there are.**  They are sorted by what they work on: `StoreQuery` and
     `StoreCommand` on the objects of the host, `HostEntry` on modules that go and on value caches,
     `ShelfEntry` on object files, `JitEntry` on sessions, `RegistryEntry` on what is registered,
     `PlainEntry` on no state at all.

  2. **What they do.**  Each is one operation of the library.  A result of type `Except Fault` says
     that the operation can fault; the other families cannot, and their types say so.

  3. **Where they are called.**  `Reachable` has the states of the world: callers call entries, the
     host makes, edits and deletes objects in any of its contexts, announcements go their way, and
     what faults has no effect.

  An answer can depend on more than arguments and states: on how identities are written, on the
  library that reads log directives, and on the build.  A `Setting` has all three.  Each call comes
  with a setting of its own, about which nothing is assumed, so that whatever holds of the calls
  holds with any spelling, any reader of directives and any build.

  Texts that an entry hands out are lent or given. What is lent is a place in the object with a
  length (`Option String`), and callers give it back to nobody; what is given is a message of their
  own (`Option Message`), which they dispose of.
-/
namespace ForeignHandles.Surface

/-- How identities are written in texts that show them. -/
structure Spelling where
  value : Ref .value → String
  metadata : Ref .metadata → String
  dylib : Ref .dylib → String

/-- What answers depend on beyond the arguments of a call and the state of the world. -/
structure Setting extends Spelling where
  directives : DirectiveLibrary
  build : Build := {}

/-- A setting for examples: all identities of a sort look alike, and no text is a directive. -/
def Setting.plain : Setting where
  value _ := "v"
  metadata _ := "md"
  dylib _ := "dl"
  directives :=
    { Level := Unit, Directive := Unit, Filter := Unit, Problem := Unit
      info := (), ofLevel := id, read := fun _ => .error (), empty := (), add := fun _ _ => ()
      message := fun _ => "invalid directive" }

/-! ## The objects of the host

Queries leave everything as it is, so they have an answer only. The order is that of the chapters
of the header: contexts, values, metadata, named metadata, attributes, modules with their comdats,
aliases. -/

/-- What can be asked about contexts, values, metadata, attributes and modules. -/
inductive StoreQuery : Type → Type where
  -- contexts and values
  | contextGetIsOdrUniquingDebugTypes (context : Handle .context) : StoreQuery Int32
  | isConstantZeroValue (value : Handle .value) : StoreQuery Int32
  | getValueKind (value : Handle .value) : StoreQuery UInt32
  | getAliasee (value : Handle .value) : StoreQuery (Handle .value)
  | getArgumentIndex (value : Handle .value) : StoreQuery UInt32
  | isConstantCString (value : Handle .value) : StoreQuery Int32
  | getConstantDataSequentialElementCount (value : Handle .value) : StoreQuery UInt32
  | getConstantDataSequentialRawData (value : Handle .value) : StoreQuery (Option (List UInt8))
  | hasDbgRecords (value : Handle .value) : StoreQuery Int32
  -- metadata
  | valueAsMetadataGetValue (metadata : Handle .metadata) : StoreQuery (Handle .value)
  | getMdStringText (metadata : Handle .metadata) : StoreQuery (Option String)
  | mdNodeGetNumOperands (node : Handle .metadata) : StoreQuery UInt32
  | mdNodeGetOperand (node : Handle .metadata) (index : UInt32) : StoreQuery (Option Store.Slot)
  | getOperandNode (operand : Option Store.Slot) : StoreQuery (Handle .metadata)
  | metadataAsString (metadata : Handle .metadata) : StoreQuery (Option Message)
  | getMetadataKind (metadata : Handle .metadata) : StoreQuery UInt32
  | getNodeContext (metadata : Handle .metadata) : StoreQuery (Handle .context)
  | isTemporary (metadata : Handle .metadata) : StoreQuery Int32
  | isResolved (metadata : Handle .metadata) : StoreQuery Int32
  | isUniqued (metadata : Handle .metadata) : StoreQuery Int32
  | isDistinct (metadata : Handle .metadata) : StoreQuery Int32
  -- named metadata
  | namedMdNodeGetNumOperands (named : Handle .namedMetadata) : StoreQuery UInt32
  | namedMdNodeGetOperand (named : Handle .namedMetadata) (index : UInt32) :
    StoreQuery (Handle .metadata)
  | namedMetadataGetParentModule (named : Handle .namedMetadata) : StoreQuery (Handle .module)
  -- attributes
  | attributeToString (owned : Handle .attribute) : StoreQuery (Option Message)
  | isConstantRangeAttribute (owned : Handle .attribute) : StoreQuery Int32
  | isConstantRangeListAttribute (owned : Handle .attribute) : StoreQuery Int32
  -- modules and their comdats
  | moduleGetName (module : Handle .module) : StoreQuery (Option String)
  | moduleGetSourceFileName (module : Handle .module) : StoreQuery (Option String)
  | moduleGetNumComdats (module : Handle .module) : StoreQuery UInt32
  | moduleGetComdat (module : Handle .module) (name : Input) : StoreQuery (Handle .comdat)
  | comdatGetName (comdat : Handle .comdat) : StoreQuery (Option String)
  | comdatGetSelectionKind (comdat : Handle .comdat) : StoreQuery UInt32
  | comdatIteratorGetCurrent (iterator : Handle .comdatCursor) : StoreQuery (Handle .comdat)
  -- aliases
  | moduleGetGlobalAlias (module : Handle .module) (name : Input) : StoreQuery (Handle .value)
  | moduleGetFirstGlobalAlias (module : Handle .module) : StoreQuery (Handle .value)
  | moduleGetNextGlobalAlias (globalAlias : Handle .value) : StoreQuery (Handle .value)

/-- The answer to a query. -/
def StoreQuery.answer {α : Type} (s : Store) (spell : Spelling) : StoreQuery α → Except Fault α
  | .contextGetIsOdrUniquingDebugTypes c => .ok (cBool (s.odrUniquing c))
  | .isConstantZeroValue v => .ok (cBool (s.isConstantZero v))
  | .getValueKind v => .ok (s.valueKindCode v)
  | .getAliasee v => .ok (s.aliasee v)
  | .getArgumentIndex v => .ok (s.argumentIndex v)
  | .isConstantCString v => .ok (cBool (s.isConstantCString v))
  | .getConstantDataSequentialElementCount v => .ok (s.elementCount v)
  | .getConstantDataSequentialRawData v => .ok (s.rawData v)
  | .hasDbgRecords v => .ok (cBool (s.hasDebugRecords v))
  | .valueAsMetadataGetValue d => .ok (s.wrappedValue d)
  | .getMdStringText d => .ok (s.stringText d)
  | .mdNodeGetNumOperands d => .ok (s.operandCount d)
  | .mdNodeGetOperand d index => s.operandSlot d index
  | .getOperandNode slot => .ok (s.readSlot slot)
  | .metadataAsString d => .ok (s.metadataMessage spell.metadata d)
  | .getMetadataKind d => .ok (s.metadataKindCode d)
  | .getNodeContext d => .ok (s.metadataContext d)
  | .isTemporary d => .ok (cBool (s.isTemporary d))
  | .isResolved d => .ok (cBool (s.isResolved d))
  | .isUniqued d => .ok (cBool (s.hasStorage d .uniqued))
  | .isDistinct d => .ok (cBool (s.hasStorage d .distinct))
  | .namedMdNodeGetNumOperands n => .ok (s.namedOperandCount n)
  | .namedMdNodeGetOperand n index => s.namedOperand n index
  | .namedMetadataGetParentModule n => .ok (s.namedParent n)
  | .attributeToString a => s.attributeMessage a
  | .isConstantRangeAttribute a => .ok (cBool (s.isRangeAttribute a))
  | .isConstantRangeListAttribute a => .ok (cBool (s.isRangeListAttribute a))
  | .moduleGetName m => .ok (s.moduleName m)
  | .moduleGetSourceFileName m => .ok (s.moduleSource m)
  | .moduleGetNumComdats m => .ok (s.comdatCount m)
  | .moduleGetComdat m name => .ok (s.findComdat m name)
  | .comdatGetName x => .ok (s.comdatName x)
  | .comdatGetSelectionKind x => .ok (s.comdatKindCode x)
  | .comdatIteratorGetCurrent k => .ok (s.comdatAt k)
  | .moduleGetGlobalAlias m name => .ok (s.aliasNamed m name)
  | .moduleGetFirstGlobalAlias m => .ok (s.firstAlias m)
  | .moduleGetNextGlobalAlias v => .ok (s.nextAlias v)

/-- What callers can do to contexts, values, metadata and modules. -/
inductive StoreCommand : Type → Type where
  | contextCreate : StoreCommand (Ref .context)
  | contextDispose (context : Handle .context) : StoreCommand Unit
  | contextSetIsOdrUniquingDebugTypes (context : Handle .context) (enabled : Int32) :
    StoreCommand Unit
  | removeGlobalFromParent (value : Handle .value) : StoreCommand Unit
  | mdNodeReplaceOperand (node : Handle .metadata) (index : UInt32) (operand : Handle .metadata) :
    StoreCommand Unit
  | constantAsMetadata (value : Handle .value) : StoreCommand (Handle .metadata)
  | namedMdNodeSetOperand (named : Handle .namedMetadata) (index : UInt32)
    (node : Handle .metadata) : StoreCommand Unit
  | namedMdNodeAddOperand (named : Handle .namedMetadata) (node : Handle .metadata) :
    StoreCommand Unit
  | namedMdNodeClearOperands (named : Handle .namedMetadata) : StoreCommand Unit
  | namedMetadataEraseFromParent (named : Handle .namedMetadata) : StoreCommand Unit
  | moduleCreateWithName (context : Handle .context) (name : Input) :
    StoreCommand (Handle .module)
  | moduleSetName (module : Handle .module) (name : Input) : StoreCommand Unit
  | moduleSetSourceFileName (module : Handle .module) (name : Input) : StoreCommand Unit
  | moduleInsertOrUpdateComdat (module : Handle .module) (name : Input) (kind : UInt32) :
    StoreCommand (Handle .comdat)
  | moduleComdatRemove (module : Handle .module) (comdat : Handle .comdat) : StoreCommand Unit
  | moduleComdatClear (module : Handle .module) : StoreCommand Unit
  | moduleBeginComdats (module : Handle .module) : StoreCommand (Handle .comdatCursor)
  | comdatIteratorMoveNext (iterator : Handle .comdatCursor) : StoreCommand Int32
  | comdatIteratorReset (iterator : Handle .comdatCursor) : StoreCommand Unit
  | disposeComdatIterator (iterator : Handle .comdatCursor) : StoreCommand Unit

/-- The answer to a command, and the objects afterwards. -/
def StoreCommand.call {α : Type} (s : Store) : StoreCommand α → Except Fault (α × Store)
  | .contextCreate => .ok s.createContext
  | .contextDispose c => .ok ((), s.disposeContext c)
  | .contextSetIsOdrUniquingDebugTypes c enabled => .ok ((), s.setOdrUniquing c (ofCBool enabled))
  | .removeGlobalFromParent v => .ok ((), s.unlinkVariable v)
  | .mdNodeReplaceOperand d index target => (s.setOperand d index target).map (((), ·))
  | .constantAsMetadata v => .ok (s.constantAsMetadata v)
  | .namedMdNodeSetOperand n index target => (s.setNamedOperand n index target).map (((), ·))
  | .namedMdNodeAddOperand n target => .ok ((), s.addNamedOperand n target)
  | .namedMdNodeClearOperands n => .ok ((), s.clearNamedOperands n)
  | .namedMetadataEraseFromParent n => .ok ((), s.eraseNamedMetadata n)
  | .moduleCreateWithName c name => .ok (s.createModuleNamed c name)
  | .moduleSetName m name => .ok ((), s.setModuleName m name)
  | .moduleSetSourceFileName m name => .ok ((), s.setModuleSource m name)
  | .moduleInsertOrUpdateComdat m name kind => .ok (s.insertOrUpdateComdat m name kind)
  | .moduleComdatRemove m x => .ok ((), s.dropComdat m x)
  | .moduleComdatClear m => .ok ((), s.dropAllComdats m)
  | .moduleBeginComdats m => .ok (s.beginComdats m)
  | .comdatIteratorMoveNext k => .ok ((s.moveComdatCursor k).map cBool id)
  | .comdatIteratorReset k => .ok ((), s.resetComdatCursor k)
  | .disposeComdatIterator k => .ok ((), s.disposeComdatCursor k)

/-! ## Modules that go, and value caches

Disposing of a module only puts jobs on the agenda of the host. They are done by its steps, and so
are the callbacks of caches, so whatever these entries bring about later is not part of their
answer. -/

/-- The entries whose effect is on the host and those who listen to it. -/
inductive HostEntry : Type → Type where
  | moduleDispose (module : Handle .module) : HostEntry Unit
  /-- `onDeleted` and `onReplaced` say which callbacks come with the call. -/
  | valueCacheCreate (context : Handle .context) (onDeleted onReplaced : Bool) :
    HostEntry (Handle .cache)
  | valueCacheDispose (cache : Handle .cache) : HostEntry Unit
  | valueCacheLookup (cache : Handle .cache) (value : Handle .value) (place : Bool) :
    HostEntry (Reply ExternalHandle)
  | valueCacheInsert (cache : Handle .cache) (value : Handle .value) (handle : ExternalHandle) :
    HostEntry (Except BoundaryError Unit)
  | valueCacheRemove (cache : Handle .cache) (value : Handle .value) (place : Bool) :
    HostEntry (Reply ExternalHandle)
  | valueCacheIsEmpty (cache : Handle .cache) : HostEntry Int32
  | valueCacheDump (cache : Handle .cache) : HostEntry (Option Message)
  | valueCacheWriteDebugRepresentation (cache : Handle .cache) : HostEntry String

/-- The answer of an entry, and the host afterwards. -/
def HostEntry.call {α : Type} (h : Host) (spell : Spelling) : HostEntry α → α × Host
  | .moduleDispose m => ((), h.disposeModule m)
  | .valueCacheCreate c onDeleted onReplaced => h.createCache c onDeleted onReplaced
  | .valueCacheDispose k => ((), h.disposeCache k)
  | .valueCacheLookup k v place => (h.cacheLookup k v place, h)
  | .valueCacheInsert k v handle => h.cacheInsert k v handle
  | .valueCacheRemove k v place => h.cacheRemove k v place
  | .valueCacheIsEmpty k => (cBool (h.cacheIsEmpty k), h)
  | .valueCacheDump k => (h.cacheDump spell.value k, h)
  | .valueCacheWriteDebugRepresentation k => (h.cacheDebugText spell.value k, h)

/-! ## Object files

There is no entry that makes a file. Files are built by the host, and callers get handles of
them. -/

/-- The entries that read object files. -/
inductive ShelfEntry : Type → Type where
  | objectFileSections (file : Handle .objectFile) : ShelfEntry (Handle .sectionCursor)
  | sectionIteratorClone (iterator : Handle .sectionCursor) : ShelfEntry (Handle .sectionCursor)
  | sectionIteratorMoveNext (iterator : Handle .sectionCursor) : ShelfEntry Unit
  | sectionIteratorIsAtEnd (iterator : Handle .sectionCursor) : ShelfEntry Int32
  | sectionIteratorGetName (iterator : Handle .sectionCursor) : ShelfEntry (Option String)
  | sectionIteratorGetAddress (iterator : Handle .sectionCursor) : ShelfEntry UInt64
  | sectionIteratorGetContents (iterator : Handle .sectionCursor) :
    ShelfEntry (Option (List UInt8))
  | disposeSectionIterator (iterator : Handle .sectionCursor) : ShelfEntry Unit
  | objectFileSymbols (file : Handle .objectFile) : ShelfEntry (Handle .symbolCursor)
  | symbolIteratorClone (iterator : Handle .symbolCursor) : ShelfEntry (Handle .symbolCursor)
  | symbolIteratorMoveNext (iterator : Handle .symbolCursor) : ShelfEntry Unit
  | symbolIteratorIsAtEnd (iterator : Handle .symbolCursor) : ShelfEntry Int32
  | symbolIteratorGetName (iterator : Handle .symbolCursor) : ShelfEntry (Option String)
  | symbolIteratorGetAddress (iterator : Handle .symbolCursor) : ShelfEntry UInt64
  | disposeSymbolIterator (iterator : Handle .symbolCursor) : ShelfEntry Unit
  | sectionRelocations (iterator : Handle .sectionCursor) : ShelfEntry (Handle .relocationCursor)
  | relocationIteratorClone (iterator : Handle .relocationCursor) :
    ShelfEntry (Handle .relocationCursor)
  | relocationIteratorMoveNext (iterator : Handle .relocationCursor) : ShelfEntry Unit
  | relocationIteratorIsAtEnd (iterator : Handle .relocationCursor) : ShelfEntry Int32
  | relocationIteratorGetSymbolName (iterator : Handle .relocationCursor) :
    ShelfEntry (Option String)
  | relocationIteratorGetOffset (iterator : Handle .relocationCursor) : ShelfEntry UInt64
  | relocationIteratorGetType (iterator : Handle .relocationCursor) : ShelfEntry UInt32
  | disposeRelocationIterator (iterator : Handle .relocationCursor) : ShelfEntry Unit

/-- The answer of an entry, and the shelf afterwards. -/
def ShelfEntry.call {α : Type} (s : Shelf) : ShelfEntry α → α × Shelf
  | .objectFileSections f => s.openSections f
  | .sectionIteratorClone k => s.cloneSection k
  | .sectionIteratorMoveNext k => ((), s.moveSection k)
  | .sectionIteratorIsAtEnd k => (cBool (s.sectionAtEnd k), s)
  | .sectionIteratorGetName k => (s.sectionName k, s)
  | .sectionIteratorGetAddress k => (s.sectionAddress k, s)
  | .sectionIteratorGetContents k => (s.sectionContents k, s)
  | .disposeSectionIterator k => ((), s.closeSection k)
  | .objectFileSymbols f => s.openSymbols f
  | .symbolIteratorClone k => s.cloneSymbol k
  | .symbolIteratorMoveNext k => ((), s.moveSymbol k)
  | .symbolIteratorIsAtEnd k => (cBool (s.symbolAtEnd k), s)
  | .symbolIteratorGetName k => (s.symbolName k, s)
  | .symbolIteratorGetAddress k => (s.symbolAddress k, s)
  | .disposeSymbolIterator k => ((), s.closeSymbol k)
  | .sectionRelocations k => s.openRelocations k
  | .relocationIteratorClone k => s.cloneRelocation k
  | .relocationIteratorMoveNext k => ((), s.moveRelocation k)
  | .relocationIteratorIsAtEnd k => (cBool (s.relocationAtEnd k), s)
  | .relocationIteratorGetSymbolName k => (s.relocationSymbol k, s)
  | .relocationIteratorGetOffset k => (s.relocationOffset k, s)
  | .relocationIteratorGetType k => (s.relocationKind k, s)
  | .disposeRelocationIterator k => ((), s.closeRelocation k)

/-! ## Sessions

Symbols are defined and names interned by the host. Callers see what comes of it: the pools, the
entries with their counts, and the dylibs. -/

/-- The entries that work on sessions and their symbol pools. -/
inductive JitEntry : Type → Type where
  | executionSessionCreate : JitEntry (Ref .session)
  | executionSessionDispose (session : Handle .session) : JitEntry Unit
  | executionSessionCreateJitDylib (session : Handle .session) (name : Input) (place : Bool) :
    JitEntry (Reply (Handle .dylib))
  | executionSessionGetSymbolStringPool (session : Handle .session) : JitEntry (Handle .pool)
  | executionSessionRemoveDylib (session : Handle .session) (dylib : Handle .dylib) :
    JitEntry (Except BoundaryError Unit)
  | symbolStringPoolIsEmpty (pool : Handle .pool) : JitEntry Int32
  | symbolStringPoolGetDiagnosticRepresentation (pool : Handle .pool) : JitEntry (Option Message)
  | symbolStringPoolWriteDebugRepresentation (pool : Handle .pool) : JitEntry (List (List Char))
  | symbolStringPoolGetRefCount (entry : Handle .poolEntry) : JitEntry Nat

/-- The answer of an entry, and the sessions afterwards. -/
def JitEntry.call {α : Type} (j : Jit) : JitEntry α → α × Jit
  | .executionSessionCreate => j.createSession
  | .executionSessionDispose s => ((), j.disposeSession s)
  | .executionSessionCreateJitDylib s name place => j.createDylibNamed s name place
  | .executionSessionGetSymbolStringPool s => (j.poolOf s, j)
  | .executionSessionRemoveDylib s d => j.removeDylibHandle s d
  | .symbolStringPoolIsEmpty p => (cBool (j.poolIsEmpty p), j)
  | .symbolStringPoolGetDiagnosticRepresentation p => (j.poolMessage p, j)
  | .symbolStringPoolWriteDebugRepresentation p => (j.poolDebugLines p, j)
  | .symbolStringPoolGetRefCount e => (j.refCount e, j)

/-! ## Registrations

What has been registered stays registered, whatever else fails. -/

/-- The entry that registers targets. -/
inductive RegistryEntry : Type → Type where
  | registerTarget (target : Int32) (kinds : UInt32) : RegistryEntry (Except BoundaryError Unit)

/-- The answer of the entry, and what is registered afterwards. -/
def RegistryEntry.call {α : Type} (r : Registry) (b : Build) : RegistryEntry α → α × Registry
  | .registerTarget target kinds => r.registerTarget target kinds b

/-! ## Entries that need no state

An error that a caller has is a value, like a target machine; what these entries answer depends on
nothing else but the setting. -/

/-- The entries on the attribute catalog, errors, messages, logging, target machines, the targets
that are built in, and the version.  Errors and machines are passed as what they are. -/
inductive PlainEntry : Type → Type where
  -- the attribute catalog
  | getNumKnownAttribs : PlainEntry Nat
  | getKnownAttributeNames (names : Option (List (Option String))) (length : Nat) :
    PlainEntry (Except BoundaryError Unit × Option (List (Option String)))
  | getAttributeInfo (name : Input) (place : Bool) : PlainEntry (Reply AttributeInfo)
  | getAttributeNameFromId (id : UInt32) : PlainEntry (Option String)
  -- errors and messages
  | createStringError (message : Input) : PlainEntry BoundaryError
  | getErrorMessage (error : Option BoundaryError) : PlainEntry (Option Message)
  | consumeError (error : Option BoundaryError) : PlainEntry Unit
  | disposeMessage (message : Option Message) : PlainEntry Unit
  /-- `environment` is the filter that the environment asks for. -/
  | initializeLogging (filter : Input) (environment : Option String) :
    PlainEntry (Except BoundaryError Unit)
  -- target machines and their options
  | getTargetMachineAsmVerbosity (machine : Option Machine) : PlainEntry Int32
  | getTargetMachineFastISel (machine : Option Machine) : PlainEntry Int32
  | getTargetMachineGlobalISel (machine : Option Machine) : PlainEntry Int32
  | getTargetMachineGlobalISelAbort (machine : Option Machine) : PlainEntry UInt32
  | getTargetMachineMachineOutliner (machine : Option Machine) : PlainEntry Int32
  | getTargetMachineTriple (machine : Option Machine) : PlainEntry (Option String)
  | targetMachineOptionsGetCpu (options : Option MachineOptions) : PlainEntry (Option String)
  | targetMachineOptionsGetFeatures (options : Option MachineOptions) :
    PlainEntry (Option String)
  | targetMachineOptionsGetAbi (options : Option MachineOptions) : PlainEntry (Option String)
  | targetMachineOptionsGetCodeGenOptLevel (options : Option MachineOptions) : PlainEntry UInt32
  | targetMachineOptionsGetRelocMode (options : Option MachineOptions) : PlainEntry UInt32
  | targetMachineOptionsGetCodeModel (options : Option MachineOptions) : PlainEntry UInt32
  -- the build
  | getNumTargets : PlainEntry Int32
  | getRuntimeTargets (targets : Option (List Int32)) (length : Int32) :
    PlainEntry (Except BoundaryError Unit × Option (List Int32))
  | getVersion : PlainEntry (BitVec 64)
  | getVersionString : PlainEntry (Option String)

/-- The answer of an entry. -/
def PlainEntry.answer {α : Type} (setting : Setting) : PlainEntry α → Except Fault α
  | .getNumKnownAttribs => .ok AttributeDef.knownNames.length
  | .getKnownAttributeNames names length => .ok (fillKnownNames names length)
  | .getAttributeInfo name place => .ok (AttributeInfo.query name place)
  | .getAttributeNameFromId id => attributeNameOfId id
  | .createStringError message => .ok (.ofInput message)
  | .getErrorMessage error => .ok (error.map (fun e => .ofString (e.message setting.dylib)))
  | .consumeError _ => .ok ()
  | .disposeMessage _ => .ok ()
  | .initializeLogging filter environment =>
    .ok (setting.directives.setUp filter environment)
  | .getTargetMachineAsmVerbosity m => .ok (cBool (Machine.asmVerbosity m))
  | .getTargetMachineFastISel m => .ok (cBool (Machine.usesFastISel m))
  | .getTargetMachineGlobalISel m => .ok (cBool (Machine.usesGlobalISel m))
  | .getTargetMachineGlobalISelAbort m => .ok (Machine.abortCode m)
  | .getTargetMachineMachineOutliner m => .ok (cBool (Machine.usesOutliner m))
  | .getTargetMachineTriple m => .ok (Machine.tripleText m)
  | .targetMachineOptionsGetCpu o => .ok (MachineOptions.cpuText o)
  | .targetMachineOptionsGetFeatures o => .ok (MachineOptions.featuresText o)
  | .targetMachineOptionsGetAbi o => .ok (MachineOptions.abiText o)
  | .targetMachineOptionsGetCodeGenOptLevel o => .ok (MachineOptions.optLevelCode o)
  | .targetMachineOptionsGetRelocMode o => .ok (MachineOptions.relocModeCode o)
  | .targetMachineOptionsGetCodeModel o => .ok (MachineOptions.codeModelCode o)
  | .getNumTargets => .ok (Target.availableCount setting.build)
  | .getRuntimeTargets targets length => .ok (Target.fillAvailable targets length setting.build)
  | .getVersion => .ok Version.current.bits
  | .getVersionString => .ok (lendText Version.currentText)

/-! ## The world

The four parts have nothing to do with each other. An entry works on one of them at the most. -/

/-- All that entries work on. -/
structure World where
  host : Host := default
  shelf : Shelf := default
  jit : Jit := default
  registry : Registry := default

/-- An entry point that answers in a type. -/
inductive Entry (α : Type) where
  | query (query : StoreQuery α)
  | command (command : StoreCommand α)
  | host (entry : HostEntry α)
  | shelf (entry : ShelfEntry α)
  | jit (entry : JitEntry α)
  | registry (entry : RegistryEntry α)
  | plain (entry : PlainEntry α)

/-- The answer of an entry, and the world afterwards. -/
def Entry.call {α : Type} (w : World) (setting : Setting) : Entry α → Except Fault (α × World)
  | .query q => (q.answer w.host.store setting.toSpelling).map (·, w)
  | .command x =>
    (x.call w.host.store).map (·.map id (fun s => { w with host := { w.host with store := s } }))
  | .host x => .ok ((x.call w.host setting.toSpelling).map id (fun h => { w with host := h }))
  | .shelf x => .ok ((x.call w.shelf).map id (fun s => { w with shelf := s }))
  | .jit x => .ok ((x.call w.jit).map id (fun j => { w with jit := j }))
  | .registry x => .ok ((x.call w.registry setting.build).map id (fun r => { w with registry := r }))
  | .plain x => (x.answer setting).map (·, w)

/-! ## What the host does by itself

A world is reachable also if somebody makes a bad use of a handle on the way, for handles are
arguments like any other. The host itself may edit in any context and on any values, dead ones
included. -/

/-- An operation of the host, in any of its contexts.  An edit that faults has no effect. -/
inductive HostOperation where
  | edit (context : Ref .context) (edit : Edit)
  | delete (context : Ref .context) (value : Ref .value)
  | replaceAllUses (context : Ref .context) (old new : Ref .value)
  | addObserver (context : Ref .context)
  | dropObserver (observer : Ref .observer)
  /-- The job in front is done. -/
  | step
  /-- The consumer that the job in front waits for returns. -/
  | answer (handle : Option ExternalHandle)

/-- The host after an operation. -/
def HostOperation.perform (h : Host) : HostOperation → Host
  | .edit c e => { h with store := h.store.edit c e }
  | .delete c v => (h.delete c v).2
  | .replaceAllUses c old new => h.replaceAllUses c old new
  | .addObserver c => (h.addObserver c).2
  | .dropObserver o => h.dropObserver o
  | .step => h.step
  | .answer handle => h.answer handle

/-- The worlds that callers and the host can get to. -/
inductive Reachable : World → Prop where
  | start : Reachable {}
  | operate {w : World} (operation : HostOperation) (h : Reachable w) :
    Reachable { w with host := operation.perform w.host }
  /-- What the host does with object files, sessions and registrations does not matter here. -/
  | elsewhere {w : World} (shelf : Shelf) (jit : Jit) (registry : Registry) (h : Reachable w) :
    Reachable { w with shelf, jit, registry }
  | call {w w' : World} {α : Type} {answer : α} (setting : Setting) (entry : Entry α)
    (h : Reachable w) (hcall : entry.call w setting = .ok (answer, w')) : Reachable w'

end ForeignHandles.Surface
