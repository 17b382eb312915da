import ForeignHandles.Arena
import ForeignHandles.Attribute.Info
import ForeignHandles.Cache.Text
import ForeignHandles.DebugStream
import ForeignHandles.Flags
import ForeignHandles.Host.CacheAccess
import ForeignHandles.Jit
import ForeignHandles.LogFilter
import ForeignHandles.ObjectFile.Shelf
import ForeignHandles.Reply
import ForeignHandles.Sizing
import ForeignHandles.Store.Attributes
import ForeignHandles.Store.Comdats
import ForeignHandles.Store.Metadata
import ForeignHandles.Store.Modules
import ForeignHandles.Store.NamedMetadata
import ForeignHandles.Target.Machine
import ForeignHandles.Target.Registration
import ForeignHandles.Version
import ForeignHandles.Proofs.Arena
import ForeignHandles.Proofs.BitField
import ForeignHandles.Proofs.Cache.Failure
import ForeignHandles.Proofs.Cache.Handles
import ForeignHandles.Proofs.Cache.Keys
import ForeignHandles.Proofs.Cache.Ledger
import ForeignHandles.Proofs.Cache.OnDemand
import ForeignHandles.Proofs.Cache.Program
import ForeignHandles.Proofs.Cache.Queue
import ForeignHandles.Proofs.Cache.Run
import ForeignHandles.Proofs.Cache.Scripts
import ForeignHandles.Proofs.Cache.Step
import ForeignHandles.Proofs.Cache.Termination
import ForeignHandles.Proofs.Cache.Turns
import ForeignHandles.Proofs.DebugStream
import ForeignHandles.Proofs.Flags
import ForeignHandles.Proofs.Host.Agreement
import ForeignHandles.Proofs.Host.AliasWalk
import ForeignHandles.Proofs.Host.CacheCalls
import ForeignHandles.Proofs.Host.CachedValues
import ForeignHandles.Proofs.Host.Completion
import ForeignHandles.Proofs.Host.Course
import ForeignHandles.Proofs.Host.Delivery
import ForeignHandles.Proofs.Host.Disposal
import ForeignHandles.Proofs.Host.FiniteMap
import ForeignHandles.Proofs.Host.Listeners
import ForeignHandles.Proofs.Host.Names
import ForeignHandles.Proofs.Host.Ownership
import ForeignHandles.Proofs.Host.Phase
import ForeignHandles.Proofs.Host.Resolution
import ForeignHandles.Proofs.Host.Run
import ForeignHandles.Proofs.Host.Slots
import ForeignHandles.Proofs.Host.Step
import ForeignHandles.Proofs.Host.Strings
import ForeignHandles.Proofs.Host.Uses
import ForeignHandles.Proofs.Host.Wrappers
import ForeignHandles.Proofs.Jit.Balance
import ForeignHandles.Proofs.Jit.Counts
import ForeignHandles.Proofs.Jit.Namespaces
import ForeignHandles.Proofs.Jit.PoolText
import ForeignHandles.Proofs.Jit.Run
import ForeignHandles.Proofs.ObjectFile.Cursors
import ForeignHandles.Proofs.ObjectFile.Run
import ForeignHandles.Proofs.ObjectFile.Script
import ForeignHandles.Proofs.Sizing
import ForeignHandles.Proofs.Store.AliasWalk
import ForeignHandles.Proofs.Store.Arguments
import ForeignHandles.Proofs.Store.ConstantData
import ForeignHandles.Proofs.Store.Contents
import ForeignHandles.Proofs.Store.Edit
import ForeignHandles.Proofs.Store.MetadataEdit
import ForeignHandles.Proofs.Store.ModuleNames
import ForeignHandles.Proofs.Store.Names
import ForeignHandles.Proofs.Store.Nodes
import ForeignHandles.Proofs.Store.Parts
import ForeignHandles.Proofs.Surface.AttributeText
import ForeignHandles.Proofs.Surface.ComdatCursors
import ForeignHandles.Proofs.Surface.ComdatLists
import ForeignHandles.Proofs.Surface.Comdats
import ForeignHandles.Proofs.Surface.Entries
import ForeignHandles.Proofs.Surface.Faults
import ForeignHandles.Proofs.Surface.MetadataText
import ForeignHandles.Proofs.Surface.NamedMetadata
import ForeignHandles.Proofs.Surface.Refusals
import ForeignHandles.Proofs.Surface.Steps
import ForeignHandles.Proofs.Target.Registration
import ForeignHandles.Proofs.Text.ByteOrder
import ForeignHandles.Proofs.Text.Delimited
import ForeignHandles.Proofs.Text.Message
import ForeignHandles.Proofs.Text.Quoted
import ForeignHandles.Proofs.Text.Require
import ForeignHandles.Proofs.Text.Utf8
import ForeignHandles.Proofs.Version
