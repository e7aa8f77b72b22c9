import WasmAot.Artifact.Basic
import WasmAot.CommandLine.Run
import WasmAot.Host.Arithmetic
import WasmAot.Host.Store
import WasmAot.Instr.Listing
import WasmAot.Main
import WasmAot.Release
import WasmAot.Proofs.Stateful
import WasmAot.Proofs.Lowering.Recursive
import WasmAot.Proofs.Lowering.Constructs
import WasmAot.Proofs.Validation.Typing
import WasmAot.Proofs.Validation.Discipline
import WasmAot.Proofs.Validation.Completeness
import WasmAot.Proofs.Semantics.Evaluation
import WasmAot.Proofs.Semantics.Execution
import WasmAot.Proofs.Simulation.Relation
import WasmAot.Proofs.Simulation.Instructions
import WasmAot.Proofs.Simulation.Bodies
import WasmAot.Proofs.Simulation.Scopes
import WasmAot.Proofs.Simulation.Preservation
import WasmAot.Proofs.Scoping.Invariant
import WasmAot.Proofs.Scoping.Instructions
import WasmAot.Proofs.Scoping.Bodies
import WasmAot.Proofs.Binary.Encoding
import WasmAot.Proofs.Binary.Encodable
import WasmAot.Proofs.Binary.Reading
import WasmAot.Proofs.Binary.Instructions
import WasmAot.Proofs.Binary.Items
import WasmAot.Proofs.Binary.RoundTrip
import WasmAot.Proofs.Binary.Locality
import WasmAot.Proofs.Binary.Groups
import WasmAot.Proofs.Binary.Isolation
import WasmAot.Proofs.Binary.SectionOrder
import WasmAot.Proofs.Nesting.Plain
import WasmAot.Proofs.Nesting.Lowered
import WasmAot.Proofs.Nesting.Functions
import WasmAot.Proofs.Naming.Words
import WasmAot.Proofs.Naming.References
import WasmAot.Proofs.Naming.Declarations
import WasmAot.Proofs.Naming.Bodies
import WasmAot.Proofs.Naming.Sections
import WasmAot.Proofs.Naming.Plans
import WasmAot.Proofs.Naming.Outline
import WasmAot.Proofs.Naming.Units
import WasmAot.Proofs.Binary.Grammar
import WasmAot.Proofs.Binary.Announcements
import WasmAot.Proofs.Construction.Constants
import WasmAot.Proofs.Construction.Globals
import WasmAot.Proofs.Binary.Truncation
import WasmAot.Proofs.Lowering.BranchTable
import WasmAot.Proofs.Lowering.DeadCode
import WasmAot.Proofs.Binary.Integers
import WasmAot.Proofs.IndexSpaces
import WasmAot.Proofs.Binary.Depth
import WasmAot.Proofs.Lowering.Depth
import WasmAot.Proofs.NestingLimits
import WasmAot.Proofs.Host.Memory
import WasmAot.Proofs.Naming.Methods
import WasmAot.Proofs.Lowering.FlatStack
import WasmAot.Proofs.Binary.Footprint
import WasmAot.Proofs.Host.MemoryCopy
import WasmAot.Proofs.Host.Tables
import WasmAot.Proofs.Host.Accesses
import WasmAot.Proofs.Semantics.Objects
import WasmAot.Proofs.Simulation.Accesses
import WasmAot.Proofs.Simulation.TableCopy
import WasmAot.Proofs.Files.Places
import WasmAot.Proofs.Files.Caching
import WasmAot.Proofs.Host.Globals
import WasmAot.Proofs.Text.ByteLiterals
import WasmAot.Proofs.Host.Division
import WasmAot.Proofs.Lowering.DeferredReads
import WasmAot.Proofs.Binary.Turns
import WasmAot.Proofs.Binary.Positions
import WasmAot.Proofs.Binary.Programs
import WasmAot.Proofs.Binary.VectorLengths
import WasmAot.Proofs.Naming.FreeNumbers
