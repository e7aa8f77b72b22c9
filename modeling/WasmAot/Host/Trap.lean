/-
# Traps

A running module stops with a trap.  Making an instance can also fail for want of an import or of
room, or because of a trap on the way.
-/
import WasmAot.Module.Basic

namespace WasmAot.Host

/-- Why execution stops. -/
inductive Trap where
  | outOfBounds
  | divisionByZero
  | integerOverflow
  | invalidConversion
  | unreachable
  | indirectCallTypeMismatch
  | tableOutOfBounds
  | undefinedElement
  | globalKindMismatch
  | immutableGlobal
  | valueTypeMismatch
  | instanceDropped
  deriving DecidableEq

/-- Takes the value of a computation, or traps. -/
def orTrap {σ α : Type} : Except Trap α → EStateM Trap σ α
  | .ok a => return a
  | .error t => throw t

namespace Trap

/-- Every trap. -/
def all : List Trap :=
  [outOfBounds, divisionByZero, integerOverflow, invalidConversion, unreachable,
    indirectCallTypeMismatch, tableOutOfBounds, undefinedElement, globalKindMismatch,
    immutableGlobal, valueTypeMismatch, instanceDropped]

/-- The name of the trap. -/
def name : Trap → String
  | outOfBounds => "OutOfBounds"
  | divisionByZero => "DivisionByZero"
  | integerOverflow => "IntegerOverflow"
  | invalidConversion => "InvalidConversion"
  | unreachable => "Unreachable"
  | indirectCallTypeMismatch => "IndirectCallTypeMismatch"
  | tableOutOfBounds => "TableOutOfBounds"
  | undefinedElement => "UndefinedElement"
  | globalKindMismatch => "GlobalKindMismatch"
  | immutableGlobal => "ImmutableGlobal"
  | valueTypeMismatch => "ValueTypeMismatch"
  | instanceDropped => "InstanceDropped"

/-- The trap in words. -/
def message : Trap → String
  | outOfBounds => "out of bounds memory access"
  | divisionByZero => "integer divide by zero"
  | integerOverflow => "integer overflow"
  | invalidConversion => "invalid conversion to integer"
  | unreachable => "unreachable executed"
  | indirectCallTypeMismatch => "indirect call type mismatch"
  | tableOutOfBounds => "out of bounds table access"
  | undefinedElement => "uninitialized element"
  | globalKindMismatch => "global accessed with wrong kind"
  | immutableGlobal => "write to immutable global"
  | valueTypeMismatch => "value type mismatch"
  | instanceDropped => "module instance dropped"

end Trap

/-- Why no instance is made. -/
inductive LinkError where
  /-- no module of this name is known -/
  | unknownModule (name : String)
  /-- the module is known, but exports nothing of the kind under the name -/
  | missingExport (moduleName name : String) (kind : ExternKind)
  /-- the function is there, but with another signature -/
  | signatureMismatch (moduleName name : String)
  /-- a segment or the start function trapped -/
  | trap (trap : Trap)
  /-- so many pages are more than there can be -/
  | tooManyPages (minimum : Nat)
  deriving DecidableEq

/-- The error in words. -/
def LinkError.message : LinkError → String
  | unknownModule name => s!"unknown module `{name}`"
  | missingExport moduleName name kind =>
    s!"module `{moduleName}` has no {kind.word} export `{name}`"
  | signatureMismatch moduleName name =>
    s!"imported function `{moduleName}.{name}` has an incompatible signature"
  | trap t => s!"trap during instantiation: {t.message}"
  | tooManyPages minimum => s!"cannot allocate {minimum} initial memory pages"

end WasmAot.Host
