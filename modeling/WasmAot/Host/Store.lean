/-
# The objects of running modules

Modules share functions, memories, tables and globals.  The objects live in a store and are known by
their addresses; an instance is a set of names for some of them, and the registry knows instances by
the names of their modules.
-/
import WasmAot.Host.Func
import WasmAot.Host.Global
import WasmAot.Host.Memory
import WasmAot.Host.Table

namespace WasmAot.Host

/-- What a module exports: the addresses of objects, by name. -/
structure Instance where
  funcs : List (String × Address) := []
  memories : List (String × Address) := []
  tables : List (String × Address) := []
  globals : List (String × Address) := []

/-- All objects, and the instances that modules can import from. -/
structure Store where
  funcs : Array Func := #[]
  memories : Array Memory := #[]
  tables : Array Table := #[]
  globals : Array Global := #[]
  instances : List (String × Instance) := []

namespace Store

/-! ### Functions -/

/-- Calls the function at an address. -/
def call (s : Store) (func : Address) (args : List Value) : Except Trap (List Value) :=
  match s.funcs[func]? with
  | some f => f.call args
  | none => .error .instanceDropped

/-- Calls the function in a slot of a table, which must not be empty, after a check of its
signature. -/
def callIndirect (s : Store) (t : Table) (index : Nat) (expected : FuncType) (args : List Value) :
    Except Trap (List Value) := do
  match ← t.get index with
  | none => .error .undefinedElement
  | some func =>
    match s.funcs[func]? with
    | none => .error .instanceDropped
    | some f =>
      f.requireSignature expected
      f.call args

/-! ### Instances -/

/-- Makes an instance known under a name, instead of any that was. -/
def register (s : Store) (name : String) (i : Instance) : Store :=
  { s with instances := (name, i) :: s.instances }

/-- The instance of a name. -/
def instanceNamed (s : Store) (name : String) : Except LinkError Instance :=
  match s.instances.lookup name with
  | some i => .ok i
  | none => .error (.unknownModule name)

/-- The object of a name among those of one kind. -/
def exportNamed (objects : List (String × Address)) (kind : ExternKind) (moduleName name : String) :
    Except LinkError Address :=
  match objects.lookup name with
  | some a => .ok a
  | none => .error (.missingExport moduleName name kind)

/-- An imported function, which has to have the signature. -/
def importFunc (s : Store) (i : Instance) (moduleName name : String) (expected : FuncType) :
    Except LinkError Address := do
  let func ← exportNamed i.funcs .func moduleName name
  match s.funcs[func]? with
  | some f =>
    match f.requireSignature expected with
    | .ok _ => .ok func
    | .error _ => .error (.signatureMismatch moduleName name)
  | none => .error (.signatureMismatch moduleName name)

/-- An imported memory. -/
def importMemory (i : Instance) (moduleName name : String) : Except LinkError Address :=
  exportNamed i.memories .memory moduleName name

/-- An imported table. -/
def importTable (i : Instance) (moduleName name : String) : Except LinkError Address :=
  exportNamed i.tables .table moduleName name

/-- An imported global. -/
def importGlobal (i : Instance) (moduleName name : String) : Except LinkError Address :=
  exportNamed i.globals .global moduleName name

end Store

end WasmAot.Host
