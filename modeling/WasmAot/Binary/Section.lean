/-
# Sections

A module is a sequence of sections, each of which adds to one part of it.  The signatures of the
functions and their bodies come in different sections, so what the former declared is remembered
until the latter is read.  A section is added as a whole or not at all; only of a code section with a
fault are the bodies before the fault kept.
-/
import WasmAot.Binary.Item

namespace WasmAot.Binary

/-- The sections that have a meaning. -/
inductive SectionId where
  | type
  | imports
  | function
  | table
  | memory
  | global
  | exports
  | start
  | element
  | code
  | data
  | dataCount
  deriving DecidableEq

/-- The section of an id byte. -/
def SectionId.ofByte? (b : UInt8) : Option SectionId :=
  match b.toNat with
  | 1 => some .type
  | 2 => some .imports
  | 3 => some .function
  | 4 => some .table
  | 5 => some .memory
  | 6 => some .global
  | 7 => some .exports
  | 8 => some .start
  | 9 => some .element
  | 10 => some .code
  | 11 => some .data
  | 12 => some .dataCount
  | _ => none

/-- A module as far as its sections were read. -/
structure Draft where
  built : Module := {}
  /-- the types of the functions whose bodies are still to come -/
  declared : List Nat := []
  /-- a code section was read -/
  codeSeen : Bool := false

/-- Where reading stands: the place in the input, and the module so far. -/
structure ScanState where
  cursor : Cursor
  draft : Draft

/-- A reader of sections. -/
abbrev Scanner := EStateM Error ScanState

/-- Reads an item; the module stays as it is. -/
def scanItem {α : Type} (item : Decoder α) : Scanner α := fun s =>
  match item s.cursor with
  | .ok a cursor => .ok a { s with cursor }
  | .error e cursor => .error e { s with cursor }

/-- Changes the module. -/
def extend (change : Module → Module) : Scanner Unit :=
  modify fun s => { s with draft := { s.draft with built := change s.draft.built } }

/-- Reads a body for each of the declared types and adds the functions one by one. -/
def scanBodies : List Nat → Scanner Unit
  | [] => return ()
  | type :: rest => do
    let func ← scanItem (funcBody type)
    extend fun m => { m with functions := m.functions ++ [func] }
    scanBodies rest

/-- Reads a code section: as many bodies as functions were declared. -/
def scanCode : Scanner Unit := do
  let offset ← scanItem position
  let count ← scanItem u32
  let declared := (← get).draft.declared
  if count = declared.length then
    scanBodies declared
    modify fun s => { s with draft := { s.draft with codeSeen := true } }
  else parseFault offset (.bodyCount count declared.length)

/-- Reads a data section.  If the number of segments was announced, it has to be right. -/
def scanData : Scanner Unit := do
  let segments ← scanItem (vector dataSegment)
  let add := extend fun m => { m with data := m.data ++ segments }
  match (← get).draft.built.dataCount with
  | none => add
  | some expected =>
    if expected = segments.length then add
    else parseFault (← scanItem position) (.dataCount expected segments.length)

/-- Reads the body of a section. -/
def scanSection : SectionId → Scanner Unit
  | .type => do
    let types ← scanItem (vector funcType)
    extend fun m => { m with types := m.types ++ types }
  | .imports => do
    let imports ← scanItem (vector importItem)
    extend fun m => { m with imports := m.imports ++ imports }
  | .function => do
    let declared ← scanItem (vector u32)
    modify fun s => { s with draft := { s.draft with declared } }
  | .table => do
    let tables ← scanItem (vector tableType)
    extend fun m => { m with tables := m.tables ++ tables }
  | .memory => do
    let memories ← scanItem (vector limits)
    extend fun m => { m with memories := m.memories ++ memories }
  | .global => do
    let globals ← scanItem (vector globalDef)
    extend fun m => { m with globals := m.globals ++ globals }
  | .exports => do
    let exports ← scanItem (vector exportItem)
    extend fun m => { m with exports := m.exports ++ exports }
  | .start => do
    let func ← scanItem u32
    extend fun m => { m with start := some func }
  | .element => do
    let segments ← scanItem (vector elemSegment)
    extend fun m => { m with elements := m.elements ++ segments }
  | .code => scanCode
  | .data => scanData
  | .dataCount => do
    let count ← scanItem u32
    extend fun m => { m with dataCount := some count }

/-- The module, once all sections are read: functions that were declared need a code section. -/
def Draft.complete (d : Draft) : Except Error Module :=
  if d.declared.isEmpty || d.codeSeen then .ok d.built
  else .error (.parsing 0 (.missingCode d.declared.length))

end WasmAot.Binary
