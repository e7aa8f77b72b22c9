/-
# Whole modules

The binary format of a module is a header of eight bytes and a sequence of sections, each with its
id and its size.  Sections without a meaning are passed over.
-/
import WasmAot.Binary.Section

namespace WasmAot.Binary

/-- The first four bytes of every module. -/
def magic : List UInt8 := [0x00, 0x61, 0x73, 0x6d]

/-- The four bytes after them. -/
def version : List UInt8 := [0x01, 0x00, 0x00, 0x00]

/-- The header. -/
def header : Decoder Unit := do
  let found ← take 4
  if found = magic then
    let found ← take 4
    if found = version then return ()
    else parseFault 4 (.unsupportedVersion found)
  else parseFault 0 .missingMagic

/-- One section, with its id and size. -/
def framedSection : Scanner Unit := do
  let id ← scanItem byte
  let size ← scanItem u32
  match SectionId.ofByte? id with
  | some kind => exactlyOn ScanState.cursor size (scanSection kind)
  | none => scanItem (skip size)

/-- Sections until the input ends.  Each of them takes at least two bytes, so as many steps as there
are bytes suffice. -/
def sectionsFrom : Nat → Scanner Unit
  | 0 => return ()
  | steps + 1 => do
    if (← get).cursor.rest.isEmpty then return ()
    else
      framedSection
      sectionsFrom steps

/-- The module that the bytes encode. -/
def decode (bytes : List UInt8) : Except Error Module :=
  match header (Cursor.start bytes) with
  | .error e _ => .error e
  | .ok _ cursor =>
    match sectionsFrom cursor.remaining { cursor, draft := {} } with
    | .error e _ => .error e
    | .ok _ s => s.draft.complete

end WasmAot.Binary
