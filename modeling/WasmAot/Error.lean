/-
# Errors

Everything that can be wrong with a module, by cause.  An error of the encoding carries the offset
of the byte at which it was noticed.  `Error.message` is the one place where causes become words.

A run can also come to no answer at all, which is not an error that anybody handles: `Breakdown`.
-/
import WasmAot.Module.Basic

namespace WasmAot

/-- Faults of single tokens. -/
inductive LexFault where
  | unexpectedEnd
  | integerOverflow
  | malformedUtf8
  deriving DecidableEq

/-- Faults in the structure of the binary format. -/
inductive ParseFault where
  | missingMagic
  | unsupportedVersion (version : List UInt8)
  | sizeMismatch (declared consumed : Nat)
  | invalidValueType (byte : UInt8)
  | notAReference (ty : ValType)
  | invalidBlockType (index : Int)
  | nonzeroMemoryIndex (byte : UInt8)
  | unknownOpcode (byte : UInt8)
  | unknownExtendedOpcode (sub : Nat)
  | selectArity (count : Nat)
  | nestedTooDeeply
  | elseWithoutIf
  | duplicateElse
  | elseInBlock
  | invalidLimits (byte : UInt8)
  | invalidMutability (byte : UInt8)
  | invalidElemKind (byte : UInt8)
  | notAFuncType (byte : UInt8)
  | invalidImportKind (byte : UInt8)
  | invalidExportKind (byte : UInt8)
  | invalidElemFlags (flags : Nat)
  | invalidDataFlags (flags : Nat)
  | tooManyLocals (count : Nat)
  | bodyCount (bodies declared : Nat)
  | dataCount (declared segments : Nat)
  | missingCode (declared : Nat)
  deriving DecidableEq

/-- Operand types that do not fit, by what was asked for. -/
inductive Mismatch where
  /-- the operands on top of the stack, bottom-most first -/
  | operands (expected found : List ValType)
  /-- any reference -/
  | reference (found : ValType)
  /-- as many values as a label takes -/
  | labelArity (expected : List ValType) (count : Nat)
  /-- equal parameters and results, since there is no other arm -/
  | missingElse (results params : List ValType)
  /-- labels of one type for all targets of a branch table -/
  | tableTargets (expected found : List ValType)
  deriving DecidableEq

/-- The index spaces and lists of a module that an index can fall out of. -/
inductive IndexSpace where
  | type
  | func
  | global
  | table
  | memory
  | elemSegment
  | dataSegment
  | localFunc
  deriving DecidableEq

/-- Faults of modules that are encoded well but mean nothing. -/
inductive Invalid where
  | outOfRange (space : IndexSpace) (index : Nat)
  | branchDepth (depth nesting : Nat)
  | nestedTooDeeply
  | notConstant (offset : Nat)
  | nullOf (ty : ValType)
  | immutableGlobal (index : Nat)
  | tableElement (table : Nat) (ty : ValType)
  | comparison (op : CmpOp) (ty : ValType)
  | unaryOperator (op : UnOp) (ty : ValType)
  | binaryOperator (op : BinOp) (ty : ValType)
  | noImportsFrom (moduleName : String)
  | globalOrder (index source : Nat)
  | globalInitType (index : Nat) (declared found : ValType)
  | segmentElement (segment : Nat) (ty : ValType)
  | segmentItem (segment : Nat) (item : ConstExpr)
  | segmentOffset (offset : ConstExpr)
  | itemNotReference (item : ConstExpr)
  | exportIndex (name : String) (kind : ExternKind) (index : Nat)
  | startSignature (func : Nat)
  deriving DecidableEq

/-- Ways in which a run comes to no answer. -/
inductive Breakdown where
  /-- a counter goes beyond its largest number, and the program stops there -/
  | overflow
  /-- a search goes round for ever -/
  | endless
  deriving DecidableEq

/-- Why a module cannot be compiled. -/
inductive Error where
  | lexing (offset : Nat) (fault : LexFault)
  | parsing (offset : Nat) (fault : ParseFault)
  | typeMismatch (fault : Mismatch)
  | stackUnderflow (needed available : Nat)
  | invalidLocal (index : Nat)
  | validation (fault : Invalid)
  /-- the input is not in the binary format, and it is no text either -/
  | text (message : String)
  /-- the run came to no answer -/
  | breakdown (why : Breakdown)
  deriving DecidableEq

/-- The fault in words. -/
def LexFault.message : LexFault → String
  | unexpectedEnd => "unexpected end of input"
  | integerOverflow => "integer representation too long or out of range"
  | malformedUtf8 => "malformed UTF-8 encoding"

/-- A byte as it is cited in messages. -/
def citedByte (byte : UInt8) : String :=
  Text.hexPadded 2 byte.toNat

/-- The fault in words. -/
def ParseFault.message : ParseFault → String
  | missingMagic => "missing `\\0asm` magic number"
  | unsupportedVersion version => "unsupported binary version " ++ Text.byteList version
  | sizeMismatch declared consumed =>
    s!"size mismatch: declared {declared} bytes, consumed {consumed}"
  | invalidValueType byte => "invalid value type " ++ citedByte byte
  | notAReference ty => "expected reference type, found " ++ ty.name
  | invalidBlockType index => s!"invalid block type {index}"
  | nonzeroMemoryIndex byte => "expected zero memory index, found " ++ citedByte byte
  | unknownOpcode byte => "unknown opcode " ++ citedByte byte
  | unknownExtendedOpcode sub => s!"unknown opcode 0xfc {sub}"
  | selectArity count => s!"typed select expects one type, found {count}"
  | nestedTooDeeply => "blocks nested too deeply"
  | elseWithoutIf => "unexpected `else` outside of `if`"
  | duplicateElse => "duplicate `else` in `if`"
  | elseInBlock => "`else` inside `block` or `loop`"
  | invalidLimits byte => "invalid limits flag " ++ citedByte byte
  | invalidMutability byte => "invalid mutability flag " ++ citedByte byte
  | invalidElemKind byte => "invalid element kind " ++ citedByte byte
  | notAFuncType byte => "expected function type, found " ++ citedByte byte
  | invalidImportKind byte => "invalid import kind " ++ citedByte byte
  | invalidExportKind byte => "invalid export kind " ++ citedByte byte
  | invalidElemFlags flags => s!"invalid element segment flags {flags}"
  | invalidDataFlags flags => s!"invalid data segment flags {flags}"
  | tooManyLocals count => s!"too many locals: {count}"
  | bodyCount bodies declared =>
    s!"code section has {bodies} bodies, function section declared {declared}"
  | dataCount declared segments =>
    s!"data count section declared {declared} segment(s), found {segments}"
  | missingCode declared => s!"{declared} function(s) declared without a code section"

/-- What was expected, in words. -/
def Mismatch.expected : Mismatch → String
  | operands expected _ | labelArity expected _ => typesText expected
  | reference _ => "reference"
  | missingElse results _ => typesText results
  | tableTargets expected _ => "br_table targets of type " ++ typesText expected

/-- What was found instead, in words. -/
def Mismatch.found : Mismatch → String
  | operands _ found | tableTargets _ found => typesText found
  | reference found => found.name
  | labelArity _ count => s!"{count} value(s)"
  | missingElse _ params => typesText params ++ " from an `if` without `else`"

/-- What an index counts, in words. -/
def IndexSpace.name : IndexSpace → String
  | type => "type index"
  | func => "function index"
  | global => "global index"
  | table => "table index"
  | memory => "memory index"
  | elemSegment => "element segment"
  | dataSegment => "data segment"
  | localFunc => "local function"

/-- The fault in words. -/
def Invalid.message : Invalid → String
  | outOfRange space index => s!"{space.name} {index} out of range"
  | branchDepth depth nesting => s!"branch depth {depth} exceeds nesting depth {nesting}"
  | nestedTooDeeply => s!"blocks nested deeper than {maxNesting}"
  | notConstant offset =>
    "expression at offset " ++ Text.hex offset ++ " is not a constant expression"
  | nullOf ty => "ref.null of " ++ ty.name
  | immutableGlobal index => s!"global.set of immutable global {index}"
  | tableElement table ty =>
    s!"table {table} holds {ty.name}; only funcref tables are supported"
  | comparison op ty => s!"comparison {op.name} is not defined for {ty.name}"
  | unaryOperator op ty => s!"unary operator {op.name} is not defined for {ty.name}"
  | binaryOperator op ty => s!"binary operator {op.name} is not defined for {ty.name}"
  | noImportsFrom moduleName => s!"no imports from module `{moduleName}`"
  | globalOrder index source =>
    s!"global {index} is initialised from global {source}, which is not yet defined"
  | globalInitType index declared found =>
    s!"global {index} of type {declared.name} has an initialiser of type {found.name}"
  | segmentElement segment ty =>
    s!"element segment {segment} holds {ty.name}; only funcref segments are supported"
  | segmentItem segment item =>
    s!"element segment {segment} has a non-funcref item {item.describe}"
  | segmentOffset offset => s!"segment offset must be an i32 constant, found {offset.describe}"
  | itemNotReference item => s!"element item {item.describe} is not a function reference"
  | exportIndex name kind index =>
    s!"export `{name}` refers to {kind.name} index {index} out of range"
  | startSignature func =>
    s!"start function {func} must take no parameters and return nothing"

/-- What is said before the program stops; one that does not end says nothing. -/
def Breakdown.message : Breakdown → String
  | overflow => "attempt to add with overflow"
  | endless => ""

/-- The error in words. -/
def Error.message : Error → String
  | lexing offset fault => s!"lexing error at offset {Text.hex offset}: {fault.message}"
  | parsing offset fault => s!"parsing error at offset {Text.hex offset}: {fault.message}"
  | typeMismatch fault => s!"type mismatch: expected {fault.expected}, found {fault.found}"
  | stackUnderflow needed available =>
    s!"operand stack underflow: needed {needed} value(s), {available} available"
  | invalidLocal index => s!"invalid local index {index}"
  | validation fault => s!"validation error: {fault.message}"
  | text message => s!"text format error: {message}"
  | breakdown why => why.message

end WasmAot
