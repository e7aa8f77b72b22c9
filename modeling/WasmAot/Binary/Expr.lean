/-
# Expressions in the binary format

An expression is a sequence of instructions closed by an `end`.  The constructs that are still open
are kept on a stack, each with the part of the surrounding sequence that was read before it, so
reading goes byte by byte through the input and does not recurse into nested bodies.
-/
import WasmAot.Binary.Instruction

namespace WasmAot.Binary

/-- Which construct is open. -/
inductive Construct where
  | block
  | loop
  /-- in the first arm -/
  | ifThen
  /-- in the second arm, with the first one finished -/
  | ifElse (thenBody : List Instr)

/-- The construct that an opcode opens. -/
def Construct.ofOpcode? (opcode : UInt8) : Option Construct :=
  match opcode.toNat with
  | 0x02 => some .block
  | 0x03 => some .loop
  | 0x04 => some .ifThen
  | _ => none

/-- The finished construct, given the last of its bodies. -/
def Construct.close (ty : BlockType) (body : List Instr) : Construct → Instr
  | .block => .block ty body
  | .loop => .loop ty body
  | .ifThen => .ifElse ty body []
  | .ifElse thenBody => .ifElse ty thenBody body

/-- A construct whose body is being read. -/
structure OpenConstruct where
  construct : Construct
  ty : BlockType
  /-- the place of its opcode -/
  offset : Nat
  /-- the sequence around it, up to here, last instruction first -/
  outer : List Instr

/-- The opcode `else`. -/
def elseOpcode : UInt8 := 0x05

/-- The opcode `end`. -/
def endOpcode : UInt8 := 0x0b

section

variable {α : Type}

/-- What an `else` does: the innermost construct goes on with its second arm. -/
def atElse (next : List OpenConstruct → List Instr → Decoder α) (offset : Nat)
    (pending : List OpenConstruct) (done : List Instr) : Decoder α :=
  match pending with
  | [] => parseFault offset .elseWithoutIf
  | top :: below =>
    match top.construct with
    | .ifThen => next ({ top with construct := .ifElse done.reverse } :: below) []
    | .ifElse _ => parseFault top.offset .duplicateElse
    | .block | .loop => parseFault top.offset .elseInBlock

/-- What an `end` does: it closes the innermost construct, or the expression. -/
def atEnd (next : List OpenConstruct → List Instr → Decoder α) (finish : List Instr → Decoder α)
    (pending : List OpenConstruct) (done : List Instr) : Decoder α :=
  match pending with
  | [] => finish done.reverse
  | top :: below => next below (top.construct.close top.ty done.reverse :: top.outer)

/-- One step in reading an expression: an opcode and what belongs to it.  `pending` are the open
constructs, innermost first, and `done` the current sequence, last instruction first.  The step leads
on to `next`, or to `finish` with the whole expression. -/
def exprStep (next : List OpenConstruct → List Instr → Decoder α) (finish : List Instr → Decoder α)
    (pending : List OpenConstruct) (done : List Instr) : Decoder α := do
  let offset ← position
  let opcode ← byte
  match Construct.ofOpcode? opcode with
  | some construct =>
    if maxNesting ≤ pending.length then parseFault offset .nestedTooDeeply
    else
      let ty ← blockType
      next ({ construct, ty, offset, outer := done } :: pending) []
  | none =>
    if opcode = elseOpcode then atElse next offset pending done
    else if opcode = endOpcode then atEnd next finish pending done
    else
      let instr ← plainInstr offset opcode
      next pending (instr :: done)

end

/-- Reads the rest of an expression.  Every instruction takes a byte, so a bound on the number of
steps is a bound on the bytes that are left, and when it is used up there are none. -/
def exprFrom : Nat → List OpenConstruct → List Instr → Decoder (List Instr)
  | 0 => fun _ _ => unexpectedEnd
  | steps + 1 => exprStep (exprFrom steps) pure

/-- An expression, up to and with the `end` that closes it. -/
def expr : Decoder (List Instr) := do
  exprFrom (← get).remaining [] []

/-- The constant that an expression stands for, if it is one. -/
def constOf? : List Instr → Option ConstExpr
  | [.i32Const v] => some (.i32 v)
  | [.i64Const v] => some (.i64 v)
  | [.f32Const bits] => some (.f32 bits)
  | [.f64Const bits] => some (.f64 bits)
  | [.refNull ty] => some (.refNull ty)
  | [.refFunc func] => some (.refFunc func)
  | [.globalGet index] => some (.globalGet index)
  | _ => none

/-- A constant expression: any expression is read, and rejected if it is no single constant. -/
def constExpr : Decoder ConstExpr := do
  let offset ← position
  match constOf? (← expr) with
  | some c => return c
  | none => throw (.validation (.notConstant offset))

end WasmAot.Binary
