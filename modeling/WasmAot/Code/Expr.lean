/-
# Expressions of the emitted code

Code is emitted in a flat form: the operands of an operation are atoms, that is variables and
literals, and its result is bound to a variable before the next operation.  So an expression is one
operation on atoms.  Those that can trap end in the operator that hands the trap on.
-/
import WasmAot.Code.Name
import WasmAot.Ieee.Literal
import WasmAot.Module.Basic

namespace WasmAot.Code

/-- An operand as it is written at a use. -/
inductive Atom where
  | name (n : Name)
  /-- a reference is copied explicitly -/
  | clone (n : Name)
  | i32 (value : BitVec 32)
  | i64 (value : BitVec 64)
  | f32 (bits : BitVec 32)
  | f64 (bits : BitVec 64)
  /-- text chosen by the caller -/
  | given (text : String)
  deriving DecidableEq

/-- An integer literal with the name of its type as suffix. -/
def intLiteral (type : String) (value : Int) : String :=
  Text.signed (value < 0) (toString value.natAbs ++ type)

/-- The atom as written. -/
def Atom.text : Atom → String
  | name n => n.text
  | clone n => n.text ++ ".clone()"
  | i32 value => intLiteral "i32" value.toInt
  | i64 value => intLiteral "i64" value.toInt
  | f32 bits => Ieee.single.literal "f32" bits.toNat
  | f64 bits => Ieee.double.literal "f64" bits.toNat
  | given text => text

/-- An expression: one operation on atoms. -/
inductive Expr where
  | atom (a : Atom)
  /-- the zero of a type -/
  | zero (ty : ValType)
  | compare (ty : ValType) (op : CmpOp) (a b : Atom)
  | unary (ty : ValType) (op : UnOp) (a : Atom)
  | binary (ty : ValType) (op : BinOp) (a b : Atom)
  | convert (op : CvtOp) (a : Atom)
  | select (cond a b : Atom)
  | null
  | isNull (a : Atom)
  /-- a reference to a function of the module -/
  | ownFuncRef (func : Nat)
  /-- a reference to an imported function -/
  | importedFuncRef (func : Nat)
  | globalGet (index : Nat) (ty : ValType)
  | tableGet (table : Nat) (index : Atom)
  | tableSize (table : Nat)
  | tableGrow (table : Nat) (delta init : Atom)
  | load (memory : Place) (op : LoadOp) (offset : Nat) (addr : Atom)
  | memorySize (memory : Place)
  | memoryGrow (memory : Place) (delta : Atom)
  /-- a call of a function of the module -/
  | callOwn (func : Nat) (args : List Atom)
  /-- a call of an imported function, on dynamically typed values -/
  | callImported (func : Nat) (args : List (ValType × Atom))
  /-- the function in a slot of a table, which must not be empty -/
  | slotFunc (table : Nat) (slot : Atom)
  /-- a call of a function found in a table -/
  | callRef (callee : Name) (args : List (ValType × Atom))
  /-- one of the dynamically typed values that a call gave -/
  | unpack (values : Name) (position : Nat) (ty : ValType)
  deriving DecidableEq

/-- The unsigned type of the same width. -/
def unsignedType : ValType → String
  | .i64 => "u64"
  | _ => "u32"

/-- The comparison of two operands; an unsigned one compares the bit patterns. -/
def compareText (ty : ValType) (op : CmpOp) (a b : String) : String :=
  let u := unsignedType ty
  match op with
  | .eq => s!"{a} == {b}"
  | .ne => s!"{a} != {b}"
  | .ltS | .lt => s!"{a} < {b}"
  | .gtS | .gt => s!"{a} > {b}"
  | .leS | .le => s!"{a} <= {b}"
  | .geS | .ge => s!"{a} >= {b}"
  | .ltU => s!"({a} as {u}) < ({b} as {u})"
  | .gtU => s!"({a} as {u}) > ({b} as {u})"
  | .leU => s!"({a} as {u}) <= ({b} as {u})"
  | .geU => s!"({a} as {u}) >= ({b} as {u})"

/-- A unary operation.  Rounding to the nearest integer breaks ties to even. -/
def unaryText (ty : ValType) (op : UnOp) (a : String) : String :=
  match op with
  | .eqz => s!"({a} == 0) as i32"
  | .clz => s!"{a}.leading_zeros() as {ty.name}"
  | .ctz => s!"{a}.trailing_zeros() as {ty.name}"
  | .popcnt => s!"{a}.count_ones() as {ty.name}"
  | .extend8S => s!"{a} as i8 as {ty.name}"
  | .extend16S => s!"{a} as i16 as {ty.name}"
  | .extend32S => s!"{a} as i32 as {ty.name}"
  | .abs => s!"{a}.abs()"
  | .neg => s!"-{a}"
  | .ceil => s!"{a}.ceil()"
  | .floor => s!"{a}.floor()"
  | .trunc => s!"{a}.trunc()"
  | .nearest => s!"{a}.round_ties_even()"
  | .sqrt => s!"{a}.sqrt()"

/-- A binary operation.  Integer arithmetic wraps, shift counts are taken modulo the width, and what
can trap or differs from the plain operator is a library function. -/
def binaryText (ty : ValType) (op : BinOp) (a b : String) : String :=
  let t := ty.name
  match op with
  | .add => if ty.isInt then s!"{a}.wrapping_add({b})" else s!"{a} + {b}"
  | .sub => if ty.isInt then s!"{a}.wrapping_sub({b})" else s!"{a} - {b}"
  | .mul => if ty.isInt then s!"{a}.wrapping_mul({b})" else s!"{a} * {b}"
  | .divS => s!"ops::{t}_div_s({a}, {b})?"
  | .divU => s!"ops::{t}_div_u({a}, {b})?"
  | .remS => s!"ops::{t}_rem_s({a}, {b})?"
  | .remU => s!"ops::{t}_rem_u({a}, {b})?"
  | .and => s!"{a} & {b}"
  | .or => s!"{a} | {b}"
  | .xor => s!"{a} ^ {b}"
  | .shl => s!"{a}.wrapping_shl({b} as u32)"
  | .shrS => s!"{a}.wrapping_shr({b} as u32)"
  | .shrU => s!"({a} as {unsignedType ty}).wrapping_shr({b} as u32) as {t}"
  | .rotl => s!"{a}.rotate_left({b} as u32)"
  | .rotr => s!"{a}.rotate_right({b} as u32)"
  | .div => s!"{a} / {b}"
  | .min => s!"ops::{t}_min({a}, {b})"
  | .max => s!"ops::{t}_max({a}, {b})"
  | .copysign => s!"{a}.copysign({b})"

/-- A conversion.  A plain cast saturates and maps NaN to zero, so only the trapping truncations
are library functions. -/
def convertText (op : CvtOp) (a : String) : String :=
  match op with
  | .i32WrapI64 => s!"{a} as i32"
  | .i32TruncF32S => s!"ops::i32_trunc_f32_s({a})?"
  | .i32TruncF32U => s!"ops::i32_trunc_f32_u({a})?"
  | .i32TruncF64S => s!"ops::i32_trunc_f64_s({a})?"
  | .i32TruncF64U => s!"ops::i32_trunc_f64_u({a})?"
  | .i64ExtendI32S => s!"{a} as i64"
  | .i64ExtendI32U => s!"{a} as u32 as i64"
  | .i64TruncF32S => s!"ops::i64_trunc_f32_s({a})?"
  | .i64TruncF32U => s!"ops::i64_trunc_f32_u({a})?"
  | .i64TruncF64S => s!"ops::i64_trunc_f64_s({a})?"
  | .i64TruncF64U => s!"ops::i64_trunc_f64_u({a})?"
  | .f32ConvertI32S | .f32ConvertI64S | .f32DemoteF64 => s!"{a} as f32"
  | .f32ConvertI32U => s!"{a} as u32 as f32"
  | .f32ConvertI64U => s!"{a} as u64 as f32"
  | .f64ConvertI32S | .f64ConvertI64S | .f64PromoteF32 => s!"{a} as f64"
  | .f64ConvertI32U => s!"{a} as u32 as f64"
  | .f64ConvertI64U => s!"{a} as u64 as f64"
  | .i32ReinterpretF32 => s!"{a}.to_bits() as i32"
  | .i64ReinterpretF64 => s!"{a}.to_bits() as i64"
  | .f32ReinterpretI32 => s!"f32::from_bits({a} as u32)"
  | .f64ReinterpretI64 => s!"f64::from_bits({a} as u64)"
  | .i32TruncSatF32S | .i32TruncSatF64S => s!"{a} as i32"
  | .i32TruncSatF32U | .i32TruncSatF64U => s!"{a} as u32 as i32"
  | .i64TruncSatF32S | .i64TruncSatF64S => s!"{a} as i64"
  | .i64TruncSatF32U | .i64TruncSatF64U => s!"{a} as u64 as i64"

/-- The address of a memory access: the operand, read as unsigned, and the static offset. -/
def addressText (addr : Atom) (offset : Nat) : String :=
  s!"ops::effective_address({addr.text}, {offset})?"

/-- A truth value as written. -/
def flagText (b : Bool) : String :=
  if b then "true" else "false"

/-- A load.  A 32-bit float is loaded through its bits, so that a NaN keeps its payload. -/
def loadText (memory : Place) (op : LoadOp) (offset : Nat) (addr : Atom) : String :=
  let m := memory.text
  let ea := addressText addr offset
  let whole := s!"{m}.borrow().load_int({ea}, {op.bits}, {flagText op.signed})?"
  match op.ty with
  | .f32 => s!"f32::from_bits({m}.borrow().load_int({ea}, 32, false)? as u32)"
  | .f64 => s!"{m}.borrow().load_float({ea}, 64)?"
  | .i64 => whole
  | _ => whole ++ " as i32"

/-- The read of a global, brought to its type. -/
def globalGetText (index : Nat) (ty : ValType) : String :=
  let cell := (Field.global index).onSelf ++ ".borrow()"
  match ty with
  | .i32 => cell ++ ".get_int()? as i32"
  | .i64 => cell ++ ".get_int()?"
  | .f32 => cell ++ ".get_float()? as f32"
  | .f64 => cell ++ ".get_float()?"
  | .funcref => cell ++ ".get_ref()?.as_func_ref()?"
  | .externref => cell ++ ".get_ref()?.as_extern_ref()?"

/-- Arguments as dynamically typed values. -/
def wrapped (args : List (ValType × Atom)) : String :=
  Text.commaSep (args.map fun p => s!"{p.1.wrapper}({p.2.text})")

/-- The expression as written. -/
def Expr.text : Expr → String
  | atom a => a.text
  | zero ty => ty.zeroLiteral
  | compare ty op a b => s!"({compareText ty op a.text b.text}) as i32"
  | unary ty op a => unaryText ty op a.text
  | binary ty op a b => binaryText ty op a.text b.text
  | convert op a => convertText op a.text
  | select cond a b => s!"if {cond.text} != 0 \x7b {a.text} \x7d else \x7b {b.text} \x7d"
  | null => "None"
  | isNull a => s!"{a.text}.is_none() as i32"
  | ownFuncRef func => s!"Some(self.ref_fn_{func}())"
  | importedFuncRef func => s!"Some({(Field.func func).onSelf}.clone())"
  | globalGet index ty => globalGetText index ty
  | tableGet table index => s!"{(Field.table table).onSelf}.borrow().get({index.text} as u32)?"
  | tableSize table => s!"{(Field.table table).onSelf}.borrow().size()"
  | tableGrow table delta init =>
    s!"{(Field.table table).onSelf}.borrow_mut().grow({delta.text} as u32, {init.text})"
  | load memory op offset addr => loadText memory op offset addr
  | memorySize memory => s!"{memory.text}.borrow().size()"
  | memoryGrow memory delta => s!"{memory.text}.borrow_mut().grow({delta.text} as u32)"
  | callOwn func args => s!"self.fn_{func}({Text.commaSep (args.map Atom.text)})?"
  | callImported func args => s!"{(Field.func func).onSelf}.call(&[{wrapped args}])?"
  | slotFunc table slot =>
    s!"{(Field.table table).onSelf}.borrow().get({slot.text} as u32)?" ++
      ".ok_or(WasmTrap::UndefinedElement)?"
  | callRef callee args => s!"{callee.text}.call(&[{wrapped args}])?"
  | unpack values position ty => s!"{values.text}[{position}].{ty.accessor}()?"

end WasmAot.Code
