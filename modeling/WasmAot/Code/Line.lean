/-
# Lines of the emitted code

The body of an emitted function is a sequence of lines: bindings, assignments, operations for their
effect, transfers of control, and the lines that open and close the scopes of constructs.  `layout`
gives each of them its text and its part in the indentation.
-/
import WasmAot.Code.Expr
import WasmAot.Text.Layout

namespace WasmAot.Code

/-- An operation for its effect on the instance. -/
inductive Effect where
  /-- a call that gives nothing -/
  | call (e : Expr)
  /-- traps unless the function has the type of the given index -/
  | requireSignature (callee : Name) (type : Nat)
  | globalSet (index : Nat) (ty : ValType) (value : Atom)
  | tableSet (table : Nat) (index value : Atom)
  | tableFill (table : Nat) (len value offset : Atom)
  /-- a copy inside one table -/
  | tableCopyWithin (table : Nat) (src dst len : Atom)
  /-- a copy from one table to another -/
  | tableCopy (srcTable dstTable : Nat) (src dst len : Atom)
  | tableInit (table segment : Nat) (src dst len : Atom)
  | elemDrop (segment : Nat)
  | store (memory : Place) (op : StoreOp) (offset : Nat) (addr value : Atom)
  | memoryInit (memory : Place) (segment : Nat) (src dst len : Atom)
  | dataDrop (segment : Nat)
  | memoryCopy (memory : Place) (src dst len : Atom)
  | memoryFill (memory : Place) (dst value len : Atom)
  deriving DecidableEq

/-- A write to a global, from its type. -/
def globalSetText (index : Nat) (ty : ValType) (value : String) : String :=
  let cell := (Field.global index).onSelf ++ ".borrow_mut()"
  match ty with
  | .i32 => s!"{cell}.set_int({value} as i64)?"
  | .i64 => s!"{cell}.set_int({value})?"
  | .f32 => s!"{cell}.set_float({value} as f64)?"
  | .f64 => s!"{cell}.set_float({value})?"
  | .funcref | .externref => s!"{cell}.set_ref({ty.wrapper}({value}))?"

/-- A store.  A 32-bit float is stored through its bits, so that a NaN keeps its payload. -/
def storeText (memory : Place) (op : StoreOp) (offset : Nat) (addr value : Atom) : String :=
  let cell := memory.text ++ ".borrow_mut()"
  let ea := addressText addr offset
  match op.ty with
  | .f32 => s!"{cell}.store_int({value.text}.to_bits() as i64, {ea}, 32)?"
  | .f64 => s!"{cell}.store_float({value.text}, {ea}, 64)?"
  | .i64 => s!"{cell}.store_int({value.text}, {ea}, {op.bits})?"
  | _ => s!"{cell}.store_int({value.text} as i64, {ea}, {op.bits})?"

/-- Three operands of a bulk operation on tables, read as unsigned. -/
def unsignedArgs (a b c : Atom) : String :=
  s!"{a.text} as u32, {b.text} as u32, {c.text} as u32"

/-- The operation as written, without the semicolon after it. -/
def Effect.text : Effect → String
  | call e => e.text
  | requireSignature callee type => s!"{callee.text}.expect_type(&TYPE_{type})?"
  | globalSet index ty value => globalSetText index ty value.text
  | tableSet table index value =>
    s!"{(Field.table table).onSelf}.borrow_mut().set({index.text} as u32, {value.text})?"
  | tableFill table len value offset =>
    s!"{(Field.table table).onSelf}.borrow_mut()" ++
      s!".fill({len.text} as u32, {value.text}, {offset.text} as u32)?"
  | tableCopyWithin table src dst len =>
    s!"{(Field.table table).onSelf}.borrow_mut().copy_within({unsignedArgs src dst len})?"
  | tableCopy srcTable dstTable src dst len =>
    s!"{(Field.table srcTable).onSelf}.borrow()" ++
      s!".copy(&mut {(Field.table dstTable).onSelf}.borrow_mut(), {unsignedArgs src dst len})?"
  | tableInit table segment src dst len =>
    s!"{(Field.table table).onSelf}.borrow_mut()" ++
      s!".init(&{(Field.elem segment).onSelf}.borrow(), {unsignedArgs src dst len})?"
  | elemDrop segment => s!"{(Field.elem segment).onSelf}.borrow_mut().clear()"
  | store memory op offset addr value => storeText memory op offset addr value
  | memoryInit memory segment src dst len =>
    s!"{memory.text}.borrow_mut()" ++
      s!".init({(Field.data segment).onSelf}.get(), {unsignedArgs src dst len})?"
  | dataDrop segment => s!"{(Field.data segment).onSelf}.set(NO_DATA)"
  | memoryCopy memory src dst len =>
    s!"{memory.text}.borrow_mut().copy({src.text} as u32 as usize, " ++
      s!"{dst.text} as u32 as usize, {len.text} as u32 as usize)?"
  | memoryFill memory dst value len =>
    s!"{memory.text}.borrow_mut().fill({len.text} as u32 as usize, " ++
      s!"{value.text} as u8, {dst.text} as u32 as usize)?"

/-- A line of the body of an emitted function. -/
inductive Line where
  /-- a new variable of a type -/
  | bind (mutable : Bool) (var : Name) (ty : ValType) (value : Expr)
  /-- a new variable for what a dynamically typed call needs or gives -/
  | bindDynamic (var : Name) (value : Expr)
  /-- new variables for the results of one call -/
  | bindTuple (vars : List Name) (types : List ValType) (value : Expr)
  /-- all values are read before the first variable is written -/
  | assign (vars : List Name) (values : List Atom)
  | perform (e : Effect)
  | breakTo (label : Label)
  | continueTo (label : Label)
  | returnOk (values : List Atom)
  | returnTrap
  /-- opens a block that `breakTo` leaves -/
  | openBlock (label : Label)
  /-- opens a loop that `continueTo` restarts and `breakTo` leaves -/
  | openLoop (label : Label)
  /-- opens the code for a condition other than zero -/
  | openIf (cond : Atom)
  /-- opens the code for two tables that are the same object -/
  | openIfSame (src dst : Nat)
  /-- ends the first arm and opens the second -/
  | openElse
  /-- opens the arms of a choice by an unsigned number -/
  | openMatch (selector : Atom)
  /-- opens the arm for the listed numbers -/
  | openCases (cases : List Nat)
  /-- opens the arm for all other numbers -/
  | openOtherwise
  /-- closes the innermost scope -/
  | close
  deriving DecidableEq

/-- Values as one expression: nothing, the value itself, or a tuple. -/
def tupleText : List String → String
  | [] => "()"
  | [value] => value
  | values => s!"({Text.commaSep values})"

/-- The types of values as one type. -/
def tupleType (types : List ValType) : String :=
  tupleText (types.map ValType.variableType)

/-- The return type of a function with these results. -/
def returnType (results : List ValType) : String :=
  s!"WasmResult<{tupleType results}>"

/-- An assignment.  Several variables are assigned at once, as one tuple. -/
def assignText (vars : List Name) (values : List Atom) : String :=
  match vars, values with
  | [var], [value] => s!"{var.text} = {value.text};"
  | _, _ =>
    s!"({Text.commaSep (vars.map Name.text)}) = ({Text.commaSep (values.map Atom.text)});"

/-- The line with its place in the indentation. -/
def Line.layout : Line → Text.Line
  | bind mutable var ty value =>
    let keyword := if mutable then "let mut" else "let"
    .plain s!"{keyword} {var.text}: {ty.variableType} = {value.text};"
  | bindDynamic var value => .plain s!"let {var.text} = {value.text};"
  | bindTuple vars types value =>
    let names := Text.commaSep (vars.map Name.text)
    let typeNames := Text.commaSep (types.map ValType.variableType)
    .plain s!"let ({names}): ({typeNames}) = {value.text};"
  | assign vars values => .plain (assignText vars values)
  | perform e => .plain s!"{e.text};"
  | breakTo label => .plain s!"break {label.text};"
  | continueTo label => .plain s!"continue {label.text};"
  | returnOk values => .plain s!"return Ok({tupleText (values.map Atom.text)});"
  | returnTrap => .plain "return Err(WasmTrap::Unreachable);"
  | openBlock label => .opening s!"{label.text}: \x7b"
  | openLoop label => .opening s!"{label.text}: loop \x7b"
  | openIf cond => .opening s!"if {cond.text} != 0 \x7b"
  | openIfSame src dst =>
    .opening s!"if Rc::ptr_eq(&{(Field.table src).onSelf}, &{(Field.table dst).onSelf}) \x7b"
  | openElse => .reopening "\x7d else \x7b"
  | openMatch selector => .opening s!"match {selector.text} as u32 \x7b"
  | openCases cases =>
    let numbers := " | ".intercalate (cases.map toString)
    .opening s!"{numbers} => \x7b"
  | openOtherwise => .opening "_ => \x7b"
  | close => .closing "\x7d"

end WasmAot.Code
