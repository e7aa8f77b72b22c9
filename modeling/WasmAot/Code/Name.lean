/-
# Names in the emitted code

Functions are emitted as methods of one struct.  Inside them a value lives in a numbered variable, a
local of the source in a variable numbered by its index, and a construct that branches can leave has
a numbered label.  What the methods share are the fields of the struct, also numbered.
-/

namespace WasmAot.Code

/-- A variable. -/
inductive Name where
  /-- `v3`, made for a value -/
  | temp (n : Nat)
  /-- `l3`, the local of index 3 -/
  | slot (index : Nat)
  /-- a name chosen by the caller -/
  | given (text : String)
  deriving DecidableEq

/-- The variable as written. -/
def Name.text : Name → String
  | temp n => s!"v{n}"
  | slot index => s!"l{index}"
  | given text => text

/-- The label of a construct. -/
inductive Label where
  /-- the body of a function has none -/
  | body
  /-- the label of a construct, `l3` behind an apostrophe -/
  | numbered (n : Nat)
  /-- a label chosen by the caller -/
  | given (text : String)
  deriving DecidableEq

/-- The label as written. -/
def Label.text : Label → String
  | body => ""
  | numbered n => s!"'l{n}"
  | given text => text

/-- A field of the emitted struct. -/
inductive Field where
  /-- the weak reference to the instance itself -/
  | me
  /-- a module from which something is imported -/
  | provider (n : Nat)
  /-- an imported function, by its index -/
  | func (index : Nat)
  | memory (index : Nat)
  | global (index : Nat)
  | table (index : Nat)
  /-- the bytes of a data segment, none once it is dropped -/
  | data (segment : Nat)
  /-- the references of an element segment, none once it is dropped -/
  | elem (segment : Nat)
  deriving DecidableEq

/-- The field as written. -/
def Field.name : Field → String
  | me => "me"
  | provider n => s!"ref_{n}"
  | func index => s!"fn_{index}"
  | memory index => s!"mem_{index}"
  | global index => s!"global_{index}"
  | table index => s!"table_{index}"
  | data segment => s!"data_{segment}"
  | elem segment => s!"elem_{segment}"

/-- The declared type of the field. -/
def Field.type : Field → String
  | me => "Weak<Module>"
  | provider _ => "Rc<dyn Instance>"
  | func _ => "FuncRef"
  | memory _ => "Rc<RefCell<Memory>>"
  | global _ => "Rc<RefCell<Global>>"
  | table _ => "Rc<RefCell<Table>>"
  | data _ => "Cell<&'static [u8]>"
  | elem _ => "RefCell<Vec<Option<FuncRef>>>"

/-- The field of the instance whose method runs. -/
def Field.onSelf (f : Field) : String :=
  "self." ++ f.name

/-- The field of an instance that its constructor has just made. -/
def Field.onModule (f : Field) : String :=
  "module." ++ f.name

/-- Where a memory is found. -/
inductive Place where
  /-- a field of the instance whose method runs -/
  | field (f : Field)
  /-- an expression chosen by the caller -/
  | given (text : String)
  deriving DecidableEq

/-- The place as written. -/
def Place.text : Place → String
  | field f => f.onSelf
  | given text => text

end WasmAot.Code
