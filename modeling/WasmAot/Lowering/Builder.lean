/-
# The operand stack at compile time

WebAssembly computes on a stack of operands, the emitted code on variables.  While a body is lowered
the stack is simulated: every operand is a variable already bound, or a literal or a local that is
written only where it is used.  Each construct has a frame with the operands pushed inside of it, so
that its results can be told from what was there before.  Counting, looking and popping walk from
frame to frame, from the innermost one outward.

A failing operation leaves the builder as it was.
-/
import WasmAot.Code.Line
import WasmAot.Error

namespace WasmAot.Lowering

open Code

/-- What an operand is. -/
inductive Slot where
  /-- the value of a variable that is not written any more -/
  | bound (var : Name)
  /-- an atom to be written at the use; `reads` is the local it depends on -/
  | deferred (atom : Atom) (reads : Option Nat)
  deriving DecidableEq

/-- An operand and its type. -/
structure Operand where
  slot : Slot
  ty : ValType
  deriving DecidableEq

/-- One use of an operand. -/
def Operand.atom (op : Operand) : Atom :=
  match op.slot with
  | .bound var => if op.ty.isRef then .clone var else .name var
  | .deferred atom _ => atom

/-- What kind of scope a frame is for. -/
inductive FrameKind where
  | function
  | block
  | loop
  | ifArm
  deriving DecidableEq

/-- The variables that take values when control arrives somewhere, and their types. -/
structure Target where
  vars : List Name
  types : List ValType
  deriving DecidableEq

/-- A construct that is being lowered. -/
structure Frame where
  kind : FrameKind
  label : Label
  /-- the operands pushed inside the construct, top first -/
  stack : List Operand
  /-- where a branch to the construct arrives -/
  branch : Target
  /-- where falling off its end arrives -/
  results : Target
  /-- the rest of the current sequence is never reached -/
  unreachable : Bool
  deriving DecidableEq

/-- A function body that is being lowered. -/
structure Builder where
  /-- the types of the parameters and the declared locals -/
  locals : List ValType
  /-- the innermost construct -/
  current : Frame
  /-- the constructs around it, innermost first; the last one is the function itself -/
  enclosing : List Frame
  nextVar : Nat
  nextLabel : Nat
  /-- the lines so far -/
  out : Array Line
  deriving DecidableEq

/-- The builder for a body before its first instruction. -/
def Builder.start (locals results : List ValType) (out : Array Line) : Builder :=
  let target := { vars := [], types := results }
  { locals
    current :=
      { kind := .function, label := .body, stack := [], branch := target, results := target,
        unreachable := false }
    enclosing := []
    nextVar := 0
    nextLabel := 0
    out }

namespace Builder

/-- All frames, innermost first. -/
def frames (b : Builder) : List Frame :=
  b.current :: b.enclosing

/-- How many constructs lie around the current place; none in the function's own sequence. -/
def depth (b : Builder) : Nat :=
  b.enclosing.length

/-- The number of operands pushed inside the innermost construct. -/
def height (b : Builder) : Nat :=
  b.current.stack.length

end Builder

/-- An operation of a builder. -/
abbrev Build := EStateM Error Builder

/-- Takes the value of a computation, or fails with its error. -/
def require {α : Type} : Except Error α → Build α
  | .ok a => return a
  | .error e => throw e

/-! ### Names and lines -/

/-- A variable not used before. -/
def newVar : Build Name := do
  let b ← get
  set { b with nextVar := b.nextVar + 1 }
  return .temp b.nextVar

/-- A label not used before. -/
def newLabel : Build Label := do
  let b ← get
  set { b with nextLabel := b.nextLabel + 1 }
  return .numbered b.nextLabel

/-- Appends a line. -/
def emit (line : Line) : Build Unit :=
  modify fun b => { b with out := b.out.push line }

/-! ### Frames -/

/-- Enters a construct; `params` are its first operands, bottom-most first. -/
def openFrame (kind : FrameKind) (label : Label) (branch results : Target) (params : List Operand) :
    Build Unit :=
  modify fun b =>
    { b with
      current := { kind, label, stack := params.reverse, branch, results, unreachable := false }
      enclosing := b.current :: b.enclosing }

/-- Leaves the innermost construct; the frame of the function stays. -/
def closeFrame : Build Unit :=
  modify fun b =>
    match b.enclosing with
    | [] => b
    | frame :: rest => { b with current := frame, enclosing := rest }

/-- Marks the rest of the current sequence as never reached. -/
def markUnreachable : Build Unit :=
  modify fun b => { b with current := { b.current with unreachable := true } }

/-- The construct that a branch leads to. -/
def targetFrame (levels : Nat) : Build Frame := do
  let b ← get
  match b.frames[levels]? with
  | some frame => return frame
  | none => throw (.validation (.branchDepth levels b.depth))

/-- Where a branch arrives. -/
def branchTarget (levels : Nat) : Build Target := do
  return (← targetFrame levels).branch

/-! ### Operands -/

/-- Pushes an operand. -/
def pushOperand (op : Operand) : Build Unit :=
  modify fun b => { b with current := { b.current with stack := op :: b.current.stack } }

/-- Pushes a variable. -/
def pushBound (var : Name) (ty : ValType) : Build Unit :=
  pushOperand { slot := .bound var, ty }

/-- Pushes variables with their types. -/
def pushAllBound : List Name → List ValType → Build Unit
  | var :: vars, ty :: types => do
    pushBound var ty
    pushAllBound vars types
  | _, _ => return ()

/-- Pushes a new variable for each type; binding them is left to the caller. -/
def push : List ValType → Build (List Name)
  | [] => return []
  | ty :: types => do
    let var ← newVar
    pushBound var ty
    let vars ← push types
    return var :: vars

/-- Binds an expression to a new variable and pushes that. -/
def pushBinding (ty : ValType) (value : Expr) : Build Name := do
  let var ← newVar
  emit (.bind false var ty value)
  pushBound var ty
  return var

/-- Pushes an atom without any effect or dependency, to be written at the use. -/
def pushConst (atom : Atom) (ty : ValType) : Build Unit :=
  pushOperand { slot := .deferred atom none, ty }

/-- Adds up the operands of frames. -/
def countOperands (total : Nat) : List Frame → Nat
  | [] => total
  | frame :: outer => countOperands (total + frame.stack.length) outer

/-- Fails unless there are as many operands as needed. -/
def checkAvailable (needed : Nat) : Build Unit := do
  let available := countOperands 0 (← get).frames
  if available < needed then throw (.stackUnderflow needed available) else return ()

/-- Looks at the operands of a frame, top first, until `n` are seen.  The last one seen comes first. -/
def seeStack (n : Nat) (seen : List Operand) : List Operand → List Operand
  | [] => seen
  | op :: below => if seen.length = n then seen else seeStack n (op :: seen) below

/-- Looks at the operands of frames until `n` are seen. -/
def seeFrames (n : Nat) (seen : List Operand) : List Frame → List Operand
  | [] => seen
  | frame :: outer =>
    let seen := seeStack n seen frame.stack
    if seen.length = n then seen else seeFrames n seen outer

/-- The top `n` operands, bottom-most first; they stay. -/
def peekOperands (n : Nat) : Build (List Operand) := do
  checkAvailable n
  return seeFrames n [] (← get).frames

/-- Takes operands off a stack until `n` are taken: those taken, the last one first, and what stays. -/
def takeStack (n : Nat) (taken : List Operand) : List Operand → List Operand × List Operand
  | [] => (taken, [])
  | op :: below =>
    if taken.length < n then takeStack n (op :: taken) below else (taken, op :: below)

/-- Takes operands off a frame and, if it has not enough of them, off those around it. -/
def takeFrom (n : Nat) (taken : List Operand) (frame : Frame) :
    List Frame → List Operand × Frame × List Frame
  | [] =>
    let (taken, stack) := takeStack n taken frame.stack
    (taken, { frame with stack }, [])
  | parent :: outer =>
    let (taken, stack) := takeStack n taken frame.stack
    if taken.length < n then
      let (taken, parent, outer) := takeFrom n taken parent outer
      (taken, { frame with stack }, parent :: outer)
    else (taken, { frame with stack }, parent :: outer)

/-- Takes the top `n` operands off, bottom-most first. -/
def pop (n : Nat) : Build (List Operand) := do
  checkAvailable n
  let b ← get
  let (taken, current, enclosing) := takeFrom n [] b.current b.enclosing
  set { b with current, enclosing }
  return taken

/-- The types of the top `n` operands, bottom-most first. -/
def topTypes (n : Nat) : Build (List ValType) := do
  return (← peekOperands n).map Operand.ty

/-- Fails unless the types are those expected. -/
def expectTypes (expected found : List ValType) : Build Unit :=
  if found = expected then return () else throw (.typeMismatch (.operands expected found))

/-- Fails unless the top `n` operands all have the type. -/
def expectTop (ty : ValType) (n : Nat) : Build Unit := do
  expectTypes (List.replicate n ty) (← topTypes n)

/-- The top operands, which have to have these types; they stay. -/
def peekAtoms (types : List ValType) : Build (List Operand) := do
  let ops ← peekOperands types.length
  expectTypes types (ops.map Operand.ty)
  return ops

/-- Takes off operands, which have to have these types. -/
def popOperandsOf (types : List ValType) : Build (List Operand) := do
  let _ ← peekAtoms types
  pop types.length

/-- Takes off operands, which have to have these types, for one use each. -/
def popAtoms (types : List ValType) : Build (List Atom) := do
  return (← popOperandsOf types).map Operand.atom

/-- Takes off one operand of any type. -/
def popOperand : Build Operand := do
  match ← pop 1 with
  | op :: _ => return op
  | [] => throw (.stackUnderflow 1 0)

/-- Takes off one operand of the type. -/
def popAtom (ty : ValType) : Build Atom := do
  match ← popAtoms [ty] with
  | atom :: _ => return atom
  | [] => throw (.stackUnderflow 1 0)

/-! ### Locals -/

/-- The type of a local. -/
def typeOfLocal (index : Nat) : Build ValType := do
  match (← get).locals[index]? with
  | some ty => return ty
  | none => throw (.invalidLocal index)

/-- Pushes a read of a local, to be written at the use. -/
def getLocal (index : Nat) : Build Unit := do
  let ty ← typeOfLocal index
  let atom := if ty.isRef then .clone (.slot index) else .name (.slot index)
  pushOperand { slot := .deferred atom (some index), ty }

/-- Binds an operand to a new variable if it reads one of the locals in question. -/
def settleOperand (which : Nat → Bool) (op : Operand) : Build Operand :=
  match op.slot with
  | .deferred atom (some index) =>
    if which index then do
      let var ← newVar
      emit (.bind false var op.ty (.atom atom))
      return { op with slot := .bound var }
    else return op
  | _ => return op

/-- Binds the operands of a frame, bottom-most first. -/
def settleStack (which : Nat → Bool) : List Operand → Build (List Operand)
  | [] => return []
  | op :: below => do
    let below ← settleStack which below
    let op ← settleOperand which op
    return op :: below

/-- Binds the operands of frames, outermost first. -/
def settleFrames (which : Nat → Bool) : List Frame → Build (List Frame)
  | [] => return []
  | frame :: outer => do
    let outer ← settleFrames which outer
    let stack ← settleStack which frame.stack
    return { frame with stack } :: outer

/-- Binds every operand that reads one of the locals in question to a new variable, from the bottom
of the stack to its top. -/
def settle (which : Nat → Bool) : Build Unit := do
  let b ← get
  let enclosing ← settleFrames which b.enclosing
  let stack ← settleStack which b.current.stack
  modify fun b => { b with current := { b.current with stack }, enclosing }

/-- Binds every operand that reads a local, before code is entered that may run in between. -/
def settleLocals : Build Unit :=
  settle fun _ => true

/-- Takes off an operand and assigns it to a local.  Operands that read the old value are bound
first. -/
def setLocal (index : Nat) : Build Name := do
  let ty ← typeOfLocal index
  let value ← popAtom ty
  settle fun k => k == index
  emit (.assign [.slot index] [value])
  return .slot index

/-- Assigns the top operand to a local and leaves the value on the stack. -/
def teeLocal (index : Nat) : Build Unit := do
  let _ ← setLocal index
  getLocal index

/-! ### Branches -/

/-- Assigns values to variables, all at once; nothing if there are no variables. -/
def assignAll (vars : List Name) (values : List Atom) : Build Unit :=
  if vars.isEmpty then return () else emit (.assign vars values)

/-- Transfers control `levels` constructs outward and carries the values along: out of a function, to
the start of a loop, or to the end of anything else. -/
def branchOut (levels : Nat) (values : List Atom) : Build Unit := do
  let frame ← targetFrame levels
  if values.length = frame.branch.types.length then
    match frame.kind with
    | .function => emit (.returnOk values)
    | .loop =>
      assignAll frame.branch.vars values
      emit (.continueTo frame.label)
    | .block | .ifArm =>
      assignAll frame.branch.vars values
      emit (.breakTo frame.label)
  else throw (.typeMismatch (.labelArity frame.branch.types values.length))

end WasmAot.Lowering
