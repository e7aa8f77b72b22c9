/-
# Methods

Every function of a module becomes a method of the emitted struct, numbered by its place in the index
space of functions.  Its locals are variables: the parameters of the method, then one variable for
each declared local, zero at first.
-/
import WasmAot.Lowering.Body

namespace WasmAot.Lowering

open Code

/-- A method for a function of the module. -/
structure Method where
  /-- the index of the function -/
  index : Nat
  type : FuncType
  body : List Line
  deriving DecidableEq

/-- The lints that are silenced on every method: code from a stack machine binds more than it uses,
and ends in places that are never reached. -/
def methodLints : String :=
  "#[allow(unused_mut, unused_variables, unused_assignments, unused_parens, " ++
    "unreachable_code, unused_labels, dead_code, clippy::all)]"

/-- The parameters of a function after the receiver, with something in front of each name. -/
def paramList (before : String) (params : List ValType) : String :=
  String.join (params.zipIdx.map fun p =>
    s!", {before}{(Name.slot p.2).text}: {p.1.variableType}")

/-- The method as lines. -/
def Method.layout (f : Method) : List Text.Line :=
  let params := paramList "mut " f.type.params
  let head := s!"fn fn_{f.index}(&self{params}) -> {returnType f.type.results} \x7b"
  [.plain methodLints, .opening head] ++ f.body.map Line.layout ++ [.closing "\x7d"]

/-- The declarations of the locals beyond the parameters. -/
def declareLocals (first : Nat) (locals : List ValType) : List Line :=
  (locals.zipIdx first).map fun p => .bind true (.slot p.2) p.1 (.zero p.1)

/-- The method for one of the module's own functions, by its position among them. -/
def lowerFunction (m : Module) (position : Nat) : Except Error Method :=
  match m.functions[position]? with
  | none => outOfRange .localFunc position
  | some func => do
    let type ← m.typeAt func.type
    let declared := declareLocals type.params.length func.locals
    let start := Builder.start (type.params ++ func.locals) type.results declared.toArray
    let build : Build Unit := do
      lowerBody m func.body
      endFunction
    match build start with
    | .ok _ b =>
      .ok { index := m.importCount .func + position, type, body := b.out.toList }
    | .error e _ => .error e

/-- The text of a method, one level deep. -/
def Method.text (f : Method) : String :=
  Text.print 1 f.layout

end WasmAot.Lowering
