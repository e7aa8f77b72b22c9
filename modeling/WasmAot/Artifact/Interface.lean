/-
# The interface of the emitted struct

Other modules reach the instance through handles to its functions, through one public method for each
export, and through lookups by the names of its exports.
-/
import WasmAot.Artifact.Construction
import WasmAot.Lowering.Method

namespace WasmAot.Artifact

open Code

/-! ### Handles -/

/-- The method that makes a first-class reference to a function of the module. -/
structure Handle where
  func : Nat
  /-- the index of the function's type -/
  typeIndex : Nat
  type : FuncType
  deriving DecidableEq

/-- The lines that call the function and wrap what it gives. -/
def wrapResults (call : String) (results : List ValType) : List String :=
  match results with
  | [] => [s!"{call}?;", "Ok(vec![])"]
  | [ty] => [s!"Ok(vec![{ty.wrapper}({call}?)])"]
  | _ =>
    let names := (List.range results.length).map fun n => s!"r{n}"
    let values := results.zipWith (fun ty name => s!"{ty.wrapper}({name})") names
    [s!"let ({Text.commaSep names}) = {call}?;", s!"Ok(vec![{Text.commaSep values}])"]

/-- The handle as lines. -/
def Handle.layout (h : Handle) : List Text.Line :=
  let args := h.type.params.zipIdx.map fun p => s!"args[{p.2}].{p.1.accessor}()?"
  let call := s!"this.fn_{h.func}({Text.commaSep args})"
  let argsName := if h.type.params.isEmpty then "_args" else "args"
  [.blank,
    .plain "#[allow(dead_code)]",
    .opening s!"fn ref_fn_{h.func}(&self) -> FuncRef \x7b",
    .plain "let me = self.me.clone();",
    .opening s!"FuncRef::new(&TYPE_{h.typeIndex}, move |{argsName}: &[Value]| \x7b",
    .plain "let this = me.upgrade().ok_or(WasmTrap::InstanceDropped)?;"] ++
    (wrapResults call h.type.results).map .plain ++ [.closing "\x7d)", .closing "\x7d"]

/-- The handles to the functions of the module. -/
def Plan.handles (p : Plan) : Except Error (List Handle) :=
  (p.source.functions.zipIdx (p.source.importCount .func)).mapM fun f => do
    .ok { func := f.2, typeIndex := f.1.type, type := ← p.source.typeAt f.1.type }

/-! ### Public methods -/

/-- What the method for an export does. -/
inductive EntryBody where
  /-- calls a function of the module -/
  | call (func : Nat) (type : FuncType)
  /-- passes dynamically typed arguments on to an imported function -/
  | forward (func : Nat)
  /-- shares a memory, a table or a global -/
  | share (field : Field)
  deriving DecidableEq

/-- The method for an export. -/
structure Entry where
  /-- the name of the export -/
  name : String
  method : String
  body : EntryBody
  deriving DecidableEq

/-- What stands between the name of the method and its brace, and the line behind the brace. -/
def EntryBody.texts : EntryBody → String × String
  | call func type =>
    let params := Lowering.paramList "" type.params
    let args := (List.range type.params.length).map fun n => (Name.slot n).text
    (s!"(&self{params}) -> {returnType type.results}",
      s!"self.fn_{func}({Text.commaSep args})")
  | forward func =>
    ("(&self, args: &[Value]) -> WasmResult<Vec<Value>>", s!"{(Field.func func).onSelf}.call(args)")
  | share field => (s!"(&self) -> {field.type}", s!"{field.onSelf}.clone()")

/-- The method as lines. -/
def Entry.layout (e : Entry) : List Text.Line :=
  let (head, line) := e.body.texts
  [.blank,
    .plain s!"/// Export `{Text.citedName e.name}`.",
    .opening s!"pub fn {e.method}{head} \x7b",
    .plain line,
    .closing "\x7d"]

/-- What the method for an export does, from its kind and index. -/
def entryBody (m : Module) (kind : ExternKind) (index : Nat) : Except Error EntryBody :=
  match kind with
  | .func => do
    match ← m.funcAt index with
    | .defined .. => .ok (.call index (← m.typeOfFunc index))
    | .imported .. => .ok (.forward index)
  | kind => .ok (.share (itemField kind index))

/-- The methods for the exports. -/
def Plan.entries (p : Plan) : Except Error (List Entry) :=
  p.exports.mapM fun e => do
    .ok { name := e.name, method := e.method, body := ← entryBody p.source e.kind e.index }

/-! ### Lookups -/

/-- What a lookup finds. -/
inductive Found where
  /-- a new handle to a function of the module -/
  | handle (func : Nat)
  /-- the contents of a field -/
  | field (f : Field)
  deriving DecidableEq

/-- What is found, as written. -/
def Found.text : Found → String
  | handle func => s!"self.ref_fn_{func}()"
  | field f => s!"{f.onSelf}.clone()"

/-- The lookup of the exports of one kind by name. -/
structure Lookup where
  kind : ExternKind
  /-- the names of the exports, in order, and what is found under each -/
  arms : List (String × Found)
  deriving DecidableEq

/-- The lookup as lines. -/
def Lookup.layout (l : Lookup) : List Text.Line :=
  let type := (itemField l.kind 0).type
  let head (name : String) : Text.Line :=
    .opening s!"fn {l.kind.word}(&self, {name}: &str) -> Option<{type}> \x7b"
  if l.arms.isEmpty then [head "_name", .plain "None", .closing "\x7d"]
  else
    [head "name", .opening "match name \x7b"] ++
      l.arms.map (fun a => .plain s!"{Text.stringLiteral a.1} => Some({a.2.text}),") ++
      [.plain "_ => None,", .closing "\x7d", .closing "\x7d"]

/-- What is found under the name of an export. -/
def found (m : Module) (kind : ExternKind) (index : Nat) : Found :=
  match kind with
  | .func =>
    match m.funcAt index with
    | .ok (.imported ..) => .field (.func index)
    | _ => .handle index
  | kind => .field (itemField kind index)

/-- The four lookups, in order. -/
def Plan.lookups (p : Plan) : List Lookup :=
  [ExternKind.func, .memory, .table, .global].map fun kind =>
    { kind, arms := (p.exports.filter fun e => e.kind = kind).map fun e =>
        (e.name, found p.source e.kind e.index) }

/-- The lookups as lines, with empty lines between them. -/
def lookupsLayout (ls : List Lookup) : List Text.Line :=
  [.opening "impl Instance for Module \x7b"] ++
    ((ls.map Lookup.layout).intersperse [.blank]).flatten ++ [.closing "\x7d"]

end WasmAot.Artifact
