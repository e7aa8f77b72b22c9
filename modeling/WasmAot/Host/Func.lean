/-
# Functions as values

A function that is called through a reference checks its arguments and its results against its
signature, since its caller knows neither.
-/
import WasmAot.Host.Value
import WasmAot.Module.Basic

namespace WasmAot.Host

/-- A function with its signature. -/
structure Func where
  signature : FuncType
  /-- what it does with arguments of the right types -/
  body : List Value → Except Trap (List Value)

namespace Func

/-- Fails unless the values have the types. -/
def checkTypes (values : List Value) (types : List ValType) : Except Trap Unit :=
  if values.map Value.type = types then .ok () else .error .valueTypeMismatch

/-- Calls the function. -/
def call (f : Func) (args : List Value) : Except Trap (List Value) := do
  checkTypes args f.signature.params
  let results ← f.body args
  checkTypes results f.signature.results
  .ok results

/-- Fails unless the function has exactly this signature. -/
def requireSignature (f : Func) (expected : FuncType) : Except Trap Unit :=
  if f.signature = expected then .ok () else .error .indirectCallTypeMismatch

/-- The types of a signature in a description. -/
def describeTypes (types : List ValType) : String :=
  "[" ++ Text.commaSep (types.map ValType.variantName) ++ "]"

/-- The function in a description: its signature and nothing else. -/
def describe (f : Func) : String :=
  let params := describeTypes f.signature.params
  let results := describeTypes f.signature.results
  s!"FuncRef \x7b signature: Signature \x7b params: {params}, results: {results} \x7d, .. \x7d"

end Func

end WasmAot.Host
