/-
# The program as it is released

Snake case is that of `Text.snakeCase`, and counters wrap.  There is no assembler: a module in text
form is refused.
-/
import WasmAot.Platform
import WasmAot.Text.SnakeCase

namespace WasmAot

/-- What the released program takes from outside. -/
def Platform.release : Platform where
  snakeCase name := String.ofList (Text.snakeCase name.toList)
  assemble _ := .error "modules in text form are not supported"
  overflow := .wraps

end WasmAot
