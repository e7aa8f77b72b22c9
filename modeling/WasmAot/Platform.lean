/-
# What is taken from outside

The program leaves two tasks to libraries: names are put into snake case, and modules in text form
are assembled.  What a counter does beyond its largest number is settled when the program is built.
None of the three is part of the program, which is defined for all of them.
-/

namespace WasmAot

/-- What becomes of a counter beyond its largest number. -/
inductive Overflow where
  /-- the program stops -/
  | stops
  /-- the counter goes on with its smallest number -/
  | wraps
  deriving DecidableEq

/-- The libraries of the program, and the way in which it is built. -/
structure Platform where
  /-- puts a name into snake case -/
  snakeCase : String → String
  /-- the binary format of a module in text form, or what is wrong with the text -/
  assemble : List UInt8 → Except String (List UInt8)
  overflow : Overflow

end WasmAot
