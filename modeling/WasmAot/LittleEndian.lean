/-
# Little-endian numbers

A number as bytes, the low byte first: the form of float constants in the binary format and of every
value in linear memory.
-/

namespace WasmAot.LittleEndian

/-- The number that the bytes stand for. -/
def decode : List UInt8 → Nat
  | [] => 0
  | b :: rest => b.toNat + 256 * decode rest

/-- The low bytes of a number, as many as asked for. -/
def encode : Nat → Nat → List UInt8
  | 0, _ => []
  | width + 1, n => UInt8.ofNat (n % 256) :: encode width (n / 256)

@[simp]
theorem length_encode (width n : Nat) : (encode width n).length = width := by
  induction width generalizing n with
  | zero => rfl
  | succ width ih => simp [encode, ih]

end WasmAot.LittleEndian
