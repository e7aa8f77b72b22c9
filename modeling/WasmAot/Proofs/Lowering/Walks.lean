/-
# Walks through the frames

The operands lie in the stacks of the frames, and what is done with them is a walk: the frames are
entered one after the other, from the innermost one outward, and each is left when it has no more
operands to give.  Behind the frames lies one list (`Builder.operands`).  This file shows that every
walk is an operation on that list: one gives its length, one its first entries, and one takes these
off.  From here on proofs use the list, and the walks are not opened again.
-/
import WasmAot.Lowering.Builder
import WasmAot.Proofs.Stateful

namespace WasmAot.Lowering

open Stateful

/-- All operands, top first. -/
def Builder.operands (b : Builder) : List Operand :=
  b.frames.flatMap Frame.stack

/-- The frames without the top `n` operands. -/
def dropOperands : Nat → List Frame → List Frame
  | _, [] => []
  | n, frame :: outer =>
    { frame with stack := frame.stack.drop n } :: dropOperands (n - frame.stack.length) outer

/-- The builder after operands have been taken off. -/
def Builder.popped (b : Builder) (n : Nat) : Builder :=
  { b with
    current := { b.current with stack := b.current.stack.drop n }
    enclosing := dropOperands (n - b.current.stack.length) b.enclosing }

lemma dropOperands_zero (frames : List Frame) : dropOperands 0 frames = frames := by
  induction frames with
  | nil => rfl
  | cons frame outer ih => simp only [dropOperands, List.drop_zero, Nat.zero_sub, ih]

/-! ### Counting -/

lemma countOperands_eq (total : Nat) (frames : List Frame) :
    countOperands total frames = total + (frames.flatMap Frame.stack).length := by
  induction frames generalizing total with
  | nil => rfl
  | cons frame outer ih =>
    rw [countOperands, ih, List.flatMap_cons, List.length_append, Nat.add_assoc]

lemma checkAvailable_ok {b : Builder} {n : Nat} (h : n ≤ b.operands.length) :
    checkAvailable n b = .ok () b := by
  rw [checkAvailable, bind_run_ok (get_run b), countOperands_eq, Nat.zero_add]
  exact congrFun (if_neg (Nat.not_lt.2 h)) b

lemma checkAvailable_underflow {b : Builder} {n : Nat} (h : b.operands.length < n) :
    checkAvailable n b = .error (.stackUnderflow n b.operands.length) b := by
  rw [checkAvailable, bind_run_ok (get_run b), countOperands_eq, Nat.zero_add]
  exact congrFun (if_pos h) b

/-! ### Looking -/

section

variable {n : Nat} {seen : List Operand}

/-- The operands of one frame are looked at as long as some are missing. -/
lemma seeStack_eq (h : seen.length ≤ n) (stack : List Operand) :
    seeStack n seen stack = (stack.take (n - seen.length)).reverse ++ seen := by
  induction stack generalizing seen with
  | nil => rw [seeStack, List.take_nil, List.reverse_nil, List.nil_append]
  | cons op below ih =>
    rw [seeStack]
    split
    case isTrue hall => rw [hall, Nat.sub_self, List.take_zero, List.reverse_nil, List.nil_append]
    case isFalse hmore =>
      have hleft : n - seen.length = n - (op :: seen).length + 1 := by
        rw [List.length_cons]
        omega
      rw [ih (by rw [List.length_cons]; omega), hleft, List.take_succ_cons, List.reverse_cons,
        List.append_assoc, List.singleton_append]

lemma seeFrames_eq (h : seen.length ≤ n) (frames : List Frame) :
    seeFrames n seen frames =
      ((frames.flatMap Frame.stack).take (n - seen.length)).reverse ++ seen := by
  induction frames generalizing seen with
  | nil => rw [seeFrames, List.flatMap_nil, List.take_nil, List.reverse_nil, List.nil_append]
  | cons frame outer ih =>
    have hlength : (seeStack n seen frame.stack).length =
        min (n - seen.length) frame.stack.length + seen.length := by
      rw [seeStack_eq h, List.length_append, List.length_reverse, List.length_take]
    simp only [seeFrames, List.flatMap_cons, List.take_append, List.reverse_append,
      List.append_assoc, ← seeStack_eq h]
    split
    case isTrue hall =>
      -- nothing is missing behind this frame
      have hnone : n - seen.length - frame.stack.length = 0 := by omega
      rw [hnone, List.take_zero, List.reverse_nil, List.nil_append]
    case isFalse hmore =>
      have hleft : n - (seeStack n seen frame.stack).length =
          n - seen.length - frame.stack.length := by omega
      rw [ih (by omega), hleft]

end

/-- A look at the top operands is a look at the beginning of the list. -/
lemma peekOperands_eq (n : Nat) : peekOperands n = (do
    let ops := (← get).operands
    if n ≤ ops.length then return (ops.take n).reverse
    else throw (.stackUnderflow n ops.length) : Build (List Operand)) := by
  funext b
  rw [peekOperands, bind_run_ok (get_run b)]
  by_cases h : n ≤ b.operands.length
  · rw [bind_run_ok (checkAvailable_ok h), bind_run_ok (get_run b), if_pos h,
      seeFrames_eq (Nat.zero_le n), List.append_nil]
    rfl
  · rw [bind_run_error (checkAvailable_underflow (Nat.not_le.1 h)), if_neg h]
    rfl

/-! ### Taking off -/

section

variable {n : Nat} {taken : List Operand}

lemma takeStack_eq (h : taken.length ≤ n) (stack : List Operand) :
    takeStack n taken stack =
      ((stack.take (n - taken.length)).reverse ++ taken, stack.drop (n - taken.length)) := by
  induction stack generalizing taken with
  | nil => rw [takeStack, List.take_nil, List.drop_nil, List.reverse_nil, List.nil_append]
  | cons op below ih =>
    rw [takeStack]
    split
    case isTrue hmore =>
      have hleft : n - taken.length = n - (op :: taken).length + 1 := by
        rw [List.length_cons]
        omega
      rw [ih (by rw [List.length_cons]; omega), hleft, List.take_succ_cons, List.drop_succ_cons,
        List.reverse_cons, List.append_assoc, List.singleton_append]
    case isFalse hall =>
      have hnone : n - taken.length = 0 := by omega
      rw [hnone, List.take_zero, List.drop_zero, List.reverse_nil, List.nil_append]

/-- The walk takes the first operands of the list, and leaves the frames without them. -/
lemma takeFrom_eq (h : taken.length ≤ n) (frame : Frame) (outer : List Frame) :
    takeFrom n taken frame outer =
      ((((frame :: outer).flatMap Frame.stack).take (n - taken.length)).reverse ++ taken,
        { frame with stack := frame.stack.drop (n - taken.length) },
        dropOperands (n - taken.length - frame.stack.length) outer) := by
  induction outer generalizing taken frame with
  | nil =>
    rw [takeFrom, takeStack_eq h, List.flatMap_singleton]
    rfl
  | cons parent outer ih =>
    have hlength : ((frame.stack.take (n - taken.length)).reverse ++ taken).length =
        min (n - taken.length) frame.stack.length + taken.length := by
      rw [List.length_append, List.length_reverse, List.length_take]
    rw [takeFrom, takeStack_eq h, List.flatMap_cons, List.take_append, List.reverse_append,
      List.append_assoc]
    dsimp only
    split
    case isTrue hmore =>
      have hleft : n - ((frame.stack.take (n - taken.length)).reverse ++ taken).length =
          n - taken.length - frame.stack.length := by omega
      rw [ih (Nat.le_of_lt hmore), hleft]
      rfl
    case isFalse hall =>
      -- the frame had enough operands, and those around it keep theirs
      have hnone : n - taken.length - frame.stack.length = 0 := by omega
      rw [hnone, List.take_zero, List.reverse_nil, List.nil_append, dropOperands_zero]

end

/-- What is taken off is what a look would have shown. -/
lemma pop_eq (n : Nat) : pop n = (do
    let ops ← peekOperands n
    modify fun b => b.popped n
    return ops : Build (List Operand)) := by
  funext b
  rw [pop, peekOperands_eq]
  by_cases h : n ≤ b.operands.length
  · rw [bind_run_ok (checkAvailable_ok h), bind_run_ok (get_run b), takeFrom_eq (Nat.zero_le n)]
    simp only [bind_run, get_run, set_run, modify_run, pure_run, if_pos h, List.append_nil]
    rfl
  · rw [bind_run_error (checkAvailable_underflow (Nat.not_le.1 h))]
    simp only [bind_run, get_run, throw_run, if_neg h]

end WasmAot.Lowering
