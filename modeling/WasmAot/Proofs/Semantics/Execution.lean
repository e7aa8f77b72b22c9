/-
# Execution of emitted lines

What the emitted code does.  A body is a list of lines; read by its braces it is a list of trees,
and execution follows the trees.  The variables in scope are an environment: a `let` adds one that
was not there before, an assignment reads all values and then changes variables that are there, and
at the end of a scope its own variables are gone.  A labelled loop is repeated when its end is
reached or when it is continued, with the number of rounds limited by `fuel`.

Only what the integer part of the instructions is lowered to has a meaning here.  Other lines are
stuck, and so is code that would not compile: a variable that is not in scope or is bound twice, a
value of another type than a `let` declares, a body that falls off its end.
-/
import WasmAot.Lowering.Method
import WasmAot.Proofs.Semantics.Evaluation

namespace WasmAot.Code

open Host Semantics

/-! ### Expressions -/

/-- The variables in scope and their values. -/
abbrev Env := Name → Option Value

namespace Env

/-- The environment with a value for a variable. -/
def set (env : Env) (x : Name) (v : Value) : Env :=
  fun y => if y = x then some v else env y

/-- The environment with values for variables, from left to right. -/
def setAll : Env → List Name → List Value → Env
  | env, x :: xs, v :: vs => (env.set x v).setAll xs vs
  | env, _, _ => env

/-- What is left of the inner environment at the end of a scope that was entered from the outer one.
-/
def leave (outer inner : Env) : Env :=
  fun x => if (outer x).isSome then inner x else none

/-- The environment of a method when it is called. -/
def ofArgs (args : List Value) : Env
  | .slot index => args[index]?
  | _ => none

end Env

/-- The value of an atom. -/
def Atom.eval (env : Env) : Atom → Option Value
  | name x | clone x => env x
  | i32 value => some (.i32 value)
  | i64 value => some (.i64 value)
  | f32 bits => some (.f32 bits)
  | f64 bits => some (.f64 bits)
  | given _ => none

/-- The values of atoms. -/
def evalAtoms (env : Env) : List Atom → Option (List Value)
  | [] => some []
  | a :: as => do
    let v ← a.eval env
    let vs ← evalAtoms env as
    return v :: vs

/-- The value of an expression, or the trap that it ends in. -/
def Expr.eval (env : Env) : Expr → Option (Except Trap Value)
  | .atom a => (a.eval env).map .ok
  | .zero ty => some (.ok (.zero ty))
  | .compare ty op a b => do
    let v ← a.eval env
    let v' ← b.eval env
    (compareValues ty op v v').map .ok
  | .unary ty op a => do
    let v ← a.eval env
    (unaryValue ty op v).map .ok
  | .binary ty op a b => do
    let v ← a.eval env
    let v' ← b.eval env
    binaryValues ty op v v'
  | .select cond a b =>
    match cond.eval env with
    | some (.i32 c) => ((if c = 0 then b else a).eval env).map .ok
    | _ => none
  | _ => none

/-! ### Lines -/

/-- Where control is after some lines. -/
inductive Control where
  /-- at the next line -/
  | next (env : Env)
  /-- on the way out of a labelled construct -/
  | breakTo (label : Label) (env : Env)
  /-- on the way to the start of a labelled loop -/
  | continueTo (label : Label) (env : Env)
  | returned (values : List Value)
  | trapped (trap : Trap)
  | outOfFuel
  | stuck

namespace Control

/-- Goes on from the next line. -/
def andThen (control : Control) (k : Env → Control) : Control :=
  match control with
  | next env => k env
  | control => control

/-- Leaves a scope that was entered from an environment. -/
def within (outer : Env) : Control → Control
  | next env => next (outer.leave env)
  | breakTo label env => breakTo label (outer.leave env)
  | continueTo label env => continueTo label (outer.leave env)
  | control => control

/-- Leaves a labelled block. -/
def leaveBlock (label : Label) (outer : Env) (control : Control) : Control :=
  match control.within outer with
  | breakTo target env => if target = label then next env else breakTo target env
  | continueTo target env => if target = label then stuck else continueTo target env
  | control => control

/-- How the run of a method ends when control is there at the end of its body. -/
def run : Control → Run
  | returned values => .ended (.returned values)
  | trapped t => .ended (.trapped t)
  | outOfFuel => .outOfFuel
  | next _ | breakTo .. | continueTo .. | stuck => .stuck

end Control

/-- Executes a line that opens or closes nothing. -/
def Line.exec (env : Env) : Line → Control
  | .bind _ x ty e =>
    if (env x).isSome then .stuck
    else
      match e.eval env with
      | some (.ok v) => if v.type = ty then .next (env.set x v) else .stuck
      | some (.error t) => .trapped t
      | none => .stuck
  | .assign xs values =>
    match evalAtoms env values with
    | some vs =>
      if xs.length = vs.length ∧ ∀ x ∈ xs, (env x).isSome then .next (env.setAll xs vs) else .stuck
    | none => .stuck
  | .breakTo label => .breakTo label env
  | .continueTo label => .continueTo label env
  | .returnOk values =>
    match evalAtoms env values with
    | some vs => .returned vs
    | none => .stuck
  | .returnTrap => .trapped .unreachable
  | _ => .stuck

/-! ### Trees -/

/-- A line, or the lines inside of braces with the line that opens them. -/
inductive Tree where
  | leaf (line : Line)
  | scope (opener : Line) (body : List Tree)
  /-- two scopes with an `else` between them -/
  | twoArms (opener : Line) (first second : List Tree)

/-- Repeats the body of a labelled loop until it is left. -/
def execRounds (body : Env → Control) (label : Label) : Nat → Env → Control
  | 0, _ => .outOfFuel
  | n + 1, env =>
    match (body env).within env with
    | .next env => execRounds body label n env
    | .continueTo target env =>
      if target = label then execRounds body label n env else .continueTo target env
    | .breakTo target env => if target = label then .next env else .breakTo target env
    | control => control

mutual

/-- Executes a tree. -/
def execTree (fuel : Nat) : Tree → Env → Control
  | .leaf line => fun env => line.exec env
  | .scope opener body => fun env =>
    match opener with
    | .openBlock label => (execAll fuel body env).leaveBlock label env
    | .openLoop label => execRounds (fun env => execAll fuel body env) label fuel env
    | .openIf cond =>
      match cond.eval env with
      | some (.i32 c) => if c = 0 then .next env else (execAll fuel body env).within env
      | _ => .stuck
    | .openMatch selector =>
      match selector.eval env with
      | some (.i32 s) => (execArms fuel s.toNat body env).within env
      | _ => .stuck
    | _ => .stuck
  | .twoArms opener first second => fun env =>
    match opener with
    | .openIf cond =>
      match cond.eval env with
      | some (.i32 c) =>
        if c = 0 then (execAll fuel second env).within env else (execAll fuel first env).within env
      | _ => .stuck
    | _ => .stuck

/-- Executes trees one after the other. -/
def execAll (fuel : Nat) : List Tree → Env → Control
  | [] => fun env => .next env
  | tree :: rest => fun env => (execTree fuel tree env).andThen (execAll fuel rest)

/-- Executes the first arm for a number. -/
def execArms (fuel : Nat) (s : Nat) : List Tree → Env → Control
  | .scope opener body :: rest => fun env =>
    match opener with
    | .openCases cases => if s ∈ cases then execAll fuel body env else execArms fuel s rest env
    | .openOtherwise => execAll fuel body env
    | _ => .stuck
  | _ => fun _ => .stuck

end

/-! ### Reading lines by their braces -/

/-- The line opens a scope. -/
def Line.opens : Line → Bool
  | openBlock _ | openLoop _ | openIf _ | openIfSame .. | openMatch _ | openCases _
  | openOtherwise => true
  | _ => false

/-- The line neither opens nor closes a scope. -/
def Line.plain (line : Line) : Bool :=
  !line.opens && line ≠ .openElse && line ≠ .close

/-- The trees of a scope whose opening line has not been read yet, and those of its second arm. -/
structure Level where
  trees : List Tree
  second : Option (List Tree)

/-- The scope as a tree. -/
def Level.close (level : Level) (opener : Line) : Tree :=
  match level.second with
  | none => .scope opener level.trees
  | some second => .twoArms opener level.trees second

/-- Reads a line in front of what has been read; the levels are those around it, innermost first. -/
def readLine (line : Line) : List Level → Option (List Level)
  | [] => none
  | level :: outer =>
    match line with
    | .close => some (⟨[], none⟩ :: level :: outer)
    | .openElse =>
      match level.second with
      | none => some (⟨[], some level.trees⟩ :: outer)
      | some _ => none
    | line =>
      if line.opens then
        match outer with
        | [] => none
        | around :: outer => some (⟨level.close line :: around.trees, around.second⟩ :: outer)
      else some (⟨.leaf line :: level.trees, level.second⟩ :: outer)

/-- Reads lines from the last to the first. -/
def readLines : List Line → List Level → Option (List Level)
  | [], levels => some levels
  | line :: lines, levels => (readLines lines levels).bind (readLine line)

/-- The lines as trees, if their braces match. -/
def parse (lines : List Line) : Option (List Tree) :=
  match readLines lines [⟨[], none⟩] with
  | some [⟨trees, none⟩] => some trees
  | _ => none

/-- Runs a method on arguments. -/
def runMethod (method : Lowering.Method) (args : List Value) (fuel : Nat) : Run :=
  match parse method.body with
  | some trees => (execAll fuel trees (.ofArgs args)).run
  | none => .stuck

/-! ### Environments -/

namespace Env

variable {env outer : Env} {x y : Name} {v : Value}

lemma set_self : env.set x v x = some v := if_pos rfl

lemma set_of_ne (h : y ≠ x) : env.set x v y = env y := if_neg h

lemma leave_of_isSome (h : (outer x).isSome = true) : outer.leave env x = env x := if_pos h

lemma leave_of_none (h : outer x = none) : outer.leave env x = none := by
  rw [leave, h]
  rfl

lemma leave_self : env.leave env = env := by
  funext x
  unfold leave
  cases env x <;> rfl

lemma setAll_of_not_mem {xs : List Name} {vs : List Value} (h : y ∉ xs) :
    env.setAll xs vs y = env y := by
  induction xs generalizing env vs with
  | nil => cases vs <;> rfl
  | cons x xs ih =>
    cases vs with
    | nil => rfl
    | cons v vs =>
      rw [List.mem_cons, not_or] at h
      rw [setAll, ih h.2, set_of_ne h.1]

/-- Distinct variables have the values that they were given. -/
lemma map_setAll {xs : List Name} {vs : List Value} (hnodup : xs.Nodup)
    (hlen : xs.length = vs.length) : xs.map (env.setAll xs vs) = vs.map some := by
  induction xs generalizing env vs with
  | nil =>
    cases List.length_eq_zero_iff.1 hlen.symm
    rfl
  | cons x xs ih =>
    cases vs with
    | nil => cases hlen
    | cons v vs =>
      obtain ⟨hx, hxs⟩ := List.nodup_cons.1 hnodup
      rw [List.map_cons, List.map_cons, setAll, ih hxs (Nat.succ.inj hlen), setAll_of_not_mem hx,
        set_self]

end Env

lemma evalAtoms_of_forall₂ {env : Env} {atoms : List Atom} {values : List Value}
    (h : List.Forall₂ (fun a v => a.eval env = some v) atoms values) :
    evalAtoms env atoms = some values := by
  induction h with
  | nil => rfl
  | cons hhead _ ih =>
    rw [evalAtoms, hhead, ih]
    rfl

/-! ### Sequences -/

lemma execAll_append (fuel : Nat) (trees trees' : List Tree) (env : Env) :
    execAll fuel (trees ++ trees') env =
      (execAll fuel trees env).andThen (execAll fuel trees') := by
  induction trees generalizing env with
  | nil =>
    simp only [List.nil_append, execAll]
    rfl
  | cons tree trees ih =>
    simp only [List.cons_append, execAll]
    cases execTree fuel tree env with
    | next env => exact ih env
    | _ => rfl

lemma execAll_singleton (fuel : Nat) (tree : Tree) (env : Env) :
    execAll fuel [tree] env = execTree fuel tree env := by
  simp only [execAll]
  cases execTree fuel tree env <;> rfl

lemma execAll_next {fuel : Nat} {trees trees' : List Tree} {env env' : Env}
    (h : execAll fuel trees env = .next env') :
    execAll fuel (trees ++ trees') env = execAll fuel trees' env' := by
  rw [execAll_append, h]
  rfl

/-- Lines that open or close nothing, as trees. -/
def leaves (lines : List Line) : List Tree :=
  lines.map .leaf

lemma leaves_append (lines lines' : List Line) :
    leaves (lines ++ lines') = leaves lines ++ leaves lines' :=
  List.map_append

lemma execAll_leaf (fuel : Nat) (line : Line) (env : Env) :
    execAll fuel (leaves [line]) env = line.exec env := by
  rw [leaves, List.map_singleton, execAll_singleton, execTree]

/-! ### Lines of matching braces -/

/-- The lines read as these trees wherever they stand. -/
def Parses (lines : List Line) (trees : List Tree) : Prop :=
  ∀ (level : Level) (outer : List Level),
    readLines lines (level :: outer) = some (⟨trees ++ level.trees, level.second⟩ :: outer)

lemma readLines_append (lines lines' : List Line) (levels : List Level) :
    readLines (lines ++ lines') levels = (readLines lines' levels).bind (readLines lines) := by
  induction lines with
  | nil => cases h : readLines lines' levels <;> simp [h, readLines]
  | cons line lines ih =>
    rw [List.cons_append, readLines, ih]
    cases readLines lines' levels with
    | none => rfl
    | some levels => rfl

namespace Parses

variable {lines lines' : List Line} {trees trees' : List Tree} {line opener : Line}

lemma nil : Parses [] [] := fun _ _ => rfl

lemma append (h : Parses lines trees) (h' : Parses lines' trees') :
    Parses (lines ++ lines') (trees ++ trees') := by
  intro level outer
  rw [readLines_append, h', Option.bind_some, h, List.append_assoc]

lemma leaf (hplain : line.plain = true) : Parses [line] [.leaf line] := by
  intro level outer
  cases line <;> first | rfl | cases hplain

lemma ofLeaves (h : ∀ line ∈ lines, line.plain = true) : Parses lines (leaves lines) := by
  induction lines with
  | nil => exact .nil
  | cons line lines ih =>
    exact append (leaf (h line List.mem_cons_self))
      (ih fun l hl => h l (List.mem_cons_of_mem _ hl))

lemma readLine_opener (hopens : opener.opens = true) (level around : Level) (outer : List Level) :
    readLine opener (level :: around :: outer) =
      some (⟨level.close opener :: around.trees, around.second⟩ :: outer) := by
  cases opener <;> first | rfl | cases hopens

lemma scope (h : Parses lines trees) (hopens : opener.opens = true) :
    Parses ([opener] ++ lines ++ [Line.close]) [.scope opener trees] := by
  intro level outer
  rw [List.append_assoc, List.singleton_append, readLines, readLines_append]
  change ((readLines lines (⟨[], none⟩ :: level :: outer)).bind (readLine opener)) = _
  rw [h, Option.bind_some, readLine_opener hopens]
  simp only [Level.close, List.append_nil]
  rfl

lemma twoArms (h : Parses lines trees) (h' : Parses lines' trees') (hopens : opener.opens = true) :
    Parses ([opener] ++ lines ++ [Line.openElse] ++ lines' ++ [Line.close])
      [.twoArms opener trees trees'] := by
  intro level outer
  simp only [List.append_assoc]
  rw [List.singleton_append, readLines, readLines_append, List.singleton_append, readLines,
    readLines_append]
  change (((readLines lines' (⟨[], none⟩ :: level :: outer)).bind (readLine .openElse)).bind
    (readLines lines)).bind (readLine opener) = _
  rw [h', Option.bind_some]
  change ((readLines lines (⟨[], some (trees' ++ [])⟩ :: level :: outer)).bind (readLine opener)) = _
  rw [h, Option.bind_some, readLine_opener hopens]
  simp only [Level.close, List.append_nil]
  rfl

lemma parse_eq (h : Parses lines trees) : parse lines = some trees := by
  rw [parse, h, List.append_nil]

end Parses

end WasmAot.Code
