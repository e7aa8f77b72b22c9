/-
# Emitted copies of table slots

Two tables of a module can be one object, which is only known when the code runs.  So a copy between
tables of different indices is lowered to a choice: a copy inside of the table if they are one object,
and otherwise a copy from the one to the other, which could not borrow one object twice.  Whichever
is taken, the slots are copied as from a snapshot of the source.
-/
import WasmAot.Proofs.Host.Tables
import WasmAot.Proofs.Semantics.Objects
import WasmAot.Proofs.Simulation.Relation

namespace WasmAot.Lowering

open Code Host Semantics Stateful

/-! ### The lines -/

section Lines

variable {source : Module} {b : Builder} {len src dst : Operand} {rest : List Operand}

lemma popThree_run (hstack : b.current.stack = len :: src :: dst :: rest) (hlen : len.ty = .i32)
    (hsrc : src.ty = .i32) (hdst : dst.ty = .i32) :
    popThree b = .ok (dst.atom, src.atom, len.atom) (b.withStack rest) := by
  rw [popThree, bind_run_ok (popAtom_run hstack hlen),
    bind_run_ok (popAtom_run (b := b.withStack (src :: dst :: rest)) rfl hsrc),
    bind_run_ok (popAtom_run (b := (b.withStack (src :: dst :: rest)).withStack (dst :: rest)) rfl
      hdst)]
  rfl

/-- What a copy of table slots is lowered to. -/
def tableCopyLines (dstTable srcTable : Nat) (dst src len : Atom) : List Line :=
  if dstTable = srcTable then [.perform (.tableCopyWithin dstTable src dst len)]
  else
    [Line.openIfSame srcTable dstTable] ++ [Line.perform (.tableCopyWithin dstTable src dst len)] ++
      [Line.openElse] ++ [Line.perform (.tableCopy srcTable dstTable src dst len)] ++ [Line.close]

lemma lowerTableCopy_run {dstTable srcTable : Nat}
    (hdstTable : source.requireFuncTable dstTable = .ok ())
    (hsrcTable : source.requireFuncTable srcTable = .ok ())
    (hstack : b.current.stack = len :: src :: dst :: rest) (hlen : len.ty = .i32)
    (hsrc : src.ty = .i32) (hdst : dst.ty = .i32) :
    lowerTableCopy source dstTable srcTable b = .ok () ((b.withStack rest).wrote 0
      (tableCopyLines dstTable srcTable dst.atom src.atom len.atom)) := by
  rw [lowerTableCopy, bind_run_ok (require_run hdstTable), bind_run_ok (require_run hsrcTable),
    bind_run_ok (popThree_run hstack hlen hsrc hdst), tableCopyLines]
  by_cases hsame : dstTable = srcTable
  · simp only [if_pos hsame]
    exact emit_run _
  · simp only [if_neg hsame]
    rw [bind_run_ok (emit_run _), bind_run_ok (emit_run _), bind_run_ok (emit_run _),
      bind_run_ok (emit_run _), emit_run]
    simp only [Builder.wrote_wrote, Nat.add_zero, List.append_assoc]

end Lines

/-! ### What the lines do -/

/-- Where control is after a call that changes a table of the store. -/
def afterCall (s : Store) (a : Address) (env : Env) : EStateM.Result Trap Table Unit → Executed
  | .ok _ t => .next env { s with tables := s.tables.setIfInBounds a t }
  | .error trap t => .trapped trap { s with tables := s.tables.setIfInBounds a t }

section Execution

variable {links : Links} {s : Store} {env : Env}

/-- An operation that changes a table is a call on it. -/
lemma execIn_of_changeTable {effect : Effect} {call : Table.Call} {a : Address} {target : Table}
    (htarget : s.tables[a]? = some target)
    (heffect : effect.performIn links env s = changeTable s a call.perform) :
    (Line.perform effect).execIn links env s = afterCall s a env (call.perform target) := by
  simp only [Line.execIn, heffect, changeTable, htarget, Option.map_some]
  cases call.perform target <;> rfl

lemma within_afterCall (a : Address) (result : EStateM.Result Trap Table Unit) :
    (afterCall s a env result).within env = afterCall s a env result := by
  cases result with
  | ok _ t => rw [afterCall, Executed.within, Env.leave_self]
  | error trap t => rfl

variable {dstTable srcTable : Nat} {dst src len : Atom} {dstAt srcAt count : BitVec 32}
  {target origin : Table}

/-- The lines copy as from a snapshot of the source, also if it is the table that they change. -/
lemma execLinesIn_tableCopyLines (hdst : dst.eval env = some (.i32 dstAt))
    (hsrc : src.eval env = some (.i32 srcAt)) (hlen : len.eval env = some (.i32 count))
    (htarget : s.tables[links.table dstTable]? = some target)
    (horigin : s.tables[links.table srcTable]? = some origin) :
    execLinesIn links (tableCopyLines dstTable srcTable dst src len) env s =
      afterCall s (links.table dstTable) env
        ((Table.Call.copyFrom origin srcAt.toNat dstAt.toNat count.toNat).perform target) := by
  -- inside of one table the snapshot is the table itself
  have hwithin (h : links.table srcTable = links.table dstTable) :
      (Line.perform (.tableCopyWithin dstTable src dst len)).execIn links env s =
        afterCall s (links.table dstTable) env
          ((Table.Call.copyFrom origin srcAt.toNat dstAt.toNat count.toNat).perform target) := by
    obtain rfl : target = origin := by
      rw [h, htarget] at horigin
      exact Option.some.inj horigin
    have hmove : (Effect.tableCopyWithin dstTable src dst len).performIn links env s =
        changeTable s (links.table dstTable)
          (Table.Call.move srcAt.toNat dstAt.toNat count.toNat).perform := by
      simp only [Effect.performIn, word_of_eval hdst, word_of_eval hsrc, word_of_eval hlen]
      rfl
    rw [execIn_of_changeTable htarget hmove, Table.perform_move]
  rw [tableCopyLines]
  by_cases hindex : dstTable = srcTable
  · rw [if_pos hindex, execLinesIn_of_parses (.leaf rfl), execAllIn_singleton, execTreeIn]
    exact hwithin (by rw [hindex])
  · rw [if_neg hindex, execLinesIn_of_parses (.twoArms (.leaf rfl) (.leaf rfl) rfl),
      execAllIn_singleton, execTreeIn]
    simp only [execAllIn_singleton, execTreeIn]
    -- two indices may still stand for one table
    by_cases hsame : links.table srcTable = links.table dstTable
    · rw [if_pos hsame, hwithin hsame, within_afterCall]
    · rw [if_neg hsame, execIn_of_changeTable htarget, within_afterCall]
      simp only [Effect.performIn, word_of_eval hdst, word_of_eval hsrc, word_of_eval hlen,
        Option.bind_eq_bind, Option.bind_some, if_neg hsame, horigin]
      rfl

end Execution

/-- Bulk operations on tables do all that they are asked for or trap and change nothing, and a copy
inside of a table is a copy from a snapshot of it.  A copy instruction is lowered to lines that copy
from a snapshot of the source, whether or not its two tables are one object. -/
theorem bulkTables_allOrNothing :
    (∀ (t : Table) (call : Table.Call), t.AllOrNothing call) ∧
    (∀ (t : Table) (src dst n : Nat),
      (Table.Call.move src dst n).perform t = (Table.Call.copyFrom t src dst n).perform t) ∧
    ∀ (source : Module) (b : Builder) (dstTable srcTable : Nat) (len src dst : Operand)
      (rest : List Operand), source.requireFuncTable dstTable = .ok () →
      source.requireFuncTable srcTable = .ok () → b.current.stack = len :: src :: dst :: rest →
      len.ty = .i32 → src.ty = .i32 → dst.ty = .i32 →
      ∃ b' lines, lowerInstr source (.tableCopy dstTable srcTable) b = .ok () b' ∧
        b'.out = b.out ++ lines.toArray ∧ b'.current.stack = rest ∧
        ∀ (links : Links) (s : Store) (env : Env) (count srcAt dstAt : BitVec 32)
          (target origin : Table), Denotes env len (.i32 count) → Denotes env src (.i32 srcAt) →
          Denotes env dst (.i32 dstAt) → s.tables[links.table dstTable]? = some target →
          s.tables[links.table srcTable]? = some origin →
          execLinesIn links lines env s = afterCall s (links.table dstTable) env
            ((Table.Call.copyFrom origin srcAt.toNat dstAt.toNat count.toNat).perform target) := by
  refine ⟨Table.allOrNothing, Table.perform_move, ?_⟩
  intro source b dstTable srcTable len src dst rest hdstTable hsrcTable hstack hlen hsrc hdst
  refine ⟨_, tableCopyLines dstTable srcTable dst.atom src.atom len.atom,
    lowerTableCopy_run hdstTable hsrcTable hstack hlen hsrc hdst, rfl, rfl, ?_⟩
  intro links s env count srcAt dstAt target origin hcount hsrcAt hdstAt htarget horigin
  exact execLinesIn_tableCopyLines hdstAt.eval hsrcAt.eval hcount.eval htarget horigin

/-- A module that imports two tables. -/
def twoTables : Module :=
  { imports := [⟨"host", "first", .table ⟨.funcref, ⟨3, none⟩⟩⟩,
      ⟨"host", "second", .table ⟨.funcref, ⟨3, none⟩⟩⟩] }

/-- The operand of a constant. -/
def constant (x : BitVec 32) : Operand :=
  ⟨.deferred (.i32 x) none, .i32⟩

/-- Both imports lead to one table, and the two ranges overlap; and no offset is so large that a range
from there would fit again. -/
theorem bulkTables_allOrNothing_shared :
    (∃ trap t', (Table.Call.fill 2 none (2 ^ 32 - 1)).perform ⟨#[some 7, some 8, some 9], none⟩ =
      .error trap t') ∧
    ∃ b' lines, lowerInstr twoTables (.tableCopy 1 0)
        ((Builder.start [] [] #[]).withStack [constant 2, constant 0, constant 1]) = .ok () b' ∧
      b'.out = #[] ++ lines.toArray ∧ b'.current.stack = [] ∧
      ∀ env, execLinesIn ⟨fun _ => 0, fun _ => 0⟩ lines env
          { tables := #[⟨#[some 7, some 8, some 9], none⟩] } =
        .next env { tables := #[⟨#[some 7, some 7, some 8], none⟩] } := by
  refine ⟨(bulkTables_allOrNothing.1 _ _).traps_iff.2 fun h => absurd h.2 (by decide), ?_⟩
  obtain ⟨b', lines, hlower, hout, hstack, hexec⟩ := bulkTables_allOrNothing.2.2 twoTables
    ((Builder.start [] [] #[]).withStack [constant 2, constant 0, constant 1]) 1 0 (constant 2)
    (constant 0) (constant 1) [] rfl rfl rfl rfl rfl rfl
  refine ⟨b', lines, hlower, hout, hstack, fun env => ?_⟩
  exact hexec ⟨fun _ => 0, fun _ => 0⟩ { tables := #[⟨#[some 7, some 8, some 9], none⟩] } env 2 0 1
    _ _ (denotes_constant env 2) (denotes_constant env 0) (denotes_constant env 1) rfl rfl

end WasmAot.Lowering
