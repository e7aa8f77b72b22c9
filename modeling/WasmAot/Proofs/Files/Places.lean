/-
# Places on a disk

Where a path leads is known from its steps alone, if it leads anywhere: no step can be redirected.
So a path leads to the same place as long as it leads somewhere, and what is found there is changed by
a write to that place or a removal from it only (`ChangedAt`).
-/
import Mathlib.Data.Bool.Basic
import Mathlib.Tactic.Lemma
import Mathlib.Tactic.SplitIfs
import WasmAot.Files.Disk
import WasmAot.Proofs.Stateful

namespace WasmAot.Files

open Stateful

/-! ### Entries of a directory -/

section Lookup

variable {entries : List (String × Node)} {name k : String}

lemma lookup_mapEntry (f : Node → Node) :
    (entries.map fun e => if e.1 = name then (name, f e.2) else e).lookup k =
      if k = name then (entries.lookup name).map f else entries.lookup k := by
  induction entries with
  | nil => simp
  | cons e entries ih =>
    obtain ⟨key, n⟩ := e
    simp only [List.map_cons]
    grind

lemma lookup_dropEntry :
    (entries.filter fun e => e.1 != name).lookup k =
      if k = name then none else entries.lookup k := by
  induction entries with
  | nil => simp
  | cons e entries ih =>
    obtain ⟨key, n⟩ := e
    grind

end Lookup

namespace Node

/-- A directory without the entry of a name. -/
def erase (name : String) (now : Time) : Node → Node
  | file bytes t => file bytes t
  | dir entries _ => dir (entries.filter fun e => e.1 != name) now

/-- The same file, or directories both. -/
inductive Alike : Node → Node → Prop
  | file (bytes : List UInt8) (t : Time) : Alike (.file bytes t) (.file bytes t)
  | dir (entries entries' : List (String × Node)) (t t' : Time) :
      Alike (.dir entries t) (.dir entries' t')

lemma Alike.refl (n : Node) : n.Alike n := by
  cases n with
  | file bytes t => exact .file bytes t
  | dir entries t => exact .dir entries entries t t

/-- What is found somewhere after a change was put there by it, or was there before. -/
def ChangedAt (place : List String) (new : Option Node) (n n' : Node) : Prop :=
  ∀ names found, n'.find? names = some found →
    (names = place ∧ new = some found) ∨ ∃ old, n.find? names = some old ∧ old.Alike found

lemma ChangedAt.refl (place : List String) (new : Option Node) (n : Node) :
    ChangedAt place new n n :=
  fun _ found hfound => .inr ⟨found, hfound, .refl found⟩

/-- A directory stays one, so only what lies below it matters. -/
lemma changedAt_dir {place : List String} {new : Option Node}
    {entries entries' : List (String × Node)} {t t' : Time}
    (h : ∀ k rest found, (dir entries' t').find? (k :: rest) = some found →
      (k :: rest = place ∧ new = some found) ∨
        ∃ old, (dir entries t).find? (k :: rest) = some old ∧ old.Alike found) :
    ChangedAt place new (.dir entries t) (.dir entries' t') := by
  intro names found hfound
  cases names with
  | nil =>
    cases hfound
    exact .inr ⟨_, rfl, .dir _ _ _ _⟩
  | cons k rest => exact h k rest found hfound

lemma insert_dir (name : String) (n : Node) (now t : Time) (entries : List (String × Node)) :
    ∃ entries', insert name n now (.dir entries t) = .dir entries' now ∧
      ∀ k, entries'.lookup k = if k = name then some n else entries.lookup k := by
  rw [insert]
  by_cases hthere : (entries.lookup name).isSome = true
  · refine ⟨_, if_pos hthere, fun k => ?_⟩
    obtain ⟨old, hold⟩ := Option.isSome_iff_exists.1 hthere
    rw [lookup_mapEntry fun _ => n, hold, Option.map_some]
  · refine ⟨_, if_neg hthere, fun k => ?_⟩
    rw [Bool.not_eq_true, Option.isSome_eq_false_iff, Option.isNone_iff_eq_none] at hthere
    rw [List.lookup_append]
    grind

lemma changedAt_insert (name : String) (bytes : List UInt8) (t now : Time) (n : Node) :
    ChangedAt [name] (some (.file bytes t)) n (insert name (.file bytes t) now n) := by
  cases n with
  | file => exact .refl _ _ _
  | dir entries t₀ =>
    obtain ⟨entries', heq, hlookup⟩ := insert_dir name (.file bytes t) now t₀ entries
    rw [heq]
    refine changedAt_dir fun k rest found hfound => ?_
    rw [find?, hlookup] at hfound
    by_cases hk : k = name
    · -- below a file there is nothing
      rw [if_pos hk] at hfound
      cases rest with
      | nil => exact .inl ⟨by rw [hk], hfound⟩
      | cons _ _ => cases hfound
    · rw [if_neg hk] at hfound
      exact .inr ⟨found, hfound, .refl found⟩

lemma changedAt_erase (name : String) (now : Time) (n : Node) :
    ChangedAt [name] none n (erase name now n) := by
  cases n with
  | file => exact .refl _ _ _
  | dir entries t₀ =>
    refine changedAt_dir fun k rest found hfound => ?_
    rw [find?, lookup_dropEntry] at hfound
    by_cases hk : k = name
    · rw [if_pos hk] at hfound
      cases hfound
    · rw [if_neg hk] at hfound
      exact .inr ⟨found, hfound, .refl found⟩

/-- A change of the node at a place changes no other place. -/
lemma changedAt_update {change : Node → Node} {place : List String} {new : Option Node}
    (h : ∀ n, ChangedAt place new n (change n)) (parent : List String) (n : Node) :
    ChangedAt (parent ++ place) new n (update change parent n) := by
  induction parent generalizing n with
  | nil => exact h n
  | cons name parent ih =>
    cases n with
    | file => exact .refl _ _ _
    | dir entries t =>
      refine changedAt_dir fun k rest found hfound => ?_
      rw [find?, lookup_mapEntry (update change parent)] at hfound
      by_cases hk : k = name
      · subst hk
        rw [if_pos rfl] at hfound
        cases hchild : entries.lookup k with
        | none =>
          rw [hchild] at hfound
          cases hfound
        | some child =>
          rw [hchild] at hfound
          obtain ⟨rfl, hnew⟩ | ⟨old, hold, halike⟩ := ih child rest found hfound
          · exact .inl ⟨rfl, hnew⟩
          · refine .inr ⟨old, ?_, halike⟩
            rw [find?, hchild]
            exact hold
      -- nothing has changed below another name
      · rw [if_neg hk] at hfound
        exact .inr ⟨found, hfound, .refl found⟩

end Node

/-! ### Where paths lead -/

/-- The names that lead to where a step leads, innermost first. -/
def advance (names : List String) (step : String) : List String :=
  if step = "." then names else if step = ".." then names.tail else step :: names

/-- The place that a path leads to from a working directory, if it leads anywhere. -/
def Path.placeFrom (p : Path) (working : List String) : List String :=
  (p.steps.foldl advance (if p.absolute then [] else working.reverse)).reverse

namespace Disk

variable {d d' : Disk} {p : Path}

lemma walk_eq_ok {root : Node} {names steps place : List String}
    (h : walk root names steps = .ok place) : place = (steps.foldl advance names).reverse := by
  induction steps generalizing names with
  | nil =>
    cases h
    rfl
  | cons step steps ih =>
    rw [walk] at h
    rw [List.foldl_cons, advance]
    split at h
    · split_ifs at h ⊢
      · exact ih h
      · exact ih h
      · obtain ⟨⟨⟩, -, h⟩ := of_bind_ok h
        exact ih h
      · obtain ⟨⟨⟩, -, h⟩ := of_bind_ok h
        cases h
    · cases h
    · cases h

lemma resolve_eq_ok {place : List String} (h : d.resolve p = .ok place) :
    place = p.placeFrom d.working := by
  obtain ⟨⟨⟩, -, hwalk⟩ := of_bind_ok h
  rw [walk_eq_ok hwalk, Path.placeFrom]
  by_cases hslash : p.slash = true
  · rw [if_pos hslash, List.foldl_append]
    rfl
  · rw [if_neg hslash]

lemma get_eq_ok {n : Node} (h : d.get p = .ok n) :
    d.root.find? (p.placeFrom d.working) = some n := by
  obtain ⟨place, hplace, h⟩ := of_bind_ok h
  rw [← resolve_eq_ok hplace]
  cases hfound : d.root.find? place with
  | none =>
    rw [hfound] at h
    cases h
  | some found =>
    rw [hfound] at h
    cases h
    rfl

lemma modified?_eq_some {t : Time} (h : d.modified? p = some t) :
    ∃ n, d.get p = .ok n ∧ n.modified = t := by
  rw [modified?] at h
  split at h
  · rename_i n hget
    exact ⟨n, hget, Option.some.inj h⟩
  · cases h

lemma read_eq_ok {bytes : List UInt8} : d.read p = .ok bytes ↔ ∃ t, d.get p = .ok (.file bytes t) := by
  constructor
  · intro h
    obtain ⟨n, hget, h⟩ := of_bind_ok h
    cases n with
    | file bytes' t =>
      cases h
      exact ⟨t, hget⟩
    | dir => cases h
  · rintro ⟨t, hget⟩
    rw [read, hget]
    rfl

lemma lastName_eq_some {name : String} (h : lastName p = some name) :
    p.steps = p.steps.dropLast ++ [name] ∧ ∀ names, advance names name = name :: names := by
  rw [lastName] at h
  split at h
  · cases h
  · cases h
  · cases h
  · rename_i last hdot hup hlast
    cases h
    obtain ⟨front, hsteps⟩ := List.getLast?_eq_some_iff.1 hlast
    refine ⟨by rw [hsteps, List.dropLast_concat], fun names => ?_⟩
    rw [advance, if_neg hdot, if_neg hup]

/-- A file is written at the place that its path leads to. -/
lemma placeFor_eq_ok {parent : List String} {name : String} (h : d.placeFor p = .ok (parent, name)) :
    parent ++ [name] = p.placeFrom d.working := by
  obtain ⟨place, hplace, h⟩ := of_bind_ok h
  cases hlast : lastName p with
  | none =>
    rw [hlast] at h
    cases h
  | some last =>
    simp only [hlast] at h
    split_ifs at h
    obtain ⟨⟨⟩, -, h⟩ := of_bind_ok h
    cases h
    obtain ⟨⟨⟩, -, hwalk⟩ := of_bind_ok hplace
    obtain ⟨hsteps, hadvance⟩ := lastName_eq_some hlast
    rw [walk_eq_ok hwalk, Path.placeFrom, hsteps, List.dropLast_concat]
    simp only [List.foldl_append, List.foldl_cons, List.foldl_nil, hadvance, List.reverse_cons]
    rfl

/-! ### Changes of files -/

/-- Takes a file away. -/
def remove (d : Disk) (p : Path) : Except DiskError Disk := do
  let (parent, name) ← d.placeFor p
  match d.root.find? (parent ++ [name]) with
  | some (.file ..) =>
    .ok { d with root := d.root.update (Node.erase name d.clock) parent, clock := d.clock + 1 }
  | some (.dir ..) => .error .isADirectory
  | none => .error .notFound

/-- What a change of one file does: nothing at other places, and the working directory stays. -/
structure FileChange (d d' : Disk) (p : Path) (new : Option Node) : Prop where
  working_eq : d'.working = d.working
  changed : d.root.ChangedAt (p.placeFrom d.working) new d'.root

lemma fileChange_write {bytes : List UInt8} (h : d.write p bytes = .ok d') :
    FileChange d d' p (some (.file bytes d.clock)) := by
  obtain ⟨⟨parent, name⟩, hplace, h⟩ := of_bind_ok h
  dsimp only at h
  have hput : d' = d.put parent name (.file bytes d.clock) := by
    split at h
    · cases h
    · cases h
      rfl
  subst hput
  refine ⟨rfl, ?_⟩
  rw [← placeFor_eq_ok hplace]
  exact Node.changedAt_update (Node.changedAt_insert name bytes d.clock d.clock) parent d.root

lemma fileChange_remove (h : d.remove p = .ok d') : FileChange d d' p none := by
  obtain ⟨⟨parent, name⟩, hplace, h⟩ := of_bind_ok h
  dsimp only at h
  split at h
  · cases h
    refine ⟨rfl, ?_⟩
    rw [← placeFor_eq_ok hplace]
    exact Node.changedAt_update (Node.changedAt_erase name d.clock) parent d.root
  · cases h
  · cases h

end Disk

end WasmAot.Files
