/-
# Requests to a cache in memory

Files are written and removed, and between these changes sources are asked for through the cache.  A
kept source was compiled from the file as it was then; as long as every write gets a later time than
what is kept, a file that is not newer than its kept source still compiles to that source (`Backed`).
So a request cannot be told from plain compilation.

Nothing is asked of the assembler for modules in text form, but that it makes the same of the same
text.
-/
import WasmAot.Files.Cache
import WasmAot.Proofs.Files.Places
import WasmAot.Release

namespace WasmAot.Files

open Stateful

/-! ### Single requests -/

section Requests

variable {platform : Platform} {path : Path} {options : Options} {w : Workspace}
  {bytes : List UInt8} {source : String}

lemma compileAt_ok (hread : w.disk.read path = .ok bytes)
    (hcompile : compile platform bytes options = .ok source) :
    compileAt platform path options w = .ok source w := by
  simp only [compileAt, bind_run, get_run, during, ask, hread, pure_run, hcompile]

/-- Plain compilation changes nothing, and gives what the contents of the file compile to. -/
lemma compileAt_cases (platform : Platform) (path : Path) (options : Options) (w : Workspace) :
    (∃ bytes source, w.disk.read path = .ok bytes ∧ compile platform bytes options = .ok source) ∨
      ∃ f, compileAt platform path options w = .error f w := by
  cases hread : w.disk.read path with
  | error e =>
    refine .inr ⟨⟨[.reading path.text], .disk e⟩, ?_⟩
    simp only [compileAt, bind_run, get_run, during, ask, hread, throw_run, Failure.within]
  | ok bytes =>
    cases hcompile : compile platform bytes options with
    | ok source => exact .inl ⟨bytes, source, rfl, hcompile⟩
    | error e =>
      refine .inr ⟨⟨[.compiling path.text], .source e⟩, ?_⟩
      simp only [compileAt, bind_run, get_run, during, ask, hread, pure_run, hcompile, throw_run]

/-- The workspace after a source was kept in memory. -/
def Workspace.keeping (w : Workspace) (key source : String) : Workspace :=
  { w with
    kept := w.kept.insert key source w.disk.clock
    disk := { w.disk with clock := w.disk.clock + 1 } }

/-- The ways in which a request ends: with a kept source that is fresh, with a new one that is kept
from then on, or with the failure of plain compilation. -/
inductive Served (platform : Platform) (path : Path) (options : Options) (w : Workspace) :
    EStateM.Result Failure Workspace String → Prop
  | kept {source : String} {written changed : Time}
      (hlookup : w.kept.entries.lookup options.moduleName = some (source, written))
      (hchanged : w.disk.modified? path = some changed) (hfresh : changed ≤ written) :
      Served platform path options w (.ok source w)
  | compiled {bytes : List UInt8} {source : String} (hread : w.disk.read path = .ok bytes)
      (hcompile : compile platform bytes options = .ok source) :
      Served platform path options w (.ok source (w.keeping options.moduleName source))
  | failed {f : Failure} (h : compileAt platform path options w = .error f w) :
      Served platform path options w (.error f w)

lemma isFresh_eq_true {changed written : Option Time} (h : isFresh changed written = true) :
    ∃ t t', changed = some t ∧ written = some t' ∧ t ≤ t' := by
  cases changed with
  | none => cases h
  | some t =>
    cases written with
    | none => cases h
    | some t' => exact ⟨t, t', rfl, rfl, of_decide_eq_true h⟩

lemma served_compileCached (platform : Platform) (path : Path) (options : Options) (w : Workspace) :
    Served platform path options w (compileCached platform path options .memory w) := by
  by_cases hfresh :
      isFresh (w.disk.modified? path) (Cache.memory.writtenAt options.moduleName w) = true
  · obtain ⟨changed, written, hchanged, hwritten, hle⟩ := isFresh_eq_true hfresh
    obtain ⟨⟨source, time⟩, hlookup, rfl⟩ := Option.map_eq_some_iff.1 hwritten
    have hrun : compileCached platform path options .memory w = .ok source w := by
      simp only [compileCached, bind_run, get_run, hfresh, if_true, Cache.find, hlookup,
        Option.map_some, pure_run]
    rw [hrun]
    exact .kept hlookup hchanged hle
  · obtain ⟨bytes, source, hread, hcompile⟩ | ⟨f, hfail⟩ := compileAt_cases platform path options w
    · have hrun : compileCached platform path options .memory w =
          .ok source (w.keeping options.moduleName source) := by
        simp only [compileCached, bind_run, get_run, hfresh, Bool.false_eq_true, if_false, pure_run,
          compileAt_ok hread hcompile, during, Cache.keep, modify_run]
        rfl
      rw [hrun]
      exact .compiled hread hcompile
    · have hrun : compileCached platform path options .memory w = .error f w := by
        simp only [compileCached, bind_run, get_run, hfresh, Bool.false_eq_true, if_false, pure_run,
          hfail]
      rw [hrun]
      exact .failed hfail

end Requests

/-! ### Sequences of events -/

/-- What happens to a workspace, each with the time on the clock. -/
inductive Event where
  | write (path : Path) (bytes : List UInt8) (now : Time)
  | remove (path : Path) (now : Time)
  | request (path : Path) (options : Options) (now : Time)

/-- The workspace at a time. -/
def Workspace.atTime (w : Workspace) (now : Time) : Workspace :=
  { w with disk := { w.disk with clock := now } }

namespace Event

/-- The workspace after an event.  A write or a removal that is not possible changes nothing. -/
def step (platform : Platform) (w : Workspace) : Event → Workspace
  | write path bytes now =>
    match (w.atTime now).disk.write path bytes with
    | .ok disk => { w with disk }
    | .error _ => w
  | remove path now =>
    match (w.atTime now).disk.remove path with
    | .ok disk => { w with disk }
    | .error _ => w
  | request path options now =>
    match compileCached platform path options .memory (w.atTime now) with
    | .ok _ w => w
    | .error _ w => w

/-- The workspace after some events. -/
def run (platform : Platform) (w : Workspace) (events : List Event) : Workspace :=
  events.foldl (step platform) w

/-- A write is later than all that is kept, or it writes what the file holds already and does not
turn back its time. -/
def Timely (w : Workspace) : Event → Prop
  | write path bytes now =>
    (∀ entry ∈ w.kept.entries, entry.2.2 < now) ∨
      ∃ t ≤ now, w.disk.get path = .ok (.file bytes t)
  | _ => True

/-- Each event is timely when it happens. -/
def AllTimely (platform : Platform) : Workspace → List Event → Prop
  | _, [] => True
  | w, event :: events => event.Timely w ∧ AllTimely platform (event.step platform w) events

/-- The module is asked for with the path and the library that belong to its name. -/
def Follows (use : String → Path × String) : Event → Prop
  | request path options _ => use options.moduleName = (path, options.library)
  | _ => True

end Event

/-! ### Kept sources and files -/

/-- A file that compiles to a source, unless it is newer. -/
def Yields (platform : Platform) (options : Options) (source : String) (written : Time) (n : Node) :
    Prop :=
  ∃ bytes t, n = .file bytes t ∧ (t ≤ written → compile platform bytes options = .ok source)

/-- What lies at a path, if anything, yields a source. -/
def Current (platform : Platform) (d : Disk) (path : Path) (options : Options) (source : String)
    (written : Time) : Prop :=
  ∀ n, d.root.find? (path.placeFrom d.working) = some n → Yields platform options source written n

/-- All kept sources are current. -/
def Backed (platform : Platform) (use : String → Path × String) (w : Workspace) : Prop :=
  ∀ key source written, (key, source, written) ∈ w.kept.entries →
    Current platform w.disk (use key).1 ⟨key, (use key).2⟩ source written

section Changes

variable {platform : Platform} {d d' : Disk} {p path : Path} {options : Options} {source : String}
  {written : Time}

/-- Only what is put at the place of a file can make its source outdated. -/
lemma Current.change (h : Current platform d path options source written) {new : Option Node}
    (hchange : Disk.FileChange d d' p new)
    (hnew : ∀ n, new = some n → path.placeFrom d.working = p.placeFrom d.working →
      Yields platform options source written n) : Current platform d' path options source written := by
  intro n hn
  rw [hchange.working_eq] at hn
  obtain ⟨hplace, hput⟩ | ⟨old, hold, halike⟩ := hchange.changed _ n hn
  · exact hnew n hput hplace
  · obtain ⟨bytes, t, rfl, hcompile⟩ := h old hold
    cases halike
    exact ⟨bytes, t, rfl, hcompile⟩

lemma Current.remove (h : Current platform d path options source written)
    (hremove : d.remove p = .ok d') :
    Current platform d' path options source written :=
  h.change (Disk.fileChange_remove hremove) nofun

lemma Current.write (h : Current platform d path options source written) {bytes : List UInt8}
    (hwrite : d.write p bytes = .ok d')
    (htimely : written < d.clock ∨ ∃ t ≤ d.clock, d.get p = .ok (.file bytes t)) :
    Current platform d' path options source written := by
  refine h.change (Disk.fileChange_write hwrite) fun n hn hplace => ?_
  cases hn
  refine ⟨bytes, d.clock, rfl, fun hold => ?_⟩
  obtain hlater | ⟨t, ht, hget⟩ := htimely
  · exact absurd hold (Nat.not_le.2 hlater)
  · -- the file held the same bytes before, and was not newer
    obtain ⟨bytes', t', heq, hcompile⟩ := h _ (hplace ▸ Disk.get_eq_ok hget)
    cases heq
    exact hcompile (Nat.le_trans ht hold)

lemma current_of_read {bytes : List UInt8} (hread : d.read path = .ok bytes)
    (hcompile : compile platform bytes options = .ok source) :
    Current platform d path options source written := by
  intro n hn
  obtain ⟨t, hget⟩ := Disk.read_eq_ok.1 hread
  rw [Disk.get_eq_ok hget] at hn
  cases hn
  exact ⟨bytes, t, rfl, fun _ => hcompile⟩

end Changes

section Invariant

variable {platform : Platform} {use : String → Path × String} {w : Workspace} {path : Path}
  {options : Options}

lemma Backed.keeping (h : Backed platform use w)
    (hfollows : use options.moduleName = (path, options.library))
    {bytes : List UInt8} {source : String} (hread : w.disk.read path = .ok bytes)
    (hcompile : compile platform bytes options = .ok source) :
    Backed platform use (w.keeping options.moduleName source) := by
  intro key source' written hmem
  obtain hnew | hold := List.mem_cons.1 hmem
  · cases hnew
    rw [hfollows]
    exact current_of_read hread hcompile
  · exact h key source' written (List.mem_filter.1 hold).1

lemma Backed.atTime (h : Backed platform use w) (now : Time) : Backed platform use (w.atTime now) := h

/-- Every event leaves the kept sources current. -/
lemma Backed.step (h : Backed platform use w) {event : Event} (hfollows : event.Follows use)
    (htimely : event.Timely w) : Backed platform use (event.step platform w) := by
  cases event with
  | write path bytes now =>
    simp only [Event.step]
    cases hwrite : (w.atTime now).disk.write path bytes with
    | ok disk =>
      intro key source written hmem
      have hlater : written < now ∨ ∃ t ≤ now, w.disk.get path = .ok (.file bytes t) :=
        htimely.imp_left fun hall => hall (key, source, written) hmem
      exact (h.atTime now key source written hmem).write hwrite hlater
    | error e => exact h
  | remove path now =>
    simp only [Event.step]
    cases hremove : (w.atTime now).disk.remove path with
    | ok disk =>
      intro key source written hmem
      exact (h.atTime now key source written hmem).remove hremove
    | error e => exact h
  | request path options now =>
    have hserved := served_compileCached platform path options (w.atTime now)
    simp only [Event.step]
    generalize compileCached platform path options .memory (w.atTime now) = result at hserved ⊢
    cases hserved with
    | kept => exact h.atTime now
    | compiled hread hcompile => exact (h.atTime now).keeping hfollows hread hcompile
    | failed => exact h.atTime now

lemma Backed.run (h : Backed platform use w) {events : List Event}
    (hfollows : ∀ e ∈ events, e.Follows use) (htimely : Event.AllTimely platform w events) :
    Backed platform use (Event.run platform w events) := by
  induction events generalizing w with
  | nil => exact h
  | cons event events ih =>
    exact ih (h.step (hfollows event List.mem_cons_self) htimely.1)
      (fun e he => hfollows e (List.mem_cons_of_mem _ he)) htimely.2

end Invariant

/-! ### Answers -/

/-- What a run answers, without the workspace that it leaves. -/
def answer {α : Type} : EStateM.Result Failure Workspace α → Except Failure α
  | .ok a _ => .ok a
  | .error f _ => .error f

/-- A request gives the source or the failure of plain compilation, and one that fails changes
nothing. -/
structure Faithful (platform : Platform) (path : Path) (options : Options) (w : Workspace) : Prop where
  answer_eq : answer (compileCached platform path options .memory w) =
    answer (compileAt platform path options w)
  failed : ∀ f w', compileCached platform path options .memory w = .error f w' → w' = w

lemma Backed.faithful {platform : Platform} {use : String → Path × String} {w : Workspace}
    {path : Path}
    {options : Options} (h : Backed platform use w)
    (hfollows : use options.moduleName = (path, options.library)) :
    Faithful platform path options w := by
  have hserved := served_compileCached platform path options w
  constructor
  · generalize compileCached platform path options .memory w = result at hserved ⊢
    cases hserved with
    | @kept source written changed hlookup hchanged hfresh =>
      obtain ⟨before, after, hentries, -⟩ := List.lookup_eq_some_iff.1 hlookup
      have hmem : (options.moduleName, source, written) ∈ w.kept.entries := by
        rw [hentries]
        exact List.mem_append_right _ List.mem_cons_self
      -- the entry is not older than the file, so it is what the file compiles to now
      have hcurrent := h _ _ _ hmem
      rw [hfollows] at hcurrent
      obtain ⟨n, hget, rfl⟩ := Disk.modified?_eq_some hchanged
      obtain ⟨bytes, t, rfl, hcompile⟩ := hcurrent n (Disk.get_eq_ok hget)
      rw [compileAt_ok (Disk.read_eq_ok.2 ⟨t, hget⟩) (hcompile hfresh)]
    | compiled hread hcompile =>
      rw [compileAt_ok hread hcompile]
      rfl
    | failed hfail => rw [hfail]
  · intro f w' hrun
    rw [hrun] at hserved
    cases hserved
    rfl

lemma Event.allTimely_append {platform : Platform} {w : Workspace} {before after : List Event}
    (h : AllTimely platform w (before ++ after)) : AllTimely platform w before := by
  induction before generalizing w with
  | nil => trivial
  | cons event before ih => exact ⟨h.1, ih h.2⟩

/-- In any sequence of writes, removals and requests that starts with an empty cache, if each module
name is used with one path and one library, and each write is later than what is kept, then every
request answers as plain compilation would at that time, and one that fails changes nothing.  This
holds of files in binary form and in text form, whatever the assembler makes of these. -/
theorem requests_faithful (platform : Platform) (disk : Disk) (use : String → Path × String)
    (events : List Event) (hfollows : ∀ e ∈ events, e.Follows use)
    (htimely : Event.AllTimely platform { disk } events) :
    ∀ before path options now after, events = before ++ .request path options now :: after →
      Faithful platform path options ((Event.run platform { disk } before).atTime now) := by
  rintro before path options now after rfl
  have hstart : Backed platform use { disk } := fun _ _ _ hmem => absurd hmem List.not_mem_nil
  have hbacked := hstart.run (fun e he => hfollows e (List.mem_append_left _ he))
    (Event.allTimely_append htimely)
  have hrequest : use options.moduleName = (path, options.library) :=
    hfollows _ (List.mem_append_right _ List.mem_cons_self)
  exact Backed.faithful hbacked hrequest

/-- An empty working directory. -/
def emptyDisk : Disk :=
  { root := .dir [] 0, clock := 0 }

/-- A file in the working directory. -/
def moduleFile : Path :=
  ⟨"m.wat", false, ["m.wat"], false⟩

/-- The empty module in binary form. -/
def emptyBinary : List UInt8 :=
  [0, 0x61, 0x73, 0x6d, 1, 0, 0, 0]

/-- The empty module in text form, `(module)`. -/
def emptyText : List UInt8 :=
  [0x28, 0x6d, 0x6f, 0x64, 0x75, 0x6c, 0x65, 0x29]

/-- A platform whose assembler knows this module. -/
def assembling : Platform :=
  { Platform.release with
    assemble := fun bytes => if bytes = emptyText then .ok emptyBinary else .error "expected `(`" }

/-- A module in text form is asked for twice, in binary form once, and again after its file was
spoiled. -/
def spoiled : List Event :=
  [.write moduleFile emptyText 5, .request moduleFile {} 6, .request moduleFile {} 7,
    .write moduleFile emptyBinary 8, .request moduleFile {} 9, .write moduleFile [0x29] 10,
    .request moduleFile {} 11]

lemma follows_spoiled :
    ∀ e ∈ spoiled, e.Follows fun _ => (moduleFile, "wasmlower_runtime") := by
  simp [spoiled, Event.Follows]

lemma allTimely_spoiled : Event.AllTimely assembling { disk := emptyDisk } spoiled :=
  ⟨.inl nofun, trivial, trivial, .inl (by decide +kernel), trivial, .inl (by decide +kernel), trivial,
    trivial⟩

/-- The second request is served from the cache, where the first one has put the source; the last one
fails and leaves there what was made from the binary form. -/
theorem requests_faithful_spoiled :
    ((∀ e ∈ spoiled, e.Follows fun _ => (moduleFile, "wasmlower_runtime")) ∧
      Event.AllTimely assembling { disk := emptyDisk } spoiled) ∧
    (Event.run assembling { disk := emptyDisk } (spoiled.take 3)).kept.entries.map (·.2.2) = [6] ∧
    Faithful assembling moduleFile {}
      ((Event.run assembling { disk := emptyDisk } (spoiled.take 2)).atTime 7) ∧
    Faithful assembling moduleFile {}
      ((Event.run assembling { disk := emptyDisk } (spoiled.take 6)).atTime 11) ∧
    (Event.run assembling { disk := emptyDisk } spoiled).kept.entries.map (·.2.2) = [9] := by
  refine ⟨⟨follows_spoiled, allTimely_spoiled⟩, by decide +kernel, ?_, ?_, by decide +kernel⟩
  · exact requests_faithful assembling emptyDisk _ spoiled follows_spoiled allTimely_spoiled
      (spoiled.take 2) moduleFile {} 7 _ rfl
  · exact requests_faithful assembling emptyDisk _ spoiled follows_spoiled allTimely_spoiled
      (spoiled.take 6) moduleFile {} 11 _ rfl

end WasmAot.Files
