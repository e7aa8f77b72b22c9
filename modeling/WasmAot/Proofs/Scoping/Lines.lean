/-
# Variables of emitted lines

The variables that a line introduces, assigns and reads, and those that are in scope after some
lines.  Scopes are the levels of indentation: a line that opens a level starts a scope, and a line
that closes one ends it.  `WellScoped` says that the variables of a body are used as they were
introduced; `Joins` is what a line has to satisfy to stand behind lines that already do.
-/
import Mathlib.Data.List.Induction
import WasmAot.Code.Line

namespace WasmAot.Code

/-! ### Names -/

/-- The variable that an atom reads.  Text that was chosen elsewhere counts as a name of its own. -/
def Atom.names : Atom → List Name
  | name x | clone x => [x]
  | given text => [.given text]
  | _ => []

/-- The variables that an expression reads. -/
def Expr.names : Expr → List Name
  | .atom a | .unary _ _ a | .convert _ a | .isNull a | .tableGet _ a | .load _ _ _ a
  | .memoryGrow _ a | .slotFunc _ a => a.names
  | .compare _ _ a b | .binary _ _ a b | .tableGrow _ a b => a.names ++ b.names
  | .select c a b => c.names ++ a.names ++ b.names
  | .callOwn _ args => args.flatMap Atom.names
  | .callImported _ args => args.flatMap fun p => p.2.names
  | .callRef callee args => callee :: args.flatMap fun p => p.2.names
  | .unpack values _ _ => [values]
  | .zero _ | .null | .ownFuncRef _ | .importedFuncRef _ | .globalGet .. | .tableSize _
  | .memorySize _ => []

/-- The variables that an operation reads. -/
def Effect.names : Effect → List Name
  | call e => e.names
  | requireSignature callee _ => [callee]
  | globalSet _ _ value => value.names
  | tableSet _ a b | store _ _ _ a b => a.names ++ b.names
  | tableFill _ a b c | tableCopyWithin _ a b c | tableCopy _ _ a b c | tableInit _ _ a b c
  | memoryInit _ _ a b c | memoryCopy _ a b c | memoryFill _ a b c =>
    a.names ++ b.names ++ c.names
  | elemDrop _ | dataDrop _ => []

namespace Line

/-- The variables that a line introduces. -/
def bound : Line → List Name
  | bind _ x _ _ | bindDynamic x _ => [x]
  | bindTuple xs _ _ => xs
  | _ => []

/-- The variables that a line introduces and that may be assigned later. -/
def boundMut : Line → List Name
  | bind true x _ _ => [x]
  | _ => []

/-- The variables that a line assigns. -/
def assigned : Line → List Name
  | assign xs _ => xs
  | _ => []

/-- The variables that a line reads. -/
def read : Line → List Name
  | bind _ _ _ e | bindDynamic _ e | bindTuple _ _ e => e.names
  | assign _ values | returnOk values => values.flatMap Atom.names
  | perform e => e.names
  | openIf a | openMatch a => a.names
  | _ => []

/-- All variables of a line. -/
def names (line : Line) : List Name :=
  line.bound ++ line.assigned ++ line.read

end Line

/-! ### Scopes -/

/-- The variables of the scopes around the next line, innermost scope first. -/
abbrev Scopes := List (List Name)

/-- The scopes after one more line. -/
def enter (scopes : Scopes) (line : Line) : Scopes :=
  match line.layout with
  | .opening _ => [] :: scopes
  | .closing _ => scopes.tail
  | .reopening _ => [] :: scopes.tail
  | _ =>
    match scopes with
    | [] => []
    | scope :: outer => (line.bound ++ scope) :: outer

/-- The scopes after some lines; before the first one there is the scope of the body. -/
def scopesAfter (lines : List Line) : Scopes :=
  lines.foldl enter [[]]

/-- The variables of a body with some number of locals are used as they were introduced. -/
structure WellScoped (locals : Nat) (lines : List Line) : Prop where
  /-- every `v` that occurs is introduced by exactly one `let` -/
  introduced : ∀ n, .temp n ∈ lines.flatMap Line.names →
    (lines.flatMap Line.bound).count (.temp n) = 1
  /-- a line uses a `v` only after the `let` and inside of the scope in which the `let` stands -/
  inScope : ∀ before line after n, lines = before ++ line :: after →
    .temp n ∈ line.assigned ++ line.read → .temp n ∈ (scopesAfter before).flatten
  /-- what is assigned was introduced with `let mut` -/
  mutable : ∀ n, .temp n ∈ lines.flatMap Line.assigned → .temp n ∈ lines.flatMap Line.boundMut
  /-- every `l` that occurs is one of the locals -/
  locals : ∀ index, .slot index ∈ lines.flatMap Line.names → index < locals
  /-- no other names occur -/
  own : ∀ text, .given text ∉ lines.flatMap Line.names
  /-- the scope of the body is not closed, and all scopes inside of it are -/
  nested : ∀ before after, lines = before ++ after → scopesAfter before ≠ []
  closed : (scopesAfter lines).length = 1

/-! ### One more line -/

/-- The variable may be read in the scopes. -/
def Known (locals : Nat) (scopes : Scopes) : Name → Prop
  | .temp n => .temp n ∈ scopes.flatten
  | .slot index => index < locals
  | .given _ => False

lemma Known.mono {locals : Nat} {scopes scopes' : Scopes} {x : Name} (h : Known locals scopes x)
    (hsub : ∀ y ∈ scopes.flatten, y ∈ scopes'.flatten) : Known locals scopes' x := by
  cases x with
  | temp n => exact hsub _ h
  | slot index => exact h
  | given text => exact h.elim

/-- What is known outside is known inside. -/
lemma Known.inside {locals : Nat} {outer : Scopes} {x : Name} (h : Known locals outer x)
    (inner : Scopes) : Known locals (inner ++ outer) x := by
  refine h.mono fun y hy => ?_
  rw [List.flatten_append]
  exact List.mem_append_right _ hy

/-- The variable may be introduced by a line behind others. -/
def New (locals : Nat) (lines : List Line) : Name → Prop
  | .temp n => .temp n ∉ lines.flatMap Line.bound
  | .slot index => index < locals
  | .given _ => False

/-- The variable may be assigned by a line behind others. -/
def Assignable (locals : Nat) (lines : List Line) (x : Name) : Prop :=
  Known locals (scopesAfter lines) x ∧ ∀ n, x = .temp n → x ∈ lines.flatMap Line.boundMut

/-- The line may stand behind the lines. -/
structure Joins (locals : Nat) (lines : List Line) (line : Line) : Prop where
  read : ∀ x ∈ line.read, Known locals (scopesAfter lines) x
  assigned : ∀ x ∈ line.assigned, Assignable locals lines x
  bound : ∀ x ∈ line.bound, New locals lines x
  distinct : line.bound.Nodup
  nested : enter (scopesAfter lines) line ≠ []

/-- Every line may stand behind those before it. -/
def Joined (locals : Nat) (lines : List Line) : Prop :=
  ∀ before line after, lines = before ++ line :: after → Joins locals before line

section

variable {locals : Nat} {lines : List Line} {line : Line}

lemma scopesAfter_concat (lines : List Line) (line : Line) :
    scopesAfter (lines ++ [line]) = enter (scopesAfter lines) line := by
  rw [scopesAfter, List.foldl_append]
  rfl

lemma joined_nil : Joined locals [] := by
  intro before line after h
  simp at h

lemma Joined.concat (h : Joined locals lines) (hline : Joins locals lines line) :
    Joined locals (lines ++ [line]) := by
  intro before line' after heq
  rcases List.eq_nil_or_concat after with rfl | ⟨after, last, rfl⟩
  · obtain ⟨rfl, hlast⟩ := List.append_inj' heq rfl
    cases hlast
    exact hline
  · have hsplit : lines ++ [line] = (before ++ line' :: after) ++ [last] := by
      rw [heq]
      simp
    exact h before line' after (List.append_inj' hsplit rfl).1

lemma mem_flatten_enter {scopes : Scopes} {x : Name} (h : x ∈ (enter scopes line).flatten) :
    x ∈ line.bound ∨ x ∈ scopes.flatten := by
  have htail : x ∈ scopes.tail.flatten → x ∈ scopes.flatten := by
    cases scopes with
    | nil => exact id
    | cons scope outer => exact List.mem_append_right scope
  unfold enter at h
  split at h
  · exact .inr h
  · exact .inr (htail h)
  · exact .inr (htail h)
  · cases scopes with
    | nil => cases h
    | cons scope outer =>
      rw [List.flatten_cons, List.append_assoc, List.mem_append] at h
      exact h

/-- What is in scope has been introduced. -/
lemma mem_bound_of_mem_scopes {x : Name} (h : x ∈ (scopesAfter lines).flatten) :
    x ∈ lines.flatMap Line.bound := by
  induction lines using List.reverseRecOn with
  | nil => simp [scopesAfter] at h
  | append_singleton lines line ih =>
    rw [scopesAfter_concat] at h
    rw [List.flatMap_append, List.mem_append]
    rcases mem_flatten_enter h with hline | hlines
    · exact .inr (by simpa using hline)
    · exact .inl (ih hlines)

/-- A variable is introduced at most once. -/
lemma Joined.count_le_one (h : Joined locals lines) (n : Nat) :
    (lines.flatMap Line.bound).count (.temp n) ≤ 1 := by
  -- from the last line, of which it is known that it joins those before it
  induction lines using List.reverseRecOn with
  | nil => simp
  | append_singleton lines line ih =>
    have hlines : Joined locals lines := by
      intro before line' after heq
      exact h before line' (after ++ [line]) (by rw [heq]; simp)
    have hline := h lines line [] rfl
    rw [List.flatMap_append, List.count_append, List.flatMap_singleton]
    by_cases hmem : .temp n ∈ line.bound
    · have hnew : .temp n ∉ lines.flatMap Line.bound := hline.bound _ hmem
      rw [List.count_eq_zero.2 hnew]
      have honce := List.nodup_iff_count.1 hline.distinct (.temp n)
      omega
    · rw [List.count_eq_zero.2 hmem]
      exact ih hlines

/-- Lines that may each stand behind the others are well scoped, if their scopes are closed. -/
lemma Joined.wellScoped (h : Joined locals lines) (hclosed : (scopesAfter lines).length = 1) :
    WellScoped locals lines := by
  have hused : ∀ before line after x, lines = before ++ line :: after →
      x ∈ line.assigned ++ line.read → Known locals (scopesAfter before) x := by
    intro before line after x heq hx
    rcases List.mem_append.1 hx with hx | hx
    · exact ((h before line after heq).assigned x hx).1
    · exact (h before line after heq).read x hx
  -- what a line introduces or uses may be introduced or used there
  have hnames : ∀ x ∈ lines.flatMap Line.names,
      ∃ before, New locals before x ∨ Known locals (scopesAfter before) x := by
    intro x hx
    obtain ⟨line, hline, hname⟩ := List.mem_flatMap.1 hx
    obtain ⟨before, after, heq⟩ := List.append_of_mem hline
    rw [Line.names, List.append_assoc, List.mem_append] at hname
    exact ⟨before, hname.imp ((h before line after heq).bound x) (hused before line after x heq)⟩
  refine ⟨?_, fun before line after n heq hn => hused before line after _ heq hn, ?_, ?_, ?_, ?_,
    hclosed⟩
  · intro n hn
    obtain ⟨line, hline, hname⟩ := List.mem_flatMap.1 hn
    obtain ⟨before, after, heq⟩ := List.append_of_mem hline
    -- a name that is only used here was introduced by a line before
    have hbound : .temp n ∈ lines.flatMap Line.bound := by
      rw [Line.names, List.append_assoc, List.mem_append] at hname
      rcases hname with hname | hname
      · exact List.mem_flatMap.2 ⟨line, hline, hname⟩
      · have hbefore := mem_bound_of_mem_scopes (hused before line after _ heq hname)
        rw [heq, List.flatMap_append]
        exact List.mem_append_left _ hbefore
    have hle := h.count_le_one n
    have hpos := List.count_pos_iff.2 hbound
    omega
  · intro n hn
    obtain ⟨line, hline, hname⟩ := List.mem_flatMap.1 hn
    obtain ⟨before, after, heq⟩ := List.append_of_mem hline
    have hbefore := ((h before line after heq).assigned _ hname).2 n rfl
    rw [heq, List.flatMap_append]
    exact List.mem_append_left _ hbefore
  · intro index hindex
    obtain ⟨before, hnew | hknown⟩ := hnames _ hindex
    · exact hnew
    · exact hknown
  · intro text htext
    obtain ⟨before, hnew | hknown⟩ := hnames _ htext
    · exact hnew
    · exact hknown
  · intro before after heq
    rcases List.eq_nil_or_concat before with rfl | ⟨before, last, rfl⟩
    · simp [scopesAfter]
    · rw [List.concat_eq_append, scopesAfter_concat]
      exact (h before last after (by rw [heq]; simp)).nested

end

/-! ### Lines that introduce nothing -/

/-- How many scopes are open after some lines, if there were `d` before and the lines close no
others than these. -/
def depthAfter : Nat → List Line → Option Nat
  | d, [] => some d
  | d, line :: lines =>
    match line.layout, d with
    | .opening _, d => depthAfter (d + 1) lines
    | .closing _, 0 | .reopening _, 0 => none
    | .closing _, d + 1 => depthAfter d lines
    | .reopening _, d + 1 => depthAfter (d + 1) lines
    | _, d => depthAfter d lines

/-- The line introduces nothing, reads what is known and assigns what was introduced with `let mut`.
-/
structure Quiet (locals : Nat) (scopes : Scopes) (muts : List Name) (line : Line) : Prop where
  bound : line.bound = []
  read : ∀ x ∈ line.read, Known locals scopes x
  assigned : ∀ x ∈ line.assigned, Known locals scopes x ∧ ∀ n, x = .temp n → x ∈ muts

section

variable {locals d d' : Nat} {scopes : Scopes} {muts : List Name} {lines before : List Line}
  {line : Line}

lemma enter_plain {text : String} (h : line.layout = .plain text) (scope : List Name)
    (outer : Scopes) : enter (scope :: outer) line = (line.bound ++ scope) :: outer := by
  rw [enter, h]

lemma depthAfter_append (d : Nat) (lines lines' : List Line) :
    depthAfter d (lines ++ lines') = (depthAfter d lines).bind fun d' => depthAfter d' lines' := by
  induction lines generalizing d with
  | nil => rfl
  | cons line lines ih =>
    cases hlayout : line.layout <;> cases d <;>
      simp only [List.cons_append, depthAfter, hlayout, ih, Option.bind_none]

/-- A line that introduces nothing changes the scopes as it changes their number. -/
lemma enter_of_bound (hbound : line.bound = []) (hscopes : scopes ≠ [])
    (hdepth : depthAfter d [line] = some d') :
    enter (List.replicate d [] ++ scopes) line = List.replicate d' [] ++ scopes := by
  unfold enter
  simp only [depthAfter] at hdepth
  cases hlayout : line.layout <;> rw [hlayout] at hdepth
  case opening => cases hdepth; rfl
  case closing => cases d <;> cases hdepth; rfl
  case reopening => cases d <;> cases hdepth; rfl
  all_goals
    cases hdepth
    cases d with
    | zero =>
      obtain ⟨scope, outer, rfl⟩ := List.exists_cons_of_ne_nil hscopes
      simp [hbound]
    | succ d => simp [List.replicate_succ, hbound]

/-- Lines that introduce nothing and close what they open may follow. -/
lemma Joined.append (h : Joined locals before)
    (hbefore : scopesAfter before = List.replicate d [] ++ scopes) (hscopes : scopes ≠ [])
    (hquiet : ∀ line ∈ lines, Quiet locals scopes (before.flatMap Line.boundMut) line)
    (hdepth : depthAfter d lines = some d') :
    Joined locals (before ++ lines) ∧
      scopesAfter (before ++ lines) = List.replicate d' [] ++ scopes := by
  induction lines generalizing before d with
  | nil =>
    cases hdepth
    rw [List.append_nil]
    exact ⟨h, hbefore⟩
  | cons line lines ih =>
    have hline := hquiet line List.mem_cons_self
    rw [← List.singleton_append, depthAfter_append, Option.bind_eq_some_iff] at hdepth
    obtain ⟨d₁, hfirst, hrest⟩ := hdepth
    -- the line binds nothing, so the scopes that it may open stay empty
    have henter := enter_of_bound hline.bound hscopes hfirst
    rw [← hbefore] at henter
    have hjoins : Joins locals before line := by
      refine ⟨fun x hx => ?_, fun x hx => ⟨?_, (hline.assigned x hx).2⟩, ?_, ?_, ?_⟩
      · rw [hbefore]
        exact (hline.read x hx).inside _
      · rw [hbefore]
        exact (hline.assigned x hx).1.inside _
      · rw [hline.bound]
        simp
      · rw [hline.bound]
        exact List.nodup_nil
      · rw [henter]
        simp [hscopes]
    have hconcat := scopesAfter_concat before line
    rw [henter] at hconcat
    -- the variables that may be assigned only become more
    have hquiet' : ∀ line' ∈ lines,
        Quiet locals scopes ((before ++ [line]).flatMap Line.boundMut) line' := by
      intro line' hline'
      have hq := hquiet line' (List.mem_cons_of_mem _ hline')
      refine ⟨hq.bound, hq.read, fun x hx => ⟨(hq.assigned x hx).1, fun n hn => ?_⟩⟩
      rw [List.flatMap_append]
      exact List.mem_append_left _ ((hq.assigned x hx).2 n hn)
    have hih := ih (h.concat hjoins) hconcat hquiet' hrest
    rw [List.append_assoc] at hih
    exact hih

/-- Scopes inside of others may be closed. -/
lemma Joined.close {inner outer : Scopes} (h : Joined locals before)
    (hbefore : scopesAfter before = inner ++ outer) (houter : outer ≠ []) :
    Joined locals (before ++ List.replicate inner.length .close) ∧
      scopesAfter (before ++ List.replicate inner.length .close) = outer := by
  induction inner generalizing before with
  | nil =>
    rw [List.length_nil, List.replicate_zero, List.append_nil]
    exact ⟨h, hbefore⟩
  | cons scope inner ih =>
    have hjoins : Joins locals before .close := by
      refine ⟨nofun, nofun, nofun, List.nodup_nil, ?_⟩
      rw [hbefore]
      simp [enter, Line.layout, houter]
    have hclosed : scopesAfter (before ++ [Line.close]) = inner ++ outer := by
      rw [scopesAfter_concat, hbefore]
      rfl
    have hih := ih (h.concat hjoins) hclosed
    rw [List.append_assoc, List.singleton_append, ← List.replicate_succ] at hih
    exact hih

/-- A scope may be closed and another one opened in its place. -/
lemma Joined.reopen {scope : List Name} {outer : Scopes} (h : Joined locals before)
    (hbefore : scopesAfter before = scope :: outer) :
    Joined locals (before ++ [Line.openElse]) ∧
      scopesAfter (before ++ [Line.openElse]) = [] :: outer := by
  have hreopened : scopesAfter (before ++ [Line.openElse]) = [] :: outer := by
    rw [scopesAfter_concat, hbefore]
    rfl
  refine ⟨h.concat ⟨nofun, nofun, nofun, List.nodup_nil, ?_⟩, hreopened⟩
  rw [← scopesAfter_concat, hreopened]
  exact List.cons_ne_nil _ _

end

end WasmAot.Code
