/-
# Running computations with a state and errors

The operations of the builder and the readers of the binary format are functions from a state to a
value and a new state, or to an error.  The lemmas of this file say what the pieces that such
computations are put together from do when they are run, and what is known of the parts when the
whole has succeeded, or failed.
-/
import Mathlib.Tactic.Lemma

namespace WasmAot.Stateful

variable {ε σ α β : Type} (s : σ)

@[simp] lemma pure_run (a : α) : (pure a : EStateM ε σ α) s = .ok a s := rfl

@[simp] lemma get_run : (get : EStateM ε σ σ) s = .ok s s := rfl

@[simp] lemma set_run (t : σ) : (set t : EStateM ε σ PUnit) s = .ok ⟨⟩ t := rfl

@[simp] lemma modify_run (f : σ → σ) : (modify f : EStateM ε σ PUnit) s = .ok ⟨⟩ (f s) := rfl

@[simp] lemma throw_run (e : ε) : (throw e : EStateM ε σ α) s = .error e s := rfl

lemma bind_run (x : EStateM ε σ α) (f : α → EStateM ε σ β) :
    (x >>= f) s = match x s with
      | .ok a t => f a t
      | .error e t => .error e t := rfl

variable {s}

/-- A step that succeeds hands its value and its state to what follows. -/
lemma bind_run_ok {x : EStateM ε σ α} {f : α → EStateM ε σ β} {a : α} {t : σ} (h : x s = .ok a t) :
    (x >>= f) s = f a t := by
  rw [bind_run, h]

/-- After a step that fails nothing follows. -/
lemma bind_run_error {x : EStateM ε σ α} {f : α → EStateM ε σ β} {e : ε} {t : σ}
    (h : x s = .error e t) : (x >>= f) s = .error e t := by
  rw [bind_run, h]

/-- What follows a step matters only for what the step gives. -/
lemma bind_run_congr {x : EStateM ε σ α} {f g : α → EStateM ε σ β}
    (h : ∀ a t, x s = .ok a t → f a t = g a t) : (x >>= f) s = (x >>= g) s := by
  rw [bind_run, bind_run]
  cases hx : x s with
  | ok a t => exact h a t hx
  | error e t => rfl

/-- If a sequence of two steps succeeds, so does each of them. -/
lemma of_bind_run_ok {x : EStateM ε σ α} {f : α → EStateM ε σ β} {b : β} {u : σ}
    (h : (x >>= f) s = .ok b u) : ∃ a t, x s = .ok a t ∧ f a t = .ok b u := by
  rw [bind_run] at h
  cases hx : x s with
  | ok a t => exact ⟨a, t, rfl, by rwa [hx] at h⟩
  | error e t => rw [hx] at h; cases h

/-- If a sequence of two steps fails, so does the first one, or the second one after it. -/
lemma of_bind_run_error {x : EStateM ε σ α} {f : α → EStateM ε σ β} {e : ε} {u : σ}
    (h : (x >>= f) s = .error e u) :
    x s = .error e u ∨ ∃ a t, x s = .ok a t ∧ f a t = .error e u := by
  rw [bind_run] at h
  cases hx : x s with
  | ok a t => exact .inr ⟨a, t, rfl, by rwa [hx] at h⟩
  | error e' t =>
    rw [hx] at h
    cases h
    exact .inl rfl

/-- The same for steps without a state. -/
lemma of_bind_ok {x : Except ε α} {f : α → Except ε β} {b : β} (h : (x >>= f) = .ok b) :
    ∃ a, x = .ok a ∧ f a = .ok b := by
  cases x with
  | ok a => exact ⟨a, rfl, h⟩
  | error e => cases h

/-- Whatever the computation stops with, it is an error of this sort. -/
def Throws (P : ε → Prop) (x : EStateM ε σ α) : Prop :=
  ∀ ⦃s : σ⦄ ⦃e : ε⦄ ⦃t : σ⦄, x s = .error e t → P e

namespace Throws

variable {P : ε → Prop} {x : EStateM ε σ α} {f : α → EStateM ε σ β}

protected lemma pure (a : α) : Throws P (pure a : EStateM ε σ α) :=
  nofun

protected lemma get : Throws P (get : EStateM ε σ σ) :=
  nofun

protected lemma set (t : σ) : Throws P (set t : EStateM ε σ PUnit) :=
  nofun

protected lemma modify (g : σ → σ) : Throws P (modify g : EStateM ε σ PUnit) :=
  nofun

protected lemma throw {e : ε} (h : P e) : Throws P (throw e : EStateM ε σ α) := by
  intro s e' t hrun
  cases hrun
  exact h

protected lemma bind (hx : Throws P x) (hf : ∀ a, Throws P (f a)) : Throws P (x >>= f) := by
  intro s e u hrun
  rcases of_bind_run_error hrun with hfirst | ⟨a, t, -, hsecond⟩
  · exact hx hfirst
  · exact hf a hsecond

protected lemma map (hx : Throws P x) (g : α → β) : Throws P (do return g (← x)) :=
  hx.bind fun a => .pure (g a)

end Throws

/-- Whether it succeeds or fails, the computation leaves what is seen of the state as it was. -/
structure Keeps {τ : Type} (view : σ → τ) (x : EStateM ε σ α) : Prop where
  of_ok : ∀ ⦃s : σ⦄ ⦃a : α⦄ ⦃t : σ⦄, x s = .ok a t → view t = view s
  of_error : ∀ ⦃s : σ⦄ ⦃e : ε⦄ ⦃t : σ⦄, x s = .error e t → view t = view s

/-- If it fails, the computation leaves what is seen of the state as it was. -/
def Atomic {τ : Type} (view : σ → τ) (x : EStateM ε σ α) : Prop :=
  ∀ ⦃s : σ⦄ ⦃e : ε⦄ ⦃t : σ⦄, x s = .error e t → view t = view s

section

variable {τ : Type} {view : σ → τ} {x : EStateM ε σ α} {f : α → EStateM ε σ β}

namespace Keeps

protected lemma pure (a : α) : Keeps view (pure a : EStateM ε σ α) where
  of_ok s b t h := by
    cases h
    rfl
  of_error := nofun

protected lemma get : Keeps view (get : EStateM ε σ σ) where
  of_ok s a t h := by
    cases h
    rfl
  of_error := nofun

protected lemma modify {g : σ → σ} (h : ∀ s, view (g s) = view s) :
    Keeps view (modify g : EStateM ε σ PUnit) where
  of_ok s a t hrun := by
    cases hrun
    exact h s
  of_error := nofun

protected lemma throw (e : ε) : Keeps view (throw e : EStateM ε σ α) where
  of_ok := nofun
  of_error s e' t h := by
    cases h
    rfl

protected lemma bind (hx : Keeps view x) (hf : ∀ a, Keeps view (f a)) : Keeps view (x >>= f) where
  of_ok s b u h := by
    obtain ⟨a, t, hfirst, hsecond⟩ := of_bind_run_ok h
    rw [(hf a).of_ok hsecond, hx.of_ok hfirst]
  of_error s e u h := by
    rcases of_bind_run_error h with hfirst | ⟨a, t, hfirst, hsecond⟩
    · exact hx.of_error hfirst
    · rw [(hf a).of_error hsecond, hx.of_ok hfirst]

/-- What leaves all of the state as it was leaves what is seen of it. -/
lemma of_id (hx : Keeps id x) : Keeps view x :=
  ⟨fun _ _ _ h => congrArg view (hx.of_ok h), fun _ _ _ h => congrArg view (hx.of_error h)⟩

protected lemma atomic (hx : Keeps view x) : Atomic view x :=
  hx.of_error

/-- A step that keeps the state can come before one that only does so if it fails. -/
protected lemma before (hx : Keeps view x) (hf : ∀ a, Atomic view (f a)) : Atomic view (x >>= f) := by
  intro s e u h
  rcases of_bind_run_error h with hfirst | ⟨a, t, hfirst, hsecond⟩
  · exact hx.of_error hfirst
  · rw [hf a hsecond, hx.of_ok hfirst]

end Keeps

lemma Throws.atomic (hx : Throws (fun _ => False) x) : Atomic view x :=
  fun _ _ _ h => (hx h).elim

/-- What never fails can come after anything. -/
lemma Atomic.andThen (hx : Atomic view x) (hf : ∀ a, Throws (fun _ => False) (f a)) :
    Atomic view (x >>= f) := by
  intro s e u h
  rcases of_bind_run_error h with hfirst | ⟨a, t, -, hsecond⟩
  · exact hx hfirst
  · exact (hf a hsecond).elim

end

/-- If it fails, the computation leads from a state with the property to one with it. -/
def Stops (I : σ → Prop) (x : EStateM ε σ α) : Prop :=
  ∀ ⦃s : σ⦄ ⦃e : ε⦄ ⦃t : σ⦄, I s → x s = .error e t → I t

/-- Whether it succeeds or fails, it does. -/
structure Preserves (I : σ → Prop) (x : EStateM ε σ α) : Prop where
  of_ok : ∀ ⦃s : σ⦄ ⦃a : α⦄ ⦃t : σ⦄, I s → x s = .ok a t → I t
  of_error : Stops I x

namespace Preserves

variable {I : σ → Prop} {x : EStateM ε σ α} {f : α → EStateM ε σ β}

/-- What leaves all of the state as it was leaves its properties. -/
lemma of_keeps (hx : Keeps id x) : Preserves I x where
  of_ok s a t hs h := by
    obtain rfl : t = s := hx.of_ok h
    exact hs
  of_error s e t hs h := by
    obtain rfl : t = s := hx.of_error h
    exact hs

/-- A change of the state that keeps the property. -/
lemma of_run (a : σ → α) (g : σ → σ) (hrun : ∀ s, x s = .ok (a s) (g s))
    (hg : ∀ s, I s → I (g s)) : Preserves I x where
  of_ok s b t hs h := by
    cases (hrun s).symm.trans h
    exact hg s hs
  of_error s e t _ h := by
    cases (hrun s).symm.trans h

/-- A step that preserves the property can come before one that does so if it fails. -/
lemma before (hx : Preserves I x) (hf : ∀ a, Stops I (f a)) : Stops I (x >>= f) := by
  intro s e u hs h
  rcases of_bind_run_error h with hfirst | ⟨a, t, hfirst, hsecond⟩
  · exact hx.of_error hs hfirst
  · exact hf a (hx.of_ok hs hfirst) hsecond

protected lemma bind (hx : Preserves I x) (hf : ∀ a, Preserves I (f a)) :
    Preserves I (x >>= f) where
  of_ok s b u hs h := by
    obtain ⟨a, t, hfirst, hsecond⟩ := of_bind_run_ok h
    exact (hf a).of_ok (hx.of_ok hs hfirst) hsecond
  of_error := hx.before fun a => (hf a).of_error

end Preserves

end WasmAot.Stateful
