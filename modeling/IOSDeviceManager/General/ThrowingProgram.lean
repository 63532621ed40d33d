import Mathlib.Data.Prod.Basic

/-! # Programs that throw

A program changes a state and ends with a result or an exception. An exception does not take back
what was done before it, so that a frame has to hold of both ends. -/

namespace IOSDeviceManager.General

universe u

variable {ε σ α β : Type u}

/-- A program that changes a state and may throw. -/
abbrev ThrowingProgram (ε σ α : Type u) : Type u :=
  ExceptT ε (StateM σ) α

namespace ThrowingProgram

/-- The program with these outcomes. -/
def ofRun (run : σ → Except ε α × σ) : ThrowingProgram ε σ α :=
  ExceptT.mk run

/-- The outcome from a state, and the state it leaves. -/
def runFrom (p : ThrowingProgram ε σ α) (s : σ) : Except ε α × σ :=
  p s

variable {p : ThrowingProgram ε σ α} {f : α → ThrowingProgram ε σ β} {s t : σ}

/-- After a result the next program goes on. -/
theorem runFrom_bind_of_ok {a : α} (h : p.runFrom s = (.ok a, t)) :
    (p >>= f).runFrom s = (f a).runFrom t := by
  change ExceptT.bindCont f (p s).1 (p s).2 = _
  rw [show p s = (.ok a, t) from h]
  rfl

/-- An exception ends the program. -/
theorem runFrom_bind_of_error {e : ε} (h : p.runFrom s = (.error e, t)) :
    (p >>= f).runFrom s = (.error e, t) := by
  change ExceptT.bindCont f (p s).1 (p s).2 = _
  rw [show p s = (.error e, t) from h]
  rfl

/-- **Inversion.** A sequence that has a result is made of two programs that have one. -/
theorem runFrom_bind_eq_ok {b : β} (h : (p >>= f).runFrom s = (.ok b, t)) :
    ∃ a between, p.runFrom s = (.ok a, between) ∧ (f a).runFrom between = (.ok b, t) := by
  cases hp : p.runFrom s with
  | mk result between =>
    cases result with
    | ok a => exact ⟨a, between, rfl, (runFrom_bind_of_ok hp).symm.trans h⟩
    | error e =>
      rw [runFrom_bind_of_error hp] at h
      cases h

/-- **Frame.** A transitive relation holds between the ends of a sequence if it does between those
of its programs, whether there is an exception or not. -/
theorem rel_bind {R : σ → σ → Prop} (htrans : ∀ {s t u}, R s t → R t u → R s u)
    (hp : R s (p.runFrom s).2)
    (hf : ∀ a t, p.runFrom s = (.ok a, t) → R t ((f a).runFrom t).2) :
    R s ((p >>= f).runFrom s).2 := by
  cases hrun : p.runFrom s with
  | mk result between =>
    rw [hrun] at hp
    cases result with
    | ok a =>
      rw [runFrom_bind_of_ok hrun]
      exact htrans hp (hf a between hrun)
    | error e =>
      rw [runFrom_bind_of_error hrun]
      exact hp

/-! ## Programs within a relation -/

/-- A run ends with the result. -/
def Returns (p : ThrowingProgram ε σ α) (a : α) : Prop :=
  ∃ s t, p.runFrom s = (.ok a, t)

/-- Every run relates the state it begins with to the one it leaves. -/
def Within (R : σ → σ → Prop) (p : ThrowingProgram ε σ α) : Prop :=
  ∀ s, R s (p.runFrom s).2

section

variable {R S : σ → σ → Prop}

theorem within_pure (hrefl : ∀ s, R s s) (a : α) :
    (pure a : ThrowingProgram ε σ α).Within R :=
  fun s => hrefl s

theorem within_throw (hrefl : ∀ s, R s s) (e : ε) :
    (throw e : ThrowingProgram ε σ α).Within R :=
  fun s => hrefl s

/-- A sequence stays within a transitive relation that its programs stay within. -/
theorem Within.bind (htrans : ∀ {s t u}, R s t → R t u → R s u) (hp : p.Within R)
    (hf : ∀ a, p.Returns a → (f a).Within R) : (p >>= f).Within R :=
  fun s => rel_bind htrans (hp s) fun a t h => hf a ⟨s, t, h⟩ t

/-- A program within a relation is within every weaker one. -/
theorem Within.mono (hp : p.Within R) (hweaker : ∀ s t, R s t → S s t) : p.Within S :=
  fun s => hweaker s _ (hp s)

/-- What a run with a result has done. -/
theorem Within.of_eq (hp : p.Within R) {result : Except ε α} (h : p.runFrom s = (result, t)) :
    R s t := by
  have hself := hp s
  rwa [h] at hself

end

end ThrowingProgram

end IOSDeviceManager.General
