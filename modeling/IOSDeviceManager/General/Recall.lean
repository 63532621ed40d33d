import IOSDeviceManager.General.InteractionHandler

/-! # What a program was answered

A monitor that recalls the last answer to each question, next to another monitor. A program leaves
the answers to the questions that it does not ask as they were, and what it adds to a history does
not depend on where in a history it starts. -/

namespace IOSDeviceManager.General

universe u

variable {Q : Type u} {A : Q → Type u} {α σ τ : Type u}

/-- The last answer to each question, if there is one. -/
abbrev Answers (A : Q → Type u) : Type u :=
  (question : Q) → Option (A question)

namespace Monitor

/-- The monitor of two states, which follow the exchanges side by side. -/
def prod (m : Monitor A σ) (m' : Monitor A τ) : Monitor A (σ × τ) where
  observe s exchange := (m.observe s.1 exchange, m'.observe s.2 exchange)
  Allows s question := m.Allows s.1 question ∧ m'.Allows s.2 question

variable {m : Monitor A σ} {m' : Monitor A τ} {p : Interaction Q A α}

/-- What two monitors ensure holds for the two side by side. -/
theorem wp.prod {post : α → σ → Prop} {post' : α → τ → Prop} {s : σ} {t : τ} (h : m.wp p post s)
    (h' : m'.wp p post' t) :
    (m.prod m').wp p (fun result later => post result later.1 ∧ post' result later.2) (s, t) := by
  induction p generalizing s t with
  | done result => exact ⟨h, h'⟩
  | ask question next ih =>
    exact ⟨⟨h.1, h'.1⟩, fun answer => ih answer (h.2 answer) (h'.2 answer)⟩

/-- **Conjunction.** What is ensured separately is ensured together. -/
theorem wp.and {post post' : α → σ → Prop} {s : σ} (h : m.wp p post s) (h' : m.wp p post' s) :
    m.wp p (fun result later => post result later ∧ post' result later) s := by
  induction p generalizing s with
  | done result => exact ⟨h, h'⟩
  | ask question next ih => exact ⟨h.1, fun answer => ih answer (h.2 answer) (h'.2 answer)⟩

/-- The same monitor, with every question allowed. -/
def allowAll (m : Monitor A σ) : Monitor A σ where
  observe := m.observe
  Allows _ _ := True

/-- It ensures what the monitor ensures. -/
theorem wp.allowAll {post : α → σ → Prop} {s : σ} (h : m.wp p post s) :
    m.allowAll.wp p post s := by
  induction p generalizing s with
  | done result => exact h
  | ask question next ih => exact ⟨trivial, fun answer => ih answer (h.2 answer)⟩

/-- The monitor that recalls the last answers. -/
def lastAnswers [DecidableEq Q] : Monitor A (Answers A) where
  observe answers exchange := Function.update answers exchange.1 (some exchange.2)
  Allows _ _ := True

/-- **Frame.** The answers to questions that are not asked stay. -/
theorem lastAnswers_frame [DecidableEq Q] {P : Q → Prop} (hp : Interaction.AsksOnly P p)
    (answers : Answers A) :
    lastAnswers.wp p (fun _ later => ∀ question, ¬ P question → later question = answers question)
      answers := by
  induction p generalizing answers with
  | done result => exact fun _ _ => rfl
  | ask question next ih =>
    refine ⟨trivial, fun answer => (ih answer (hp.2 answer trivial) _).mono fun _ later hlater => ?_⟩
    intro other hother
    rw [hlater other hother]
    refine Function.update_of_ne ?_ _ _
    rintro rfl
    exact hother hp.1

end Monitor

namespace Interaction

/-- **Starting anew.** What a program adds to a history is what it does from the start, in the
environment after that history. -/
theorem run_eq_append (p : Interaction Q A α) (env : Environment A) (history : History A) :
    p.run env history =
      ((p.run (fun later => env (history ++ later)) []).1,
        history ++ (p.run (fun later => env (history ++ later)) []).2) := by
  -- generalized over what has been added so far
  suffices h : ∀ added, p.run env (history ++ added) =
      ((p.run (fun later => env (history ++ later)) added).1,
        history ++ (p.run (fun later => env (history ++ later)) added).2) by
    simpa using h []
  induction p with
  | done result => exact fun added => rfl
  | ask question next ih =>
    intro added
    have hnext := ih (env (history ++ added) question)
      (added ++ [⟨question, env (history ++ added) question⟩])
    rw [← List.append_assoc] at hnext
    exact hnext

end Interaction

end IOSDeviceManager.General
