import Mathlib.Data.List.Basic
import Mathlib.Logic.Function.Basic

/-! # Interactive programs

A program asks questions and goes on with the answers. An environment answers each question from
what was asked and answered before, so that it is free to answer as it likes. A monitor follows the
exchanges and says which questions its state allows; the rules below bound what a program can bring
about under every environment. -/

namespace IOSDeviceManager.General

universe u

variable {Q : Type u} {A : Q → Type u} {α β σ : Type u}

/-- A program that ends with a result, or asks a question and goes on with the answer. -/
inductive Interaction (Q : Type u) (A : Q → Type u) (α : Type u) where
  | done (result : α)
  | ask (question : Q) (next : A question → Interaction Q A α)

/-- The questions asked so far, with their answers, the oldest first. -/
abbrev History (A : Q → Type u) : Type u :=
  List (Sigma A)

/-- An environment answers each question from the history. -/
abbrev Environment (A : Q → Type u) : Type u :=
  History A → (question : Q) → A question

namespace Interaction

/-- The program goes on with its result. -/
protected def bind : Interaction Q A α → (α → Interaction Q A β) → Interaction Q A β
  | done result, f => f result
  | ask question next, f => ask question fun answer => (next answer).bind f

instance : Monad (Interaction Q A) where
  pure := done
  bind := Interaction.bind

/-- The program that asks one question. -/
def request (question : Q) : Interaction Q A (A question) :=
  ask question done

/-- A program followed by nothing. -/
theorem bind_done (p : Interaction Q A α) : p >>= done = p := by
  induction p with
  | done result => rfl
  | ask question next ih => exact congrArg (ask question) (funext ih)

/-- Sequencing is associative. -/
theorem bind_bind {γ : Type u} (p : Interaction Q A α) (f : α → Interaction Q A β)
    (g : β → Interaction Q A γ) : p >>= f >>= g = p >>= fun result => f result >>= g := by
  induction p with
  | done result => rfl
  | ask question next ih => exact congrArg (ask question) (funext ih)

instance : LawfulMonad (Interaction Q A) :=
  LawfulMonad.mk' (Interaction Q A) bind_done (fun _ _ => rfl) bind_bind

/-! ## Runs -/

/-- The result of a program after a history, and the history then. -/
def run (env : Environment A) : Interaction Q A α → History A → α × History A
  | done result, history => (result, history)
  | ask question next, history =>
      (next (env history question)).run env (history ++ [⟨question, env history question⟩])

variable {env : Environment A} {history : History A}

@[simp] theorem run_pure (result : α) :
    (pure result : Interaction Q A α).run env history = (result, history) :=
  rfl

@[simp] theorem run_request (question : Q) :
    (request question : Interaction Q A _).run env history =
      (env history question, history ++ [⟨question, env history question⟩]) :=
  rfl

/-- Runs compose. -/
@[simp] theorem run_bind (p : Interaction Q A α) (f : α → Interaction Q A β) :
    (p >>= f).run env history =
      (f (p.run env history).1).run env (p.run env history).2 := by
  induction p generalizing history with
  | done result => rfl
  | ask question next ih => exact ih _

@[simp] theorem run_map (f : α → β) (p : Interaction Q A α) :
    (f <$> p).run env history = (f (p.run env history).1, (p.run env history).2) := by
  rw [map_eq_pure_bind, run_bind, run_pure]

/-- A run only adds to the history. -/
theorem prefix_run (p : Interaction Q A α) : history <+: (p.run env history).2 := by
  induction p generalizing history with
  | done result => exact List.prefix_rfl
  | ask question next ih => exact (List.prefix_append _ _).trans (ih _)

end Interaction

/-! ## Monitors -/

/-- A monitor: how its state follows the exchanges, and which questions a state allows. -/
structure Monitor (A : Q → Type u) (σ : Type u) where
  observe : σ → Sigma A → σ
  Allows : σ → Q → Prop

namespace Monitor

variable (m : Monitor A σ)

/-- The state after a history. -/
def stateAfter (s : σ) (history : History A) : σ :=
  history.foldl m.observe s

/-- Every question of the history was allowed when it was asked. -/
def Respected : σ → History A → Prop
  | _, [] => True
  | s, exchange :: history => m.Allows s exchange.1 ∧ Respected (m.observe s exchange) history

variable {m} {s : σ} {history : History A}

@[simp] theorem stateAfter_append_singleton (exchange : Sigma A) :
    m.stateAfter s (history ++ [exchange]) = m.observe (m.stateAfter s history) exchange := by
  simp [stateAfter]

/-- A history is respected if its two parts are. -/
theorem respected_append {later : History A} :
    m.Respected s (history ++ later) ↔
      m.Respected s history ∧ m.Respected (m.stateAfter s history) later := by
  induction history generalizing s with
  | nil => simp [Respected, stateAfter]
  | cons exchange history ih =>
    rw [List.cons_append, Respected, Respected, ih, and_assoc]
    rfl

@[simp] theorem respected_append_singleton {exchange : Sigma A} :
    m.Respected s (history ++ [exchange]) ↔
      m.Respected s history ∧ m.Allows (m.stateAfter s history) exchange.1 := by
  simp [respected_append, Respected]

/-- What was not respected once never is again. -/
theorem Respected.of_run {p : Interaction Q A α} {env : Environment A}
    (h : m.Respected s (p.run env history).2) : m.Respected s history := by
  have hextends : history <+: (p.run env history).2 := p.prefix_run
  obtain ⟨later, hlater⟩ := hextends
  rw [← hlater, respected_append] at h
  exact h.1

/-! ### Weakest preconditions -/

variable (m) in
/-- The weakest precondition of a program: however it is answered, every question is allowed when it
is asked, and the result and the state at the end meet the postcondition. -/
def wp : Interaction Q A α → (α → σ → Prop) → σ → Prop
  | .done result, post, s => post result s
  | .ask question next, post, s =>
      m.Allows s question ∧
        ∀ answer, wp (next answer) post (m.observe s ⟨question, answer⟩)

variable {post : α → σ → Prop}

@[simp] theorem wp_pure (result : α) : m.wp (pure result) post s ↔ post result s :=
  Iff.rfl

@[simp] theorem wp_request (question : Q) (post : A question → σ → Prop) :
    m.wp (Interaction.request question) post s ↔
      m.Allows s question ∧ ∀ answer, post answer (m.observe s ⟨question, answer⟩) :=
  Iff.rfl

/-- **Sequencing.** The precondition of the second program is the postcondition of the first. -/
@[simp] theorem wp_bind (p : Interaction Q A α) (f : α → Interaction Q A β)
    (post : β → σ → Prop) :
    m.wp (p >>= f) post s ↔ m.wp p (fun result s => m.wp (f result) post s) s := by
  induction p generalizing s with
  | done result => exact Iff.rfl
  | ask question next ih => exact and_congr Iff.rfl (forall_congr' fun answer => ih answer)

/-- **Consequence.** A weaker postcondition. -/
theorem wp.mono {p : Interaction Q A α} {weaker : α → σ → Prop} (h : m.wp p post s)
    (hpost : ∀ result t, post result t → weaker result t) : m.wp p weaker s := by
  induction p generalizing s with
  | done result => exact hpost _ _ h
  | ask question next ih => exact ⟨h.1, fun answer => ih answer (h.2 answer)⟩

/-- What holds in any case holds after a program, if every question is allowed. -/
theorem wp_of_forall (p : Interaction Q A α) (hallows : ∀ s question, m.Allows s question)
    (hpost : ∀ result t, post result t) : m.wp p post s := by
  induction p generalizing s with
  | done result => exact hpost result s
  | ask question next ih => exact ⟨hallows s question, fun answer => ih answer⟩

/-- **Soundness.** A run in any environment ends as the postcondition says. -/
theorem post_of_wp {p : Interaction Q A α} (h : m.wp p post (m.stateAfter s history))
    (env : Environment A) :
    post (p.run env history).1 (m.stateAfter s (p.run env history).2) := by
  induction p generalizing history with
  | done result => exact h
  | ask question next ih =>
    apply ih _
    rw [stateAfter_append_singleton]
    exact h.2 _

/-- **Soundness.** A run in any environment asks allowed questions only. -/
theorem respected_of_wp {p : Interaction Q A α} (h : m.wp p post (m.stateAfter s history))
    (hrespected : m.Respected s history) (env : Environment A) :
    m.Respected s (p.run env history).2 := by
  induction p generalizing history with
  | done result => exact hrespected
  | ask question next ih =>
    refine ih _ ?_ (respected_append_singleton.mpr ⟨hrespected, h.1⟩)
    rw [stateAfter_append_singleton]
    exact h.2 _

/-- A program with a precondition that holds adds nothing that is not respected. -/
theorem respected_run_iff {p : Interaction Q A α}
    (h : m.wp p post (m.stateAfter s history)) (env : Environment A) :
    m.Respected s (p.run env history).2 ↔ m.Respected s history :=
  ⟨Respected.of_run, fun hrespected => respected_of_wp h hrespected env⟩

/-! ### Questions of one kind -/

/-- The monitor that allows the questions of one kind. -/
def only (P : Q → Prop) : Monitor A PUnit.{u + 1} where
  observe s _ := s
  Allows _ question := P question

/-- A program that asks questions of one kind only adds exchanges of that kind only. -/
theorem exists_later_of_wp_only {P : Q → Prop} {p : Interaction Q A α}
    (h : (only P).wp p (fun _ _ => True) ⟨⟩) (env : Environment A) (history : History A) :
    ∃ later, (p.run env history).2 = history ++ later ∧ ∀ exchange ∈ later, P exchange.1 := by
  induction p generalizing history with
  | done result => exact ⟨[], (List.append_nil history).symm, List.forall_mem_nil _⟩
  | ask question next ih =>
    obtain ⟨later, hlater, hkind⟩ := ih _ (h.2 (env history question))
      (history ++ [⟨question, env history question⟩])
    refine ⟨⟨question, env history question⟩ :: later, ?_,
      List.forall_mem_cons.mpr ⟨h.1, hkind⟩⟩
    rw [List.append_cons]
    exact hlater

end Monitor

end IOSDeviceManager.General
