import IOSDeviceManager.General.Interaction

/-! # Handlers of interactive programs

A handler answers each question of a program by a program that asks questions of another kind. To
run a program with a handler is to run it one level further down. What a program may ask can depend
on what it is answered, and is bounded below a handler by what the handler asks. -/

namespace IOSDeviceManager.General

universe u

variable {Q R : Type u} {A : Q → Type u} {B : R → Type u} {α β : Type u}

/-- Each question of one kind is answered by a program of questions of another kind. -/
abbrev Handler (A : Q → Type u) (B : R → Type u) : Type u :=
  (question : Q) → Interaction R B (A question)

namespace Interaction

/-- The program with every question answered by the handler. -/
def handleWith (handler : Handler A B) : Interaction Q A α → Interaction R B α
  | done result => done result
  | ask question next => handler question >>= fun answer => (next answer).handleWith handler

variable (handler : Handler A B)

@[simp] theorem handleWith_pure (result : α) :
    (pure result : Interaction Q A α).handleWith handler = pure result :=
  rfl

@[simp] theorem handleWith_request (question : Q) :
    (request question : Interaction Q A _).handleWith handler = handler question :=
  bind_done (handler question)

/-- A handler answers two programs in turn as it answers each. -/
@[simp] theorem handleWith_bind (p : Interaction Q A α) (f : α → Interaction Q A β) :
    (p >>= f).handleWith handler =
      p.handleWith handler >>= fun result => (f result).handleWith handler := by
  induction p with
  | done result => rfl
  | ask question next ih =>
    have hnext : (fun answer => ((next answer) >>= f).handleWith handler) = fun answer =>
        (next answer).handleWith handler >>= fun result => (f result).handleWith handler :=
      funext ih
    calc (ask question next >>= f).handleWith handler
        = handler question >>= fun answer => ((next answer) >>= f).handleWith handler := rfl
      _ = handler question >>= fun answer => (next answer).handleWith handler >>= fun result =>
            (f result).handleWith handler := by rw [hnext]
      _ = (ask question next).handleWith handler >>= fun result =>
            (f result).handleWith handler := (bind_bind _ _ _).symm

end Interaction

/-! ## Questions of one kind -/

namespace Interaction

variable {answered : Sigma A → Prop} {P P' : Q → Prop} {p : Interaction Q A α}

/-- As long as it is answered as assumed, the program asks questions of one kind only. -/
def AsksUnder (answered : Sigma A → Prop) (P : Q → Prop) : Interaction Q A α → Prop
  | done _ => True
  | ask question next =>
      P question ∧ ∀ answer, answered ⟨question, answer⟩ → AsksUnder answered P (next answer)

/-- However it is answered, the program asks questions of one kind only. -/
abbrev AsksOnly (P : Q → Prop) (p : Interaction Q A α) : Prop :=
  AsksUnder (fun _ => True) P p

/-- A program that asks nothing. -/
@[simp] theorem asksUnder_pure (result : α) :
    AsksUnder answered P (pure result : Interaction Q A α) :=
  trivial

/-- A program that asks one question. -/
@[simp] theorem asksUnder_request {question : Q} :
    AsksUnder answered P (request question : Interaction Q A _) ↔ P question :=
  and_iff_left fun _ _ => trivial

/-- A question, and what is asked after an answer as assumed. -/
theorem AsksUnder.ask {question : Q} {f : A question → Interaction Q A α} (h : P question)
    (hf : ∀ answer, answered ⟨question, answer⟩ → AsksUnder answered P (f answer)) :
    AsksUnder answered P (request question >>= f) :=
  ⟨h, hf⟩

/-- Sequencing. -/
theorem AsksUnder.bind {f : α → Interaction Q A β} (hp : AsksUnder answered P p)
    (hf : ∀ result, AsksUnder answered P (f result)) : AsksUnder answered P (p >>= f) := by
  induction p with
  | done result => exact hf result
  | ask question next ih => exact ⟨hp.1, fun answer hanswer => ih answer (hp.2 answer hanswer)⟩

/-- Sequencing, for programs that may raise. -/
theorem AsksUnder.bindExcept {ε : Type u} {p : ExceptT ε (Interaction Q A) α}
    {f : α → ExceptT ε (Interaction Q A) β} (hp : AsksUnder answered P p.run)
    (hf : ∀ result, AsksUnder answered P (f result).run) : AsksUnder answered P (p >>= f).run := by
  rw [ExceptT.run_bind]
  refine hp.bind fun result => ?_
  cases result with
  | error e => exact asksUnder_pure _
  | ok result => exact hf result

/-- A larger kind. -/
theorem AsksUnder.mono (hp : AsksUnder answered P p) (h : ∀ question, P question → P' question) :
    AsksUnder answered P' p := by
  induction p with
  | done result => trivial
  | ask question next ih =>
    exact ⟨h question hp.1, fun answer hanswer => ih answer (hp.2 answer hanswer)⟩

/-- A choice between two programs. -/
theorem AsksUnder.ite {c : Prop} {_ : Decidable c} {q : Interaction Q A α}
    (hp : AsksUnder answered P p) (hq : AsksUnder answered P q) :
    AsksUnder answered P (if c then p else q) := by
  split
  · exact hp
  · exact hq

/-- Below a handler the program asks what the handler asks for its questions. -/
theorem AsksOnly.handleWith {handler : Handler A B} {answered : Sigma B → Prop} {P' : R → Prop}
    (hp : AsksOnly P p) (hhandler : ∀ question, P question → AsksUnder answered P' (handler question)) :
    AsksUnder answered P' (p.handleWith handler) := by
  induction p with
  | done result => trivial
  | ask question next ih =>
    exact (hhandler question hp.1).bind fun answer => ih answer (hp.2 answer trivial)

/-- **Soundness.** Every question of a run is of that kind, if what was asked before it was answered
as assumed. -/
theorem AsksUnder.of_run_eq (hp : AsksUnder answered P p) {env : Environment A}
    {history before after : History A} {exchange : Sigma A}
    (hrun : (p.run env history).2 = history ++ before ++ exchange :: after)
    (hbefore : ∀ earlier ∈ before, answered earlier) : P exchange.1 := by
  induction p generalizing history before with
  | done result =>
    have hlength : history.length = (history ++ before ++ exchange :: after).length :=
      congrArg List.length hrun
    simp only [List.length_append, List.length_cons] at hlength
    omega
  | ask question next ih =>
    -- the run goes on from this question
    have hasked : history ++ [⟨question, env history question⟩] <+:
        history ++ (before ++ exchange :: after) := by
      rw [← List.append_assoc, ← hrun]
      exact prefix_run _
    rw [List.prefix_append_right_inj] at hasked
    cases before with
    | nil =>
      obtain ⟨rfl, -⟩ := List.cons_prefix_cons.mp hasked
      exact hp.1
    | cons earlier before =>
      obtain ⟨rfl, -⟩ := List.cons_prefix_cons.mp hasked
      rw [List.forall_mem_cons] at hbefore
      have hrest : ((next (env history question)).run env
          (history ++ [⟨question, env history question⟩])).2 =
            history ++ [⟨question, env history question⟩] ++ before ++ exchange :: after := by
        rw [List.append_assoc history]
        exact hrun
      exact ih _ (hp.2 _ hbefore.1) hrest hbefore.2

/-! ## Returned values -/

variable {ε : Type u}

/-- However it is answered, the program raises or returns a value of one kind. -/
def Returns (allowed : α → Prop) (p : ExceptT ε (Interaction Q A) α) : Prop :=
  ∀ env history result, (p.run.run env history).1 = .ok result → allowed result

variable {allowed : α → Prop}

/-- A program that ends returns its result. -/
theorem returns_pure {result : α} (h : allowed result) :
    Returns allowed (pure result : ExceptT ε (Interaction Q A) α) := by
  rintro env history _ ⟨⟩
  exact h

/-- A program that throws returns nothing. -/
theorem returns_throw (e : ε) : Returns allowed (throw e : ExceptT ε (Interaction Q A) α) := by
  rintro env history _ ⟨⟩

/-- Sequencing: what the second program returns. -/
theorem Returns.bind {returned : β → Prop} {p : ExceptT ε (Interaction Q A) β}
    {f : β → ExceptT ε (Interaction Q A) α} (hp : Returns returned p)
    (hf : ∀ result, returned result → Returns allowed (f result)) : Returns allowed (p >>= f) := by
  intro env history result h
  rw [ExceptT.run_bind, run_bind] at h
  cases hresult : (p.run.run env history).1 with
  | error e =>
    rw [hresult] at h
    cases h
  | ok value =>
    rw [hresult] at h
    exact hf value (hp env history value hresult) env _ result h

/-- Every program returns something that is allowed when all is. -/
theorem returns_true (p : ExceptT ε (Interaction Q A) α) : Returns (fun _ => True) p :=
  fun _ _ _ _ => trivial

/-- A choice returns what its branches return. -/
theorem Returns.ite {c : Prop} {_ : Decidable c} {p q : ExceptT ε (Interaction Q A) α}
    (hp : c → Returns allowed p) (hq : ¬ c → Returns allowed q) :
    Returns allowed (if c then p else q) := by
  split
  · exact hp ‹_›
  · exact hq ‹_›

end Interaction

end IOSDeviceManager.General
