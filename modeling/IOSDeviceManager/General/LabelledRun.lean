import Mathlib.Data.List.Basic

/-! # Runs of a labelled step function

A system is a partial step function on states and labels. A run follows a list of labels. Four rules
lift facts about one step to runs: an invariant kept by every step, one kept by every step that
meets a condition, a property that each step keeps exactly when it meets a condition and that is
never regained once lost, and a relation to the states of another system that follows every step. -/

namespace IOSDeviceManager.General

variable {σ ℓ : Type*}

/-- The state after the labels, if every step is enabled. -/
def run (step : σ → ℓ → Option σ) : σ → List ℓ → Option σ
  | s, [] => some s
  | s, a :: as => (step s a).bind fun t => run step t as

/-- The condition `P` holds at every step of the run. -/
def Along (step : σ → ℓ → Option σ) (P : σ → ℓ → Prop) : σ → List ℓ → Prop
  | _, [] => True
  | s, a :: as => P s a ∧ ∀ t, step s a = some t → Along step P t as

variable {step : σ → ℓ → Option σ}

@[simp] theorem run_nil (s : σ) : run step s [] = some s := rfl

/-- A run that starts with a label takes that step first. -/
theorem run_cons_eq_some_iff {s u : σ} {a : ℓ} {as : List ℓ} :
    run step s (a :: as) = some u ↔ ∃ t, step s a = some t ∧ run step t as = some u := by
  simp [run, Option.bind_eq_some_iff]

/-- **Invariant rule.** What every step keeps holds after every run. -/
theorem run_invariant {I : σ → Prop} (hstep : ∀ s a t, I s → step s a = some t → I t)
    {s u : σ} {as : List ℓ} (hs : I s) (hrun : run step s as = some u) : I u := by
  induction as generalizing s with
  | nil =>
    rw [run_nil, Option.some.injEq] at hrun
    exact hrun ▸ hs
  | cons a as ih =>
    obtain ⟨t, ht, hrest⟩ := run_cons_eq_some_iff.mp hrun
    exact ih (hstep s a t hs ht) hrest

/-- **Invariant rule under a condition.** What every step that meets `P` keeps holds after every run
all of whose steps meet `P`. -/
theorem run_invariant_along {I : σ → Prop} {P : σ → ℓ → Prop}
    (hstep : ∀ s a t, I s → P s a → step s a = some t → I t) {s u : σ} {as : List ℓ} (hs : I s)
    (halong : Along step P s as) (hrun : run step s as = some u) : I u := by
  induction as generalizing s with
  | nil =>
    rw [run_nil, Option.some.injEq] at hrun
    exact hrun ▸ hs
  | cons a as ih =>
    obtain ⟨t, ht, hrest⟩ := run_cons_eq_some_iff.mp hrun
    exact ih (hstep s a t hs halong.1 ht) (halong.2 t ht) hrest

/-- **Exactness rule.** Under an invariant, if a step keeps the property `G` exactly when it meets
`P`, and no step restores `G`, then `G` holds after the run exactly when it held before and every
step of the run met `P`. -/
theorem run_iff_along {I G : σ → Prop} {P : σ → ℓ → Prop}
    (hI : ∀ s a t, I s → step s a = some t → I t)
    (hG : ∀ s a t, I s → step s a = some t → (G t ↔ G s ∧ P s a))
    {s u : σ} {as : List ℓ} (hs : I s) (hrun : run step s as = some u) :
    G u ↔ G s ∧ Along step P s as := by
  induction as generalizing s with
  | nil =>
    rw [run_nil, Option.some.injEq] at hrun
    simp [Along, hrun]
  | cons a as ih =>
    obtain ⟨t, ht, hrest⟩ := run_cons_eq_some_iff.mp hrun
    rw [ih (hI s a t hs ht) hrest, hG s a t hs ht, Along, and_assoc]
    simp [ht]

/-- **Simulation rule.** If every step with a label that meets `P` is followed by a step of another
system, so is every run with such labels. -/
theorem run_simulates {τ κ : Type*} {step' : τ → κ → Option τ} {f : ℓ → κ} {R : σ → τ → Prop}
    {P : ℓ → Prop}
    (hstep : ∀ s t a u, R s t → P a → step s a = some u → ∃ v, step' t (f a) = some v ∧ R u v)
    {s u : σ} {t : τ} {as : List ℓ} (hR : R s t) (hP : ∀ a ∈ as, P a)
    (hrun : run step s as = some u) : ∃ v, run step' t (as.map f) = some v ∧ R u v := by
  induction as generalizing s t with
  | nil =>
    rw [run_nil, Option.some.injEq] at hrun
    exact ⟨t, rfl, hrun ▸ hR⟩
  | cons a as ih =>
    obtain ⟨hhead, htail⟩ := List.forall_mem_cons.mp hP
    obtain ⟨s', hfirst, hrest⟩ := run_cons_eq_some_iff.mp hrun
    obtain ⟨t', hfollow, hR'⟩ := hstep s t a s' hR hhead hfirst
    obtain ⟨v, hrun', hv⟩ := ih hR' htail hrest
    exact ⟨v, run_cons_eq_some_iff.mpr ⟨t', hfollow, hrun'⟩, hv⟩

end IOSDeviceManager.General
