import IOSDeviceManager.General.LabelledRun
import Mathlib.Algebra.BigOperators.Fin
import Mathlib.Algebra.Order.BigOperators.Group.Finset
import Mathlib.Data.Fintype.Basic

/-! # A collection behind a lock

Workers add themselves to a shared list. The addition is not atomic: a worker reads the length of
the list and writes behind it later, over whatever was added in between. Each holds the one lock
while it does both. Then nothing is lost, whatever the interleaving, and no run gets stuck. -/

namespace IOSDeviceManager.General

namespace LockedCollection

variable {W : Type*} [DecidableEq W]

/-- How far a worker has come. -/
inductive Phase where
  | notStarted
  /-- The lock is taken. -/
  | entered
  /-- The length of the list is read. -/
  | read (length : Nat)
  /-- The worker is added, and the lock not yet given back. -/
  | written
  | finished
  deriving DecidableEq, Repr

/-- A worker in one of these phases holds the lock. -/
def Phase.Inside : Phase → Prop
  | entered | read _ | written => True
  | notStarted | finished => False

/-- The steps a worker has left at most. -/
def Phase.remaining : Phase → Nat
  | notStarted => 4
  | entered => 3
  | read _ => 2
  | written => 1
  | finished => 0

/-- The shared memory, and the phases of the workers. -/
structure State (W : Type*) where
  phase : W → Phase
  /-- The worker that holds the lock. -/
  owner : Option W
  collected : List W

/-- The atomic steps of a worker. -/
inductive Step (W : Type*) where
  /-- It has nothing to add. -/
  | skip (w : W)
  /-- It takes the lock, which is free. -/
  | acquire (w : W)
  | read (w : W)
  | write (w : W)
  /-- It gives the lock back. -/
  | release (w : W)
  deriving DecidableEq

/-- Nothing is collected, and the lock is free. -/
def initial (W : Type*) : State W where
  phase _ := .notStarted
  owner := none
  collected := []

/-- The state with a worker in another phase. -/
def State.setPhase (s : State W) (w : W) (phase : Phase) : State W :=
  { s with phase := Function.update s.phase w phase }

variable (adds : W → Bool)

/-- One atomic step. -/
def step (s : State W) : Step W → Option (State W)
  | .skip w =>
      if s.phase w = .notStarted ∧ adds w = false then some (s.setPhase w .finished) else none
  | .acquire w =>
      if s.phase w = .notStarted ∧ adds w = true ∧ s.owner = none then
        some { s.setPhase w .entered with owner := some w }
      else none
  | .read w =>
      if s.phase w = .entered then some (s.setPhase w (.read s.collected.length)) else none
  | .write w =>
      match s.phase w with
      | .read length =>
          some { s.setPhase w .written with collected := s.collected.take length ++ [w] }
      | _ => none
  | .release w =>
      if s.phase w = .written then some { s.setPhase w .finished with owner := none } else none

/-- Every worker has finished. -/
def State.Finished (s : State W) : Prop :=
  ∀ w, s.phase w = .finished

variable {adds} {s t : State W} {a : Step W} {w : W}

@[simp] theorem setPhase_phase (s : State W) (w : W) (phase : Phase) :
    (s.setPhase w phase).phase = Function.update s.phase w phase :=
  rfl

@[simp] theorem setPhase_owner (s : State W) (w : W) (phase : Phase) :
    (s.setPhase w phase).owner = s.owner :=
  rfl

@[simp] theorem setPhase_collected (s : State W) (w : W) (phase : Phase) :
    (s.setPhase w phase).collected = s.collected :=
  rfl

/-- What a step can do. -/
theorem step_cases (h : step adds s a = some t) :
    (∃ w, s.phase w = .notStarted ∧ adds w = false ∧ t = s.setPhase w .finished) ∨
    (∃ w, s.phase w = .notStarted ∧ adds w = true ∧ s.owner = none ∧
      t = { s.setPhase w .entered with owner := some w }) ∨
    (∃ w, s.phase w = .entered ∧ t = s.setPhase w (.read s.collected.length)) ∨
    (∃ w length, s.phase w = .read length ∧
      t = { s.setPhase w .written with collected := s.collected.take length ++ [w] }) ∨
    (∃ w, s.phase w = .written ∧ t = { s.setPhase w .finished with owner := none }) := by
  cases a with
  | skip w =>
    simp only [step, Option.ite_none_right_eq_some, Option.some.injEq] at h
    exact .inl ⟨w, h.1.1, h.1.2, h.2.symm⟩
  | acquire w =>
    simp only [step, Option.ite_none_right_eq_some, Option.some.injEq] at h
    exact .inr (.inl ⟨w, h.1.1, h.1.2.1, h.1.2.2, h.2.symm⟩)
  | read w =>
    simp only [step, Option.ite_none_right_eq_some, Option.some.injEq] at h
    exact .inr (.inr (.inl ⟨w, h.1, h.2.symm⟩))
  | write w =>
    simp only [step] at h
    split at h
    · rename_i length hphase
      exact .inr (.inr (.inr (.inl ⟨w, length, hphase, (Option.some.inj h).symm⟩)))
    · cases h
  | release w =>
    simp only [step, Option.ite_none_right_eq_some, Option.some.injEq] at h
    exact .inr (.inr (.inr (.inr ⟨w, h.1, h.2.symm⟩)))

/-! ## The invariant -/

variable (adds) in
/-- What holds between the steps: the worker that holds the lock is the one inside, the length it
has read is still that of the list, and the list holds the workers that were added, each once. -/
structure Consistent (s : State W) : Prop where
  owner_iff : ∀ w, s.owner = some w ↔ (s.phase w).Inside
  inside_adds : ∀ w, (s.phase w).Inside → adds w = true
  length_eq : ∀ w length, s.phase w = .read length → length = s.collected.length
  nodup : s.collected.Nodup
  mem_iff : ∀ w, w ∈ s.collected ↔
    s.phase w = .written ∨ s.phase w = .finished ∧ adds w = true

variable (adds) in
omit [DecidableEq W] in
theorem consistent_initial : Consistent adds (initial W) where
  owner_iff := by simp [initial, Phase.Inside]
  inside_adds := by simp [initial, Phase.Inside]
  length_eq := by simp [initial]
  nodup := List.nodup_nil
  mem_iff := by simp [initial]

omit [DecidableEq W] in
/-- **Mutual exclusion.** Two workers inside are one. -/
theorem Consistent.eq_of_inside (hs : Consistent adds s) {v : W} (hw : (s.phase w).Inside)
    (hv : (s.phase v).Inside) : w = v := by
  have howner := ((hs.owner_iff w).mpr hw).symm.trans ((hs.owner_iff v).mpr hv)
  exact Option.some.inj howner

/-- A worker changes its phase, and the lock with it, while the list stays. -/
theorem Consistent.setPhase (hs : Consistent adds s) {phase : Phase} {owner : Option W}
    (hself : owner = some w ↔ phase.Inside)
    (hothers : ∀ v, v ≠ w → (owner = some v ↔ (s.phase v).Inside))
    (hadds : phase.Inside → adds w = true)
    (hlength : ∀ length, phase = .read length → length = s.collected.length)
    (hmem : w ∈ s.collected ↔ phase = .written ∨ phase = .finished ∧ adds w = true) :
    Consistent adds { s.setPhase w phase with owner := owner } := by
  refine ⟨fun v => ?_, fun v hv => ?_, fun v length hv => ?_, hs.nodup, fun v => ?_⟩
  all_goals by_cases hvw : v = w
  · subst hvw
    simpa using hself
  · simpa [hvw] using hothers v hvw
  · rw [hvw]
    exact hadds (by simpa [hvw] using hv)
  · exact hs.inside_adds v (by simpa [hvw] using hv)
  · exact hlength length (by simpa [hvw] using hv)
  · exact hs.length_eq v length (by simpa [hvw] using hv)
  · subst hvw
    simpa using hmem
  · simp [hs.mem_iff, hvw]

/-- A worker that has nothing to add finishes. -/
theorem Consistent.skip (hs : Consistent adds s) (hphase : s.phase w = .notStarted)
    (hadds : adds w = false) : Consistent adds (s.setPhase w .finished) := by
  refine hs.setPhase ?_ (fun v _ => hs.owner_iff v) (fun h => h.elim) (fun _ h => by cases h) ?_
  · rw [hs.owner_iff, hphase]
    rfl
  · simp [hs.mem_iff, hphase, hadds]

/-- The lock was free, so nobody else is inside. -/
theorem Consistent.acquire (hs : Consistent adds s) (hphase : s.phase w = .notStarted)
    (hadds : adds w = true) (hfree : s.owner = none) :
    Consistent adds { s.setPhase w .entered with owner := some w } := by
  refine hs.setPhase (by simp [Phase.Inside]) (fun v hvw => ?_) (fun _ => hadds)
    (fun _ h => by cases h) ?_
  · rw [← hs.owner_iff v, hfree]
    simp [Ne.symm hvw]
  · simp [hs.mem_iff, hphase]

/-- What is read is the length of the list. -/
theorem Consistent.read (hs : Consistent adds s) (hphase : s.phase w = .entered) :
    Consistent adds (s.setPhase w (.read s.collected.length)) := by
  have hinside : (s.phase w).Inside := by rw [hphase]; trivial
  refine hs.setPhase ?_ (fun v _ => hs.owner_iff v) (fun _ => hs.inside_adds w hinside)
    (fun length h => ?_) ?_
  · simpa [Phase.Inside] using (hs.owner_iff w).mpr hinside
  · cases h
    rfl
  · simp [hs.mem_iff, hphase]

/-- The length that was read is that of the list, so nothing is written over. -/
theorem Consistent.write (hs : Consistent adds s) {length : Nat} (hphase : s.phase w = .read length) :
    Consistent adds { s.setPhase w .written with collected := s.collected.take length ++ [w] } := by
  obtain rfl := hs.length_eq w length hphase
  have hinside : (s.phase w).Inside := by rw [hphase]; trivial
  have hnotin : w ∉ s.collected := by simp [hs.mem_iff, hphase]
  rw [List.take_length]
  refine ⟨fun v => ?_, fun v hv => ?_, fun v length hv => ?_, ?_, fun v => ?_⟩
  · by_cases hvw : v = w
    · subst hvw
      simpa [Phase.Inside] using (hs.owner_iff v).mpr hinside
    · simpa [hvw] using hs.owner_iff v
  · by_cases hvw : v = w
    · rw [hvw]
      exact hs.inside_adds w hinside
    · exact hs.inside_adds v (by simpa [hvw] using hv)
  · by_cases hvw : v = w
    · simp [hvw] at hv
    · -- a second worker cannot have read
      have hread : s.phase v = .read length := by simpa [hvw] using hv
      have hv' : (s.phase v).Inside := by rw [hread]; trivial
      exact absurd (hs.eq_of_inside hv' hinside) hvw
  · exact List.nodup_append.mpr ⟨hs.nodup, List.nodup_singleton w, by
      rintro v hv _ hw rfl
      obtain rfl := List.mem_singleton.mp hw
      exact hnotin hv⟩
  · rw [List.mem_append, List.mem_singleton, hs.mem_iff]
    by_cases hvw : v = w
    · simp [hvw]
    · simp [hvw]

/-- Nobody else was inside, so the lock is free. -/
theorem Consistent.release (hs : Consistent adds s) (hphase : s.phase w = .written) :
    Consistent adds { s.setPhase w .finished with owner := none } := by
  have hinside : (s.phase w).Inside := by rw [hphase]; trivial
  refine hs.setPhase (by simp [Phase.Inside]) (fun v hvw => ?_) (fun h => h.elim)
    (fun _ h => by cases h) ?_
  · have hout : ¬ (s.phase v).Inside := fun hv => hvw (hs.eq_of_inside hv hinside)
    simpa using hout
  · simp [hs.mem_iff, hphase, hs.inside_adds w hinside]

/-- Every step keeps the invariant. -/
theorem consistent_step (hs : Consistent adds s) (h : step adds s a = some t) :
    Consistent adds t := by
  obtain ⟨w, hphase, hadds, rfl⟩ | ⟨w, hphase, hadds, hfree, rfl⟩ | ⟨w, hphase, rfl⟩ |
    ⟨w, length, hphase, rfl⟩ | ⟨w, hphase, rfl⟩ := step_cases h
  · exact hs.skip hphase hadds
  · exact hs.acquire hphase hadds hfree
  · exact hs.read hphase
  · exact hs.write hphase
  · exact hs.release hphase

/-- The invariant holds after every run. -/
theorem consistent_run {labels : List (Step W)}
    (hrun : run (step adds) (initial W) labels = some s) : Consistent adds s :=
  run_invariant (fun _ _ _ => consistent_step) (consistent_initial adds) hrun

omit [DecidableEq W] in
/-- **Nothing is lost.** Once all have finished, the list holds exactly the workers that add
something, each once. -/
theorem collected_perm (hs : Consistent adds s) (hdone : s.Finished) {workers : List W}
    (hnd : workers.Nodup) (hall : ∀ w, w ∈ workers) :
    s.collected.Perm (workers.filter adds) := by
  refine (List.perm_ext_iff_of_nodup hs.nodup (hnd.filter _)).mpr fun w => ?_
  simp [hs.mem_iff, hdone w, hall w]

/-! ## Runs end -/

/-- **No deadlock.** Unless all have finished, some worker can go on. -/
theorem exists_step (hs : Consistent adds s) (hnot : ¬ s.Finished) :
    ∃ a t, step adds s a = some t := by
  cases howner : s.owner with
  | some w =>
    have hinside := (hs.owner_iff w).mp howner
    cases hphase : s.phase w with
    | notStarted => simp [hphase, Phase.Inside] at hinside
    | entered => exact ⟨.read w, _, if_pos hphase⟩
    | read length => exact ⟨.write w, _, by simp only [step, hphase]; rfl⟩
    | written => exact ⟨.release w, _, if_pos hphase⟩
    | finished => simp [hphase, Phase.Inside] at hinside
  | none =>
    obtain ⟨w, hw⟩ := not_forall.mp hnot
    have hout : ¬ (s.phase w).Inside := by simp [← hs.owner_iff, howner]
    have hphase : s.phase w = .notStarted := by
      cases hcases : s.phase w with
      | notStarted => rfl
      | finished => exact absurd hcases hw
      | entered => exact absurd (by rw [hcases]; trivial) hout
      | read length => exact absurd (by rw [hcases]; trivial) hout
      | written => exact absurd (by rw [hcases]; trivial) hout
    cases hadds : adds w with
    | false => exact ⟨.skip w, _, if_pos ⟨hphase, hadds⟩⟩
    | true => exact ⟨.acquire w, _, if_pos ⟨hphase, hadds, howner⟩⟩

variable [Fintype W]

/-- The steps that are left at most. -/
def State.remaining (s : State W) : Nat :=
  ∑ w, (s.phase w).remaining

/-- Every step leaves fewer. -/
theorem remaining_step (h : step adds s a = some t) : t.remaining < s.remaining := by
  have hupdate : ∀ {w : W} {phase : Phase}, phase.remaining < (s.phase w).remaining →
      ∑ v, (Function.update s.phase w phase v).remaining < s.remaining := by
    intro w phase hlt
    refine Finset.sum_lt_sum (fun v _ => ?_) ⟨w, Finset.mem_univ w, by simpa using hlt⟩
    by_cases hvw : v = w
    · subst hvw
      simpa using hlt.le
    · simp [hvw]
  obtain ⟨w, hphase, -, rfl⟩ | ⟨w, hphase, -, -, rfl⟩ | ⟨w, hphase, rfl⟩ |
    ⟨w, length, hphase, rfl⟩ | ⟨w, hphase, rfl⟩ := step_cases h
  all_goals exact hupdate (by simp [hphase, Phase.remaining])

/-- **Every run can be finished.** Going on while some worker can, all of them finish. -/
theorem exists_finished (hs : Consistent adds s) :
    ∃ labels t, run (step adds) s labels = some t ∧ t.Finished := by
  induction hn : s.remaining using Nat.strong_induction_on generalizing s with
  | _ n ih =>
    by_cases hdone : s.Finished
    · exact ⟨[], s, rfl, hdone⟩
    · obtain ⟨a, t, hstep⟩ := exists_step hs hdone
      have hlt := remaining_step hstep
      rw [hn] at hlt
      obtain ⟨labels, u, hrun, hfinished⟩ := ih _ hlt (consistent_step hs hstep) rfl
      exact ⟨a :: labels, u, run_cons_eq_some_iff.mpr ⟨t, hstep, hrun⟩, hfinished⟩

end LockedCollection

end IOSDeviceManager.General
