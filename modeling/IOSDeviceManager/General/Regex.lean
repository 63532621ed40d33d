import Mathlib.Data.List.Basic

/-! # Regular expressions with backtracking

Regular expressions over the places of a text, with bounded and unbounded repetition and with
assertions on what stands around a place. The matcher lists the places at which a match can end, as
often repeated as possible first, the order in which a backtracking engine tries them. -/

namespace IOSDeviceManager.General

/-- A place in a text: what is before it, the nearest first, and what is after it. -/
@[ext] structure Place (α : Type*) where
  before : List α
  after : List α

variable {α β : Type*}

/-- From one place on to a later one, over a part of the text. -/
def Place.Over (w : List α) (p q : Place α) : Prop :=
  p.after = w ++ q.after ∧ q.before = w.reverse ++ p.before

namespace Place

theorem over_nil_iff {p q : Place α} : Over [] p q ↔ q = p := by
  rw [Over, Place.ext_iff, List.nil_append, List.reverse_nil, List.nil_append]
  exact ⟨fun h => ⟨h.2, h.1.symm⟩, fun h => ⟨h.2.symm, h.1⟩⟩

theorem Over.append {w w' : List α} {p q m : Place α} (h : Over w p m) (h' : Over w' m q) :
    Over (w ++ w') p q := by
  refine ⟨?_, ?_⟩
  · rw [h.1, h'.1, List.append_assoc]
  · rw [h'.2, h.2, List.reverse_append, List.append_assoc]

/-- A part that consists of two leads over the place between them. -/
theorem over_append_iff {w w' : List α} {p q : Place α} :
    Over (w ++ w') p q ↔ ∃ m, Over w p m ∧ Over w' m q := by
  refine ⟨fun h => ⟨⟨w.reverse ++ p.before, w' ++ q.after⟩, ⟨?_, rfl⟩, rfl, ?_⟩,
    fun ⟨m, h, h'⟩ => h.append h'⟩
  · rw [h.1, List.append_assoc]
  · rw [h.2, List.reverse_append, List.append_assoc]

end Place

/-- A regular expression. -/
inductive Regex (α : Type*) where
  /-- One character of a class. -/
  | char (p : α → Bool)
  /-- A condition on the place, over no part of the text: an anchor or a look-around. -/
  | assert (p : Place α → Bool)
  /-- One after the other. -/
  | seq (r r' : Regex α)
  /-- At least so often, and at most so often if there is a bound. -/
  | repeated (r : Regex α) (least : ℕ) (most : Option ℕ)

namespace Regex

/-! ## The matcher -/

/-- Up to so many steps, as many as possible first. -/
def optionalSteps (step : β → List β) : ℕ → β → List β
  | 0, p => [p]
  | n + 1, p => (step p).flatMap (optionalSteps step n) ++ [p]

/-- So many steps, and then what follows. -/
def requiredSteps (step rest : β → List β) : ℕ → β → List β
  | 0, p => rest p
  | n + 1, p => (step p).flatMap (requiredSteps step rest n)

/-- The places at which a match that starts at a place can end. Without a bound a repetition goes on
at most as often as there are characters left. -/
def run : Regex α → Place α → List (Place α)
  | char c, p =>
      match p.after with
      | [] => []
      | x :: after => if c x then [⟨x :: p.before, after⟩] else []
  | assert c, p => if c p then [p] else []
  | seq r r', p => (run r p).flatMap (run r')
  | repeated r least most, p =>
      requiredSteps (run r)
        (fun p => optionalSteps (run r) (most.elim p.after.length (· - least)) p) least p

/-- The whole text is a match. -/
def matchesAll (r : Regex α) (text : List α) : Bool :=
  (r.run ⟨[], text⟩).any fun p => p.after.isEmpty

/-! ## One expression -/

theorem mem_run_char {c : α → Bool} {p q : Place α} :
    q ∈ (char c).run p ↔ ∃ x, c x = true ∧ Place.Over [x] p q := by
  obtain ⟨before, after⟩ := p
  obtain ⟨before', after'⟩ := q
  cases after with
  | nil => simp [run, Place.Over]
  | cons x after =>
    show (⟨before', after'⟩ : Place α) ∈ (if c x then [⟨x :: before, after⟩] else []) ↔ _
    split
    · rename_i hx
      rw [List.mem_singleton, Place.mk.injEq]
      constructor
      · rintro ⟨rfl, rfl⟩
        exact ⟨x, hx, rfl, rfl⟩
      · rintro ⟨y, -, hafter, hbefore⟩
        obtain ⟨rfl, rfl⟩ := List.cons.inj hafter
        exact ⟨hbefore, rfl⟩
    · rename_i hx
      refine iff_of_false List.not_mem_nil ?_
      rintro ⟨y, hy, hafter, -⟩
      obtain ⟨rfl, -⟩ := List.cons.inj hafter
      exact hx hy

theorem mem_run_assert {c : Place α → Bool} {p q : Place α} :
    q ∈ (assert c).run p ↔ c p = true ∧ q = p := by
  rw [run]
  split <;> simp [*]

theorem mem_run_seq {r r' : Regex α} {p q : Place α} :
    q ∈ (seq r r').run p ↔ ∃ m ∈ r.run p, q ∈ r'.run m := by
  rw [run, List.mem_flatMap]

/-! ## Repetition -/

/-- So many steps lead from one element to another. -/
def Steps (step : β → List β) : ℕ → β → β → Prop
  | 0, p, q => q = p
  | n + 1, p, q => ∃ m ∈ step p, Steps step n m q

theorem mem_optionalSteps {step : β → List β} {n : ℕ} {p q : β} :
    q ∈ optionalSteps step n p ↔ ∃ k ≤ n, Steps step k p q := by
  induction n generalizing p with
  | zero => simp [optionalSteps, Steps]
  | succ n ih =>
    rw [optionalSteps, List.mem_append, List.mem_flatMap, List.mem_singleton]
    constructor
    · rintro (⟨m, hm, hq⟩ | rfl)
      · obtain ⟨k, hk, hsteps⟩ := ih.mp hq
        exact ⟨k + 1, by omega, m, hm, hsteps⟩
      · exact ⟨0, Nat.zero_le _, rfl⟩
    · rintro ⟨k, hk, hsteps⟩
      cases k with
      | zero => exact .inr hsteps
      | succ k =>
        obtain ⟨m, hm, hsteps⟩ := hsteps
        exact .inl ⟨m, hm, ih.mpr ⟨k, by omega, hsteps⟩⟩

theorem mem_requiredSteps {step rest : β → List β} {n : ℕ} {p q : β} :
    q ∈ requiredSteps step rest n p ↔ ∃ m, Steps step n p m ∧ q ∈ rest m := by
  induction n generalizing p with
  | zero => simp [requiredSteps, Steps]
  | succ n ih =>
    rw [requiredSteps, List.mem_flatMap]
    constructor
    · rintro ⟨m, hm, hq⟩
      obtain ⟨m', hsteps, hrest⟩ := ih.mp hq
      exact ⟨m', ⟨m, hm, hsteps⟩, hrest⟩
    · rintro ⟨m', ⟨m, hm, hsteps⟩, hrest⟩
      exact ⟨m, hm, ih.mpr ⟨m', hsteps, hrest⟩⟩

theorem steps_add {step : β → List β} {n k : ℕ} {p q : β} :
    Steps step (n + k) p q ↔ ∃ m, Steps step n p m ∧ Steps step k m q := by
  induction n generalizing p with
  | zero => simp [Steps]
  | succ n ih =>
    rw [Nat.succ_add]
    constructor
    · rintro ⟨m, hm, hsteps⟩
      obtain ⟨m', hfirst, hrest⟩ := ih.mp hsteps
      exact ⟨m', ⟨m, hm, hfirst⟩, hrest⟩
    · rintro ⟨m', ⟨m, hm, hfirst⟩, hrest⟩
      exact ⟨m, hm, ih.mpr ⟨m', hfirst, hrest⟩⟩

/-- **A bounded repetition.** -/
theorem mem_run_repeated_some {r : Regex α} {least most : ℕ} (h : least ≤ most)
    {p q : Place α} :
    q ∈ (repeated r least (some most)).run p ↔
      ∃ n, least ≤ n ∧ n ≤ most ∧ Steps r.run n p q := by
  rw [run, mem_requiredSteps]
  simp only [Option.elim_some, mem_optionalSteps]
  constructor
  · rintro ⟨m, hfirst, k, hk, hrest⟩
    exact ⟨least + k, by omega, by omega, steps_add.mpr ⟨m, hfirst, hrest⟩⟩
  · rintro ⟨n, hleast, hmost, hsteps⟩
    obtain ⟨k, rfl⟩ := Nat.exists_eq_add_of_le hleast
    obtain ⟨m, hfirst, hrest⟩ := steps_add.mp hsteps
    exact ⟨m, hfirst, k, by omega, hrest⟩

/-- A match is over a part of the text. -/
theorem exists_over_of_mem_run {r : Regex α} {p q : Place α} (h : q ∈ r.run p) :
    ∃ w, Place.Over w p q := by
  have hsteps : ∀ {r : Regex α}, (∀ {p q}, q ∈ r.run p → ∃ w, Place.Over w p q) →
      ∀ {n p q}, Steps r.run n p q → ∃ w, Place.Over w p q := by
    intro r hr n
    induction n with
    | zero => exact fun h => ⟨[], Place.over_nil_iff.mpr h⟩
    | succ n ih =>
      rintro p q ⟨m, hm, hrest⟩
      obtain ⟨w, hw⟩ := hr hm
      obtain ⟨w', hw'⟩ := ih hrest
      exact ⟨w ++ w', hw.append hw'⟩
  induction r generalizing p q with
  | char c =>
    obtain ⟨x, -, hx⟩ := mem_run_char.mp h
    exact ⟨[x], hx⟩
  | assert c => exact ⟨[], Place.over_nil_iff.mpr (mem_run_assert.mp h).2⟩
  | seq r r' ih ih' =>
    obtain ⟨m, hm, hq⟩ := mem_run_seq.mp h
    obtain ⟨w, hw⟩ := ih hm
    obtain ⟨w', hw'⟩ := ih' hq
    exact ⟨w ++ w', hw.append hw'⟩
  | repeated r least most ih =>
    rw [run, mem_requiredSteps] at h
    obtain ⟨m, hfirst, hrest⟩ := h
    obtain ⟨k, -, hrest⟩ := mem_optionalSteps.mp hrest
    exact hsteps ih (steps_add.mpr ⟨m, hfirst, hrest⟩)

/-- Steps over nothing can be left out, and of the others there are no more than characters. -/
theorem Steps.exists_le {r : Regex α} {n : ℕ} {p q : Place α}
    (h : Steps r.run n p q) : ∃ k ≤ p.after.length, Steps r.run k p q := by
  induction n generalizing p with
  | zero => exact ⟨0, Nat.zero_le _, h⟩
  | succ n ih =>
    obtain ⟨m, hm, hrest⟩ := h
    obtain ⟨k, hk, hsteps⟩ := ih hrest
    obtain ⟨w, hw⟩ := exists_over_of_mem_run hm
    cases w with
    | nil =>
      obtain rfl := Place.over_nil_iff.mp hw
      exact ⟨k, hk, hsteps⟩
    | cons x w =>
      refine ⟨k + 1, ?_, m, hm, hsteps⟩
      rw [hw.1, List.length_append, List.length_cons]
      omega

/-- **An unbounded repetition.** -/
theorem mem_run_repeated_none {r : Regex α} {least : ℕ} {p q : Place α} :
    q ∈ (repeated r least none).run p ↔ ∃ n, least ≤ n ∧ Steps r.run n p q := by
  rw [run, mem_requiredSteps]
  simp only [Option.elim_none, mem_optionalSteps]
  constructor
  · rintro ⟨m, hfirst, k, -, hrest⟩
    exact ⟨least + k, by omega, steps_add.mpr ⟨m, hfirst, hrest⟩⟩
  · rintro ⟨n, hleast, hsteps⟩
    obtain ⟨k, rfl⟩ := Nat.exists_eq_add_of_le hleast
    obtain ⟨m, hfirst, hrest⟩ := steps_add.mp hsteps
    exact ⟨m, hfirst, hrest.exists_le⟩

/-- Steps over one character each. -/
theorem steps_char {c : α → Bool} {n : ℕ} {p q : Place α} :
    Steps (char c).run n p q ↔
      ∃ w, w.length = n ∧ (∀ x ∈ w, c x = true) ∧ Place.Over w p q := by
  induction n generalizing p with
  | zero =>
    constructor
    · rintro rfl
      exact ⟨[], rfl, fun _ h => absurd h List.not_mem_nil, Place.over_nil_iff.mpr rfl⟩
    · rintro ⟨w, hw, -, hover⟩
      obtain rfl := List.length_eq_zero_iff.mp hw
      exact Place.over_nil_iff.mp hover
  | succ n ih =>
    constructor
    · rintro ⟨m, hm, hsteps⟩
      obtain ⟨x, hx, hover⟩ := mem_run_char.mp hm
      obtain ⟨w, hw, hall, hrest⟩ := ih.mp hsteps
      exact ⟨x :: w, by rw [List.length_cons, hw], List.forall_mem_cons.mpr ⟨hx, hall⟩,
        hover.append hrest⟩
    · rintro ⟨w, hw, hall, hover⟩
      obtain ⟨x, w, rfl⟩ := List.exists_cons_of_length_eq_add_one hw
      rw [List.forall_mem_cons] at hall
      obtain ⟨m, hfirst, hrest⟩ := (Place.over_append_iff (w := [x])).mp hover
      exact ⟨m, mem_run_char.mpr ⟨x, hall.1, hfirst⟩,
        ih.mpr ⟨w, by simpa using hw, hall.2, hrest⟩⟩

/-- From one to so many characters of a class. -/
theorem mem_run_repeated_char {c : α → Bool} {least most : ℕ} (h : least ≤ most) {p q : Place α} :
    q ∈ (repeated (char c) least (some most)).run p ↔
      ∃ w, (least ≤ w.length ∧ w.length ≤ most) ∧ (∀ x ∈ w, c x = true) ∧ Place.Over w p q := by
  rw [mem_run_repeated_some h]
  constructor
  · rintro ⟨n, hleast, hmost, hsteps⟩
    obtain ⟨w, rfl, hall, hover⟩ := steps_char.mp hsteps
    exact ⟨w, ⟨hleast, hmost⟩, hall, hover⟩
  · rintro ⟨w, ⟨hleast, hmost⟩, hall, hover⟩
    exact ⟨w.length, hleast, hmost, steps_char.mpr ⟨w, rfl, hall, hover⟩⟩

/-- Steps that each are over a part of one kind are over such parts in a row. -/
theorem steps_over {r : Regex α} {Part : List α → Prop}
    (hr : ∀ p q, q ∈ r.run p ↔ ∃ w, Part w ∧ Place.Over w p q) {n : ℕ} {p q : Place α} :
    Steps r.run n p q ↔
      ∃ parts : List (List α), parts.length = n ∧ (∀ w ∈ parts, Part w) ∧
        Place.Over parts.flatten p q := by
  induction n generalizing p with
  | zero =>
    constructor
    · rintro rfl
      exact ⟨[], rfl, fun _ h => absurd h List.not_mem_nil, Place.over_nil_iff.mpr rfl⟩
    · rintro ⟨parts, hparts, -, hover⟩
      obtain rfl := List.length_eq_zero_iff.mp hparts
      exact Place.over_nil_iff.mp hover
  | succ n ih =>
    constructor
    · rintro ⟨m, hm, hsteps⟩
      obtain ⟨w, hw, hover⟩ := (hr p m).mp hm
      obtain ⟨parts, hparts, hall, hrest⟩ := ih.mp hsteps
      exact ⟨w :: parts, by rw [List.length_cons, hparts],
        List.forall_mem_cons.mpr ⟨hw, hall⟩, hover.append hrest⟩
    · rintro ⟨parts, hparts, hall, hover⟩
      obtain ⟨w, parts, rfl⟩ := List.exists_cons_of_length_eq_add_one hparts
      rw [List.forall_mem_cons] at hall
      obtain ⟨m, hfirst, hrest⟩ := Place.over_append_iff.mp hover
      exact ⟨m, (hr p m).mpr ⟨w, hall.1, hfirst⟩,
        ih.mpr ⟨parts, by simpa using hparts, hall.2, hrest⟩⟩

/-- The whole text is a match if one match ends where nothing is left. -/
theorem matchesAll_iff {r : Regex α} {text : List α} :
    r.matchesAll text = true ↔ ∃ q ∈ r.run ⟨[], text⟩, q.after = [] := by
  rw [matchesAll, List.any_eq_true]
  simp only [List.isEmpty_iff]

end Regex

end IOSDeviceManager.General
