import Mathlib

/-! # Insertion into a list sorted by a key

An index is an insertion index of an element when everything before it has at most the element's key
and everything from it on at least that key. Inserting keeps a list sorted exactly when the list was
sorted and the index is one; no insertion ever repairs an unsorted list. -/

namespace IOSDeviceManager.General

variable {α κ : Type*} [LE κ]

/-- The list is sorted by ascending key. -/
def SortedBy (key : α → κ) (l : List α) : Prop :=
  l.Pairwise fun a b => key a ≤ key b

instance [DecidableLE κ] (key : α → κ) (l : List α) : Decidable (SortedBy key l) :=
  inferInstanceAs (Decidable (l.Pairwise fun a b => key a ≤ key b))

/-- `i` is an insertion index of `x` in `l`. -/
structure IsInsertionIndex (key : α → κ) (l : List α) (i : Nat) (x : α) : Prop where
  /-- The index lies within the list. -/
  le_length : i ≤ l.length
  /-- Everything before the index has at most the key of `x`. -/
  before : ∀ y ∈ l.take i, key y ≤ key x
  /-- Everything from the index on has at least the key of `x`. -/
  after : ∀ y ∈ l.drop i, key x ≤ key y

theorem isInsertionIndex_iff (key : α → κ) (l : List α) (i : Nat) (x : α) :
    IsInsertionIndex key l i x ↔
      i ≤ l.length ∧ (∀ y ∈ l.take i, key y ≤ key x) ∧ ∀ y ∈ l.drop i, key x ≤ key y :=
  ⟨fun h => ⟨h.le_length, h.before, h.after⟩, fun h => ⟨h.1, h.2.1, h.2.2⟩⟩

instance [DecidableLE κ] (key : α → κ) (l : List α) (i : Nat) (x : α) :
    Decidable (IsInsertionIndex key l i x) :=
  decidable_of_iff' _ (isInsertionIndex_iff key l i x)

@[simp] theorem sortedBy_nil (key : α → κ) : SortedBy key [] :=
  List.Pairwise.nil

/-- Sortedness only looks at the keys of the members. -/
theorem SortedBy.congr {key key' : α → κ} {l : List α} (h : ∀ x ∈ l, key x = key' x) :
    SortedBy key l ↔ SortedBy key' l := by
  simp only [SortedBy]
  exact List.Pairwise.iff_of_mem fun {a b} ha hb => by rw [h a ha, h b hb]

/-- Within bounds, inserting splits the list at the index. -/
theorem insertIdx_eq_take_append_cons_drop {l : List α} {i : Nat} (h : i ≤ l.length) (x : α) :
    l.insertIdx i x = l.take i ++ x :: l.drop i := by
  induction l generalizing i with
  | nil =>
    obtain rfl : i = 0 := by simpa using h
    rfl
  | cons a l ih =>
    cases i with
    | zero => rfl
    | succ i => simp [List.insertIdx_succ_cons, ih (by simpa using h)]

/-- **Insertion and sortedness.** Within bounds, the list with `x` inserted is sorted exactly when
the list is sorted and the index is an insertion index of `x`. -/
theorem sortedBy_insertIdx_iff (key : α → κ) {l : List α} {i : Nat} (h : i ≤ l.length) (x : α) :
    SortedBy key (l.insertIdx i x) ↔ SortedBy key l ∧ IsInsertionIndex key l i x := by
  have hsplit : SortedBy key l ↔ SortedBy key (l.take i) ∧ SortedBy key (l.drop i) ∧
      ∀ a ∈ l.take i, ∀ b ∈ l.drop i, key a ≤ key b := by
    conv_lhs => rw [← List.take_append_drop i l]
    exact List.pairwise_append
  rw [insertIdx_eq_take_append_cons_drop h, isInsertionIndex_iff, hsplit]
  simp only [SortedBy, List.pairwise_append, List.pairwise_cons, List.mem_cons,
    forall_eq_or_imp]
  constructor
  · rintro ⟨htake, ⟨hafter, hdrop⟩, hcross⟩
    exact ⟨⟨htake, hdrop, fun a ha => (hcross a ha).2⟩, h, fun a ha => (hcross a ha).1, hafter⟩
  · rintro ⟨⟨htake, hdrop, hcross⟩, -, hbefore, hafter⟩
    exact ⟨htake, ⟨hafter, hdrop⟩, fun a ha => ⟨hbefore a ha, hcross a ha⟩⟩

/-- The head of a sorted list has the least key. -/
theorem SortedBy.head_le {κ : Type*} [Preorder κ] {key : α → κ} {x : α} {l : List α}
    (h : SortedBy key (x :: l)) : ∀ y ∈ x :: l, key x ≤ key y := by
  intro y hy
  rcases List.mem_cons.mp hy with rfl | hy
  · exact le_rfl
  · exact List.rel_of_pairwise_cons h hy

/-- A sorted list has an insertion index for every element. -/
theorem SortedBy.exists_isInsertionIndex {κ : Type*} [LinearOrder κ] {key : α → κ} {l : List α}
    (h : SortedBy key l) (x : α) : ∃ i, IsInsertionIndex key l i x := by
  induction l with
  | nil => exact ⟨0, Nat.le_refl 0, by simp, by simp⟩
  | cons a l ih =>
    obtain ⟨hhead, htail⟩ := List.pairwise_cons.mp h
    rcases le_or_gt (key a) (key x) with hle | hlt
    · obtain ⟨i, hi, hbefore, hafter⟩ := ih htail
      refine ⟨i + 1, Nat.succ_le_succ hi, ?_, by simpa using hafter⟩
      simpa [List.take_succ_cons] using ⟨hle, hbefore⟩
    · refine ⟨0, Nat.zero_le _, by simp, fun y hy => ?_⟩
      exact hlt.le.trans (SortedBy.head_le h y (by simpa using hy))

end IOSDeviceManager.General
