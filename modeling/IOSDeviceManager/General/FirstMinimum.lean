import Mathlib

/-! # The nested search for a first minimum

A loop goes through groups of values, each group under one item, and keeps the item of a value that
is less than all before it. It ends with the first item whose values attain the minimum, provided
some value is less than the initial bound. The order of the values within a group is irrelevant. -/

namespace IOSDeviceManager.General

variable {α κ : Type*} [LinearOrder κ]

/-- The best item so far, and its value. -/
@[ext] structure Best (α κ : Type*) where
  item : Option α
  value : κ
  deriving DecidableEq

/-- Keep the item if its value is strictly less. -/
def Best.offer (best : Best α κ) (x : α) (v : κ) : Best α κ :=
  if v < best.value then ⟨some x, v⟩ else best

/-- Offer all values of one item. -/
def Best.offerAll (best : Best α κ) (x : α) (vs : List κ) : Best α κ :=
  vs.foldl (fun best v => best.offer x v) best

/-- The whole search, from the bound `top`. -/
def searchMinimum (top : κ) (groups : List (α × List κ)) : Best α κ :=
  groups.foldl (fun best group => best.offerAll group.1 group.2) ⟨none, top⟩

/-- `x` is the first item one of whose values is the minimum `v` of all values. -/
structure IsFirstMinimum (groups : List (α × List κ)) (x : α) (v : κ) : Prop where
  least : ∀ group ∈ groups, ∀ w ∈ group.2, v ≤ w
  first : ∃ before vs after, groups = before ++ (x, vs) :: after ∧ v ∈ vs ∧
    ∀ group ∈ before, ∀ w ∈ group.2, v < w

/-! ## One group -/

/-- Offering the values of one item keeps the best, which is then at most all of them, or replaces
it by the least of them. -/
theorem Best.offerAll_cases (best : Best α κ) (x : α) (vs : List κ) :
    (best.offerAll x vs = best ∧ ∀ w ∈ vs, best.value ≤ w) ∨
      ∃ v ∈ vs, best.offerAll x vs = ⟨some x, v⟩ ∧ v < best.value ∧ ∀ w ∈ vs, v ≤ w := by
  induction vs generalizing best with
  | nil => exact .inl ⟨rfl, by simp⟩
  | cons v vs ih =>
    have hcons : best.offerAll x (v :: vs) = (best.offer x v).offerAll x vs := rfl
    rw [hcons]
    by_cases hv : v < best.value
    · have hoffer : best.offer x v = ⟨some x, v⟩ := if_pos hv
      rw [hoffer]
      right
      rcases ih ⟨some x, v⟩ with ⟨hsame, hle⟩ | ⟨w, hw, hbest, hlt, hle⟩
      · exact ⟨v, List.mem_cons_self, hsame, hv, List.forall_mem_cons.mpr ⟨le_rfl, hle⟩⟩
      · exact ⟨w, List.mem_cons_of_mem v hw, hbest, hlt.trans hv,
          List.forall_mem_cons.mpr ⟨hlt.le, hle⟩⟩
    · have hoffer : best.offer x v = best := if_neg hv
      rw [hoffer]
      rcases ih best with ⟨hsame, hle⟩ | ⟨w, hw, hbest, hlt, hle⟩
      · exact .inl ⟨hsame, List.forall_mem_cons.mpr ⟨not_lt.mp hv, hle⟩⟩
      · exact .inr ⟨w, List.mem_cons_of_mem v hw, hbest, hlt,
          List.forall_mem_cons.mpr ⟨hlt.le.trans (not_lt.mp hv), hle⟩⟩

/-- The order of the values of one item does not matter. -/
theorem Best.offerAll_of_perm (best : Best α κ) (x : α) {vs ws : List κ} (h : vs.Perm ws) :
    best.offerAll x vs = best.offerAll x ws := by
  have : RightCommutative fun (best : Best α κ) (v : κ) => best.offer x v := ⟨by
    intro best v w
    simp only [Best.offer]
    rcases lt_trichotomy v w with hlt | rfl | hlt
    · by_cases hw : w < best.value
      · simp [hw, hlt.trans hw, hlt, hlt.not_gt]
      · by_cases hv : v < best.value
        · simp [hw, hv, hlt.not_gt]
        · simp [hw, hv]
    · rfl
    · by_cases hv : v < best.value
      · simp [hv, hlt.trans hv, hlt, hlt.not_gt]
      · by_cases hw : w < best.value
        · simp [hw, hv, hlt.not_gt]
        · simp [hw, hv]⟩
  exact h.foldl_eq best

/-! ## All groups -/

/-- The search finds nothing exactly when no value is below the bound; else it finds the first
minimum. -/
theorem searchMinimum_cases (top : κ) (groups : List (α × List κ)) :
    (searchMinimum top groups = ⟨none, top⟩ ∧ ∀ group ∈ groups, ∀ w ∈ group.2, top ≤ w) ∨
      ∃ x v, searchMinimum top groups = ⟨some x, v⟩ ∧ v < top ∧ IsFirstMinimum groups x v := by
  induction groups using List.reverseRecOn with
  | nil => exact .inl ⟨rfl, by simp⟩
  | append_singleton groups group ih =>
    obtain ⟨y, vs⟩ := group
    have hsnoc : searchMinimum top (groups ++ [(y, vs)]) =
        (searchMinimum top groups).offerAll y vs := by
      simp [searchMinimum, List.foldl_append]
    rw [hsnoc]
    rcases ih with ⟨hnone, htop⟩ | ⟨x, v, hsome, hlt, hmin⟩
    · rw [hnone]
      rcases Best.offerAll_cases ⟨none, top⟩ y vs with ⟨hsame, hle⟩ | ⟨w, hw, hbest, hwtop, hle⟩
      · exact .inl ⟨hsame, List.forall_mem_append.mpr ⟨htop, by simpa using hle⟩⟩
      · refine .inr ⟨y, w, hbest, hwtop, ?_, groups, vs, [], rfl, hw, ?_⟩
        · exact List.forall_mem_append.mpr
            ⟨fun g hg u hu => hwtop.le.trans (htop g hg u hu), by simpa using hle⟩
        · exact fun g hg u hu => hwtop.trans_le (htop g hg u hu)
    · rw [hsome]
      rcases Best.offerAll_cases ⟨some x, v⟩ y vs with ⟨hsame, hle⟩ | ⟨w, hw, hbest, hwv, hle⟩
      · obtain ⟨before, us, after, rfl, hv, hbefore⟩ := hmin.first
        refine .inr ⟨x, v, hsame, hlt, ?_, before, us, after ++ [(y, vs)], by simp, hv, hbefore⟩
        exact List.forall_mem_append.mpr ⟨hmin.least, by simpa using hle⟩
      · refine .inr ⟨y, w, hbest, hwv.trans hlt, ?_, groups, vs, [], rfl, hw, ?_⟩
        · exact List.forall_mem_append.mpr
            ⟨fun g hg u hu => hwv.le.trans (hmin.least g hg u hu), by simpa using hle⟩
        · exact fun g hg u hu => hwv.trans_le (hmin.least g hg u hu)

end IOSDeviceManager.General
