import Mathlib.Data.List.Nodup

/-! # Lists without later occurrences

`List.eraseDups` keeps the first occurrence of each item. A search finds the same there as in the
whole list, and a filter leaves one item exactly if one item of the list, listed once or more often,
passes it. -/

namespace IOSDeviceManager.General

variable {α : Type*} {l : List α}

/-- A filter leaves a single item of a list without repetitions. -/
theorem filter_eq_singleton_iff {p : α → Bool} {a : α} (hnodup : l.Nodup) :
    l.filter p = [a] ↔ a ∈ l ∧ p a = true ∧ ∀ b ∈ l, p b = true → b = a := by
  constructor
  · intro h
    have hmem : ∀ b, b ∈ l ∧ p b = true ↔ b = a := by
      intro b
      rw [← List.mem_filter, h, List.mem_singleton]
    obtain ⟨ha, hpa⟩ := (hmem a).mpr rfl
    exact ⟨ha, hpa, fun b hb hpb => (hmem b).mp ⟨hb, hpb⟩⟩
  · rintro ⟨ha, hpa, hunique⟩
    have hperm : (l.filter p).Perm [a] := by
      refine (List.perm_ext_iff_of_nodup (hnodup.filter p) (List.nodup_singleton a)).mpr ?_
      intro b
      rw [List.mem_filter, List.mem_singleton]
      constructor
      · rintro ⟨hb, hpb⟩
        exact hunique b hb hpb
      · rintro rfl
        exact ⟨ha, hpa⟩
    exact List.perm_singleton.mp hperm

variable [BEq α]

/-- Fewer items are left when the occurrences of the first one are dropped. -/
theorem length_filter_bne_lt (a : α) (l : List α) :
    (l.filter fun b => !b == a).length < (a :: l).length := by
  rw [List.length_cons]
  exact Nat.lt_succ_of_le (List.length_filter_le _ l)

variable [LawfulBEq α]

/-- Each item is kept once. -/
theorem nodup_eraseDups (l : List α) : l.eraseDups.Nodup := by
  induction hlength : l.length using Nat.strongRecOn generalizing l with
  | _ n ih =>
    cases l with
    | nil => simp
    | cons a l =>
      rw [List.eraseDups_cons, List.nodup_cons]
      refine ⟨by simp, ih _ ?_ _ rfl⟩
      rw [← hlength]
      exact length_filter_bne_lt a l

/-- A search finds the same first item. -/
theorem find?_eraseDups (p : α → Bool) (l : List α) : l.eraseDups.find? p = l.find? p := by
  induction hlength : l.length using Nat.strongRecOn generalizing l with
  | _ n ih =>
    cases l with
    | nil => simp
    | cons a l =>
      rw [List.eraseDups_cons]
      cases hp : p a with
      | true => rw [List.find?_cons_of_pos hp, List.find?_cons_of_pos hp]
      | false =>
        -- what was erased did not pass either
        have hshort : (l.filter fun b => !b == a).length < n :=
          hlength ▸ length_filter_bne_lt a l
        have hne : ∀ b : α, (decide ((!b == a) = true ∧ p b = true)) = p b := by
          intro b
          by_cases hb : b = a
          · simp [hb, hp]
          · simp [hb]
        rw [List.find?_cons_of_neg (by simp [hp]), List.find?_cons_of_neg (by simp [hp]),
          ih _ hshort _ rfl, List.find?_filter]
        simp only [hne]

/-- A filter leaves a single item of the first occurrences. -/
theorem filter_eraseDups_eq_singleton_iff {p : α → Bool} {a : α} :
    l.eraseDups.filter p = [a] ↔ a ∈ l ∧ p a = true ∧ ∀ b ∈ l, p b = true → b = a := by
  simp only [filter_eq_singleton_iff (nodup_eraseDups l), List.mem_eraseDups]

end IOSDeviceManager.General
