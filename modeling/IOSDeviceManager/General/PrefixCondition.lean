import Mathlib.Data.List.Basic

/-! # Conditions on the members of a list and what precedes them

`AtEvery P l` says that every member of `l` stands in the relation `P` to the members before it. It
is what a loop checks that refuses at the first member that conflicts with its predecessors. -/

namespace IOSDeviceManager.General

variable {α β : Type*}

/-- Every member satisfies `P` with the list of the members before it. -/
def AtEvery (P : List α → α → Prop) (l : List α) : Prop :=
  ∀ before x after, l = before ++ x :: after → P before x

@[simp] theorem atEvery_nil (P : List α → α → Prop) : AtEvery P [] := by
  simp [AtEvery]

/-- The head has nothing before it; for the others the head comes first. -/
theorem atEvery_cons {P : List α → α → Prop} {x : α} {l : List α} :
    AtEvery P (x :: l) ↔ P [] x ∧ AtEvery (fun before => P (x :: before)) l := by
  constructor
  · exact fun h => ⟨h [] x l rfl, fun before y after hl => h (x :: before) y after (by simp [hl])⟩
  · rintro ⟨hhead, htail⟩ before y after hl
    rcases before with _ | ⟨z, before⟩
    · obtain ⟨rfl, -⟩ := List.cons.inj hl
      exact hhead
    · obtain ⟨rfl, hrest⟩ := List.cons.inj hl
      exact htail before y after hrest

/-- A filtered image has no duplicates exactly when no member maps to what an earlier one does. -/
theorem nodup_filterMap_iff (f : α → Option β) (l : List α) :
    (l.filterMap f).Nodup ↔
      AtEvery (fun before x => ∀ y ∈ f x, y ∉ before.filterMap f) l := by
  suffices h : ∀ seen : List α, (l.filterMap f).Nodup ∧
      (∀ y ∈ l.filterMap f, y ∉ seen.filterMap f) ↔
      AtEvery (fun before x => ∀ y ∈ f x, y ∉ (seen ++ before).filterMap f) l by
    simpa using h []
  induction l with
  | nil => simp
  | cons x l ih =>
    intro seen
    have htail := ih (seen ++ [x])
    simp only [List.append_assoc, List.singleton_append] at htail
    rw [atEvery_cons, ← htail, List.append_nil]
    rcases hx : f x with _ | y
    · simp [hx]
    · simp only [List.filterMap_cons_some hx, List.nodup_cons, List.mem_cons, forall_eq_or_imp,
        List.filterMap_append, List.filterMap_nil, List.mem_append, List.not_mem_nil, or_false,
        Option.mem_def, Option.some.injEq, forall_eq', not_or]
      constructor
      · rintro ⟨⟨hy, hnd⟩, hyseen, hseen⟩
        exact ⟨hyseen, hnd, fun z hz => ⟨hseen z hz, fun e => hy (e ▸ hz)⟩⟩
      · rintro ⟨hyseen, hnd, hall⟩
        exact ⟨⟨fun hy => (hall y hy).2 rfl, hnd⟩, hyseen, fun z hz => (hall z hz).1⟩

end IOSDeviceManager.General
