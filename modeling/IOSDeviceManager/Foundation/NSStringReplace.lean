import IOSDeviceManager.Foundation.NSString

/-! # Removing every occurrence of a string

What is left when `replace:with:` replaces by the empty string: the text itself where the target
does not occur, something shorter where it does, and a single trailing character exactly when the
rest of the text is a row of copies of the target. -/

namespace IOSDeviceManager

namespace NSString

variable {target replacement s : List Char}

/-- Characters to be skipped are dropped. -/
theorem replaceFrom_eq_drop (target replacement : List Char) (skip : Nat) (s : List Char) :
    replaceFrom target replacement skip s = replaceFrom target replacement 0 (s.drop skip) := by
  induction s generalizing skip with
  | nil => cases skip <;> rfl
  | cons c cs ih =>
    cases skip with
    | zero => rfl
    | succ skip => exact ih skip

/-- An occurrence at the front gives way to the replacement. -/
theorem replaceFrom_append_self (htarget : target ≠ []) (replacement s : List Char) :
    replaceFrom target replacement 0 (target ++ s) =
      replacement ++ replaceFrom target replacement 0 s := by
  obtain ⟨c, cs, rfl⟩ := List.exists_cons_of_ne_nil htarget
  have hpre : (c :: cs).isPrefixOf (c :: cs ++ s) = true :=
    List.isPrefixOf_iff_prefix.mpr (List.prefix_append _ _)
  rw [List.cons_append] at hpre ⊢
  rw [replaceFrom, if_pos hpre, replaceFrom_eq_drop]
  simp

/-- A character at which the target does not start stays. -/
theorem replaceFrom_cons_of_mismatch {c : Char} {cs : List Char} (h : ¬ target <+: c :: cs) :
    replaceFrom target replacement 0 (c :: cs) = c :: replaceFrom target replacement 0 cs := by
  have hpre : ¬ target.isPrefixOf (c :: cs) = true := fun e => h (List.isPrefixOf_iff_prefix.mp e)
  rw [replaceFrom, if_neg hpre]

/-- A text without an occurrence stays. -/
theorem replaceFrom_of_not_infix (h : ¬ target <:+: s) :
    replaceFrom target replacement 0 s = s := by
  induction s with
  | nil => rfl
  | cons c cs ih =>
    rw [List.infix_cons_iff, not_or] at h
    rw [replaceFrom_cons_of_mismatch h.1, ih h.2]

/-- Characters of which none is in the target are passed over. -/
theorem replaceFrom_append_of_disjoint (htarget : target ≠ []) {seg : List Char}
    (hseg : ∀ c ∈ seg, c ∉ target) (s : List Char) :
    replaceFrom target replacement 0 (seg ++ s) =
      seg ++ replaceFrom target replacement 0 s := by
  induction seg with
  | nil => rfl
  | cons c seg ih =>
    rw [List.forall_mem_cons] at hseg
    have hmismatch : ¬ target <+: c :: (seg ++ s) := by
      intro hpre
      rcases List.prefix_cons_iff.mp hpre with hnil | ⟨rest, rfl, -⟩
      · exact htarget hnil
      · exact hseg.1 List.mem_cons_self
    rw [List.cons_append, replaceFrom_cons_of_mismatch hmismatch, ih hseg.2, List.cons_append]

/-- No occurrence reaches over a character that is not in the target. -/
theorem replaceFrom_append_cons (htarget : target ≠ []) {x : Char} (hx : x ∉ target)
    (text s : List Char) : replaceFrom target replacement 0 (text ++ x :: s) =
      replaceFrom target replacement 0 text ++ replaceFrom target replacement 0 (x :: s) := by
  induction hlen : text.length using Nat.strong_induction_on generalizing text with
  | _ n ih =>
    by_cases hpre : target <+: text
    · obtain ⟨rest, rfl⟩ := hpre
      have hpos : 0 < target.length := List.length_pos_iff.mpr htarget
      have hshort : rest.length < n := by
        rw [List.length_append] at hlen
        omega
      rw [List.append_assoc, replaceFrom_append_self htarget, replaceFrom_append_self htarget,
        ih rest.length hshort rest rfl, List.append_assoc]
    · rcases text with _ | ⟨c, rest⟩
      · rfl
      · have hmismatch : ¬ target <+: c :: (rest ++ x :: s) := by
          intro hlong
          have hlonger : (c :: rest) ++ [x] <+: c :: (rest ++ x :: s) :=
            ⟨s, by rw [List.append_assoc, List.singleton_append, List.cons_append]⟩
          -- the occurrence would end before the character
          rcases List.prefix_or_prefix_of_prefix hlong hlonger with h | h
          · rcases List.prefix_concat_iff.mp h with heq | hshort
            · exact hx (heq ▸ List.mem_append_right _ List.mem_cons_self)
            · exact hpre hshort
          · exact hx (h.subset (List.mem_append_right _ List.mem_cons_self))
        rw [List.length_cons] at hlen
        rw [List.cons_append, replaceFrom_cons_of_mismatch hmismatch,
          replaceFrom_cons_of_mismatch hpre, ih rest.length (by omega) rest rfl,
          List.cons_append]

/-- The characters of the result. -/
theorem mem_of_mem_replaceFrom {skip : Nat} {c : Char}
    (h : c ∈ replaceFrom target replacement skip s) : c ∈ s ∨ c ∈ replacement := by
  induction s generalizing skip with
  | nil => cases skip <;> simp [replaceFrom] at h
  | cons x xs ih =>
    cases skip with
    | succ skip => exact (ih h).imp (List.mem_cons_of_mem x) id
    | zero =>
      rw [replaceFrom] at h
      split at h
      · rcases List.mem_append.mp h with hreplacement | hrest
        · exact .inr hreplacement
        · exact (ih hrest).imp (List.mem_cons_of_mem x) id
      · rcases List.mem_cons.mp h with rfl | hrest
        · exact .inl List.mem_cons_self
        · exact (ih hrest).imp (List.mem_cons_of_mem x) id

/-- Removing never lengthens. -/
theorem length_replaceFrom_nil_le (target : List Char) (skip : Nat) (s : List Char) :
    (replaceFrom target [] skip s).length ≤ s.length := by
  induction s generalizing skip with
  | nil => cases skip <;> simp [replaceFrom]
  | cons c cs ih =>
    rw [List.length_cons]
    cases skip with
    | succ skip => exact (ih skip).trans (Nat.le_succ _)
    | zero =>
      rw [replaceFrom]
      split
      · exact (ih _).trans (Nat.le_succ _)
      · rw [List.length_cons]
        exact Nat.succ_le_succ (ih 0)

/-- Removing an occurrence shortens. -/
theorem length_replaceFrom_nil_lt (htarget : target ≠ []) (h : target <:+: s) :
    (replaceFrom target [] 0 s).length < s.length := by
  induction s with
  | nil => exact absurd (List.eq_nil_of_infix_nil h) htarget
  | cons c cs ih =>
    by_cases hpre : target <+: c :: cs
    · rw [replaceFrom, if_pos (List.isPrefixOf_iff_prefix.mpr hpre), List.nil_append,
        List.length_cons]
      exact Nat.lt_succ_of_le (length_replaceFrom_nil_le target _ cs)
    · have htail : target <:+: cs := (List.infix_cons_iff.mp h).resolve_left hpre
      rw [replaceFrom_cons_of_mismatch hpre, List.length_cons, List.length_cons]
      exact Nat.succ_lt_succ (ih htail)

/-- Removing leaves a text alone exactly when the target does not occur in it. -/
theorem replaceFrom_nil_eq_self_iff (htarget : target ≠ []) :
    replaceFrom target [] 0 s = s ↔ ¬ target <:+: s := by
  refine ⟨fun hself hinfix => ?_, replaceFrom_of_not_infix⟩
  have hlt := length_replaceFrom_nil_lt htarget hinfix
  rw [hself] at hlt
  exact Nat.lt_irrefl _ hlt

/-- A row of copies of the target is removed. -/
theorem replaceFrom_nil_copies (htarget : target ≠ []) (k : Nat) (s : List Char) :
    replaceFrom target [] 0 ((List.replicate k target).flatten ++ s) =
      replaceFrom target [] 0 s := by
  induction k with
  | zero => rfl
  | succ k ih =>
    rw [List.replicate_succ, List.flatten_cons, List.append_assoc,
      replaceFrom_append_self htarget, List.nil_append, ih]

/-- Of a text that ends in a character that occurs nowhere else in it, and not at the end of the
target, that character alone is left exactly when the rest is a row of copies of the target. -/
theorem replaceFrom_nil_eq_singleton_iff {c : Char} (htarget : target ≠ [])
    (hend : ¬ [c] <:+ target) (hs : c ∉ s) :
    replaceFrom target [] 0 (s ++ [c]) = [c] ↔ ∃ k, s = (List.replicate k target).flatten := by
  constructor
  · intro hleft
    induction hlen : s.length using Nat.strong_induction_on generalizing s with
    | _ n ih =>
      by_cases hpre : target <+: s ++ [c]
      · rcases List.prefix_concat_iff.mp hpre with rfl | ⟨rest, rfl⟩
        · exact absurd (List.suffix_append s [c]) hend
        · -- the occurrence at the front is the last copy of the row
          rw [List.append_assoc, replaceFrom_append_self htarget, List.nil_append] at hleft
          have hpos : 0 < target.length := List.length_pos_iff.mpr htarget
          have hshort : rest.length < n := by
            rw [List.length_append] at hlen
            omega
          obtain ⟨k, rfl⟩ := ih rest.length hshort
            (fun h => hs (List.mem_append_right target h)) hleft rfl
          exact ⟨k + 1, by rw [List.replicate_succ, List.flatten_cons]⟩
      · rcases s with _ | ⟨x, xs⟩
        · exact ⟨0, rfl⟩
        · -- a character that stays would be the one that is left
          rw [List.cons_append] at hpre hleft
          rw [replaceFrom_cons_of_mismatch hpre] at hleft
          obtain rfl : x = c := (List.cons.inj hleft).1
          exact absurd List.mem_cons_self hs
  · rintro ⟨k, rfl⟩
    have hpre : ¬ target <+: [c] := by
      intro hpre
      have hconcat : target <+: [] ++ [c] := hpre
      rcases List.prefix_concat_iff.mp hconcat with rfl | hnil
      · exact hend (List.suffix_refl _)
      · exact htarget (List.prefix_nil.mp hnil)
    rw [replaceFrom_nil_copies htarget, replaceFrom_cons_of_mismatch hpre]
    rfl

/-- What removing leaves are characters of the text. -/
theorem mem_of_mem_replaceFrom_nil {skip : Nat} {c : Char}
    (h : c ∈ replaceFrom target [] skip s) : c ∈ s := by
  induction s generalizing skip with
  | nil => cases skip <;> simp [replaceFrom] at h
  | cons x xs ih =>
    cases skip with
    | succ skip => exact List.mem_cons_of_mem x (ih h)
    | zero =>
      rw [replaceFrom] at h
      split at h
      · exact List.mem_cons_of_mem x (ih h)
      · rcases List.mem_cons.mp h with rfl | hmem
        · exact List.mem_cons_self
        · exact List.mem_cons_of_mem x (ih hmem)

end NSString

end IOSDeviceManager
