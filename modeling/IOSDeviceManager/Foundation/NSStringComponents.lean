import IOSDeviceManager.Foundation.NSString

/-! # The components between occurrences of a string

`componentsSeparatedByString:` splits at the occurrences of the separator that are found from left
to right. A text that ends with the separator has two components exactly if the separator occurs
nowhere before. -/

namespace IOSDeviceManager

namespace NSString

/-- Scan of `componentsSeparatedByString:`; `skip` counts the characters of the separator matched
last that are still to be dropped. -/
def componentsFrom (separator : List Char) : Nat → List Char → List (List Char)
  | _, [] => [[]]
  | skip + 1, _ :: cs => componentsFrom separator skip cs
  | 0, c :: cs =>
      if separator.isPrefixOf (c :: cs) then
        [] :: componentsFrom separator (separator.length - 1) cs
      else (componentsFrom separator 0 cs).modifyHead (c :: ·)

/-- `-[NSString componentsSeparatedByString:]`, for a separator that is not empty. -/
def componentsSeparatedByString (s separator : String) : List String :=
  (componentsFrom separator.toList 0 s.toList).map String.ofList

variable {separator s : List Char}

/-- Characters to be skipped are dropped. -/
theorem componentsFrom_eq_drop (separator : List Char) (skip : Nat) (s : List Char) :
    componentsFrom separator skip s = componentsFrom separator 0 (s.drop skip) := by
  induction s generalizing skip with
  | nil => cases skip <;> rfl
  | cons c cs ih =>
    cases skip with
    | zero => rfl
    | succ skip => exact ih skip

/-- At a separator the first component is empty. -/
theorem componentsFrom_append_self (hne : separator ≠ []) (s : List Char) :
    componentsFrom separator 0 (separator ++ s) = [] :: componentsFrom separator 0 s := by
  obtain ⟨c, cs, rfl⟩ := List.exists_cons_of_ne_nil hne
  have hpre : (c :: cs).isPrefixOf (c :: cs ++ s) = true :=
    List.isPrefixOf_iff_prefix.mpr (List.prefix_append _ _)
  rw [List.cons_append] at hpre ⊢
  rw [componentsFrom, if_pos hpre, componentsFrom_eq_drop]
  simp

/-- A character at which the separator does not start belongs to the first component. -/
theorem componentsFrom_cons_of_mismatch {c : Char} {cs : List Char} (h : ¬ separator <+: c :: cs) :
    componentsFrom separator 0 (c :: cs) =
      (componentsFrom separator 0 cs).modifyHead (c :: ·) := by
  have hpre : ¬ separator.isPrefixOf (c :: cs) = true :=
    fun e => h (List.isPrefixOf_iff_prefix.mp e)
  rw [componentsFrom, if_neg hpre]

/-- There is a component. -/
theorem componentsFrom_ne_nil (separator : List Char) (skip : Nat) (s : List Char) :
    componentsFrom separator skip s ≠ [] := by
  fun_induction componentsFrom separator skip s with
  | case1 => exact List.cons_ne_nil _ _
  | case2 skip c cs ih => exact ih
  | case3 c cs hpre ih => exact List.cons_ne_nil _ _
  | case4 c cs hpre ih => simpa using ih

/-- A separator that does not start anew within itself is found behind a text without it. -/
theorem componentsFrom_append_of_not_infix {first : Char} {rest : List Char} (hfirst : first ∉ rest)
    (h : ¬ first :: rest <:+: s) :
    componentsFrom (first :: rest) 0 (s ++ first :: rest) = [s, []] := by
  induction s with
  | nil => simpa [componentsFrom] using componentsFrom_append_self (List.cons_ne_nil first rest) []
  | cons c cs ih =>
    rw [List.infix_cons_iff, not_or] at h
    have hmismatch : ¬ first :: rest <+: c :: (cs ++ first :: rest) := by
      intro hpre
      obtain ⟨rfl, hrest⟩ := List.cons_prefix_cons.mp hpre
      rcases List.prefix_or_prefix_of_prefix hrest (List.prefix_append cs _) with hcs | ⟨k, hk⟩
      · exact h.1 (List.cons_prefix_cons.mpr ⟨rfl, hcs⟩)
      · -- the separator would reach into its next occurrence
        rw [← hk, List.prefix_append_right_inj] at hrest
        cases k with
        | nil => exact h.1 (List.cons_prefix_cons.mpr ⟨rfl, by rw [← hk, List.append_nil]⟩)
        | cons d k =>
          obtain ⟨rfl, -⟩ := List.cons_prefix_cons.mp hrest
          exact hfirst (hk ▸ by simp)
    rw [List.cons_append, componentsFrom_cons_of_mismatch hmismatch, ih h.2]
    rfl

/-- With a separator there is a second component. -/
theorem one_lt_length_componentsFrom (hne : separator ≠ []) (h : separator <:+: s) :
    1 < (componentsFrom separator 0 s).length := by
  induction s with
  | nil => exact absurd (List.infix_nil.mp h) hne
  | cons c cs ih =>
    by_cases hpre : separator <+: c :: cs
    · obtain ⟨rest, hrest⟩ := hpre
      rw [← hrest, componentsFrom_append_self hne, List.length_cons]
      have hpos := List.length_pos_iff.mpr (componentsFrom_ne_nil separator 0 rest)
      omega
    · rw [componentsFrom_cons_of_mismatch hpre, List.length_modifyHead]
      exact ih ((List.infix_cons_iff.mp h).resolve_left hpre)

/-- Behind a text with the separator in it, a separator begins at least a third component. -/
theorem two_lt_length_componentsFrom (hne : separator ≠ []) (h : separator <:+: s) :
    2 < (componentsFrom separator 0 (s ++ separator)).length := by
  induction s with
  | nil => exact absurd (List.infix_nil.mp h) hne
  | cons c cs ih =>
    by_cases hpre : separator <+: c :: cs
    · obtain ⟨rest, hrest⟩ := hpre
      have hlast := one_lt_length_componentsFrom hne (List.suffix_append rest separator).isInfix
      rw [← hrest, List.append_assoc, componentsFrom_append_self hne, List.length_cons]
      omega
    · have hcs := (List.infix_cons_iff.mp h).resolve_left hpre
      have hmismatch : ¬ separator <+: c :: (cs ++ separator) := by
        intro hlong
        rw [← List.cons_append] at hlong
        refine hpre (List.prefix_of_prefix_length_le hlong (List.prefix_append _ _) ?_)
        exact hcs.length_le.trans (Nat.le_succ _)
      rw [List.cons_append, componentsFrom_cons_of_mismatch hmismatch, List.length_modifyHead]
      exact ih hcs

end NSString

end IOSDeviceManager
