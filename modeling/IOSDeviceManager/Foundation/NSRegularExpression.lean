import IOSDeviceManager.Foundation.NSString

/-! # First matches of two regular expressions

The text between the first pair of double quotes, and the first run of upper case hexadecimal
digits, as `rangeOfFirstMatchInString:` of `NSRegularExpression` finds them: at the leftmost
position at which the expression matches. -/

namespace IOSDeviceManager

namespace NSRegularExpression

/-- The characters that `.` does not match. -/
def isLineTerminator (c : Char) : Bool :=
  c ∈ ['\n', '\x0b', '\x0c', '\r', '\u0085', '\u2028', '\u2029']

/-- What `.*?` matches before a double quote, on one line. -/
def textToQuote : List Char → Option (List Char)
  | [] => none
  | c :: cs =>
      if c = '"' then some []
      else if isLineTerminator c then none
      else (textToQuote cs).map (c :: ·)

/-- The first match of `"(.*?)"`, without the quotes. -/
def firstQuoted : List Char → Option (List Char)
  | [] => none
  | c :: cs =>
      if c = '"' then (textToQuote cs).or (firstQuoted cs) else firstQuoted cs

/-- `[A-F0-9]`. -/
def isUpperHex (c : Char) : Bool :=
  ('A' ≤ c && c ≤ 'F') || ('0' ≤ c && c ≤ '9')

/-- The first match of `([A-F0-9]{n})`, for a positive `n`. -/
def firstUpperHexRun (n : Nat) : List Char → Option (List Char)
  | [] => none
  | c :: cs =>
      if ((c :: cs).take n).length = n && ((c :: cs).take n).all isUpperHex then
        some ((c :: cs).take n)
      else firstUpperHexRun n cs

/-! ## Quotes -/

variable {name rest before : List Char}

/-- A text on one line without a quote is matched up to the quote that follows it. -/
theorem textToQuote_append (hquote : '"' ∉ name) (hline : ∀ c ∈ name, isLineTerminator c = false)
    (rest : List Char) : textToQuote (name ++ '"' :: rest) = some name := by
  induction name with
  | nil => rfl
  | cons c cs ih =>
    rw [List.mem_cons, not_or] at hquote
    rw [List.forall_mem_cons] at hline
    have hc : c ≠ '"' := fun h => hquote.1 h.symm
    rw [List.cons_append, textToQuote, if_neg hc, hline.1, ih hquote.2 hline.2]
    rfl

/-- Without a quote there is no match. -/
theorem firstQuoted_eq_none {cs : List Char} (h : '"' ∉ cs) : firstQuoted cs = none := by
  induction cs with
  | nil => rfl
  | cons c cs ih =>
    rw [List.mem_cons, not_or] at h
    have hc : c ≠ '"' := fun heq => h.1 heq.symm
    rw [firstQuoted, if_neg hc, ih h.2]

/-- The first quote opens the match, if the text after it reaches another quote. -/
theorem firstQuoted_append (h : '"' ∉ before) (rest : List Char) :
    firstQuoted (before ++ '"' :: rest) = (textToQuote rest).or (firstQuoted rest) := by
  induction before with
  | nil => simp [firstQuoted]
  | cons c cs ih =>
    rw [List.mem_cons, not_or] at h
    have hc : c ≠ '"' := fun heq => h.1 heq.symm
    rw [List.cons_append, firstQuoted, if_neg hc, ih h.2]

/-! ## Runs of hexadecimal digits -/

variable {n : Nat}

/-- The code points of the digits. -/
theorem isUpperHex_iff {c : Char} : isUpperHex c = true ↔
    (65 ≤ c.toNat ∧ c.toNat ≤ 70) ∨ (48 ≤ c.toNat ∧ c.toNat ≤ 57) := by
  simp [isUpperHex, Char.le_def, UInt32.le_iff_toNat_le]

/-- The digits are upper case. -/
theorem toUpper_of_isUpperHex {c : Char} (h : isUpperHex c = true) : c.toUpper = c := by
  rw [isUpperHex_iff] at h
  have hlower : ¬ ('a'.val ≤ c.val ∧ c.val ≤ 'z'.val) := by
    rw [UInt32.le_iff_toNat_le, UInt32.le_iff_toNat_le]
    have ha : 'a'.val.toNat = 97 := rfl
    have hc : c.val.toNat = c.toNat := rfl
    omega
  exact dif_neg hlower

/-- A run at the front is the first one. -/
theorem firstUpperHexRun_append {run : List Char} (hlength : run.length = n) (hpos : 0 < n)
    (hrun : ∀ c ∈ run, isUpperHex c = true) (rest : List Char) :
    firstUpperHexRun n (run ++ rest) = some run := by
  obtain ⟨c, cs, rfl⟩ : ∃ c cs, run = c :: cs :=
    List.exists_cons_of_ne_nil (List.ne_nil_of_length_pos (hlength ▸ hpos))
  have htake : (c :: (cs ++ rest)).take n = c :: cs := by
    rw [← List.cons_append, List.take_left' hlength]
  rw [List.cons_append, firstUpperHexRun, htake, if_pos]
  simpa [hlength] using hrun

/-- Before another character, fewer than `n` characters hold no run. -/
theorem firstUpperHexRun_skip {c : Char} (hshort : before.length < n) (hc : isUpperHex c = false)
    (rest : List Char) :
    firstUpperHexRun n (before ++ c :: rest) = firstUpperHexRun n rest := by
  induction before with
  | nil =>
    obtain ⟨k, rfl⟩ : ∃ k, n = k + 1 := ⟨n - 1, by simp at hshort; omega⟩
    simp [firstUpperHexRun, hc]
  | cons b bs ih =>
    rw [List.length_cons] at hshort
    -- whatever starts here reaches the other character
    have hmem : c ∈ (b :: (bs ++ c :: rest)).take n := by
      obtain ⟨k, hk⟩ : ∃ k, n - (b :: bs).length = k + 1 :=
        ⟨n - (b :: bs).length - 1, by rw [List.length_cons]; omega⟩
      rw [← List.cons_append, List.take_append, hk, List.take_succ_cons]
      exact List.mem_append_right _ List.mem_cons_self
    have hno : ¬ (((b :: (bs ++ c :: rest)).take n).all isUpperHex = true) := by
      intro hall
      have := List.all_eq_true.mp hall c hmem
      rw [hc] at this
      cases this
    rw [List.cons_append, firstUpperHexRun, if_neg (by simp [hno]), ih (by omega)]

end NSRegularExpression

end IOSDeviceManager
