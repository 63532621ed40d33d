import IOSDeviceManager.Commands.DeviceCommands
import IOSDeviceManager.Foundation.NSRegularExpression
import IOSDeviceManager.General.Regex

/-! # Which texts are taken for bundle identifiers

`isUniformTypeIdentifier` matches a text with a regular expression. Its look-behind rules out a
hyphen at the end of a label; its look-ahead stands before the dot instead of after it and rules out
nothing, so labels may begin with one. -/

namespace IOSDeviceManager

open General Regex

/-! ## The expression -/

/-- `^`. -/
def textStart : Regex Char :=
  assert fun p => p.before.isEmpty

/-- `$`: at the end, or before a line terminator that ends the text. -/
def textEnd : Regex Char :=
  assert fun p =>
    match p.after with
    | [] => true
    | [c] => NSRegularExpression.isLineTerminator c
    | [c, d] => c == '\r' && d == '\n'
    | _ => false

/-- `(?!c)`. -/
def notAhead (c : Char) : Regex Char :=
  assert fun p => p.after.head? != some c

/-- `(?<!c)`. -/
def notBehind (c : Char) : Regex Char :=
  assert fun p => p.before.head? != some c

/-- `[A-Za-z0-9-]`. -/
def isLabelChar (c : Char) : Bool :=
  c.isAlphanum || c == '-'

/-- `(?!-)\.[A-Za-z0-9-]{1,63}(?<!-)`. -/
def labelRegEx : Regex Char :=
  seq (notAhead '-') (seq (char (· == '.'))
    (seq (repeated (char isLabelChar) 1 (some 63)) (notBehind '-')))

/-- `reverseDNSRegEx`: `^[A-Za-z]{2,6}((?!-)\.[A-Za-z0-9-]{1,63}(?<!-))+$`. -/
def reverseDNSRegEx : Regex Char :=
  seq textStart (seq (repeated (char Char.isAlpha) 2 (some 6))
    (seq (repeated labelRegEx 1 none) textEnd))

/-! ## What it matches -/

/-- Two to six letters. -/
def IsFirstLabel (label : List Char) : Prop :=
  (2 ≤ label.length ∧ label.length ≤ 6) ∧ ∀ c ∈ label, c.isAlpha = true

/-- One to 63 letters, digits and hyphens, with none at the end. -/
def IsLabel (label : List Char) : Prop :=
  (1 ≤ label.length ∧ label.length ≤ 63) ∧ (∀ c ∈ label, isLabelChar c = true) ∧
    label.getLast? ≠ some '-'

/-- A text made of labels with dots between them. -/
structure HasLabels (s : String) (first : List Char) (labels : List (List Char)) : Prop where
  text : s.toList = first ++ (labels.map ('.' :: ·)).flatten
  some_label : labels ≠ []
  first_label : IsFirstLabel first
  label : ∀ label ∈ labels, IsLabel label

/-- The part that one round of the repetition matches. -/
theorem mem_run_labelRegEx (p q : Place Char) :
    q ∈ labelRegEx.run p ↔ ∃ w, (∃ label, w = '.' :: label ∧ IsLabel label) ∧ p.Over w q := by
  simp only [labelRegEx, mem_run_seq, notAhead, notBehind, mem_run_assert, mem_run_char,
    mem_run_repeated_char (show 1 ≤ 63 by omega), bne_iff_ne, beq_iff_eq]
  constructor
  · rintro ⟨_, ⟨-, rfl⟩, m, ⟨_, rfl, hdot⟩, q, ⟨label, hlength, hall, hover⟩, hbehind, rfl⟩
    refine ⟨'.' :: label, ⟨label, rfl, hlength, hall, fun hlast => hbehind ?_⟩, hdot.append hover⟩
    rw [hover.2, List.head?_append, List.head?_reverse, hlast]
    rfl
  · rintro ⟨_, ⟨label, rfl, hlength, hall, hlast⟩, hover⟩
    obtain ⟨m, hdot, hlabel⟩ := Place.over_append_iff.mp (show p.Over (['.'] ++ label) q from hover)
    refine ⟨p, ⟨?_, rfl⟩, m, ⟨'.', rfl, hdot⟩, q, ⟨label, hlength, hall, hlabel⟩, ?_, rfl⟩
    · -- the next character is the dot, whatever follows it
      rw [hdot.1, List.singleton_append, List.head?_cons]
      decide
    · have hne : label ≠ [] := List.ne_nil_of_length_pos (by omega)
      rw [hlabel.2, List.head?_append, List.head?_reverse, List.getLast?_eq_some_getLast hne]
      rw [List.getLast?_eq_some_getLast hne] at hlast
      exact hlast

/-- The parts that the rounds match are labels with their dots. -/
theorem exists_labels {parts : List (List Char)}
    (h : ∀ w ∈ parts, ∃ label, w = '.' :: label ∧ IsLabel label) :
    ∃ labels : List (List Char), parts = labels.map ('.' :: ·) ∧
      ∀ label ∈ labels, IsLabel label := by
  induction parts with
  | nil => exact ⟨[], rfl, fun _ h => absurd h List.not_mem_nil⟩
  | cons w parts ih =>
    obtain ⟨⟨label, rfl, hlabel⟩, hparts⟩ := List.forall_mem_cons.mp h
    obtain ⟨labels, rfl, hlabels⟩ := ih hparts
    exact ⟨label :: labels, rfl, List.forall_mem_cons.mpr ⟨hlabel, hlabels⟩⟩

/-- **The language of the expression.** -/
theorem matchesAll_reverseDNSRegEx_iff (s : String) :
    reverseDNSRegEx.matchesAll s.toList = true ↔ ∃ first labels, HasLabels s first labels := by
  rw [matchesAll_iff]
  simp only [reverseDNSRegEx, mem_run_seq, textStart, textEnd, mem_run_assert,
    mem_run_repeated_char (show 2 ≤ 6 by omega), mem_run_repeated_none,
    steps_over mem_run_labelRegEx]
  constructor
  · rintro ⟨q, ⟨_, ⟨-, rfl⟩, m, ⟨first, hlength, hall, hfirst⟩, _,
      ⟨n, hn, parts, rfl, hparts, hover⟩, -, rfl⟩, hend⟩
    obtain ⟨labels, rfl, hlabels⟩ := exists_labels hparts
    refine ⟨first, labels, ?_, ?_, ⟨hlength, hall⟩, hlabels⟩
    · rw [← List.append_nil (labels.map ('.' :: ·)).flatten, ← hend, ← hover.1, ← hfirst.1]
    · rintro rfl
      simp at hn
  · rintro ⟨first, labels, htext, hne, ⟨hlength, hall⟩, hlabels⟩
    have hover : Place.Over (first ++ (labels.map ('.' :: ·)).flatten) ⟨[], s.toList⟩
        ⟨s.toList.reverse, []⟩ := by
      rw [← htext]
      exact ⟨(List.append_nil _).symm, (List.append_nil _).symm⟩
    obtain ⟨m, hfirst, hrest⟩ := Place.over_append_iff.mp hover
    refine ⟨_, ⟨_, ⟨rfl, rfl⟩, m, ⟨first, hlength, hall, hfirst⟩, _,
      ⟨labels.length, List.length_pos_iff.mpr hne, labels.map ('.' :: ·), List.length_map _, ?_,
        hrest⟩, rfl, rfl⟩, rfl⟩
    intro w hw
    obtain ⟨label, hlabel, rfl⟩ := List.mem_map.mp hw
    exact ⟨label, rfl, hlabels label hlabel⟩

/-! ## `isUniformTypeIdentifier` -/

/-- Labels with dots between them. -/
theorem intercalate_dot (first : List Char) (labels : List (List Char)) :
    ['.'].intercalate (first :: labels) = first ++ (labels.map ('.' :: ·)).flatten := by
  induction labels generalizing first with
  | nil => simp [List.intercalate]
  | cons label labels ih =>
    rw [List.map_cons, List.flatten_cons, List.cons_append, ← ih label]
    simp [List.intercalate]

/-- **One reading.** The labels are what lies between the dots. -/
theorem HasLabels.splitOn_eq {s : String} {first : List Char} {labels : List (List Char)}
    (h : HasLabels s first labels) : s.toList.splitOn '.' = first :: labels := by
  rw [h.text, ← intercalate_dot]
  refine List.splitOn_intercalate '.' (fun label hlabel hdot => ?_) (List.cons_ne_nil _ _)
  rcases List.mem_cons.mp hlabel with rfl | hlabel
  · exact absurd (h.first_label.2 '.' hdot) (by decide)
  · exact absurd ((h.label label hlabel).2.1 '.' hdot) (by decide)

theorem isIdentifierLabel_iff (label : List Char) : isIdentifierLabel label = true ↔ IsLabel label := by
  rw [isIdentifierLabel, IsLabel, Bool.and_eq_true, Bool.and_eq_true, decide_eq_true_eq,
    List.all_eq_true, bne_iff_ne, and_assoc]
  rfl

theorem isUniformTypeIdentifier_iff (s : String) :
    isUniformTypeIdentifier s = true ↔ ∃ first labels, HasLabels s first labels := by
  constructor
  · intro h
    have htext : ['.'].intercalate (s.toList.splitOn '.') = s.toList :=
      List.intercalate_splitOn '.'
    unfold isUniformTypeIdentifier at h
    split at h
    · rename_i first label labels hsplit
      rw [hsplit, intercalate_dot] at htext
      rw [Bool.and_eq_true, Bool.and_eq_true, decide_eq_true_eq, List.all_eq_true,
        List.all_eq_true] at h
      exact ⟨first, label :: labels, htext.symm, List.cons_ne_nil _ _, h.1,
        fun other hother => (isIdentifierLabel_iff other).mp (h.2 other hother)⟩
    · cases h
  · rintro ⟨first, labels, h⟩
    obtain ⟨label, labels, rfl⟩ := List.exists_cons_of_ne_nil h.some_label
    unfold isUniformTypeIdentifier
    rw [h.splitOn_eq, Bool.and_eq_true, Bool.and_eq_true, decide_eq_true_eq, List.all_eq_true,
      List.all_eq_true]
    exact ⟨h.first_label, fun other hother =>
      (isIdentifierLabel_iff other).mpr (h.label other hother)⟩

/-- What is computed is the match. -/
theorem isUniformTypeIdentifier_eq_matchesAll (s : String) :
    isUniformTypeIdentifier s = reverseDNSRegEx.matchesAll s.toList := by
  rw [Bool.eq_iff_iff, isUniformTypeIdentifier_iff, matchesAll_reverseDNSRegEx_iff]

/-! ## Bundle identifiers -/

/-- A bundle identifier: no label begins or ends with a hyphen. -/
def IsBundleIdentifier (s : String) : Prop :=
  ∃ first labels, HasLabels s first labels ∧ ∀ label ∈ labels, label.head? ≠ some '-'

/-- A text of labels of which some begins with a hyphen. -/
def HasHyphenLabel (s : String) : Prop :=
  ∃ first labels, HasLabels s first labels ∧ ∃ label ∈ labels, label.head? = some '-'

/-- The identifier of the app at a path. -/
def bundleIDFromPath (host : DeviceHost) (path : String) :
    Except NSException (Option (Option String)) := do
  let expanded := host.expandPath path
  if !host.appBundleOrIpaArchiveExistsAtPath expanded then return none
  let app ← host.withBundlePath (some expanded)
  return some (app.map host.bundleID)

/-- The path, if an app is there. -/
def appPathFromPath (host : DeviceHost) (path : String) : Option String :=
  let expanded := host.expandPath path
  if host.appBundleOrIpaArchiveExistsAtPath expanded then some expanded else none

/-- A text is told from a path: the expression matches the bundle identifiers, and the commands take
these for identifiers and everything else for a path. -/
structure RecognizesIdentifier (s : String) : Prop where
  exact : reverseDNSRegEx.matchesAll s.toList = true ↔ IsBundleIdentifier s
  /-- `clear-app-data`, `download-xcappdata` and `upload-xcappdata`. -/
  identifier : IsBundleIdentifier s → ∀ host args, stringArg args bundleIDOptionName = some s →
    bundleIDFromArgs host args = .ok (some (some s))
  path : ¬ IsBundleIdentifier s → ∀ host args, stringArg args bundleIDOptionName = some s →
    bundleIDFromArgs host args = bundleIDFromPath host s
  /-- `upload-xctestconf`, to which an identifier is of no use. -/
  noPath : IsBundleIdentifier s → ∀ host args optionName, stringArg args optionName = some s →
    appPathFromArgs host args optionName = .ok none
  appPath : ¬ IsBundleIdentifier s → ∀ host args optionName, stringArg args optionName = some s →
    appPathFromArgs host args optionName = .ok (appPathFromPath host s)

/-- A text has no other labels, so it is no identifier if one of them begins with a hyphen. -/
theorem HasHyphenLabel.not_isBundleIdentifier {s : String} (h : HasHyphenLabel s) :
    ¬ IsBundleIdentifier s := by
  rintro ⟨first, labels, hlabels, hall⟩
  obtain ⟨first', labels', hlabels', label, hmem, hhyphen⟩ := h
  have hsame := hlabels.splitOn_eq.symm.trans hlabels'.splitOn_eq
  obtain ⟨rfl, rfl⟩ := List.cons.inj hsame
  exact hall label hmem hhyphen

/-- The expression matches it all the same. -/
theorem HasHyphenLabel.not_recognizesIdentifier {s : String} (h : HasHyphenLabel s) :
    ¬ RecognizesIdentifier s := by
  intro hrecognizes
  have hnot : ¬ IsBundleIdentifier s := h.not_isBundleIdentifier
  obtain ⟨first, labels, hlabels, -⟩ := h
  exact hnot (hrecognizes.exact.mp
    ((matchesAll_reverseDNSRegEx_iff s).mpr ⟨first, labels, hlabels⟩))

/-- **Hyphens at the beginning.** A text is told from a path exactly if it is not one of labels of
which some begins with a hyphen. -/
theorem recognizesIdentifier_iff (s : String) : RecognizesIdentifier s ↔ ¬ HasHyphenLabel s := by
  constructor
  · exact fun h hhyphen => hhyphen.not_recognizesIdentifier h
  · intro h
    -- without a hyphen at the beginning of a label the expression is exact
    have hexact : reverseDNSRegEx.matchesAll s.toList = true ↔ IsBundleIdentifier s := by
      rw [matchesAll_reverseDNSRegEx_iff]
      constructor
      · rintro ⟨first, labels, hlabels⟩
        exact ⟨first, labels, hlabels, fun label hmem hhyphen =>
          h ⟨first, labels, hlabels, label, hmem, hhyphen⟩⟩
      · rintro ⟨first, labels, hlabels, -⟩
        exact ⟨first, labels, hlabels⟩
    have hidentifier : IsBundleIdentifier s → isUniformTypeIdentifier s = true := fun hs =>
      (isUniformTypeIdentifier_eq_matchesAll s).trans (hexact.mpr hs)
    have hpath : ¬ IsBundleIdentifier s → isUniformTypeIdentifier s = false := by
      intro hs
      rw [isUniformTypeIdentifier_eq_matchesAll, Bool.eq_false_iff]
      exact mt hexact.mp hs
    refine ⟨hexact, fun hs host args hargs => ?_, fun hs host args hargs => ?_,
      fun hs host args optionName hargs => ?_, fun hs host args optionName hargs => ?_⟩
    · rw [bundleIDFromArgs, hargs, Option.any_some, hidentifier hs]
      rfl
    · rw [bundleIDFromArgs, hargs, Option.any_some, hpath hs]
      rfl
    · rw [appPathFromArgs, hargs, Option.any_some, hidentifier hs]
      rfl
    · rw [appPathFromArgs, hargs, Option.any_some, hpath hs, appPathFromPath]
      show (if !host.appBundleOrIpaArchiveExistsAtPath (host.expandPath s) then
        Except.ok none else Except.ok (some (host.expandPath s))) = _
      cases host.appBundleOrIpaArchiveExistsAtPath (host.expandPath s) with
      | false => rfl
      | true => rfl

/-- A label that begins with a hyphen. -/
theorem not_recognizesIdentifier_hyphen :
    isUniformTypeIdentifier "com.-app" = true ∧ ¬ IsBundleIdentifier "com.-app" ∧
      ¬ RecognizesIdentifier "com.-app" := by
  have hlabels : HasLabels "com.-app" ['c', 'o', 'm'] [['-', 'a', 'p', 'p']] := by
    refine ⟨by decide, by decide, ⟨by decide, List.all_eq_true.mp (by decide)⟩,
      fun label hlabel => ?_⟩
    obtain rfl := List.mem_singleton.mp hlabel
    exact ⟨by decide, List.all_eq_true.mp (by decide), by decide⟩
  have hhyphen : HasHyphenLabel "com.-app" := ⟨_, _, hlabels, _, List.mem_singleton_self _, rfl⟩
  exact ⟨(isUniformTypeIdentifier_iff _).mpr ⟨_, _, hlabels⟩, hhyphen.not_isBundleIdentifier,
    hhyphen.not_recognizesIdentifier⟩

end IOSDeviceManager
