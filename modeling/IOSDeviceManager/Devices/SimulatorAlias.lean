import IOSDeviceManager.Foundation.NSStringReplace

/-! # Simulators by their aliases

A simulator can be named by its name and the version of its runtime, as in `iPhone 8 (12.1)`. The
version is read off the identifier of the runtime with a regular expression. -/

namespace IOSDeviceManager

/-! ## The first version in a text -/

namespace NSRegularExpression

variable {isDecimalDigit : Char → Bool}

/-- What is left of a match of `(\d+)(-(\d+))*` after a digit. -/
def versionRest (isDecimalDigit : Char → Bool) : List Char → List Char
  | [] => []
  | [c] => if isDecimalDigit c then [c] else []
  | c :: next :: cs =>
      if isDecimalDigit c then c :: versionRest isDecimalDigit (next :: cs)
      else if c = '-' && isDecimalDigit next then c :: next :: versionRest isDecimalDigit cs
      else []

/-- The first match of `(\d+)(-(\d+))*`. -/
def firstVersion (isDecimalDigit : Char → Bool) : List Char → Option (List Char)
  | [] => none
  | c :: cs =>
      if isDecimalDigit c then some (c :: versionRest isDecimalDigit cs)
      else firstVersion isDecimalDigit cs

/-- A digit belongs to the match. -/
theorem versionRest_cons {c : Char} (h : isDecimalDigit c = true) (cs : List Char) :
    versionRest isDecimalDigit (c :: cs) = c :: versionRest isDecimalDigit cs := by
  cases cs with
  | nil => simp [versionRest, h]
  | cons next cs => rw [versionRest, if_pos h]

theorem versionRest_append {digits : List Char} (h : ∀ c ∈ digits, isDecimalDigit c = true)
    (cs : List Char) :
    versionRest isDecimalDigit (digits ++ cs) = digits ++ versionRest isDecimalDigit cs := by
  induction digits with
  | nil => rfl
  | cons c digits ih =>
    rw [List.forall_mem_cons] at h
    rw [List.cons_append, versionRest_cons h.1, ih h.2, List.cons_append]

/-- A hyphen belongs to the match if a digit follows it. -/
theorem versionRest_hyphen {c : Char} (hhyphen : isDecimalDigit '-' = false)
    (h : isDecimalDigit c = true) (cs : List Char) :
    versionRest isDecimalDigit ('-' :: c :: cs) = '-' :: versionRest isDecimalDigit (c :: cs) := by
  rw [versionRest, hhyphen, versionRest_cons h]
  simp [h]

/-- Nothing before the first digit is matched. -/
theorem firstVersion_append {before : List Char} (h : ∀ c ∈ before, isDecimalDigit c = false)
    {c : Char} (hc : isDecimalDigit c = true) (cs : List Char) :
    firstVersion isDecimalDigit (before ++ c :: cs) =
      some (versionRest isDecimalDigit (c :: cs)) := by
  induction before with
  | nil => rw [List.nil_append, firstVersion, if_pos hc, versionRest_cons hc]
  | cons b before ih =>
    rw [List.forall_mem_cons] at h
    rw [List.cons_append, firstVersion, if_neg (by simp [h.1]), ih h.2]

/-- Numbers joined with hyphens are matched as a whole. -/
theorem versionRest_intercalate (hhyphen : isDecimalDigit '-' = false) {numbers : List (List Char)}
    (hne : ∀ number ∈ numbers, number ≠ [])
    (hdigits : ∀ number ∈ numbers, ∀ c ∈ number, isDecimalDigit c = true) :
    versionRest isDecimalDigit (['-'].intercalate numbers) = ['-'].intercalate numbers := by
  induction numbers with
  | nil => rfl
  | cons number numbers ih =>
    rw [List.forall_mem_cons] at hne hdigits
    cases numbers with
    | nil =>
      have hall := versionRest_append hdigits.1 []
      simpa [versionRest] using hall
    | cons second numbers =>
      have hrest := ih hne.2 hdigits.2
      obtain ⟨c, cs, hsecond⟩ := List.exists_cons_of_ne_nil (hne.2 second List.mem_cons_self)
      have hc : isDecimalDigit c = true :=
        hdigits.2 second List.mem_cons_self c (hsecond ▸ List.mem_cons_self)
      obtain ⟨more, hmore⟩ : ∃ more, ['-'].intercalate (second :: numbers) = c :: more := by
        cases numbers <;> simp [hsecond, List.intercalate_cons_cons]
      rw [List.intercalate_cons_cons, List.append_assoc, versionRest_append hdigits.1,
        List.singleton_append, hmore, versionRest_hyphen hhyphen hc, ← hmore, hrest]

end NSRegularExpression

/-! ## `findSimulatorByName:` -/

/-- What is looked at of an `FBSimulator`; the identifier is that of its runtime. -/
structure FBSimulator where
  name : String
  runtimeIdentifier : String
  udid : String
  deriving DecidableEq

namespace DeviceUtils

open NSRegularExpression

/-- The name of a simulator as `instruments` lists it, with the version; `none` where the loop goes
on to the next simulator. -/
def instrumentsName (isDecimalDigit : Char → Bool) (simulator : FBSimulator) : Option String :=
  let runtimeData := simulator.runtimeIdentifier
  -- Ignore watches, tvs, and pairs.
  if !NSString.containsString runtimeData "iOS" then none
  else
    (firstVersion isDecimalDigit runtimeData.toList).map fun found =>
      -- 12-1 => 12.1
      let versionStr := NSString.replace (String.ofList found) "-" "."
      -- 11 => 11.0
      let versionStr :=
        if !NSString.containsString versionStr "." then versionStr ++ ".0" else versionStr
      simulator.name ++ (" (" ++ versionStr ++ ")")

/-- `findSimulatorByName:`. -/
def findSimulatorByName (isDecimalDigit : Char → Bool) (availableSimulators : List FBSimulator)
    (name : String) : Option FBSimulator :=
  availableSimulators.find? fun simulator =>
    instrumentsName isDecimalDigit simulator == some name

end DeviceUtils

/-! ## Runtimes -/

/-- A runtime: its platform and the numbers of its version. Of the platforms, only iOS has `iOS` in
its name. -/
structure SimRuntime where
  platform : String
  version : List (List Char)
  onlyIOS : NSString.containsString platform "iOS" = true → platform = "iOS"
  hasVersion : version ≠ []
  numbers : ∀ number ∈ version, number ≠ [] ∧ ∀ c ∈ number, c.isDigit = true

namespace SimRuntime

/-- `com.apple.CoreSimulator.SimRuntime.`, the platform and the numbers. -/
def identifier (r : SimRuntime) : String :=
  "com.apple.CoreSimulator.SimRuntime." ++ r.platform ++ "-" ++
    String.ofList (['-'].intercalate r.version)

/-- The version with dots; a single number is followed by a zero. -/
def dottedVersion (r : SimRuntime) : String :=
  match r.version with
  | [number] => String.ofList number ++ ".0"
  | numbers => String.ofList (['.'].intercalate numbers)

end SimRuntime

/-- A simulator with its runtime. -/
structure InstalledSimulator where
  name : String
  runtime : SimRuntime
  udid : String

namespace InstalledSimulator

/-- What the program sees of the simulator. -/
def fbSimulator (s : InstalledSimulator) : FBSimulator :=
  ⟨s.name, s.runtime.identifier, s.udid⟩

/-- The name, and the version in parentheses. -/
def nameAndVersion (s : InstalledSimulator) : String :=
  s.name ++ " (" ++ s.runtime.dottedVersion ++ ")"

end InstalledSimulator

/-- The digits that `\d` matches: of the ASCII characters, the ten digits. -/
structure DecimalDigits where
  isDecimalDigit : Char → Bool
  ascii : ∀ c, c.toNat < 128 → isDecimalDigit c = c.isDigit

instance : Inhabited DecimalDigits :=
  ⟨⟨Char.isDigit, fun _ _ => rfl⟩⟩

/-! ## Texts around the platform -/

section Infix

variable {α : Type*} {w a b : List α} {c : α}

/-- A prefix without a letter ends before that letter. -/
theorem prefix_of_prefix_append_cons (hc : c ∉ w) (h : w <+: a ++ c :: b) : w <+: a := by
  rcases List.prefix_or_prefix_of_prefix h (List.prefix_append a _) with hw | ⟨rest, rfl⟩
  · exact hw
  · rw [List.prefix_append_right_inj] at h
    cases rest with
    | nil => exact ⟨[], by simp⟩
    | cons d rest =>
      obtain ⟨rfl, -⟩ := List.cons_prefix_cons.mp h
      exact absurd (by simp) hc

/-- A word without a letter lies before that letter or after it. -/
theorem infix_append_cons_iff (hc : c ∉ w) : w <:+: a ++ c :: b ↔ w <:+: a ∨ w <:+: b := by
  constructor
  · intro h
    induction a with
    | nil =>
      rcases List.infix_cons_iff.mp h with h | h
      · exact .inl (prefix_of_prefix_append_cons hc h).isInfix
      · exact .inr h
    | cons d a ih =>
      rcases List.infix_cons_iff.mp h with h | h
      · exact .inl (prefix_of_prefix_append_cons (a := d :: a) hc h).isInfix
      · exact (ih h).imp_left fun h => h.trans (List.suffix_cons d a).isInfix
  · rintro (h | h)
    · exact h.trans (List.prefix_append _ _).isInfix
    · exact h.trans ((List.suffix_cons c b).trans (List.suffix_append _ _)).isInfix

/-- What is joined consists of the parts and the separator. -/
theorem mem_intercalate_singleton {parts : List (List α)} {d : α}
    (h : c ∈ [d].intercalate parts) : c = d ∨ ∃ part ∈ parts, c ∈ part := by
  induction parts with
  | nil => cases h
  | cons part parts ih =>
    cases parts with
    | nil => exact .inr ⟨part, List.mem_cons_self, by simpa using h⟩
    | cons second parts =>
      rw [List.intercalate_cons_cons, List.mem_append, List.mem_append] at h
      rcases h with (h | h) | h
      · exact .inr ⟨part, List.mem_cons_self, h⟩
      · exact .inl (List.mem_singleton.mp h)
      · exact (ih h).imp_right fun ⟨q, hq, hc⟩ => ⟨q, List.mem_cons_of_mem _ hq, hc⟩

end Infix

/-! ## What the loop reads off a runtime -/

namespace SimRuntime

theorem mem_version {r : SimRuntime} {c : Char} (h : c ∈ ['-'].intercalate r.version) :
    c = '-' ∨ c.isDigit = true :=
  (mem_intercalate_singleton h).imp_right fun ⟨number, hnumber, hc⟩ =>
    (r.numbers number hnumber).2 c hc

theorem toList_start : "com.apple.CoreSimulator.SimRuntime.".toList =
    "com.apple.CoreSimulator.SimRuntime".toList ++ ['.'] := by
  rw [String.toList_ofList, String.toList_ofList]
  rfl

theorem toList_identifier (r : SimRuntime) :
    r.identifier.toList = "com.apple.CoreSimulator.SimRuntime".toList ++
      '.' :: (r.platform.toList ++ '-' :: ['-'].intercalate r.version) := by
  have hhyphen : "-".toList = ['-'] := by decide
  have hidentifier : r.identifier = "com.apple.CoreSimulator.SimRuntime." ++ r.platform ++ "-" ++
      String.ofList (['-'].intercalate r.version) := rfl
  rw [hidentifier]
  simp only [String.toList_append, toList_start, hhyphen]
  simp only [String.toList_ofList, List.append_assoc, List.cons_append, List.nil_append]

/-- Watches and televisions are told by the name of the platform. -/
theorem containsString_identifier (r : SimRuntime) :
    NSString.containsString r.identifier "iOS" = decide (r.platform = "iOS") := by
  have hword : "iOS".toList = ['i', 'O', 'S'] := by decide
  have hstart : 'O' ∉ "com.apple.CoreSimulator.SimRuntime".toList := by
    rw [String.toList_ofList]
    decide
  have hstart' : ¬ ['i', 'O', 'S'] <:+: "com.apple.CoreSimulator.SimRuntime".toList :=
    fun h => hstart (h.subset (by simp))
  have hversion : ¬ ['i', 'O', 'S'] <:+: ['-'].intercalate r.version := by
    intro h
    rcases mem_version (h.subset (List.mem_cons_of_mem _ List.mem_cons_self)) with h | h
    · cases h
    · revert h
      decide
  rw [NSString.containsString, hword, toList_identifier, decide_eq_decide,
    infix_append_cons_iff (by decide), infix_append_cons_iff (by decide)]
  constructor
  · rintro (h | h | h)
    · exact absurd h hstart'
    · exact r.onlyIOS (by rwa [NSString.containsString, hword, decide_eq_true_iff])
    · exact absurd h hversion
  · intro h
    rw [h, hword]
    exact .inr (.inl (List.infix_refl _))

/-- An ASCII digit is matched as one. -/
theorem isDecimalDigit_of_isDigit (digits : DecimalDigits) {c : Char} (h : c.isDigit = true) :
    digits.isDecimalDigit c = true := by
  rw [digits.ascii c ?_, h]
  simp only [Char.isDigit, Bool.and_eq_true, decide_eq_true_eq, ge_iff_le,
    UInt32.le_iff_toNat_le] at h
  change 48 ≤ c.toNat ∧ c.toNat ≤ 57 at h
  omega

/-- The version is what the expression matches first. -/
theorem firstVersion_identifier (digits : DecimalDigits) {r : SimRuntime}
    (hplatform : r.platform = "iOS") :
    NSRegularExpression.firstVersion digits.isDecimalDigit r.identifier.toList =
      some (['-'].intercalate r.version) := by
  have hstart : ("com.apple.CoreSimulator.SimRuntime".toList ++ '.' :: ("iOS".toList ++ ['-'])).all
      (fun c => decide (c.toNat < 128) && !c.isDigit) = true := by
    rw [String.toList_ofList, String.toList_ofList]
    decide
  -- no digit stands before the version
  have hbefore : ∀ c ∈ "com.apple.CoreSimulator.SimRuntime".toList ++ '.' :: ("iOS".toList ++ ['-']),
      digits.isDecimalDigit c = false := by
    intro c hc
    have hascii := List.all_eq_true.mp hstart c hc
    rw [Bool.and_eq_true, decide_eq_true_iff, Bool.not_eq_true'] at hascii
    exact (digits.ascii c hascii.1).trans hascii.2
  have hhyphen : digits.isDecimalDigit '-' = false := (digits.ascii '-' (by decide)).trans rfl
  have hdigits : ∀ number ∈ r.version, ∀ c ∈ number, digits.isDecimalDigit c = true :=
    fun number hnumber c hc =>
      isDecimalDigit_of_isDigit digits ((r.numbers number hnumber).2 c hc)
  have hmatch := NSRegularExpression.versionRest_intercalate hhyphen
    (fun number hnumber => (r.numbers number hnumber).1) hdigits
  obtain ⟨number, numbers, hversion⟩ := List.exists_cons_of_ne_nil r.hasVersion
  obtain ⟨c, cs, rfl⟩ :=
    List.exists_cons_of_ne_nil (r.numbers number (hversion ▸ List.mem_cons_self)).1
  obtain ⟨more, hmore⟩ : ∃ more, ['-'].intercalate r.version = c :: more := by
    rw [hversion]
    cases numbers <;> simp [List.intercalate_cons_cons]
  have hc : digits.isDecimalDigit c = true :=
    hdigits _ (hversion ▸ List.mem_cons_self) c List.mem_cons_self
  have hsplit : r.identifier.toList =
      ("com.apple.CoreSimulator.SimRuntime".toList ++ '.' :: ("iOS".toList ++ ['-'])) ++ c :: more := by
    rw [toList_identifier, hplatform, hmore]
    simp only [List.append_assoc, List.cons_append, List.nil_append]
  rw [hsplit, NSRegularExpression.firstVersion_append hbefore hc, ← hmore, hmatch]

end SimRuntime

/-- One character gives way to another. -/
theorem replaceFrom_singleton (c d : Char) (cs : List Char) :
    NSString.replaceFrom [c] [d] 0 cs = cs.map fun x => if x = c then d else x := by
  induction cs with
  | nil => rfl
  | cons x cs ih =>
    by_cases hx : x = c
    · subst hx
      simp [NSString.replaceFrom, List.isPrefixOf, ih]
    · simp [NSString.replaceFrom, List.isPrefixOf, ih, hx, Ne.symm hx]

/-- The separators give way. -/
theorem map_intercalate_hyphen {numbers : List (List Char)}
    (h : ∀ number ∈ numbers, '-' ∉ number) :
    (['-'].intercalate numbers).map (fun x => if x = '-' then '.' else x) =
      ['.'].intercalate numbers := by
  induction numbers with
  | nil => rfl
  | cons number numbers ih =>
    rw [List.forall_mem_cons] at h
    have hnumber : number.map (fun x => if x = '-' then '.' else x) = number := by
      refine (List.map_congr_left fun x hx => if_neg ?_).trans (List.map_id' number)
      rintro rfl
      exact h.1 hx
    cases numbers with
    | nil => simpa using hnumber
    | cons second numbers =>
      rw [List.intercalate_cons_cons, List.intercalate_cons_cons, List.map_append, List.map_append,
        hnumber, ih h.2]
      rfl

/-- The version that the loop puts together is the dotted one. -/
theorem SimRuntime.versionStr_eq (r : SimRuntime) :
    (if !NSString.containsString (String.ofList (['.'].intercalate r.version)) "." then
      String.ofList (['.'].intercalate r.version) ++ ".0"
    else String.ofList (['.'].intercalate r.version)) = r.dottedVersion := by
  have hdot : ".".toList = ['.'] := by decide
  rw [NSString.containsString, hdot, String.toList_ofList, dottedVersion]
  cases hversion : r.version with
  | nil => exact absurd hversion r.hasVersion
  | cons number numbers =>
    cases numbers with
    | nil =>
      have hnumber : ¬ ['.'] <:+: number := by
        intro h
        have hdigit := (r.numbers number (hversion ▸ List.mem_cons_self)).2 '.' (h.subset (by simp))
        revert hdigit
        decide
      simp [hnumber]
    | cons second numbers =>
      have hmem : ['.'] <:+: ['.'].intercalate (number :: second :: numbers) := by
        rw [List.intercalate_cons_cons]
        exact List.infix_append number ['.'] _
      rw [decide_eq_true hmem]
      rfl

namespace InstalledSimulator

/-- The loop goes on at other platforms, and reads the version of iOS. -/
theorem instrumentsName_fbSimulator (digits : DecimalDigits) (s : InstalledSimulator) :
    DeviceUtils.instrumentsName digits.isDecimalDigit s.fbSimulator =
      if s.runtime.platform = "iOS" then some s.nameAndVersion else none := by
  have hcontains := s.runtime.containsString_identifier
  unfold DeviceUtils.instrumentsName
  by_cases hplatform : s.runtime.platform = "iOS"
  · have hhyphens : ∀ number ∈ s.runtime.version, '-' ∉ number := by
      intro number hnumber hmem
      have hdigit := (s.runtime.numbers number hnumber).2 '-' hmem
      revert hdigit
      decide
    have hreplace : NSString.replace (String.ofList (['-'].intercalate s.runtime.version)) "-" "." =
        String.ofList (['.'].intercalate s.runtime.version) := by
      rw [NSString.replace, show "-".toList = ['-'] by decide, show ".".toList = ['.'] by decide,
        String.toList_ofList, replaceFrom_singleton, map_intercalate_hyphen hhyphens]
    simp only [fbSimulator, hcontains, hplatform, decide_true, Bool.not_true, Bool.false_eq_true,
      if_false, s.runtime.firstVersion_identifier digits hplatform, Option.map_some, hreplace,
      s.runtime.versionStr_eq, if_true, nameAndVersion, String.append_assoc]
  · simp only [fbSimulator, hcontains, hplatform, decide_false, Bool.not_false, if_true, if_false]

/-- No parenthesis is in a version. -/
theorem not_mem_dottedVersion (r : SimRuntime) : '(' ∉ r.dottedVersion.toList := by
  have hjoined : '(' ∉ ['.'].intercalate r.version := by
    intro h
    rcases mem_intercalate_singleton h with h | ⟨number, hnumber, hc⟩
    · cases h
    · have hdigit := (r.numbers number hnumber).2 '(' hc
      revert hdigit
      decide
  rw [← r.versionStr_eq]
  split
  · rw [String.toList_append, String.toList_ofList, List.mem_append, not_or]
    exact ⟨hjoined, by decide⟩
  · rwa [String.toList_ofList]

/-- What follows the last parenthesis is told from what precedes it. -/
theorem append_cons_inj_of_not_mem {α : Type*} {a b v w : List α} {c : α} (hv : c ∉ v)
    (hw : c ∉ w) (h : a ++ c :: v = b ++ c :: w) : a = b ∧ v = w := by
  rcases List.append_eq_append_iff.mp h with ⟨t, rfl, ht⟩ | ⟨t, rfl, ht⟩
  · cases t with
    | nil => exact ⟨(List.append_nil a).symm, (List.cons.inj ht).2⟩
    | cons d t =>
      obtain ⟨-, rfl⟩ := List.cons.inj ht
      exact absurd (by simp) hv
  · cases t with
    | nil => exact ⟨List.append_nil b, (List.cons.inj ht).2.symm⟩
    | cons d t =>
      obtain ⟨-, rfl⟩ := List.cons.inj ht
      exact absurd (by simp) hw

/-- **The last parentheses.** A name may look like an alias itself; still, name and version can be
read off an alias. -/
theorem nameAndVersion_inj {s t : InstalledSimulator} (h : s.nameAndVersion = t.nameAndVersion) :
    s.name = t.name ∧ s.runtime.dottedVersion = t.runtime.dottedVersion := by
  have hopen : " (".toList = [' ', '('] := by decide
  have hlists := congrArg String.toList h
  simp only [nameAndVersion, String.toList_append, hopen, List.append_cancel_right_eq] at hlists
  have hsplit : ∀ name version : List Char, name ++ [' ', '('] ++ version =
      (name ++ [' ']) ++ '(' :: version := by simp
  rw [hsplit, hsplit] at hlists
  obtain ⟨hname, hversion⟩ := append_cons_inj_of_not_mem (not_mem_dottedVersion _)
    (not_mem_dottedVersion _) hlists
  exact ⟨String.toList_inj.mp (List.append_cancel_right hname), String.toList_inj.mp hversion⟩

/-- The query names the simulator: it is one of iOS, with this name and version. -/
def IsNamedBy (s : InstalledSimulator) (query : String) : Prop :=
  s.runtime.platform = "iOS" ∧ s.nameAndVersion = query

instance (s : InstalledSimulator) (query : String) : Decidable (s.IsNamedBy query) :=
  inferInstanceAs (Decidable (_ ∧ _))

/-- The simulator that the query names first is found, and only one name and version is named by
it. -/
structure ResolvesAlias (digits : DecimalDigits) (simulators : List InstalledSimulator)
    (query : String) : Prop where
  first : DeviceUtils.findSimulatorByName digits.isDecimalDigit (simulators.map fbSimulator) query =
    (simulators.find? fun s => s.IsNamedBy query).map fbSimulator
  unambiguous : ∀ s ∈ simulators, ∀ t ∈ simulators, s.IsNamedBy query → t.IsNamedBy query →
    s.name = t.name ∧ s.runtime.dottedVersion = t.runtime.dottedVersion
  /-- The alias of a simulator selects one of its name and version. -/
  selects : ∀ s ∈ simulators, s.IsNamedBy query → ∃ t ∈ simulators,
    DeviceUtils.findSimulatorByName digits.isDecimalDigit (simulators.map fbSimulator) query =
      some t.fbSimulator ∧
    t.name = s.name ∧ t.runtime.dottedVersion = s.runtime.dottedVersion

/-- **Aliases are unambiguous**, whatever the simulators are called. -/
theorem findSimulatorByName_resolvesAlias (digits : DecimalDigits)
    (simulators : List InstalledSimulator) (query : String) :
    ResolvesAlias digits simulators query := by
  have hfirst : DeviceUtils.findSimulatorByName digits.isDecimalDigit (simulators.map fbSimulator)
      query = (simulators.find? fun s => s.IsNamedBy query).map fbSimulator := by
    rw [DeviceUtils.findSimulatorByName, List.find?_map]
    congr 2
    funext s
    rw [Function.comp_apply, instrumentsName_fbSimulator, Bool.eq_iff_iff, beq_iff_eq,
      decide_eq_true_iff, Option.ite_none_right_eq_some, Option.some.injEq, IsNamedBy]
  have hunambiguous : ∀ s t : InstalledSimulator, s.IsNamedBy query → t.IsNamedBy query →
      s.name = t.name ∧ s.runtime.dottedVersion = t.runtime.dottedVersion :=
    fun s t hs ht => nameAndVersion_inj (hs.2.trans ht.2.symm)
  refine ⟨hfirst, fun s _ t _ => hunambiguous s t, fun s hs hnamed => ?_⟩
  have hsome : (simulators.find? fun s => s.IsNamedBy query).isSome := by
    rw [List.find?_isSome]
    exact ⟨s, hs, decide_eq_true hnamed⟩
  obtain ⟨t, ht⟩ := Option.isSome_iff_exists.mp hsome
  have htNamed : decide (t.IsNamedBy query) = true :=
    List.find?_some (p := fun s : InstalledSimulator => decide (s.IsNamedBy query)) ht
  obtain ⟨hname, hversion⟩ := hunambiguous t s (of_decide_eq_true htNamed) hnamed
  refine ⟨t, List.mem_of_find?_eq_some ht, ?_, hname, hversion⟩
  rw [hfirst, ht, Option.map_some]

end InstalledSimulator

end IOSDeviceManager
