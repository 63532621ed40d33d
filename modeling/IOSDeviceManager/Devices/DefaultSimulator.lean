import IOSDeviceManager.Utilities.XcodeUtils

/-! # The default simulator

Without a device, a command takes the simulator that comes with the version of Xcode. Its name is
put together from the two numbers of the version, and the simulator is looked up like any other that
is given by its name. -/

namespace IOSDeviceManager

open XcodeUtils

namespace DeviceUtils

/-- `%lu`. -/
def formatUnsigned (n : Nat) : String :=
  String.ofList (Nat.toDigits 10 n)

section

-- the standard outputs of one run of `xcodebuild -version` after another
variable (chars : VersionCharacters) (stdoutStr : Nat → Option String)

/-- The minor version of a simulator for Xcode 13. -/
def minorOfThirteen (minor : Nat) : VersionProgram Nat := do
  -- Xcode 13.0 and 13.1.
  let xcodeMinor ← versionMinor chars stdoutStr
  let minor := if xcodeMinor < 2 then 0 else minor
  -- Xcode 13.2.
  let xcodeMinor ← versionMinor chars stdoutStr
  let minor := if xcodeMinor = 2 then 2 else minor
  -- All other Xcode 13.x with minor version higher than 2
  let xcodeMinor ← versionMinor chars stdoutStr
  if xcodeMinor > 2 then
    let xcodeMinor ← versionMinor chars stdoutStr
    return xcodeMinor + 1
  else return minor

/-- The minor version of a simulator, with the exception for Xcode 10.3. -/
def minorOfTen (minor : Nat) : VersionProgram Nat := do
  let xcodeMajor ← versionMajor chars stdoutStr
  if xcodeMajor = 10 then
    let xcodeMinor ← versionMinor chars stdoutStr
    return if xcodeMinor = 3 then 4 else minor
  else return minor

/-- The device of a simulator; the number is unsigned. -/
def deviceVersion : VersionProgram String := do
  let xcodeMajor ← versionMajor chars stdoutStr
  if xcodeMajor ≥ 11 then
    let xcodeMajor ← versionMajor chars stdoutStr
    return formatUnsigned xcodeMajor
  else
    let xcodeMajor ← versionMajor chars stdoutStr
    if xcodeMajor = 10 then
      let xcodeMinor ← versionMinor chars stdoutStr
      return if xcodeMinor < 2 then "XS" else "Xs"
    else
      let xcodeMajor ← versionMajor chars stdoutStr
      return formatUnsigned ((xcodeMajor + (2 ^ 64 - 1)) % 2 ^ 64)

/-- `defaultSimulator`. -/
def defaultSimulator : VersionProgram String := do
  let xcodeMajor ← versionMajor chars stdoutStr
  let major := xcodeMajor + 2
  let minor ← versionMinor chars stdoutStr
  let minor ← minorOfTen chars stdoutStr minor
  let xcodeMajor ← versionMajor chars stdoutStr
  if xcodeMajor = 13 then
    let minor ← minorOfThirteen chars stdoutStr minor
    return "iPhone 13 (" ++ formatUnsigned major ++ "." ++ formatUnsigned minor ++ ")"
  else
    let deviceVersion ← deviceVersion chars stdoutStr
    return "iPhone " ++ deviceVersion ++ " (" ++ formatUnsigned major ++ "." ++
      formatUnsigned minor ++ ")"

/-- `defaultSimulatorID`. -/
def defaultSimulatorID (availableSimulators : List FBSimulator) : VersionProgram String := do
  let simulatorName ← defaultSimulator chars stdoutStr
  match findSimulatorByName chars.isDecimalDigit availableSimulators simulatorName with
  | some simulator => return simulator.udid
  | none =>
      throw (.named "Non existing simulator"
        ("Could not find default simulator: " ++ simulatorName))

end

/-! ## What is chosen for a version of Xcode -/

/-- The name of the device for a version of Xcode. -/
def defaultDevice (version : Nat × Nat) : String :=
  "iPhone " ++
    if version.1 ≥ 11 then formatUnsigned version.1
    else if version.1 = 10 then if version.2 < 2 then "XS" else "Xs"
    else formatUnsigned ((version.1 + (2 ^ 64 - 1)) % 2 ^ 64)

/-- The version of iOS for a version of Xcode. -/
def defaultRuntime (version : Nat × Nat) : Nat × Nat :=
  (version.1 + 2,
    if version.1 = 10 ∧ version.2 = 3 then 4
    else if version.1 = 13 ∧ version.2 < 2 then 0
    else if version.1 = 13 ∧ version.2 > 2 then version.2 + 1
    else version.2)

/-- The name of the simulator for a version of Xcode. -/
def defaultName (version : Nat × Nat) : String :=
  defaultDevice version ++ " (" ++ formatUnsigned (defaultRuntime version).1 ++ "." ++
    formatUnsigned (defaultRuntime version).2 ++ ")"

section

variable {chars : VersionCharacters} {stdoutStr : Nat → Option String} {version : Nat × Nat}

/-- The static variables are as at the start, or hold the version. -/
def Coherent (version : Nat × Nat) (cache : VersionCache) : Prop :=
  cache = initialCache ∨ ∃ runs, cache = loaded version runs

/-- The program returns the value, and leaves the static variables coherent. -/
def Yields {α : Type} (version : Nat × Nat) (x : VersionProgram α) (a : α) : Prop :=
  ∀ cache, Coherent version cache → ∃ cache', Coherent version cache' ∧ x cache = (.ok a, cache')

/-- A constant is itself. -/
theorem yields_pure {α : Type} (a : α) : Yields version (return a : VersionProgram α) a :=
  fun cache hcache => ⟨cache, hcache, rfl⟩

/-- What a sequence of look-ups comes to. -/
theorem Yields.bind {α β : Type} {x : VersionProgram α} {f : α → VersionProgram β} {a : α} {b : β}
    (hx : Yields version x a) (hf : Yields version (f a) b) : Yields version (x >>= f) b := by
  intro cache hcache
  obtain ⟨cache', hcache', heq⟩ := hx cache hcache
  rw [bind_of_ok heq]
  exact hf cache' hcache'

/-- A look at the version gives its number. -/
theorem yields_call (h : Prints chars stdoutStr version) (c : VersionCall) :
    Yields version (call chars stdoutStr c) (c.number version) := by
  rintro cache (rfl | ⟨runs, rfl⟩)
  · exact ⟨_, .inr ⟨_, rfl⟩, call_initialCache h c⟩
  · exact ⟨_, .inr ⟨_, rfl⟩, call_loaded h c runs⟩

/-- The major number is the one that is printed. -/
theorem yields_versionMajor (h : Prints chars stdoutStr version) :
    Yields version (versionMajor chars stdoutStr) version.1 :=
  yields_call h .major

/-- So is the minor number. -/
theorem yields_versionMinor (h : Prints chars stdoutStr version) :
    Yields version (versionMinor chars stdoutStr) version.2 :=
  yields_call h .minor

/-- The minor number for Xcode 10. -/
theorem yields_minorOfTen (h : Prints chars stdoutStr version) (minor : Nat) :
    Yields version (minorOfTen chars stdoutStr minor)
      (if version.1 = 10 ∧ version.2 = 3 then 4 else minor) := by
  refine (yields_versionMajor h).bind ?_
  by_cases hten : version.1 = 10
  · rw [if_pos hten]
    refine (yields_versionMinor h).bind ?_
    simp only [hten, true_and]
    exact yields_pure _
  · rw [if_neg hten, if_neg fun h => hten h.1]
    exact yields_pure minor

/-- The minor number from Xcode 13 on. -/
theorem yields_minorOfThirteen (h : Prints chars stdoutStr version) :
    Yields version (minorOfThirteen chars stdoutStr version.2)
      (if version.2 < 2 then 0 else if version.2 > 2 then version.2 + 1 else version.2) := by
  refine (yields_versionMinor h).bind ((yields_versionMinor h).bind
    ((yields_versionMinor h).bind ?_))
  by_cases hlater : version.2 > 2
  · have hnot : ¬ version.2 < 2 := by omega
    rw [if_pos hlater, if_neg hnot, if_pos hlater]
    exact (yields_versionMinor h).bind (yields_pure _)
  · rw [if_neg hlater, if_neg hlater]
    have hvalue : (if version.2 = 2 then 2 else if version.2 < 2 then 0 else version.2) =
        if version.2 < 2 then 0 else version.2 := by
      split
      · rename_i htwo
        rw [if_neg (by omega), htwo]
      · rfl
    change Yields version (return (if version.2 = 2 then 2
      else if version.2 < 2 then 0 else version.2) : VersionProgram Nat) _
    rw [hvalue]
    exact yields_pure _

/-- The number in the name of the device. -/
theorem yields_deviceVersion (h : Prints chars stdoutStr version) :
    Yields version (deviceVersion chars stdoutStr)
      (if version.1 ≥ 11 then formatUnsigned version.1
      else if version.1 = 10 then if version.2 < 2 then "XS" else "Xs"
      else formatUnsigned ((version.1 + (2 ^ 64 - 1)) % 2 ^ 64)) := by
  refine (yields_versionMajor h).bind ?_
  by_cases hnew : version.1 ≥ 11
  · rw [if_pos hnew, if_pos hnew]
    exact (yields_versionMajor h).bind (yields_pure _)
  · rw [if_neg hnew, if_neg hnew]
    refine (yields_versionMajor h).bind ?_
    by_cases hten : version.1 = 10
    · rw [if_pos hten, if_pos hten]
      exact (yields_versionMinor h).bind (yields_pure _)
    · rw [if_neg hten, if_neg hten]
      exact (yields_versionMajor h).bind (yields_pure _)

/-- The name of the default simulator. -/
theorem yields_defaultSimulator (h : Prints chars stdoutStr version) :
    Yields version (defaultSimulator chars stdoutStr) (defaultName version) := by
  refine (yields_versionMajor h).bind ((yields_versionMinor h).bind
    ((yields_minorOfTen h version.2).bind ((yields_versionMajor h).bind ?_)))
  by_cases hthirteen : version.1 = 13
  · have hten : ¬ (version.1 = 10 ∧ version.2 = 3) := by omega
    have hdevice : defaultDevice version = "iPhone 13" := by
      rw [defaultDevice, hthirteen, if_pos (by decide)]
      decide
    have hruntime : (defaultRuntime version).2 =
        if version.2 < 2 then 0 else if version.2 > 2 then version.2 + 1 else version.2 := by
      rw [defaultRuntime, if_neg hten]
      simp only [hthirteen, true_and]
    rw [if_pos hthirteen, if_neg hten]
    refine (yields_minorOfThirteen h).bind ?_
    rw [← hruntime, defaultName, hdevice]
    exact yields_pure _
  · have hruntime : (defaultRuntime version).2 =
        if version.1 = 10 ∧ version.2 = 3 then 4 else version.2 := by
      simp only [defaultRuntime, hthirteen, false_and, if_false]
    rw [if_neg hthirteen, ← hruntime]
    exact (yields_deviceVersion h).bind (yields_pure _)

end

end DeviceUtils

/-! ## The simulator that is chosen -/

open DeviceUtils

/-- The version of iOS, as a version of a runtime. -/
def defaultRuntimeVersion (version : Nat × Nat) : SimRuntime where
  platform := "iOS"
  version := [Nat.toDigits 10 (defaultRuntime version).1, Nat.toDigits 10 (defaultRuntime version).2]
  onlyIOS _ := rfl
  hasVersion := List.cons_ne_nil _ _
  numbers number hnumber := by
    have hdigits : ∀ n, Nat.toDigits 10 n ≠ [] ∧ ∀ c ∈ Nat.toDigits 10 n, c.isDigit = true :=
      fun n => ⟨Nat.toDigits_ne_nil, fun c hc => Nat.isDigit_of_mem_toDigits (by decide) (by decide) hc⟩
    rcases List.mem_cons.mp hnumber with rfl | hnumber
    · exact hdigits _
    · rw [List.mem_singleton.mp hnumber]
      exact hdigits _

namespace InstalledSimulator

/-- A simulator with the name and the runtime that go with a version of Xcode. -/
def defaultFor (version : Nat × Nat) (udid : String) : InstalledSimulator :=
  ⟨defaultDevice version, defaultRuntimeVersion version, udid⟩

/-- The default simulator has the default name. -/
theorem nameAndVersion_defaultFor (version : Nat × Nat) (udid : String) :
    (defaultFor version udid).nameAndVersion = defaultName version := by
  have hdot : ".".toList = ['.'] := by decide
  rw [← String.toList_inj]
  simp [nameAndVersion, defaultFor, SimRuntime.dottedVersion, defaultRuntimeVersion, defaultName,
    formatUnsigned, String.toList_append, hdot]

/-- The simulator is one of iOS, with the device and the version that go with a version of Xcode. -/
def IsDefaultFor (version : Nat × Nat) (s : InstalledSimulator) : Prop :=
  s.runtime.platform = "iOS" ∧ s.name = defaultDevice version ∧
    s.runtime.dottedVersion = (defaultRuntimeVersion version).dottedVersion

instance (version : Nat × Nat) (s : InstalledSimulator) : Decidable (s.IsDefaultFor version) :=
  inferInstanceAs (Decidable (_ ∧ _))

/-- The name tells the device and the version. -/
theorem nameAndVersion_eq_defaultName_iff (s : InstalledSimulator) (version : Nat × Nat) :
    s.nameAndVersion = defaultName version ↔ s.name = defaultDevice version ∧
      s.runtime.dottedVersion = (defaultRuntimeVersion version).dottedVersion := by
  rw [← nameAndVersion_defaultFor version s.udid]
  constructor
  · exact nameAndVersion_inj
  · rintro ⟨hname, hversion⟩
    rw [nameAndVersion, nameAndVersion, hname, hversion]
    rfl

/-- **The default simulator.** Whatever simulators there are: the identifier is that of the first
one of iOS with the device and the version that go with the version of Xcode, and without one the
program raises. -/
theorem defaultSimulatorID_eq (chars : VersionCharacters) {stdoutStr : Nat → Option String}
    {version : Nat × Nat} (h : Prints chars stdoutStr version)
    (simulators : List InstalledSimulator) :
    (defaultSimulatorID chars stdoutStr (simulators.map fbSimulator) initialCache).1 =
      match simulators.find? fun s => s.IsDefaultFor version with
      | some s => .ok s.udid
      | none => .error (.named "Non existing simulator"
          ("Could not find default simulator: " ++ defaultName version)) := by
  obtain ⟨cache, -, hname⟩ := yields_defaultSimulator h initialCache (.inl rfl)
  have hfind : findSimulatorByName chars.isDecimalDigit (simulators.map fbSimulator)
      (defaultName version) =
        (simulators.find? fun s => s.IsDefaultFor version).map fbSimulator := by
    rw [findSimulatorByName, List.find?_map]
    congr 2
    funext s
    rw [Function.comp_apply, instrumentsName_fbSimulator chars.toDecimalDigits, Bool.eq_iff_iff,
      beq_iff_eq, decide_eq_true_iff, Option.ite_none_right_eq_some, Option.some.injEq,
      nameAndVersion_eq_defaultName_iff, IsDefaultFor]
  unfold defaultSimulatorID
  rw [bind_of_ok hname, hfind]
  cases simulators.find? fun s => s.IsDefaultFor version <;> rfl

/-! ## Versions of Xcode with the same default simulator -/

/-- The version of a runtime is told by its text. -/
theorem defaultRuntime_eq_of_dottedVersion {version version' : Nat × Nat}
    (h : (defaultRuntimeVersion version).dottedVersion =
      (defaultRuntimeVersion version').dottedVersion) :
    defaultRuntime version = defaultRuntime version' := by
  have hdigits : ∀ n, '.' ∉ Nat.toDigits 10 n := by
    intro n hmem
    have hdot := Nat.isDigit_of_mem_toDigits (by decide) (by decide) hmem
    revert hdot
    decide
  have htoDigits : ∀ n m, Nat.toDigits 10 n = Nat.toDigits 10 m → n = m := by
    intro n m heq
    rw [← Nat.ofDigitChars_ten_toDigits (n := n), heq, Nat.ofDigitChars_ten_toDigits]
  have htext := congrArg String.toList h
  simp only [SimRuntime.dottedVersion, defaultRuntimeVersion, String.toList_ofList,
    List.intercalate_cons_cons, List.intercalate_singleton, List.append_assoc,
    List.singleton_append] at htext
  -- the one dot tells the numbers apart
  have hreversed := congrArg List.reverse htext
  simp only [List.reverse_append, List.reverse_cons, List.append_assoc, List.singleton_append]
    at hreversed
  obtain ⟨hminor, hmajor⟩ := append_cons_inj_of_not_mem
    (by simpa using hdigits _) (by simpa using hdigits _) hreversed
  exact Prod.ext (htoDigits _ _ (List.reverse_injective hmajor))
    (htoDigits _ _ (List.reverse_injective hminor))

/-- **Versions with one default.** Two versions of Xcode have the same default simulator exactly if
they are equal, or are 10.3 and 10.4, or 13.0 and 13.1. -/
theorem defaultName_eq_iff (version version' : Nat × Nat) :
    defaultName version = defaultName version' ↔
      version.1 = version'.1 ∧ (version.2 = version'.2 ∨
        version.1 = 10 ∧ (version.2 = 3 ∧ version'.2 = 4 ∨ version.2 = 4 ∧ version'.2 = 3) ∨
        version.1 = 13 ∧ version.2 < 2 ∧ version'.2 < 2) := by
  have hiff : defaultName version = defaultName version' ↔
      defaultDevice version = defaultDevice version' ∧
        defaultRuntime version = defaultRuntime version' := by
    rw [← nameAndVersion_defaultFor version "", nameAndVersion_eq_defaultName_iff]
    refine and_congr_right fun _ => ⟨defaultRuntime_eq_of_dottedVersion, fun heq => ?_⟩
    simp only [defaultFor, SimRuntime.dottedVersion, defaultRuntimeVersion, heq]
  rw [hiff]
  obtain ⟨major, minor⟩ := version
  obtain ⟨major', minor'⟩ := version'
  simp only [defaultRuntime, Prod.mk.injEq, Nat.add_right_cancel_iff]
  constructor
  · rintro ⟨-, rfl, hminor⟩
    refine ⟨rfl, ?_⟩
    -- only in these two do minor versions share a default
    by_cases hten : major = 10
    · subst hten
      simp only [true_and, Nat.reduceEqDiff, false_and, if_false] at hminor ⊢
      split at hminor <;> split at hminor <;> omega
    · by_cases hthirteen : major = 13
      · subst hthirteen
        simp only [true_and, Nat.reduceEqDiff, false_and, if_false] at hminor ⊢
        grind
      · simp only [hten, hthirteen, false_and, if_false] at hminor ⊢
        omega
  · rintro ⟨rfl, rfl | ⟨rfl, ⟨rfl, rfl⟩ | ⟨rfl, rfl⟩⟩ | ⟨rfl, hlow, hlow'⟩⟩
    · exact ⟨rfl, rfl, rfl⟩
    · decide
    · decide
    · refine ⟨rfl, rfl, ?_⟩
      simp [hlow, hlow']

/-- With Xcode 10.3 the `iPhone Xs` of iOS 12.4 is taken, and no other `iPhone Xs`. -/
theorem defaultSimulatorID_eq_tenThree :
    (defaultSimulatorID default (fun _ => some "Xcode 10.3\nBuild version 10G8")
      ([⟨"iPhone Xs", defaultRuntimeVersion (10, 2), "A"⟩,
        ⟨"iPhone Xs", defaultRuntimeVersion (10, 3), "B"⟩].map fbSimulator) initialCache).1 =
      .ok "B" := by
  have hread : readOutput default (some "Xcode 10.3\nBuild version 10G8") = .ok (10, 3) := by
    decide +kernel
  have hprints : Prints default (fun _ => some "Xcode 10.3\nBuild version 10G8") (10, 3) :=
    fun _ => hread
  exact (defaultSimulatorID_eq default hprints _).trans (by decide +kernel)

end InstalledSimulator

end IOSDeviceManager
