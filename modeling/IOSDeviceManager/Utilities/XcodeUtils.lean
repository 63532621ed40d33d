import IOSDeviceManager.Devices.SimulatorAlias
import IOSDeviceManager.Resigning.Codesigner

/-! # `XcodeUtils`: the version of Xcode

The version is read off the output of `xcodebuild -version` and kept in two static variables. A
variable that is zero counts as not read yet, so for a version such as `12.0` every look at the
minor version runs `xcodebuild` again. -/

namespace IOSDeviceManager

/-- What `\d` and `\s` match: of the ASCII characters, the digits and the blanks. -/
structure VersionCharacters extends DecimalDigits where
  isSpace : Char → Bool
  asciiSpace : ∀ c, c.toNat < 128 → isSpace c = decide (c ∈ [' ', '\t', '\n', '\x0c', '\r'])

instance : Inhabited VersionCharacters :=
  ⟨{ (default : DecimalDigits) with
     isSpace c := decide (c ∈ [' ', '\t', '\n', '\x0c', '\r'])
     asciiSpace _ _ := rfl }⟩

/-- `intValue` of digits. -/
def intValue (digits : List Char) : Nat :=
  min (Nat.ofDigitChars 10 (digits.takeWhile Char.isDigit) 0) (2 ^ 31 - 1)

namespace NSRegularExpression

variable (chars : VersionCharacters)

/-- A match of `Xcode\s+(\d+)\.(\d+)` at the front; no blank is a digit and no digit a dot. -/
def xcodeVersionAt (text : List Char) : Option (List Char × List Char) :=
  if "Xcode".toList.isPrefixOf text then
    let spaced := text.drop 5
    let afterSpaces := spaced.dropWhile chars.isSpace
    if afterSpaces.length = spaced.length then none
    else
      let major := afterSpaces.takeWhile chars.isDecimalDigit
      match afterSpaces.dropWhile chars.isDecimalDigit with
      | '.' :: afterDot =>
          let minor := afterDot.takeWhile chars.isDecimalDigit
          if major.isEmpty || minor.isEmpty then none else some (major, minor)
      | _ => none
  else none

/-- The groups of the first match of `Xcode\s+(\d+)\.(\d+)`. -/
def firstXcodeVersion : List Char → Option (List Char × List Char)
  | [] => none
  | c :: cs => (xcodeVersionAt chars (c :: cs)).or (firstXcodeVersion cs)

end NSRegularExpression

namespace XcodeUtils

open NSRegularExpression

/-- The static variables, and how often `xcodebuild` was run. -/
structure VersionCache where
  versionMajor : Nat
  versionMinor : Nat
  runs : Nat
  deriving DecidableEq

/-- A program that looks at the version of Xcode. -/
abbrev VersionProgram : Type → Type :=
  ExceptT NSException (StateM VersionCache)

/-- The static variables before anything was read. -/
def initialCache : VersionCache :=
  ⟨0, 0, 0⟩

section

-- the standard outputs of one run of `xcodebuild -version` after another
variable (chars : VersionCharacters) (stdoutStr : Nat → Option String)

/-- What `getXcodeVersionTo:and:` makes of an output. Neither a missing output nor one without a
match is looked out for. -/
def readOutput : Option String → Except NSException (Nat × Nat)
  | none => .error .invalidArgument
  | some output =>
      match firstXcodeVersion chars output.toList with
      | none => .error .range
      | some (j, i) => .ok (intValue j, intValue i)

/-- `getXcodeVersionTo:and:`, of the static variables. -/
def getXcodeVersion : VersionProgram Unit := do
  let cache ← get
  set { cache with runs := cache.runs + 1 }
  let version ← MonadExcept.ofExcept (readOutput chars (stdoutStr cache.runs))
  set (⟨version.1, version.2, cache.runs + 1⟩ : VersionCache)

/-- One of the static variables; it is read first if it is zero. -/
def lookUp (value : VersionCache → Nat) : VersionProgram Nat := do
  let cache ← get
  if value cache = 0 then
    getXcodeVersion chars stdoutStr
    let cache ← get
    return value cache
  else return value cache

/-- `versionMajor`. -/
def versionMajor : VersionProgram Nat :=
  lookUp chars stdoutStr VersionCache.versionMajor

/-- `versionMinor`. -/
def versionMinor : VersionProgram Nat :=
  lookUp chars stdoutStr VersionCache.versionMinor

/-- A look at one of the two numbers. -/
inductive VersionCall where
  | major
  | minor
  deriving DecidableEq, Repr

/-- One look. -/
def call : VersionCall → VersionProgram Nat
  | .major => versionMajor chars stdoutStr
  | .minor => versionMinor chars stdoutStr

/-- One look after the other. -/
def callAll : List VersionCall → VersionProgram (List Nat)
  | [] => return []
  | c :: cs => do
      let number ← call chars stdoutStr c
      let numbers ← callAll cs
      return number :: numbers

/-- Every run of `xcodebuild` prints the same version. -/
def Prints (version : Nat × Nat) : Prop :=
  ∀ n, readOutput chars (stdoutStr n) = .ok version

end

/-- The number that is looked at. -/
def VersionCall.number (version : Nat × Nat) : VersionCall → Nat
  | .major => version.1
  | .minor => version.2

/-- The static variables once the version was read. -/
def loaded (version : Nat × Nat) (runs : Nat) : VersionCache :=
  ⟨version.1, version.2, runs⟩

/-! ## The cache -/

/-- After a program that returns, the next one goes on. -/
theorem bind_of_ok {α β : Type} {x : VersionProgram α} {cache cache' : VersionCache} {a : α}
    (h : x cache = (.ok a, cache')) (f : α → VersionProgram β) :
    (x >>= f) cache = f a cache' := by
  change (match x cache with
    | (result, cache) => ExceptT.bindCont f result cache : Except NSException β × VersionCache) = _
  rw [h]
  rfl

section

variable {chars : VersionCharacters} {stdoutStr : Nat → Option String} {version : Nat × Nat}

/-- A run of `xcodebuild` fills the variables. -/
theorem getXcodeVersion_eq (h : Prints chars stdoutStr version) (cache : VersionCache) :
    getXcodeVersion chars stdoutStr cache = (.ok (), loaded version (cache.runs + 1)) := by
  have hread := h cache.runs
  unfold getXcodeVersion
  change (do
    let version ← (MonadExcept.ofExcept (readOutput chars (stdoutStr cache.runs)) :
      VersionProgram (Nat × Nat))
    set (⟨version.1, version.2, cache.runs + 1⟩ : VersionCache)) _ = _
  rw [hread]
  rfl

/-- A variable that is zero is read first. -/
theorem lookUp_of_zero (h : Prints chars stdoutStr version) {value : VersionCache → Nat}
    {cache : VersionCache} (hzero : value cache = 0) :
    lookUp chars stdoutStr value cache =
      (.ok (value (loaded version (cache.runs + 1))), loaded version (cache.runs + 1)) := by
  unfold lookUp
  change (if value cache = 0 then (do
      getXcodeVersion chars stdoutStr
      let cache ← get
      return value cache)
    else (return value cache) : VersionProgram Nat) cache = _
  rw [if_pos hzero, bind_of_ok (getXcodeVersion_eq h cache)]
  rfl

/-- Any other is as it is. -/
theorem lookUp_of_ne_zero {value : VersionCache → Nat} {cache : VersionCache}
    (hne : value cache ≠ 0) :
    lookUp chars stdoutStr value cache = (.ok (value cache), cache) := by
  unfold lookUp
  change (if value cache = 0 then (do
      getXcodeVersion chars stdoutStr
      let cache ← get
      return value cache)
    else (return value cache) : VersionProgram Nat) cache = _
  rw [if_neg hne]
  rfl

/-- Once the version was read, a look gives its number, and runs `xcodebuild` only for a zero. -/
theorem call_loaded (h : Prints chars stdoutStr version) (c : VersionCall) (runs : Nat) :
    call chars stdoutStr c (loaded version runs) = (.ok (c.number version),
      loaded version (if c.number version = 0 then runs + 1 else runs)) := by
  by_cases hzero : c.number version = 0
  · rw [if_pos hzero]
    cases c with
    | major => exact lookUp_of_zero h hzero
    | minor => exact lookUp_of_zero h hzero
  · rw [if_neg hzero]
    cases c with
    | major => exact lookUp_of_ne_zero hzero
    | minor => exact lookUp_of_ne_zero hzero

/-- Before, every look runs `xcodebuild`. -/
theorem call_initialCache (h : Prints chars stdoutStr version) (c : VersionCall) :
    call chars stdoutStr c initialCache = (.ok (c.number version), loaded version 1) := by
  cases c with
  | major => exact lookUp_of_zero h rfl
  | minor => exact lookUp_of_zero h rfl

/-- Looks at a version that was read. -/
theorem callAll_loaded (h : Prints chars stdoutStr version) (cs : List VersionCall) (runs : Nat) :
    callAll chars stdoutStr cs (loaded version runs) =
      (.ok (cs.map (VersionCall.number version)),
        loaded version (runs + cs.countP fun c => c.number version = 0)) := by
  induction cs generalizing runs with
  | nil => rfl
  | cons c cs ih =>
    unfold callAll
    rw [bind_of_ok (call_loaded h c runs), bind_of_ok (ih _), List.map_cons, List.countP_cons]
    change (Except.ok _, loaded version _) = (Except.ok _, loaded version _)
    by_cases hzero : c.number version = 0
    · rw [if_pos hzero, if_pos (by simpa using hzero)]
      congr 2
      omega
    · rw [if_neg hzero, if_neg (by simpa using hzero)]
      rfl

/-- **The cached version is the printed one.** Whatever is looked at, in whatever order: as long as
`xcodebuild` prints one version, every look gives its number. The first look runs `xcodebuild`, and
so does every later one at a number that is zero. -/
theorem callAll_initialCache (h : Prints chars stdoutStr version) (cs : List VersionCall) :
    callAll chars stdoutStr cs initialCache =
      (.ok (cs.map (VersionCall.number version)),
        if cs = [] then initialCache
        else loaded version (1 + cs.tail.countP fun c => c.number version = 0)) := by
  cases cs with
  | nil => rfl
  | cons c cs =>
    unfold callAll
    rw [bind_of_ok (call_initialCache h c), bind_of_ok (callAll_loaded h cs 1),
      if_neg (List.cons_ne_nil c cs)]
    rfl

end

/-! ## What is printed -/

section

variable {chars : VersionCharacters} {major minor : Nat} {rest : String}

/-- The value of the digits of a number. -/
theorem intValue_toDigits {n : Nat} (h : n < 2 ^ 31) : intValue (Nat.toDigits 10 n) = n := by
  have hdigits : (Nat.toDigits 10 n).takeWhile Char.isDigit = Nat.toDigits 10 n :=
    List.takeWhile_eq_self_iff.mpr fun c hc =>
      Nat.isDigit_of_mem_toDigits (by decide) (by decide) hc
  rw [intValue, hdigits, Nat.ofDigitChars_ten_toDigits]
  omega

/-- A digit of a number is one for the expression. -/
theorem isDecimalDigit_of_mem_toDigits (chars : VersionCharacters) {n : Nat} {c : Char}
    (h : c ∈ Nat.toDigits 10 n) : chars.isDecimalDigit c = true :=
  SimRuntime.isDecimalDigit_of_isDigit chars.toDecimalDigits
    (Nat.isDigit_of_mem_toDigits (by decide) (by decide) h)

/-- A digit of a number is no blank. -/
theorem isSpace_of_mem_toDigits (chars : VersionCharacters) {n : Nat} {c : Char}
    (h : c ∈ Nat.toDigits 10 n) : chars.isSpace c = false := by
  have hrange : c.isDigit = true := Nat.isDigit_of_mem_toDigits (by decide) (by decide) h
  simp only [Char.isDigit, Bool.and_eq_true, decide_eq_true_eq, ge_iff_le,
    UInt32.le_iff_toNat_le] at hrange
  change 48 ≤ c.toNat ∧ c.toNat ≤ 57 at hrange
  rw [chars.asciiSpace c (by omega), decide_eq_false_iff_not]
  intro hmem
  fin_cases hmem <;> exact absurd hrange (by decide)

/-- Digits up to something that is none. -/
theorem span_toDigits (chars : VersionCharacters) (n : Nat) (after : List Char)
    (h : ∀ c, after.head? = some c → chars.isDecimalDigit c = false) :
    (Nat.toDigits 10 n ++ after).takeWhile chars.isDecimalDigit = Nat.toDigits 10 n ∧
      (Nat.toDigits 10 n ++ after).dropWhile chars.isDecimalDigit = after := by
  have hdigits : ∀ c ∈ Nat.toDigits 10 n, chars.isDecimalDigit c = true := fun c hc =>
    isDecimalDigit_of_mem_toDigits chars hc
  rw [List.takeWhile_append_of_pos hdigits, List.dropWhile_append_of_pos hdigits]
  cases after with
  | nil => simp
  | cons c after =>
    have hc := h c rfl
    simp [hc]

/-- The version that is printed after `Xcode` is the one that is read. -/
theorem readOutput_printed (hmajor : major < 2 ^ 31) (hminor : minor < 2 ^ 31)
    (hrest : ∀ c, rest.toList.head? = some c → chars.isDecimalDigit c = false) :
    readOutput chars (some ("Xcode " ++ String.ofList (Nat.toDigits 10 major) ++ "." ++
      String.ofList (Nat.toDigits 10 minor) ++ rest)) = .ok (major, minor) := by
  have hdot : ∀ c, ('.' :: (Nat.toDigits 10 minor ++ rest.toList)).head? = some c →
      chars.isDecimalDigit c = false := by
    rintro c ⟨⟩
    exact (chars.ascii '.' (by decide)).trans rfl
  obtain ⟨hmajorTake, hmajorDrop⟩ := span_toDigits chars major _ hdot
  obtain ⟨hminorTake, -⟩ := span_toDigits chars minor rest.toList hrest
  have htext : ("Xcode " ++ String.ofList (Nat.toDigits 10 major) ++ "." ++
      String.ofList (Nat.toDigits 10 minor) ++ rest).toList = 'X' :: 'c' :: 'o' :: 'd' :: 'e' ::
        ' ' :: (Nat.toDigits 10 major ++ '.' :: (Nat.toDigits 10 minor ++ rest.toList)) := by
    simp [String.toList_append, show "Xcode ".toList = ['X', 'c', 'o', 'd', 'e', ' '] by decide,
      show ".".toList = ['.'] by decide]
  -- the blank ends where the digits begin
  have hspaces : (' ' :: (Nat.toDigits 10 major ++
      '.' :: (Nat.toDigits 10 minor ++ rest.toList))).dropWhile chars.isSpace =
        Nat.toDigits 10 major ++ '.' :: (Nat.toDigits 10 minor ++ rest.toList) := by
    have hblank : chars.isSpace ' ' = true := (chars.asciiSpace ' ' (by decide)).trans rfl
    obtain ⟨c, cs, hcons⟩ :=
      List.exists_cons_of_ne_nil (Nat.toDigits_ne_nil (n := major) (b := 10))
    have hc := isSpace_of_mem_toDigits chars (hcons ▸ List.mem_cons_self : c ∈ _)
    rw [List.dropWhile_cons_of_pos hblank, hcons, List.cons_append,
      List.dropWhile_cons_of_neg (by rw [hc]; decide)]
  have hfound : firstXcodeVersion chars ('X' :: 'c' :: 'o' :: 'd' :: 'e' :: ' ' ::
      (Nat.toDigits 10 major ++ '.' :: (Nat.toDigits 10 minor ++ rest.toList))) =
        some (Nat.toDigits 10 major, Nat.toDigits 10 minor) := by
    have hprefix : "Xcode".toList = ['X', 'c', 'o', 'd', 'e'] := by decide
    rw [firstXcodeVersion, xcodeVersionAt, hprefix, if_pos (by rfl)]
    simp only [List.drop_succ_cons, List.drop_zero, hspaces, List.length_cons]
    rw [if_neg (by omega), hmajorDrop, hmajorTake]
    simp only [hminorTake, List.isEmpty_iff, Nat.toDigits_ne_nil, Bool.or_eq_true, or_self,
      if_false, Option.some_or]
  simp only [readOutput, htext, hfound, intValue_toDigits hmajor, intValue_toDigits hminor]

end

/-- The output for a version whose minor number is zero. -/
def xcodeTwelve : Nat → Option String :=
  fun _ => some "Xcode 12.0\nBuild version 12A7209"

/-- Each look at that minor number runs `xcodebuild` again. -/
theorem callAll_initialCache_twelve :
    Prints default xcodeTwelve (12, 0) ∧
      callAll default xcodeTwelve [.major, .minor, .major, .minor] initialCache =
        (.ok [12, 0, 12, 0], loaded (12, 0) 3) := by
  have hread : readOutput default (some "Xcode 12.0\nBuild version 12A7209") = .ok (12, 0) := by
    have htext : "Xcode 12.0\nBuild version 12A7209" = "Xcode " ++ String.ofList (Nat.toDigits 10 12) ++
        "." ++ String.ofList (Nat.toDigits 10 0) ++ "\nBuild version 12A7209" := by decide +kernel
    have hbreak : "\nBuild version 12A7209".toList.head? = some '\n' := by decide +kernel
    rw [htext]
    refine readOutput_printed (by decide) (by decide) fun c hc => ?_
    obtain rfl : '\n' = c := Option.some.inj (hbreak.symm.trans hc)
    exact ((default : VersionCharacters).ascii '\n' (by decide)).trans rfl
  have hprints : Prints default xcodeTwelve (12, 0) := fun _ => hread
  exact ⟨hprints, callAll_initialCache hprints [.major, .minor, .major, .minor]⟩

end XcodeUtils

end IOSDeviceManager
