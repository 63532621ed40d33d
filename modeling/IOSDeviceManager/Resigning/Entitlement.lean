import IOSDeviceManager.Foundation.NSString

/-! # `Entitlement`: the comparison of one entitlement

`compareProfileEntitlement:appEntitlement:` scores how a profile's value of a key meets the app's.
Negative means rejected; among the accepted, less is better. -/

namespace IOSDeviceManager

/-- The values of an entitlements plist, by the class the comparison tells apart. Numbers and
booleans are both `NSNumber`; `other` stands for the remaining property list classes. -/
inductive EntitlementValue where
  /-- An `NSString`. -/
  | string (s : String)
  /-- An `NSNumber`, booleans included. -/
  | number (q : ℚ)
  /-- An `NSArray` of strings. -/
  | array (xs : List String)
  /-- A value of any other class. -/
  | other (className : String)
  deriving DecidableEq, Repr

/-- The number of objects that make up a value: itself and its elements. -/
def EntitlementValue.weight : EntitlementValue → Nat
  | .array xs => xs.length + 1
  | _ => 1

/-! ## `EntitlementComparisonResult`

An `NSInteger` enumeration. A comparison result is an integer: the scores of arrays go beyond the
named values. -/

/-- Reject. -/
def profileDoesNotHaveRequiredKey : Int := -1

/-- Neither side has the key. -/
def appNorProfileHasKey : Int := 0

/-- Accept: equal values. -/
def profileHasKeyExactly : Int := 1

/-- Accept: the profile's value is good enough. -/
def profileHasKey : Int := 100

/-- Accept: the app does not ask for the key. -/
def profileHasUnRequiredKey : Int := 1000

/-- One entitlement: a key and its value, if any. -/
structure Entitlement where
  key : String
  value : Option EntitlementValue
  deriving DecidableEq, Repr

namespace Entitlement

/-- `entitlementWithKey:value:`. -/
def entitlementWithKey (key : String) (value : Option EntitlementValue) : Entitlement :=
  ⟨key, value⟩

/-- `-[NSSet isEqualToSet:]` of the sets made from two arrays. -/
def isEqualToSet (xs ys : List String) : Bool :=
  xs.all ys.contains && ys.all xs.contains

/-- The entry that lets a one-entry profile array stand for any number of values: `*`, or twelve
UTF-16 units that end in `*`. -/
def isWildcardValue (value : String) : Bool :=
  value == "*" || (NSString.length value == 12 && NSString.hasSuffix value "*")

/-- The array-array branch of the comparison. -/
def compareArrays (profArray appArray : List String) : Int :=
  if profArray.length < appArray.length then
    match profArray with
    | [value] =>
        if isWildcardValue value then profileHasKey else profileDoesNotHaveRequiredKey
    | _ => profileDoesNotHaveRequiredKey
  else if appArray.length < profArray.length then
    -- Prefer _less_ entitlements
    ((profArray.length - appArray.length : Nat) : Int) * profileHasKey
  else if isEqualToSet appArray profArray then profileHasKeyExactly
  else profileHasKey

/-- `compareProfileEntitlement:appEntitlement:`. -/
def compareProfileEntitlement (profileEntitlement appEntitlement : Entitlement) :
    Int :=
  match appEntitlement.value, profileEntitlement.value with
  | some _, none => profileDoesNotHaveRequiredKey
  | none, none => appNorProfileHasKey
  | none, some _ => profileHasUnRequiredKey
  | some (.array appArray), some (.array profArray) => compareArrays profArray appArray
  | some (.array _), some (.string value) =>
      if value = "*" then profileHasKey else profileDoesNotHaveRequiredKey
  | some (.string value), some (.string profValue) =>
      if value = profValue then profileHasKeyExactly else profileHasKey
  | some (.string value), some (.array profArray) =>
      if value = "*" then profileDoesNotHaveRequiredKey
      else if value ∈ profArray then profileHasKey
      else profileDoesNotHaveRequiredKey
  | some (.number value), some (.number profValue) =>
      if value = profValue then profileHasKeyExactly else profileHasKey
  -- the unexpected type pairs, reported on the console and taken for no match
  | some _, some _ => profileDoesNotHaveRequiredKey

/-- Two values that the comparison takes for exactly equal: equal strings, equal numbers, or arrays
of one length with the same elements. -/
def MatchesExactly : EntitlementValue → EntitlementValue → Prop
  | .string s, .string t => s = t
  | .number q, .number r => q = r
  | .array xs, .array ys => xs.length = ys.length ∧ ∀ x, x ∈ xs ↔ x ∈ ys
  | _, _ => False

theorem isEqualToSet_iff (xs ys : List String) :
    isEqualToSet xs ys = true ↔ ∀ x, x ∈ xs ↔ x ∈ ys := by
  simp only [isEqualToSet, Bool.and_eq_true, List.all_eq_true, List.contains_iff_mem]
  exact ⟨fun h x => ⟨h.1 x, h.2 x⟩, fun h => ⟨fun x => (h x).mp, fun x => (h x).mpr⟩⟩

/-! ## The score of one key -/

/-- The score of two arrays is the rejection, `1` or a positive multiple of `100`. -/
theorem compareArrays_cases (profArray appArray : List String) :
    compareArrays profArray appArray = profileDoesNotHaveRequiredKey ∨
      1 ≤ compareArrays profArray appArray := by
  unfold compareArrays
  split
  · split
    · split <;> simp [profileHasKey]
    · exact .inl rfl
  · split
    · right
      simp only [profileHasKey]
      omega
    · split <;> simp [profileHasKey, profileHasKeyExactly]

/-- Two arrays score `1` exactly when they have one length and the same elements. -/
theorem compareArrays_eq_exactly_iff (profArray appArray : List String) :
    compareArrays profArray appArray = profileHasKeyExactly ↔
      MatchesExactly (.array appArray) (.array profArray) := by
  simp only [MatchesExactly, ← isEqualToSet_iff]
  unfold compareArrays
  split
  · rename_i hlt
    have hne : appArray.length ≠ profArray.length := Nat.ne_of_gt hlt
    simp only [hne, false_and, iff_false]
    split
    · split <;> decide
    · decide
  · split
    · rename_i hlt
      have hne : appArray.length ≠ profArray.length := Nat.ne_of_lt hlt
      simp only [hne, false_and, iff_false, profileHasKey, profileHasKeyExactly]
      omega
    · have heq : appArray.length = profArray.length := by omega
      split <;> rename_i hset <;> simp [heq, hset, profileHasKey, profileHasKeyExactly]

/-- The score of two arrays is bounded by the size of the profile's. -/
theorem compareArrays_le (profArray appArray : List String) :
    compareArrays profArray appArray ≤ 100 * ((profArray.length : Int) + 1) := by
  unfold compareArrays
  split
  · split
    · split <;> simp [profileHasKey, profileDoesNotHaveRequiredKey]
    · simp only [profileDoesNotHaveRequiredKey]
      omega
  · split
    · simp only [profileHasKey]
      omega
    · split <;> simp only [profileHasKey, profileHasKeyExactly] <;> omega

/-- An app value is either rejected or scores at least `1`. -/
theorem compare_cases (profileEntitlement : Entitlement) (key : String) (v : EntitlementValue) :
    compareProfileEntitlement profileEntitlement ⟨key, some v⟩ = profileDoesNotHaveRequiredKey ∨
      1 ≤ compareProfileEntitlement profileEntitlement ⟨key, some v⟩ := by
  obtain ⟨profKey, profValue⟩ := profileEntitlement
  cases profValue with
  | none => exact .inl rfl
  | some w =>
    cases v <;> cases w <;> simp only [compareProfileEntitlement, true_or, compareArrays_cases]
    case string.string => split <;> simp [profileHasKey, profileHasKeyExactly]
    case string.array =>
      split
      · exact .inl rfl
      · split <;> simp [profileHasKey]
    case number.number => split <;> simp [profileHasKey, profileHasKeyExactly]
    case array.string => split <;> simp [profileHasKey]

/-- An app value scores `1` exactly when the profile's value matches it exactly. -/
theorem compare_eq_exactly_iff (profileEntitlement : Entitlement) (key : String)
    (v : EntitlementValue) :
    compareProfileEntitlement profileEntitlement ⟨key, some v⟩ = profileHasKeyExactly ↔
      ∃ w, profileEntitlement.value = some w ∧ MatchesExactly v w := by
  obtain ⟨profKey, profValue⟩ := profileEntitlement
  cases profValue with
  | none =>
    simp [compareProfileEntitlement, profileDoesNotHaveRequiredKey, profileHasKeyExactly]
  | some w =>
    simp only [Option.some.injEq, exists_eq_left']
    cases v <;> cases w <;>
      simp only [compareProfileEntitlement, compareArrays_eq_exactly_iff, MatchesExactly,
        iff_false]
    case string.string => split <;> simp_all [profileHasKey, profileHasKeyExactly]
    case number.number => split <;> simp_all [profileHasKey, profileHasKeyExactly]
    case string.array =>
      split
      · decide
      · split <;> decide
    case array.string => split <;> decide
    all_goals decide

/-- The score of an app value is bounded by the size of the profile's value. -/
theorem compare_le (profileEntitlement : Entitlement) (key : String) (v : EntitlementValue) :
    compareProfileEntitlement profileEntitlement ⟨key, some v⟩ ≤
      100 * (profileEntitlement.value.elim 0 EntitlementValue.weight : Nat) := by
  obtain ⟨profKey, profValue⟩ := profileEntitlement
  cases profValue with
  | none => simp [compareProfileEntitlement, profileDoesNotHaveRequiredKey]
  | some w =>
    cases v <;> cases w <;>
      simp only [compareProfileEntitlement, Option.elim, EntitlementValue.weight,
        profileDoesNotHaveRequiredKey, profileHasKey, profileHasKeyExactly]
    case array.array xs ys => exact_mod_cast compareArrays_le ys xs
    all_goals repeat' split
    all_goals omega

end Entitlement

end IOSDeviceManager
