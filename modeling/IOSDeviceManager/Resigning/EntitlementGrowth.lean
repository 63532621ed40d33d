import IOSDeviceManager.Resigning.EntitlementRank

/-! # Granting more, and the rank

How the rank moves when strings are appended to one array of a profile. On a fixed app value the
array comparison switches between three rules as the profile's array grows past the app's; a lone
wildcard entry is accepted under the first rule only because it is alone. -/

namespace IOSDeviceManager

open Entitlement

/-! ## The score of one array as it grows -/

namespace Entitlement

/-- The app's value outgrows a wildcard array: the profile's array `old` is one wildcard entry, and
the array enlarged by `more` is still shorter than the app's, or as long and the same set. -/
def OutgrowsWildcard (appValue : Option EntitlementValue) (old more : List String) : Prop :=
  ∃ value appArray, old = [value] ∧ isWildcardValue value = true ∧
    appValue = some (.array appArray) ∧
    ((old ++ more).length < appArray.length ∨
      (old ++ more).length = appArray.length ∧ isEqualToSet appArray (old ++ more) = true)

/-- An accepted array shorter than the app's is one wildcard entry, and scores `100`. -/
theorem wildcard_of_shorter {profArray appArray : List String}
    (hlt : profArray.length < appArray.length) (hacc : 1 ≤ compareArrays profArray appArray) :
    ∃ value, profArray = [value] ∧ isWildcardValue value = true ∧
      compareArrays profArray appArray = profileHasKey := by
  unfold compareArrays at hacc ⊢
  rw [if_pos hlt] at hacc ⊢
  split at hacc
  · rename_i value
    by_cases hwild : isWildcardValue value = true
    · exact ⟨value, rfl, hwild, if_pos hwild⟩
    · rw [if_neg hwild, profileDoesNotHaveRequiredKey] at hacc
      omega
  · rw [profileDoesNotHaveRequiredKey] at hacc
    omega

/-- Two or more entries that are fewer than the app's are rejected, a wildcard among them or not. -/
theorem compareArrays_of_shorter {profArray appArray : List String} (htwo : 2 ≤ profArray.length)
    (hlt : profArray.length < appArray.length) :
    compareArrays profArray appArray = profileDoesNotHaveRequiredKey := by
  unfold compareArrays
  rw [if_pos hlt]
  split
  · simp at htwo
  · rfl

/-- The score of two arrays of one length. -/
theorem compareArrays_of_length_eq {profArray appArray : List String}
    (heq : profArray.length = appArray.length) :
    compareArrays profArray appArray =
      if isEqualToSet appArray profArray = true then profileHasKeyExactly else profileHasKey := by
  unfold compareArrays
  rw [if_neg (by omega), if_neg (by omega)]

/-- The score of a longer array counts the entries the app does not ask for. -/
theorem compareArrays_of_longer {profArray appArray : List String}
    (hlt : appArray.length < profArray.length) :
    compareArrays profArray appArray =
      ((profArray.length - appArray.length : Nat) : Int) * profileHasKey := by
  unfold compareArrays
  rw [if_neg (by omega), if_pos hlt]

/-- Appending to an accepted array keeps it accepted and its score from falling, unless the app's
array outgrows a wildcard. -/
theorem compareArrays_append_iff {old more appArray : List String} (hmore : more ≠ [])
    (hacc : 1 ≤ compareArrays old appArray) :
    (compareArrays (old ++ more) appArray ≠ profileDoesNotHaveRequiredKey ∧
      compareArrays old appArray ≤ compareArrays (old ++ more) appArray) ↔
      ¬ OutgrowsWildcard (some (.array appArray)) old more := by
  have hpos : 0 < more.length := List.length_pos_iff.mpr hmore
  have hlen : (old ++ more).length = old.length + more.length := List.length_append
  by_cases hshort : old.length < appArray.length
  · -- only a lone wildcard is accepted here; what it grows into decides
    obtain ⟨value, rfl, hwild, hscore⟩ := wildcard_of_shorter hshort hacc
    have hone : [value].length = 1 := rfl
    rw [hscore]
    have hout : OutgrowsWildcard (some (.array appArray)) [value] more ↔
        (([value] ++ more).length < appArray.length ∨
          ([value] ++ more).length = appArray.length ∧
            isEqualToSet appArray ([value] ++ more) = true) := by
      constructor
      · rintro ⟨_, _, -, -, happ, hcase⟩
        obtain rfl : appArray = _ := by simpa using happ
        exact hcase
      · intro hcase
        exact ⟨value, appArray, rfl, hwild, rfl, hcase⟩
    rw [hout]
    have htwo : 2 ≤ ([value] ++ more).length := by omega
    generalize [value] ++ more = grown at htwo
    rcases Nat.lt_trichotomy grown.length appArray.length with hlt | heq | hgt
    · rw [compareArrays_of_shorter htwo hlt]
      simp [hlt]
    · rw [compareArrays_of_length_eq heq]
      split <;> rename_i hset <;>
        simp [heq, hset, profileHasKey, profileHasKeyExactly, profileDoesNotHaveRequiredKey]
    · rw [compareArrays_of_longer hgt]
      refine iff_of_true ?_ (by omega)
      simp only [profileHasKey, profileDoesNotHaveRequiredKey]
      omega
  · -- the app's array is not longer, so the enlarged one is longer than it
    have hnot : ¬ OutgrowsWildcard (some (.array appArray)) old more := by
      rintro ⟨_, _, -, -, happ, hcase⟩
      obtain rfl : appArray = _ := by simpa using happ
      omega
    refine iff_of_true ?_ hnot
    have hlonger : appArray.length < (old ++ more).length := by omega
    rw [compareArrays_of_longer hlonger]
    simp only [profileHasKey, profileDoesNotHaveRequiredKey]
    rcases Nat.lt_or_eq_of_le (Nat.le_of_not_lt hshort) with hgt | heq
    · rw [compareArrays_of_longer hgt]
      simp only [profileHasKey]
      omega
    · rw [compareArrays_of_length_eq heq.symm]
      split <;> simp only [profileHasKey, profileHasKeyExactly] <;> omega

/-- The same for one key, whatever the app's value of it. -/
theorem compareProfileEntitlement_append_iff {old more : List String} (hmore : more ≠ [])
    (profKey key : String) (v : EntitlementValue)
    (hacc : 1 ≤ compareProfileEntitlement ⟨profKey, some (.array old)⟩ ⟨key, some v⟩) :
    (compareProfileEntitlement ⟨profKey, some (.array (old ++ more))⟩ ⟨key, some v⟩ ≠
        profileDoesNotHaveRequiredKey ∧
      compareProfileEntitlement ⟨profKey, some (.array old)⟩ ⟨key, some v⟩ ≤
        compareProfileEntitlement ⟨profKey, some (.array (old ++ more))⟩ ⟨key, some v⟩) ↔
      ¬ OutgrowsWildcard (some v) old more := by
  cases v with
  | array appArray => exact compareArrays_append_iff hmore hacc
  | string value =>
    -- a string found in the array is found in the enlarged one
    have hnot : ¬ OutgrowsWildcard (some (.string value)) old more := by
      rintro ⟨_, _, -, -, happ, -⟩
      simp at happ
    simp only [compareProfileEntitlement] at hacc ⊢
    by_cases hstar : value = "*"
    · simp [hstar, profileDoesNotHaveRequiredKey] at hacc
    · by_cases hmem : value ∈ old
      · simp [hstar, hmem, hnot, profileHasKey, profileDoesNotHaveRequiredKey]
      · simp [hstar, hmem, profileDoesNotHaveRequiredKey] at hacc
  | number q => simp [compareProfileEntitlement, profileDoesNotHaveRequiredKey] at hacc
  | other className => simp [compareProfileEntitlement, profileDoesNotHaveRequiredKey] at hacc

end Entitlement

/-! ## The rank as one array grows -/

namespace Entitlements

/-- The entitlements with `more` appended to the array they have at `key`. -/
def appending (e : Entitlements) (key : String) (more : List String) : Entitlements :=
  match e.objectForKey key with
  | some (.array old) => ⟨e.dictionary.map fun d => d.setObject key (.array (old ++ more))⟩
  | _ => e

theorem objectForKey_appending_self {e : Entitlements} {key : String} {old : List String}
    (hold : e.objectForKey key = some (.array old)) (more : List String) :
    (e.appending key more).objectForKey key = some (.array (old ++ more)) := by
  unfold appending
  rw [hold]
  rcases e with ⟨_ | d⟩
  · simp [objectForKey] at hold
  · exact d.objectForKey_setObject_self key _

theorem objectForKey_appending_of_ne (e : Entitlements) {key other : String} (hne : other ≠ key)
    (more : List String) : (e.appending key more).objectForKey other = e.objectForKey other := by
  unfold appending
  split
  · rcases e with ⟨_ | d⟩
    · rfl
    · exact d.objectForKey_setObject_of_ne hne _
  · rfl

/-- The keys other than the one appended to score as before. -/
theorem compareKey_appending_of_ne (profile app : Entitlements) {key other : String}
    (hne : other ≠ key) (more : List String) :
    compareKey (profile.appending key more) app other = compareKey profile app other := by
  simp only [compareKey, objectForKey_appending_of_ne profile hne]

/-- Two scorings of distinct keys that differ at most at one of them compare as they do there. -/
theorem sum_map_le_sum_map_iff {f g : String → Int} {key : String} {keys : List String}
    (hnd : keys.Nodup) (hkey : key ∈ keys) (hsame : ∀ other ≠ key, g other = f other) :
    (keys.map f).sum ≤ (keys.map g).sum ↔ f key ≤ g key := by
  induction keys with
  | nil => simp at hkey
  | cons first keys ih =>
    obtain ⟨hnotin, hrest⟩ := List.nodup_cons.mp hnd
    rw [List.map_cons, List.sum_cons, List.map_cons, List.sum_cons]
    by_cases h : first = key
    · -- the others differ from the key, so their scores are the same
      have htail : keys.map g = keys.map f :=
        List.map_congr_left fun other hother => hsame other fun e => hnotin (by rwa [h, ← e])
      rw [htail, h]
      omega
    · have hmem : key ∈ keys := (List.mem_cons.mp hkey).resolve_left fun e => h e.symm
      rw [← ih hrest hmem, hsame first h]
      omega

variable {profile app : Entitlements} {key : String} {old more : List String}

/-- An enlarged profile is rejected exactly when the key appended to is. -/
theorem rank_appending_eq_rejected_iff
    (haccepted : rankByComparingProfileEntitlements profile app ≠ profileDoesNotHaveRequiredKey)
    (hkey : key ∈ app.allKeys) :
    rankByComparingProfileEntitlements (profile.appending key more) app =
        profileDoesNotHaveRequiredKey ↔
      compareKey (profile.appending key more) app key = profileDoesNotHaveRequiredKey := by
  rw [rank_eq_rejected_iff]
  refine ⟨?_, fun h => ⟨key, hkey, h⟩⟩
  rintro ⟨other, hother, hrej⟩
  by_cases h : other = key
  · rwa [h] at hrej
  · -- another key scores as it did in the accepted profile
    rw [compareKey_appending_of_ne profile app h, profileDoesNotHaveRequiredKey] at hrej
    have := one_le_compareKey_of_accepted haccepted other hother
    omega

/-- A profile enlarged at a key the app does not have ranks as before. -/
theorem rank_appending_of_notMem (hkey : key ∉ app.allKeys) :
    rankByComparingProfileEntitlements (profile.appending key more) app =
      rankByComparingProfileEntitlements profile app := by
  have hsame : ∀ other ∈ app.allKeys,
      compareKey (profile.appending key more) app other = compareKey profile app other :=
    fun other hother => compareKey_appending_of_ne profile app
      (fun e => hkey (by rwa [← e])) more
  have hscores := List.map_congr_left hsame
  have hrejects : (∃ other ∈ app.allKeys,
        compareKey (profile.appending key more) app other = profileDoesNotHaveRequiredKey) ↔
      ∃ other ∈ app.allKeys, compareKey profile app other = profileDoesNotHaveRequiredKey :=
    exists_congr fun other => and_congr_right fun hother => by rw [hsame other hother]
  simp only [rankByComparingProfileEntitlements, rankByComparingKeys, rankLoop_eq, hrejects,
    hscores]

/-- **When granting more is safe.** A profile that is accepted stays accepted, and its rank does not
fall, when strings are appended to one of its arrays: exactly unless that array was one wildcard
entry and the app's array is longer than the enlarged one, or as long and the same set. -/
theorem rank_appending_iff
    (haccepted : rankByComparingProfileEntitlements profile app ≠ profileDoesNotHaveRequiredKey)
    (hold : profile.objectForKey key = some (.array old)) (hmore : more ≠ []) :
    (rankByComparingProfileEntitlements (profile.appending key more) app ≠
        profileDoesNotHaveRequiredKey ∧
      rankByComparingProfileEntitlements profile app ≤
        rankByComparingProfileEntitlements (profile.appending key more) app) ↔
      ¬ OutgrowsWildcard (app.objectForKey key) old more := by
  by_cases hkey : key ∈ app.allKeys
  · obtain ⟨v, hv, hbefore⟩ := compareKey_eq profile hkey
    obtain ⟨w, hw, hafter⟩ := compareKey_eq (profile.appending key more) hkey
    obtain rfl : v = w := by simpa [hv] using hw
    rw [objectForKey_appending_self hold] at hafter
    rw [hold] at hbefore
    have hscored := one_le_compareKey_of_accepted haccepted key hkey
    rw [hbefore] at hscored
    -- one key decides, both for the rejection and for the sum
    have hone := compareProfileEntitlement_append_iff hmore key key v hscored
    rw [← hbefore, ← hafter] at hone
    rw [hv, ← hone, ne_eq, rank_appending_eq_rejected_iff haccepted hkey]
    refine and_congr_right fun hstays => ?_
    have hstill : rankByComparingProfileEntitlements (profile.appending key more) app ≠
        profileDoesNotHaveRequiredKey :=
      mt (rank_appending_eq_rejected_iff haccepted hkey).mp hstays
    rw [rank_eq_sum_of_accepted haccepted, rank_eq_sum_of_accepted hstill]
    exact sum_map_le_sum_map_iff app.nodup_allKeys hkey
      fun other hne => compareKey_appending_of_ne profile app hne more
  · rw [rank_appending_of_notMem hkey]
    apply iff_of_true ⟨haccepted, le_refl _⟩
    rintro ⟨_, appArray, -, -, happ, -⟩
    exact hkey (mem_allKeys_of_objectForKey happ)

/-- An app with three keychain access groups. -/
def keychainApp : Entitlements :=
  ⟨some ⟨[("keychain-access-groups", .array ["ABCDE12345.com.my.app", "ABCDE12345.com.my.shared",
    "ABCDE12345.com.my.extension"])], by decide⟩⟩

/-- A profile that grants every keychain access group of the team. -/
def keychainProfile : Entitlements :=
  ⟨some ⟨[("keychain-access-groups", .array ["ABCDE12345.*"])], by decide⟩⟩

/-- The profile is accepted with rank `100`, and rejected once it also grants Apple's token
group. -/
theorem rank_appending_keychainProfile :
    rankByComparingProfileEntitlements keychainProfile keychainApp = 100 ∧
    ¬ (rankByComparingProfileEntitlements
          (keychainProfile.appending "keychain-access-groups" ["com.apple.token"]) keychainApp ≠
        profileDoesNotHaveRequiredKey ∧
      rankByComparingProfileEntitlements keychainProfile keychainApp ≤
        rankByComparingProfileEntitlements
          (keychainProfile.appending "keychain-access-groups" ["com.apple.token"])
          keychainApp) := by
  decide

/-- A profile with the app's own groups stays accepted with another one, and its rank does not
fall. -/
theorem rank_appending_iff_keychainApp :
    rankByComparingProfileEntitlements
        (keychainApp.appending "keychain-access-groups" ["com.apple.token"]) keychainApp ≠
      profileDoesNotHaveRequiredKey ∧
    rankByComparingProfileEntitlements keychainApp keychainApp ≤
      rankByComparingProfileEntitlements
        (keychainApp.appending "keychain-access-groups" ["com.apple.token"]) keychainApp := by
  apply (rank_appending_iff (by decide) rfl (by decide)).mpr
  rintro ⟨value, _, hold, -⟩
  simp at hold

end Entitlements

end IOSDeviceManager
