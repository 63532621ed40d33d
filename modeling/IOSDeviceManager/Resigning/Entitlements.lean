import IOSDeviceManager.Foundation.NSDictionary
import IOSDeviceManager.Resigning.Entitlement

/-! # `Entitlements`: a dictionary of entitlements and its rank

The dictionary, the replacement of the application identifier, and
`rankByComparingProfileEntitlements:appEntitlements:`, the loop over the app's keys that adds the
scores up and breaks at the first rejected key. -/

namespace IOSDeviceManager

open Entitlement

/-- `Entitlements`: the wrapped dictionary, `nil` for a profile that has none. -/
structure Entitlements where
  dictionary : Option (NSDictionary EntitlementValue)

namespace Entitlements

/-- The entries of the wrapped dictionary, none when it is `nil`. -/
def entries (e : Entitlements) : List (String × EntitlementValue) :=
  e.dictionary.elim [] NSDictionary.entries

/-- `[self.dictionary allKeys]`. -/
def allKeys (e : Entitlements) : List String :=
  e.dictionary.elim [] NSDictionary.allKeys

/-- `count`. -/
def count (e : Entitlements) : Nat :=
  e.dictionary.elim 0 NSDictionary.count

/-- `objectForKeyedSubscript:`. -/
def objectForKey (e : Entitlements) (key : String) : Option EntitlementValue :=
  e.dictionary.bind fun d => d.objectForKey key

/-- The number of objects that make up the dictionary's values. -/
def weight (e : Entitlements) : Nat :=
  (e.entries.map fun entry => entry.2.weight).sum

/-- `entitlementsByReplacingApplicationIdentifier:`; assigning `nil` would remove the key, and is
only ever done when the key is absent. -/
def entitlementsByReplacingApplicationIdentifier (e : Entitlements)
    (applicationIdentifier : Option String) : Entitlements :=
  match applicationIdentifier with
  | some s => ⟨e.dictionary.map fun d => d.setObject "application-identifier" (.string s)⟩
  | none => e

/-- The comparison of one key in `rankByComparingProfileEntitlements:appEntitlements:`. -/
def compareKey (profileEntitlements appEntitlements : Entitlements) (key : String) : Int :=
  compareProfileEntitlement
    (entitlementWithKey key (profileEntitlements.objectForKey key))
    (entitlementWithKey key (appEntitlements.objectForKey key))

/-- The loop of `rankByComparingProfileEntitlements:appEntitlements:` over the keys still to be
compared, from the running sum. -/
def rankLoop (profileEntitlements appEntitlements : Entitlements) : List String → Int → Int
  | [], sum => sum
  | key :: keys, sum =>
      let current := compareKey profileEntitlements appEntitlements key
      if current = profileDoesNotHaveRequiredKey then profileDoesNotHaveRequiredKey
      else rankLoop profileEntitlements appEntitlements keys (sum + current)

/-- `rankByComparingProfileEntitlements:appEntitlements:` when the app's keys are enumerated in the
order `keys`. -/
def rankByComparingKeys (keys : List String) (profileEntitlements appEntitlements : Entitlements) :
    Int :=
  rankLoop profileEntitlements appEntitlements keys 0

/-- `rankByComparingProfileEntitlements:appEntitlements:`. -/
def rankByComparingProfileEntitlements (profileEntitlements appEntitlements : Entitlements) : Int :=
  rankByComparingKeys appEntitlements.allKeys profileEntitlements appEntitlements

/-! ## The dictionary underneath -/

theorem nodup_allKeys (e : Entitlements) : e.allKeys.Nodup := by
  rcases e with ⟨_ | d⟩
  · exact List.nodup_nil
  · exact d.nodup_allKeys

@[simp] theorem length_allKeys (e : Entitlements) : e.allKeys.length = e.count := by
  rcases e with ⟨_ | d⟩
  · rfl
  · exact d.length_allKeys

theorem map_fst_entries (e : Entitlements) : e.entries.map Prod.fst = e.allKeys := by
  rcases e with ⟨_ | d⟩ <;> rfl

theorem objectForKey_eq_some_iff (e : Entitlements) (key : String) (value : EntitlementValue) :
    e.objectForKey key = some value ↔ (key, value) ∈ e.entries := by
  rcases e with ⟨_ | d⟩
  · simp [objectForKey, entries]
  · exact d.objectForKey_eq_some_iff key value

/-- A string that has a value is a key. -/
theorem mem_allKeys_of_objectForKey {e : Entitlements} {key : String} {value : EntitlementValue}
    (h : e.objectForKey key = some value) : key ∈ e.allKeys := by
  rw [← map_fst_entries]
  exact List.mem_map.mpr ⟨(key, value), (e.objectForKey_eq_some_iff key value).mp h, rfl⟩

/-- Every key of the app has a value. -/
theorem exists_objectForKey {e : Entitlements} {key : String} (h : key ∈ e.allKeys) :
    ∃ value, e.objectForKey key = some value := by
  rw [← map_fst_entries] at h
  obtain ⟨⟨k, value⟩, hmem, rfl⟩ := List.mem_map.mp h
  exact ⟨value, (e.objectForKey_eq_some_iff k value).mpr hmem⟩

/-! ## Replacing the application identifier -/

/-- Replacing the application identifier leaves every other key alone. -/
theorem objectForKey_replacing_of_ne (e : Entitlements) (appID : Option String) {key : String}
    (hne : key ≠ "application-identifier") :
    (e.entitlementsByReplacingApplicationIdentifier appID).objectForKey key =
      e.objectForKey key := by
  rcases e with ⟨_ | d⟩ <;> cases appID
  · rfl
  · rfl
  · rfl
  · exact d.objectForKey_setObject_of_ne hne _

/-- The replaced application identifier is the new one. -/
theorem objectForKey_replacing_self {e : Entitlements} {appID : String}
    {d : NSDictionary EntitlementValue}
    (h : (e.entitlementsByReplacingApplicationIdentifier (some appID)).dictionary = some d) :
    (e.entitlementsByReplacingApplicationIdentifier (some appID)).objectForKey
      "application-identifier" = some (.string appID) := by
  rcases e with ⟨_ | old⟩
  · simp [entitlementsByReplacingApplicationIdentifier] at h
  · exact old.objectForKey_setObject_self _ _

/-- There is a dictionary afterwards exactly when there was one before. -/
@[simp] theorem isSome_dictionary_replacing (e : Entitlements) (appID : Option String) :
    (e.entitlementsByReplacingApplicationIdentifier appID).dictionary.isSome =
      e.dictionary.isSome := by
  rcases e with ⟨_ | d⟩ <;> cases appID <;> rfl

end Entitlements

end IOSDeviceManager
