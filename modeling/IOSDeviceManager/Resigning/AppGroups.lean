import IOSDeviceManager.Resigning.Codesigner
import IOSDeviceManager.Resigning.EntitlementRank

/-! # App groups: the ranking and the resigning

Two rules decide whether the app groups of a profile suffice: the ranking scores the two arrays, and
the resigning compares their lengths. They agree except on a profile with a single wildcard group,
which the ranking accepts for any number of app groups. -/

namespace IOSDeviceManager

open Entitlement Entitlements

namespace Codesigner

/-- The groups of an accepted profile suffice, or the profile has a single wildcard group. -/
theorem length_le_or_wildcard_of_compareArrays {profArray appArray : List String}
    (h : compareArrays profArray appArray ≠ profileDoesNotHaveRequiredKey) :
    appArray.length ≤ profArray.length ∨
      ∃ value, profArray = [value] ∧ isWildcardValue value = true := by
  by_cases hlt : profArray.length < appArray.length
  · unfold compareArrays at h
    rw [if_pos hlt] at h
    rcases profArray with _ | ⟨value, _ | ⟨second, rest⟩⟩
    · exact absurd rfl h
    · by_cases hwildcard : isWildcardValue value = true
      · exact .inr ⟨value, rfl, hwildcard⟩
      · simp [hwildcard] at h
    · exact absurd rfl h
  · exact .inl (not_lt.mp hlt)

/-- A single wildcard group is accepted for two or more app groups. -/
theorem compareArrays_wildcard {value : String} (hwildcard : isWildcardValue value = true)
    {appArray : List String} (h : 2 ≤ appArray.length) :
    compareArrays [value] appArray = profileHasKey := by
  have hlt : [value].length < appArray.length := h
  rw [compareArrays, if_pos hlt]
  simp [hwildcard]

/-! ## The map of app groups -/

/-- Every app group is sent to one of the groups, injectively when there are no duplicates. -/
structure IsAssignment (old new : List String) (entitlementsMap : EntitlementsMeta) : Prop where
  assigned : ∀ group ∈ old, ∃ ourGroup ∈ entitlementsMap.allAppGroupIDs,
    entitlementsMap.appGroupIDs.objectForKey group = some ourGroup
  injective : old.Nodup → new.Nodup → ∀ group ∈ old, ∀ other ∈ old,
    entitlementsMap.appGroupIDs.objectForKey group =
      entitlementsMap.appGroupIDs.objectForKey other → group = other

/-- The map by position is an assignment. -/
theorem isAssignment_of_length_le {old new : List String} (h : old.length ≤ new.length) :
    IsAssignment old new ⟨NSDictionary.dictionaryWithObjects (new.take old.length) old,
      new.take old.length⟩ := by
  have hlookup : ∀ group ∈ old, ∃ hidx : old.idxOf group < (new.take old.length).length,
      (NSDictionary.dictionaryWithObjects (new.take old.length) old).objectForKey group =
        some (new.take old.length)[old.idxOf group] := by
    intro group hgroup
    have hidx : old.idxOf group < (new.take old.length).length := by
      rw [List.length_take, Nat.min_eq_left h]
      exact List.idxOf_lt_length_of_mem hgroup
    refine ⟨hidx, ?_⟩
    rw [NSDictionary.objectForKey_dictionaryWithObjects, if_pos hgroup,
      List.getElem?_eq_getElem hidx]
  constructor
  · intro group hgroup
    obtain ⟨hidx, heq⟩ := hlookup group hgroup
    exact ⟨_, List.getElem_mem hidx, heq⟩
  · intro _ hnew group hgroup other hother heq
    obtain ⟨hidx, hgroupEq⟩ := hlookup group hgroup
    obtain ⟨hidx', hotherEq⟩ := hlookup other hother
    rw [hgroupEq, hotherEq, Option.some.injEq] at heq
    have hsame := (hnew.sublist (List.take_sublist _ _)).getElem_inj_iff.mp heq
    exact (List.idxOf_inj hgroup).mp hsame

/-! ## Agreement -/

/-- What an accepted profile promises: the application-group step does not throw, and its map is an
assignment. -/
def AppGroupStepSucceeds (app : AppDir) (profile : MobileProfile) (old new : List String) : Prop :=
  ∃ entitlementsMap, mapAppGroups profile.name (entitlementsWithBundlePath app)
      profile.entitlements = .ok entitlementsMap ∧ IsAssignment old new entitlementsMap

/-- The step succeeds exactly when the profile has as many groups as the app. -/
theorem appGroupStepSucceeds_iff {app : AppDir} {profile : MobileProfile} {old new : List String}
    (hold : appGroups (entitlementsWithBundlePath app) = .ok old)
    (hnew : appGroups (some profile.entitlements) = .ok new) :
    AppGroupStepSucceeds app profile old new ↔ old.length ≤ new.length := by
  constructor
  · rintro ⟨entitlementsMap, hmap, -⟩
    obtain ⟨old', new', hold', hnew', hle, -⟩ := mapAppGroups_eq_ok_iff.mp hmap
    obtain rfl : old = old' := by simpa [hold] using hold'
    obtain rfl : new = new' := by simpa [hnew] using hnew'
    exact hle
  · intro hle
    exact ⟨_, mapAppGroups_eq_ok_iff.mpr ⟨old, new, hold, hnew, hle, rfl⟩,
      isAssignment_of_length_le hle⟩

/-- The comparison of the app groups, for an app that has some. -/
theorem compareKey_appGroupKey {app : AppDir} {profile : MobileProfile} {old new : List String}
    (hold : appGroups (entitlementsWithBundlePath app) = .ok old)
    (hnew : appGroups (some profile.entitlements) = .ok new) (hne : old ≠ []) :
    appGroupKey ∈ app.signature.allKeys ∧
      (compareKey profile.entitlements ⟨some app.signature⟩ appGroupKey =
          compareArrays new old ∨
        new = [] ∧ compareKey profile.entitlements ⟨some app.signature⟩ appGroupKey =
          profileDoesNotHaveRequiredKey) := by
  have hvalue : app.signature.objectForKey appGroupKey = some (.array old) := by
    rw [appGroups_eq_ok_iff, objectForKey_entitlementsWithBundlePath] at hold
    exact hold.resolve_right fun h => hne h.2
  refine ⟨?_, ?_⟩
  · by_contra hnot
    rw [(app.signature.objectForKey_eq_none_iff appGroupKey).mpr hnot] at hvalue
    cases hvalue
  · have hcompare : compareKey profile.entitlements ⟨some app.signature⟩ appGroupKey =
        compareProfileEntitlement ⟨appGroupKey, profile.entitlements.objectForKey appGroupKey⟩
          ⟨appGroupKey, some (.array old)⟩ := by
      rw [compareKey, entitlementWithKey, entitlementWithKey, ← hvalue]
      rfl
    rcases appGroups_eq_ok_iff.mp hnew with hsome | ⟨hnone, rfl⟩
    · rw [Option.bind_some] at hsome
      left
      rw [hcompare, hsome]
      rfl
    · rw [Option.bind_some] at hnone
      right
      rw [hcompare, hnone]
      exact ⟨rfl, rfl⟩

/-- **The ranking and the application-group step.** Where the app groups are arrays: a profile that
the ranking accepts passes the application-group step, with an assignment of the app groups, except
exactly when its only group is a wildcard, the app has two or more groups, and no other key of the
app is rejected. -/
theorem appGroupStep_of_accepted_iff {app : AppDir} {profile : MobileProfile}
    {old new : List String} (hold : appGroups (entitlementsWithBundlePath app) = .ok old)
    (hnew : appGroups (some profile.entitlements) = .ok new) :
    (rankByComparingProfileEntitlements profile.entitlements ⟨some app.signature⟩ ≠
        profileDoesNotHaveRequiredKey → AppGroupStepSucceeds app profile old new) ↔
      ¬ ((∃ value, new = [value] ∧ isWildcardValue value = true) ∧ 2 ≤ old.length ∧
        ∀ key ∈ app.signature.allKeys, key ≠ appGroupKey →
          compareKey profile.entitlements ⟨some app.signature⟩ key ≠
            profileDoesNotHaveRequiredKey) := by
  rw [appGroupStepSucceeds_iff hold hnew]
  constructor
  · rintro hpromise ⟨⟨value, rfl, hwildcard⟩, hlength, hothers⟩
    have hne : old ≠ [] := by
      rintro rfl
      simp at hlength
    have hgroups : compareKey profile.entitlements ⟨some app.signature⟩ appGroupKey =
        profileHasKey := by
      obtain ⟨-, hcompare | ⟨hnil, -⟩⟩ := compareKey_appGroupKey hold hnew hne
      · rw [hcompare, compareArrays_wildcard hwildcard hlength]
      · cases hnil
    -- The wildcard satisfies the groups, so a rejection would be by another key.
    have hle := hpromise fun hrejected => by
      obtain ⟨key, hkey, hrej⟩ := (rank_eq_rejected_iff _ _).mp hrejected
      by_cases h : key = appGroupKey
      · rw [h, hgroups] at hrej
        cases hrej
      · exact hothers key hkey h hrej
    simp only [List.length_singleton] at hle
    omega
  · intro hnot haccepted
    -- If the step fails, the app has more groups, and only a wildcard is accepted for them.
    by_contra hlength
    have hne : old ≠ [] := by
      rintro rfl
      simp at hlength
    have hkeys := mt (rank_eq_rejected_iff profile.entitlements ⟨some app.signature⟩).mpr haccepted
    push Not at hkeys
    obtain ⟨hmem, hcompare | ⟨-, hrejected⟩⟩ := compareKey_appGroupKey hold hnew hne
    · have hgroups := hkeys appGroupKey hmem
      rw [hcompare] at hgroups
      rcases length_le_or_wildcard_of_compareArrays hgroups with hle | ⟨value, rfl, hwildcard⟩
      · exact hlength hle
      · refine hnot ⟨⟨value, rfl, hwildcard⟩, ?_, fun key hkey _ => hkeys key hkey⟩
        simp only [List.length_singleton] at hlength
        omega
    · exact hkeys appGroupKey hmem hrejected

/-! ### An app with two groups -/

/-- An app directory with two app groups in its signature. -/
def twoGroupsApp : AppDir where
  baseDir := "/tmp/Payload"
  name := "My.app"
  infoPlist := some ⟨some "com.my.app", some "My"⟩
  bundleExecutableExists := true
  signature := ⟨[("application-identifier", .string "ABCDE12345.com.my.app"),
    ("com.apple.security.application-groups", .array ["group.a", "group.b"])], by decide⟩
  entitlementsMeta := none

/-- The entitlements of a profile for the app with the given groups. -/
def entitlementsWithGroups (groups : List String) : Entitlements :=
  ⟨some ⟨[("application-identifier", .string "ABCDE12345.com.my.app"),
    ("com.apple.security.application-groups", .array groups)], by simp⟩⟩

/-- They weigh one entry per group, and two more. -/
theorem weight_entitlementsWithGroups (groups : List String) :
    (entitlementsWithGroups groups).weight = groups.length + 2 := by
  simp only [entitlementsWithGroups, Entitlements.weight, Entitlements.entries, Option.elim,
    List.map_cons, List.map_nil, EntitlementValue.weight, List.sum_cons, List.sum_nil]
  omega

/-- Fewer than a hundred groups are within the bound on the weight. -/
theorem weight_entitlementsWithGroups_lt (groups : List String) (h : groups.length < 100) :
    (entitlementsWithGroups groups).weight < 2 ^ 56 := by
  rw [weight_entitlementsWithGroups]
  omega

/-- A profile for the app with the given groups. -/
def profileWithGroups (groups : List String) (h : groups.length < 100) : MobileProfile :=
  .development (entitlementsWithGroups groups) (weight_entitlementsWithGroups_lt groups h)

/-- A profile with three groups takes the two of the app. -/
theorem appGroupStep_of_accepted_threeGroups :
    AppGroupStepSucceeds twoGroupsApp
      (profileWithGroups ["group.x", "group.y", "group.z"] (by decide)) ["group.a", "group.b"]
      ["group.x", "group.y", "group.z"] := by
  refine (appGroupStep_of_accepted_iff rfl rfl).mpr ?_ (by decide +kernel)
  rintro ⟨⟨value, hvalue, -⟩, -⟩
  cases hvalue

/-- **An accepted profile that cannot be used.** A wildcard group is ranked as good for both groups
of the app, and then the resigning throws. -/
theorem appGroupStep_throws_wildcardGroup :
    rankByComparingProfileEntitlements
        (profileWithGroups ["ABCDE12345.*"] (by decide)).entitlements
        ⟨some twoGroupsApp.signature⟩ = 101 ∧
      mapAppGroups (profileWithGroups ["ABCDE12345.*"] (by decide)).name
        (entitlementsWithBundlePath twoGroupsApp)
        (profileWithGroups ["ABCDE12345.*"] (by decide)).entitlements =
          .error (.cbx "Application has more app groups then Development supports") :=
  ⟨by decide +kernel, rfl⟩

end Codesigner

end IOSDeviceManager
