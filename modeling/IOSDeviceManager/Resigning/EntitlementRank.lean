import IOSDeviceManager.Resigning.Entitlements

/-! # The entitlement rank

The rank loop mixes a `-1` sentinel with a sum and leaves early. Here the loop is reduced to its
meaning: the sentinel if some key is rejected, else the sum of the scores. From this follow the
independence of the enumeration order, the lower bound by the number of keys, and that an exact
profile ranks first. -/

namespace IOSDeviceManager

open Entitlement

namespace Entitlements

variable (profile app : Entitlements)

/-- Every key of the app scores: its value in `compareKey` is never missing. -/
theorem compareKey_eq {app : Entitlements} {key : String} (h : key ∈ app.allKeys) :
    ∃ v, app.objectForKey key = some v ∧
      compareKey profile app key =
        compareProfileEntitlement ⟨key, profile.objectForKey key⟩ ⟨key, some v⟩ := by
  obtain ⟨v, hv⟩ := exists_objectForKey h
  exact ⟨v, hv, by simp [compareKey, entitlementWithKey, hv]⟩

/-- A key of the app is rejected or scores at least `1`. -/
theorem compareKey_cases {app : Entitlements} {key : String} (h : key ∈ app.allKeys) :
    compareKey profile app key = profileDoesNotHaveRequiredKey ∨
      1 ≤ compareKey profile app key := by
  obtain ⟨v, -, heq⟩ := compareKey_eq profile h
  rw [heq]
  exact compare_cases _ key v

/-- A key of the app scores `1` exactly when the two values match exactly. -/
theorem compareKey_eq_exactly_iff {app : Entitlements} {key : String} (h : key ∈ app.allKeys) :
    compareKey profile app key = profileHasKeyExactly ↔
      ∃ v w, app.objectForKey key = some v ∧ profile.objectForKey key = some w ∧
        MatchesExactly v w := by
  obtain ⟨v, hv, heq⟩ := compareKey_eq profile h
  rw [heq, compare_eq_exactly_iff]
  simp [hv]

/-! ## The loop -/

/-- The loop returns the sentinel if it meets a rejected key, else the sum of the scores. -/
theorem rankLoop_eq (keys : List String) (sum : Int) :
    rankLoop profile app keys sum =
      if ∃ key ∈ keys, compareKey profile app key = profileDoesNotHaveRequiredKey then
        profileDoesNotHaveRequiredKey
      else sum + (keys.map (compareKey profile app)).sum := by
  induction keys generalizing sum with
  | nil => simp [rankLoop]
  | cons key keys ih =>
    rw [rankLoop]
    by_cases h : compareKey profile app key = profileDoesNotHaveRequiredKey
    · simp [h]
    · simp only [h, if_false, ih, List.mem_cons, exists_eq_or_imp, false_or, List.map_cons,
        List.sum_cons, add_assoc]

/-- Accepted keys add up to at least their number. -/
theorem length_le_sum_compareKey {keys : List String}
    (h : ∀ key ∈ keys, 1 ≤ compareKey profile app key) :
    (keys.length : Int) ≤ (keys.map (compareKey profile app)).sum := by
  induction keys with
  | nil => simp
  | cons key keys ih =>
    have hhead := h key List.mem_cons_self
    have htail := ih fun k hk => h k (List.mem_cons_of_mem key hk)
    simp only [List.length_cons, List.map_cons, List.sum_cons]
    omega

/-- Accepted keys add up to their number exactly when each of them scores `1`. -/
theorem sum_compareKey_eq_length_iff {keys : List String}
    (h : ∀ key ∈ keys, 1 ≤ compareKey profile app key) :
    (keys.map (compareKey profile app)).sum = keys.length ↔
      ∀ key ∈ keys, compareKey profile app key = profileHasKeyExactly := by
  induction keys with
  | nil => simp
  | cons key keys ih =>
    have hhead := h key List.mem_cons_self
    have hle := length_le_sum_compareKey profile app
      fun k hk => h k (List.mem_cons_of_mem key hk)
    have htail := ih fun k hk => h k (List.mem_cons_of_mem key hk)
    rw [List.length_cons, List.map_cons, List.sum_cons, List.forall_mem_cons, ← htail,
      profileHasKeyExactly]
    omega

/-! ## The rank -/

/-- The rank does not depend on the order in which the app's keys are enumerated. -/
theorem rankByComparingKeys_of_perm {keys keys' : List String} (h : keys.Perm keys') :
    rankByComparingKeys keys profile app = rankByComparingKeys keys' profile app := by
  have hsum := (h.map (compareKey profile app)).sum_eq
  simp only [rankByComparingKeys, rankLoop_eq, h.mem_iff, hsum]

/-- The profile is rejected exactly when one of the app's keys is. -/
theorem rank_eq_rejected_iff :
    rankByComparingProfileEntitlements profile app = profileDoesNotHaveRequiredKey ↔
      ∃ key ∈ app.allKeys, compareKey profile app key = profileDoesNotHaveRequiredKey := by
  rw [rankByComparingProfileEntitlements, rankByComparingKeys, rankLoop_eq]
  split
  · simp [*]
  · rename_i hnone
    have hpos : ∀ key ∈ app.allKeys, 1 ≤ compareKey profile app key := fun key hkey =>
      (compareKey_cases profile hkey).resolve_left fun hrej => hnone ⟨key, hkey, hrej⟩
    have hle := length_le_sum_compareKey profile app hpos
    refine iff_of_false (fun hrej => ?_) hnone
    rw [profileDoesNotHaveRequiredKey] at hrej
    omega

/-- No key of an accepted profile is rejected: each scores at least `1`. -/
theorem one_le_compareKey_of_accepted {profile app : Entitlements}
    (h : rankByComparingProfileEntitlements profile app ≠ profileDoesNotHaveRequiredKey) :
    ∀ key ∈ app.allKeys, 1 ≤ compareKey profile app key := fun key hkey =>
  (compareKey_cases profile hkey).resolve_left fun hrej =>
    h ((rank_eq_rejected_iff profile app).mpr ⟨key, hkey, hrej⟩)

/-- The rank of an accepted profile is the sum of its scores. -/
theorem rank_eq_sum_of_accepted {profile app : Entitlements}
    (h : rankByComparingProfileEntitlements profile app ≠ profileDoesNotHaveRequiredKey) :
    rankByComparingProfileEntitlements profile app =
      (app.allKeys.map (compareKey profile app)).sum := by
  have hnone := mt (rank_eq_rejected_iff profile app).mpr h
  rw [rankByComparingProfileEntitlements, rankByComparingKeys, rankLoop_eq, if_neg hnone, zero_add]

/-- An accepted profile ranks at least the number of the app's keys. -/
theorem count_le_rank_of_accepted {profile app : Entitlements}
    (h : rankByComparingProfileEntitlements profile app ≠ profileDoesNotHaveRequiredKey) :
    (app.count : Int) ≤ rankByComparingProfileEntitlements profile app := by
  rw [rank_eq_sum_of_accepted h, ← length_allKeys]
  exact length_le_sum_compareKey profile app (one_le_compareKey_of_accepted h)

/-- An accepted profile ranks the number of the app's keys exactly when all of them match. -/
theorem rank_eq_count_iff_of_accepted {profile app : Entitlements}
    (h : rankByComparingProfileEntitlements profile app ≠ profileDoesNotHaveRequiredKey) :
    rankByComparingProfileEntitlements profile app = app.count ↔
      ∀ key ∈ app.allKeys, compareKey profile app key = profileHasKeyExactly := by
  rw [rank_eq_sum_of_accepted h, ← length_allKeys]
  exact sum_compareKey_eq_length_iff profile app (one_le_compareKey_of_accepted h)

/-- A profile that matches every key exactly ranks the number of the app's keys. -/
theorem rank_eq_count_of_exact {profile app : Entitlements}
    (h : ∀ key ∈ app.allKeys, compareKey profile app key = profileHasKeyExactly) :
    rankByComparingProfileEntitlements profile app = app.count := by
  have hacc : rankByComparingProfileEntitlements profile app ≠ profileDoesNotHaveRequiredKey := by
    intro hrej
    obtain ⟨key, hkey, hcmp⟩ := (rank_eq_rejected_iff profile app).mp hrej
    rw [h key hkey] at hcmp
    exact absurd hcmp (by decide)
  exact (rank_eq_count_iff_of_accepted hacc).mpr h

/-- **The rank is well defined and prefers exact profiles.** In every enumeration order of the app's
keys the rank is the same. It is the rejection exactly when some key is rejected; else it is the sum
of the scores, at least the number of keys, with equality exactly when every key's two values are
equal strings, equal numbers or arrays of one length with the same elements. So a profile that
matches exactly never ranks after another accepted one. -/
theorem rank_wellDefined (keys : List String) (hkeys : keys.Perm app.allKeys) :
    rankByComparingKeys keys profile app = rankByComparingProfileEntitlements profile app ∧
    (rankByComparingKeys keys profile app = profileDoesNotHaveRequiredKey ↔
      ∃ key ∈ app.allKeys, compareKey profile app key = profileDoesNotHaveRequiredKey) ∧
    (rankByComparingKeys keys profile app ≠ profileDoesNotHaveRequiredKey →
      rankByComparingKeys keys profile app = (keys.map (compareKey profile app)).sum ∧
      (app.count : Int) ≤ rankByComparingKeys keys profile app ∧
      (rankByComparingKeys keys profile app = app.count ↔
        ∀ key ∈ app.allKeys, compareKey profile app key = profileHasKeyExactly)) ∧
    (∀ key ∈ app.allKeys, compareKey profile app key = profileHasKeyExactly ↔
      ∃ v w, app.objectForKey key = some v ∧ profile.objectForKey key = some w ∧
        MatchesExactly v w) ∧
    ((∀ key ∈ app.allKeys, compareKey profile app key = profileHasKeyExactly) →
      ∀ other : Entitlements,
        rankByComparingProfileEntitlements other app ≠ profileDoesNotHaveRequiredKey →
        rankByComparingKeys keys profile app ≤ rankByComparingProfileEntitlements other app) := by
  have heq : rankByComparingKeys keys profile app =
      rankByComparingProfileEntitlements profile app :=
    rankByComparingKeys_of_perm profile app hkeys
  rw [heq]
  refine ⟨rfl, rank_eq_rejected_iff profile app, fun hacc => ?_,
    fun key hkey => compareKey_eq_exactly_iff profile hkey, fun hexact other hother => ?_⟩
  · refine ⟨?_, count_le_rank_of_accepted hacc, rank_eq_count_iff_of_accepted hacc⟩
    rw [rank_eq_sum_of_accepted hacc, (hkeys.map (compareKey profile app)).sum_eq]
  · rw [rank_eq_count_of_exact hexact]
    exact count_le_rank_of_accepted hother

/-- An app with an application identifier and a debugging entitlement. -/
def debugApp : Entitlements :=
  ⟨some ⟨[("application-identifier", .string "ABCDE12345.com.my.app"),
    ("get-task-allow", .number 1)], by decide⟩⟩

/-- A wildcard development profile for it. -/
def wildcardProfile : Entitlements :=
  ⟨some ⟨[("get-task-allow", .number 1),
    ("application-identifier", .string "ABCDE12345.*")], by decide⟩⟩

/-- The rank on the wildcard profile, whose keys are enumerated the other way round: `101`, which is
more than what the app's own entitlements get. -/
theorem rank_wellDefined_wildcardProfile :
    rankByComparingKeys ["get-task-allow", "application-identifier"] wildcardProfile debugApp =
      101 ∧
    rankByComparingKeys ["get-task-allow", "application-identifier"] debugApp debugApp ≤ 101 := by
  have hkeys : ["get-task-allow", "application-identifier"].Perm debugApp.allKeys := by decide
  refine ⟨(rank_wellDefined wildcardProfile debugApp _ hkeys).1.trans (by decide), ?_⟩
  exact (rank_wellDefined debugApp debugApp _ hkeys).2.2.2.2 (by decide) wildcardProfile (by decide)

/-! ## The size of a rank -/

/-- Changing a function at one point changes a sum over distinct keys by at most the new value. -/
theorem sum_map_ite_le (name : String) (a : Nat) (g : String → Nat) {keys : List String}
    (hnd : keys.Nodup) :
    (keys.map fun key => if key = name then a else g key).sum ≤ a + (keys.map g).sum := by
  induction keys with
  | nil => simp
  | cons key keys ih =>
    obtain ⟨hnotin, hrest⟩ := List.nodup_cons.mp hnd
    have hih := ih hrest
    rw [List.map_cons, List.sum_cons, List.map_cons, List.sum_cons]
    by_cases h : key = name
    · -- the other keys differ from `name`
      have hsame : (keys.map fun key => if key = name then a else g key) = keys.map g :=
        List.map_congr_left fun k hk => if_neg fun e => hnotin (by rwa [h, ← e])
      rw [if_pos h, hsame]
      omega
    · rw [if_neg h]
      omega

/-- The values found under distinct keys weigh at most as much as the whole dictionary. -/
theorem sum_weight_objectForKey_le (e : Entitlements) {keys : List String} (hnd : keys.Nodup) :
    (keys.map fun key => (e.objectForKey key).elim 0 EntitlementValue.weight).sum ≤ e.weight := by
  have hlookup : ∀ entries : List (String × EntitlementValue),
      (keys.map fun key => (entries.lookup key).elim 0 EntitlementValue.weight).sum ≤
        (entries.map fun entry => entry.2.weight).sum := by
    intro entries
    induction entries with
    | nil => simp
    | cons entry rest ih =>
      have hite : ∀ key, (((entry :: rest).lookup key).elim 0 EntitlementValue.weight) =
          if key = entry.1 then entry.2.weight
          else (rest.lookup key).elim 0 EntitlementValue.weight := by
        intro key
        rw [NSDictionary.lookup_cons_eq_ite]
        split <;> rfl
      simp only [hite, List.map_cons, List.sum_cons]
      exact (sum_map_ite_le entry.1 _ _ hnd).trans (Nat.add_le_add_left ih _)
  rcases e with ⟨_ | d⟩
  · simp [objectForKey, weight]
  · exact hlookup d.entries

/-- The rank is bounded by the size of the profile's entitlements. -/
theorem rank_le_weight :
    rankByComparingProfileEntitlements profile app ≤ 100 * (profile.weight : Int) := by
  by_cases hacc :
      rankByComparingProfileEntitlements profile app = profileDoesNotHaveRequiredKey
  · rw [hacc, profileDoesNotHaveRequiredKey]
    omega
  · have hkeys : ∀ keys : List String, (∀ key ∈ keys, key ∈ app.allKeys) →
        (keys.map (compareKey profile app)).sum ≤ 100 *
          ((keys.map fun key =>
            (profile.objectForKey key).elim 0 EntitlementValue.weight).sum : Nat) := by
      intro keys hsub
      induction keys with
      | nil => simp
      | cons key keys ih =>
        obtain ⟨v, -, heq⟩ := compareKey_eq profile (hsub key List.mem_cons_self)
        have hhead := compare_le ⟨key, profile.objectForKey key⟩ key v
        have htail := ih fun k hk => hsub k (List.mem_cons_of_mem key hk)
        simp only [List.map_cons, List.sum_cons, heq] at hhead htail ⊢
        omega
    have hsum := hkeys app.allKeys fun _ h => h
    have hweight := sum_weight_objectForKey_le profile app.nodup_allKeys
    rw [rank_eq_sum_of_accepted hacc]
    omega

end Entitlements

end IOSDeviceManager
