import IOSDeviceManager.General.FirstMinimum
import IOSDeviceManager.Resigning.RankedProfiles

/-! # `identityForAppBundle:deviceId:`

The nested loop over identities and profiles that keeps the first identity of least rank. The
profiles are read anew for every identity, in whatever order they are delivered. The identity it
returns attains the minimum that `rankedProfiles:` then puts first. -/

namespace IOSDeviceManager

open General

namespace CodesignIdentity

/-- `NSIntegerMax`. -/
def nsIntegerMax : Int := 2 ^ 63 - 1

/-- The inner loop of `identityForAppBundle:deviceId:`, over the profiles. -/
def profileLoop (appEnts : Entitlements) (deviceId : String) (identity : CodesignIdentity) :
    List MobileProfile → Best CodesignIdentity Int → Best CodesignIdentity Int
  | [], best => best
  | profile :: profiles, best =>
      if profile.isValidForDeviceUDID deviceId identity then
        let rank := profile.entitlements.rankByComparingProfileEntitlements appEnts
        if rank ≠ profileDoesNotHaveRequiredKey ∧ rank < best.value then
          profileLoop appEnts deviceId identity profiles ⟨some identity, rank⟩
        else profileLoop appEnts deviceId identity profiles best
      else profileLoop appEnts deviceId identity profiles best

/-- The outer loop, over the identities; `call` counts the calls of `nonExpiredIOSProfiles`. -/
def identityLoop (appEnts : Entitlements) (deviceId : String)
    (nonExpiredIOSProfiles : Nat → List MobileProfile) :
    Nat → List CodesignIdentity → Best CodesignIdentity Int → Best CodesignIdentity Int
  | _, [], best => best
  | call, identity :: identities, best =>
      identityLoop appEnts deviceId nonExpiredIOSProfiles (call + 1) identities
        (profileLoop appEnts deviceId identity (nonExpiredIOSProfiles call) best)

/-- `identityForAppBundle:deviceId:` for an app with the entitlements `appEnts`, the keychain's
`validIOSDeveloperIdentities` and the profiles delivered by each call of `nonExpiredIOSProfiles`:
call `0` is the count check. -/
def identityForAppBundle (appEnts : Option Entitlements)
    (validIOSDeveloperIdentities : List CodesignIdentity)
    (nonExpiredIOSProfiles : Nat → List MobileProfile) (deviceId : String) :
    Option CodesignIdentity :=
  match appEnts with
  | none => none
  | some appEnts =>
      if appEnts.count = 0 then none
      else if validIOSDeveloperIdentities.length = 0 then none
      else if (nonExpiredIOSProfiles 0).length = 0 then none
      else (identityLoop appEnts deviceId nonExpiredIOSProfiles 1 validIOSDeveloperIdentities
        ⟨none, nsIntegerMax⟩).item

/-- The pair is valid for the device and not rejected. -/
def IsUsable (appEnts : Entitlements) (deviceId : String) (identity : CodesignIdentity)
    (profile : MobileProfile) : Prop :=
  profile.isValidForDeviceUDID deviceId identity = true ∧
    profile.entitlements.rankByComparingProfileEntitlements appEnts ≠ profileDoesNotHaveRequiredKey

instance (appEnts : Entitlements) (deviceId : String) (identity : CodesignIdentity)
    (profile : MobileProfile) : Decidable (IsUsable appEnts deviceId identity profile) :=
  inferInstanceAs (Decidable (_ ∧ _))

/-- `identity` is the first that attains the least rank `rank` over all usable pairs. -/
structure IsFirstBest (appEnts : Entitlements) (deviceId : String)
    (identities : List CodesignIdentity) (profiles : List MobileProfile)
    (identity : CodesignIdentity) (rank : Int) : Prop where
  attained : ∃ profile ∈ profiles, IsUsable appEnts deviceId identity profile ∧
    profile.entitlements.rankByComparingProfileEntitlements appEnts = rank
  least : ∀ other ∈ identities, ∀ profile ∈ profiles, IsUsable appEnts deviceId other profile →
    rank ≤ profile.entitlements.rankByComparingProfileEntitlements appEnts
  first : ∃ before after, identities = before ++ identity :: after ∧
    ∀ other ∈ before, ∀ profile ∈ profiles, IsUsable appEnts deviceId other profile →
      rank < profile.entitlements.rankByComparingProfileEntitlements appEnts

/-! ## The loops as a search -/

section Loops

variable (appEnts : Entitlements) (deviceId : String)

/-- The ranks of the usable profiles. -/
def usableRanks (identity : CodesignIdentity) (profiles : List MobileProfile) : List Int :=
  (profiles.filter fun profile => IsUsable appEnts deviceId identity profile).map fun profile =>
    profile.entitlements.rankByComparingProfileEntitlements appEnts

theorem mem_usableRanks_iff {identity : CodesignIdentity} {profiles : List MobileProfile}
    {rank : Int} : rank ∈ usableRanks appEnts deviceId identity profiles ↔
      ∃ profile ∈ profiles, IsUsable appEnts deviceId identity profile ∧
        profile.entitlements.rankByComparingProfileEntitlements appEnts = rank := by
  simp [usableRanks, and_assoc]

/-- The inner loop offers the ranks of the usable profiles. -/
theorem profileLoop_eq (identity : CodesignIdentity) (profiles : List MobileProfile)
    (best : Best CodesignIdentity Int) :
    profileLoop appEnts deviceId identity profiles best =
      best.offerAll identity (usableRanks appEnts deviceId identity profiles) := by
  induction profiles generalizing best with
  | nil => rfl
  | cons profile profiles ih =>
    by_cases husable : IsUsable appEnts deviceId identity profile
    · have hranks : usableRanks appEnts deviceId identity (profile :: profiles) =
          profile.entitlements.rankByComparingProfileEntitlements appEnts ::
            usableRanks appEnts deviceId identity profiles := by
        simp [usableRanks, husable]
      rw [hranks, profileLoop, if_pos husable.1]
      simp only [husable.2, ne_eq, not_false_eq_true, true_and, ih]
      rw [Best.offerAll, Best.offerAll, Best.offerAll, List.foldl_cons, Best.offer]
      split <;> rfl
    · have hranks : usableRanks appEnts deviceId identity (profile :: profiles) =
          usableRanks appEnts deviceId identity profiles := by
        simp [usableRanks, husable]
      rw [hranks, profileLoop]
      simp only [ih]
      split
      · rename_i hvalid
        have hrej : profile.entitlements.rankByComparingProfileEntitlements appEnts =
            profileDoesNotHaveRequiredKey := by
          by_contra hne
          exact husable ⟨hvalid, hne⟩
        simp [hrej]
      · rfl

/-- The outer loop does not depend on the orders in which the profiles are delivered. -/
theorem identityLoop_eq {profiles : List MobileProfile}
    {nonExpiredIOSProfiles : Nat → List MobileProfile}
    (hdeliver : ∀ call, (nonExpiredIOSProfiles call).Perm profiles) (call : Nat)
    (identities : List CodesignIdentity) (best : Best CodesignIdentity Int) :
    identityLoop appEnts deviceId nonExpiredIOSProfiles call identities best =
      (identities.map fun identity =>
        (identity, usableRanks appEnts deviceId identity profiles)).foldl
          (fun best group => best.offerAll group.1 group.2) best := by
  induction identities generalizing call best with
  | nil => rfl
  | cons identity identities ih =>
    have hranks : (usableRanks appEnts deviceId identity (nonExpiredIOSProfiles call)).Perm
        (usableRanks appEnts deviceId identity profiles) :=
      ((hdeliver call).filter _).map _
    rw [identityLoop, ih, profileLoop_eq, best.offerAll_of_perm identity hranks]
    rfl

/-- With entitlements, identities and profiles at hand, the answer is that of the search for a first
minimum. -/
theorem identityForAppBundle_eq (happ : appEnts.count ≠ 0) {identities : List CodesignIdentity}
    (hidentities : identities ≠ []) {profiles : List MobileProfile} (hprofiles : profiles ≠ [])
    {nonExpiredIOSProfiles : Nat → List MobileProfile}
    (hdeliver : ∀ call, (nonExpiredIOSProfiles call).Perm profiles) :
    identityForAppBundle (some appEnts) identities nonExpiredIOSProfiles deviceId =
      (searchMinimum nsIntegerMax (identities.map fun identity =>
        (identity, usableRanks appEnts deviceId identity profiles))).item := by
  have hcount : (nonExpiredIOSProfiles 0).length ≠ 0 := by
    rw [(hdeliver 0).length_eq]
    exact mt List.length_eq_zero_iff.mp hprofiles
  simp only [identityForAppBundle, happ, hcount, if_false,
    mt List.length_eq_zero_iff.mp hidentities]
  rw [identityLoop_eq appEnts deviceId hdeliver, searchMinimum]

end Loops

/-! ## The bound of the search -/

/-- Every rank is below the initial bound of the loop. -/
theorem rank_lt_nsIntegerMax (profile : MobileProfile) (appEnts : Entitlements) :
    profile.entitlements.rankByComparingProfileEntitlements appEnts < nsIntegerMax := by
  have hle := Entitlements.rank_le_weight profile.entitlements appEnts
  have hlt := profile.entitlements_weight_lt
  rw [nsIntegerMax]
  omega

/-! ## Agreement with the ranking -/

section Agreement

variable {appEnts : Entitlements} {deviceId : String} {identities : List CodesignIdentity}
  {profiles : List MobileProfile}

/-- No group holds a rank from the initial bound on exactly when no pair is usable. -/
theorem forall_bound_le_iff :
    (∀ group ∈ identities.map (fun identity =>
        (identity, usableRanks appEnts deviceId identity profiles)),
      ∀ rank ∈ group.2, nsIntegerMax ≤ rank) ↔
    ∀ identity ∈ identities, ∀ profile ∈ profiles,
      ¬ IsUsable appEnts deviceId identity profile := by
  simp only [List.forall_mem_map, mem_usableRanks_iff]
  constructor
  · intro h identity hidentity profile hprofile husable
    have hle := h identity hidentity _ ⟨profile, hprofile, husable, rfl⟩
    exact absurd (rank_lt_nsIntegerMax profile appEnts) (not_lt.mpr hle)
  · rintro h identity hidentity rank ⟨profile, hprofile, husable, -⟩
    exact absurd husable (h identity hidentity profile hprofile)

/-- A first minimum of the groups is a first identity of least rank. -/
theorem isFirstBest_of_isFirstMinimum {identity : CodesignIdentity} {rank : Int}
    (h : IsFirstMinimum (identities.map fun identity =>
      (identity, usableRanks appEnts deviceId identity profiles)) identity rank) :
    IsFirstBest appEnts deviceId identities profiles identity rank := by
  obtain ⟨before, ranks, after, hsplit, hrank, hbefore⟩ := h.first
  obtain ⟨firsts, rest, hfirsts, hmap, hrest⟩ := List.map_eq_append_iff.mp hsplit
  obtain ⟨i, lasts, rfl, hpair, -⟩ := List.map_eq_cons_iff.mp hrest
  obtain ⟨rfl, rfl⟩ := Prod.mk.inj hpair
  refine ⟨(mem_usableRanks_iff appEnts deviceId).mp hrank, ?_, firsts, lasts, hfirsts, ?_⟩
  · intro other hother profile hprofile husable
    exact h.least _ (List.mem_map_of_mem hother) _
      ((mem_usableRanks_iff appEnts deviceId).mpr ⟨profile, hprofile, husable, rfl⟩)
  · intro other hother profile hprofile husable
    exact hbefore _ (hmap ▸ List.mem_map_of_mem hother) _
      ((mem_usableRanks_iff appEnts deviceId).mpr ⟨profile, hprofile, husable, rfl⟩)

/-- A ranking for the first identity of least rank starts with a profile of exactly that rank. -/
theorem exists_first_of_isRanking {identity : CodesignIdentity} {rank : Int}
    (hbest : IsFirstBest appEnts deviceId identities profiles identity rank)
    {listing ranked : List MobileProfile} (hlisting : listing.Perm profiles)
    (hranked : RankedProfiles.IsRanking
      (RankedProfiles.blocks listing identity deviceId appEnts) ranked) :
    ∃ first rest, ranked = first :: rest ∧
      first.entitlements.rankByComparingProfileEntitlements appEnts = rank := by
  obtain ⟨best, hbestMem, hbestUsable, hbestRank⟩ := hbest.attained
  have haccepts : ∀ profile,
      (RankedProfiles.blocks listing identity deviceId appEnts).accepts profile = true ↔
        IsUsable appEnts deviceId identity profile := by
    intro profile
    simp [RankedProfiles.Blocks.accepts, RankedProfiles.blocks, IsUsable]
  have hmem : ∀ profile, profile ∈ ranked ↔
      profile ∈ profiles ∧ IsUsable appEnts deviceId identity profile := by
    intro profile
    rw [hranked.perm.mem_iff, List.mem_filter, haccepts]
    exact and_congr_left fun _ => hlisting.mem_iff
  have hbestRanked : best ∈ ranked := (hmem best).mpr ⟨hbestMem, hbestUsable⟩
  cases hcases : ranked with
  | nil => simp [hcases] at hbestRanked
  | cons first rest =>
    refine ⟨first, rest, rfl, le_antisymm ?_ ?_⟩
    · have hle := hranked.head_le first (by simp [hcases]) best (hlisting.mem_iff.mpr hbestMem)
        ((haccepts best).mpr hbestUsable)
      exact hle.trans_eq hbestRank
    · obtain ⟨hfirstMem, hfirstUsable⟩ := (hmem first).mp (by simp [hcases])
      obtain ⟨before, after, rfl, -⟩ := hbest.first
      exact hbest.least identity (by simp) first hfirstMem hfirstUsable

/-- **Identity selection and profile selection agree.** For every delivery of the profiles:
`identityForAppBundle:deviceId:` returns `nil` exactly when no pair of an identity and a profile is
usable, and otherwise the first identity that attains the least rank over all usable pairs, which
does not depend on the delivery. For this identity the profile blocks, run one at a time in any
order over any listing of the profiles, rank a profile of exactly that least rank first. -/
theorem identityForAppBundle_agrees (happ : appEnts.count ≠ 0) (hidentities : identities ≠ [])
    (hprofiles : profiles ≠ []) (nonExpiredIOSProfiles : Nat → List MobileProfile)
    (hdeliver : ∀ call, (nonExpiredIOSProfiles call).Perm profiles) :
    (identityForAppBundle (some appEnts) identities nonExpiredIOSProfiles deviceId = none ↔
      ∀ identity ∈ identities, ∀ profile ∈ profiles,
        ¬ IsUsable appEnts deviceId identity profile) ∧
    (∀ identity,
      identityForAppBundle (some appEnts) identities nonExpiredIOSProfiles deviceId =
        some identity →
      ∃ rank, IsFirstBest appEnts deviceId identities profiles identity rank ∧
        ∀ listing : List MobileProfile, listing.Perm profiles →
        ∀ order : List (RankedProfiles.blocks listing identity deviceId appEnts).Worker,
          order.Perm (List.finRange _) →
          (∃ labels s, RankedProfiles.Serial order labels ∧
            run RankedProfiles.step (RankedProfiles.initial _) labels = some s) ∧
          ∀ labels s, RankedProfiles.Serial order labels →
            run RankedProfiles.step (RankedProfiles.initial _) labels = some s →
            ∃ first rest, s.result = first :: rest ∧
              first.entitlements.rankByComparingProfileEntitlements appEnts = rank) ∧
    (∀ nonExpiredIOSProfiles' : Nat → List MobileProfile,
      (∀ call, (nonExpiredIOSProfiles' call).Perm profiles) →
      identityForAppBundle (some appEnts) identities nonExpiredIOSProfiles' deviceId =
        identityForAppBundle (some appEnts) identities nonExpiredIOSProfiles deviceId) := by
  have heq := identityForAppBundle_eq appEnts deviceId happ hidentities hprofiles hdeliver
  refine ⟨?_, fun identity hidentity => ?_, fun _ hdeliver' => ?_⟩
  · rw [heq, ← forall_bound_le_iff]
    obtain ⟨hnone, htop⟩ | ⟨x, v, hsome, hlt, hmin⟩ := searchMinimum_cases nsIntegerMax
      (identities.map fun identity => (identity, usableRanks appEnts deviceId identity profiles))
    · simpa [hnone] using htop
    -- The minimum found is below the bound, so not all usable ranks are above it.
    · obtain ⟨before, ranks, after, hsplit, hv, -⟩ := hmin.first
      rw [hsome]
      refine iff_of_false (by simp) fun htop => ?_
      exact absurd hlt (not_lt.mpr (htop (x, ranks) (by rw [hsplit]; simp) v hv))
  · obtain ⟨hnone, -⟩ | ⟨x, rank, hsome, -, hmin⟩ := searchMinimum_cases nsIntegerMax
      (identities.map fun identity => (identity, usableRanks appEnts deviceId identity profiles))
    · simp [heq, hnone] at hidentity
    · obtain rfl : x = identity := by simpa [heq, hsome] using hidentity
      have hbest := isFirstBest_of_isFirstMinimum hmin
      -- The blocks of a later ranking may come in any order, as long as they run one at a time.
      refine ⟨rank, hbest, fun listing hlisting order horder => ⟨?_, ?_⟩⟩
      · exact RankedProfiles.exists_serial_run
          (horder.nodup_iff.mpr (List.nodup_finRange _)) fun _ _ => rfl
      · exact fun labels s hserial hrun =>
          exists_first_of_isRanking hbest hlisting (hserial.isRanking_result horder hrun)
  · rw [heq, identityForAppBundle_eq appEnts deviceId happ hidentities hprofiles hdeliver']

end Agreement

/-! ### Two identities and two profiles -/

open RankedProfiles (sampleProfiles)

/-- An identity without profiles, and that of the certificate. -/
def sampleIdentities : List CodesignIdentity :=
  [⟨"C2D3", "Apple Development: B"⟩, ⟨"A0B1", "iPhone Developer: A"⟩]

/-- The profiles in alternating order. -/
def sampleDelivery (call : Nat) : List MobileProfile :=
  if call % 2 = 0 then sampleProfiles else sampleProfiles.reverse

/-- The second identity is selected: it attains the least rank. -/
theorem identityForAppBundle_agrees_sample :
    identityForAppBundle (some Entitlements.debugApp) sampleIdentities sampleDelivery "e60ef9ae" =
      some ⟨"A0B1", "iPhone Developer: A"⟩ ∧
    ∃ rank, IsFirstBest Entitlements.debugApp "e60ef9ae" sampleIdentities sampleProfiles
      ⟨"A0B1", "iPhone Developer: A"⟩ rank := by
  have hdeliver : ∀ call, (sampleDelivery call).Perm sampleProfiles := by
    intro call
    rw [sampleDelivery]
    split
    · exact List.Perm.refl _
    · exact List.reverse_perm _
  have hselected : identityForAppBundle (some Entitlements.debugApp) sampleIdentities sampleDelivery
      "e60ef9ae" = some ⟨"A0B1", "iPhone Developer: A"⟩ := by decide +kernel
  have happ : Entitlements.debugApp.count ≠ 0 := by decide
  have hidentities : sampleIdentities ≠ [] := List.cons_ne_nil _ _
  have hprofiles : sampleProfiles ≠ [] := List.cons_ne_nil _ _
  obtain ⟨rank, hrank, -⟩ :=
    (identityForAppBundle_agrees happ hidentities hprofiles sampleDelivery hdeliver).2.1 _ hselected
  exact ⟨hselected, rank, hrank⟩

end CodesignIdentity

end IOSDeviceManager
