import IOSDeviceManager.Resigning.ApplicationIdentifier
import IOSDeviceManager.Resigning.ResignAll

/-! # Resigning again and again with one profile

A tester resigns an app that the tool itself has signed before. The second signing reads the old
bundle identifier and the old app groups from what the first one wrote: the groups are then the
profile's own, so they always fit, and the bundle identifier is read back by removing the team
identifier wherever it occurs. Here the loop runs over copies of one profile. The app has no plugin
bundles: those are resigned with it or passed over by their teams, which is not seen here. -/

namespace IOSDeviceManager

open Entitlements

namespace Codesigner

/-- The team identifier is stripped off a bundle identifier. -/
def stripped (teamID bundleID : String) : String :=
  NSString.replace bundleID (teamID ++ ".") ""

/-- The application identifier prefix of the profile is its team identifier. -/
structure OwnPrefix (profile : MobileProfile) (teamID : String) : Prop where
  appIDPrefix : profile.applicationIdentifierPrefix = some [teamID]
  team : profile.entitlements.objectForKey teamIdentifierKey = some (.string teamID)

/-- The state of an app directory that was derived from `app` and last signed with the profile, for
the old bundle identifier `bundleID`. -/
structure SignedFor (env : SigningEnvironment) (app : AppDir) (profile : MobileProfile)
    (bundleID : Option String) (state : AppDir) : Prop where
  infoPlist : state.infoPlist = app.infoPlist
  executable : state.bundleExecutableExists = app.bundleExecutableExists
  signature : (finalEntitlements env profile bundleID).dictionary = some state.signature

section

variable {env : SigningEnvironment} {app : AppDir} {profile : MobileProfile} {teamID : String}

/-! ## One signing after another -/

/-- What a signing leaves is signed for the bundle identifier that it read. -/
theorem signedFor_of_resignAppDir {state state' : AppDir} {bundleID : Option String}
    (hinfo : state.infoPlist = app.infoPlist)
    (hexec : state.bundleExecutableExists = app.bundleExecutableExists)
    (hbundle : oldBundleID env state = .ok bundleID)
    (h : resignAppDir env state profile none = .ok state') :
    SignedFor env app profile bundleID state' := by
  obtain ⟨-, bundleID', _, signature, hbundle', -, hsignature, rfl⟩ := resignAppDir_eq_ok_iff.mp h
  obtain rfl : bundleID = bundleID' := by simpa [hbundle] using hbundle'
  exact ⟨hinfo, hexec, hsignature⟩

/-- Every key but the application identifier is the profile's. -/
theorem SignedFor.objectForKey_of_ne {bundleID : Option String} {state : AppDir}
    (h : SignedFor env app profile bundleID state) {key : String}
    (hne : key ≠ applicationIdentifierKey) :
    state.signature.objectForKey key = profile.entitlements.objectForKey key := by
  have hlookup : state.signature.objectForKey key =
      (finalEntitlements env profile bundleID).objectForKey key := by
    rw [objectForKey, h.signature, Option.bind_some]
  rw [hlookup]
  exact objectForKey_replacing_of_ne _ _ hne

/-- The app groups are the profile's. -/
theorem SignedFor.appGroups {bundleID : Option String} {state : AppDir}
    (h : SignedFor env app profile bundleID state) {ours : List String}
    (hours : appGroups (some profile.entitlements) = .ok ours) :
    appGroups (entitlementsWithBundlePath state) = .ok ours := by
  rw [appGroups_eq_ok_iff, Option.bind_some] at hours
  rw [appGroups_eq_ok_iff, objectForKey_entitlementsWithBundlePath,
    h.objectForKey_of_ne (by decide)]
  exact hours

/-- The partner of a group of the profile is itself. -/
theorem partner_self (ours : List String) (group : String) :
    partner ours ours group = if group ∈ ours then some group else none := by
  unfold partner
  split
  · rename_i hmem
    rw [List.getElem?_eq_getElem (List.idxOf_lt_length_of_mem hmem), List.getElem_idxOf]
  · rfl

/-- **A signed app can be signed again.** The groups fit, and each is mapped to itself. -/
theorem SignedFor.resignAppDir {bundleID bundleID' : Option String} {state : AppDir}
    {ours : List String} (h : SignedFor env app profile bundleID state)
    (husable : Usable env app profile)
    (hours : Codesigner.appGroups (some profile.entitlements) = .ok ours)
    (hbundle : oldBundleID env state = .ok bundleID') :
    ∃ state', resignAppDir env state profile none = .ok state' ∧
      SignedFor env app profile bundleID' state' ∧
      (AppDir.view state').appGroupIDs = some fun group => if group ∈ ours then some group else none := by
  have husable' := husable.of_eq h.infoPlist h.executable
  obtain ⟨signature, hsignature⟩ : ∃ signature,
      (finalEntitlements env profile bundleID').dictionary = some signature := by
    rw [← Option.isSome_iff_exists, finalEntitlements, isSome_dictionary_replacing]
    exact husable.dictionary
  have houtcome := outcome_of_usable husable' (h.appGroups hours) hours hbundle hsignature
  rw [if_pos (le_refl _), outcome] at houtcome
  cases hresign : Codesigner.resignAppDir env state profile none with
  | error e => simp [hresign, Except.toOption] at houtcome
  | ok state' =>
    have hview : AppDir.view state' = ⟨signature, some (partner ours ours)⟩ := by
      simpa [hresign, Except.toOption] using houtcome
    refine ⟨state', rfl, signedFor_of_resignAppDir h.infoPlist h.executable hbundle hresign, ?_⟩
    rw [hview]
    exact congrArg some (funext (partner_self ours))

/-! ## The bundle identifier that is read back -/

/-- After a signing under a wildcard profile of the team, the next one reads the bundle identifier
back without its team identifiers. -/
theorem SignedFor.oldBundleID {bundleID : Option String} {state : AppDir}
    (h : SignedFor env app profile bundleID state) (husable : Usable env app profile)
    (hwildcard : IsWildcard env profile) (hown : OwnPrefix profile teamID) :
    oldBundleID env state = .ok (some (stripped teamID (formatString bundleID))) := by
  -- the team identifier is signed before the bundle identifier
  have hsigned : state.signature.objectForKey applicationIdentifierKey =
      some (.string (teamID ++ "." ++ formatString bundleID)) := by
    have hfinal : finalAppIdentifier (mobileProfileAppID env profile)
        (profile.applicationIdentifierPrefix.bind List.head?) bundleID profile.entitlements =
          some (teamID ++ "." ++ formatString bundleID) := by
      rw [hown.appIDPrefix]
      exact if_pos hwildcard
    have hsignature := h.signature
    rw [finalEntitlements, hfinal] at hsignature
    have hkey := objectForKey_replacing_self hsignature
    rwa [objectForKey, hsignature, Option.bind_some] at hkey
  have hteam : state.signature.objectForKey teamIdentifierKey = some (.string teamID) :=
    (h.objectForKey_of_ne (by decide)).trans hown.team
  obtain ⟨infoPlist, hinfo, -⟩ := husable.infoPlist
  refine bind_eq_ok_iff.mpr ⟨infoPlist, readInfoPlist_eq_ok_iff.mpr (h.infoPlist.trans hinfo), ?_⟩
  have happIDKey := objectForKey_entitlementsWithBundlePath state applicationIdentifierKey
  have hteamKey := objectForKey_entitlementsWithBundlePath state teamIdentifierKey
  rw [hsigned] at happIDKey
  rw [hteam] at hteamKey
  -- both keys are in the signature, so the `Info.plist` is not asked
  unfold getOldBundleId
  cases hentitlements : entitlementsWithBundlePath state with
  | none => simp [hentitlements] at happIDKey
  | some e =>
    rw [hentitlements, Option.bind_some] at happIDKey hteamKey
    simp only [happIDKey, hteamKey, Option.isSome_some, and_self, if_true,
      applicationIdentifierWithoutPrefix, Option.elim, env.description_string,
      replace_append_self]
    rfl

/-- Under a wildcard profile of the team two signatures are equal exactly when the bundle
identifiers print alike; under any other profile they always are. -/
theorem SignedFor.signature_eq_iff {bundleID bundleID' : Option String} {state state' : AppDir}
    (h : SignedFor env app profile bundleID state)
    (h' : SignedFor env app profile bundleID' state') :
    state'.signature = state.signature ↔
      (IsWildcard env profile → formatString bundleID' = formatString bundleID) :=
  Codesigner.signature_eq_iff h'.signature h.signature

/-! ## The loop over copies of one profile -/

/-- The bundle identifier can be read back. -/
theorem SignedFor.exists_oldBundleID {bundleID : Option String} {state : AppDir}
    (h : SignedFor env app profile bundleID state) (husable : Usable env app profile) :
    ∃ bundleID', Codesigner.oldBundleID env state = .ok bundleID' := by
  obtain ⟨infoPlist, hinfo, -⟩ := husable.infoPlist
  have hstring : ∀ value, state.signature.objectForKey applicationIdentifierKey = some value →
      ∃ s, value = .string s := by
    intro value hvalue
    apply objectForKey_finalEntitlements_applicationIdentifier husable bundleID
    rw [objectForKey, h.signature, Option.bind_some]
    exact hvalue
  obtain ⟨bundleID', hread⟩ := exists_getOldBundleId env state infoPlist hstring
  exact ⟨bundleID', bind_eq_ok_iff.mpr ⟨infoPlist,
    readInfoPlist_eq_ok_iff.mpr (h.infoPlist.trans hinfo), hread⟩⟩

/-- What an iteration after the first leaves: the app is signed for a bundle identifier, which under
a wildcard profile of the team prints as `printed`, and every group of the profile is mapped to
itself. -/
def SignedAgain (env : SigningEnvironment) (app : AppDir) (profile : MobileProfile)
    (teamID : String) (ours : List String) (printed : String) (state : AppDir) : Prop :=
  (∃ bundleID, SignedFor env app profile bundleID state ∧
    (IsWildcard env profile → OwnPrefix profile teamID → formatString bundleID = printed)) ∧
  (AppDir.view state).appGroupIDs = some fun group => if group ∈ ours then some group else none

/-- **The loop goes on without an exception.** From a signed app directory every iteration succeeds,
and each of them strips the team identifier off the bundle identifier once more. -/
theorem SignedFor.resignForProfiles {ours : List String} (husable : Usable env app profile)
    (hours : Codesigner.appGroups (some profile.entitlements) = .ok ours) (teamID : String)
    (n : Nat) {bundleID : Option String} {state : AppDir}
    (h : SignedFor env app profile bundleID state) :
    (Codesigner.resignForProfiles env (fun _ => .ok ()) state (List.replicate n profile)).2 =
        none ∧
      ∀ i < n, ∃ state', (seenFrom env state (List.replicate n profile))[i]? = some state' ∧
        SignedAgain env app profile teamID ours
          ((stripped teamID)^[i + 1] (formatString bundleID)) state' := by
  induction n generalizing bundleID state with
  | zero => exact ⟨rfl, fun i hi => absurd hi (Nat.not_lt_zero i)⟩
  | succ n ih =>
    obtain ⟨bundleID', hbundle'⟩ := h.exists_oldBundleID husable
    obtain ⟨state', hresign, hsigned, hgroups⟩ := h.resignAppDir husable hours hbundle'
    -- the next iteration reads back what was signed here, less the team identifier
    have hprinted : IsWildcard env profile → OwnPrefix profile teamID →
        formatString bundleID' = stripped teamID (formatString bundleID) := by
      intro hwildcard hown
      have hread := h.oldBundleID husable hwildcard hown
      rw [hbundle', Except.ok.injEq] at hread
      rw [hread]
      rfl
    obtain ⟨hnone, hrest⟩ := ih hsigned
    refine ⟨?_, ?_⟩
    · rw [List.replicate_succ, Codesigner.resignForProfiles, hresign]
      exact hnone
    · intro i hi
      rw [List.replicate_succ, seenFrom_cons, hresign]
      cases i with
      | zero => exact ⟨state', rfl, ⟨bundleID', hsigned, hprinted⟩, hgroups⟩
      | succ i =>
        obtain ⟨stateᵢ, hget, ⟨bundleIDᵢ, hsignedᵢ, hprintedᵢ⟩, hgroupsᵢ⟩ := hrest i (by omega)
        refine ⟨stateᵢ, hget, ⟨bundleIDᵢ, hsignedᵢ, ?_⟩, hgroupsᵢ⟩
        intro hwildcard hown
        rw [hprintedᵢ hwildcard hown, hprinted hwildcard hown, ← Function.iterate_succ_apply]

/-- A bundle identifier without the team identifier in it is read back however often. -/
theorem iterate_stripped {bundleID : String} (h : ¬ (teamID ++ ".").toList <:+: bundleID.toList)
    (i : Nat) : (stripped teamID)^[i] bundleID = bundleID :=
  Function.iterate_fixed ((replace_eq_self_iff teamID bundleID).mpr h) i

/-- **Signing again changes nothing, and when.** If an app can be resigned with a profile at all, it
can be resigned with it any number of times: no iteration throws, and from the second on each group
of the profile is mapped to itself. If the prefix of a wildcard profile is its team identifier, all
the signatures are the first one exactly if the profile is no wildcard, or the app is signed no
second time, or the team identifier does not occur in the bundle identifier. -/
theorem seen_replicate {type : ApplicationType} {first : AppDir} {bundleID : Option String}
    {ours : List String} (htype : type ≠ .simulator)
    (hfirst : Codesigner.resignAppDir env app profile none = .ok first)
    (hbundle : Codesigner.oldBundleID env app = .ok bundleID)
    (hours : Codesigner.appGroups (some profile.entitlements) = .ok ours) (teamID : String)
    (n : Nat) :
    (resignApplication env type app (List.replicate n profile) fun _ => .ok ()).2 = none ∧
      (seen env type app (List.replicate n profile)).length = n ∧
      (∀ i state, (seen env type app (List.replicate n profile))[i + 1]? = some state →
        (AppDir.view state).appGroupIDs =
          some fun group => if group ∈ ours then some group else none) ∧
      ((IsWildcard env profile → OwnPrefix profile teamID) →
        ((∀ state ∈ seen env type app (List.replicate n profile),
            state.signature = first.signature) ↔
          (IsWildcard env profile →
            n ≤ 1 ∨ ¬ (teamID ++ ".").toList <:+: (formatString bundleID).toList))) := by
  have husable := (resignAppDir_eq_ok_iff.mp hfirst).1
  have hsigned : SignedFor env app profile bundleID first :=
    signedFor_of_resignAppDir rfl rfl hbundle hfirst
  rw [seen_eq_seenFrom htype]
  cases n with
  | zero =>
    refine ⟨by rw [resignApplication, if_neg htype]; rfl, rfl, fun i state h => ?_,
      fun _ => iff_of_true (fun state h => ?_) fun _ => .inl (Nat.zero_le 1)⟩
    · simp at h
    · simp at h
  | succ n =>
    obtain ⟨hnone, hrest⟩ := hsigned.resignForProfiles husable hours teamID n
    have hseen : seenFrom env app (List.replicate (n + 1) profile) =
        first :: seenFrom env first (List.replicate n profile) := by
      rw [List.replicate_succ, seenFrom_cons, hfirst]
    have hlength : (seenFrom env first (List.replicate n profile)).length = n :=
      (length_resignForProfiles hnone).trans List.length_replicate
    rw [hseen]
    refine ⟨?_, by rw [List.length_cons, hlength], ?_, ?_⟩
    · rw [resignApplication, if_neg htype, List.replicate_succ, Codesigner.resignForProfiles,
        hfirst]
      exact hnone
    · intro i state hget
      rw [List.getElem?_cons_succ] at hget
      obtain ⟨state', hget', -, hgroups⟩ := hrest i (hlength ▸
        (List.getElem?_eq_some_iff.mp hget).1)
      obtain rfl : state = state' := by simpa [hget] using hget'
      exact hgroups
    · intro hown
      constructor
      · -- the second signature is the first, so the identifier was read back as it is
        intro hsame hwildcard
        by_cases hn : n + 1 ≤ 1
        · exact .inl hn
        · obtain ⟨second, hget, ⟨bundleID', hsecond, hprinted⟩, -⟩ := hrest 0 (by omega)
          have hequal := hsame second (List.mem_cons_of_mem _ (List.mem_of_getElem? hget))
          have hread := (hsigned.signature_eq_iff hsecond).mp hequal hwildcard
          rw [hprinted hwildcard (hown hwildcard)] at hread
          exact .inr ((replace_eq_self_iff teamID _).mp hread)
      · intro hcondition state hmem
        rcases List.mem_cons.mp hmem with rfl | hlater
        · rfl
        · obtain ⟨i, hi, hget⟩ := List.mem_iff_getElem.mp hlater
          obtain ⟨state', hget', ⟨bundleID', hstate, hprinted⟩, -⟩ := hrest i (hlength ▸ hi)
          obtain rfl : state' = state := by
            rw [List.getElem?_eq_getElem hi, hget, Option.some.injEq] at hget'
            exact hget'.symm
          refine (hsigned.signature_eq_iff hstate).mpr fun hwildcard => ?_
          rw [hprinted hwildcard (hown hwildcard)]
          refine iterate_stripped ((hcondition hwildcard).resolve_left ?_) (i + 1)
          omega

end

/-- The app of another team, signed three times under the wildcard profile, keeps the signature it
got the first time. -/
theorem seen_replicate_otherTeamApp :
    ∃ first, resignAppDir developerEnvironment otherTeamApp (profileWithAppID "ABCDE12345.*") none =
        .ok first ∧
      (seen developerEnvironment .physicalDevice otherTeamApp
        (List.replicate 3 (profileWithAppID "ABCDE12345.*"))).length = 3 ∧
      ∀ state ∈ seen developerEnvironment .physicalDevice otherTeamApp
        (List.replicate 3 (profileWithAppID "ABCDE12345.*")), state.signature = first.signature := by
  obtain ⟨first, hresign⟩ : ∃ first, resignAppDir developerEnvironment otherTeamApp
      (profileWithAppID "ABCDE12345.*") none = .ok first := ⟨_, rfl⟩
  have hbundle : oldBundleID developerEnvironment otherTeamApp = .ok (some "com.my.app") := by
    decide +kernel
  have htype : ApplicationType.physicalDevice ≠ .simulator := by decide
  have hours : appGroups (some (profileWithAppID "ABCDE12345.*").entitlements) = .ok [] := rfl
  have hown : IsWildcard developerEnvironment (profileWithAppID "ABCDE12345.*") →
      OwnPrefix (profileWithAppID "ABCDE12345.*") "ABCDE12345" := fun _ => ⟨rfl, rfl⟩
  obtain ⟨-, hlength, -, hsame⟩ := seen_replicate htype hresign hbundle hours "ABCDE12345" 3
  exact ⟨first, hresign, hlength, (hsame hown).mpr fun _ => .inr (by decide)⟩

end Codesigner

end IOSDeviceManager
