import IOSDeviceManager.Resigning.AppGroups

/-! # `resignApplication:forProfiles:resourcesToInject:resigningHandler:`

The loop resigns one app directory in place, once for each profile, and hands it to the handler each
time. An iteration reads the old bundle identifier and the old app groups from the signature that
the iteration before it left, and the first exception ends the loop. What the handler sees is
therefore independent of the profiles before exactly when those two serve each profile as the
original signature would have, and no profile that throws comes before one that does not. -/

namespace IOSDeviceManager

open Entitlements

namespace Codesigner

/-- The loop: the app directory as the handler sees it in each iteration, and the exception that
ends the loop, if any, thrown by the resigning or by the handler. -/
def resignForProfiles (env : SigningEnvironment) (handler : AppDir → Except NSException Unit)
    (app : AppDir) : List MobileProfile → List AppDir × Option NSException
  | [] => ([], none)
  | profile :: profiles =>
      match resignAppDir env app profile none with
      | .error e => ([], some e)
      | .ok app' =>
          match handler app' with
          | .error e => ([app'], some e)
          | .ok () =>
              let rest := resignForProfiles env handler app' profiles
              (app' :: rest.1, rest.2)

/-- `resignApplication:forProfiles:resourcesToInject:resigningHandler:`; the removal of `.DS_STORE`
before the loop touches nothing of the app directory that is modelled. -/
def resignApplication (env : SigningEnvironment) (type : ApplicationType) (app : AppDir)
    (profiles : List MobileProfile) (handler : AppDir → Except NSException Unit) :
    List AppDir × Option NSException :=
  if type = .simulator then
    ([], some (.notImplemented "ResignAll not supported for simulators"))
  else resignForProfiles env handler app profiles

/-- A loop that ends without an exception has gone through all profiles. -/
theorem length_resignForProfiles {env : SigningEnvironment}
    {handler : AppDir → Except NSException Unit} {app : AppDir} {profiles : List MobileProfile}
    (h : (resignForProfiles env handler app profiles).2 = none) :
    (resignForProfiles env handler app profiles).1.length = profiles.length := by
  induction profiles generalizing app with
  | nil => rfl
  | cons profile profiles ih =>
    unfold resignForProfiles at h ⊢
    cases hresign : resignAppDir env app profile none with
    | error e => simp [hresign] at h
    | ok app' =>
      cases hhandler : handler app' with
      | error e => simp [hresign, hhandler] at h
      | ok _ =>
        simp only [hresign, hhandler] at h ⊢
        rw [List.length_cons, List.length_cons, ih h]

/-- The same for the whole method. -/
theorem length_resignApplication {env : SigningEnvironment} {type : ApplicationType}
    {app : AppDir} {profiles : List MobileProfile} {handler : AppDir → Except NSException Unit}
    (h : (resignApplication env type app profiles handler).2 = none) :
    (resignApplication env type app profiles handler).1.length = profiles.length := by
  unfold resignApplication at h ⊢
  split at h
  · cases h
  · rename_i htype
    rw [if_neg htype]
    exact length_resignForProfiles h

/-- What a handler that always returns sees, iteration by iteration. -/
def seen (env : SigningEnvironment) (type : ApplicationType) (app : AppDir)
    (profiles : List MobileProfile) : List AppDir :=
  (resignApplication env type app profiles fun _ => .ok ()).1

/-- What the handler looks at: the signed entitlements, and the map of app groups. -/
@[ext] structure View where
  signature : NSDictionary EntitlementValue
  appGroupIDs : Option (String → Option String)

/-- The view of an app directory. -/
def AppDir.view (app : AppDir) : View where
  signature := app.signature
  appGroupIDs := app.entitlementsMeta.map fun entitlementsMap group =>
    entitlementsMap.appGroupIDs.objectForKey group

/-- What resigning an app directory with one profile shows, `none` when it throws. -/
def outcome (env : SigningEnvironment) (app : AppDir) (profile : MobileProfile) : Option View :=
  (resignAppDir env app profile none).toOption.map AppDir.view

/-- Every iteration shows what resigning the original app directory with its profile alone shows,
and shows nothing exactly if that throws. -/
def Independent (env : SigningEnvironment) (type : ApplicationType) (app : AppDir)
    (profiles : List MobileProfile) : Prop :=
  ∀ (i : Nat) (profile : MobileProfile), profiles[i]? = some profile →
    (seen env type app profiles)[i]?.map AppDir.view = outcome env app profile

/-- The profile can resign the app directory: it is usable, the old bundle identifier can be read,
and the profile has at least as many app groups as the signature. -/
structure Resigns (env : SigningEnvironment) (app : AppDir) (profile : MobileProfile) : Prop where
  usable : Usable env app profile
  bundleID : ∃ bundleID, oldBundleID env app = .ok bundleID
  groups : ∃ old ours, appGroups (entitlementsWithBundlePath app) = .ok old ∧
    appGroups (some profile.entitlements) = .ok ours ∧ old.length ≤ ours.length

/-- The profile's identifier is the wildcard, so that the old bundle identifier is signed. -/
def IsWildcard (env : SigningEnvironment) (profile : MobileProfile) : Prop :=
  isWildcardAppId (mobileProfileAppID env profile) = true

instance (env : SigningEnvironment) (profile : MobileProfile) :
    Decidable (IsWildcard env profile) :=
  inferInstanceAs (Decidable (isWildcardAppId (mobileProfileAppID env profile) = true))

/-- The profile's group at the position where an app group first occurs. -/
def partner (ours groups : List String) (group : String) : Option String :=
  if group ∈ groups then ours[groups.idxOf group]? else none

/-- For the profile, the signature of `state` is as good as that of `app`: both have more app groups
than the profile or neither; and if neither, every group has the same partner and, for a wildcard
profile, the old bundle identifiers print alike. -/
def ServesAlike (env : SigningEnvironment) (app state : AppDir) (profile : MobileProfile) : Prop :=
  ∀ old now ours, appGroups (entitlementsWithBundlePath app) = .ok old →
    appGroups (entitlementsWithBundlePath state) = .ok now →
    appGroups (some profile.entitlements) = .ok ours →
    (old.length ≤ ours.length ↔ now.length ≤ ours.length) ∧
      (old.length ≤ ours.length → now.length ≤ ours.length →
        (∀ group, partner ours old group = partner ours now group) ∧
          (IsWildcard env profile → ∀ bundleID bundleID', oldBundleID env app = .ok bundleID →
            oldBundleID env state = .ok bundleID' →
            formatString bundleID = formatString bundleID'))

/-! ## One iteration -/

section Iteration

variable {env : SigningEnvironment}

/-- Usability looks at the `Info.plist` and the executable only. -/
theorem Usable.of_eq {app state : AppDir} {profile : MobileProfile} (h : Usable env app profile)
    (hinfo : state.infoPlist = app.infoPlist)
    (hexec : state.bundleExecutableExists = app.bundleExecutableExists) :
    Usable env state profile :=
  { h with
    infoPlist := hinfo ▸ h.infoPlist
    executable := hexec ▸ h.executable }

/-- What an iteration finds in an app directory derived from `app`: the same `Info.plist` and
executable, and a signature whose app groups and old bundle identifier can be read. -/
structure Resignable (env : SigningEnvironment) (app state : AppDir) : Prop where
  infoPlist : state.infoPlist = app.infoPlist
  executable : state.bundleExecutableExists = app.bundleExecutableExists
  groups : ∃ now, appGroups (entitlementsWithBundlePath state) = .ok now
  bundleID : ∃ bundleID, oldBundleID env state = .ok bundleID

/-- The application identifier that is signed is a string. -/
theorem objectForKey_finalEntitlements_applicationIdentifier {app : AppDir}
    {profile : MobileProfile} (husable : Usable env app profile) (bundleID : Option String)
    {value : EntitlementValue}
    (h : (finalEntitlements env profile bundleID).objectForKey applicationIdentifierKey =
      some value) : ∃ s, value = .string s := by
  obtain ⟨d, hd⟩ := Option.isSome_iff_exists.mp husable.dictionary
  unfold finalEntitlements entitlementsByReplacingApplicationIdentifier at h
  split at h
  · simp only [objectForKey, hd, Option.map_some, Option.bind_some, applicationIdentifierKey,
      NSDictionary.objectForKey_setObject_self, Option.some.injEq] at h
    exact ⟨_, h.symm⟩
  · exact husable.appID value h

/-- The app directory an iteration leaves can be resigned again. -/
theorem resignable_of_resignAppDir {app state state' : AppDir} {profile : MobileProfile}
    (hstate : state.infoPlist = app.infoPlist ∧
      state.bundleExecutableExists = app.bundleExecutableExists)
    (h : resignAppDir env state profile none = .ok state') :
    Resignable env app state' := by
  obtain ⟨husable, bundleID, entitlementsMap, signature, -, hmap, hsignature, rfl⟩ :=
    resignAppDir_eq_ok_iff.mp h
  have hlookup : ∀ key, signature.objectForKey key =
      (finalEntitlements env profile bundleID).objectForKey key := by
    intro key
    rw [objectForKey, hsignature, Option.bind_some]
  refine ⟨hstate.1, hstate.2, ?_, ?_⟩
  · obtain ⟨_, ours, -, hours, -⟩ := mapAppGroups_eq_ok_iff.mp hmap
    refine ⟨ours, ?_⟩
    rw [appGroups_eq_ok_iff, objectForKey_entitlementsWithBundlePath]
    rw [appGroups_eq_ok_iff, Option.bind_some] at hours
    have hsame : signature.objectForKey appGroupKey =
        profile.entitlements.objectForKey appGroupKey :=
      (hlookup appGroupKey).trans (objectForKey_replacing_of_ne _ _ (by decide))
    rwa [hsame]
  · obtain ⟨infoPlist, hinfo, -⟩ := husable.infoPlist
    have hstring : ∀ value, signature.objectForKey applicationIdentifierKey = some value →
        ∃ s, value = .string s := fun value hvalue =>
      objectForKey_finalEntitlements_applicationIdentifier husable bundleID
        ((hlookup applicationIdentifierKey).symm.trans hvalue)
    obtain ⟨oldID, holdID⟩ := exists_getOldBundleId env
      { state with signature := signature, entitlementsMeta := some entitlementsMap } infoPlist
      hstring
    exact ⟨oldID, bind_eq_ok_iff.mpr ⟨infoPlist, readInfoPlist_eq_ok_iff.mpr hinfo, holdID⟩⟩

/-- A profile that resigned the original shows that the original can be resigned. -/
theorem resignable_self_of_resignAppDir {app app' : AppDir} {profile : MobileProfile}
    (h : resignAppDir env app profile none = .ok app') : Resignable env app app := by
  obtain ⟨-, bundleID, _, _, hbundle, hmap, -⟩ := resignAppDir_eq_ok_iff.mp h
  obtain ⟨old, _, hold, -⟩ := mapAppGroups_eq_ok_iff.mp hmap
  exact ⟨rfl, rfl, ⟨old, hold⟩, ⟨bundleID, hbundle⟩⟩

/-- The signatures for two old bundle identifiers are equal unless the profile is a wildcard and the
two print differently. -/
theorem signature_eq_iff {profile : MobileProfile} {bundleID bundleID' : Option String}
    {signature signature' : NSDictionary EntitlementValue}
    (h : (finalEntitlements env profile bundleID).dictionary = some signature)
    (h' : (finalEntitlements env profile bundleID').dictionary = some signature') :
    signature = signature' ↔
      (IsWildcard env profile → formatString bundleID = formatString bundleID') := by
  by_cases hwildcard : IsWildcard env profile
  · have hfinal : ∀ bundleID, finalAppIdentifier (mobileProfileAppID env profile)
        (profile.applicationIdentifierPrefix.bind List.head?) bundleID profile.entitlements =
        some (formatString (profile.applicationIdentifierPrefix.bind List.head?) ++ "." ++
          formatString bundleID) := fun _ => if_pos hwildcard
    obtain ⟨d, hd⟩ : ∃ d, profile.entitlements.dictionary = some d := by
      rw [← Option.isSome_iff_exists, ← isSome_dictionary_replacing]
      exact Option.isSome_of_eq_some h
    simp only [finalEntitlements, hfinal, entitlementsByReplacingApplicationIdentifier, hd,
      Option.map_some, Option.some.injEq] at h h'
    subst h h'
    simp only [hwildcard, true_implies]
    constructor
    · intro heq
      have hvalue := congrArg (fun d => d.objectForKey "application-identifier") heq
      simpa using hvalue
    · exact fun heq => by rw [heq]
  · have hfinal : ∀ bundleID bundleID', finalEntitlements env profile bundleID =
        finalEntitlements env profile bundleID' := fun bundleID bundleID' => by
      have hnot : ¬ isWildcardAppId (mobileProfileAppID env profile) = true := hwildcard
      simp only [finalEntitlements, finalAppIdentifier, if_neg hnot]
    rw [hfinal bundleID bundleID', h', Option.some.injEq] at h
    simp [hwildcard, h]

/-- Without a usable profile there is no outcome. -/
theorem outcome_eq_none_of_not_usable {app : AppDir} {profile : MobileProfile}
    (h : ¬ Usable env app profile) : outcome env app profile = none := by
  unfold outcome
  cases hresign : resignAppDir env app profile none with
  | error e => rfl
  | ok app' => exact absurd (resignAppDir_eq_ok_iff.mp hresign).1 h

/-- Without an array of groups in the profile there is no outcome. -/
theorem outcome_eq_none_of_appGroups {app : AppDir} {profile : MobileProfile}
    (h : ∀ ours, appGroups (some profile.entitlements) ≠ .ok ours) :
    outcome env app profile = none := by
  unfold outcome
  cases hresign : resignAppDir env app profile none with
  | error e => rfl
  | ok app' =>
    obtain ⟨-, _, _, _, -, hmap, -⟩ := resignAppDir_eq_ok_iff.mp hresign
    obtain ⟨_, ours, -, hours, -⟩ := mapAppGroups_eq_ok_iff.mp hmap
    exact absurd hours (h ours)

/-- There is an outcome exactly if the profile can resign the app directory. -/
theorem isSome_outcome_iff {app : AppDir} {profile : MobileProfile} :
    (outcome env app profile).isSome ↔ Resigns env app profile := by
  rw [outcome, Option.isSome_map]
  constructor
  · intro hsome
    cases hresign : resignAppDir env app profile none with
    | error e => simp [hresign, Except.toOption] at hsome
    | ok app' =>
      obtain ⟨husable, bundleID, _, _, hbundle, hmap, -⟩ := resignAppDir_eq_ok_iff.mp hresign
      obtain ⟨old, ours, hold, hours, hle, -⟩ := mapAppGroups_eq_ok_iff.mp hmap
      exact ⟨husable, ⟨bundleID, hbundle⟩, ⟨old, ours, hold, hours, hle⟩⟩
  · rintro ⟨husable, ⟨bundleID, hbundle⟩, ⟨old, ours, hold, hours, hle⟩⟩
    obtain ⟨signature, hsignature⟩ : ∃ signature,
        (finalEntitlements env profile bundleID).dictionary = some signature := by
      rw [← Option.isSome_iff_exists, finalEntitlements, isSome_dictionary_replacing]
      exact husable.dictionary
    rw [resignAppDir_eq_ok_iff.mpr ⟨husable, bundleID, _, signature, hbundle,
      mapAppGroups_eq_ok_iff.mpr ⟨old, ours, hold, hours, hle, rfl⟩, hsignature, rfl⟩]
    rfl

/-- The outcome of a usable profile: the final entitlements and the partners of the app groups, if
the groups fit. -/
theorem outcome_of_usable {app : AppDir} {profile : MobileProfile}
    (husable : Usable env app profile) {old ours : List String} {bundleID : Option String}
    {signature : NSDictionary EntitlementValue}
    (hold : appGroups (entitlementsWithBundlePath app) = .ok old)
    (hours : appGroups (some profile.entitlements) = .ok ours)
    (hbundle : oldBundleID env app = .ok bundleID)
    (hsignature : (finalEntitlements env profile bundleID).dictionary = some signature) :
    outcome env app profile =
      if old.length ≤ ours.length then some ⟨signature, some (partner ours old)⟩ else none := by
  split
  · rename_i hle
    -- the groups of the profile are cut to the number of those of the app
    have hpartner : (fun group => (NSDictionary.dictionaryWithObjects (ours.take old.length)
        old).objectForKey group) = partner ours old := by
      funext group
      rw [NSDictionary.objectForKey_dictionaryWithObjects, partner]
      by_cases hgroup : group ∈ old
      · rw [if_pos hgroup, if_pos hgroup,
          List.getElem?_take_of_lt (List.idxOf_lt_length_of_mem hgroup)]
      · rw [if_neg hgroup, if_neg hgroup]
    have hresign := resignAppDir_eq_ok_iff.mpr ⟨husable, bundleID, _, signature, hbundle,
      mapAppGroups_eq_ok_iff.mpr ⟨old, ours, hold, hours, hle, rfl⟩, hsignature, rfl⟩
    simp only [outcome, hresign, Except.toOption, Option.map_some, AppDir.view, hpartner]
  · rename_i hle
    unfold outcome
    cases hresign : resignAppDir env app profile none with
    | error e => rfl
    | ok app' =>
      obtain ⟨-, _, _, _, -, hmap, -⟩ := resignAppDir_eq_ok_iff.mp hresign
      obtain ⟨old', ours', hold', hours', hle', -⟩ := mapAppGroups_eq_ok_iff.mp hmap
      obtain rfl : old = old' := by simpa [hold] using hold'
      obtain rfl : ours = ours' := by simpa [hours] using hours'
      exact absurd hle' hle

/-- **One iteration.** From a derived app directory a profile has the outcome it has on the original
exactly when it is unusable for either, or is served alike by the two signatures. -/
theorem outcome_eq_iff {app state : AppDir} {profile : MobileProfile}
    (happ : Resignable env app app) (hstate : Resignable env app state) :
    outcome env state profile = outcome env app profile ↔
      (Usable env app profile → ServesAlike env app state profile) := by
  by_cases husable : Usable env app profile
  · have husable' := husable.of_eq hstate.infoPlist hstate.executable
    obtain ⟨old, hold⟩ := happ.groups
    obtain ⟨now, hnow⟩ := hstate.groups
    obtain ⟨bundleID, hbundle⟩ := happ.bundleID
    obtain ⟨bundleID', hbundle'⟩ := hstate.bundleID
    have hdictionary : ∀ b, (finalEntitlements env profile b).dictionary.isSome := fun b => by
      rw [finalEntitlements, isSome_dictionary_replacing]
      exact husable.dictionary
    obtain ⟨signature, hsignature⟩ := Option.isSome_iff_exists.mp (hdictionary bundleID)
    obtain ⟨signature', hsignature'⟩ := Option.isSome_iff_exists.mp (hdictionary bundleID')
    simp only [husable, true_implies]
    -- Without the profile's groups both runs throw.
    by_cases hours : ∃ ours, appGroups (some profile.entitlements) = .ok ours
    · obtain ⟨ours, hours⟩ := hours
      rw [outcome_of_usable husable' hnow hours hbundle' hsignature',
        outcome_of_usable husable hold hours hbundle hsignature]
      have hserves : ServesAlike env app state profile ↔
          (old.length ≤ ours.length ↔ now.length ≤ ours.length) ∧
            (old.length ≤ ours.length → now.length ≤ ours.length →
              (∀ group, partner ours old group = partner ours now group) ∧
                (IsWildcard env profile → formatString bundleID = formatString bundleID')) := by
        constructor
        · intro h
          obtain ⟨hfit, hsame⟩ := h old now ours hold hnow hours
          refine ⟨hfit, fun hle hle' => ⟨(hsame hle hle').1, fun hwildcard => ?_⟩⟩
          exact (hsame hle hle').2 hwildcard bundleID bundleID' hbundle hbundle'
        · intro h old₁ now₁ ours₁ hold₁ hnow₁ hours₁
          obtain rfl : old = old₁ := by simpa [hold] using hold₁
          obtain rfl : now = now₁ := by simpa [hnow] using hnow₁
          obtain rfl : ours = ours₁ := by simpa [hours] using hours₁
          refine ⟨h.1, fun hle hle' => ⟨(h.2 hle hle').1, ?_⟩⟩
          intro hwildcard bundleID₁ bundleID₁' hbundle₁ hbundle₁'
          obtain rfl : bundleID = bundleID₁ := by simpa [hbundle] using hbundle₁
          obtain rfl : bundleID' = bundleID₁' := by simpa [hbundle'] using hbundle₁'
          exact (h.2 hle hle').2 hwildcard
      rw [hserves, ← signature_eq_iff hsignature hsignature', ← funext_iff]
      -- If the groups fit on one side only, one run throws and the signatures do not serve alike.
      by_cases hle : old.length ≤ ours.length <;> by_cases hle' : now.length ≤ ours.length
      · simp only [hle, hle', if_true, Option.some.injEq, View.mk.injEq, true_implies, true_and]
        exact ⟨fun h => ⟨h.2.symm, h.1.symm⟩, fun h => ⟨h.2.symm, h.1.symm⟩⟩
      all_goals simp [hle, hle']
    · rw [outcome_eq_none_of_appGroups (not_exists.mp hours),
        outcome_eq_none_of_appGroups (not_exists.mp hours)]
      exact iff_of_true rfl fun _ _ ours _ _ h => absurd ⟨ours, h⟩ hours
  · have husable' : ¬ Usable env state profile := fun h =>
      husable (h.of_eq hstate.infoPlist.symm hstate.executable.symm)
    rw [outcome_eq_none_of_not_usable husable, outcome_eq_none_of_not_usable husable']
    simp [husable]

end Iteration

/-! ## The loop -/

section Loop

variable {env : SigningEnvironment} {app : AppDir} {profiles : List MobileProfile}

/-- What a handler that always returns sees of the loop. -/
def seenFrom (env : SigningEnvironment) (app : AppDir) (profiles : List MobileProfile) :
    List AppDir :=
  (resignForProfiles env (fun _ => .ok ()) app profiles).1

theorem seen_eq_seenFrom {type : ApplicationType} (htype : type ≠ .simulator) :
    seen env type app profiles = seenFrom env app profiles := by
  rw [seen, resignApplication, if_neg htype, seenFrom]

@[simp] theorem seenFrom_nil : seenFrom env app [] = [] := rfl

theorem seenFrom_cons (profile : MobileProfile) :
    seenFrom env app (profile :: profiles) =
      match resignAppDir env app profile none with
      | .error _ => []
      | .ok app' => app' :: seenFrom env app' profiles := by
  rw [seenFrom, resignForProfiles]
  cases resignAppDir env app profile none <;> rfl

/-- The first iteration resigns the original. -/
theorem seenFrom_getElem_zero {profile : MobileProfile} (h : profiles[0]? = some profile) :
    (seenFrom env app profiles)[0]? = (resignAppDir env app profile none).toOption := by
  cases profiles with
  | nil => simp at h
  | cons first rest =>
    obtain rfl : first = profile := by simpa using h
    rw [seenFrom_cons]
    cases resignAppDir env app first none <;> rfl

/-- Every further iteration resigns what the one before it left. -/
theorem seenFrom_getElem_succ {i : Nat} {state : AppDir} {profile : MobileProfile}
    (hstate : (seenFrom env app profiles)[i]? = some state)
    (h : profiles[i + 1]? = some profile) :
    (seenFrom env app profiles)[i + 1]? =
      (resignAppDir env state profile none).toOption := by
  induction profiles generalizing app i with
  | nil => simp at h
  | cons first rest ih =>
    rw [seenFrom_cons] at hstate ⊢
    cases hfirst : resignAppDir env app first none with
    | error e => simp [hfirst] at hstate
    | ok app' =>
      simp only [hfirst, List.getElem?_cons_succ] at hstate h ⊢
      cases i with
      | zero =>
        obtain rfl : app' = state := by simpa using hstate
        exact seenFrom_getElem_zero h
      | succ i => exact ih (by simpa using hstate) h

/-- Whatever the handler sees can be resigned again. -/
theorem resignable_of_getElem {current : AppDir}
    (hcurrent : current.infoPlist = app.infoPlist ∧
      current.bundleExecutableExists = app.bundleExecutableExists) {i : Nat} {state : AppDir}
    (hstate : (seenFrom env current profiles)[i]? = some state) :
    Resignable env app state := by
  induction profiles generalizing current i with
  | nil => simp [seenFrom_nil] at hstate
  | cons first rest ih =>
    rw [seenFrom_cons] at hstate
    cases hfirst : resignAppDir env current first none with
    | error e => simp [hfirst] at hstate
    | ok app' =>
      have happ' : Resignable env app app' := resignable_of_resignAppDir hcurrent hfirst
      simp only [hfirst] at hstate
      cases i with
      | zero =>
        obtain rfl : app' = state := by simpa using hstate
        exact happ'
      | succ i => exact ih ⟨happ'.infoPlist, happ'.executable⟩ (by simpa using hstate)

/-- If the handler sees anything the original can be resigned. -/
theorem resignable_self_of_getElem {i : Nat} {state : AppDir}
    (hstate : (seenFrom env app profiles)[i]? = some state) :
    Resignable env app app := by
  cases profiles with
  | nil => simp [seenFrom_nil] at hstate
  | cons first rest =>
    rw [seenFrom_cons] at hstate
    cases hfirst : resignAppDir env app first none with
    | error e => simp [hfirst] at hstate
    | ok app' => exact resignable_self_of_resignAppDir hfirst

/-- An iteration that is reached shows what its profile alone shows exactly if, after the first one,
the profile is unusable for the app or is served alike by the two signatures. -/
theorem reached_iff {i : Nat} {state : AppDir} {profile : MobileProfile}
    (hstate : (seenFrom env app profiles)[i]? = some state)
    (hprofile : profiles[i + 1]? = some profile) :
    (seenFrom env app profiles)[i + 1]?.map AppDir.view = outcome env app profile ↔
      (Usable env app profile → ServesAlike env app state profile) := by
  rw [seenFrom_getElem_succ hstate hprofile]
  exact outcome_eq_iff (resignable_self_of_getElem hstate)
    (resignable_of_getElem ⟨rfl, rfl⟩ hstate)

/-- **Independence of the profiles.** For every app that is no simulator app and all profiles: what
each iteration shows, and whether it throws, is what resigning the original app with its profile
alone does, exactly when no profile that cannot resign the app comes before one that can, and in
every iteration after the first the profile is unusable for the app or is served alike by the
original signature and by the one the previous iteration left. -/
theorem independent_iff {type : ApplicationType} (htype : type ≠ .simulator) :
    Independent env type app profiles ↔
      (profiles.Pairwise fun earlier later => Resigns env app later → Resigns env app earlier) ∧
      ∀ i state profile, (seen env type app profiles)[i]? = some state →
        profiles[i + 1]? = some profile →
        (Usable env app profile → ServesAlike env app state profile) := by
  simp only [Independent, seen_eq_seenFrom htype]
  constructor
  · intro hindependent
    refine ⟨List.pairwise_iff_getElem.mpr fun i j hi hj hij hlater => ?_, ?_⟩
    · -- the later iteration is reached, so the earlier one did not throw
      have hshown := hindependent j _ (List.getElem?_eq_getElem hj)
      have hsome := isSome_outcome_iff.mpr hlater
      rw [← hshown, Option.isSome_map, isSome_getElem?] at hsome
      rw [← isSome_outcome_iff, ← hindependent i _ (List.getElem?_eq_getElem hi),
        Option.isSome_map, isSome_getElem?]
      exact hij.trans hsome
    · intro i state profile hstate hprofile
      exact (reached_iff hstate hprofile).mp (hindependent (i + 1) profile hprofile)
  · rintro ⟨horder, hserves⟩
    have hreached : ∀ (i : Nat) (profile : MobileProfile), profiles[i]? = some profile →
        i ≤ (seenFrom env app profiles).length →
          (seenFrom env app profiles)[i]?.map AppDir.view = outcome env app profile := by
      intro i profile hprofile hlength
      cases i with
      | zero => rw [seenFrom_getElem_zero hprofile, outcome]
      | succ i =>
        have hstate := List.getElem?_eq_getElem (l := seenFrom env app profiles) hlength
        exact (reached_iff hstate hprofile).mpr (hserves i _ profile hstate hprofile)
    intro i profile hprofile
    rcases Nat.lt_or_ge (seenFrom env app profiles).length i with hlost | hlength
    · -- the loop ended before: the profile that threw cannot resign the app, nor can this one
      obtain ⟨hi, rfl⟩ := List.getElem?_eq_some_iff.mp hprofile
      have hended := hlost.trans hi
      have hthrown := hreached _ _ (List.getElem?_eq_getElem hended) le_rfl
      rw [List.getElem?_eq_none le_rfl] at hthrown
      have hnot : ¬ Resigns env app profiles[i] := by
        intro hresigns
        have hearlier := List.pairwise_iff_getElem.mp horder _ i hended hi hlost hresigns
        rw [← isSome_outcome_iff, ← hthrown] at hearlier
        cases hearlier
      rw [List.getElem?_eq_none hlost.le, Option.not_isSome_iff_eq_none.mp
        (mt isSome_outcome_iff.mp hnot)]
      rfl
    · exact hreached i profile hprofile hlength

end Loop

/-! ### A wildcard profile after an explicit one -/

/-- Two profiles with identifiers of their own do not disturb each other. -/
theorem independent_explicit_explicit :
    Independent developerEnvironment .physicalDevice otherTeamApp
      [profileWithAppID "ABCDE12345.com.other.app", profileWithAppID "ABCDE12345.com.my.app"] := by
  refine (independent_iff (by decide)).mpr ⟨?_, ?_⟩
  · refine List.pairwise_pair.mpr fun _ => isSome_outcome_iff.mp ?_
    decide +kernel
  · intro i state profile hstate hprofile _ old now ours hold hnow hours
    obtain ⟨rfl, rfl⟩ : i = 0 ∧ profileWithAppID "ABCDE12345.com.my.app" = profile := by
      rcases i with _ | _ | i <;> simp_all
    obtain rfl : old = [] := (Except.ok.inj hold).symm
    have hgroups : ((seen developerEnvironment .physicalDevice otherTeamApp
        [profileWithAppID "ABCDE12345.com.other.app",
          profileWithAppID "ABCDE12345.com.my.app"])[0]?.map fun state =>
            (appGroups (entitlementsWithBundlePath state)).toOption) = some (some []) := by
      decide +kernel
    obtain rfl : now = [] := by simpa [hstate, hnow, Except.toOption] using hgroups
    exact ⟨Iff.rfl, fun _ _ => ⟨fun _ => rfl, fun hwildcard =>
      absurd hwildcard (by decide +kernel)⟩⟩

/-- **The order of the profiles shows.** Alone the wildcard profile signs the app as `com.my.app`;
after the profile for `com.other.app` it signs it as that. -/
theorem not_independent_explicit_wildcard :
    ¬ Independent developerEnvironment .physicalDevice otherTeamApp
      [profileWithAppID "ABCDE12345.com.other.app", profileWithAppID "ABCDE12345.*"] := by
  intro h
  have hview := h 1 (profileWithAppID "ABCDE12345.*") rfl
  have hsigned := congrArg (Option.map fun view : View =>
    view.signature.objectForKey applicationIdentifierKey) hview
  have halone : (outcome developerEnvironment otherTeamApp (profileWithAppID "ABCDE12345.*")).map
      (fun view => view.signature.objectForKey applicationIdentifierKey) =
        some (some (.string "ABCDE12345.com.my.app")) := by decide +kernel
  rw [halone, Option.map_map] at hsigned
  exact absurd hsigned (by decide +kernel)

end Codesigner

end IOSDeviceManager
