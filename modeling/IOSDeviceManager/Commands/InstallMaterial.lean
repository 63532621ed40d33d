import IOSDeviceManager.Commands.DeviceCommands

/-! # What `install` signs with

A profile or a codesign identity that is given but cannot be resolved is the same to the command as
one that is not given. The promise that given material is used or the install is refused is kept
exactly where everything given resolves. -/

namespace IOSDeviceManager

open General DeviceProgram DeviceOperation

namespace InstallAppCommand

/-- What an install call signs with. -/
def materialOf : DeviceOperation → Option SigningMaterial
  | .installApp _ _ material _ _ => some material
  | _ => none

/-- What the install calls of a history sign with. -/
def installs (history : History Answer) : List SigningMaterial :=
  history.filterMap fun call => materialOf call.1

/-- The execution does not succeed and makes no install call. -/
def Refused (run : Except NSException IOSReturnStatusCode × History Answer) : Prop :=
  run.1 ≠ .ok .everythingOkay ∧ installs run.2 = []

/-- The codesign identifier in the arguments, unless it is empty. -/
def givenCodesignID (args : NSDictionary ArgValue) : Option String :=
  (stringArg args codesignIDOptionName).filter fun codesignID => codesignID ≠ ""

/-- The profile path that is given can be loaded. -/
def Loads (host : DeviceHost) (profilePath : String) (profile : MobileProfile) : Prop :=
  MobileProfile.withPath host.toHost (some profilePath) = .ok profile

/-- **What is promised.** One given profile or identity is what the only install call signs with, or
the install is refused because it cannot be resolved; for both the install is refused. -/
def UsesGivenMaterial (host : DeviceHost) (args : NSDictionary ArgValue)
    (run : Except NSException IOSReturnStatusCode × History Answer) : Prop :=
  match stringArg args "profile-path", givenCodesignID args with
  | some profilePath, none =>
      (∃ profile, Loads host profilePath profile ∧ installs run.2 = [.profile profile]) ∨
        (∀ profile, ¬ Loads host profilePath profile) ∧ Refused run
  | none, some codesignID =>
      (∃ identity, CodesignIdentity.Denotes host.validCodesigningIdentities codesignID identity ∧
          installs run.2 = [.identity identity]) ∨
        (∀ identity,
          ¬ CodesignIdentity.Denotes host.validCodesigningIdentities codesignID identity) ∧
        Refused run
  | some _, some _ => Refused run
  | none, none => True

/-! ## What the arguments resolve to -/

section Arguments

variable {host : DeviceHost} {args : NSDictionary ArgValue}

/-- No profile path, no profile. -/
theorem profileFromArgs_of_none (h : stringArg args "profile-path" = none) :
    profileFromArgs host args = none := by
  rw [profileFromArgs, h, Option.bind_none]

/-- The profile is the one that the path loads. -/
theorem profileFromArgs_eq_some_iff {profilePath : String} {profile : MobileProfile}
    (h : stringArg args "profile-path" = some profilePath) :
    profileFromArgs host args = some profile ↔ Loads host profilePath profile := by
  rw [profileFromArgs, h, Option.bind_some, Loads]
  cases MobileProfile.withPath host.toHost (some profilePath) with
  | error message => simp [Except.toOption]
  | ok loaded => simp [Except.toOption]

/-- No codesign identifier, or an empty one: no identity. -/
theorem codesignIDFromArgs_of_none (h : givenCodesignID args = none) :
    codesignIDFromArgs host args = none := by
  unfold givenCodesignID at h
  unfold codesignIDFromArgs
  cases harg : stringArg args codesignIDOptionName with
  | none => rfl
  | some codesignID =>
    have hempty : codesignID = "" := by simpa [harg] using h
    simp [hempty]

/-- A codesign identifier that is given is looked up. -/
theorem codesignIDFromArgs_of_some {codesignID : String}
    (h : givenCodesignID args = some codesignID) :
    codesignIDFromArgs host args =
      if codesignID = "-" then some CodesignIdentity.adHoc
      else CodesignIdentity.identityForShasumOrName codesignID
        host.validCodesigningIdentities := by
  obtain ⟨harg, hne⟩ := Option.filter_eq_some_iff.mp h
  rw [codesignIDFromArgs, harg]
  exact if_neg (by simpa using hne)

/-- The identity that is found is one the identifier denotes. -/
theorem denotes_of_codesignIDFromArgs {codesignID : String} {identity : CodesignIdentity}
    (hgiven : givenCodesignID args = some codesignID)
    (h : codesignIDFromArgs host args = some identity) :
    CodesignIdentity.Denotes host.validCodesigningIdentities codesignID identity := by
  rw [codesignIDFromArgs_of_some hgiven] at h
  split at h
  · rename_i hdash
    obtain rfl := Option.some.inj h
    exact .adHoc hdash
  · rename_i hne
    exact CodesignIdentity.denotes_of_identityForShasumOrName hne h

/-- An identifier for which none is found denotes none. -/
theorem not_denotes_of_codesignIDFromArgs {codesignID : String}
    (hgiven : givenCodesignID args = some codesignID) (h : codesignIDFromArgs host args = none)
    (identity : CodesignIdentity) :
    ¬ CodesignIdentity.Denotes host.validCodesigningIdentities codesignID identity := by
  rw [codesignIDFromArgs_of_some hgiven] at h
  split at h
  · cases h
  · rename_i hne
    exact CodesignIdentity.not_denotes_of_identityForShasumOrName hne h identity

end Arguments

/-! ## The install call -/

section Install

variable {host : DeviceHost} {args : NSDictionary ArgValue} {env : Environment Answer}
  {device : Device} {app : Application} {resources : List String}

/-- Both a profile and an identity: no install call. -/
theorem execute_of_both (hdevice : deviceFromArgs host args = .ok (some device))
    (happ : host.withBundlePath (stringArg args appPathOptionName) = .ok (some app))
    (hprofile : (profileFromArgs host args).isSome)
    (hidentity : (codesignIDFromArgs host args).isSome) :
    Refused ((execute host args).execute env) := by
  have hrun : (execute host args).execute env = (.ok .invalidArguments, []) := by
    simp [execute, DeviceProgram.execute, onDevice, ofHost, hdevice, happ, hprofile, hidentity,
      ExceptT.run_bind]
  rw [hrun]
  exact ⟨by simp, rfl⟩

/-- Otherwise there is one install call, with what there is. -/
theorem installs_execute (hdevice : deviceFromArgs host args = .ok (some device))
    (happ : host.withBundlePath (stringArg args appPathOptionName) = .ok (some app))
    (hresources : resourcesFromArgs host.toHost args = .ok resources)
    (hboth : ¬ ((profileFromArgs host args).isSome ∧ (codesignIDFromArgs host args).isSome)) :
    installs ((execute host args).execute env).2 =
      [signingMaterial (profileFromArgs host args) (codesignIDFromArgs host args)] := by
  have hrun : ((execute host args).execute env).2 = [⟨_, env [] (.installApp device (some app)
      (signingMaterial (profileFromArgs host args) (codesignIDFromArgs host args)) resources
      (boolArg Commands.installAppCommand args "-f" "force-reinstall-app"))⟩] := by
    simp [execute, DeviceProgram.execute, onDevice, ofHost, hdevice, happ, hresources, hboth,
      ExceptT.run_bind, history_callStatus]
  rw [hrun]
  rfl

/-- A single install call is no refusal. -/
theorem not_refused_of_installs
    {run : Except NSException IOSReturnStatusCode × History Answer} {material : SigningMaterial}
    (h : installs run.2 = [material]) : ¬ Refused run := by
  rintro ⟨-, hnone⟩
  rw [h] at hnone
  cases hnone

/-- Of a given profile alone: the install call has it, or there is nothing it could have. -/
theorem usesGivenMaterial_profile_iff (hdevice : deviceFromArgs host args = .ok (some device))
    (happ : host.withBundlePath (stringArg args appPathOptionName) = .ok (some app))
    (hresources : resourcesFromArgs host.toHost args = .ok resources) {profilePath : String}
    (hpath : stringArg args "profile-path" = some profilePath)
    (hgiven : givenCodesignID args = none) :
    UsesGivenMaterial host args ((execute host args).execute env) ↔
      ∃ profile, Loads host profilePath profile := by
  have hidentity : codesignIDFromArgs host args = none := codesignIDFromArgs_of_none hgiven
  have hinstalls : installs ((execute host args).execute env).2 = _ :=
    installs_execute hdevice happ hresources (by simp [hidentity])
  unfold UsesGivenMaterial
  rw [hpath, hgiven]
  dsimp only
  rw [hidentity] at hinstalls
  cases hprofile : profileFromArgs host args with
  | none =>
    -- the path loads nothing, and the profile is detected
    have hnone : ∀ profile, ¬ Loads host profilePath profile := fun profile hloads => by
      rw [(profileFromArgs_eq_some_iff hpath).mpr hloads] at hprofile
      cases hprofile
    rw [hprofile] at hinstalls
    have hnot := not_refused_of_installs hinstalls
    simp [hnone, hnot]
  | some profile =>
    have hloads := (profileFromArgs_eq_some_iff hpath).mp hprofile
    rw [hprofile] at hinstalls
    exact iff_of_true (.inl ⟨profile, hloads, hinstalls⟩) ⟨profile, hloads⟩

/-- Of a given codesign identifier alone: the same. -/
theorem usesGivenMaterial_identity_iff (hdevice : deviceFromArgs host args = .ok (some device))
    (happ : host.withBundlePath (stringArg args appPathOptionName) = .ok (some app))
    (hresources : resourcesFromArgs host.toHost args = .ok resources)
    (hpath : stringArg args "profile-path" = none) {codesignID : String}
    (hgiven : givenCodesignID args = some codesignID) :
    UsesGivenMaterial host args ((execute host args).execute env) ↔ ∃ identity,
      CodesignIdentity.Denotes host.validCodesigningIdentities codesignID identity := by
  have hprofile : profileFromArgs host args = none := profileFromArgs_of_none hpath
  have hinstalls : installs ((execute host args).execute env).2 = _ :=
    installs_execute hdevice happ hresources (by simp [hprofile])
  unfold UsesGivenMaterial
  rw [hpath, hgiven]
  dsimp only
  rw [hprofile] at hinstalls
  cases hidentity : codesignIDFromArgs host args with
  | none =>
    -- the identifier denotes nothing, and profile and identity are detected
    have hnone := not_denotes_of_codesignIDFromArgs hgiven hidentity
    rw [hidentity] at hinstalls
    have hnot := not_refused_of_installs hinstalls
    simp [hnone, hnot]
  | some identity =>
    have hdenotes := denotes_of_codesignIDFromArgs hgiven hidentity
    rw [hidentity] at hinstalls
    exact iff_of_true (.inl ⟨identity, hdenotes, hinstalls⟩) ⟨identity, hdenotes⟩

/-- Where both are given: only if both resolve is the install refused. -/
theorem usesGivenMaterial_both_iff (hdevice : deviceFromArgs host args = .ok (some device))
    (happ : host.withBundlePath (stringArg args appPathOptionName) = .ok (some app))
    (hresources : resourcesFromArgs host.toHost args = .ok resources) {profilePath : String}
    (hpath : stringArg args "profile-path" = some profilePath) {codesignID : String}
    (hgiven : givenCodesignID args = some codesignID) :
    UsesGivenMaterial host args ((execute host args).execute env) ↔
      (∃ profile, Loads host profilePath profile) ∧ ∃ identity,
        CodesignIdentity.Denotes host.validCodesigningIdentities codesignID identity := by
  unfold UsesGivenMaterial
  rw [hpath, hgiven]
  dsimp only
  cases hprofile : profileFromArgs host args with
  | none =>
    -- the identity is used, or nothing that was given
    have hinstalls : installs ((execute host args).execute env).2 = _ :=
      installs_execute hdevice happ hresources (by simp [hprofile])
    apply iff_of_false (not_refused_of_installs hinstalls)
    rintro ⟨⟨profile, hloads⟩, -⟩
    rw [(profileFromArgs_eq_some_iff hpath).mpr hloads] at hprofile
    cases hprofile
  | some profile =>
    have hloads := (profileFromArgs_eq_some_iff hpath).mp hprofile
    cases hidentity : codesignIDFromArgs host args with
    | none =>
      -- the profile is used as if the identifier had not been given
      have hinstalls : installs ((execute host args).execute env).2 = _ :=
        installs_execute hdevice happ hresources (by simp [hidentity])
      apply iff_of_false (not_refused_of_installs hinstalls)
      rintro ⟨-, identity, hdenotes⟩
      exact not_denotes_of_codesignIDFromArgs hgiven hidentity identity hdenotes
    | some identity =>
      have hrefused : Refused ((execute host args).execute env) :=
        execute_of_both hdevice happ (by simp [hprofile]) (by simp [hidentity])
      exact iff_of_true hrefused
        ⟨⟨profile, hloads⟩, identity, denotes_of_codesignIDFromArgs hgiven hidentity⟩

/-- **When given material is used.** With the device and the application found and the resources
valid: the promise is kept exactly when a profile path that is given loads a profile, and a codesign
identifier that is given denotes an identity. -/
theorem usesGivenMaterial_iff (hdevice : deviceFromArgs host args = .ok (some device))
    (happ : host.withBundlePath (stringArg args appPathOptionName) = .ok (some app))
    (hresources : resourcesFromArgs host.toHost args = .ok resources) :
    UsesGivenMaterial host args ((execute host args).execute env) ↔
      (∀ profilePath, stringArg args "profile-path" = some profilePath →
        ∃ profile, Loads host profilePath profile) ∧
      (∀ codesignID, givenCodesignID args = some codesignID → ∃ identity,
        CodesignIdentity.Denotes host.validCodesigningIdentities codesignID identity) := by
  cases hpath : stringArg args "profile-path" with
  | none =>
    cases hgiven : givenCodesignID args with
    | none => simp [UsesGivenMaterial, hpath, hgiven]
    | some codesignID =>
      rw [usesGivenMaterial_identity_iff hdevice happ hresources hpath hgiven]
      simp
  | some profilePath =>
    cases hgiven : givenCodesignID args with
    | none =>
      rw [usesGivenMaterial_profile_iff hdevice happ hresources hpath hgiven]
      simp
    | some codesignID =>
      rw [usesGivenMaterial_both_iff hdevice happ hresources hpath hgiven]
      simp

end Install

/-! ### A profile that is missing -/

/-- A host with an app at `/My.app`, one profile and one simulator. -/
def oneAppHost : DeviceHost :=
  { oneSimulatorHost with
    item := fun path =>
      if path = "/My.app" then some (.directory "My.app" [])
      else ResignAllCommand.oneProfileHost.item path }

/-- `install /My.app -p profilePath -d` with the simulator. -/
def installArgs (profilePath : String) : NSDictionary ArgValue :=
  ((NSDictionary.empty.setObject appPathOptionName (.string "/My.app")).setObject "profile-path"
    (.string profilePath)).setObject deviceIDOptionName (.string sampleSimulatorID)

/-- The device is found. -/
theorem deviceFromArgs_installArgs (profilePath : String) :
    deviceFromArgs oneAppHost (installArgs profilePath) =
      .ok (some (.simulator sampleSimulatorID)) := by
  have harg : stringArg (installArgs profilePath) deviceIDOptionName = some sampleSimulatorID :=
    rfl
  have hfound : Device.withID oneAppHost sampleSimulatorID =
      .ok (some (.simulator sampleSimulatorID)) := by decide +kernel
  rw [deviceFromArgs, harg]
  exact hfound

/-- The application is found. -/
theorem withBundlePath_installArgs (profilePath : String) :
    oneAppHost.withBundlePath (stringArg (installArgs profilePath) appPathOptionName) =
      .ok (some ⟨.physicalDevice, Codesigner.otherTeamApp, 4242⟩) :=
  rfl

/-- A profile that loads is used. -/
theorem usesGivenMaterial_iff_loads :
    UsesGivenMaterial oneAppHost (installArgs "/profiles/a.mobileprovision")
      ((execute oneAppHost (installArgs "/profiles/a.mobileprovision")).execute
        (constantDevices .everythingOkay)) := by
  have hresources : resourcesFromArgs oneAppHost.toHost
      (installArgs "/profiles/a.mobileprovision") = .ok [] := rfl
  refine (usesGivenMaterial_iff (deviceFromArgs_installArgs _) (withBundlePath_installArgs _)
    hresources).mpr ⟨?_, ?_⟩
  · intro profilePath hpath
    obtain rfl : "/profiles/a.mobileprovision" = profilePath := Option.some.inj hpath
    have hloads : (profileFromArgs oneAppHost
        (installArgs "/profiles/a.mobileprovision")).isSome = true := by decide +kernel
    obtain ⟨profile, hprofile⟩ := Option.isSome_iff_exists.mp hloads
    exact ⟨profile, (profileFromArgs_eq_some_iff rfl).mp hprofile⟩
  · intro codesignID hgiven
    cases hgiven

/-- **A missing profile is ignored.** With the path of a profile that is not there, the app is
installed with whatever is detected, and the status is a success. -/
theorem installs_detected_missingProfile :
    ((execute oneAppHost (installArgs "/profiles/b.mobileprovision")).execute
        (constantDevices .everythingOkay)).1 = .ok .everythingOkay ∧
      installs ((execute oneAppHost (installArgs "/profiles/b.mobileprovision")).execute
        (constantDevices .everythingOkay)).2 = [.detected] ∧
      ¬ UsesGivenMaterial oneAppHost (installArgs "/profiles/b.mobileprovision")
        ((execute oneAppHost (installArgs "/profiles/b.mobileprovision")).execute
          (constantDevices .everythingOkay)) := by
  have hresources : resourcesFromArgs oneAppHost.toHost
      (installArgs "/profiles/b.mobileprovision") = .ok [] := rfl
  have hprofile : profileFromArgs oneAppHost (installArgs "/profiles/b.mobileprovision") = none :=
    Option.isNone_iff_eq_none.mp (by decide +kernel)
  have hinstalls : installs ((execute oneAppHost
      (installArgs "/profiles/b.mobileprovision")).execute
        (constantDevices .everythingOkay)).2 = _ :=
    installs_execute (deviceFromArgs_installArgs _) (withBundlePath_installArgs _) hresources
      (by simp [hprofile])
  rw [hprofile] at hinstalls
  refine ⟨by decide +kernel, hinstalls, fun h => ?_⟩
  rcases h with ⟨profile, -, honly⟩ | ⟨-, hrefused⟩
  · rw [hinstalls] at honly
    cases honly
  · exact not_refused_of_installs hinstalls hrefused

end InstallAppCommand

end IOSDeviceManager
