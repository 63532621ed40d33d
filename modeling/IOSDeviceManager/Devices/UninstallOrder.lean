import IOSDeviceManager.Devices.PhysicalDeviceInstall

/-! # What an installation that cannot be signed leaves behind

`installApp:` on a physical device sends its request to uninstall before it knows whether there is a
profile and an identity to sign with. Where there is none, the application is gone. -/

namespace IOSDeviceManager

open General

/-- The request is one to uninstall. -/
def PhysicalDeviceRequest.isUninstall : PhysicalDeviceRequest → Bool
  | .uninstallApplication _ => true
  | _ => false

/-- The request is made for a signature: for an identity, for profiles or to the codesigner. -/
def PhysicalDeviceRequest.isForSigning : PhysicalDeviceRequest → Bool
  | .identityForAppBundle .. | .rankedProfiles .. | .resignApplication .. => true
  | _ => false

namespace PhysicalDevice

/-! ## What a run shows -/

/-- The exchange shows that signing is impossible: no identity is found, no profile is, or the
resigning throws. -/
def IsRefusal : Sigma PhysicalDeviceRequest.Answer → Prop
  | ⟨.identityForAppBundle .., identity⟩ => identity = none
  | ⟨.rankedProfiles .., profiles⟩ => profiles = []
  | ⟨.resignApplication .., resigned⟩ => resigned ≠ .ok ()
  | _ => False

/-- A request to uninstall has been sent. -/
def UninstallRequested (history : History PhysicalDeviceRequest.Answer) : Prop :=
  ∃ exchange ∈ history, exchange.1.isUninstall = true

/-- Signing has turned out to be impossible. -/
def SigningRefused (history : History PhysicalDeviceRequest.Answer) : Prop :=
  ∃ exchange ∈ history, IsRefusal exchange

/-- The run fails because no profile or identity can be selected: it returns the internal error, or
an exception is thrown. -/
def FailsToSign
    (run : Except NSException IOSReturnStatusCode × History PhysicalDeviceRequest.Answer) : Prop :=
  (run.1 = .ok .internalError ∨ ∃ e, run.1 = .error e) ∧ SigningRefused run.2

/-- A run that fails to sign has not asked to uninstall the application. -/
def KeepsInstalledApp
    (run : Except NSException IOSReturnStatusCode × History PhysicalDeviceRequest.Answer) : Prop :=
  FailsToSign run → ¬ UninstallRequested run.2

section

variable {history later : History PhysicalDeviceRequest.Answer}
  {exchange : Sigma PhysicalDeviceRequest.Answer}

@[simp] theorem not_uninstallRequested_nil : ¬ UninstallRequested [] := by
  simp [UninstallRequested]

@[simp] theorem uninstallRequested_cons : UninstallRequested (exchange :: history) ↔
    exchange.1.isUninstall = true ∨ UninstallRequested history := by
  simp [UninstallRequested]

@[simp] theorem uninstallRequested_append : UninstallRequested (history ++ later) ↔
    UninstallRequested history ∨ UninstallRequested later := by
  simp [UninstallRequested, or_and_right, exists_or]

@[simp] theorem not_signingRefused_nil : ¬ SigningRefused [] := by
  simp [SigningRefused]

@[simp] theorem signingRefused_cons : SigningRefused (exchange :: history) ↔
    IsRefusal exchange ∨ SigningRefused history := by
  simp [SigningRefused]

@[simp] theorem signingRefused_append : SigningRefused (history ++ later) ↔
    SigningRefused history ∨ SigningRefused later := by
  simp [SigningRefused, or_and_right, exists_or]

/-- Only requests for a signature are refused one. -/
theorem isForSigning_of_isRefusal (h : IsRefusal exchange) : exchange.1.isForSigning = true := by
  unfold IsRefusal at h
  split at h
  · rfl
  · rfl
  · rfl
  · exact h.elim

variable {α : Type} {p : PhysicalDeviceProgram α} {env : Environment PhysicalDeviceRequest.Answer}

/-- A program that does not uninstall adds no request to. -/
theorem uninstallRequested_run_iff
    (h : (Monitor.only fun r => r.isUninstall = false).wp p (fun _ _ => True) ⟨⟩) :
    UninstallRequested (p.run env history).2 ↔ UninstallRequested history := by
  obtain ⟨later, hlater, hkind⟩ := Monitor.exists_later_of_wp_only h env history
  rw [hlater, uninstallRequested_append, or_iff_left]
  rintro ⟨exchange, hmem, huninstall⟩
  rw [hkind exchange hmem] at huninstall
  cases huninstall

/-- A program that does not ask for a signature is not refused one. -/
theorem signingRefused_run_iff
    (h : (Monitor.only fun r => r.isForSigning = false).wp p (fun _ _ => True) ⟨⟩) :
    SigningRefused (p.run env history).2 ↔ SigningRefused history := by
  obtain ⟨later, hlater, hkind⟩ := Monitor.exists_later_of_wp_only h env history
  rw [hlater, signingRefused_append, or_iff_left]
  rintro ⟨exchange, hmem, hrefusal⟩
  have hsigning := isForSigning_of_isRefusal hrefusal
  rw [hkind exchange hmem] at hsigning
  cases hsigning

end

/-! ## The requests of the parts -/

section

variable {P : PhysicalDeviceRequest → Prop} {device : PhysicalDevice} {app : TypedApplication}
  {resourcePaths : List String}

/-- Whether an install is needed is asked of the device. -/
theorem only_needsInstall {forceReinstall : Bool} (h : P (.installedPlist app.bundleID)) :
    (Monitor.only P).wp (needsInstall device app forceReinstall) (fun _ _ => True) ⟨⟩ := by
  simp only [needsInstall, installedApp, Monitor.wp_bind, Monitor.wp_request, Monitor.wp_pure]
  refine ⟨h, fun plist => ?_⟩
  cases plist <;> trivial

/-- The requests of an uninstalling. -/
theorem only_uninstallApp {bundleID : String} (hinstalled : P (.installedApplication bundleID))
    (hpid : P (.processID bundleID)) (hkill : P (.killApplication bundleID))
    (huninstall : P (.uninstallApplication bundleID)) :
    (Monitor.only P).wp (uninstallApp bundleID) (fun _ _ => True) ⟨⟩ := by
  have hrest : ∀ terminated : Bool, (Monitor.only P).wp (do
      if terminated then
        let uninstalled ← request (.uninstallApplication bundleID)
        return if uninstalled then IOSReturnStatusCode.everythingOkay else .internalError
      else return .internalError) (fun _ _ => True) ⟨⟩ := by
    intro terminated
    cases terminated with
    | false => trivial
    | true => exact ⟨huninstall, fun _ => trivial⟩
  simp only [uninstallApp, isInstalledWithError, Monitor.wp_bind, Monitor.wp_request]
  refine ⟨hinstalled, fun installed => ?_⟩
  split
  · trivial
  split
  · trivial
  rw [Monitor.wp_bind, terminateApplication, Monitor.wp_bind, Monitor.wp_request]
  refine ⟨hpid, fun pid => ?_⟩
  split
  · exact hrest true
  · exact ⟨hkill, hrest⟩

/-- The requests of the end of an installation. -/
theorem only_installSigned {profile : MobileProfile}
    (hprofile : P (.installProvisioningProfile profile))
    (hinstall : P (.installApplication app.bundlePath)) :
    (Monitor.only P).wp (installSigned app profile) (fun _ _ => True) ⟨⟩ := by
  simp only [installSigned, Monitor.wp_bind, Monitor.wp_request]
  refine ⟨hprofile, fun installed => ?_⟩
  split
  · trivial
  · exact ⟨hinstall, fun _ => trivial⟩

/-- The requests of a resigning. -/
theorem only_resignWith {codesignIdentity : Option CodesignIdentity}
    (h : ∀ profile, P (.resignApplication app.bundlePath profile codesignIdentity resourcePaths))
    (profile : Option MobileProfile) :
    (Monitor.only P).wp (resignWith app codesignIdentity resourcePaths profile)
      (fun _ _ => True) ⟨⟩ := by
  cases profile with
  | none => trivial
  | some profile => exact ⟨h profile, fun _ => trivial⟩

/-- The requests of the selection and the resigning. -/
theorem only_selectAndResign {profile : Option MobileProfile}
    {codesignID : Option CodesignIdentity}
    (hidentity : P (.identityForAppBundle app.bundlePath device.uuid))
    (hranked : ∀ identity, P (.rankedProfiles identity device.uuid app.bundlePath))
    (hresign : ∀ profile codesignIdentity,
      P (.resignApplication app.bundlePath profile codesignIdentity resourcePaths)) :
    (Monitor.only P).wp (selectAndResign device app profile codesignID resourcePaths)
      (fun _ _ => True) ⟨⟩ := by
  match codesignID, profile with
  | some identity, _ =>
    simp only [selectAndResign, resignApp, bestMatchProfileWithIdentity, Monitor.wp_bind,
      Monitor.wp_request, Monitor.wp_pure]
    exact ⟨hranked identity, fun _ => only_resignWith (fun _ => hresign _ _) _⟩
  | none, some profile => exact only_resignWith (fun _ => hresign _ _) (some profile)
  | none, none =>
    simp only [selectAndResign, bestMatchProfile, Monitor.wp_bind, Monitor.wp_request]
    refine ⟨hidentity, fun identity => ?_⟩
    cases identity with
    | none => trivial
    | some identity =>
      simp only [bestMatchProfileWithIdentity, Monitor.wp_bind, Monitor.wp_request, Monitor.wp_pure]
      exact ⟨hranked identity, fun _ => only_resignWith (fun _ => hresign _ _) _⟩

end

/-! ## The conditions -/

section

variable (answers : (r : PhysicalDeviceRequest) → r.Answer)

/-- The device and the Mac of a run, in which every request is made once at most. -/
def answering : Environment PhysicalDeviceRequest.Answer :=
  fun _ r => answers r

/-- The application is to be installed: it is not on the device, or forced, or the versions
differ. -/
def NeedsInstall (app : TypedApplication) (forceReinstall : Bool) : Prop :=
  ∀ plist, answers (.installedPlist app.bundleID) = some plist →
    forceReinstall = true ∨ AppUtils.appVersionIsDifferent plist app.infoPlist = .ok true

/-- The old application is found without an error, and it is not running or can be killed. -/
def CanUninstall (bundleID : String) : Prop :=
  (answers (.installedApplication bundleID)).success = true ∧
    (answers (.installedApplication bundleID)).error = false ∧
    (answers (.processID bundleID) < 1 ∨ answers (.killApplication bundleID) = true)

/-- The best match for an identity can be resigned with. -/
def CanSignWith (device : PhysicalDevice) (app : TypedApplication) (resourcePaths : List String)
    (identity : CodesignIdentity) (codesignIdentity : Option CodesignIdentity) : Prop :=
  ∃ profile, (answers (.rankedProfiles identity device.uuid app.bundlePath)).head? = some profile ∧
    answers (.resignApplication app.bundlePath profile codesignIdentity resourcePaths) = .ok ()

/-- A profile and an identity can be selected, and the resigning with them succeeds. -/
def CanSign (device : PhysicalDevice) (app : TypedApplication) (profile : Option MobileProfile)
    (codesignID : Option CodesignIdentity) (resourcePaths : List String) : Prop :=
  match codesignID, profile with
  | some identity, _ => CanSignWith answers device app resourcePaths identity (some identity)
  | none, some profile =>
      answers (.resignApplication app.bundlePath profile none resourcePaths) = .ok ()
  | none, none => ∃ identity,
      answers (.identityForAppBundle app.bundlePath device.uuid) = some identity ∧
        CanSignWith answers device app resourcePaths identity none

end

/-! ## The parts of a run -/

section

variable {answers : (r : PhysicalDeviceRequest) → r.Answer}
  {history : History PhysicalDeviceRequest.Answer} {device : PhysicalDevice}
  {app : TypedApplication} {resourcePaths : List String}

/-- Uninstalling sends the request exactly if it can. -/
theorem uninstallRequested_uninstallApp (bundleID : String) :
    UninstallRequested ((uninstallApp bundleID).run (answering answers) history).2 ↔
      UninstallRequested history ∨ CanUninstall answers bundleID := by
  unfold uninstallApp isInstalledWithError CanUninstall
  simp only [Interaction.run_bind, Interaction.run_request, answering]
  by_cases hfound : (answers (.installedApplication bundleID)).success = true
  · by_cases hfailed : (answers (.installedApplication bundleID)).error = true
    · simp [hfound, hfailed, PhysicalDeviceRequest.isUninstall]
    · unfold terminateApplication
      by_cases hpid : answers (.processID bundleID) < 1
      · simp [hfound, hfailed, answering, hpid, PhysicalDeviceRequest.isUninstall]
      · by_cases hkill : answers (.killApplication bundleID) = true
        · simp [hfound, hfailed, answering, hpid, hkill, PhysicalDeviceRequest.isUninstall]
        · simp [hfound, hfailed, answering, hpid, hkill, PhysicalDeviceRequest.isUninstall]
  · simp [hfound, PhysicalDeviceRequest.isUninstall]

/-- Whether an install is needed, as the run computes it. -/
theorem needsInstall_iff (forceReinstall : Bool) :
    ((needsInstall device app forceReinstall).run (answering answers) history).1 = .ok true ↔
      NeedsInstall answers app forceReinstall := by
  unfold needsInstall installedApp NeedsInstall
  simp only [Interaction.run_bind, Interaction.run_request, Interaction.run_pure, answering]
  cases answers (.installedPlist app.bundleID) with
  | none => simp
  | some plist =>
    cases forceReinstall with
    | false => simp [shouldUpdateApp, TypedApplication.withBundleID]
    | true => simp

/-- A resigning with a profile is refused if it throws. -/
theorem signingRefused_resignWith (codesignIdentity : Option CodesignIdentity)
    (profile : MobileProfile) :
    SigningRefused ((resignWith app codesignIdentity resourcePaths (some profile)).run
        (answering answers) history).2 ↔ SigningRefused history ∨
      answers (.resignApplication app.bundlePath profile codesignIdentity resourcePaths) ≠
        .ok () := by
  simp [resignWith, IsRefusal, answering]

/-- If it does not, the profile is the result. -/
theorem exists_result_resignWith (codesignIdentity : Option CodesignIdentity)
    (profile : MobileProfile) :
    (∃ signed, ((resignWith app codesignIdentity resourcePaths (some profile)).run
        (answering answers) history).1 = .ok (some signed)) ↔
      answers (.resignApplication app.bundlePath profile codesignIdentity resourcePaths) =
        .ok () := by
  simp only [resignWith, Interaction.run_bind, Interaction.run_request, Interaction.run_pure,
    answering]
  cases answers (.resignApplication app.bundlePath profile codesignIdentity resourcePaths) with
  | error e => simp [Except.map]
  | ok u => simp [Except.map]

/-- Signing with the best match for an identity is refused if that cannot be done. -/
theorem signingRefused_bestMatch (identity : CodesignIdentity)
    (codesignIdentity : Option CodesignIdentity) :
    SigningRefused ((bestMatchProfileWithIdentity device app identity >>=
        resignWith app codesignIdentity resourcePaths).run (answering answers) history).2 ↔
      SigningRefused history ∨
        ¬ CanSignWith answers device app resourcePaths identity codesignIdentity := by
  unfold bestMatchProfileWithIdentity CanSignWith
  simp only [Interaction.run_bind, Interaction.run_request, Interaction.run_pure, answering]
  cases answers (.rankedProfiles identity device.uuid app.bundlePath) with
  | nil => simp [resignWith, IsRefusal]
  | cons profile profiles => simp [signingRefused_resignWith, IsRefusal]

/-- If it can, a profile is the result. -/
theorem exists_result_bestMatch (identity : CodesignIdentity)
    (codesignIdentity : Option CodesignIdentity) :
    (∃ signed, ((bestMatchProfileWithIdentity device app identity >>=
        resignWith app codesignIdentity resourcePaths).run (answering answers) history).1 =
          .ok (some signed)) ↔
      CanSignWith answers device app resourcePaths identity codesignIdentity := by
  unfold bestMatchProfileWithIdentity CanSignWith
  simp only [Interaction.run_bind, Interaction.run_request, Interaction.run_pure, answering]
  cases answers (.rankedProfiles identity device.uuid app.bundlePath) with
  | nil => simp [resignWith]
  | cons profile profiles => simp [exists_result_resignWith]

/-- The selection without an identity that is given. -/
theorem selectAndResign_none : selectAndResign device app none none resourcePaths = (do
    let identity ← request (.identityForAppBundle app.bundlePath device.uuid)
    match identity with
    | none =>
        return .error (.cbx ("Unable to find appropriate codesign identity for device " ++
          device.uuid ++ " / app " ++ app.bundleID ++ " combo"))
    | some identity =>
        bestMatchProfileWithIdentity device app identity >>=
          resignWith app none resourcePaths) := by
  simp only [selectAndResign, bestMatchProfile, bind_assoc]
  refine congrArg _ (funext fun identity => ?_)
  cases identity with
  | none => rfl
  | some identity => simp only [bind_assoc, pure_bind]

/-- **Signing is refused** exactly if it cannot be done. -/
theorem signingRefused_selectAndResign (profile : Option MobileProfile)
    (codesignID : Option CodesignIdentity) :
    SigningRefused ((selectAndResign device app profile codesignID resourcePaths).run
        (answering answers) history).2 ↔
      SigningRefused history ∨ ¬ CanSign answers device app profile codesignID resourcePaths := by
  match codesignID, profile with
  | some identity, _ => exact signingRefused_bestMatch identity (some identity)
  | none, some profile => exact signingRefused_resignWith none profile
  | none, none =>
    rw [selectAndResign_none, CanSign]
    simp only [Interaction.run_bind, Interaction.run_request, answering]
    cases answers (.identityForAppBundle app.bundlePath device.uuid) with
    | none => simp [IsRefusal]
    | some identity =>
      exact (signingRefused_bestMatch identity none).trans (by simp [IsRefusal])

/-- If it can, a profile is the result. -/
theorem exists_result_selectAndResign (profile : Option MobileProfile)
    (codesignID : Option CodesignIdentity) :
    (∃ signed, ((selectAndResign device app profile codesignID resourcePaths).run
        (answering answers) history).1 = .ok (some signed)) ↔
      CanSign answers device app profile codesignID resourcePaths := by
  match codesignID, profile with
  | some identity, _ => exact exists_result_bestMatch identity (some identity)
  | none, some profile => exact exists_result_resignWith none profile
  | none, none =>
    rw [selectAndResign_none, CanSign]
    simp only [Interaction.run_bind, Interaction.run_request, answering]
    cases answers (.identityForAppBundle app.bundlePath device.uuid) with
    | none => simp
    | some identity =>
      exact (exists_result_bestMatch identity none).trans (by simp)

/-- Where signing is not refused, a run keeps the application. -/
theorem keepsInstalledApp_of_not_refused
    {run : Except NSException IOSReturnStatusCode × History PhysicalDeviceRequest.Answer}
    (h : ¬ SigningRefused run.2) : KeepsInstalledApp run :=
  fun hfails => absurd hfails.2 h

/-- Without a profile the installation fails and makes no more requests. -/
theorem run_finishInstall_of_none (env : Environment PhysicalDeviceRequest.Answer)
    {outcome : Except NSException (Option MobileProfile)}
    (h : ∀ signed, outcome ≠ .ok (some signed)) :
    ∃ code, (code = .ok .internalError ∨ ∃ e, code = .error e) ∧
      (finishInstall app outcome).run env history = (code, history) := by
  match outcome with
  | .error e => exact ⟨.error e, .inr ⟨e, rfl⟩, rfl⟩
  | .ok none => exact ⟨.ok .internalError, .inl rfl, rfl⟩
  | .ok (some signed) => exact absurd rfl (h signed)

/-- Where it is and the run fails, no request may have been sent. -/
theorem keepsInstalledApp_iff_of_failed
    {run : Except NSException IOSReturnStatusCode × History PhysicalDeviceRequest.Answer}
    (hfailed : run.1 = .ok .internalError ∨ ∃ e, run.1 = .error e)
    (hrefused : SigningRefused run.2) : KeepsInstalledApp run ↔ ¬ UninstallRequested run.2 :=
  ⟨fun h => h ⟨hfailed, hrefused⟩, fun h _ => h⟩

/-- **The end of an installation.** If it fails to sign, the request to uninstall has been sent
exactly if it could. -/
theorem keepsInstalledApp_reinstall_iff (hfresh : ¬ UninstallRequested history)
    (hclear : ¬ SigningRefused history) (profile : Option MobileProfile)
    (codesignID : Option CodesignIdentity) :
    KeepsInstalledApp ((reinstall device app profile codesignID resourcePaths).run
        (answering answers) history) ↔
      (CanUninstall answers app.bundleID →
        CanSign answers device app profile codesignID resourcePaths) := by
  unfold reinstall
  rw [Interaction.run_bind, Interaction.run_bind]
  have hafter : UninstallRequested ((uninstallApp app.bundleID).run (answering answers) history).2 ↔
      CanUninstall answers app.bundleID :=
    (uninstallRequested_uninstallApp app.bundleID).trans (or_iff_right hfresh)
  have hsilent : ¬ SigningRefused
      ((uninstallApp app.bundleID).run (answering answers) history).2 := by
    rw [signingRefused_run_iff (only_uninstallApp rfl rfl rfl rfl)]
    exact hclear
  generalize ((uninstallApp app.bundleID).run (answering answers) history).2 = after at *
  -- selecting and resigning does not uninstall, and is refused if it cannot be done
  have hrequested : UninstallRequested ((selectAndResign device app profile codesignID
      resourcePaths).run (answering answers) after).2 ↔ CanUninstall answers app.bundleID := by
    rw [uninstallRequested_run_iff (only_selectAndResign rfl (fun _ => rfl) fun _ _ => rfl)]
    exact hafter
  have hrefused : SigningRefused ((selectAndResign device app profile codesignID
      resourcePaths).run (answering answers) after).2 ↔
        ¬ CanSign answers device app profile codesignID resourcePaths :=
    (signingRefused_selectAndResign profile codesignID).trans (or_iff_right hsilent)
  have hresult : (∃ signed, ((selectAndResign device app profile codesignID resourcePaths).run
      (answering answers) after).1 = .ok (some signed)) ↔
        CanSign answers device app profile codesignID resourcePaths :=
    exists_result_selectAndResign profile codesignID
  generalize (selectAndResign device app profile codesignID resourcePaths).run
    (answering answers) after = selected at *
  obtain ⟨outcome, later⟩ := selected
  by_cases hcan : CanSign answers device app profile codesignID resourcePaths
  · -- the application is signed, and what may fail after that is not for want of a profile
    obtain ⟨signed, hsigned⟩ := hresult.mpr hcan
    obtain rfl : outcome = .ok (some signed) := hsigned
    refine iff_of_true (keepsInstalledApp_of_not_refused ?_) fun _ => hcan
    simp only [finishInstall, Interaction.run_bind, Interaction.run_pure]
    rw [signingRefused_run_iff (only_installSigned rfl rfl), hrefused]
    exact not_not_intro hcan
  · -- there is nothing to install, and the request to uninstall is behind it
    have hno : ∀ signed, outcome ≠ .ok (some signed) :=
      fun signed hsigned => hcan (hresult.mp ⟨signed, hsigned⟩)
    obtain ⟨code, hfailed, hrun⟩ := run_finishInstall_of_none (answering answers) hno
    rw [hrun, keepsInstalledApp_iff_of_failed hfailed (hrefused.mpr hcan), hrequested]
    exact ⟨fun hcannot huninstall => absurd huninstall hcannot,
      fun h huninstall => hcan (h huninstall)⟩

/-- **When an installation keeps the application it cannot replace.** On every device and Mac, for
every application and every argument: exactly if signing is possible wherever the install is needed
and the old application can be uninstalled. -/
theorem installApp_keepsInstalledApp_iff (answers : (r : PhysicalDeviceRequest) → r.Answer)
    (device : PhysicalDevice) (app : TypedApplication) (profile : Option MobileProfile)
    (codesignID : Option CodesignIdentity) (resourcePaths : List String) (forceReinstall : Bool) :
    KeepsInstalledApp ((installApp device app profile codesignID resourcePaths forceReinstall).run
        (answering answers) []) ↔
      (NeedsInstall answers app forceReinstall → CanUninstall answers app.bundleID →
        CanSign answers device app profile codesignID resourcePaths) := by
  have hneeds : ((needsInstall device app forceReinstall).run (answering answers) []).1 =
      .ok true ↔ NeedsInstall answers app forceReinstall := needsInstall_iff forceReinstall
  have hfresh : ¬ UninstallRequested
      ((needsInstall device app forceReinstall).run (answering answers) []).2 := by
    rw [uninstallRequested_run_iff (only_needsInstall rfl)]
    exact not_uninstallRequested_nil
  have hclear : ¬ SigningRefused
      ((needsInstall device app forceReinstall).run (answering answers) []).2 := by
    rw [signingRefused_run_iff (only_needsInstall rfl)]
    exact not_signingRefused_nil
  rw [installApp, Interaction.run_bind]
  generalize (needsInstall device app forceReinstall).run (answering answers) [] = first at *
  obtain ⟨needed, later⟩ := first
  by_cases hneeded : NeedsInstall answers app forceReinstall
  · obtain rfl : needed = .ok true := hneeds.mpr hneeded
    rw [imp_iff_right hneeded]
    exact keepsInstalledApp_reinstall_iff hfresh hclear profile codesignID
  · -- nothing but the lookup has been asked
    refine iff_of_true (keepsInstalledApp_of_not_refused ?_) fun h => absurd h hneeded
    match needed with
    | .error e => exact hclear
    | .ok false => exact hclear
    | .ok true => exact absurd (hneeds.mp rfl) hneeded

end

/-! ## The keychain and the profiles of the Mac -/

/-- The Mac answers from a keychain and from the profiles that are delivered, for the app directory
of an application. -/
structure SelectsFrom (validCodesigningIdentities : List CodesignIdentity)
    (nonExpiredIOSProfiles : Nat → List MobileProfile) (appDir : AppDir) (device : PhysicalDevice)
    (app : TypedApplication) (answers : (r : PhysicalDeviceRequest) → r.Answer) : Prop where
  bundleID :
    Codesigner.formatString (appDir.infoPlist.bind InfoPlist.bundleIdentifier) = app.bundleID
  identity : answers (.identityForAppBundle app.bundlePath device.uuid) =
    CodesignIdentity.identityForAppBundle (Entitlements.entitlementsWithBundlePath appDir)
      (CodesignIdentity.validIOSDeveloperIdentities validCodesigningIdentities)
      nonExpiredIOSProfiles device.uuid
  ranked : ∀ identity appEntitlements,
    Entitlements.entitlementsWithBundlePath appDir = some appEntitlements →
    ∃ labels s, run RankedProfiles.step (RankedProfiles.initial (RankedProfiles.blocks
        (nonExpiredIOSProfiles ((CodesignIdentity.validIOSDeveloperIdentities
          validCodesigningIdentities).length + 1)) identity device.uuid appEntitlements)) labels =
        some s ∧ s.Finished ∧
      answers (.rankedProfiles identity device.uuid app.bundlePath) = s.result

/-- The selection of the installation is the best match for the app directory. -/
theorem bestMatchProfile_selectsFrom {validCodesigningIdentities : List CodesignIdentity}
    {nonExpiredIOSProfiles : Nat → List MobileProfile} {appDir : AppDir} {device : PhysicalDevice}
    {app : TypedApplication} {answers : (r : PhysicalDeviceRequest) → r.Answer}
    {history : History PhysicalDeviceRequest.Answer}
    (h : SelectsFrom validCodesigningIdentities nonExpiredIOSProfiles appDir device app answers) :
    BestMatchProfile validCodesigningIdentities nonExpiredIOSProfiles appDir device.uuid
      ((bestMatchProfile device app).run (answering answers) history).1 := by
  simp only [bestMatchProfile, Interaction.run_bind, Interaction.run_request, answering]
  have hidentity := h.identity
  cases hfound : answers (.identityForAppBundle app.bundlePath device.uuid) with
  | none =>
    rw [hfound] at hidentity
    rw [← h.bundleID]
    exact .noIdentity hidentity.symm
  | some identity =>
    rw [hfound] at hidentity
    -- an identity is found for an application with entitlements only
    obtain ⟨appEntitlements, hents⟩ : ∃ appEntitlements,
        Entitlements.entitlementsWithBundlePath appDir = some appEntitlements := by
      cases hents : Entitlements.entitlementsWithBundlePath appDir with
      | none =>
        rw [hents] at hidentity
        cases hidentity
      | some appEntitlements => exact ⟨appEntitlements, rfl⟩
    obtain ⟨labels, s, hrun, hdone, hranked⟩ := h.ranked identity appEntitlements hents
    show BestMatchProfile validCodesigningIdentities nonExpiredIOSProfiles appDir device.uuid
      (.ok (answers (.rankedProfiles identity device.uuid app.bundlePath)).head?)
    rw [hranked]
    exact .ranked hidentity.symm hents hrun hdone

/-! ### An empty keychain -/

/-- An application, version `2.0`, of which version `1.0` is installed. -/
def updatedApp : TypedApplication :=
  { TypedApplication.withBundleID "com.my.app" ⟨some "My", some "2.0", some "2", none, none, none⟩
      ["arm64"] with path := some "/Payload/My.app" }

/-- A phone. -/
def samplePhone : PhysicalDevice :=
  ⟨"e60ef9ae", "arm64"⟩

/-- A device that does as it is asked, and a Mac with profiles and an empty keychain. -/
def emptyKeychain : (r : PhysicalDeviceRequest) → r.Answer
  | .installedPlist _ => some ⟨some "My", some "1.0", some "1", none, none, none⟩
  | .installedApplication _ => ⟨true, false⟩
  | .processID _ => 0
  | .killApplication _ => true
  | .uninstallApplication _ => true
  | .identityForAppBundle _ deviceId =>
      CodesignIdentity.identityForAppBundle (Entitlements.entitlementsWithBundlePath debugAppDir)
        (CodesignIdentity.validIOSDeveloperIdentities []) (fun _ => RankedProfiles.sampleProfiles)
        deviceId
  | .rankedProfiles .. => []
  | .resignApplication .. => .ok ()
  | .installProvisioningProfile _ => true
  | .installApplication _ => true

/-- **An application is lost.** Without a codesign identity the install throws, after the device has
uninstalled the version it had. -/
theorem not_keepsInstalledApp_emptyKeychain :
    ((installApp samplePhone updatedApp none none [] false).run
        (answering emptyKeychain) []).1 =
      .error (.cbx ("Unable to find appropriate codesign identity for device e60ef9ae" ++
        " / app com.my.app combo")) ∧
    ⟨.uninstallApplication "com.my.app", true⟩ ∈
      ((installApp samplePhone updatedApp none none [] false).run
        (answering emptyKeychain) []).2 ∧
    ¬ KeepsInstalledApp ((installApp samplePhone updatedApp none none [] false).run
        (answering emptyKeychain) []) := by
  have hrun : (installApp samplePhone updatedApp none none [] false).run
      (answering emptyKeychain) [] =
        (.error (.cbx ("Unable to find appropriate codesign identity for device " ++ "e60ef9ae" ++
          " / app " ++ "com.my.app" ++ " combo")),
        [⟨.installedPlist "com.my.app", some ⟨some "My", some "1.0", some "1", none, none, none⟩⟩,
          ⟨.installedApplication "com.my.app", ⟨true, false⟩⟩, ⟨.processID "com.my.app", (0 : Int)⟩,
          ⟨.uninstallApplication "com.my.app", true⟩,
          ⟨.identityForAppBundle "/Payload/My.app" "e60ef9ae", none⟩]) := rfl
  rw [hrun]
  refine ⟨by decide, by simp, fun h => h ⟨.inr ⟨_, rfl⟩, ?_⟩ ?_⟩
  · exact ⟨⟨.identityForAppBundle "/Payload/My.app" "e60ef9ae", none⟩, by simp, rfl⟩
  · exact ⟨⟨.uninstallApplication "com.my.app", true⟩, by simp, rfl⟩

end PhysicalDevice

end IOSDeviceManager
