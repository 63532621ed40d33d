import IOSDeviceManager.Devices.Installation
import IOSDeviceManager.Devices.SimulatorSigning
import IOSDeviceManager.Devices.UninstallOrder

/-! # The resources of an installation

What `installApp:` of a simulator and of a physical device leave on the device after a success: in
both classes exactly the results of the installation. A copy of the same version is kept, with or
without the resources. -/

namespace IOSDeviceManager

open General

/-- The contents of the app directory on the Mac, and of the copy on the device. -/
structure Copies where
  bundle : BundleContents
  installed : Option BundleContents

namespace Installation

variable (i : Installation)

/-- The application as a simulator is asked for it. -/
def appBundle : AppBundle :=
  ⟨i.app.bundleID, i.app.bundlePath⟩

/-- The answer of a codesigner that injects the resources and signs. -/
def signingAnswer : Except NSException Unit :=
  (ResourceInjection.injectResources i.host i.appDir i.resourcePaths i.host.fs).map fun _ => ()

theorem signingAnswer_eq_ok_iff : i.signingAnswer = .ok () ↔ i.Injects := by
  unfold signingAnswer Injects
  cases ResourceInjection.injectResources i.host i.appDir i.resourcePaths i.host.fs with
  | ok result => exact iff_of_true rfl ⟨result, rfl⟩
  | error e =>
    refine iff_of_false nofun ?_
    rintro ⟨result, hresult⟩
    cases hresult

end Installation

/-! ## `Simulator` -/

namespace Simulator

variable {env : Environment SimulatorRequest.Answer} {history : History SimulatorRequest.Answer}
  {udid : String} {signed : BundleContents} {copies : Copies} {i : Installation}

/-- How the copies change with the exchanges of an installation, where a signing leaves `signed`. -/
def observeCopies (signed : BundleContents) (copies : Copies) :
    Sigma SimulatorRequest.Answer → Copies
  | ⟨.resignApplication .., .ok ()⟩ => { copies with bundle := signed }
  | ⟨.uninstallApplication .., true⟩ => { copies with installed := none }
  | ⟨.installApplication .., .installed⟩ => { copies with installed := some copies.bundle }
  | _ => copies

/-- The monitor that follows the copies. -/
def copiesMonitor (signed : BundleContents) : Monitor SimulatorRequest.Answer Copies where
  observe := observeCopies signed
  Allows _ _ := True

/-- The request leaves the copies alone. -/
def LeavesCopies : SimulatorRequest → Prop
  | .resignApplication .. | .uninstallApplication .. | .installApplication .. => False
  | _ => True

/-- The simulator has the copy of the installation, which can be read, and the codesigner signs only
what the resources were injected into. -/
structure Carries (i : Installation) (udid : String)
    (env : Environment SimulatorRequest.Answer) : Prop where
  lookup : ∀ history,
    (env history (.installedApplication udid i.app.bundleID)).isSome = i.installed.isSome
  bundle : ∀ history path, ∃ app, env history (.applicationWithBundlePath path) = .ok (some app)
  version : ∀ history app contents, i.installed = some contents →
    env history (.appVersionIsDifferent app i.appBundle) =
      AppUtils.appVersionIsDifferent (i.plistOf contents) i.app.infoPlist
  signs : ∀ history,
    env history (.resignApplication i.appBundle i.resourcePaths) = .ok () → i.Injects

/-- A simulator has the copy after an install that succeeds. -/
def InstalledAfter (i : Installation) (after : Option BundleContents) : Prop :=
  ∃ udid env signed, Carries i udid env ∧ i.IsSigned signed ∧
    ((installApp udid i.appBundle i.resourcePaths i.forceReinstall).run env []).1 =
      .ok .everythingOkay ∧
    after = ((copiesMonitor signed).stateAfter ⟨i.bundle, i.installed⟩
      ((installApp udid i.appBundle i.resourcePaths i.forceReinstall).run env []).2).installed

/-! ### The parts of a run -/

/-- Exchanges that leave the copies alone do not change them. -/
theorem stateAfter_eq_self {later : History SimulatorRequest.Answer}
    (h : ∀ exchange ∈ later, LeavesCopies exchange.1) :
    (copiesMonitor signed).stateAfter copies later = copies := by
  induction later with
  | nil => rfl
  | cons exchange later ih =>
    obtain ⟨hexchange, hlater⟩ := List.forall_mem_cons.mp h
    have hobserve : observeCopies signed copies exchange = copies := by
      unfold observeCopies
      split
      · exact hexchange.elim
      · exact hexchange.elim
      · exact hexchange.elim
      · rfl
    show (copiesMonitor signed).stateAfter (observeCopies signed copies exchange) later = copies
    rw [hobserve, ih hlater]

/-- A simulator is booted without them. -/
theorem only_boot : (Monitor.only LeavesCopies).wp (boot udid) (fun _ _ => True) ⟨⟩ := by
  have hperform :
      (Monitor.only LeavesCopies).wp (performBoot udid) (fun _ _ => True) ⟨⟩ := by
    simp only [performBoot, Monitor.wp_bind, Monitor.wp_request]
    refine ⟨trivial, fun success => ?_⟩
    cases success with
    | false => trivial
    | true => exact ⟨trivial, fun _ => trivial⟩
  have hresolved : ∀ resolved : Bool, (Monitor.only LeavesCopies).wp
      (if resolved then performBoot udid else return false) (fun _ _ => True) ⟨⟩ := by
    intro resolved
    cases resolved with
    | false => trivial
    | true => exact hperform
  rw [boot, Monitor.wp_bind]
  refine ⟨trivial, fun currentSimulatorState => ?_⟩
  cases currentSimulatorState with
  | booted | unknown | dfu | recovery | restoreOS => trivial
  | booting => exact ⟨trivial, fun _ => trivial⟩
  | shuttingDown => exact ⟨trivial, hresolved⟩
  | creating =>
    refine ⟨trivial, fun resolved => ?_⟩
    cases resolved with
    | true => trivial
    | false => exact ⟨trivial, hresolved⟩
  | shutdown => exact hperform

/-- So is it found out whether the application is to be installed. -/
theorem only_installUntilUninstall {app : AppBundle} {forceReinstall : Bool} :
    (Monitor.only LeavesCopies).wp (installUntilUninstall udid app forceReinstall)
      (fun _ _ => True) ⟨⟩ := by
  rw [installUntilUninstall, Monitor.wp_bind]
  refine only_boot.mono fun booted _ _ => ?_
  cases booted with
  | false => trivial
  | true =>
    simp only [if_true, installedApp, Monitor.wp_bind, Monitor.wp_request]
    refine ⟨trivial, fun path => ?_⟩
    cases path with
    | none => trivial
    | some path =>
      refine ⟨trivial, fun installedApp => ?_⟩
      match installedApp with
      | .error e => trivial
      | .ok none => trivial
      | .ok (some installedApp) =>
        cases forceReinstall with
        | true => trivial
        | false =>
          refine ⟨trivial, fun needsToInstall => ?_⟩
          cases needsToInstall <;> trivial

/-- The copy on the simulator is found if there is one. -/
theorem exists_installedApp (h : Carries i udid env) (history : History SimulatorRequest.Answer) :
    ∃ found, ((installedApp udid i.app.bundleID).run env history).1 = .ok found ∧
      found.isSome = i.installed.isSome := by
  have hlookup := h.lookup history
  simp only [installedApp, Interaction.run_bind, Interaction.run_request]
  split
  · rename_i hpath
    rw [hpath] at hlookup
    exact ⟨none, rfl, hlookup⟩
  · rename_i path hpath
    rw [hpath] at hlookup
    obtain ⟨app, happ⟩ := h.bundle (history ++ [⟨.installedApplication udid i.app.bundleID,
      env history (.installedApplication udid i.app.bundleID)⟩]) path
    exact ⟨some app, happ, hlookup⟩

/-- On a booted simulator the decision is that of the installation. -/
theorem result_installUntilUninstall (h : Carries i udid env)
    (hbooted : ((boot udid).run env history).1 = true) :
    ((installUntilUninstall udid i.appBundle i.forceReinstall).run env history).1 =
      i.decision.map fun needed => if needed then none else some .everythingOkay := by
  obtain ⟨found, hfound, hsome⟩ := exists_installedApp h ((boot udid).run env history).2
  have hlookup : (installedApp udid i.appBundle.bundleID).run env ((boot udid).run env history).2 =
      (.ok found, ((installedApp udid i.appBundle.bundleID).run env
        ((boot udid).run env history).2).2) := Prod.ext hfound rfl
  unfold installUntilUninstall Installation.decision
  rw [Interaction.run_bind, hbooted, if_pos rfl, Interaction.run_bind, hlookup]
  have hversion := h.version
  match hinstalled : i.installed, found, hsome with
  | none, none, _ => rfl
  | some contents, some app, _ =>
    cases i.forceReinstall with
    | true => rfl
    | false =>
      simp only [shouldUpdateApp, Bool.false_eq_true, if_false, Interaction.run_bind,
        Interaction.run_request, hversion _ app contents hinstalled]
      cases AppUtils.appVersionIsDifferent (i.plistOf contents) i.app.infoPlist <;> rfl

/-- The attempts to install put the copy of the Mac on the device, if one succeeds. -/
theorem copies_installAttempts (path : String) (attempts : Nat) :
    (copiesMonitor signed).wp (installAttempts udid path attempts)
      (fun success after => success = true → after.installed = some copies.bundle) copies := by
  induction attempts with
  | zero =>
    intro hsuccess
    cases hsuccess
  | succ attempts ih =>
    rw [installAttempts, Monitor.wp_bind]
    refine ⟨trivial, fun attempt => ?_⟩
    cases attempt with
    | installed => exact fun _ => rfl
    | notAtThisTime => exact ih
    | failed =>
      intro hsuccess
      cases hsuccess

/-- A success of the reinstalling puts a signed copy on the device. -/
theorem copies_reinstall (app : AppBundle) (resourcePaths : List String) :
    (copiesMonitor signed).wp (reinstall udid app resourcePaths)
      (fun result after => result = .ok .everythingOkay → after.installed = some signed)
      copies := by
  rw [reinstall, Monitor.wp_bind]
  -- the signing overwrites the contents, so that it does not matter what the uninstalling did
  refine Monitor.wp_of_forall _ (fun _ _ => trivial) fun _ later => ?_
  rw [Monitor.wp_bind, Monitor.wp_request]
  refine ⟨trivial, fun resigned => ?_⟩
  cases resigned with
  | error e =>
    intro hresult
    cases hresult
  | ok u =>
    refine (Monitor.wp_bind (installAttempts udid app.path (tries - 1)) _ _).mpr ?_
    refine (copies_installAttempts app.path (tries - 1)).mono fun success after hinstalled => ?_
    intro hresult
    cases success with
    | true => exact hinstalled rfl
    | false => cases hresult

/-- So it is after a run. -/
theorem installed_of_reinstall (signed : BundleContents) (copies : Copies) {app : AppBundle}
    {resourcePaths : List String}
    (hokay : ((reinstall udid app resourcePaths).run env history).1 = .ok .everythingOkay) :
    ((copiesMonitor signed).stateAfter copies
      ((reinstall udid app resourcePaths).run env history).2).installed = some signed :=
  Monitor.post_of_wp (copies_reinstall app resourcePaths) env hokay

/-- It has signed what the resources were injected into. -/
theorem injects_of_reinstall (h : Carries i udid env)
    (hresult : ((reinstall udid i.appBundle i.resourcePaths).run env history).1 =
      .ok .everythingOkay) : i.Injects := by
  simp only [reinstall, Interaction.run_bind, Interaction.run_request] at hresult
  split at hresult
  · cases hresult
  · rename_i hsigned
    exact h.signs _ hsigned

/-- Up to the uninstalling the copies do not change. -/
theorem stateAfter_installUntilUninstall (app : AppBundle) (forceReinstall : Bool) :
    (copiesMonitor signed).stateAfter copies
      ((installUntilUninstall udid app forceReinstall).run env []).2 = copies := by
  have honly : (Monitor.only LeavesCopies).wp (installUntilUninstall udid app forceReinstall)
      (fun _ _ => True) ⟨⟩ := only_installUntilUninstall
  obtain ⟨later, hlater, hleaves⟩ := Monitor.exists_later_of_wp_only honly env []
  rw [hlater]
  exact stateAfter_eq_self hleaves

/-- Without a boot there is no success. -/
theorem result_of_not_booted {app : AppBundle} {forceReinstall : Bool}
    (h : ((boot udid).run env history).1 = false) :
    ((installUntilUninstall udid app forceReinstall).run env history).1 =
      .ok (some .genericFailure) := by
  rw [installUntilUninstall, Interaction.run_bind, h]
  rfl

/-- With a status for the first part, that is the end of the run. -/
theorem run_installApp_of_code {app : AppBundle} {resourcePaths : List String}
    {forceReinstall : Bool} {code : IOSReturnStatusCode}
    (h : ((installUntilUninstall udid app forceReinstall).run env history).1 = .ok (some code)) :
    (installApp udid app resourcePaths forceReinstall).run env history =
      (.ok code, ((installUntilUninstall udid app forceReinstall).run env history).2) := by
  rw [installApp, Interaction.run_bind, h]
  rfl

/-- Without one the application is reinstalled. -/
theorem run_installApp_of_none {app : AppBundle} {resourcePaths : List String}
    {forceReinstall : Bool}
    (h : ((installUntilUninstall udid app forceReinstall).run env history).1 = .ok none) :
    (installApp udid app resourcePaths forceReinstall).run env history =
      (reinstall udid app resourcePaths).run env
        ((installUntilUninstall udid app forceReinstall).run env history).2 := by
  rw [installApp, Interaction.run_bind, h]

/-- **A success on a simulator** leaves a result of the installation. -/
theorem result_of_installedAfter {after : Option BundleContents} (h : InstalledAfter i after) :
    i.Result after := by
  obtain ⟨udid, env, signed, hcarries, hsigned, hokay, rfl⟩ := h
  have hcopies : ∀ copies, (copiesMonitor signed).stateAfter copies ((installUntilUninstall udid
      i.appBundle i.forceReinstall).run env []).2 = copies :=
    fun copies => stateAfter_installUntilUninstall i.appBundle i.forceReinstall
  cases hbooted : ((boot udid).run env []).1 with
  | false =>
    -- a simulator that does not boot is no success
    rw [run_installApp_of_code (result_of_not_booted hbooted)] at hokay
    cases hokay
  | true =>
    have hfirst := result_installUntilUninstall hcarries hbooted
    match hdecision : i.decision with
    | .error e =>
      rw [hdecision] at hfirst
      rw [installApp, Interaction.run_bind, hfirst] at hokay
      cases hokay
    | .ok false =>
      rw [hdecision] at hfirst
      rw [run_installApp_of_code hfirst, hcopies]
      exact .kept hdecision
    | .ok true =>
      rw [hdecision] at hfirst
      rw [run_installApp_of_none hfirst] at hokay ⊢
      rw [installed_of_reinstall _ _ hokay]
      exact .replaced hdecision (injects_of_reinstall hcarries hokay) hsigned

/-! ### A simulator that does as it is asked -/

/-- A booted simulator with the copy of the installation, and a codesigner that injects the
resources. -/
def carryingEnvironment (i : Installation) : Environment SimulatorRequest.Answer :=
  fun history r =>
    match r with
    | .installedApplication .. => i.installed.map fun _ => "/installed.app"
    | .applicationWithBundlePath _ => .ok (some i.appBundle)
    | .appVersionIsDifferent .. => i.installed.elim (.ok true) fun contents =>
        AppUtils.appVersionIsDifferent (i.plistOf contents) i.app.infoPlist
    | .resignApplication .. => i.signingAnswer
    | r => SimulatorOperation.steadyEnvironment history r

theorem carries_carryingEnvironment : Carries i "A" (carryingEnvironment i) where
  lookup _ := Option.isSome_map
  bundle _ _ := ⟨i.appBundle, rfl⟩
  version _ _ contents hinstalled := by
    show i.installed.elim _ _ = _
    rw [hinstalled]
    rfl
  signs _ hsigned := i.signingAnswer_eq_ok_iff.mp hsigned

/-- Reinstalling succeeds there if the injection does. -/
theorem result_reinstall_carryingEnvironment (h : i.Injects)
    (history : History SimulatorRequest.Answer) :
    ((reinstall "A" i.appBundle i.resourcePaths).run (carryingEnvironment i) history).1 =
      .ok .everythingOkay := by
  have hsigned : ∀ history, carryingEnvironment i history
      (.resignApplication i.appBundle i.resourcePaths) = .ok () :=
    fun _ => i.signingAnswer_eq_ok_iff.mpr h
  simp only [reinstall, Interaction.run_bind, Interaction.run_request, hsigned]
  rfl

/-- **Every result** of the installation is left by a success on a simulator. -/
theorem installedAfter_of_result {after : Option BundleContents} (h : i.Result after) :
    InstalledAfter i after := by
  have hfirst : ((installUntilUninstall "A" i.appBundle i.forceReinstall).run
      (carryingEnvironment i) []).1 =
        i.decision.map fun needed => if needed then none else some .everythingOkay :=
    result_installUntilUninstall carries_carryingEnvironment rfl
  cases h with
  | kept hdecision =>
    rw [hdecision] at hfirst
    refine ⟨"A", carryingEnvironment i, i.injected, carries_carryingEnvironment,
      Installation.isSigned_injected, ?_, ?_⟩
    · rw [run_installApp_of_code hfirst]
    · rw [run_installApp_of_code hfirst, stateAfter_installUntilUninstall]
  | replaced hdecision hinjects hsigned =>
    rw [hdecision] at hfirst
    rename_i contents
    have hokay := result_reinstall_carryingEnvironment hinjects ((installUntilUninstall "A"
      i.appBundle i.forceReinstall).run (carryingEnvironment i) []).2
    refine ⟨"A", carryingEnvironment i, contents, carries_carryingEnvironment, hsigned, ?_, ?_⟩
    · rw [run_installApp_of_none hfirst]
      exact hokay
    · rw [run_installApp_of_none hfirst]
      exact (installed_of_reinstall _ _ hokay).symm

/-- **What a success on a simulator leaves** are the results of the installation. -/
theorem installedAfter_iff {after : Option BundleContents} :
    InstalledAfter i after ↔ i.Result after :=
  ⟨result_of_installedAfter, installedAfter_of_result⟩

end Simulator

/-! ## `PhysicalDevice` -/

namespace PhysicalDevice

variable {env : Environment PhysicalDeviceRequest.Answer}
  {history : History PhysicalDeviceRequest.Answer} {signed : BundleContents} {copies : Copies}
  {i : Installation} {device : PhysicalDevice} {app : TypedApplication}
  {resourcePaths : List String}

/-- How the copies change with the exchanges of an installation, where a signing leaves `signed`. -/
def observeCopies (signed : BundleContents) (copies : Copies) :
    Sigma PhysicalDeviceRequest.Answer → Copies
  | ⟨.resignApplication .., .ok ()⟩ => { copies with bundle := signed }
  | ⟨.uninstallApplication _, true⟩ => { copies with installed := none }
  | ⟨.installApplication _, true⟩ => { copies with installed := some copies.bundle }
  | _ => copies

/-- The monitor that follows the copies. -/
def copiesMonitor (signed : BundleContents) : Monitor PhysicalDeviceRequest.Answer Copies where
  observe := observeCopies signed
  Allows _ _ := True

/-- The device has the copy of the installation, and the codesigner signs only what the resources
were injected into. -/
structure Carries (i : Installation) (env : Environment PhysicalDeviceRequest.Answer) : Prop where
  lookup : ∀ history, env history (.installedPlist i.app.bundleID) = i.installed.map i.plistOf
  signs : ∀ history profile codesignIdentity, env history (.resignApplication i.app.bundlePath
    profile codesignIdentity i.resourcePaths) = .ok () → i.Injects

/-- A device has the copy after an install that succeeds, with whatever profile or identity. -/
def InstalledAfter (i : Installation) (after : Option BundleContents) : Prop :=
  ∃ device profile codesignID env signed, Carries i env ∧ i.IsSigned signed ∧
    ((installApp device i.app profile codesignID i.resourcePaths i.forceReinstall).run env []).1 =
      .ok .everythingOkay ∧
    after = ((copiesMonitor signed).stateAfter ⟨i.bundle, i.installed⟩ ((installApp device i.app
      profile codesignID i.resourcePaths i.forceReinstall).run env []).2).installed

/-! ### The parts of a run -/

/-- The decision is that of the installation. -/
theorem result_needsInstall (h : Carries i env) :
    ((needsInstall device i.app i.forceReinstall).run env history).1 = i.decision := by
  unfold needsInstall installedApp Installation.decision
  simp only [Interaction.run_bind, Interaction.run_request, Interaction.run_pure, h.lookup]
  cases i.installed with
  | none => rfl
  | some contents => rfl

/-- It is made without touching the copies. -/
theorem copies_needsInstall (forceReinstall : Bool) :
    (copiesMonitor signed).wp (needsInstall device app forceReinstall)
      (fun _ after => after = copies) copies := by
  simp only [needsInstall, installedApp, Monitor.wp_bind, Monitor.wp_request, Monitor.wp_pure]
  refine ⟨trivial, fun plist => ?_⟩
  cases plist <;> rfl

/-- A resigning that succeeds leaves the signed contents. -/
theorem copies_resignWith (codesignIdentity : Option CodesignIdentity)
    (profile : Option MobileProfile) :
    (copiesMonitor signed).wp (resignWith app codesignIdentity resourcePaths profile)
      (fun outcome after => ∀ used, outcome = .ok (some used) → after.bundle = signed) copies := by
  cases profile with
  | none =>
    intro used houtcome
    cases houtcome
  | some profile =>
    refine ⟨trivial, fun resigned used houtcome => ?_⟩
    cases resigned with
    | error e => cases houtcome
    | ok u => rfl

/-- So it does after a selection. -/
theorem copies_selectAndResign (profile : Option MobileProfile)
    (codesignID : Option CodesignIdentity) :
    (copiesMonitor signed).wp (selectAndResign device app profile codesignID resourcePaths)
      (fun outcome after => ∀ used, outcome = .ok (some used) → after.bundle = signed) copies := by
  match codesignID, profile with
  | some identity, _ =>
    simp only [selectAndResign, resignApp, Monitor.wp_bind]
    exact Monitor.wp_of_forall _ (fun _ _ => trivial) fun _ _ => copies_resignWith _ _
  | none, some profile => exact copies_resignWith none (some profile)
  | none, none =>
    rw [selectAndResign_none, Monitor.wp_bind]
    refine ⟨trivial, fun identity => ?_⟩
    cases identity with
    | none =>
      intro used houtcome
      cases houtcome
    | some identity =>
      refine (Monitor.wp_bind (bestMatchProfileWithIdentity device app identity) _ _).mpr ?_
      exact Monitor.wp_of_forall _ (fun _ _ => trivial) fun _ _ => copies_resignWith _ _

/-- The end of a successful installation puts the copy of the Mac on the device. -/
theorem copies_installSigned (profile : MobileProfile) :
    (copiesMonitor signed).wp (installSigned app profile)
      (fun code after => code = .everythingOkay → after.installed = some copies.bundle) copies := by
  rw [installSigned, Monitor.wp_bind]
  refine ⟨trivial, fun installed => ?_⟩
  cases installed with
  | false =>
    intro hcode
    cases hcode
  | true =>
    refine ⟨trivial, fun installed hcode => ?_⟩
    cases installed with
    | false => cases hcode
    | true => rfl

/-- A success of the reinstalling puts a signed copy on the device. -/
theorem copies_reinstall (profile : Option MobileProfile) (codesignID : Option CodesignIdentity) :
    (copiesMonitor signed).wp (reinstall device app profile codesignID resourcePaths)
      (fun result after => result = .ok .everythingOkay → after.installed = some signed)
      copies := by
  rw [reinstall, Monitor.wp_bind]
  refine Monitor.wp_of_forall _ (fun _ _ => trivial) fun _ _ => ?_
  rw [Monitor.wp_bind]
  refine (copies_selectAndResign profile codesignID).mono fun outcome later hbundle => ?_
  match outcome with
  | .error e =>
    intro hresult
    cases hresult
  | .ok none =>
    intro hresult
    cases hresult
  | .ok (some used) =>
    rw [finishInstall, Monitor.wp_bind]
    refine (copies_installSigned used).mono fun code after hinstalled hresult => ?_
    rw [hinstalled (Except.ok.inj hresult), hbundle used rfl]

/-- So it is after a run. -/
theorem installed_of_reinstall (signed : BundleContents) (copies : Copies)
    {profile : Option MobileProfile} {codesignID : Option CodesignIdentity}
    (hokay : ((reinstall device app profile codesignID resourcePaths).run env history).1 =
      .ok .everythingOkay) :
    ((copiesMonitor signed).stateAfter copies ((reinstall device app profile codesignID
      resourcePaths).run env history).2).installed = some signed :=
  Monitor.post_of_wp (copies_reinstall profile codesignID) env hokay

/-- A resigning that succeeds has signed what the resources were injected into. -/
theorem injects_of_resignWith (h : Carries i env) {codesignIdentity : Option CodesignIdentity}
    {profile : Option MobileProfile} {used : MobileProfile}
    (hresult : ((resignWith i.app codesignIdentity i.resourcePaths profile).run env history).1 =
      .ok (some used)) : i.Injects := by
  cases profile with
  | none => cases hresult
  | some profile =>
    simp only [resignWith, Interaction.run_bind, Interaction.run_request,
      Interaction.run_pure] at hresult
    cases hsigned : env history
        (.resignApplication i.app.bundlePath profile codesignIdentity i.resourcePaths) with
    | error e =>
      rw [hsigned] at hresult
      cases hresult
    | ok u => exact h.signs _ _ _ hsigned

/-- So has one after a selection. -/
theorem injects_of_selectAndResign (h : Carries i env) {profile : Option MobileProfile}
    {codesignID : Option CodesignIdentity} {used : MobileProfile}
    (hresult : ((selectAndResign device i.app profile codesignID i.resourcePaths).run env
      history).1 = .ok (some used)) : i.Injects := by
  match codesignID, profile with
  | some identity, _ =>
    rw [selectAndResign, resignApp, Interaction.run_bind] at hresult
    exact injects_of_resignWith h hresult
  | none, some profile =>
    rw [selectAndResign] at hresult
    exact injects_of_resignWith h hresult
  | none, none =>
    rw [selectAndResign_none, Interaction.run_bind] at hresult
    split at hresult
    · cases hresult
    · rw [Interaction.run_bind] at hresult
      exact injects_of_resignWith h hresult

/-- So has a reinstalling. -/
theorem injects_of_reinstall (h : Carries i env) {profile : Option MobileProfile}
    {codesignID : Option CodesignIdentity}
    (hresult : ((reinstall device i.app profile codesignID i.resourcePaths).run env history).1 =
      .ok .everythingOkay) : i.Injects := by
  rw [reinstall, Interaction.run_bind, Interaction.run_bind] at hresult
  match houtcome : ((selectAndResign device i.app profile codesignID i.resourcePaths).run env
      ((uninstallApp i.app.bundleID).run env history).2).1 with
  | .error e =>
    rw [houtcome] at hresult
    cases hresult
  | .ok none =>
    rw [houtcome] at hresult
    cases hresult
  | .ok (some used) => exact injects_of_selectAndResign h houtcome

/-- The copies after the decision. -/
theorem stateAfter_needsInstall (forceReinstall : Bool) :
    (copiesMonitor signed).stateAfter copies
      ((needsInstall device app forceReinstall).run env []).2 = copies :=
  have hcopies : (copiesMonitor signed).wp (needsInstall device app forceReinstall)
      (fun _ after => after = copies) ((copiesMonitor signed).stateAfter copies []) :=
    copies_needsInstall forceReinstall
  Monitor.post_of_wp hcopies env

/-- The run of an installation that is not needed. -/
theorem run_installApp_of_false {profile : Option MobileProfile}
    {codesignID : Option CodesignIdentity} {forceReinstall : Bool}
    (h : ((needsInstall device app forceReinstall).run env history).1 = .ok false) :
    (installApp device app profile codesignID resourcePaths forceReinstall).run env history =
      (.ok .everythingOkay, ((needsInstall device app forceReinstall).run env history).2) := by
  rw [installApp, Interaction.run_bind, h]
  rfl

/-- The run of one that is. -/
theorem run_installApp_of_true {profile : Option MobileProfile}
    {codesignID : Option CodesignIdentity} {forceReinstall : Bool}
    (h : ((needsInstall device app forceReinstall).run env history).1 = .ok true) :
    (installApp device app profile codesignID resourcePaths forceReinstall).run env history =
      (reinstall device app profile codesignID resourcePaths).run env
        ((needsInstall device app forceReinstall).run env history).2 := by
  rw [installApp, Interaction.run_bind, h]

/-- **A success on a physical device** leaves a result of the installation. -/
theorem result_of_installedAfter {after : Option BundleContents} (h : InstalledAfter i after) :
    i.Result after := by
  obtain ⟨device, profile, codesignID, env, signed, hcarries, hsigned, hokay, rfl⟩ := h
  have hfirst : ((needsInstall device i.app i.forceReinstall).run env []).1 = i.decision :=
    result_needsInstall hcarries
  match hdecision : i.decision with
  | .error e =>
    rw [installApp, Interaction.run_bind, hfirst, hdecision] at hokay
    cases hokay
  | .ok false =>
    rw [hdecision] at hfirst
    rw [run_installApp_of_false hfirst, stateAfter_needsInstall]
    exact .kept hdecision
  | .ok true =>
    rw [hdecision] at hfirst
    rw [run_installApp_of_true hfirst] at hokay ⊢
    rw [installed_of_reinstall _ _ hokay]
    exact .replaced hdecision (injects_of_reinstall hcarries hokay) hsigned

/-! ### A device that does as it is asked -/

/-- A device with the copy of the installation, and a codesigner that injects the resources. -/
def carryingEnvironment (i : Installation) : Environment PhysicalDeviceRequest.Answer :=
  fun _ r =>
    match r with
    | .installedPlist _ => i.installed.map i.plistOf
    | .resignApplication .. => i.signingAnswer
    | r => emptyKeychain r

theorem carries_carryingEnvironment : Carries i (carryingEnvironment i) where
  lookup _ := rfl
  signs _ _ _ hsigned := i.signingAnswer_eq_ok_iff.mp hsigned

/-- With a profile, reinstalling succeeds there if the injection does. -/
theorem result_reinstall_carryingEnvironment (device : PhysicalDevice) (h : i.Injects)
    (history : History PhysicalDeviceRequest.Answer) :
    ((reinstall device i.app (some .nil) none i.resourcePaths).run (carryingEnvironment i)
      history).1 = .ok .everythingOkay := by
  have hsigned : ∀ history, carryingEnvironment i history
      (.resignApplication i.app.bundlePath .nil none i.resourcePaths) = .ok () :=
    fun _ => i.signingAnswer_eq_ok_iff.mpr h
  simp only [reinstall, selectAndResign, resignWith, Interaction.run_bind, Interaction.run_request,
    hsigned]
  rfl

/-- **Every result** of the installation is left by a success on a physical device. -/
theorem installedAfter_of_result {after : Option BundleContents} (h : i.Result after) :
    InstalledAfter i after := by
  have hfirst : ((needsInstall samplePhone i.app i.forceReinstall).run
      (carryingEnvironment i) []).1 = i.decision := result_needsInstall carries_carryingEnvironment
  cases h with
  | kept hdecision =>
    rw [hdecision] at hfirst
    refine ⟨samplePhone, some .nil, none, carryingEnvironment i, i.injected,
      carries_carryingEnvironment, Installation.isSigned_injected, ?_, ?_⟩
    · rw [run_installApp_of_false hfirst]
    · rw [run_installApp_of_false hfirst, stateAfter_needsInstall]
  | replaced hdecision hinjects hsigned =>
    rw [hdecision] at hfirst
    rename_i contents
    have hokay := result_reinstall_carryingEnvironment samplePhone hinjects
      ((needsInstall samplePhone i.app i.forceReinstall).run (carryingEnvironment i) []).2
    refine ⟨samplePhone, some .nil, none, carryingEnvironment i, contents,
      carries_carryingEnvironment, hsigned, ?_, ?_⟩
    · rw [run_installApp_of_true hfirst]
      exact hokay
    · rw [run_installApp_of_true hfirst]
      exact (installed_of_reinstall _ _ hokay).symm

/-- **What a success on a physical device leaves** are the results of the installation. -/
theorem installedAfter_iff {after : Option BundleContents} :
    InstalledAfter i after ↔ i.Result after :=
  ⟨result_of_installedAfter, installedAfter_of_result⟩

end PhysicalDevice

/-! ## Delivery -/

namespace Installation

/-- **When a success delivers what was asked for.** For every installation, on a simulator and on a
physical device: exactly if a copy that is kept for its version has the resources already, and of
resources that can be injected all of one name have the content of the last one, and one named
`Info.plist` has the version pair. -/
theorem installApp_delivers_iff (i : Installation) :
    ((∀ after, Simulator.InstalledAfter i after → i.Delivered after) ↔ i.DeliversWhen) ∧
      ((∀ after, PhysicalDevice.InstalledAfter i after → i.Delivered after) ↔
        i.DeliversWhen) := by
  rw [← delivered_of_result_iff]
  exact ⟨forall_congr' fun _ => imp_congr_left Simulator.installedAfter_iff,
    forall_congr' fun _ => imp_congr_left PhysicalDevice.installedAfter_iff⟩

/-! ### An app of the same version -/

/-- The files of an app directory with nothing but an `Info.plist`. -/
def plainCopy : BundleContents :=
  fun below => if below = ["Info.plist"] then some (.file [1]) else none

/-- The app at `/Payload/My.app`, of which the device has a copy of the same version, and a file to
inject. -/
def sameVersion : Installation where
  host := (Simulator.hostWithArchitectures ["arm64"]).toInjectionHost
  readPlist _ := Simulator.samplePlist
  app := .located (Simulator.hostWithArchitectures ["arm64"]) "/Payload/My.app"
    (.withBundleID "com.my.app" Simulator.samplePlist ["arm64"])
  infoPlist_app := by
    have hplist : Simulator.appFiles.entry (Path.ofText "/Payload/My.app" ++ ["Info.plist"]) =
        some (.file [1]) := by decide +kernel
    exact (BundleContents.infoPlist_of_file (fun _ => Simulator.samplePlist) (fun below =>
      Simulator.appFiles.entry (Path.ofText "/Payload/My.app" ++ below)) hplist).symm
  installed := some plainCopy
  resourcePaths := ["/work/a"]
  forceReinstall := false

/-- **Nothing is injected.** On a simulator and on a physical device an install that is not forced
succeeds and leaves the copy of the same version, without the resource. -/
theorem not_delivered_sameVersion :
    Simulator.InstalledAfter sameVersion (some plainCopy) ∧
      PhysicalDevice.InstalledAfter sameVersion (some plainCopy) ∧
      ¬ sameVersion.Delivered (some plainCopy) := by
  have hresult : sameVersion.Result (some plainCopy) := .kept (by decide +kernel)
  refine ⟨Simulator.installedAfter_iff.mpr hresult, PhysicalDevice.installedAfter_iff.mpr hresult,
    ?_⟩
  rintro ⟨contents, hcontents, -, hholds⟩
  obtain rfl := Option.some.inj hcontents
  have hmem : ["work", "a"] ∈ sameVersion.sources := by decide +kernel
  have hresource : plainCopy ["a"] = Simulator.appFiles.entry ["work", "a"] :=
    hholds ["work", "a"] hmem [] (by decide)
  exact absurd hresource (by decide +kernel)

end Installation

end IOSDeviceManager
