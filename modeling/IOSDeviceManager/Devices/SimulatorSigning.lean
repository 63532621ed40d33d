import IOSDeviceManager.Devices.SimulatorObservations
import IOSDeviceManager.Resigning.ApplicationSigning

/-! # Signing for a simulator

`installApp:` of a simulator asks the codesigner for a signature with neither a profile nor an
identity. What becomes of that depends on the type of the application, which says nothing of the
device: without an Intel architecture the profile is missed. -/

namespace IOSDeviceManager

open General Codesigner

namespace Simulator

variable {env : Environment SimulatorRequest.Answer} {history : History SimulatorRequest.Answer}
  {udid : String} {app : AppBundle} {resourcePaths : List String} {forceReinstall : Bool}

/-! ## Where an exception comes from -/

/-- The exception is the answer to a request. -/
def Raised (env : Environment SimulatorRequest.Answer) (e : NSException) : Prop :=
  ∃ history,
    (∃ path, env history (.applicationWithBundlePath path) = .error e) ∨
    (∃ installedApp newApp, env history (.appVersionIsDifferent installedApp newApp) = .error e) ∨
    ∃ app resourcePaths, env history (.resignApplication app resourcePaths) = .error e

/-- An exception of the lookup is that of reading the bundle. -/
theorem raised_of_installedApp {bundleID : String} {e : NSException}
    (h : ((installedApp udid bundleID).run env history).1 = .error e) : Raised env e := by
  simp only [installedApp, Interaction.run_bind, Interaction.run_request] at h
  split at h
  · cases h
  · exact ⟨_, .inl ⟨_, h⟩⟩

/-- Up to the uninstalling an exception is that of the lookup or of the comparison. -/
theorem raised_of_installUntilUninstall {e : NSException}
    (h : ((installUntilUninstall udid app forceReinstall).run env history).1 = .error e) :
    Raised env e := by
  simp only [installUntilUninstall, Interaction.run_bind] at h
  split at h
  · simp only [Interaction.run_bind] at h
    split at h
    · rename_i e' hlookup
      obtain rfl := Except.error.inj h
      exact raised_of_installedApp hlookup
    · cases h
    · split at h
      · cases h
      · simp only [Interaction.run_bind, shouldUpdateApp, Interaction.run_request] at h
        split at h
        · rename_i e' hversion
          obtain rfl := Except.error.inj h
          exact ⟨_, .inr (.inl ⟨_, _, hversion⟩)⟩
        · cases h
  · cases h

/-- **The exceptions of `installApp:`** are those that its requests are answered with. -/
theorem raised_of_installApp {e : NSException}
    (h : ((installApp udid app resourcePaths forceReinstall).run env history).1 = .error e) :
    Raised env e := by
  simp only [installApp, Interaction.run_bind] at h
  split at h
  · rename_i e' hfirst
    obtain rfl := Except.error.inj h
    exact raised_of_installUntilUninstall hfirst
  · cases h
  · simp only [reinstall, Interaction.run_bind, Interaction.run_request] at h
    split at h
    · rename_i e' hsigned
      obtain rfl := Except.error.inj h
      exact ⟨_, .inr (.inr ⟨_, _, hsigned⟩)⟩
    · simp only [Interaction.run_bind, Interaction.run_pure] at h
      cases h

/-! ## Signing ad hoc -/

/-- The codesigner answers for an application of the type, with no profile and no identity, and
nothing else is answered with one of its exceptions for want of a profile. -/
structure AnswersForType (host : ApplicationHost) (type : ApplicationType)
    (env : Environment SimulatorRequest.Answer) : Prop where
  signing : ∀ history app resourcePaths, env history (.resignApplication app resourcePaths) =
    (resignApplicationWithProvisioningProfile host type app.path none none resourcePaths).2
  bundle : ∀ history path e, env history (.applicationWithBundlePath path) = .error e →
    ¬ ConcernsProfile e
  version : ∀ history installedApp newApp e,
    env history (.appVersionIsDifferent installedApp newApp) = .error e → ¬ ConcernsProfile e

/-- The methods of the codesigner that an exchange enters. -/
def signingCalls (host : ApplicationHost) (type : ApplicationType) :
    Sigma SimulatorRequest.Answer → List SigningCall
  | ⟨.resignApplication app resourcePaths, _⟩ =>
      (resignApplicationWithProvisioningProfile host type app.path none none resourcePaths).1
  | _ => []

/-- A run of `installApp:` signs ad hoc: it does not enter `resignAppDir:` without a profile, and no
exception is thrown for want of one. -/
structure SignsAdHoc (host : ApplicationHost) (type : ApplicationType)
    (run : Except NSException IOSReturnStatusCode × History SimulatorRequest.Answer) : Prop where
  entered : ∀ exchange ∈ run.2, ∀ call ∈ signingCalls host type exchange,
    ∃ appDir, call = .adHocSign appDir
  thrown : ∀ e, run.1 = .error e → ¬ ConcernsProfile e

/-- Every install of an application with the architectures signs ad hoc: on every simulator, with
every resource, forced or not, wherever the bundle is read from. -/
def AlwaysSignsAdHoc (architectures : List String) : Prop :=
  ∀ (host : ApplicationHost) (pathToBundle : String) (app : TypedApplication),
    TypedApplication.withBundlePath host pathToBundle = .ok (some app) →
    app.arches = architectures →
    ∀ env, AnswersForType host app.type env →
    ∀ (udid : String) (resourcePaths : List String) (forceReinstall : Bool),
      SignsAdHoc host app.type ((installApp udid ⟨app.bundleID, app.bundlePath⟩ resourcePaths
        forceReinstall).run env [])

/-- A simulator application is signed ad hoc. -/
theorem signsAdHoc_of_simulator {host : ApplicationHost}
    (henv : AnswersForType host .simulator env) :
    SignsAdHoc host .simulator
      ((installApp udid app resourcePaths forceReinstall).run env history) := by
  constructor
  · intro exchange _ call hcall
    unfold signingCalls at hcall
    split at hcall
    · obtain rfl := List.mem_singleton.mp hcall
      exact ⟨_, rfl⟩
    · cases hcall
  · -- only the answer of the codesigner could be about a profile
    intro e hthrown
    obtain ⟨later, ⟨path, hraised⟩ | ⟨old, new, hraised⟩ | ⟨signed, resources, hraised⟩⟩ :=
      raised_of_installApp hthrown
    · exact henv.bundle later path e hraised
    · exact henv.version later old new e hraised
    · rw [henv.signing] at hraised
      exact not_concernsProfile_adHocSign hraised

/-! ## An application without an Intel architecture -/

/-- An app at `/Payload/My.app` with an executable. -/
def appFiles : FileSystem :=
  (ResourceInjection.sampleFiles.write ["Payload", "My.app"] "Info.plist" [1]
    (by decide +kernel) (by decide +kernel)).write ["Payload", "My.app"] "My" [2]
    (by decide +kernel) (by decide +kernel)

/-- Its `Info.plist`. -/
def samplePlist : ApplicationPlist :=
  ⟨some "My", some "1.0", some "1", none, none, none⟩

/-- A host with this app, whose executable has the architectures. -/
def hostWithArchitectures (architectures : List String) : ApplicationHost where
  toHost := { ResignAllCommand.oneProfileHost with
    item := fun path => if appFiles.Exists (Path.ofText path) then some (.file path) else none
    currentDirectoryPath := "/work" }
  fs := appFiles
  item_fs path := by simp
  exists_current := by decide +kernel
  copyError _ _ := ""
  infoPlist _ := some samplePlist
  architectures _ := some architectures
  bundleIdentifier _ := some "com.my.app"
  entitlements _ := none
  appDir _ := otherTeamApp
  codesign _ := none
  deleteDSStore _ := none

/-- The app is accepted. -/
theorem withBundlePath_hostWithArchitectures (architectures : List String) :
    TypedApplication.withBundlePath (hostWithArchitectures architectures) "/Payload/My.app" =
      .ok (some (.located (hostWithArchitectures architectures) "/Payload/My.app"
        (.withBundleID "com.my.app" samplePlist architectures))) := by
  have hexists : ∀ path, (hostWithArchitectures architectures).fileExistsAtPath (some path) =
      decide (appFiles.Exists (Path.ofText path)) := by
    intro path
    show (if appFiles.Exists (Path.ofText path) then some (DirectoryTree.file path)
      else none).isSome = _
    split <;> simp [*]
  have hexpand : (hostWithArchitectures architectures).expandPath "/Payload/My.app" =
      "/Payload/My.app" := by
    show FileUtils.expandPath "/work" id "/Payload/My.app" = _
    decide +kernel
  unfold TypedApplication.withBundlePath
  rw [hexpand]
  simp only [hexists]
  rfl

/-- A booted simulator without the application, for which the codesigner answers. -/
def signingEnvironment (host : ApplicationHost) (type : ApplicationType) :
    Environment SimulatorRequest.Answer := fun history r =>
  match r with
  | .resignApplication app resourcePaths =>
      (resignApplicationWithProvisioningProfile host type app.path none none resourcePaths).2
  | r => SimulatorOperation.steadyEnvironment history r

theorem answersForType_signingEnvironment (host : ApplicationHost) (type : ApplicationType) :
    AnswersForType host type (signingEnvironment host type) where
  signing _ _ _ := rfl
  bundle _ _ _ h := by cases h
  version _ _ _ _ h := by cases h

/-- An application of another type goes to the codesigner without a profile. -/
theorem thrown_of_otherType {type : ApplicationType} (htype : type ≠ .simulator)
    (architectures : List String) :
    ((installApp "A" app [] false).run
        (signingEnvironment (hostWithArchitectures architectures) type) []).1 =
      .error (identityError none) := by
  have hfirst : (installUntilUninstall "A" app false).run
      (signingEnvironment (hostWithArchitectures architectures) type) [] =
        (.ok none, [⟨.state "A", .booted⟩, ⟨.installedApplication "A" app.bundleID, none⟩]) := rfl
  have hsigned : ∀ history, signingEnvironment (hostWithArchitectures architectures) type history
      (.resignApplication app []) = .error (identityError none) := by
    intro history
    show (resignApplicationWithProvisioningProfile (hostWithArchitectures architectures) type
      app.path none none []).2 = _
    rw [resignApplicationWithProvisioningProfile, if_neg htype]
    show (resignAppDir developerEnvironment otherTeamApp .nil none).map (fun _ => ()) = _
    rw [resignAppDir_nil]
    rfl
  -- whatever comes of the uninstalling, the codesigner is asked next
  rw [installApp, Interaction.run_bind, hfirst]
  simp only [reinstall, Interaction.run_bind, Interaction.run_request, hsigned]
  rfl

/-- **Without an Intel architecture** an application on a simulator takes the path of a profile. -/
theorem not_alwaysSignsAdHoc {architectures : List String}
    (htype : TypedApplication.typeOf architectures ≠ .simulator) :
    ¬ AlwaysSignsAdHoc architectures := by
  intro h
  have hadHoc := h (hostWithArchitectures architectures) "/Payload/My.app" _
    (withBundlePath_hostWithArchitectures architectures) rfl _
    (answersForType_signingEnvironment _ _) "A" [] false
  exact hadHoc.thrown _ (thrown_of_otherType htype architectures) (.inr (.inr ⟨none, rfl⟩))

/-- **When an install on a simulator signs ad hoc.** Exactly if the architectures of the application
contain one of those of Intel. -/
theorem alwaysSignsAdHoc_iff (architectures : List String) :
    AlwaysSignsAdHoc architectures ↔ "x86_64" ∈ architectures ∨ "i386" ∈ architectures := by
  rw [← TypedApplication.typeOf_eq_simulator_iff]
  constructor
  · intro h
    by_contra htype
    exact not_alwaysSignsAdHoc htype h
  · intro htype host pathToBundle app happ harches env henv udid resourcePaths forceReinstall
    -- the codesigner sees the type only, and that is the one of the architectures
    have hsimulator : app.type = .simulator := by
      rw [TypedApplication.type_of_withBundlePath happ, harches, htype]
    rw [hsimulator] at henv ⊢
    exact signsAdHoc_of_simulator henv

/-- **A build for Apple silicon.** An app for `arm64` alone, which is what a simulator there runs,
is sent to the codesigner with a `nil` profile, and an exception for want of an identity is
thrown. -/
theorem not_alwaysSignsAdHoc_arm64 :
    TypedApplication.typeOf ["arm64"] = .physicalDevice ∧
      ((installApp "A" ⟨"com.my.app", "/Payload/My.app"⟩ [] false).run
        (signingEnvironment (hostWithArchitectures ["arm64"]) .physicalDevice) []).1 =
          .error (.cbx "Unable to find valid codesign identity from profile (null)") ∧
      ¬ AlwaysSignsAdHoc ["arm64"] :=
  ⟨by decide, thrown_of_otherType (by decide) _, not_alwaysSignsAdHoc (by decide)⟩

end Simulator

end IOSDeviceManager
