import IOSDeviceManager.Devices.SimulatorMethods

/-! # What the operations of a device bring about

Every request starts a simulator, changes a device, closes a simulator, quits `Simulator.app`, or
does none of these. An operation has a permission, and keeps within it on its own device: whatever
is answered, no request it makes concerns another device, except to close a simulator that it was
listed where that is permitted. On a physical device an operation is one request, which concerns the
device that it is sent to. -/

namespace IOSDeviceManager

open General Interaction

/-- What a request brings about. -/
inductive Effect where
  /-- Something is read, awaited, or done on the Mac. -/
  | nothing
  /-- A simulator is booted or brought to the foreground. -/
  | starts (device : Device)
  /-- The applications, the data or the settings of a device are changed. -/
  | changes (device : Device)
  /-- A simulator is shut down. -/
  | closes (udid : String)
  /-- An instance of `Simulator.app` is terminated. -/
  | quits
  deriving DecidableEq, Repr

/-- What a request of the lifecycle brings about. -/
def SimulatorRequest.effect : SimulatorRequest → Effect
  | boot udid | focus udid => .starts (.simulator udid)
  | erase udid | installApplication udid _ | uninstallApplication udid _
  | launchApplication udid _ => .changes (.simulator udid)
  | shutdown udid => .closes udid
  | terminate _ | forceTerminate _ => .quits
  | _ => .nothing

namespace DeviceOperation

/-- The device that is sent the message. -/
def device : DeviceOperation → Option Device
  | isInstalledWithError device _ | isInstalled device _ | installedApp device _
  | installApp device .. | uninstallApp device _ | launchApp device _ | killApp device _
  | simulateLocation device .. | stopSimulatingLocation device | uploadFile device ..
  | uploadXCAppDataBundle device .. | downloadXCAppDataBundle device ..
  | stageXctestConfiguration device .. | launchSimulator device | eraseSimulator device =>
      some device
  | generateXCAppDataBundle .. | killSimulatorApp => none

/-- What an operation as a whole brings about. -/
def effect : DeviceOperation → Effect
  | isInstalledWithError .. | isInstalled .. | installedApp .. | generateXCAppDataBundle .. =>
      .nothing
  | launchSimulator device => .starts device
  | killSimulatorApp => .quits
  | operation => operation.device.elim .nothing .changes

end DeviceOperation

/-- What a request of an operation brings about. -/
def MethodRequest.effect : MethodRequest → Effect
  | simulator r => r.effect
  | killApplication udid _ | overrideLocation udid .. => .changes (.simulator udid)
  | operation whole => whole.effect

/-! ## Permissions -/

/-- Which of the effects are permitted; who may close simulators may quit `Simulator.app`. -/
structure Permission where
  starts : Bool
  changes : Bool
  closes : Bool
  deriving DecidableEq, Repr

namespace Permission

/-- The effect is permitted, for the devices that are meant; a simulator may also be closed if it
was listed. -/
def Allows (permission : Permission) (meant : Device → Prop) (listed : String → Prop) :
    Effect → Prop
  | .nothing => True
  | .starts device => permission.starts = true ∧ meant device
  | .changes device => permission.changes = true ∧ meant device
  | .closes udid => permission.closes = true ∧ (meant (.simulator udid) ∨ listed udid)
  | .quits => permission.closes = true

/-- One permission includes another. -/
def includes (permission smaller : Permission) : Bool :=
  (!smaller.starts || permission.starts) && (!smaller.changes || permission.changes) &&
    (!smaller.closes || permission.closes)

variable {permission smaller : Permission} {meant meant' : Device → Prop} {listed : String → Prop}
  {effect : Effect}

/-- What is permitted stays so under a larger permission, for more devices. -/
theorem Allows.mono (h : smaller.Allows meant listed effect)
    (hincludes : permission.includes smaller = true)
    (hmeant : ∀ device, meant device → meant' device) :
    permission.Allows meant' listed effect := by
  simp only [includes, Bool.and_eq_true, Bool.or_eq_true, Bool.not_eq_true'] at hincludes
  obtain ⟨⟨hstarts, hchanges⟩, hcloses⟩ := hincludes
  cases effect with
  | nothing => trivial
  | starts device => exact ⟨hstarts.resolve_left (by simp [h.1]), hmeant device h.2⟩
  | changes device => exact ⟨hchanges.resolve_left (by simp [h.1]), hmeant device h.2⟩
  | closes udid =>
    exact ⟨hcloses.resolve_left (by simp [h.1]), h.2.imp_left (hmeant (.simulator udid))⟩
  | quits =>
    have hsmaller : smaller.closes = true := h
    exact hcloses.resolve_left (by simp [hsmaller])

end Permission

/-- The permission of an operation. -/
def DeviceOperation.permission : DeviceOperation → Permission
  | isInstalledWithError .. | installedApp .. | generateXCAppDataBundle .. => ⟨false, false, false⟩
  | isInstalled .. | launchSimulator _ => ⟨true, false, false⟩
  | installApp .. | uninstallApp .. => ⟨true, true, true⟩
  | launchApp .. | simulateLocation .. => ⟨true, true, false⟩
  | eraseSimulator _ => ⟨false, true, true⟩
  | killSimulatorApp => ⟨false, false, true⟩
  | _ => ⟨false, true, false⟩

/-! ## The lifecycle of a simulator -/

namespace Simulator

/-- A list of all simulators names these only. -/
def ListsOnly (listed : String → Prop) : Sigma SimulatorRequest.Answer → Prop
  | ⟨.allSimulators, results⟩ => ∀ udid ∈ results, listed udid
  | _ => True

/-- Whatever is answered, the program only makes requests with certain effects, where the listed
simulators are of some kind. -/
abbrev Within {α : Type} (listed : String → Prop) (allowed : Effect → Prop)
    (p : SimulatorProgram α) : Prop :=
  AsksUnder (ListsOnly listed) (fun r => allowed r.effect) p

variable {listed : String → Prop} {allowed : Effect → Prop} {udid bundleID : String}

/-- Booting and bringing to the foreground. -/
theorem within_performBoot (hstarts : allowed (.starts (.simulator udid))) :
    Within listed allowed (performBoot udid) := by
  refine .bind (asksUnder_request.mpr hstarts) fun success => ?_
  cases success with
  | false => exact asksUnder_pure _
  | true => exact asksUnder_request.mpr hstarts

/-- The attempts to install. -/
theorem within_installAttempts (hchanges : allowed (.changes (.simulator udid))) (path : String)
    (attempts : Nat) : Within listed allowed (installAttempts udid path attempts) := by
  induction attempts with
  | zero => exact asksUnder_pure _
  | succ attempts ih =>
    refine .bind (asksUnder_request.mpr hchanges) fun attempt => ?_
    cases attempt with
    | installed => exact asksUnder_pure _
    | notAtThisTime => exact ih
    | failed => exact asksUnder_pure _

section

variable (hnothing : allowed .nothing)

include hnothing

/-- `waitForSimulatorState:timeout:`. -/
theorem within_waitForSimulatorState {state : FBiOSTargetState} {timeout : Nat} :
    Within listed allowed (waitForSimulatorState udid state timeout) :=
  asksUnder_request.mpr hnothing

/-- `isInstalled:withError:`. -/
theorem within_isInstalledWithError :
    Within listed allowed (isInstalledWithError udid bundleID) :=
  .bind (asksUnder_request.mpr hnothing) fun _ => asksUnder_pure _

/-- `installedApp:`. -/
theorem within_installedApp : Within listed allowed (installedApp udid bundleID) := by
  refine .bind (asksUnder_request.mpr hnothing) fun path => ?_
  cases path with
  | none => exact asksUnder_pure _
  | some path => exact asksUnder_request.mpr hnothing

/-- `boot`. -/
theorem within_boot (hstarts : allowed (.starts (.simulator udid))) :
    Within listed allowed (boot udid) := by
  have hboot : ∀ resolved : Bool,
      Within listed allowed (if resolved then performBoot udid else return false) :=
    fun resolved => (within_performBoot hstarts).ite (asksUnder_pure _)
  refine .bind (asksUnder_request.mpr hnothing) fun state => ?_
  cases state with
  | booted => exact asksUnder_pure _
  | booting => exact within_waitForSimulatorState hnothing
  | shuttingDown => exact .bind (within_waitForSimulatorState hnothing) hboot
  | creating =>
    refine .bind (within_waitForSimulatorState hnothing) fun resolved => ?_
    cases resolved with
    | true => exact asksUnder_pure _
    | false => exact .bind (within_waitForSimulatorState hnothing) hboot
  | shutdown => exact within_performBoot hstarts
  | unknown => exact asksUnder_pure _
  | dfu => exact asksUnder_pure _
  | recovery => exact asksUnder_pure _
  | restoreOS => exact asksUnder_pure _

/-! ### Closing -/

/-- `shutdown`. -/
theorem within_shutdown (hcloses : allowed (.closes udid)) :
    Within listed allowed (shutdown udid) := by
  refine .bind (asksUnder_request.mpr hnothing) fun state => ?_
  refine (asksUnder_pure _).ite (.bind (asksUnder_request.mpr hnothing) fun state => ?_)
  exact (within_waitForSimulatorState hnothing).ite (asksUnder_request.mpr hcloses)

/-- The first loop of `killSimulatorApp`. -/
theorem within_terminateAll (hquits : allowed .quits) (applications : List Nat) :
    Within listed allowed (terminateAll applications) := by
  induction applications with
  | nil => exact asksUnder_pure _
  | cons application applications ih =>
    refine .bind (asksUnder_request.mpr hquits) fun _ => ?_
    refine .bind (asksUnder_request.mpr hnothing) fun termed => ?_
    -- forced or not, it is awaited once more
    have hrest : Within listed allowed (do
        let termed ← request (.spinUntilTerminated application)
        if termed then terminateAll applications else return false) :=
      .bind (asksUnder_request.mpr hnothing) fun _ => ih.ite (asksUnder_pure _)
    exact hrest.ite (.bind (asksUnder_request.mpr hquits) fun _ => hrest)

/-- The second loop, which closes what it goes through. -/
theorem within_shutdownAll {results : List String}
    (hcloses : ∀ udid ∈ results, allowed (.closes udid)) :
    Within listed allowed (shutdownAll results) := by
  induction results with
  | nil => exact asksUnder_pure _
  | cons udid results ih =>
    rw [List.forall_mem_cons] at hcloses
    have hrest : ∀ success : Bool, Within listed allowed
        (if success then shutdownAll results else return .genericFailure) :=
      fun _ => (ih hcloses.2).ite (asksUnder_pure _)
    refine .bind (asksUnder_request.mpr hnothing) fun found => ?_
    exact AsksUnder.ite (.bind (within_shutdown hnothing hcloses.1) hrest) (hrest false)

section

variable (hquits : allowed .quits) (hlisted : ∀ udid, listed udid → allowed (.closes udid))

include hquits hlisted

/-- `killSimulatorApp` closes the simulators that it is listed. -/
theorem within_killSimulatorApp : Within listed allowed killSimulatorApp := by
  refine .bind (asksUnder_request.mpr hnothing) fun applications => ?_
  refine .bind (within_terminateAll hnothing hquits applications) fun terminated => ?_
  refine AsksUnder.ite (.ask hnothing fun results hresults => ?_) (asksUnder_pure _)
  exact within_shutdownAll hnothing fun udid hmem => hlisted udid (hresults udid hmem)

/-- `eraseSimulator:`. -/
theorem within_eraseSimulator (hchanges : allowed (.changes (.simulator udid))) :
    Within listed allowed (eraseSimulator udid) := by
  refine .bind (within_killSimulatorApp hnothing hquits hlisted) fun _ => ?_
  refine .bind (within_waitForSimulatorState hnothing) fun resolved => ?_
  refine AsksUnder.ite ?_ (asksUnder_pure _)
  exact .bind (asksUnder_request.mpr hchanges) fun _ => asksUnder_pure _

end

/-! ### Applications -/

/-- `isInstalled:withError:`, for an application that may be `nil`. -/
theorem within_isInstalledWithErrorOf (bundleID : Option String) :
    Within listed allowed (isInstalledWithErrorOf udid bundleID) := by
  cases bundleID with
  | none => exact .bind (asksUnder_request.mpr hnothing) fun _ => asksUnder_pure _
  | some bundleID => exact within_isInstalledWithError hnothing

/-- `isInstalled:`. -/
theorem within_isInstalledOf (hstarts : allowed (.starts (.simulator udid)))
    (bundleID : Option String) : Within listed allowed (isInstalledOf udid bundleID) := by
  cases bundleID with
  | none =>
    refine .bind (within_boot hnothing hstarts) fun booted => AsksUnder.ite ?_ (asksUnder_pure _)
    exact .bind (asksUnder_request.mpr hnothing) fun _ => asksUnder_pure _
  | some bundleID =>
    refine .bind (within_boot hnothing hstarts) fun booted => AsksUnder.ite ?_ (asksUnder_pure _)
    exact .bind (within_isInstalledWithError hnothing) fun _ => asksUnder_pure _

/-- `launchSimulator:`. -/
theorem within_launchSimulator (hstarts : allowed (.starts (.simulator udid))) :
    Within listed allowed (launchSimulator udid) :=
  .bind (within_boot hnothing hstarts) fun _ => asksUnder_pure _

/-- The part of `uninstallApp:` on a booted simulator. -/
theorem within_uninstallBooted (hchanges : allowed (.changes (.simulator udid))) :
    Within listed allowed (uninstallBooted udid bundleID) := by
  refine .bind (within_isInstalledWithError hnothing) fun installed => ?_
  refine AsksUnder.ite (.bind (asksUnder_request.mpr hchanges) fun uninstalled => ?_)
    (asksUnder_pure _)
  refine AsksUnder.ite ?_ (asksUnder_pure _)
  exact .bind (within_isInstalledWithError hnothing) fun _ => asksUnder_pure _

/-- The part of `installApp:` before the uninstall. -/
theorem within_installUntilUninstall (hstarts : allowed (.starts (.simulator udid)))
    (app : AppBundle) (forceReinstall : Bool) :
    Within listed allowed (installUntilUninstall udid app forceReinstall) := by
  refine .bind (within_boot hnothing hstarts) fun booted => AsksUnder.ite ?_ (asksUnder_pure _)
  refine .bind (within_installedApp hnothing) fun installedApp => ?_
  rcases installedApp with e | _ | installedApp
  · exact asksUnder_pure _
  · exact asksUnder_pure _
  · refine (asksUnder_pure _).ite
      (.bind (asksUnder_request.mpr hnothing) fun needsToInstall => ?_)
    cases needsToInstall with
    | error e => exact asksUnder_pure _
    | ok needsToInstall => exact asksUnder_pure _

section

variable (hstarts : allowed (.starts (.simulator udid)))
  (hchanges : allowed (.changes (.simulator udid)))

include hstarts hchanges

/-- `launchApp:`. -/
theorem within_launchAppOf (bundleID : Option String) :
    Within listed allowed (launchAppOf udid bundleID) := by
  cases bundleID with
  | none => exact .bind (asksUnder_request.mpr hnothing) fun _ => asksUnder_pure _
  | some bundleID =>
    refine .bind (within_isInstalledWithError hnothing) fun installed => ?_
    refine AsksUnder.ite (.bind (within_boot hnothing hstarts) fun booted => ?_) (asksUnder_pure _)
    refine AsksUnder.ite ?_ (asksUnder_pure _)
    exact .bind (asksUnder_request.mpr hchanges) fun _ => asksUnder_pure _

variable (hquits : allowed .quits) (hlisted : ∀ udid, listed udid → allowed (.closes udid))
  (hcloses : allowed (.closes udid))

include hquits hlisted hcloses

/-- `uninstallApp:`, which closes its own simulator for a reboot. -/
theorem within_uninstallApp : Within listed allowed (uninstallApp udid bundleID) := by
  have huntil : Within listed allowed (uninstallUntilReboot udid bundleID) := by
    refine .bind (within_killSimulatorApp hnothing hquits hlisted) fun _ => ?_
    refine .bind (within_boot hnothing hstarts) fun booted => ?_
    exact (within_uninstallBooted hnothing hchanges).ite (asksUnder_pure _)
  refine .bind huntil fun code => ?_
  cases code with
  | some code => exact asksUnder_pure _
  | none =>
    refine .bind (within_shutdown hnothing hcloses) fun _ => ?_
    refine .bind (within_boot hnothing hstarts) fun _ => ?_
    exact .bind (within_isInstalledWithError hnothing) fun _ => asksUnder_pure _

/-- `uninstallApp:`, for an application that may be `nil`. -/
theorem within_uninstallAppOf (bundleID : Option String) :
    Within listed allowed (uninstallAppOf udid bundleID) := by
  cases bundleID with
  | none =>
    refine .bind (within_killSimulatorApp hnothing hquits hlisted) fun _ => ?_
    refine .bind (within_boot hnothing hstarts) fun booted => AsksUnder.ite ?_ (asksUnder_pure _)
    exact .bind (asksUnder_request.mpr hnothing) fun _ => asksUnder_pure _
  | some bundleID =>
    exact within_uninstallApp hnothing hstarts hchanges hquits hlisted hcloses

/-- `installApp:…`. -/
theorem within_installApp (app : AppBundle) (resourcePaths : List String) (forceReinstall : Bool) :
    Within listed allowed (installApp udid app resourcePaths forceReinstall) := by
  refine .bind (within_installUntilUninstall hnothing hstarts app forceReinstall)
    fun code => ?_
  rcases code with e | _ | code
  · exact asksUnder_pure _
  · refine .bind (within_uninstallApp hnothing hstarts hchanges hquits hlisted hcloses) fun _ => ?_
    refine .bind (asksUnder_request.mpr hnothing) fun resigned => ?_
    cases resigned with
    | error e => exact asksUnder_pure _
    | ok _ =>
      exact .bind (within_installAttempts hchanges app.path _) fun _ => asksUnder_pure _
  · exact asksUnder_pure _

end

end

end Simulator

/-! ## The operations -/

namespace MethodProgram

/-- A list of all simulators names these only. -/
def ListsOnly (listed : String → Prop) : Sigma MethodRequest.Answer → Prop
  | ⟨.simulator r, answer⟩ => Simulator.ListsOnly listed ⟨r, answer⟩
  | _ => True

/-- Whatever is answered, the program only makes requests with certain effects, where the listed
simulators are of some kind. -/
abbrev Within {α : Type} (listed : String → Prop) (allowed : Effect → Prop)
    (p : MethodProgram α) : Prop :=
  AsksUnder (ListsOnly listed) (fun r => allowed r.effect) p.run

variable {listed : String → Prop} {allowed : Effect → Prop} {α : Type}

/-- One request. -/
theorem within_request {r : MethodRequest} (h : allowed r.effect) :
    Within listed allowed (MethodProgram.request r) :=
  .bind (asksUnder_request.mpr h) fun _ => asksUnder_pure _

/-- The requests of the lifecycle are passed on. -/
theorem within_simulator {p : SimulatorProgram α} (h : Simulator.Within listed allowed p) :
    AsksUnder (ListsOnly listed) (fun r : MethodRequest => allowed r.effect)
      (p.handleWith lifecycle) := by
  induction p with
  | done result => trivial
  | ask question next ih =>
    exact ⟨h.1, fun answer hanswer => ih answer (h.2 answer hanswer)⟩

/-- A program of the lifecycle. -/
theorem within_ofSimulator {p : SimulatorProgram α} (h : Simulator.Within listed allowed p) :
    Within listed allowed (ofSimulator p) :=
  .bind (within_simulator h) fun _ => asksUnder_pure _

end MethodProgram

namespace DeviceOperation

/-- The effects that an operation may have: those of its permission, on its own device. -/
def Allowed (listed : String → Prop) (operation : DeviceOperation) : Effect → Prop :=
  operation.permission.Allows (fun device => operation.device = some device) listed

end DeviceOperation

namespace Device

open MethodProgram

variable {host : DeviceHost} {listed : String → Prop}

/-- An operation that is one request as a whole: on a physical device, on files, or without an
application. -/
theorem within_ofOperation {operation : DeviceOperation}
    (h : operation.Allowed listed operation.effect) :
    Within listed (operation.Allowed listed) (ofOperation operation) :=
  asksUnder_request.mpr h

section Simulators

variable (host : DeviceHost) (listed : String → Prop) (udid : String)

/-- `installedApp:` of a simulator. -/
theorem within_installedApplication {allowed : Effect → Prop} (hnothing : allowed .nothing)
    (bundleID : String) :
    Within listed allowed (Simulator.installedApplication host udid bundleID) := by
  refine AsksUnder.bindExcept (within_request hnothing) fun path => ?_
  cases path with
  | none => exact asksUnder_pure _
  | some path => exact asksUnder_pure _

/-- `killApp:` of a simulator. -/
theorem within_killApp {allowed : Effect → Prop}
    (hchanges : allowed (.changes (.simulator udid))) (bundleID : Option String) :
    Within listed allowed (Simulator.killApp udid bundleID) :=
  AsksUnder.bindExcept (within_request hchanges) fun _ => asksUnder_pure _

/-- `simulateLocationWithLat:lng:` of a simulator. -/
theorem within_simulateLocation {allowed : Effect → Prop} (hnothing : allowed .nothing)
    (hstarts : allowed (.starts (.simulator udid))) (hchanges : allowed (.changes (.simulator udid)))
    (lat lng : String) : Within listed allowed (Simulator.simulateLocation udid lat lng) := by
  refine AsksUnder.bindExcept (within_ofSimulator (Simulator.within_boot hnothing hstarts))
    fun booted => ?_
  cases booted with
  | false => exact asksUnder_pure _
  | true =>
    refine AsksUnder.bindExcept (within_request hchanges) fun overridden => ?_
    exact (asksUnder_pure _).ite (asksUnder_pure _)

/-- An operation that is sent to a simulator. -/
theorem within_perform_simulator {operation : DeviceOperation}
    (hdevice : operation.device = some (.simulator udid)) :
    Within listed (operation.Allowed listed) (perform host operation) := by
  have hnothing : operation.Allowed listed .nothing := trivial
  -- for each operation: what its method asks, and that the operation allows it
  cases operation with
  | isInstalledWithError device bundleID =>
    cases hdevice
    exact within_ofSimulator (Simulator.within_isInstalledWithErrorOf hnothing _)
  | isInstalled device bundleID =>
    cases hdevice
    exact within_ofSimulator (Simulator.within_isInstalledOf hnothing ⟨rfl, rfl⟩ _)
  | installedApp device bundleID =>
    cases hdevice
    cases bundleID with
    | none => exact within_ofOperation trivial
    | some bundleID => exact within_installedApplication host listed udid hnothing bundleID
  | installApp device app material resourcePaths forceReinstall =>
    cases hdevice
    cases app with
    | none => exact within_ofOperation ⟨rfl, rfl⟩
    | some app =>
      exact within_simulator (Simulator.within_installApp hnothing ⟨rfl, rfl⟩ ⟨rfl, rfl⟩ rfl
        (fun _ hlisted => ⟨rfl, .inr hlisted⟩) ⟨rfl, .inl rfl⟩ _ _ _)
  | uninstallApp device bundleID =>
    cases hdevice
    exact within_ofSimulator (Simulator.within_uninstallAppOf hnothing ⟨rfl, rfl⟩ ⟨rfl, rfl⟩ rfl
      (fun _ hlisted => ⟨rfl, .inr hlisted⟩) ⟨rfl, .inl rfl⟩ _)
  | launchApp device bundleID =>
    cases hdevice
    exact within_ofSimulator (Simulator.within_launchAppOf hnothing ⟨rfl, rfl⟩ ⟨rfl, rfl⟩ _)
  | killApp device bundleID =>
    cases hdevice
    exact within_killApp listed udid ⟨rfl, rfl⟩ bundleID
  | simulateLocation device lat lng =>
    cases hdevice
    exact within_simulateLocation listed udid hnothing ⟨rfl, rfl⟩ ⟨rfl, rfl⟩ lat lng
  | stopSimulatingLocation device =>
    cases hdevice
    exact asksUnder_pure _
  | stageXctestConfiguration device runner aut deviceUDID =>
    cases hdevice
    exact asksUnder_pure _
  | launchSimulator device =>
    cases hdevice
    exact within_ofSimulator (Simulator.within_launchSimulator hnothing ⟨rfl, rfl⟩)
  | eraseSimulator device =>
    cases hdevice
    exact within_ofSimulator (Simulator.within_eraseSimulator hnothing rfl
      (fun _ hlisted => ⟨rfl, .inr hlisted⟩) ⟨rfl, rfl⟩)
  | killSimulatorApp => cases hdevice
  | generateXCAppDataBundle path overwrite => cases hdevice
  | uploadFile device filepath bundleID overwrite =>
    cases hdevice
    exact within_ofOperation ⟨rfl, rfl⟩
  | uploadXCAppDataBundle device path bundleID =>
    cases hdevice
    exact within_ofOperation ⟨rfl, rfl⟩
  | downloadXCAppDataBundle device bundleID path =>
    cases hdevice
    exact within_ofOperation ⟨rfl, rfl⟩

/-- An operation that is sent to a physical device is one request, which it may make. -/
theorem within_perform_physicalDevice {operation : DeviceOperation}
    (hdevice : operation.device = some (.physicalDevice udid)) :
    Within listed (operation.Allowed listed) (perform host operation) := by
  have hwhole : operation.Allowed listed operation.effect := by
    cases operation with
    | isInstalledWithError => trivial
    | isInstalled => trivial
    | installedApp => trivial
    | killSimulatorApp => cases hdevice
    | generateXCAppDataBundle => cases hdevice
    | _ => exact ⟨rfl, rfl⟩
  have hrequest : perform host operation = ofOperation operation := by
    cases operation with
    | killSimulatorApp => cases hdevice
    | generateXCAppDataBundle => cases hdevice
    | _ =>
      cases hdevice
      rfl
  rw [hrequest]
  exact within_ofOperation hwhole

end Simulators

/-- **The permission of an operation.** Whatever is answered, an operation keeps within its
permission, and starts and changes no device but its own; it closes its own simulator and those that
it is listed. -/
theorem within_perform (host : DeviceHost) (listed : String → Prop) (operation : DeviceOperation) :
    Within listed (operation.Allowed listed) (perform host operation) := by
  cases hdevice : operation.device with
  | none =>
    cases operation with
    | generateXCAppDataBundle path overwrite => exact within_ofOperation trivial
    | killSimulatorApp =>
      exact within_ofSimulator (Simulator.within_killSimulatorApp trivial rfl
        fun _ hlisted => ⟨rfl, .inr hlisted⟩)
    | _ => cases hdevice
  | some device =>
    cases device with
    | simulator udid => exact within_perform_simulator host listed udid hdevice
    | physicalDevice udid => exact within_perform_physicalDevice host listed udid hdevice

end Device

end IOSDeviceManager
