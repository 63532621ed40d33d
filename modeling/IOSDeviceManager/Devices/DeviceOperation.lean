import IOSDeviceManager.Devices.Device
import IOSDeviceManager.General.Interaction

/-! # The operations of a device

What a command can ask a device for. A device may answer every call with any value of its return
type, or raise. A program of such calls reports honestly if it ends with a success only where every
call that changes the state of a device was a success. -/

namespace IOSDeviceManager

open General

/-- What an install call passes to sign the application with. -/
inductive SigningMaterial where
  /-- Nothing: the profile and the identity are detected. -/
  | detected
  | profile (profile : MobileProfile)
  | identity (codesignID : CodesignIdentity)

/-- The calls on a device, and those of the classes `Device` and `Simulator`. -/
inductive DeviceOperation where
  /-- `isInstalled:withError:`. -/
  | isInstalledWithError (device : Device) (bundleID : Option String)
  /-- `isInstalled:`. -/
  | isInstalled (device : Device) (bundleID : Option String)
  /-- `installedApp:`. -/
  | installedApp (device : Device) (bundleID : Option String)
  /-- `installApp:` with `mobileProfile:`, `codesignIdentity:` or neither, `resourcesToInject:` and
  `forceReinstall:`. -/
  | installApp (device : Device) (app : Option Application) (material : SigningMaterial)
      (resourcePaths : List String) (forceReinstall : Bool)
  /-- `uninstallApp:`. -/
  | uninstallApp (device : Device) (bundleID : Option String)
  /-- `launchApp:`. -/
  | launchApp (device : Device) (bundleID : Option String)
  /-- `killApp:`. -/
  | killApp (device : Device) (bundleID : Option String)
  /-- `simulateLocationWithLat:lng:`, for the `doubleValue` of the two texts. -/
  | simulateLocation (device : Device) (lat lng : String)
  /-- `stopSimulatingLocation`. -/
  | stopSimulatingLocation (device : Device)
  /-- `uploadFile:forApplication:overwrite:`. -/
  | uploadFile (device : Device) (filepath bundleID : Option String) (overwrite : Bool)
  /-- `uploadXCAppDataBundle:forApplication:`. -/
  | uploadXCAppDataBundle (device : Device) (path : String) (bundleID : Option String)
  /-- `downloadXCAppDataBundleForApplication:toPath:`. -/
  | downloadXCAppDataBundle (device : Device) (bundleID path : Option String)
  /-- `stageXctestConfigurationToTmpForRunner:AUT:deviceUDID:error:`. -/
  | stageXctestConfiguration (device : Device) (runner aut deviceUDID : String)
  /-- `generateXCAppDataBundleAtPath:overwrite:`. -/
  | generateXCAppDataBundle (path : Option String) (overwrite : Bool)
  /-- `launchSimulator:`. -/
  | launchSimulator (device : Device)
  /-- `eraseSimulator:`. -/
  | eraseSimulator (device : Device)
  /-- `killSimulatorApp`. -/
  | killSimulatorApp

/-- The return types of the operations. -/
inductive ReturnType where
  | status
  | bool
  | application

/-- The values of a return type. -/
abbrev ReturnType.Value : ReturnType → Type
  | .status => IOSReturnStatusCode
  | .bool => Bool
  | .application => Option Application

/-- A returned value that stands for a success. -/
def ReturnType.isSuccess : (type : ReturnType) → type.Value → Bool
  | .status, code => code == .everythingOkay
  | .bool, yes => yes
  | .application, app => app.isSome

/-- One status only is a success. -/
theorem ReturnType.not_isSuccess_status_iff (code : IOSReturnStatusCode) :
    ¬ ReturnType.status.isSuccess code = false ↔ code = .everythingOkay := by
  simp [ReturnType.isSuccess]

namespace DeviceOperation

/-- The return type of an operation. -/
abbrev returnType : DeviceOperation → ReturnType
  | isInstalledWithError .. | stageXctestConfiguration .. => .bool
  | installedApp .. => .application
  | _ => .status

/-- The operation changes the state of a device, or of the data moved to it or from it. -/
def changesState : DeviceOperation → Bool
  | isInstalledWithError .. | isInstalled .. | installedApp .. => false
  | _ => true

/-- What a call ends with: a returned value, or an exception. -/
abbrev Answer (operation : DeviceOperation) : Type :=
  Except NSException operation.returnType.Value

/-- The call of a state-changing operation that was no success. -/
def Failed (call : Sigma Answer) : Prop :=
  call.1.changesState = true ∧
    ∀ value, call.2 = .ok value → call.1.returnType.isSuccess value = false

end DeviceOperation

open DeviceOperation

/-- The value of a device that returns one status to all calls and has every app installed. -/
def ReturnType.constantValue (code : IOSReturnStatusCode) : (type : ReturnType) → type.Value
  | .status => code
  | .bool => true
  | .application => none

/-- Devices that return one status to all calls and have every app installed. -/
def constantDevices (code : IOSReturnStatusCode) : Environment Answer := fun _ operation =>
  .ok (operation.returnType.constantValue code)

/-- A state-changing call that returned has failed exactly if the value is no success. -/
theorem failed_ok_iff {operation : DeviceOperation} (hchanges : operation.changesState = true)
    (value : operation.returnType.Value) :
    Failed ⟨operation, .ok value⟩ ↔ operation.returnType.isSuccess value = false := by
  constructor
  · exact fun h => h.2 value rfl
  · intro h
    refine ⟨hchanges, fun other hother => ?_⟩
    obtain rfl := Except.ok.inj hother
    exact h

/-- A program that calls devices; an exception that is not caught ends it. -/
abbrev DeviceProgram (α : Type) : Type :=
  ExceptT NSException (Interaction DeviceOperation Answer) α

namespace DeviceProgram

variable {α : Type}

/-- The call of an operation. -/
def call (operation : DeviceOperation) : DeviceProgram operation.returnType.Value :=
  ExceptT.mk (Interaction.request operation)

/-- The call of an operation that returns a status. -/
def callStatus (operation : DeviceOperation) (hstatus : operation.returnType = .status) :
    DeviceProgram IOSReturnStatusCode :=
  cast (congrArg (fun type => DeviceProgram (ReturnType.Value type)) hstatus) (call operation)

/-- What the host computes without a device. -/
def ofHost (x : Except NSException α) : DeviceProgram α :=
  ExceptT.mk (pure x)

/-- The outcome of a program that is run with a device, and the calls it made. -/
def execute (env : Environment Answer) (program : DeviceProgram α) :
    Except NSException α × History Answer :=
  program.run.run env []

variable {env : Environment Answer} {history : History Answer}

/-- A call that raises ends the program, another one goes on with the returned value. -/
theorem run_call_bind (operation : DeviceOperation)
    (f : operation.returnType.Value → DeviceProgram α) :
    (call operation >>= f).run.run env history =
      match env history operation with
      | .ok value => (f value).run.run env (history ++ [⟨operation, .ok value⟩])
      | .error e => (.error e, history ++ [⟨operation, .error e⟩]) := by
  rw [ExceptT.run_bind, call, ExceptT.run_mk, Interaction.run_bind, Interaction.run_request]
  cases henv : env history operation with
  | error e => rfl
  | ok value => rfl

/-- A call that returns a status is one exchange. -/
theorem history_callStatus (operation : DeviceOperation)
    (hstatus : operation.returnType = .status) :
    ((callStatus operation hstatus).run.run env history).2 =
      history ++ [⟨operation, env history operation⟩] := by
  cases operation with
  | isInstalledWithError => cases hstatus
  | stageXctestConfiguration => cases hstatus
  | installedApp => cases hstatus
  | _ => rfl

/-- The handler takes over where the program has raised. -/
theorem run_tryCatch (program : DeviceProgram α) (handler : NSException → DeviceProgram α) :
    (tryCatch program handler).run.run env history =
      match program.run.run env history with
      | (.ok value, later) => (.ok value, later)
      | (.error e, later) => (handler e).run.run env later := by
  rw [ExceptT.run_tryCatch, Interaction.run_bind]
  rcases program.run.run env history with ⟨_ | _, later⟩ <;> rfl

/-- **An honest report.** If the program returns `iOSReturnStatusCodeEverythingOkay`, then no
state-changing operation it invoked has failed. -/
def ReportsHonestly (env : Environment Answer) (program : DeviceProgram IOSReturnStatusCode) :
    Prop :=
  (program.execute env).1 = .ok .everythingOkay →
    ∀ call ∈ (program.execute env).2, ¬ Failed call

/-! ## Honest programs -/

/-- The value of an answer is a success. -/
def succeeded {operation : DeviceOperation} (answer : Answer operation) : Bool :=
  answer.toOption.any operation.returnType.isSuccess

/-- The monitor that notices the failure of a state-changing operation. -/
def failureMonitor : Monitor Answer Bool where
  observe ok call := ok && (!call.1.changesState || succeeded call.2)
  Allows _ _ := True

/-- A call that was noticed as a failure is one. -/
theorem failed_iff (call : Sigma Answer) :
    Failed call ↔ (!call.1.changesState || succeeded call.2) = false := by
  obtain ⟨operation, answer⟩ := call
  cases answer with
  | error e =>
    -- an exception is not what the operation was to return
    simp [Failed, succeeded, Except.toOption]
  | ok value => simp [Failed, succeeded, Except.toOption]

/-- Where the monitor has noticed no failure there was none. -/
theorem not_failed_of_stateAfter {history : History Answer} {ok : Bool}
    (h : failureMonitor.stateAfter ok history = true) :
    ok = true ∧ ∀ call ∈ history, ¬ Failed call := by
  induction history generalizing ok with
  | nil => exact ⟨h, by simp⟩
  | cons first history ih =>
    have hnext : failureMonitor.stateAfter (failureMonitor.observe ok first) history = true := h
    obtain ⟨hfirst, hrest⟩ := ih hnext
    rw [failureMonitor, Bool.and_eq_true] at hfirst
    refine ⟨hfirst.1, List.forall_mem_cons.mpr ⟨?_, hrest⟩⟩
    rw [failed_iff, hfirst.2]
    exact Bool.noConfusion

/-- The program, from a state that is `ok` or not, returns `iOSReturnStatusCodeEverythingOkay` only
if no failure was noticed, whatever the devices do. -/
def HonestFrom (ok : Bool) (program : DeviceProgram IOSReturnStatusCode) : Prop :=
  failureMonitor.wp program.run
    (fun result ok => result = .ok .everythingOkay → ok = true) ok

/-- **Honest programs report honestly.** -/
theorem HonestFrom.reportsHonestly {program : DeviceProgram IOSReturnStatusCode}
    (h : HonestFrom true program) (env : Environment Answer) : ReportsHonestly env program := by
  intro hokay
  have hstart : failureMonitor.wp program.run
      (fun result ok => result = .ok .everythingOkay → ok = true)
      (failureMonitor.stateAfter true []) := h
  exact (not_failed_of_stateAfter (Monitor.post_of_wp hstart env hokay)).2

@[simp] theorem honestFrom_pure (ok : Bool) (code : IOSReturnStatusCode) :
    HonestFrom ok (pure code) ↔ (code = .everythingOkay → ok = true) := by
  simp [HonestFrom]

@[simp] theorem honestFrom_throw (ok : Bool) (e : NSException) : HonestFrom ok (throw e) := by
  simp [HonestFrom]

/-- What the host computes leaves the state of the devices alone. -/
@[simp] theorem honestFrom_ofHost_bind (ok : Bool) (x : Except NSException α)
    (f : α → DeviceProgram IOSReturnStatusCode) :
    HonestFrom ok (ofHost x >>= f) ↔ ∀ value, x = .ok value → HonestFrom ok (f value) := by
  unfold HonestFrom ofHost
  cases x with
  | error e => simp [ExceptT.run_bind]
  | ok value => simp [ExceptT.run_bind]

/-- A call is a failure or not by its answer; an exception ends the program. -/
@[simp] theorem honestFrom_call_bind (ok : Bool) (operation : DeviceOperation)
    (f : operation.returnType.Value → DeviceProgram IOSReturnStatusCode) :
    HonestFrom ok (call operation >>= f) ↔ ∀ value,
      HonestFrom (ok && (!operation.changesState || operation.returnType.isSuccess value))
        (f value) := by
  unfold HonestFrom call
  rw [ExceptT.run_bind, ExceptT.run_mk, Monitor.wp_bind, Monitor.wp_request]
  constructor
  · intro h value
    exact h.2 (.ok value)
  · intro h
    refine ⟨trivial, fun answer => ?_⟩
    cases answer with
    | error e =>
      -- the exception is the outcome, so there is no success to account for
      simp
    | ok value => exact h value

/-- A call that returns a status is a failure or not by the status. -/
@[simp] theorem honestFrom_callStatus_bind (ok : Bool) (operation : DeviceOperation)
    (hstatus : operation.returnType = .status)
    (f : IOSReturnStatusCode → DeviceProgram IOSReturnStatusCode) :
    HonestFrom ok (callStatus operation hstatus >>= f) ↔ ∀ code,
      HonestFrom (ok && (!operation.changesState || code == .everythingOkay)) (f code) := by
  cases operation with
  | isInstalledWithError => cases hstatus
  | stageXctestConfiguration => cases hstatus
  | installedApp => cases hstatus
  | _ => exact honestFrom_call_bind ok _ _

/-- **A returned status** reports the success of its own call. -/
theorem honestFrom_callStatus (operation : DeviceOperation)
    (hstatus : operation.returnType = .status) :
    HonestFrom true (callStatus operation hstatus) := by
  rw [← bind_pure (callStatus operation hstatus), honestFrom_callStatus_bind]
  intro code
  rw [honestFrom_pure]
  rintro rfl
  simp

end DeviceProgram

end IOSDeviceManager
