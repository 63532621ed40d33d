import IOSDeviceManager.Commands.DeviceArgs
import IOSDeviceManager.Devices.DeviceOperation
import IOSDeviceManager.Devices.PhysicalDeviceInstall
import IOSDeviceManager.Devices.SimulatorLifecycle
import IOSDeviceManager.General.InteractionHandler

/-! # The operations of a device, opened for simulators

What a message to a `Device` does if it is a `Simulator`, as a program of the requests it makes. A
message that `Simulator` does not override ends in the implementation of `Device`, which raises. The
operations on a physical device and on the files of an application stay as they are. -/

namespace IOSDeviceManager

open General

/-- The requests that an operation of a device makes. -/
inductive MethodRequest where
  /-- One of the requests of the lifecycle. -/
  | simulator (r : SimulatorRequest)
  /-- `killApplicationWithBundleID:` of a simulator. -/
  | killApplication (udid : String) (bundleID : Option String)
  /-- `overrideLocationWithLongitude:latitude:` of a simulator, for the `doubleValue` of two
  texts. -/
  | overrideLocation (udid lat lng : String)
  /-- An operation as a whole: on a physical device, on files, or with `nil` for the application. -/
  | operation (whole : DeviceOperation)

namespace MethodRequest

/-- The answers to a request. -/
abbrev Answer : MethodRequest → Type
  | simulator r => r.Answer
  | killApplication .. => Bool
  | overrideLocation .. => Awaited
  | operation whole => whole.Answer

end MethodRequest

/-- A program of requests; an exception that is not caught ends it. -/
abbrev MethodProgram (α : Type) : Type :=
  ExceptT NSException (Interaction MethodRequest MethodRequest.Answer) α

namespace MethodProgram

variable {α : Type}

/-- The program that makes one request and awaits it. -/
def request (r : MethodRequest) : MethodProgram r.Answer :=
  ExceptT.lift (Interaction.request r)

/-- The requests of the lifecycle are made as they are. -/
def lifecycle : Handler SimulatorRequest.Answer MethodRequest.Answer := fun r =>
  Interaction.request (MethodRequest.simulator r)

/-- A program of the lifecycle. -/
def ofSimulator (p : SimulatorProgram α) : MethodProgram α :=
  ExceptT.lift (p.handleWith lifecycle)

/-- A program of the lifecycle that may raise. -/
def ofThrowing (p : SimulatorProgram (Except NSException α)) : MethodProgram α :=
  ExceptT.mk (p.handleWith lifecycle)

/-- What the host computes without a request. -/
def ofHost (x : Except NSException α) : MethodProgram α :=
  ExceptT.mk (pure x)

/-- An operation as a whole. -/
def ofOperation (operation : DeviceOperation) : MethodProgram operation.returnType.Value :=
  ExceptT.mk (Interaction.request (MethodRequest.operation operation))

end MethodProgram

namespace Simulator

/-! ## Identifiers that may be `nil`

Nothing is listed under `nil`. -/

/-- `isInstalled:withError:`. -/
def isInstalledWithErrorOf (udid : String) : Option String → SimulatorProgram Bool
  | some bundleID => isInstalledWithError udid bundleID
  | none => do
      let _ ← request (.installedApps udid)
      return false

/-- `isInstalled:`. -/
def isInstalledOf (udid : String) : Option String → SimulatorProgram IOSReturnStatusCode
  | some bundleID => isInstalled udid bundleID
  | none => do
      let booted ← boot udid
      if booted then
        let _ ← request (.installedApps udid)
        return .false
      else return .internalError

/-- `launchApp:`. -/
def launchAppOf (udid : String) : Option String → SimulatorProgram IOSReturnStatusCode
  | some bundleID => launchApp udid bundleID
  | none => do
      let _ ← request (.installedApps udid)
      return .genericFailure

/-- `uninstallApp:`. -/
def uninstallAppOf (udid : String) : Option String → SimulatorProgram IOSReturnStatusCode
  | some bundleID => uninstallApp udid bundleID
  | none => do
      let _ ← killSimulatorApp
      let booted ← boot udid
      if booted then
        let _ ← request (.installedApps udid)
        return .genericFailure
      else return .genericFailure

/-! ## Further methods -/

/-- `launchSimulator:`. -/
def launchSimulator (udid : String) : SimulatorProgram IOSReturnStatusCode := do
  let booted ← boot udid
  return if booted then .everythingOkay else .genericFailure

/-- `killApp:`. -/
def killApp (udid : String) (bundleID : Option String) : MethodProgram IOSReturnStatusCode := do
  let killed ← MethodProgram.request (.killApplication udid bundleID)
  return if killed then .everythingOkay else .false

/-- `simulateLocationWithLat:lng:`. -/
def simulateLocation (udid lat lng : String) : MethodProgram IOSReturnStatusCode := do
  let booted ← MethodProgram.ofSimulator (boot udid)
  if booted then
    let overridden ← MethodProgram.request (.overrideLocation udid lat lng)
    if !overridden.success then return .genericFailure
    else return if overridden.error then .internalError else .everythingOkay
  else return .genericFailure

/-- `installedApp:`. -/
def installedApplication (host : DeviceHost) (udid bundleID : String) :
    MethodProgram (Option Application) := do
  let path ← MethodProgram.request (.simulator (.installedApplication udid bundleID))
  match path with
  | none => return none
  | some path => MethodProgram.ofHost (host.withBundlePath (some path))

/-- What the lifecycle reads of an application. -/
def appBundle (host : DeviceHost) (app : Application) : AppBundle :=
  ⟨host.bundleID app, app.appDir.path⟩

end Simulator

namespace Device

open MethodProgram

/-- `MUST_OVERRIDE`. -/
def mustOverride : NSException :=
  .named "ProgrammerErrorException" "Method should be overridden by a subclass"

/-- What a message does: the method of `Simulator` for a simulator. The staging of a configuration
has one argument more than the method of that name in `Simulator`, which is therefore not called. -/
def perform (host : DeviceHost) :
    (operation : DeviceOperation) → MethodProgram operation.returnType.Value
  | .isInstalledWithError (.simulator udid) bundleID =>
      ofSimulator (Simulator.isInstalledWithErrorOf udid bundleID)
  | .isInstalled (.simulator udid) bundleID => ofSimulator (Simulator.isInstalledOf udid bundleID)
  | .installedApp (.simulator udid) (some bundleID) =>
      Simulator.installedApplication host udid bundleID
  | .installApp (.simulator udid) (some app) _ resourcePaths forceReinstall =>
      ofThrowing (Simulator.installApp udid (Simulator.appBundle host app) resourcePaths
        forceReinstall)
  | .uninstallApp (.simulator udid) bundleID => ofSimulator (Simulator.uninstallAppOf udid bundleID)
  | .launchApp (.simulator udid) bundleID => ofSimulator (Simulator.launchAppOf udid bundleID)
  | .killApp (.simulator udid) bundleID => Simulator.killApp udid bundleID
  | .simulateLocation (.simulator udid) lat lng => Simulator.simulateLocation udid lat lng
  | .stopSimulatingLocation (.simulator _) => return .everythingOkay
  | .stageXctestConfiguration (.simulator _) .. => throw mustOverride
  | .launchSimulator (.simulator udid) => ofSimulator (Simulator.launchSimulator udid)
  | .eraseSimulator (.simulator udid) => ofSimulator (Simulator.eraseSimulator udid)
  | .killSimulatorApp => ofSimulator Simulator.killSimulatorApp
  | operation => ofOperation operation

/-- A program of device operations, with every operation performed. -/
def performAll (host : DeviceHost) {α : Type} (p : DeviceProgram α) : MethodProgram α :=
  ExceptT.mk (Interaction.handleWith (fun operation => (perform host operation).run) p.run)

section PerformAll

variable {host : DeviceHost} {α β : Type}

@[simp] theorem performAll_pure (result : α) :
    performAll host (pure result : DeviceProgram α) = pure result :=
  rfl

@[simp] theorem performAll_throw (e : NSException) :
    performAll host (throw e : DeviceProgram α) = throw e :=
  rfl

@[simp] theorem performAll_ofHost (x : Except NSException α) :
    performAll host (DeviceProgram.ofHost x) = MethodProgram.ofHost x :=
  rfl

@[simp] theorem performAll_call (operation : DeviceOperation) :
    performAll host (DeviceProgram.call operation) = perform host operation :=
  Interaction.handleWith_request _ operation

/-- Operations are performed one after the other. -/
@[simp] theorem performAll_bind (p : DeviceProgram α) (f : α → DeviceProgram β) :
    performAll host (p >>= f) = performAll host p >>= fun result => performAll host (f result) := by
  apply ExceptT.ext
  rw [performAll, ExceptT.run_mk, ExceptT.run_bind, Interaction.handleWith_bind, ExceptT.run_bind]
  refine congrArg (_ >>= ·) (funext fun result => ?_)
  cases result with
  | error e => rfl
  | ok result => rfl

end PerformAll

end Device

end IOSDeviceManager
