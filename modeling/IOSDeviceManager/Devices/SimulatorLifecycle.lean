import IOSDeviceManager.Devices.Device
import IOSDeviceManager.General.Interaction

/-! # `Simulator`: the lifecycle

The operations that boot, shut down and erase a simulator, and install, uninstall and launch its
applications, as programs of the requests they make. The operations call each other, and some drop
each other's results. Every request may be answered in any way. -/

namespace IOSDeviceManager

open General

/-- `FBiOSTargetState`. -/
inductive FBiOSTargetState where
  | creating
  | shutdown
  | booting
  | booted
  | shuttingDown
  | dfu
  | recovery
  | restoreOS
  | unknown
  deriving DecidableEq, Repr

/-- What an operation on an application reads of it. -/
structure AppBundle where
  bundleID : String
  path : String
  deriving DecidableEq, Repr

/-- The end of an attempt to install an application. -/
inductive InstallAttempt where
  | installed
  /-- "This app could not be installed at this time". -/
  | notAtThisTime
  /-- Any other error. -/
  | failed
  deriving DecidableEq, Repr

/-- The requests the operations make: to a simulator, to all simulators, to the running instances of
`Simulator.app`, and for the applications they deal with. -/
inductive SimulatorRequest where
  /-- `state`. -/
  | state (udid : String)
  /-- `resolveState:`, awaited for some seconds. -/
  | resolveState (udid : String) (state : FBiOSTargetState) (timeout : Nat)
  /-- `boot:`. -/
  | boot (udid : String)
  /-- `focus`. -/
  | focus (udid : String)
  /-- `shutdown`. -/
  | shutdown (udid : String)
  /-- `erase`. -/
  | erase (udid : String)
  /-- `installApplicationWithPath:`. -/
  | installApplication (udid path : String)
  /-- `uninstallApplicationWithBundleID:`. -/
  | uninstallApplication (udid bundleID : String)
  /-- `launchApplication:`. -/
  | launchApplication (udid bundleID : String)
  /-- `installedAppsWithError:`; `none` if it fails with an error. -/
  | installedApps (udid : String)
  /-- `installedApplicationWithBundleID:`. -/
  | installedApplication (udid bundleID : String)
  /-- `allSimulators`. -/
  | allSimulators
  /-- `simulatorWithUDID:`. -/
  | simulatorWithUDID (udid : String)
  /-- `runningApplicationsWithBundleIdentifier:`. -/
  | runningApplications
  /-- `terminate`. -/
  | terminate (application : Nat)
  /-- `forceTerminate`. -/
  | forceTerminate (application : Nat)
  /-- `spinRunLoopWithTimeout:untilTrue:` until an application is `terminated`. -/
  | spinUntilTerminated (application : Nat)
  /-- `withBundlePath:` of `Application`. -/
  | applicationWithBundlePath (path : String)
  /-- `appVersionIsDifferent:newPlist:`. -/
  | appVersionIsDifferent (installedApp newApp : AppBundle)
  /-- `resignApplication:withProvisioningProfile:withCodesignIdentity:resourcesToInject:`. -/
  | resignApplication (app : AppBundle) (resourcePaths : List String)

namespace SimulatorRequest

/-- The answers to a request. -/
abbrev Answer : SimulatorRequest → Type
  | state _ => FBiOSTargetState
  | installApplication .. => InstallAttempt
  | installedApps _ => Option (List String)
  | installedApplication .. => Option String
  | allSimulators => List String
  | runningApplications => List Nat
  | terminate _ | forceTerminate _ => Unit
  | applicationWithBundlePath _ => Except NSException (Option AppBundle)
  | appVersionIsDifferent .. => Except NSException Bool
  | resignApplication .. => Except NSException Unit
  | _ => Bool

end SimulatorRequest

/-- A program of requests. -/
abbrev SimulatorProgram (α : Type) : Type :=
  Interaction SimulatorRequest SimulatorRequest.Answer α

namespace Simulator

/-- The program that makes one request and awaits it. -/
abbrev request (r : SimulatorRequest) : SimulatorProgram r.Answer :=
  Interaction.request r

/-- `waitForSimulatorState:timeout:`. -/
def waitForSimulatorState (udid : String) (state : FBiOSTargetState) (timeout : Nat) :
    SimulatorProgram Bool :=
  request (.resolveState udid state timeout)

/-- The end of `boot`, for a simulator that is shut down: it is booted and brought to the
foreground. -/
def performBoot (udid : String) : SimulatorProgram Bool := do
  let success ← request (.boot udid)
  -- by default a simulator runs in the background after booting
  if success then request (.focus udid) else return false

/-- `boot`. -/
def boot (udid : String) : SimulatorProgram Bool := do
  let currentSimulatorState ← request (.state udid)
  match currentSimulatorState with
  -- already booted, or being booted right now
  | .booted => return true
  | .booting => waitForSimulatorState udid .booted 30
  -- a simulator boots from the shutdown state only
  | .shuttingDown => do
      let resolved ← waitForSimulatorState udid .shutdown 30
      if resolved then performBoot udid else return false
  | .creating => do
      let resolved ← waitForSimulatorState udid .booted 120
      if resolved then return true
      else
        let resolved ← waitForSimulatorState udid .shutdown 120
        if resolved then performBoot udid else return false
  | .unknown | .dfu | .recovery | .restoreOS => return false
  | .shutdown => performBoot udid

/-- `shutdown`. The state is read anew for the second comparison. -/
def shutdown (udid : String) : SimulatorProgram Bool := do
  let state ← request (.state udid)
  -- shutting down once more would be an error
  if state = .shutdown then return true
  else
    let state ← request (.state udid)
    if state = .shuttingDown then waitForSimulatorState udid .shutdown 30
    else request (.shutdown udid)

/-- The first loop of `killSimulatorApp`: `false` if an application could not be terminated. -/
def terminateAll : List Nat → SimulatorProgram Bool
  | [] => return true
  | application :: applications => do
      let _ ← request (.terminate application)
      let termed ← request (.spinUntilTerminated application)
      let _ ← if termed then pure () else request (.forceTerminate application)
      let termed ← request (.spinUntilTerminated application)
      if termed then terminateAll applications else return false

/-- The second loop of `killSimulatorApp`. A simulator that is not found cannot be shut down. -/
def shutdownAll : List String → SimulatorProgram IOSReturnStatusCode
  | [] => return .everythingOkay
  | udid :: results => do
      let found ← request (.simulatorWithUDID udid)
      let success ← if found then shutdown udid else pure false
      if success then shutdownAll results else return .genericFailure

/-- `killSimulatorApp`. -/
def killSimulatorApp : SimulatorProgram IOSReturnStatusCode := do
  let applications ← request .runningApplications
  let terminated ← terminateAll applications
  if terminated then
    let results ← request .allSimulators
    shutdownAll results
  else return .genericFailure

/-- `eraseSimulator:`. -/
def eraseSimulator (udid : String) : SimulatorProgram IOSReturnStatusCode := do
  -- whether this was a success shows in the state
  let _ ← killSimulatorApp
  let resolved ← waitForSimulatorState udid .shutdown 30
  if resolved then
    let erased ← request (.erase udid)
    return if erased then .everythingOkay else .internalError
  else return .internalError

/-- `isInstalled:withError:`. Without a list nothing is found in it, and no caller looks
at the error. -/
def isInstalledWithError (udid bundleID : String) : SimulatorProgram Bool := do
  let installedApps ← request (.installedApps udid)
  return installedApps.any (List.contains · bundleID)

/-- `isInstalled:`. -/
def isInstalled (udid bundleID : String) : SimulatorProgram IOSReturnStatusCode := do
  let booted ← boot udid
  if booted then
    let installed ← isInstalledWithError udid bundleID
    return if installed then .everythingOkay else .false
  else return .internalError

/-- `launchApp:`. -/
def launchApp (udid bundleID : String) : SimulatorProgram IOSReturnStatusCode := do
  let installed ← isInstalledWithError udid bundleID
  if installed then
    let booted ← boot udid
    if booted then
      let launched ← request (.launchApplication udid bundleID)
      return if launched then .everythingOkay else .internalError
    else return .genericFailure
  else return .genericFailure

/-- `uninstallApp:` on the booted simulator: the status, or `none` if the application is still
listed after it was uninstalled. -/
def uninstallBooted (udid bundleID : String) : SimulatorProgram (Option IOSReturnStatusCode) := do
  let installed ← isInstalledWithError udid bundleID
  if installed then
    let uninstalled ← request (.uninstallApplication udid bundleID)
    if uninstalled then
      let installed ← isInstalledWithError udid bundleID
      return if installed then none else some .everythingOkay
    else return some .internalError
  else return some .genericFailure

/-- The first part of `uninstallApp:`. -/
def uninstallUntilReboot (udid bundleID : String) :
    SimulatorProgram (Option IOSReturnStatusCode) := do
  -- while `Simulator.app` is running, an uninstalled app would still be reported as installed
  let _ ← killSimulatorApp
  let booted ← boot udid
  if booted then uninstallBooted udid bundleID else return some .genericFailure

/-- The end of `uninstallApp:`: rebooting the device to reset the database of installed apps.
Neither the shutdown nor the boot is checked. -/
def rebootAndCheck (udid bundleID : String) : SimulatorProgram IOSReturnStatusCode := do
  let _ ← shutdown udid
  let _ ← boot udid
  let installed ← isInstalledWithError udid bundleID
  return if installed then .internalError else .everythingOkay

/-- `uninstallApp:`. -/
def uninstallApp (udid bundleID : String) : SimulatorProgram IOSReturnStatusCode := do
  let code ← uninstallUntilReboot udid bundleID
  match code with
  | some code => return code
  | none => rebootAndCheck udid bundleID

/-- `installedApp:`. -/
def installedApp (udid bundleID : String) :
    SimulatorProgram (Except NSException (Option AppBundle)) := do
  let installedApp ← request (.installedApplication udid bundleID)
  match installedApp with
  | none => return .ok none
  | some path => request (.applicationWithBundlePath path)

/-- `shouldUpdateApp:installedApp:statusCode:` for an app that is installed; the status code stays
`iOSReturnStatusCodeEverythingOkay`. -/
def shouldUpdateApp (newApp installedApp : AppBundle) :
    SimulatorProgram (Except NSException Bool) :=
  request (.appVersionIsDifferent installedApp newApp)

/-- The first part of `installApp:`: the status, or `none` if the app is to be installed. -/
def installUntilUninstall (udid : String) (app : AppBundle) (forceReinstall : Bool) :
    SimulatorProgram (Except NSException (Option IOSReturnStatusCode)) := do
  let booted ← boot udid
  if booted then
    let installedApp ← installedApp udid app.bundleID
    match installedApp with
    | .error e => return .error e
    | .ok none => return .ok none
    | .ok (some installedApp) =>
        if forceReinstall then return .ok none
        else
          let needsToInstall ← shouldUpdateApp app installedApp
          match needsToInstall with
          | .error e => return .error e
          | .ok needsToInstall =>
              return .ok (if needsToInstall then none else some .everythingOkay)
  else return .ok (some .genericFailure)

/-- The attempts to install the application that are left. -/
def installAttempts (udid path : String) : Nat → SimulatorProgram Bool
  | 0 => return false
  | attempts + 1 => do
      let attempt ← request (.installApplication udid path)
      match attempt with
      | .installed => return true
      | .notAtThisTime => installAttempts udid path attempts
      | .failed => return false

/-- `tries`; the loop starts with the first one and stops before the last. -/
def tries : Nat := 5

/-- The end of `installApp:`. The old app is uninstalled, to avoid a mismatch of the
application-identifier entitlement; the status of that is dropped. -/
def reinstall (udid : String) (app : AppBundle) (resourcePaths : List String) :
    SimulatorProgram (Except NSException IOSReturnStatusCode) := do
  let _ ← uninstallApp udid app.bundleID
  let resigned ← request (.resignApplication app resourcePaths)
  match resigned with
  | .error e => return .error e
  | .ok () =>
      let success ← installAttempts udid app.path (tries - 1)
      return .ok (if success then .everythingOkay else .genericFailure)

/-- `installApp:` with `mobileProfile:`, `codesignIdentity:`, `resourcesToInject:` and
`forceReinstall:`; the profile and the identity play no part on a simulator. -/
def installApp (udid : String) (app : AppBundle) (resourcePaths : List String)
    (forceReinstall : Bool) : SimulatorProgram (Except NSException IOSReturnStatusCode) := do
  let code ← installUntilUninstall udid app forceReinstall
  match code with
  | .error e => return .error e
  | .ok (some code) => return .ok code
  | .ok none => reinstall udid app resourcePaths

end Simulator

/-- The operations on a simulator. -/
inductive SimulatorOperation where
  | boot (udid : String)
  | shutdown (udid : String)
  | killSimulatorApp
  | eraseSimulator (udid : String)
  | installApp (udid : String) (app : AppBundle) (resourcePaths : List String)
      (forceReinstall : Bool)
  | uninstallApp (udid bundleID : String)
  | launchApp (udid bundleID : String)
  | isInstalled (udid bundleID : String)

/-- The history after an operation. -/
def SimulatorOperation.perform (env : Environment SimulatorRequest.Answer)
    (history : History SimulatorRequest.Answer) :
    SimulatorOperation → History SimulatorRequest.Answer
  | boot udid => ((Simulator.boot udid).run env history).2
  | shutdown udid => ((Simulator.shutdown udid).run env history).2
  | killSimulatorApp => (Simulator.killSimulatorApp.run env history).2
  | eraseSimulator udid => ((Simulator.eraseSimulator udid).run env history).2
  | installApp udid app resourcePaths forceReinstall =>
      ((Simulator.installApp udid app resourcePaths forceReinstall).run env history).2
  | uninstallApp udid bundleID => ((Simulator.uninstallApp udid bundleID).run env history).2
  | launchApp udid bundleID => ((Simulator.launchApp udid bundleID).run env history).2
  | isInstalled udid bundleID => ((Simulator.isInstalled udid bundleID).run env history).2

end IOSDeviceManager
