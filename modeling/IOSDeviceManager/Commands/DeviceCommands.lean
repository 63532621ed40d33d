import IOSDeviceManager.Commands.DeviceArgs
import IOSDeviceManager.Devices.DeviceOperation
import IOSDeviceManager.Resigning.NamedIdentity

/-! # The commands that act through a device

`execute:` of every command that calls a device, as a program of device operations. All but two of
them end with a success only where the operations they called were successes; the other two, which
clear and download the data of an app, drop what the operations return. -/

namespace IOSDeviceManager

open General DeviceProgram DeviceOperation

/-! ## The executions -/

/-- The commands whose `execute:` starts with the device: without one there is nothing to do. -/
def onDevice (host : DeviceHost) (args : NSDictionary ArgValue)
    (f : Device → DeviceProgram IOSReturnStatusCode) : DeviceProgram IOSReturnStatusCode := do
  let device ← ofHost (deviceFromArgs host args)
  match device with
  | none => return .deviceNotFound
  | some device => f device

/-- The commands on the data of an app, which is given by its identifier or its path and has to be
installed. -/
def onInstalledApp (host : DeviceHost) (args : NSDictionary ArgValue)
    (f : Device → Option String → DeviceProgram IOSReturnStatusCode) :
    DeviceProgram IOSReturnStatusCode := do
  if stringArg args bundleIDOptionName = none ∧ stringArg args appPathOptionName = none then
    return .missingArguments
  else
    let bundleId ← ofHost (bundleIDFromArgs host args)
    match bundleId with
    | none => return .invalidArguments
    | some bundleId =>
        onDevice host args fun device => do
          let installed ← call (.isInstalledWithError device bundleId)
          if installed then f device bundleId else return .false

/-- `execute:` of `AppInfoCommand`. A dictionary cannot hold the identifier of no app. -/
def AppInfoCommand.execute (host : DeviceHost) (args : NSDictionary ArgValue) :
    DeviceProgram IOSReturnStatusCode := do
  match stringArg args bundleIDOptionName, stringArg args appPathOptionName with
  | none, none => return .missingArguments
  | none, some appPath =>
      let app ← ofHost (host.withBundlePath (some appPath))
      match app with
      | none => throw .invalidArgument
      | some _ => return .everythingOkay
  | some bundleID, _ =>
      onDevice host args fun device => do
        let installed ← call (.isInstalledWithError device (some bundleID))
        if installed then
          let app ← call (.installedApp device (some bundleID))
          match app with
          | none => return .false
          | some _ => return .everythingOkay
        else return .false

/-- `emptyXcappdataPath` of `ClearAppDataCommand`. -/
def ClearAppDataCommand.emptyXcappdataPath (host : DeviceHost) : String :=
  NSString.stringByAppendingPathComponent host.temporaryDirectory "Empty.xcappdata"

/-- `execute:` of `ClearAppDataCommand`. Whatever happens, the temporary bundle is removed in the
end, which the returned status does not depend on. -/
def ClearAppDataCommand.execute (host : DeviceHost) (args : NSDictionary ArgValue) :
    DeviceProgram IOSReturnStatusCode :=
  onInstalledApp host args fun device bundleId =>
    tryCatch
      (do
        let _ ← callStatus (.generateXCAppDataBundle (some (emptyXcappdataPath host)) true) rfl
        let _ ← callStatus (.uploadXCAppDataBundle device (emptyXcappdataPath host) bundleId) rfl
        return .everythingOkay)
      fun _ => return .internalError

/-- `execute:` of `DownloadXCAppDataCommand`. -/
def DownloadXCAppDataCommand.execute (host : DeviceHost) (args : NSDictionary ArgValue) :
    DeviceProgram IOSReturnStatusCode :=
  onInstalledApp host args fun device bundleId => do
    let _ ← callStatus
      (.downloadXCAppDataBundle device bundleId (stringArg args "download-path")) rfl
    return .everythingOkay

/-- `execute:` of `EraseSimulatorCommand`. -/
def EraseSimulatorCommand.execute (host : DeviceHost) (args : NSDictionary ArgValue) :
    DeviceProgram IOSReturnStatusCode :=
  onDevice host args fun device => do
    if device.isPhysicalDevice then return .deviceNotFound
    else
      callStatus (.eraseSimulator device) rfl

/-- `execute:` of `GenerateXCAppDataCommand`. -/
def GenerateXCAppDataCommand.execute (args : NSDictionary ArgValue) :
    DeviceProgram IOSReturnStatusCode := do
  let overwrite := boolArg Commands.generateXCAppDataCommand args "-o" "overwrite"
  callStatus (.generateXCAppDataBundle (stringArg args "file-path") overwrite) rfl

/-- `codesignIDFromArgs:`: no identity for a name that is empty, or that the listing does not
resolve. -/
def codesignIDFromArgs (host : DeviceHost) (args : NSDictionary ArgValue) :
    Option CodesignIdentity :=
  match stringArg args codesignIDOptionName with
  | none => none
  | some codesignID =>
      if codesignID = "" then none
      else if codesignID = "-" then some CodesignIdentity.adHoc
      else CodesignIdentity.identityForShasumOrName codesignID host.validCodesigningIdentities

namespace InstallAppCommand

/-- The profile at the path in the arguments: `none` if there is no path, or if the profile cannot
be loaded. -/
def profileFromArgs (host : DeviceHost) (args : NSDictionary ArgValue) : Option MobileProfile :=
  (stringArg args "profile-path").bind fun profilePath =>
    (MobileProfile.withPath host.toHost (some profilePath)).toOption

/-- The install call that is chosen. -/
def signingMaterial : Option MobileProfile → Option CodesignIdentity → SigningMaterial
  | some profile, _ => .profile profile
  | none, some codesignIdentity => .identity codesignIdentity
  | none, none => .detected

/-- `execute:` of `InstallAppCommand`. -/
def execute (host : DeviceHost) (args : NSDictionary ArgValue) :
    DeviceProgram IOSReturnStatusCode :=
  let shouldForceReinstall :=
    boolArg Commands.installAppCommand args "-f" "force-reinstall-app"
  onDevice host args fun device => do
    let app ← ofHost (host.withBundlePath (stringArg args appPathOptionName))
    match app with
    | none => return .genericFailure
    | some app =>
        let codesignIdentity := codesignIDFromArgs host args
        let profile := profileFromArgs host args
        if profile.isSome ∧ codesignIdentity.isSome then return .invalidArguments
        else
          let resources ← ofHost (resourcesFromArgs host.toHost args)
          callStatus (.installApp device (some app) (signingMaterial profile codesignIdentity)
            resources shouldForceReinstall) rfl

end InstallAppCommand

/-- `execute:` of `IsInstalledCommand`. -/
def IsInstalledCommand.execute (host : DeviceHost) (args : NSDictionary ArgValue) :
    DeviceProgram IOSReturnStatusCode :=
  onDevice host args fun device => do
    match stringArg args bundleIDOptionName, stringArg args appPathOptionName with
    | none, none => return .missingArguments
    | none, some appPath =>
        let app ← ofHost (host.withBundlePath (some appPath))
        callStatus (.isInstalled device (app.map host.bundleID)) rfl
    | some bundleID, _ =>
        callStatus (.isInstalled device (some bundleID)) rfl

/-- `execute:` of `KillAppCommand`. -/
def KillAppCommand.execute (host : DeviceHost) (args : NSDictionary ArgValue) :
    DeviceProgram IOSReturnStatusCode :=
  onDevice host args fun device => do
    callStatus (.killApp device (stringArg args bundleIDOptionName)) rfl

/-- `execute:` of `KillSimulatorCommand`, which ignores the device. -/
def KillSimulatorCommand.execute : DeviceProgram IOSReturnStatusCode := do
  callStatus .killSimulatorApp rfl

/-- `execute:` of `LaunchAppCommand`. -/
def LaunchAppCommand.execute (host : DeviceHost) (args : NSDictionary ArgValue) :
    DeviceProgram IOSReturnStatusCode :=
  onDevice host args fun device => do
    callStatus (.launchApp device (stringArg args bundleIDOptionName)) rfl

/-- `execute:` of `LaunchSimulatorCommand`. -/
def LaunchSimulatorCommand.execute (host : DeviceHost) (args : NSDictionary ArgValue) :
    DeviceProgram IOSReturnStatusCode := do
  let simulator ← ofHost (simulatorFromArgs host args)
  match simulator with
  | none => return .deviceNotFound
  | some simulator =>
      callStatus (.launchSimulator simulator) rfl

/-- `execute:` of `SimulateLocationCommand`. -/
def SimulateLocationCommand.execute (host : DeviceHost) (args : NSDictionary ArgValue) :
    DeviceProgram IOSReturnStatusCode :=
  match (stringArg args "latitude,longitude").map fun ll => ll.splitOn "," with
  | some [lat, lng] =>
      onDevice host args fun device => do
        callStatus (.simulateLocation device lat lng) rfl
  | _ => return .invalidArguments

/-- `execute:` of `StopSimulatingLocationCommand`. -/
def StopSimulatingLocationCommand.execute (host : DeviceHost) (args : NSDictionary ArgValue) :
    DeviceProgram IOSReturnStatusCode :=
  onDevice host args fun device => do
    callStatus (.stopSimulatingLocation device) rfl

/-- `execute:` of `UninstallAppCommand`. -/
def UninstallAppCommand.execute (host : DeviceHost) (args : NSDictionary ArgValue) :
    DeviceProgram IOSReturnStatusCode :=
  onDevice host args fun device => do
    callStatus (.uninstallApp device (stringArg args bundleIDOptionName)) rfl

/-- `execute:` of `UploadFileCommand`. -/
def UploadFileCommand.execute (host : DeviceHost) (args : NSDictionary ArgValue) :
    DeviceProgram IOSReturnStatusCode :=
  let overwrite := boolArg Commands.uploadFileCommand args "-o" "overwrite"
  onDevice host args fun device => do
    let bundleID := stringArg args bundleIDOptionName
    let installed ← call (.isInstalledWithError device bundleID)
    if installed then
      callStatus (.uploadFile device (stringArg args "file-path") bundleID overwrite) rfl
    else return .false

/-- `execute:` of `UploadXCAppDataBundleCommand`. -/
def UploadXCAppDataBundleCommand.execute (host : DeviceHost) (args : NSDictionary ArgValue) :
    DeviceProgram IOSReturnStatusCode :=
  onDevice host args fun device => do
    let bundleId ← ofHost (bundleIDFromArgs host args)
    match bundleId with
    | none => return .invalidArguments
    | some bundleId =>
        let installed ← call (.isInstalledWithError device bundleId)
        if installed then
          let path ← ofHost (host.expandArgument (stringArg args "file-path"))
          callStatus (.uploadXCAppDataBundle device path bundleId) rfl
        else return .genericFailure

/-- `execute:` of `UploadXCTestConfigurationCommand`. -/
def UploadXCTestConfigurationCommand.execute (host : DeviceHost) (args : NSDictionary ArgValue) :
    DeviceProgram IOSReturnStatusCode :=
  onDevice host args fun device => do
    let autPath ← ofHost (appPathFromArgs host args bundleIDOptionName)
    match autPath with
    | none => return .invalidArguments
    | some autPath =>
        let runnerPath ← ofHost (appPathFromArgs host args runnerBundleIDOptionName)
        match runnerPath with
        | none => return .invalidArguments
        | some runnerPath =>
            let aut ← ofHost (host.withBundlePath (some autPath))
            let code ← callStatus (.installApp device aut .detected [] true) rfl
            if code ≠ .everythingOkay then return .internalError
            else
              let runner ← ofHost (host.withBundlePath (some runnerPath))
              let code ← callStatus (.installApp device runner .detected [] true) rfl
              if code ≠ .everythingOkay then return .internalError
              else
                let staged ← call
                  (.stageXctestConfiguration device runnerPath autPath device.uuid)
                if staged then return .everythingOkay else return .genericFailure

/-- The commands that act through a device. -/
inductive DeviceCommand where
  | appInfo
  | clearAppData
  | downloadXCAppData
  | eraseSimulator
  | generateXCAppData
  | installApp
  | isInstalled
  | killApp
  | killSimulator
  | launchApp
  | launchSimulator
  | simulateLocation
  | stopSimulatingLocation
  | uninstallApp
  | uploadFile
  | uploadXCAppDataBundle
  | uploadXCTestConfiguration
  deriving DecidableEq, Repr

namespace DeviceCommand

/-- `execute:`. -/
def execute (host : DeviceHost) (args : NSDictionary ArgValue) :
    DeviceCommand → DeviceProgram IOSReturnStatusCode
  | appInfo => AppInfoCommand.execute host args
  | clearAppData => ClearAppDataCommand.execute host args
  | downloadXCAppData => DownloadXCAppDataCommand.execute host args
  | eraseSimulator => EraseSimulatorCommand.execute host args
  | generateXCAppData => GenerateXCAppDataCommand.execute args
  | installApp => InstallAppCommand.execute host args
  | isInstalled => IsInstalledCommand.execute host args
  | killApp => KillAppCommand.execute host args
  | killSimulator => KillSimulatorCommand.execute
  | launchApp => LaunchAppCommand.execute host args
  | launchSimulator => LaunchSimulatorCommand.execute host args
  | simulateLocation => SimulateLocationCommand.execute host args
  | stopSimulatingLocation => StopSimulatingLocationCommand.execute host args
  | uninstallApp => UninstallAppCommand.execute host args
  | uploadFile => UploadFileCommand.execute host args
  | uploadXCAppDataBundle => UploadXCAppDataBundleCommand.execute host args
  | uploadXCTestConfiguration => UploadXCTestConfigurationCommand.execute host args

end DeviceCommand

/-! ## The commands that report honestly -/

section Honest

variable {host : DeviceHost} {args : NSDictionary ArgValue} {ok : Bool}

/-- Without a device nothing is called, and the status is no success. -/
theorem honestFrom_onDevice {f : Device → DeviceProgram IOSReturnStatusCode}
    (h : ∀ device, HonestFrom ok (f device)) : HonestFrom ok (onDevice host args f) := by
  unfold onDevice
  rw [honestFrom_ofHost_bind]
  intro device _
  cases device with
  | none => simp
  | some device => exact h device

/-- A look at the installed apps changes nothing. -/
theorem honestFrom_ifInstalled {device : Device} {bundleID : Option String}
    {f : DeviceProgram IOSReturnStatusCode} {code : IOSReturnStatusCode}
    (hf : HonestFrom true f) (hcode : code ≠ .everythingOkay) :
    HonestFrom true (do
      let installed ← call (.isInstalledWithError device bundleID)
      if installed then f else return code) := by
  rw [honestFrom_call_bind]
  intro installed
  cases installed with
  | false => simp [hcode]
  | true => simpa [changesState] using hf

/-- `app-info` only asks. -/
theorem honest_appInfo : HonestFrom true (AppInfoCommand.execute host args) := by
  unfold AppInfoCommand.execute
  split
  · simp
  · rw [honestFrom_ofHost_bind]
    intro app _
    cases app with
    | none => simp
    | some app => simp
  · refine honestFrom_onDevice fun device => honestFrom_ifInstalled ?_ (by decide)
    rw [honestFrom_call_bind]
    intro app
    cases app with
    | none => simp
    | some app => simp [changesState]

/-- `erase-simulator` returns what the erasing returns. -/
theorem honest_eraseSimulator : HonestFrom true (EraseSimulatorCommand.execute host args) := by
  refine honestFrom_onDevice fun device => ?_
  cases device.isPhysicalDevice with
  | true => simp
  | false => exact honestFrom_callStatus _ rfl

/-- `generate-xcappdata` returns what the generation returns. -/
theorem honest_generateXCAppData : HonestFrom true (GenerateXCAppDataCommand.execute args) :=
  honestFrom_callStatus _ rfl

/-- `install` returns what the installation returns. -/
theorem honest_installApp : HonestFrom true (InstallAppCommand.execute host args) := by
  refine honestFrom_onDevice fun device => ?_
  rw [honestFrom_ofHost_bind]
  intro app _
  cases app with
  | none => simp
  | some app =>
    dsimp only
    split
    · simp
    · rw [honestFrom_ofHost_bind]
      exact fun resources _ => honestFrom_callStatus _ rfl

/-- `is-installed` only asks. -/
theorem honest_isInstalled : HonestFrom true (IsInstalledCommand.execute host args) := by
  refine honestFrom_onDevice fun device => ?_
  split
  · simp
  · rw [honestFrom_ofHost_bind]
    exact fun app _ => honestFrom_callStatus _ rfl
  · exact honestFrom_callStatus _ rfl

/-- `kill-app` returns what the ending returns. -/
theorem honest_killApp : HonestFrom true (KillAppCommand.execute host args) :=
  honestFrom_onDevice fun _ => honestFrom_callStatus _ rfl

/-- `kill-simulator` returns what the ending returns. -/
theorem honest_killSimulator : HonestFrom true KillSimulatorCommand.execute :=
  honestFrom_callStatus _ rfl

/-- `launch-app` returns what the launch returns. -/
theorem honest_launchApp : HonestFrom true (LaunchAppCommand.execute host args) :=
  honestFrom_onDevice fun _ => honestFrom_callStatus _ rfl

/-- `launch-simulator` returns what the launch returns, if there is a simulator. -/
theorem honest_launchSimulator : HonestFrom true (LaunchSimulatorCommand.execute host args) := by
  unfold LaunchSimulatorCommand.execute
  rw [honestFrom_ofHost_bind]
  intro simulator _
  cases simulator with
  | none => simp
  | some simulator => exact honestFrom_callStatus _ rfl

/-- `set-location` returns what the simulation returns, for two numbers. -/
theorem honest_simulateLocation :
    HonestFrom true (SimulateLocationCommand.execute host args) := by
  unfold SimulateLocationCommand.execute
  split
  · exact honestFrom_onDevice fun _ => honestFrom_callStatus _ rfl
  · simp

/-- `stop-simulating-location` returns what the end of the simulation returns. -/
theorem honest_stopSimulatingLocation :
    HonestFrom true (StopSimulatingLocationCommand.execute host args) :=
  honestFrom_onDevice fun _ => honestFrom_callStatus _ rfl

/-- `uninstall` returns what the removal returns. -/
theorem honest_uninstallApp : HonestFrom true (UninstallAppCommand.execute host args) :=
  honestFrom_onDevice fun _ => honestFrom_callStatus _ rfl

/-- `upload` uploads only for an app that is installed. -/
theorem honest_uploadFile : HonestFrom true (UploadFileCommand.execute host args) :=
  honestFrom_onDevice fun _ =>
    honestFrom_ifInstalled (honestFrom_callStatus _ rfl) (by decide)

/-- `upload-xcappdata` uploads only for an app that is installed. -/
theorem honest_uploadXCAppDataBundle :
    HonestFrom true (UploadXCAppDataBundleCommand.execute host args) := by
  refine honestFrom_onDevice fun device => ?_
  rw [honestFrom_ofHost_bind]
  intro bundleId _
  cases bundleId with
  | none => simp
  | some bundleId =>
    refine honestFrom_ifInstalled ?_ (by decide)
    rw [honestFrom_ofHost_bind]
    exact fun path _ => honestFrom_callStatus _ rfl

/-- An install call is checked before the program goes on. -/
theorem honestFrom_checkedInstall {device : Device} {app : Option Application}
    {f : DeviceProgram IOSReturnStatusCode} (hf : HonestFrom true f) :
    HonestFrom true (do
      let code ← callStatus (.installApp device app .detected [] true) rfl
      if code ≠ .everythingOkay then return .internalError else f) := by
  rw [honestFrom_callStatus_bind]
  intro code
  by_cases hcode : code = .everythingOkay
  · simpa [hcode] using hf
  · simp [hcode]

/-- `upload-xctestconf` returns what the staging returns. -/
theorem honest_uploadXCTestConfiguration :
    HonestFrom true (UploadXCTestConfigurationCommand.execute host args) := by
  refine honestFrom_onDevice fun device => ?_
  rw [honestFrom_ofHost_bind]
  intro autPath _
  cases autPath with
  | none => simp
  | some autPath =>
    dsimp only
    rw [honestFrom_ofHost_bind]
    intro runnerPath _
    cases runnerPath with
    | none => simp
    | some runnerPath =>
      dsimp only
      rw [honestFrom_ofHost_bind]
      intro aut _
      apply honestFrom_checkedInstall
      rw [honestFrom_ofHost_bind]
      intro runner _
      apply honestFrom_checkedInstall
      rw [honestFrom_call_bind]
      intro staged
      cases staged with
      | false => simp
      | true => simp [ReturnType.isSuccess]

end Honest

end IOSDeviceManager
