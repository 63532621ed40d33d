import IOSDeviceManager.Commands.DeviceCommands

/-! # The commands that drop a status

`clear-app-data` and `download-xcappdata` go on after a call as if it had succeeded. When their
report is honest all the same is said here; with that, when the report of any command is. -/

namespace IOSDeviceManager

open General DeviceProgram DeviceOperation

/-- The command has found the device, and on it the app whose data it is to work on. -/
structure AppDataReached (env : Environment Answer) (host : DeviceHost)
    (args : NSDictionary ArgValue) (device : Device) (bundleId : Option String) : Prop where
  given : ¬ (stringArg args bundleIDOptionName = none ∧ stringArg args appPathOptionName = none)
  identified : bundleIDFromArgs host args = .ok (some bundleId)
  found : deviceFromArgs host args = .ok (some device)
  installed : env [] (.isInstalledWithError device bundleId) = .ok true

/-- There is one device and one app to work on. -/
theorem AppDataReached.unique {env : Environment Answer} {host : DeviceHost}
    {args : NSDictionary ArgValue} {device other : Device} {bundleId otherId : Option String}
    (h : AppDataReached env host args device bundleId)
    (hother : AppDataReached env host args other otherId) :
    other = device ∧ otherId = bundleId := by
  have hfound := hother.found
  have hidentified := hother.identified
  rw [h.found, Except.ok.injEq, Option.some.injEq] at hfound
  rw [h.identified, Except.ok.injEq, Option.some.injEq] at hidentified
  exact ⟨hfound.symm, hidentified.symm⟩

/-- The call that a command makes first on the app it has found. -/
def installedCheck (device : Device) (bundleId : Option String) : History Answer :=
  [⟨.isInstalledWithError device bundleId, .ok true⟩]

section Reached

variable {env : Environment Answer} {host : DeviceHost} {args : NSDictionary ArgValue}
  {f : Device → Option String → DeviceProgram IOSReturnStatusCode}

/-- On an installed app the command goes on with its work. -/
theorem execute_onInstalledApp {device : Device} {bundleId : Option String}
    (h : AppDataReached env host args device bundleId) :
    (onInstalledApp host args f).execute env =
      (f device bundleId).run.run env (installedCheck device bundleId) := by
  have hinstalled := h.installed
  unfold onInstalledApp DeviceProgram.execute
  rw [if_neg h.given, ofHost, h.identified]
  simp [onDevice, ofHost, h.found, call, ExceptT.run_bind, hinstalled, installedCheck]

/-- Otherwise its status is no success. -/
theorem execute_onInstalledApp_ne
    (h : ∀ device bundleId, ¬ AppDataReached env host args device bundleId) :
    ((onInstalledApp host args f).execute env).1 ≠ .ok .everythingOkay := by
  unfold onInstalledApp DeviceProgram.execute
  by_cases hgiven : stringArg args bundleIDOptionName = none ∧
      stringArg args appPathOptionName = none
  · simp [hgiven]
  rw [if_neg hgiven]
  -- one early exit after the other; each has a status of its own, or an exception
  cases hidentified : bundleIDFromArgs host args with
  | error e => simp [ofHost, ExceptT.run_bind]
  | ok bundleId =>
    cases bundleId with
    | none => simp [ofHost, ExceptT.run_bind]
    | some bundleId =>
      cases hfound : deviceFromArgs host args with
      | error e => simp [onDevice, ofHost, hfound, ExceptT.run_bind]
      | ok device =>
        cases device with
        | none => simp [onDevice, ofHost, hfound, ExceptT.run_bind]
        | some device =>
          have hnot : env [] (.isInstalledWithError device bundleId) ≠ .ok true :=
            fun hinstalled => h device bundleId ⟨hgiven, hidentified, hfound, hinstalled⟩
          cases hanswer : env [] (.isInstalledWithError device bundleId) with
          | error e => simp [onDevice, ofHost, hfound, call, ExceptT.run_bind, hanswer]
          | ok installed =>
            cases installed with
            | true => exact absurd hanswer hnot
            | false => simp [onDevice, ofHost, hfound, call, ExceptT.run_bind, hanswer]

/-- **The commands on an installed app.** Their report is honest exactly if it is for the app that
was found, if one was. -/
theorem reportsHonestly_onInstalledApp_iff {P : Device → Option String → Prop}
    (hP : ∀ device bundleId, AppDataReached env host args device bundleId →
      (ReportsHonestly env (onInstalledApp host args f) ↔ P device bundleId)) :
    ReportsHonestly env (onInstalledApp host args f) ↔
      ∀ device bundleId, AppDataReached env host args device bundleId → P device bundleId := by
  by_cases hreached : ∃ device bundleId, AppDataReached env host args device bundleId
  · obtain ⟨device, bundleId, hreached⟩ := hreached
    rw [hP device bundleId hreached]
    constructor
    · intro h other otherId hother
      obtain ⟨rfl, rfl⟩ := hreached.unique hother
      exact h
    · exact fun h => h device bundleId hreached
  · -- the command has ended before, without a success
    rw [not_exists] at hreached
    have hnone : ∀ device bundleId, ¬ AppDataReached env host args device bundleId :=
      fun device => not_exists.mp (hreached device)
    exact iff_of_true (fun hokay => absurd hokay (execute_onInstalledApp_ne hnone))
      fun device bundleId h => absurd h (hnone device bundleId)

/-- Looking for an app is no failure. -/
theorem not_failed_installedCheck (device : Device) (bundleId : Option String) :
    ∀ call ∈ installedCheck device bundleId, ¬ Failed call := by
  intro call hcall hfailed
  obtain rfl := List.mem_singleton.mp hcall
  exact Bool.noConfusion hfailed.1

end Reached

/-! ## `clear-app-data` -/

namespace ClearAppDataCommand

/-- The call that generates the empty bundle. -/
def generate (host : DeviceHost) : DeviceOperation :=
  .generateXCAppDataBundle (some (emptyXcappdataPath host)) true

/-- The call that uploads the empty bundle. -/
def upload (host : DeviceHost) (device : Device) (bundleId : Option String) : DeviceOperation :=
  .uploadXCAppDataBundle device (emptyXcappdataPath host) bundleId

/-- What the two calls return, if neither raises, is a success both times. -/
def DroppedOkay (env : Environment Answer) (host : DeviceHost) (device : Device)
    (bundleId : Option String) : Prop :=
  ∀ generated uploaded : IOSReturnStatusCode,
    env (installedCheck device bundleId) (generate host) = .ok generated →
    env (installedCheck device bundleId ++ [⟨generate host, .ok generated⟩])
      (upload host device bundleId) = .ok uploaded →
    generated = .everythingOkay ∧ uploaded = .everythingOkay

/-- The work on an app that was found. -/
theorem run_clear (env : Environment Answer) (host : DeviceHost) (device : Device)
    (bundleId : Option String) (history : History Answer) :
    (tryCatch
        (do
          let _ ← callStatus (generate host) rfl
          let _ ← callStatus (upload host device bundleId) rfl
          return IOSReturnStatusCode.everythingOkay)
        fun _ => return .internalError : DeviceProgram IOSReturnStatusCode).run.run env history =
      match env history (generate host) with
      | .error e => (.ok .internalError, history ++ [⟨generate host, .error e⟩])
      | .ok generated =>
          let later := history ++ [⟨generate host, .ok generated⟩]
          match env later (upload host device bundleId) with
          | .error e =>
              (.ok .internalError, later ++ [⟨upload host device bundleId, .error e⟩])
          | .ok uploaded =>
              (.ok .everythingOkay, later ++ [⟨upload host device bundleId, .ok uploaded⟩]) := by
  -- the status of a call is not looked at
  have hcalls : (do
      let _ ← callStatus (generate host) rfl
      let _ ← callStatus (upload host device bundleId) rfl
      return IOSReturnStatusCode.everythingOkay : DeviceProgram IOSReturnStatusCode) = do
      let _ ← call (generate host)
      let _ ← call (upload host device bundleId)
      return IOSReturnStatusCode.everythingOkay := rfl
  rw [hcalls, run_tryCatch, run_call_bind]
  cases hgenerated : env history (generate host) with
  | error e => simp
  | ok generated =>
    simp only [run_call_bind]
    cases huploaded : env (history ++ [⟨generate host, .ok generated⟩])
        (upload host device bundleId) with
    | error e => simp
    | ok uploaded => simp

/-- **When clearing reports honestly.** -/
theorem honest_iff {env : Environment Answer} {host : DeviceHost}
    {args : NSDictionary ArgValue} :
    ReportsHonestly env (execute host args) ↔
      ∀ device bundleId, AppDataReached env host args device bundleId →
        DroppedOkay env host device bundleId := by
  refine reportsHonestly_onInstalledApp_iff fun device bundleId hreached => ?_
  have hrun : (execute host args).execute env = _ :=
    (execute_onInstalledApp hreached).trans (run_clear env host device bundleId _)
  change ReportsHonestly env (execute host args) ↔ _
  rw [ReportsHonestly, hrun]
  unfold DroppedOkay
  cases hgenerated : env (installedCheck device bundleId) (generate host) with
  | error e => simp
  | ok generated =>
    dsimp only
    have hgenerate : ¬ Failed ⟨generate host, .ok generated⟩ ↔ generated = .everythingOkay :=
      (not_congr (failed_ok_iff rfl generated)).trans
        (ReturnType.not_isSuccess_status_iff generated)
    cases huploaded : env (installedCheck device bundleId ++ [⟨generate host, .ok generated⟩])
        (upload host device bundleId) with
    | error e =>
      -- the handler returns an internal error, which makes up for what was generated
      refine iff_of_true (by simp) fun first second hfirst hsecond => ?_
      cases hfirst
      rw [huploaded] at hsecond
      cases hsecond
    | ok uploaded =>
      have hupload : ¬ Failed ⟨upload host device bundleId, .ok uploaded⟩ ↔
          uploaded = .everythingOkay :=
        (not_congr (failed_ok_iff rfl uploaded)).trans
          (ReturnType.not_isSuccess_status_iff uploaded)
      simp only [true_imp_iff, List.forall_mem_append, List.forall_mem_singleton, hgenerate,
        hupload, iff_true_intro (not_failed_installedCheck device bundleId), true_and]
      constructor
      · intro h first second hfirst hsecond
        cases hfirst
        rw [huploaded] at hsecond
        cases hsecond
        exact h
      · exact fun h => h generated uploaded rfl huploaded

end ClearAppDataCommand

/-! ## `download-xcappdata` -/

namespace DownloadXCAppDataCommand

/-- The call that downloads the data. -/
def download (args : NSDictionary ArgValue) (device : Device) (bundleId : Option String) :
    DeviceOperation :=
  .downloadXCAppDataBundle device bundleId (stringArg args "download-path")

/-- What the call returns, if it does not raise, is a success. -/
def DroppedOkay (env : Environment Answer) (args : NSDictionary ArgValue) (device : Device)
    (bundleId : Option String) : Prop :=
  ∀ code : IOSReturnStatusCode,
    env (installedCheck device bundleId) (download args device bundleId) = .ok code →
      code = .everythingOkay

/-- **When downloading reports honestly.** -/
theorem honest_iff {env : Environment Answer} {host : DeviceHost}
    {args : NSDictionary ArgValue} :
    ReportsHonestly env (execute host args) ↔
      ∀ device bundleId, AppDataReached env host args device bundleId →
        DroppedOkay env args device bundleId := by
  refine reportsHonestly_onInstalledApp_iff fun device bundleId hreached => ?_
  have hrun : (execute host args).execute env = _ :=
    (execute_onInstalledApp hreached).trans
      (run_call_bind (download args device bundleId) fun _ =>
        pure IOSReturnStatusCode.everythingOkay)
  change ReportsHonestly env (execute host args) ↔ _
  rw [ReportsHonestly, hrun]
  unfold DroppedOkay
  cases hanswer : env (installedCheck device bundleId) (download args device bundleId) with
  | error e => simp
  | ok code =>
    have hdownload : ¬ Failed ⟨download args device bundleId, .ok code⟩ ↔
        code = .everythingOkay :=
      (not_congr (failed_ok_iff rfl code)).trans (ReturnType.not_isSuccess_status_iff code)
    simp only [ExceptT.run_pure, Interaction.run_pure, true_imp_iff, List.forall_mem_append,
      List.forall_mem_singleton, hdownload,
      iff_true_intro (not_failed_installedCheck device bundleId), true_and]
    constructor
    · intro h other hother
      cases hother
      exact h
    · exact fun h => h code rfl

end DownloadXCAppDataCommand

/-! ## All commands -/

namespace DeviceCommand

/-- The statuses that a command drops, if it drops any, are those of successes, or an exception
makes up for them: a condition on what the devices answer to a command that has found its app. -/
def DroppedOkay (cmd : DeviceCommand) (env : Environment Answer) (host : DeviceHost)
    (args : NSDictionary ArgValue) : Prop :=
  match cmd with
  | clearAppData => ∀ device bundleId, AppDataReached env host args device bundleId →
      ClearAppDataCommand.DroppedOkay env host device bundleId
  | downloadXCAppData => ∀ device bundleId, AppDataReached env host args device bundleId →
      DownloadXCAppDataCommand.DroppedOkay env args device bundleId
  | _ => True

/-- **When a command reports a success only if the device did.** For every command, all arguments,
every host and whatever the devices do: always, but for the two commands that drop a status. -/
theorem reportsHonestly_iff (cmd : DeviceCommand) (host : DeviceHost)
    (args : NSDictionary ArgValue) (env : Environment Answer) :
    ReportsHonestly env (cmd.execute host args) ↔ cmd.DroppedOkay env host args := by
  cases cmd with
  | clearAppData => exact ClearAppDataCommand.honest_iff
  | downloadXCAppData => exact DownloadXCAppDataCommand.honest_iff
  | appInfo => exact iff_of_true (honest_appInfo.reportsHonestly env) trivial
  | eraseSimulator => exact iff_of_true (honest_eraseSimulator.reportsHonestly env) trivial
  | generateXCAppData => exact iff_of_true (honest_generateXCAppData.reportsHonestly env) trivial
  | installApp => exact iff_of_true (honest_installApp.reportsHonestly env) trivial
  | isInstalled => exact iff_of_true (honest_isInstalled.reportsHonestly env) trivial
  | killApp => exact iff_of_true (honest_killApp.reportsHonestly env) trivial
  | killSimulator => exact iff_of_true (honest_killSimulator.reportsHonestly env) trivial
  | launchApp => exact iff_of_true (honest_launchApp.reportsHonestly env) trivial
  | launchSimulator => exact iff_of_true (honest_launchSimulator.reportsHonestly env) trivial
  | simulateLocation => exact iff_of_true (honest_simulateLocation.reportsHonestly env) trivial
  | stopSimulatingLocation =>
    exact iff_of_true (honest_stopSimulatingLocation.reportsHonestly env) trivial
  | uninstallApp => exact iff_of_true (honest_uninstallApp.reportsHonestly env) trivial
  | uploadFile => exact iff_of_true (honest_uploadFile.reportsHonestly env) trivial
  | uploadXCAppDataBundle =>
    exact iff_of_true (honest_uploadXCAppDataBundle.reportsHonestly env) trivial
  | uploadXCTestConfiguration =>
    exact iff_of_true (honest_uploadXCTestConfiguration.reportsHonestly env) trivial

/-! ### A device on which nothing works -/

/-- `clear-app-data com.my.app -d` with the simulator. -/
def clearAppDataArgs : NSDictionary ArgValue :=
  (NSDictionary.empty.setObject bundleIDOptionName (.string "com.my.app")).setObject
    deviceIDOptionName (.string sampleSimulatorID)

/-- **A failure reported as a success.** No empty bundle can be generated or uploaded, and
`clear-app-data` returns `iOSReturnStatusCodeEverythingOkay`. -/
theorem clearAppData_hides_failures :
    ((clearAppData.execute oneSimulatorHost clearAppDataArgs).execute
          (constantDevices .genericFailure)).1 = .ok .everythingOkay ∧
      ¬ ReportsHonestly (constantDevices .genericFailure)
        (clearAppData.execute oneSimulatorHost clearAppDataArgs) := by
  refine ⟨by decide +kernel, fun h => ?_⟩
  have hreached : AppDataReached (constantDevices .genericFailure) oneSimulatorHost clearAppDataArgs
      (.simulator sampleSimulatorID) (some "com.my.app") :=
    ⟨by decide, by decide +kernel, by decide +kernel, rfl⟩
  have hokay := ClearAppDataCommand.honest_iff.mp h _ _ hreached .genericFailure .genericFailure
    rfl rfl
  exact absurd hokay.1 (by decide)

end DeviceCommand

end IOSDeviceManager
