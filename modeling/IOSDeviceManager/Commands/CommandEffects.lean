import IOSDeviceManager.Commands.Program
import IOSDeviceManager.Devices.DeviceEffects

/-! # What the commands bring about

Whatever is answered, a run of the program keeps within the permission of its command. It starts and
changes no device but the one that the value of the device option designates, or the default where
the option is missing, and closes no simulator but that one and those that it was listed before. -/

namespace IOSDeviceManager

open General Interaction DeviceProgram

namespace DeviceProgram

/-- Whatever is answered, the program only calls certain operations. -/
abbrev Calls {α : Type} (P : DeviceOperation → Prop) (p : DeviceProgram α) : Prop :=
  AsksOnly P p.run

variable {P : DeviceOperation → Prop} {α β : Type}

/-- A call whose status is the result. -/
theorem calls_callStatus {operation : DeviceOperation} (hstatus : operation.returnType = .status)
    (h : P operation) : Calls P (callStatus operation hstatus) := by
  cases operation with
  | isInstalledWithError => cases hstatus
  | stageXctestConfiguration => cases hstatus
  | installedApp => cases hstatus
  | _ => exact asksUnder_request.mpr h

/-- A call, and what is called after it. -/
theorem calls_call_bind {operation : DeviceOperation}
    {f : operation.returnType.Value → DeviceProgram α} (h : P operation)
    (hf : ∀ value, Calls P (f value)) : Calls P (call operation >>= f) :=
  AsksUnder.bindExcept (asksUnder_request.mpr h) hf

/-- What the host computes calls nothing. -/
theorem calls_ofHost_bind {x : Except NSException β} {f : β → DeviceProgram α}
    (hf : ∀ value, x = .ok value → Calls P (f value)) : Calls P (ofHost x >>= f) := by
  cases x with
  | error e => exact asksUnder_pure _
  | ok value => exact hf value rfl

/-- What is called when an exception is caught counts too. -/
theorem calls_tryCatch {p : DeviceProgram α} {handler : NSException → DeviceProgram α}
    (hp : Calls P p) (hhandler : ∀ e, Calls P (handler e)) : Calls P (tryCatch p handler) := by
  show AsksOnly P (tryCatch p handler).run
  rw [ExceptT.run_tryCatch]
  refine hp.bind fun result => ?_
  cases result with
  | error e => exact hhandler e
  | ok value => exact asksUnder_pure _

end DeviceProgram

namespace DeviceCommand

/-- The permission of a command. -/
def permission : DeviceCommand → Permission
  | appInfo | generateXCAppData => ⟨false, false, false⟩
  | isInstalled | launchSimulator => ⟨true, false, false⟩
  | clearAppData | downloadXCAppData | killApp | stopSimulatingLocation | uploadFile
  | uploadXCAppDataBundle => ⟨false, true, false⟩
  | killSimulator => ⟨false, false, true⟩
  | launchApp | simulateLocation => ⟨true, true, false⟩
  | eraseSimulator => ⟨false, true, true⟩
  | installApp | uninstallApp | uploadXCTestConfiguration => ⟨true, true, true⟩

/-- The device of a command. -/
def deviceOf (host : DeviceHost) (args : NSDictionary ArgValue) :
    DeviceCommand → Except NSException (Option Device)
  | launchSimulator => simulatorFromArgs host args
  | _ => deviceFromArgs host args

/-- The command may call an operation: its permission includes that of the operation, which is sent
to its device. -/
def MayCall (host : DeviceHost) (args : NSDictionary ArgValue) (deviceCommand : DeviceCommand)
    (operation : DeviceOperation) : Prop :=
  deviceCommand.permission.includes operation.permission = true ∧
    ∀ device, operation.device = some device → deviceCommand.deviceOf host args = .ok (some device)

section Calls

/-- A call on the device of the command. -/
theorem mayCall {host : DeviceHost} {args : NSDictionary ArgValue} {deviceCommand : DeviceCommand}
    {operation : DeviceOperation} {device : Device}
    (hdevice : deviceCommand.deviceOf host args = .ok (some device))
    (hincludes : deviceCommand.permission.includes operation.permission = true)
    (hsent : operation.device = some device) : deviceCommand.MayCall host args operation := by
  refine ⟨hincludes, fun other hother => ?_⟩
  obtain rfl : device = other := Option.some.inj (hsent.symm.trans hother)
  exact hdevice

/-- A call on no device. -/
theorem mayCall_of_none {host : DeviceHost} {args : NSDictionary ArgValue}
    {deviceCommand : DeviceCommand} {operation : DeviceOperation}
    (hincludes : deviceCommand.permission.includes operation.permission = true)
    (hsent : operation.device = none) : deviceCommand.MayCall host args operation := by
  refine ⟨hincludes, fun other hother => ?_⟩
  rw [hsent] at hother
  cases hother

variable {host : DeviceHost} {args : NSDictionary ArgValue} {P : DeviceOperation → Prop}

/-- A command that starts with its device. -/
theorem calls_onDevice {f : Device → DeviceProgram IOSReturnStatusCode}
    (hf : ∀ device, deviceFromArgs host args = .ok (some device) → Calls P (f device)) :
    Calls P (onDevice host args f) := by
  refine calls_ofHost_bind fun device hdevice => ?_
  cases device with
  | none => exact asksUnder_pure _
  | some device => exact hf device hdevice

/-- A command on the data of an installed app looks for the app first. -/
theorem calls_onInstalledApp {f : Device → Option String → DeviceProgram IOSReturnStatusCode}
    (hlook : ∀ device bundleID, deviceFromArgs host args = .ok (some device) →
      P (.isInstalledWithError device bundleID))
    (hf : ∀ device bundleID, deviceFromArgs host args = .ok (some device) →
      Calls P (f device bundleID)) : Calls P (onInstalledApp host args f) := by
  unfold onInstalledApp
  refine AsksUnder.ite (asksUnder_pure _) (calls_ofHost_bind fun bundleId _ => ?_)
  cases bundleId with
  | none => exact asksUnder_pure _
  | some bundleId =>
    refine calls_onDevice fun device hdevice => calls_call_bind (hlook _ _ hdevice) fun _ => ?_
    exact AsksUnder.ite (hf device bundleId hdevice) (asksUnder_pure _)

/-- The calls of `app-info`. -/
theorem calls_appInfo : Calls (appInfo.MayCall host args) (AppInfoCommand.execute host args) := by
  unfold AppInfoCommand.execute
  split
  · exact asksUnder_pure _
  · refine calls_ofHost_bind fun app _ => ?_
    cases app with
    | none => exact asksUnder_pure _
    | some app => exact asksUnder_pure _
  · refine calls_onDevice fun device hd => calls_call_bind (mayCall hd rfl rfl) ?_
    refine fun installed => AsksUnder.ite ?_ (asksUnder_pure _)
    refine calls_call_bind (mayCall hd rfl rfl) fun app => ?_
    cases app with
    | none => exact asksUnder_pure _
    | some app => exact asksUnder_pure _

/-- The calls of `clear-app-data`. -/
theorem calls_clearAppData :
    Calls (clearAppData.MayCall host args) (ClearAppDataCommand.execute host args) := by
  refine calls_onInstalledApp (fun _ _ hd => mayCall hd rfl rfl)
    fun device bundleID hd => calls_tryCatch ?_ fun _ => asksUnder_pure _
  refine AsksUnder.bindExcept (calls_callStatus _ (mayCall_of_none rfl rfl)) fun _ => ?_
  exact AsksUnder.bindExcept (calls_callStatus _ (mayCall hd rfl rfl)) fun _ => asksUnder_pure _

/-- The calls of `install`. -/
theorem calls_installApp :
    Calls (installApp.MayCall host args) (InstallAppCommand.execute host args) := by
  refine calls_onDevice fun device hd => calls_ofHost_bind fun app _ => ?_
  cases app with
  | none => exact asksUnder_pure _
  | some app =>
    refine AsksUnder.ite (asksUnder_pure _) (calls_ofHost_bind fun resources _ => ?_)
    exact calls_callStatus _ (mayCall hd rfl rfl)

/-- The calls of `is-installed`. -/
theorem calls_isInstalled :
    Calls (isInstalled.MayCall host args) (IsInstalledCommand.execute host args) := by
  refine calls_onDevice fun device hd => ?_
  split
  · exact asksUnder_pure _
  · exact calls_ofHost_bind fun app _ => calls_callStatus _ (mayCall hd rfl rfl)
  · exact calls_callStatus _ (mayCall hd rfl rfl)

/-- The calls of `launch-simulator`. -/
theorem calls_launchSimulator :
    Calls (launchSimulator.MayCall host args) (LaunchSimulatorCommand.execute host args) := by
  refine calls_ofHost_bind fun simulator hd => ?_
  cases simulator with
  | none => exact asksUnder_pure _
  | some simulator => exact calls_callStatus _ (mayCall hd rfl rfl)

/-- The calls of `upload-xcappdata`. -/
theorem calls_uploadXCAppDataBundle : Calls (uploadXCAppDataBundle.MayCall host args)
    (UploadXCAppDataBundleCommand.execute host args) := by
  refine calls_onDevice fun device hd => calls_ofHost_bind fun bundleId _ => ?_
  cases bundleId with
  | none => exact asksUnder_pure _
  | some bundleId =>
    refine calls_call_bind (mayCall hd rfl rfl) fun installed => ?_
    refine AsksUnder.ite (calls_ofHost_bind fun path _ => ?_) (asksUnder_pure _)
    exact calls_callStatus _ (mayCall hd rfl rfl)

/-- The calls of `upload-xctestconf`. -/
theorem calls_uploadXCTestConfiguration : Calls (uploadXCTestConfiguration.MayCall host args)
    (UploadXCTestConfigurationCommand.execute host args) := by
  refine calls_onDevice fun device hd => calls_ofHost_bind fun autPath _ => ?_
  cases autPath with
  | none => exact asksUnder_pure _
  | some autPath =>
    refine calls_ofHost_bind fun runnerPath _ => ?_
    cases runnerPath with
    | none => exact asksUnder_pure _
    | some runnerPath =>
      refine calls_ofHost_bind fun aut _ => ?_
      refine AsksUnder.bindExcept (calls_callStatus _ (mayCall hd rfl rfl)) ?_
      refine fun code => AsksUnder.ite (asksUnder_pure _) (calls_ofHost_bind fun runner _ => ?_)
      refine AsksUnder.bindExcept (calls_callStatus _ (mayCall hd rfl rfl)) ?_
      refine fun code => AsksUnder.ite (asksUnder_pure _) ?_
      refine calls_call_bind (mayCall hd rfl rfl) fun staged => ?_
      exact (asksUnder_pure _).ite (asksUnder_pure _)

/-- A command that calls one operation on its device. -/
theorem calls_onDevice_callStatus {deviceCommand : DeviceCommand}
    {operation : Device → DeviceOperation}
    {hstatus : ∀ device, (operation device).returnType = .status}
    (hdevice : deviceCommand.deviceOf host args = deviceFromArgs host args)
    (hincludes : ∀ device, deviceCommand.permission.includes (operation device).permission = true)
    (hsent : ∀ device, (operation device).device = some device) :
    Calls (deviceCommand.MayCall host args)
      (onDevice host args fun device => callStatus (operation device) (hstatus device)) :=
  calls_onDevice fun device hd =>
    calls_callStatus _ (mayCall (hdevice.trans hd) (hincludes device) (hsent device))

/-- **The permission of a command.** Whatever is answered, a command only calls operations within
its permission, on its device. -/
theorem calls_execute (deviceCommand : DeviceCommand) :
    Calls (deviceCommand.MayCall host args) (deviceCommand.execute host args) := by
  -- for each command, the calls of its program
  cases deviceCommand with
  | appInfo => exact calls_appInfo
  | clearAppData => exact calls_clearAppData
  | downloadXCAppData =>
    refine calls_onInstalledApp (fun _ _ hd => mayCall hd rfl rfl) fun device bundleID hd => ?_
    exact AsksUnder.bindExcept (calls_callStatus _ (mayCall hd rfl rfl)) fun _ => asksUnder_pure _
  | eraseSimulator =>
    refine calls_onDevice fun device hd => AsksUnder.ite (asksUnder_pure _) ?_
    exact calls_callStatus _ (mayCall hd rfl rfl)
  | generateXCAppData =>
    show Calls _ (callStatus (.generateXCAppDataBundle _ _) rfl)
    exact calls_callStatus rfl (mayCall_of_none rfl rfl)
  | installApp => exact calls_installApp
  | isInstalled => exact calls_isInstalled
  | killApp => exact calls_onDevice_callStatus rfl (fun _ => rfl) fun _ => rfl
  | killSimulator =>
    show Calls _ (callStatus .killSimulatorApp rfl)
    exact calls_callStatus rfl (mayCall_of_none rfl rfl)
  | launchApp => exact calls_onDevice_callStatus rfl (fun _ => rfl) fun _ => rfl
  | launchSimulator => exact calls_launchSimulator
  | simulateLocation =>
    show Calls _ (SimulateLocationCommand.execute host args)
    unfold SimulateLocationCommand.execute
    split
    · exact calls_onDevice_callStatus rfl (fun _ => rfl) fun _ => rfl
    · exact asksUnder_pure _
  | stopSimulatingLocation => exact calls_onDevice_callStatus rfl (fun _ => rfl) fun _ => rfl
  | uninstallApp => exact calls_onDevice_callStatus rfl (fun _ => rfl) fun _ => rfl
  | uploadFile =>
    refine calls_onDevice fun device hd => calls_call_bind (mayCall hd rfl rfl) ?_
    refine fun installed => AsksUnder.ite ?_ (asksUnder_pure _)
    exact calls_callStatus _ (mayCall hd rfl rfl)
  | uploadXCAppDataBundle => exact calls_uploadXCAppDataBundle
  | uploadXCTestConfiguration => exact calls_uploadXCTestConfiguration

end Calls

/-- The identifier that a command line gives with the device option. -/
def givenIdentifier (deviceCommand : DeviceCommand) (cmdArgs : List String) : Option String :=
  stringArg ((CLI.parseArgs deviceCommand.command cmdArgs).values.getD .empty) deviceIDOptionName

/-- The identifier of the default device, for `launch-simulator` of the default simulator. -/
def defaultIdentifier (host : DeviceHost) : DeviceCommand → Except NSException String
  | launchSimulator => host.defaultSimulatorID
  | _ => DeviceUtils.defaultDeviceID host

/-- The command line designates a device: the one with the identifier that it gives or, for a
command that does not require one and where none is given, the default. -/
inductive Designates (host : DeviceHost) (deviceCommand : DeviceCommand) (cmdArgs : List String)
    (device : Device) : Prop
  | named {identifier : String} (hgiven : deviceCommand.givenIdentifier cmdArgs = some identifier)
      (harg : identifier ∈ cmdArgs) (hfound : Device.withID host identifier = .ok (some device))
  | default {identifier : String} (hmissing : deviceCommand.givenIdentifier cmdArgs = none)
      (hoptional : ∀ op ∈ deviceCommand.command.options, op.optionName = deviceIDOptionName →
        op.required = false)
      (hdefault : deviceCommand.defaultIdentifier host = .ok identifier)
      (hfound : Device.withID host identifier = .ok (some device))

/-- It designates one device at most. -/
theorem Designates.unique {host : DeviceHost} {deviceCommand : DeviceCommand}
    {cmdArgs : List String} {device other : Device}
    (h : Designates host deviceCommand cmdArgs device)
    (h' : Designates host deviceCommand cmdArgs other) : device = other := by
  cases h with
  | named hgiven _ hfound =>
    cases h' with
    | named hgiven' _ hfound' =>
      obtain rfl := Option.some.inj (hgiven.symm.trans hgiven')
      exact Option.some.inj (Except.ok.inj (hfound.symm.trans hfound'))
    | default hmissing => exact nomatch hgiven.symm.trans hmissing
  | default hmissing _ hdefault hfound =>
    cases h' with
    | named hgiven => exact nomatch hgiven.symm.trans hmissing
    | default _ _ hdefault' hfound' =>
      obtain rfl := Except.ok.inj (hdefault.symm.trans hdefault')
      exact Option.some.inj (Except.ok.inj (hfound.symm.trans hfound'))

/-- The device option of every command takes a value. -/
theorem requiresArgument_deviceID (deviceCommand : DeviceCommand) :
    ∀ op ∈ deviceCommand.command.options, op.optionName = deviceIDOptionName →
      op.requiresArgument = true := by
  cases deviceCommand <;> decide +kernel

/-- The device of a command is found by the identifier in its arguments, or by a default. -/
theorem exists_identifier {host : DeviceHost} {args : NSDictionary ArgValue} {device : Device}
    {deviceCommand : DeviceCommand}
    (hdevice : deviceCommand.deviceOf host args = .ok (some device)) :
    ∃ identifier, Device.withID host identifier = .ok (some device) ∧
      match stringArg args deviceIDOptionName with
      | some bound => identifier = bound
      | none => deviceCommand.defaultIdentifier host = .ok identifier := by
  have hbind : ∀ {x : Except NSException String} {f : String → Except NSException (Option Device)},
      (x >>= f) = .ok (some device) → ∃ identifier, x = .ok identifier ∧
        f identifier = .ok (some device) := by
    intro x f h
    cases x with
    | error e => cases h
    | ok identifier => exact ⟨identifier, rfl, h⟩
  by_cases hlaunch : deviceCommand = launchSimulator
  · subst hlaunch
    -- the identifier has to be that of a simulator
    have hguard : ∀ identifier,
        (do
          if !DeviceUtils.isSimulatorID identifier then
            throw (.named "InvalidArgumentException"
              "The specified device id does not match a simulator id")
          Device.withID host identifier : Except NSException (Option Device)) = .ok (some device) →
          Device.withID host identifier = .ok (some device) := by
      intro identifier h
      cases hsim : DeviceUtils.isSimulatorID identifier with
      | true => simpa [hsim] using h
      | false =>
        rw [hsim] at h
        cases h
    cases hbound : stringArg args deviceIDOptionName with
    | some bound =>
      simp only [deviceOf, simulatorFromArgs, hbound] at hdevice
      exact ⟨bound, hguard bound hdevice, rfl⟩
    | none =>
      simp only [deviceOf, simulatorFromArgs, hbound] at hdevice
      obtain ⟨identifier, hdefault, hrest⟩ := hbind hdevice
      exact ⟨identifier, hguard identifier hrest, hdefault⟩
  · have hargs : deviceFromArgs host args = .ok (some device) := by
      cases deviceCommand with
      | launchSimulator => exact absurd rfl hlaunch
      | _ => exact hdevice
    have hidentifier : deviceCommand.defaultIdentifier host = DeviceUtils.defaultDeviceID host := by
      cases deviceCommand with
      | launchSimulator => exact absurd rfl hlaunch
      | _ => rfl
    cases hbound : stringArg args deviceIDOptionName with
    | some bound =>
      simp only [deviceFromArgs, hbound] at hargs
      exact ⟨bound, hargs, rfl⟩
    | none =>
      simp only [deviceFromArgs, hbound] at hargs
      obtain ⟨identifier, hdefault, hfound⟩ := hbind hargs
      exact ⟨identifier, hfound, hidentifier.trans hdefault⟩

end DeviceCommand

namespace CLI

open DeviceCommand

/-- The device that a command finds is one that the command line designates. -/
theorem designates_of_deviceOf {host : DeviceHost} {deviceCommand : DeviceCommand}
    {cmdArgs : List String} {device : Device}
    (hokay : (parseArgs deviceCommand.command cmdArgs).exitCode = .everythingOkay)
    (hrequired : deviceCommand.command.options.find? (fun op => op.required && !hasKey
      ((parseArgs deviceCommand.command cmdArgs).values.getD .empty) op.optionName) = none)
    (hdevice : deviceCommand.deviceOf host
      ((parseArgs deviceCommand.command cmdArgs).values.getD .empty) = .ok (some device)) :
    Designates host deviceCommand cmdArgs device := by
  obtain ⟨identifier, hfound, hidentifier⟩ := exists_identifier hdevice
  cases hbound : stringArg ((parseArgs deviceCommand.command cmdArgs).values.getD .empty)
      deviceIDOptionName with
  | some bound =>
    rw [hbound] at hidentifier
    subst hidentifier
    exact .named hbound (stringArg_mem hokay hbound) hfound
  | none =>
    rw [hbound] at hidentifier
    refine .default hbound (fun op hop hname => ?_) hidentifier hfound
    -- a required option would be bound, and to a text
    cases hreq : op.required with
    | false => rfl
    | true =>
      have hcheck := List.find?_eq_none.mp hrequired op hop
      have hkey : hasKey ((parseArgs deviceCommand.command cmdArgs).values.getD .empty)
          deviceIDOptionName = true := by
        simpa [hreq, hname] using hcheck
      have hsome :=
        isSome_stringArg hokay (requiresArgument_deviceID deviceCommand) (by decide) hkey
      rw [hbound] at hsome
      cases hsome

/-- A class that acts through a device is that of its command. -/
theorem command_of_ofCommand : ∀ cmd ∈ Commands.commandClasses,
    ∀ deviceCommand ∈ ofCommand cmd, deviceCommand.command = cmd := by
  decide +kernel

/-- The simulator is on a list of all simulators that was answered. -/
def Listed (answered : History MethodRequest.Answer) (udid : String) : Prop :=
  ∃ results : List String, udid ∈ results ∧
    (⟨.simulator .allSimulators, results⟩ : Sigma MethodRequest.Answer) ∈ answered

/-- What was answered lists what was listed. -/
theorem listsOnly_of_mem {answered : History MethodRequest.Answer}
    {exchange : Sigma MethodRequest.Answer} (hmem : exchange ∈ answered) :
    MethodProgram.ListsOnly (Listed answered) exchange := by
  unfold MethodProgram.ListsOnly
  split
  · rename_i r answer
    unfold Simulator.ListsOnly
    split
    · rename_i results heq
      cases heq
      exact fun udid hudid => ⟨results, hudid, hmem⟩
    · trivial
  · trivial

/-- **What a run brings about.** For every host, every environment and every command line: each
request that is made is one of a command that was executed, within the permission of that command.
What it starts or changes is the device that the command line designates, and what it closes is that
one or a simulator that was listed before. -/
theorem main_within_permission {host : ProgramHost} {env : Environment MethodRequest.Answer}
    {argv : List String} {before after : History MethodRequest.Answer}
    {exchange : Sigma MethodRequest.Answer}
    (hrun : (main host env argv).2 = before ++ exchange :: after) :
    ∃ deviceCommand cmdArgs,
      Executes host argv (DeviceCommand.command deviceCommand) cmdArgs ∧
        (DeviceCommand.permission deviceCommand).Allows
          (Designates host.toDeviceHost deviceCommand cmdArgs) (Listed before)
          exchange.1.effect := by
  simp only [main, requests] at hrun
  split at hrun
  · rename_i cmd args hexecuted
    obtain ⟨cmdArgs, hexecutes, rfl⟩ := executes_of_process hexecuted
    unfold execute at hrun
    split at hrun
    · rename_i deviceCommand hcommand
      obtain ⟨_, _, _, hnamed⟩ := hexecutes.argv_eq
      obtain rfl := command_of_ofCommand cmd (List.mem_of_find?_eq_some hnamed) _ hcommand
      refine ⟨deviceCommand, cmdArgs, hexecutes, ?_⟩
      -- each call is within the permission of the command, and each request within that of the call
      have hwithin : MethodProgram.Within (Listed before) (deviceCommand.permission.Allows
          (Designates host.toDeviceHost deviceCommand cmdArgs) (Listed before))
          (Device.performAll host.toDeviceHost (deviceCommand.execute host.toDeviceHost
            ((parseArgs deviceCommand.command cmdArgs).values.getD .empty))) := by
        refine (calls_execute deviceCommand).handleWith fun operation hmay => ?_
        refine (Device.within_perform host.toDeviceHost (Listed before) operation).mono
          fun r hallows => ?_
        refine hallows.mono hmay.1 fun device hdevice => ?_
        exact designates_of_deviceOf hexecutes.okay hexecutes.complete (hmay.2 device hdevice)
      exact hwithin.of_run_eq hrun fun _ hmem => listsOnly_of_mem hmem
    · simp [MethodProgram.ofHost] at hrun
  · simp at hrun

/-- An application is installed on the simulator that the command line names. -/
theorem main_within_permission_install :
    ∃ before exchange after,
      (main oneAppHost obligingSimulator uploadXCTestConfigurationArgv).2 =
          before ++ exchange :: after ∧
        exchange.1.effect = .changes (.simulator sampleSimulatorID) ∧
        ∃ deviceCommand cmdArgs,
          Executes oneAppHost uploadXCTestConfigurationArgv
              (DeviceCommand.command deviceCommand) cmdArgs ∧
            (DeviceCommand.permission deviceCommand).Allows
              (Designates oneAppHost.toDeviceHost deviceCommand cmdArgs) (Listed before)
              exchange.1.effect := by
  have hlength : 7 < (main oneAppHost obligingSimulator uploadXCTestConfigurationArgv).2.length :=
    by decide
  have hrun : (main oneAppHost obligingSimulator uploadXCTestConfigurationArgv).2 =
      (main oneAppHost obligingSimulator uploadXCTestConfigurationArgv).2.take 7 ++
        (main oneAppHost obligingSimulator uploadXCTestConfigurationArgv).2[7] ::
          (main oneAppHost obligingSimulator uploadXCTestConfigurationArgv).2.drop 8 := by
    rw [← List.drop_eq_getElem_cons hlength, List.take_append_drop]
  exact ⟨_, _, _, hrun, rfl, main_within_permission hrun⟩

end CLI

/-! ## A message that no method of a simulator answers -/

namespace UploadXCTestConfigurationCommand

open Device MethodProgram

/-- The statuses that the command returns for a simulator. -/
def SimulatorStatus (code : IOSReturnStatusCode) : Prop :=
  code = .invalidArguments ∨ code = .internalError

/-- What the host computes is known. -/
theorem returns_ofHost_bind {α β : Type} {allowed : β → Prop} {x : Except NSException α}
    {f : α → MethodProgram β} (hf : ∀ value, x = .ok value → Returns allowed (f value)) :
    Returns allowed (MethodProgram.ofHost x >>= f) := by
  cases x with
  | error e => exact returns_throw e
  | ok value => exact hf value rfl

/-- Whatever is answered, the command finds its
arguments invalid, reports an installation that failed, or raises: after two installations that were
successes there is no method that stages the configuration. -/
theorem returns_execute {host : DeviceHost} {args : NSDictionary ArgValue} {udid : String}
    (hdevice : deviceFromArgs host args = .ok (some (.simulator udid))) :
    Returns SimulatorStatus (performAll host (execute host args)) := by
  have hinstalled : ∀ (code : IOSReturnStatusCode) (p : DeviceProgram IOSReturnStatusCode),
      Returns SimulatorStatus (performAll host p) → Returns SimulatorStatus
        (performAll host (if code ≠ .everythingOkay then return .internalError else p)) := by
    intro code p hp
    by_cases hcode : code = .everythingOkay
    · simpa [hcode] using hp
    · rw [if_pos hcode]
      exact returns_pure (.inr rfl)
  unfold execute onDevice
  rw [hdevice, performAll_bind]
  refine returns_ofHost_bind ?_
  rintro _ ⟨⟩
  dsimp only
  rw [performAll_bind]
  refine returns_ofHost_bind fun autPath _ => ?_
  cases autPath with
  | none => exact returns_pure (.inl rfl)
  | some autPath =>
    dsimp only
    rw [performAll_bind]
    refine returns_ofHost_bind fun runnerPath _ => ?_
    cases runnerPath with
    | none => exact returns_pure (.inl rfl)
    | some runnerPath =>
      dsimp only
      rw [performAll_bind]
      refine returns_ofHost_bind fun aut _ => ?_
      rw [performAll_bind]
      refine (returns_true _).bind fun code _ => hinstalled code _ ?_
      rw [performAll_bind]
      refine returns_ofHost_bind fun runner _ => ?_
      rw [performAll_bind]
      refine (returns_true _).bind fun code _ => hinstalled code _ ?_
      -- the message has an argument more than the method of a simulator
      rw [performAll_bind, performAll_call]
      have hraises : Returns (fun _ => False) (perform host (.stageXctestConfiguration
          (.simulator udid) runnerPath autPath (Device.simulator udid).uuid)) :=
        returns_throw mustOverride
      exact hraises.bind fun _ h => h.elim

end UploadXCTestConfigurationCommand

namespace CLI

/-- **No configuration is staged on a simulator.** In every run that executes `upload-xctestconf`
with a simulator, whatever is answered, the returned status is never a success: the arguments are
invalid, an installation failed, or an exception ends the run. -/
theorem main_uploadXCTestConfiguration_simulator {host : ProgramHost}
    {env : Environment MethodRequest.Answer} {argv : List String} {args : NSDictionary ArgValue}
    {udid : String}
    (hexecuted : (main host env argv).1.executed =
      some (Commands.uploadXCTestConfigurationCommand, args))
    (hdevice : deviceFromArgs host.toDeviceHost args = .ok (some (.simulator udid))) :
    ∀ code, (main host env argv).1.status = .ok code →
      code = .invalidArguments ∨ code = .internalError := by
  intro code hstatus
  have hcommand : DeviceCommand.ofCommand Commands.uploadXCTestConfigurationCommand =
      some .uploadXCTestConfiguration :=
    DeviceCommand.ofCommand_command .uploadXCTestConfiguration
  have hrun : ((execute host Commands.uploadXCTestConfigurationCommand args).run.run env []).1 =
      .ok code := (status_of_executed hexecuted).symm.trans hstatus
  rw [execute, hcommand] at hrun
  exact UploadXCTestConfigurationCommand.returns_execute hdevice env [] code hrun

/-- What the command line is parsed to. -/
def uploadXCTestConfigurationArgs : NSDictionary ArgValue :=
  (parseArgs Commands.uploadXCTestConfigurationCommand
    ["/My.app", "/Runner.app", "-d", sampleSimulatorID]).values.getD .empty

/-- Both applications are installed, and then the run ends with an exception. -/
theorem main_uploadXCTestConfiguration_raises :
    (main oneAppHost obligingSimulator uploadXCTestConfigurationArgv).1.status =
        .error Device.mustOverride ∧
      (main oneAppHost obligingSimulator uploadXCTestConfigurationArgv).2.length = 16 ∧
      ∀ code, (main oneAppHost obligingSimulator uploadXCTestConfigurationArgv).1.status =
          .ok code → code = .invalidArguments ∨ code = .internalError := by
  have hexecuted : (main oneAppHost obligingSimulator
      uploadXCTestConfigurationArgv).1.executed = some (Commands.uploadXCTestConfigurationCommand,
        uploadXCTestConfigurationArgs) := rfl
  have hdevice : deviceFromArgs oneAppHost.toDeviceHost uploadXCTestConfigurationArgs =
      .ok (some (.simulator sampleSimulatorID)) := rfl
  exact ⟨rfl, rfl, main_uploadXCTestConfiguration_simulator hexecuted hdevice⟩

end CLI

end IOSDeviceManager
