import IOSDeviceManager.Commands.DeviceCommands
import IOSDeviceManager.Commands.PositionalTokens
import IOSDeviceManager.Devices.SimulatorMethods

/-! # `main`

The program as a whole: a command line, the command it names, the operations of devices that the
command calls, and the requests these make. Only a registered command is executed, with arguments
that parse and are complete, and every text among them is a token of the command line. -/

namespace IOSDeviceManager

open General

/-- A host that runs the program. -/
structure ProgramHost extends DeviceHost where
  /-- `lowercaseString`. -/
  lowercaseString : String → String
  /-- `execute:` of the commands that call no device. -/
  executeOther : Command → NSDictionary ArgValue → Except NSException IOSReturnStatusCode
  /-- `defaultPhysicalDeviceIDEnsuringOnlyOneAttached:` with `NO`. -/
  firstPhysicalDeviceID : Option String

namespace DeviceCommand

/-- The class of a command that acts through a device. -/
def command : DeviceCommand → Command
  | appInfo => Commands.appInfoCommand
  | clearAppData => Commands.clearAppDataCommand
  | downloadXCAppData => Commands.downloadXCAppDataCommand
  | eraseSimulator => Commands.eraseSimulatorCommand
  | generateXCAppData => Commands.generateXCAppDataCommand
  | installApp => Commands.installAppCommand
  | isInstalled => Commands.isInstalledCommand
  | killApp => Commands.killAppCommand
  | killSimulator => Commands.killSimulatorCommand
  | launchApp => Commands.launchAppCommand
  | launchSimulator => Commands.launchSimulatorCommand
  | simulateLocation => Commands.simulateLocationCommand
  | stopSimulatingLocation => Commands.stopSimulatingLocationCommand
  | uninstallApp => Commands.uninstallAppCommand
  | uploadFile => Commands.uploadFileCommand
  | uploadXCAppDataBundle => Commands.uploadXCAppDataBundleCommand
  | uploadXCTestConfiguration => Commands.uploadXCTestConfigurationCommand

/-- The commands that act through a device. -/
def all : List DeviceCommand := [
  appInfo, clearAppData, downloadXCAppData, eraseSimulator, generateXCAppData, installApp,
  isInstalled, killApp, killSimulator, launchApp, launchSimulator, simulateLocation,
  stopSimulatingLocation, uninstallApp, uploadFile, uploadXCAppDataBundle,
  uploadXCTestConfiguration]

/-- The command that acts through a device, if a class is one. -/
def ofCommand (cmd : Command) : Option DeviceCommand :=
  all.find? fun deviceCommand => deviceCommand.command.name == cmd.name

/-- Every class is found by its name. -/
theorem ofCommand_command (deviceCommand : DeviceCommand) :
    ofCommand deviceCommand.command = some deviceCommand := by
  cases deviceCommand <;> decide +kernel

end DeviceCommand

namespace CLI

/-- `execute:` of a command, with every operation of a device performed. -/
def execute (host : ProgramHost) (cmd : Command) (args : NSDictionary ArgValue) :
    MethodProgram IOSReturnStatusCode :=
  match DeviceCommand.ofCommand cmd with
  | some deviceCommand =>
      Device.performAll host.toDeviceHost (deviceCommand.execute host.toDeviceHost args)
  | none => MethodProgram.ofHost (host.executeOther cmd args)

/-- What a command line is run with, in an environment that answers the requests. -/
def commandHost (host : ProgramHost) (env : Environment MethodRequest.Answer) : CommandHost where
  lowercaseString := host.lowercaseString
  execute cmd args := ((execute host cmd args).run.run env []).1
  defaultPhysicalDeviceID := host.firstPhysicalDeviceID
  defaultSimulatorID := host.defaultSimulatorID.toOption

/-- The requests of a run. -/
def requests (host : ProgramHost) (env : Environment MethodRequest.Answer) (processed : Processed) :
    History MethodRequest.Answer :=
  match processed.executed with
  | some (cmd, args) => ((execute host cmd args).run.run env []).2
  | none => []

/-- `main`: the outcome, and the requests that were made. -/
def main (host : ProgramHost) (env : Environment MethodRequest.Answer) (argv : List String) :
    Processed × History MethodRequest.Answer :=
  let processed := process (commandHost host env) argv
  (processed, requests host env processed)

/-! ## What a command line binds -/

section Binding

variable {cmd : Command}

/-- What a group binds to a name is one of the tokens, or a flag that is set. -/
theorem mem_of_mem_argGroups {args : List String} {positionalArgCount : Nat} {group : ArgGroup}
    (hgroup : group ∈ argGroups cmd positionalArgCount args) {name value : String}
    (hbinding : group.binding = some (name, .string value)) : value ∈ args := by
  induction positionalArgCount, args using argGroups.induct cmd with
  | case1 => simp [argGroups] at hgroup
  | case2 n arg rest hnone ih =>
    simp only [argGroups, hnone, List.mem_cons] at hgroup
    rcases hgroup with rfl | hgroup
    · obtain ⟨op, _, hpair⟩ := Option.map_eq_some_iff.mp hbinding
      obtain ⟨_, rfl⟩ : op.optionName = name ∧ arg = value := by simpa using hpair
      exact List.mem_cons_self
    · exact List.mem_cons_of_mem arg (ih hgroup)
  | case3 n arg op hflag hreq =>
    simp only [argGroups, hflag, hreq, if_true, List.mem_singleton] at hgroup
    subst hgroup
    cases hbinding
  | case4 n arg op hflag hreq token rest ih =>
    simp only [argGroups, hflag, hreq, if_true, List.mem_cons] at hgroup
    rcases hgroup with rfl | hgroup
    · obtain ⟨_, rfl⟩ : op.optionName = name ∧ token = value := by
        simpa [ArgGroup.binding] using hbinding
      exact List.mem_cons_of_mem arg List.mem_cons_self
    · exact List.mem_cons_of_mem arg (List.mem_cons_of_mem token (ih hgroup))
  | case5 n arg rest op hflag hreq ih =>
    simp only [argGroups, hflag, hreq, Bool.false_eq_true, if_false, List.mem_cons] at hgroup
    rcases hgroup with rfl | hgroup
    · simp [ArgGroup.binding] at hbinding
    · exact List.mem_cons_of_mem arg (ih hgroup)

/-- A text that parsing binds is a token of the command line. -/
theorem stringArg_mem {args : List String} {name value : String}
    (hokay : (parseArgs cmd args).exitCode = .everythingOkay)
    (h : stringArg ((parseArgs cmd args).values.getD .empty) name = some value) :
    value ∈ args := by
  rw [parseArgs_values hokay, Option.getD_some] at h
  have hvalue : (setBindings NSDictionary.empty
      ((argGroups cmd 0 args).filterMap ArgGroup.binding)).objectForKey name =
        some (.string value) := by
    unfold stringArg at h
    split at h
    · rename_i s hs
      obtain rfl := Option.some.inj h
      exact hs
    · cases h
  rcases mem_of_objectForKey_setBindings hvalue with hmem | hempty
  · obtain ⟨group, hgroup, hbinding⟩ := List.mem_filterMap.mp hmem
    exact mem_of_mem_argGroups hgroup hbinding
  · simp at hempty

/-- A flag is set without a value only for an option that takes none. -/
theorem requiresArgument_of_mem_argGroups {args : List String} {positionalArgCount : Nat}
    {op : CommandOption} {b : Bool}
    (hgroup : ArgGroup.flag op (.bool b) ∈ argGroups cmd positionalArgCount args) :
    op.requiresArgument = false := by
  induction positionalArgCount, args using argGroups.induct cmd with
  | case1 => simp [argGroups] at hgroup
  | case2 n arg rest hnone ih =>
    simp only [argGroups, hnone, List.mem_cons, reduceCtorEq, false_or] at hgroup
    exact ih hgroup
  | case3 n arg found hflag hreq => simp [argGroups, hflag, hreq] at hgroup
  | case4 n arg found hflag hreq token rest ih =>
    simp only [argGroups, hflag, hreq, if_true, List.mem_cons, ArgGroup.flag.injEq, reduceCtorEq,
      and_false, false_or] at hgroup
    exact ih hgroup
  | case5 n arg rest found hflag hreq ih =>
    simp only [argGroups, hflag, hreq, Bool.false_eq_true, if_false, List.mem_cons] at hgroup
    rcases hgroup with heq | hgroup
    · obtain rfl := (ArgGroup.flag.inj heq).1
      simpa using hreq
    · exact ih hgroup

/-- An option that takes a value is bound to a text. -/
theorem isSome_stringArg {args : List String} {name : String}
    (hokay : (parseArgs cmd args).exitCode = .everythingOkay)
    (hvalue : ∀ op ∈ cmd.options, op.optionName = name → op.requiresArgument = true)
    (hhelp : name ≠ Command.helpCommand.optionName)
    (hbound : hasKey ((parseArgs cmd args).values.getD .empty) name = true) :
    (stringArg ((parseArgs cmd args).values.getD .empty) name).isSome := by
  rw [parseArgs_values hokay, Option.getD_some] at hbound ⊢
  rw [hasKey, List.contains_eq_mem, decide_eq_true_eq] at hbound
  obtain ⟨value, hobject⟩ := NSDictionary.exists_objectForKey hbound
  cases value with
  | string s => simp [stringArg, hobject]
  | bool b =>
    -- a truth value is bound by a flag that takes no value only
    exfalso
    rcases mem_of_objectForKey_setBindings hobject with hmem | hempty
    · obtain ⟨group, hgroup, hbinding⟩ := List.mem_filterMap.mp hmem
      cases group with
      | positional arg option =>
        obtain ⟨op, _, hpair⟩ := Option.map_eq_some_iff.mp hbinding
        simp at hpair
      | missingValue arg op => cases hbinding
      | flag op v =>
        obtain ⟨hname, rfl⟩ : op.optionName = name ∧ v = .bool b := by
          simpa [ArgGroup.binding] using hbinding
        have htakes := requiresArgument_of_mem_argGroups hgroup
        rcases option_of_mem_argGroups hgroup rfl with hop | rfl
        · rw [hvalue op hop hname] at htakes
          cases htakes
        · exact hhelp hname.symm
    · simp at hempty

end Binding

/-! ## What a command line executes -/

/-- What was executed: a registered command, with arguments that parse and are complete. -/
structure Executes (host : ProgramHost) (argv : List String) (cmd : Command)
    (cmdArgs : List String) : Prop where
  argv_eq : ∃ program name, argv = program :: name :: cmdArgs ∧
    commandNamed (host.lowercaseString name) = some cmd
  okay : (parseArgs cmd cmdArgs).exitCode = .everythingOkay
  complete : cmd.options.find? (fun op => op.required && !hasKey
    ((parseArgs cmd cmdArgs).values.getD .empty) op.optionName) = none

/-- Nothing else is executed. -/
theorem executes_of_process {host : ProgramHost} {env : Environment MethodRequest.Answer}
    {argv : List String} {cmd : Command} {args : NSDictionary ArgValue}
    (h : (process (commandHost host env) argv).executed = some (cmd, args)) :
    ∃ cmdArgs, Executes host argv cmd cmdArgs ∧
      args = (parseArgs cmd cmdArgs).values.getD .empty := by
  match argv with
  | [] => cases h
  | [_] => cases h
  | program :: name :: cmdArgs =>
    cases hnamed : commandNamed (host.lowercaseString name) with
    | none =>
      simp only [process, commandHost, hnamed] at h
      cases h
    | some named =>
      simp only [process, commandHost, hnamed, processCommand] at h
      split at h
      · cases h
      · rename_i hokay
        simp only [dispatch] at h
        split at h
        · cases h
        · split at h
          · cases h
          · rename_i hcomplete
            obtain ⟨rfl, rfl⟩ : named = cmd ∧ _ = args := by
              simpa [runCommand] using h
            exact ⟨cmdArgs, ⟨⟨program, name, rfl, hnamed⟩, by simpa using hokay, hcomplete⟩, rfl⟩

/-- The status of a run is that of what was executed. -/
theorem status_of_executed {host : CommandHost} {argv : List String} {cmd : Command}
    {args : NSDictionary ArgValue} (h : (process host argv).executed = some (cmd, args)) :
    (process host argv).status = host.execute cmd args := by
  match argv with
  | [] => cases h
  | [_] => cases h
  | program :: name :: cmdArgs =>
    cases hnamed : commandNamed (host.lowercaseString name) with
    | none =>
      simp only [process, hnamed] at h
      cases h
    | some named =>
      simp only [process, hnamed, processCommand] at h ⊢
      split at h
      · cases h
      · rename_i hokay
        rw [if_neg hokay]
        simp only [dispatch] at h ⊢
        split at h
        · cases h
        · rename_i hhelp
          rw [if_neg hhelp]
          split at h
          · cases h
          · obtain ⟨rfl, rfl⟩ : named = cmd ∧ _ = args := by
              simpa [runCommand] using h
            rfl

/-! ## A run -/

/-- A host with one simulator, where every path is that of an application. -/
def oneAppHost : ProgramHost where
  toDeviceHost := { oneSimulatorHost with item := fun path => some (.directory path []) }
  lowercaseString := id
  executeOther _ _ := .ok .everythingOkay
  firstPhysicalDeviceID := none

/-- Whatever a simulator is asked to do succeeds, and nothing is installed on it. -/
def obligingSimulator : Environment MethodRequest.Answer
  | _, .simulator (.state _) => .booted
  | _, .simulator (.installApplication ..) => .installed
  | _, .simulator (.installedApps _) => some []
  | _, .simulator (.installedApplication ..) => none
  | _, .simulator .allSimulators => []
  | _, .simulator .runningApplications => []
  | _, .simulator (.terminate _) => ()
  | _, .simulator (.forceTerminate _) => ()
  | _, .simulator (.applicationWithBundlePath _) => .ok none
  | _, .simulator (.appVersionIsDifferent ..) => .ok true
  | _, .simulator (.resignApplication ..) => .ok ()
  | _, .simulator (.resolveState ..) => true
  | _, .simulator (.boot _) => true
  | _, .simulator (.focus _) => true
  | _, .simulator (.shutdown _) => true
  | _, .simulator (.erase _) => true
  | _, .simulator (.uninstallApplication ..) => true
  | _, .simulator (.launchApplication ..) => true
  | _, .simulator (.simulatorWithUDID _) => true
  | _, .simulator (.spinUntilTerminated _) => true
  | _, .killApplication .. => true
  | _, .overrideLocation .. => ⟨true, false⟩
  | _, .operation whole => .ok (whole.returnType.constantValue .everythingOkay)

/-- `upload-xctestconf /My.app /Runner.app -d` with the simulator. -/
def uploadXCTestConfigurationArgv : List String :=
  ["iOSDeviceManager", "upload-xctestconf", "/My.app", "/Runner.app", "-d", sampleSimulatorID]

end CLI

end IOSDeviceManager
