import IOSDeviceManager.Commands.ParseArgs
import IOSDeviceManager.Resigning.Codesigner

/-! # `process:`

The dispatch of a command line: the lookup of the command, the parsing of its arguments, the request
for help, the check for required options and the call of `execute:`. The parser binds a request for
help to the name of the help option, and the dispatch looks for it under the flags. -/

namespace IOSDeviceManager

/-- What a command line is run with. -/
structure CommandHost where
  /-- `lowercaseString`. -/
  lowercaseString : String → String
  /-- `execute:` of a command, which may throw. -/
  execute : Command → NSDictionary ArgValue → Except NSException IOSReturnStatusCode
  /-- `defaultPhysicalDeviceIDEnsuringOnlyOneAttached:`. -/
  defaultPhysicalDeviceID : Option String
  /-- `defaultSimulatorID`. -/
  defaultSimulatorID : Option String

/-- What `process:` writes. -/
inductive ProcessLine where
  /-- What the parser writes, too. -/
  | console (line : ConsoleLine)
  /-- A text on the standard output. -/
  | write (text : String)
  deriving DecidableEq

/-- The outcome of `process:`: the returned status or the exception, what is written, and the call
of `execute:`, if one is made. -/
structure Processed where
  status : Except NSException IOSReturnStatusCode
  console : List ProcessLine
  executed : Option (Command × NSDictionary ArgValue)

namespace CLI

/-- `hasKey:`. -/
def hasKey (values : NSDictionary ArgValue) (key : String) : Bool :=
  values.allKeys.contains key

/-- The suggestion for a missing device identifier: a connected device, where the command takes one,
or the default simulator. -/
def suggestedDeviceID (host : CommandHost) (cmd : Command) : String :=
  match host.defaultPhysicalDeviceID with
  | some physicalDeviceID =>
      if ["launch-simulator", "erase-simulator"].contains cmd.name then
        "\n Suggested deviceID for simulator: " ++ Codesigner.formatString host.defaultSimulatorID
      else "\n Suggested deviceID from connected device: " ++ physicalDeviceID
  | none =>
      "\n Suggested deviceID for simulator: " ++ Codesigner.formatString host.defaultSimulatorID

/-- The report of a required option that is not bound. -/
def missingRequired (host : CommandHost) (cmd : Command) (opt : CommandOption) : Processed where
  status := .ok .missingArguments
  console := [.write ("Missing required argument '" ++ opt.optionName ++ "'\n"),
      .console (.commandUsage cmd.usage)] ++
    if opt.optionName = deviceIDOptionName then [.write (suggestedDeviceID host cmd)] else []
  executed := none

/-- The call of `execute:`; the usage is printed for a failure. -/
def runCommand (host : CommandHost) (cmd : Command) (parsedArgs : NSDictionary ArgValue) :
    Processed where
  status := host.execute cmd parsedArgs
  console :=
    match host.execute cmd parsedArgs with
    | .ok ret =>
        if ret ≠ .everythingOkay ∧ ret ≠ .false then [.console (.commandUsage cmd.usage)] else []
    | .error _ => []
  executed := some (cmd, parsedArgs)

/-- The part of `process:` after a successful parsing. -/
def dispatch (host : CommandHost) (cmd : Command) (parsedArgs : NSDictionary ArgValue) :
    Processed :=
  -- If the user specified they want help, just print help and exit.
  if hasKey parsedArgs helpShortFlag || hasKey parsedArgs helpLongFlag then
    ⟨.ok .everythingOkay, [.console (.commandUsage cmd.usage)], none⟩
  else
    match cmd.options.find? fun opt => opt.required && !hasKey parsedArgs opt.optionName with
    | some opt => missingRequired host cmd opt
    | none => runCommand host cmd parsedArgs

/-- The part of `process:` for a command. -/
def processCommand (host : CommandHost) (cmd : Command) (cmdArgs : List String) : Processed :=
  let parsed := parseArgs cmd cmdArgs
  let console := parsed.console.map .console
  if parsed.exitCode ≠ .everythingOkay then ⟨.ok parsed.exitCode, console, none⟩
  else
    let dispatched := dispatch host cmd (parsed.values.getD .empty)
    { dispatched with console := console ++ dispatched.console }

/-- The command of a name in `commandClasses`. -/
def commandNamed (name : String) : Option Command :=
  Commands.commandClasses.find? fun cmd => cmd.name == name

/-- `process:`. -/
def process (host : CommandHost) : List String → Processed
  | _ :: name :: cmdArgs =>
      match commandNamed (host.lowercaseString name) with
      | some cmd => processCommand host cmd cmdArgs
      | none => ⟨.ok .unrecognizedCommand,
          [.console (.err ("Unrecognized command: " ++ host.lowercaseString name)),
            .console .programUsage], none⟩
  | _ => ⟨.ok .everythingOkay, [.console .programUsage], none⟩

/-! ## The names that parsing binds -/

/-- A name is bound after further bindings exactly when it was before or one of them is for it. -/
theorem isSome_objectForKey_setBindings (bindings : List (String × ArgValue))
    (values : NSDictionary ArgValue) (name : String) :
    ((setBindings values bindings).objectForKey name).isSome ↔
      (values.objectForKey name).isSome ∨ name ∈ bindings.map Prod.fst := by
  induction bindings generalizing values with
  | nil => simp [setBindings]
  | cons entry bindings ih =>
    have hnext := ih (values.setObject entry.1 entry.2)
    rw [setBindings, List.foldl_cons, ← setBindings, hnext, isSome_objectForKey_setObject,
      List.map_cons, List.mem_cons]
    tauto

/-- A positional value addresses an option of the table. -/
theorem mem_options_of_positionalOption {cmd : Command} {positionalArgCount : Nat} {arg : String}
    {op : CommandOption} (h : positionalOption cmd positionalArgCount arg = some op) :
    op ∈ cmd.options := by
  unfold positionalOption at h
  split at h
  · unfold Command.optionForAppPathOrBundleID at h
    split at h
    · exact List.mem_of_getElem? h
    · exact List.mem_of_head? h
  · exact (Command.optionForPosition_eq_some h).1

/-- A group addresses an option of the table or the help option. -/
theorem option_of_mem_argGroups {cmd : Command} {args : List String} {positionalArgCount : Nat}
    {group : ArgGroup} (hgroup : group ∈ argGroups cmd positionalArgCount args)
    {op : CommandOption} (hop : group.option = some op) :
    op ∈ cmd.options ∨ op = Command.helpCommand := by
  have hflag : ∀ {arg found}, cmd.optionForFlag arg = some found →
      found ∈ cmd.options ∨ found = Command.helpCommand := fun h =>
    (Command.optionForFlag_eq_some h).imp And.left And.left
  -- along the recursive calls: the first group, or one of the others
  induction positionalArgCount, args using argGroups.induct cmd with
  | case1 => simp [argGroups] at hgroup
  | case2 n arg rest hnone ih =>
    simp only [argGroups, hnone, List.mem_cons] at hgroup
    rcases hgroup with rfl | hgroup
    · exact .inl (mem_options_of_positionalOption hop)
    · exact ih hgroup
  | case3 n arg found hfound hreq =>
    simp only [argGroups, hfound, hreq, if_true, List.mem_singleton] at hgroup
    subst hgroup
    obtain rfl : found = op := by simpa [ArgGroup.option] using hop
    exact hflag hfound
  | case4 n arg found hfound hreq value rest ih =>
    simp only [argGroups, hfound, hreq, if_true, List.mem_cons] at hgroup
    rcases hgroup with rfl | hgroup
    · obtain rfl : found = op := by simpa [ArgGroup.option] using hop
      exact hflag hfound
    · exact ih hgroup
  | case5 n arg rest found hfound hreq ih =>
    simp only [argGroups, hfound, hreq, Bool.false_eq_true, if_false, List.mem_cons] at hgroup
    rcases hgroup with rfl | hgroup
    · obtain rfl : found = op := by simpa [ArgGroup.option] using hop
      exact hflag hfound
    · exact ih hgroup

/-- A group binds the name of its option. -/
theorem option_of_binding {group : ArgGroup} {name : String} {value : ArgValue}
    (h : group.binding = some (name, value)) :
    ∃ op, group.option = some op ∧ op.optionName = name := by
  cases group with
  | positional arg option =>
    obtain ⟨op, hop, hpair⟩ := Option.map_eq_some_iff.mp h
    exact ⟨op, hop, congrArg Prod.fst hpair⟩
  | flag op v => exact ⟨op, rfl, congrArg Prod.fst (Option.some.inj h)⟩
  | missingValue arg op => cases h

/-- What parsing binds are names of options of the table, and the name of the help option. -/
theorem name_of_parseArgs {cmd : Command} {args : List String} {values : NSDictionary ArgValue}
    (hokay : (parseArgs cmd args).exitCode = .everythingOkay)
    (hvalues : (parseArgs cmd args).values = some values) {name : String}
    (hname : (values.objectForKey name).isSome) :
    name = Command.helpCommand.optionName ∨ ∃ op ∈ cmd.options, op.optionName = name := by
  rw [parseArgs_values hokay] at hvalues
  obtain rfl := Option.some.inj hvalues
  rw [isSome_objectForKey_setBindings] at hname
  have hbound := hname.resolve_left (by simp)
  obtain ⟨⟨_, value⟩, hentry, rfl⟩ := List.mem_map.mp hbound
  obtain ⟨group, hgroup, hbinding⟩ := List.mem_filterMap.mp hentry
  obtain ⟨op, hop, hopName⟩ := option_of_binding hbinding
  rcases option_of_mem_argGroups hgroup hop with hmem | rfl
  · exact .inr ⟨op, hmem, hopName⟩
  · exact .inl hopName.symm

/-! ## Asking for help -/

/-- Help is shown: the usage of the command is printed, the status is a success, and the command is
not executed. -/
structure ShowsHelp (cmd : Command) (result : Processed) : Prop where
  usage : ProcessLine.console (.commandUsage cmd.usage) ∈ result.console
  status : result.status = .ok .everythingOkay
  not_executed : result.executed = none

/-- The arguments parse with the help option bound. -/
structure AsksForHelp (cmd : Command) (cmdArgs : List String) (values : NSDictionary ArgValue) :
    Prop where
  okay : (parseArgs cmd cmdArgs).exitCode = .everythingOkay
  parsed : (parseArgs cmd cmdArgs).values = some values
  help : (values.objectForKey Command.helpCommand.optionName).isSome

/-- No option of the program is named like a help flag. -/
theorem optionName_ne_helpFlag : ∀ cmd ∈ Commands.commandClasses, ∀ op ∈ cmd.options,
    op.optionName ≠ helpShortFlag ∧ op.optionName ≠ helpLongFlag := by
  decide +kernel

/-- So the dispatch never finds a request for help in what the parser binds. -/
theorem hasKey_helpFlag {cmd : Command} (hcmd : cmd ∈ Commands.commandClasses) {args : List String}
    {values : NSDictionary ArgValue} (hokay : (parseArgs cmd args).exitCode = .everythingOkay)
    (hvalues : (parseArgs cmd args).values = some values) :
    hasKey values helpShortFlag = false ∧ hasKey values helpLongFlag = false := by
  have hfree : ∀ flag, (∀ op ∈ cmd.options, op.optionName ≠ flag) →
      flag ≠ Command.helpCommand.optionName → hasKey values flag = false := by
    intro flag hnames hhelp
    rw [hasKey, List.contains_eq_mem, decide_eq_false_iff_not]
    intro hmem
    obtain ⟨value, hvalue⟩ := NSDictionary.exists_objectForKey hmem
    rcases name_of_parseArgs hokay hvalues (Option.isSome_of_mem hvalue) with heq | ⟨op, hop, heq⟩
    · exact hhelp heq
    · exact hnames op hop heq
  exact ⟨hfree _ (fun op hop => (optionName_ne_helpFlag cmd hcmd op hop).1) (by decide),
    hfree _ (fun op hop => (optionName_ne_helpFlag cmd hcmd op hop).2) (by decide)⟩

/-- Without a request for help the dispatch fails or executes the command. -/
theorem not_showsHelp_dispatch {host : CommandHost} {cmd : Command}
    {parsedArgs : NSDictionary ArgValue} (hshort : hasKey parsedArgs helpShortFlag = false)
    (hlong : hasKey parsedArgs helpLongFlag = false) (console : List ProcessLine) :
    ¬ ShowsHelp cmd { dispatch host cmd parsedArgs with
      console := console ++ (dispatch host cmd parsedArgs).console } := by
  intro h
  have hstatus := h.status
  have hexecuted := h.not_executed
  rw [dispatch, hshort, hlong] at hstatus hexecuted
  simp only [Bool.or_self, Bool.false_eq_true, if_false] at hstatus hexecuted
  cases hfind : cmd.options.find? fun opt =>
      opt.required && !hasKey parsedArgs opt.optionName with
  | some opt =>
    rw [hfind] at hstatus
    cases hstatus
  | none =>
    rw [hfind] at hexecuted
    cases hexecuted

/-- **A request for help never shows it.** For every host, every registered command and all
arguments that parse with the help option bound: it is not the case that the usage is printed, the
status is a success and the command is not executed. -/
theorem process_never_showsHelp {host : CommandHost} {cmd : Command} {program name : String}
    {cmdArgs : List String} {values : NSDictionary ArgValue}
    (hcmd : commandNamed (host.lowercaseString name) = some cmd)
    (hhelp : AsksForHelp cmd cmdArgs values) :
    ¬ ShowsHelp cmd (process host (program :: name :: cmdArgs)) := by
  have hmem : cmd ∈ Commands.commandClasses := List.mem_of_find?_eq_some hcmd
  obtain ⟨hshort, hlong⟩ := hasKey_helpFlag hmem hhelp.okay hhelp.parsed
  simp only [process, hcmd, processCommand, hhelp.okay, ne_eq, not_true_eq_false, if_false,
    hhelp.parsed, Option.getD_some]
  exact not_showsHelp_dispatch hshort hlong _

/-! ### A simulator that is killed -/

/-- A host on which every command succeeds. -/
def obligingHost : CommandHost where
  lowercaseString := id
  execute _ _ := .ok .everythingOkay
  defaultPhysicalDeviceID := none
  defaultSimulatorID := none

/-- What `-h` is parsed to. -/
def helpValues : NSDictionary ArgValue :=
  NSDictionary.empty.setObject Command.helpCommand.optionName (.bool true)

/-- `generate-xcappdata --help` does not show help either: the required path is missing. -/
theorem process_never_showsHelp_generate :
    ¬ ShowsHelp Commands.generateXCAppDataCommand
      (process obligingHost ["iOSDeviceManager", "generate-xcappdata", "--help"]) := by
  have hhelp : AsksForHelp Commands.generateXCAppDataCommand ["--help"] helpValues :=
    ⟨by decide +kernel, rfl, by decide +kernel⟩
  exact process_never_showsHelp (by decide +kernel) hhelp

/-- **Help that kills the simulator.** `kill-simulator -h` executes the command and prints no
usage. -/
theorem process_executes_killSimulator :
    AsksForHelp Commands.killSimulatorCommand ["-h"] helpValues ∧
      (process obligingHost ["iOSDeviceManager", "kill-simulator", "-h"]).executed =
        some (Commands.killSimulatorCommand, helpValues) ∧
      (process obligingHost ["iOSDeviceManager", "kill-simulator", "-h"]).console = [] ∧
      ¬ ShowsHelp Commands.killSimulatorCommand
        (process obligingHost ["iOSDeviceManager", "kill-simulator", "-h"]) := by
  have hexecuted : (process obligingHost ["iOSDeviceManager", "kill-simulator", "-h"]).executed =
      some (Commands.killSimulatorCommand, helpValues) := rfl
  refine ⟨⟨by decide +kernel, rfl, by decide +kernel⟩, hexecuted, by decide +kernel, fun h => ?_⟩
  have hnone := h.not_executed
  rw [hexecuted] at hnone
  cases hnone

end CLI

end IOSDeviceManager
