import IOSDeviceManager.Commands.PositionalTokens
import IOSDeviceManager.Commands.ResignAllCommand
import IOSDeviceManager.Utilities.XCTestConfigurationPlist
import IOSDeviceManager.Utilities.XCTestConfigurationProxy

/-! # `XCTestConfigReadWriteCommand`

What is declared as an option `--overwrite` is the third positional value, whatever its text: any
third value asks to overwrite, and the documented `--overwrite true` is one value too many. -/

namespace IOSDeviceManager

open General

namespace NSString

/-- `-[NSString pathExtension]`: what follows the last dot of the last component, unless the dot is
its first character. -/
def pathExtension (s : String) : String :=
  let name := (lastPathComponent s).toList
  let ext := name.rtakeWhile (· ≠ '.')
  if ext.length + 1 < name.length then String.ofList ext else ""

end NSString

namespace XCTestConfigReadWriteCommand

open Commands XCTestConfigurationProxy

/-- The outcome of the command, with the changes made to the file system. -/
structure Run where
  status : Except NSException IOSReturnStatusCode
  fs : FileSystem
  changes : List FileChange
  console : List ProcessLine

/-- A run that changes nothing. -/
def Run.ended (fs : FileSystem) (status : Except NSException IOSReturnStatusCode)
    (console : List ProcessLine) : Run :=
  ⟨status, fs, [], console⟩

/-- Lines on the standard error. -/
def errLines (texts : List String) : List ProcessLine :=
  texts.map fun text => .console (.err text)

/-- `execute:`, from where the configuration is decoded. -/
def writeConfiguration (host : ConfigurationHost) (fs : FileSystem)
    (args : NSDictionary ArgValue) (config : XCTestConfiguration) : Run :=
  match stringArg args "output-file" with
  | none => .ended fs (.ok .everythingOkay) [.write config.description]
  | some outputFile =>
      let overwrite := (args.objectForKey "--overwrite").isSome
      let writing := writeToPlistFile host fs config outputFile overwrite
      { status := .ok (if writing.success then .everythingOkay else .genericFailure)
        fs := writing.fs
        changes := writing.changes
        console := errLines writing.errors }

/-- `execute:`, with an input file. -/
def readConfiguration (host : ConfigurationHost) (fs : FileSystem) (args : NSDictionary ArgValue)
    (inputFile : String) : Run :=
  if inputFile = "--print-template" then
    .ended fs (.ok .everythingOkay) [.write XCTestConfigurationPlist.template]
  else if host.fileExistsAtPath fs inputFile = false then
    .ended fs (.ok .invalidArguments)
      (errLines ["Input file does not exist at path:", "  " ++ inputFile])
  else if NSString.pathExtension inputFile ≠ "xctestconfiguration" then
    .ended fs (.ok .invalidArguments)
      (errLines ["Input file does not have .xctestconfiguration extension:", "  " ++ inputFile])
  else
    match configurationWithContentsOfFile host fs inputFile with
    | .error e => .ended fs (.error e) []
    | .ok (.error texts) => .ended fs (.ok .genericFailure) (errLines texts)
    | .ok (.ok config) => writeConfiguration host fs args config

/-- `execute:`; there is no file at no path. -/
def execute (host : ConfigurationHost) (fs : FileSystem) (args : NSDictionary ArgValue) : Run :=
  match stringArg args "input-file" with
  | some inputFile => readConfiguration host fs args inputFile
  | none =>
      .ended fs (.ok .invalidArguments)
        (errLines ["Input file does not exist at path:", "  " ++ Codesigner.formatString none])

/-- `process:` for `xctestconfig`. -/
def run (host : ConfigurationHost) (commandHost : CommandHost) (fs : FileSystem)
    (args : List String) : Run :=
  let processed := CLI.processCommand
    { commandHost with execute := fun _ parsedArgs => (execute host fs parsedArgs).status }
    xctestConfigReadWriteCommand args
  match processed.executed with
  | none => .ended fs processed.status processed.console
  | some (_, parsedArgs) =>
      { execute host fs parsedArgs with
        console := (execute host fs parsedArgs).console ++ processed.console }

/-! ## The tokens of a command line -/

/-- The help flags. -/
abbrev IsHelpFlag (token : String) : Prop :=
  token = helpShortFlag ∨ token = helpLongFlag

/-- The tokens that are taken for positional values: no help flag, not empty, and not after an empty
token, which counts as a flag. -/
def positionalValues : List String → List String
  | [] => []
  | [token] => if token = "" ∨ IsHelpFlag token then [] else [token]
  | token :: next :: rest =>
      if token = "" then positionalValues rest
      else if IsHelpFlag token then positionalValues (next :: rest)
      else token :: positionalValues (next :: rest)

/-- The command of this module. -/
abbrev cmd : Command :=
  xctestConfigReadWriteCommand

theorem cmd_mem : cmd ∈ commandClasses := by
  simp [commandClasses]

theorem optionForFlag_of_ne_empty {token : String} (h : token ≠ "") :
    cmd.optionForFlag token = if IsHelpFlag token then some Command.helpCommand else none := by
  rw [CLI.optionForFlag_of_ne_empty h, CLI.flaggedOptionForFlag_eq_or]
  rfl

/-- The positional groups are the positional values with the options at their positions. -/
theorem filterMap_positional_argGroups (positionalArgCount : Nat) (args : List String) :
    (CLI.argGroups cmd positionalArgCount args).filterMap CLI.ArgGroup.positional? =
      ((positionalValues args).zipIdx positionalArgCount).map
        fun entry => (entry.1, cmd.optionForPosition entry.2) := by
  have hhead : ∃ op, cmd.options.head? = some op ∧ op.requiresArgument = true := ⟨_, rfl, rfl⟩
  obtain ⟨head, hhead, hrequires⟩ := hhead
  -- the empty token finds the first option, which takes the next token as its value
  have hempty : cmd.optionForFlag "" = some head := hhead
  have hhelp : ∀ {token}, token ≠ "" → IsHelpFlag token →
      cmd.optionForFlag token = some Command.helpCommand := fun hne hflag => by
    rw [optionForFlag_of_ne_empty hne, if_pos hflag]
  have hvalue : ∀ {token}, token ≠ "" → ¬ IsHelpFlag token → cmd.optionForFlag token = none :=
    fun hne hflag => by rw [optionForFlag_of_ne_empty hne, if_neg hflag]
  have hnoArgument : Command.helpCommand.requiresArgument = false := rfl
  have hposition : ∀ n arg, CLI.positionalOption cmd n arg = cmd.optionForPosition n :=
    fun _ _ => rfl
  induction args using positionalValues.induct generalizing positionalArgCount with
  | case1 => rfl
  | case2 token hflag =>
    rw [positionalValues, if_pos hflag]
    by_cases hne : token = ""
    · simp [CLI.argGroups, hne, hempty, hrequires, CLI.ArgGroup.positional?]
    · simp [CLI.argGroups, hhelp hne (hflag.resolve_left hne), hnoArgument, List.filterMap_cons,
        CLI.ArgGroup.positional?]
  | case3 token hflag =>
    obtain ⟨hne, hother⟩ := not_or.mp hflag
    rw [positionalValues, if_neg hflag]
    simp [CLI.argGroups, hvalue hne hother, hposition, CLI.ArgGroup.positional?]
  | case4 next rest ih =>
    simp [CLI.argGroups, positionalValues, hempty, hrequires, List.filterMap_cons,
      CLI.ArgGroup.positional?, ih]
  | case5 token next rest hne hflag ih =>
    rw [positionalValues, if_neg hne, if_pos hflag, ← ih, CLI.argGroups, hhelp hne hflag]
    simp [hnoArgument, List.filterMap_cons, CLI.ArgGroup.positional?]
  | case6 token next rest hne hflag ih =>
    rw [positionalValues, if_neg hne, if_neg hflag, CLI.argGroups, hvalue hne hflag]
    simp [CLI.ArgGroup.positional?, hposition, ih]

/-! ## The values of the options -/

section Parsed

variable {args : List String} {values : NSDictionary ArgValue}

/-- The option at a position has the positional value there; for the first one that is so if there
is a positional value. -/
theorem objectForKey_of_getElem? (hokay : (CLI.parseArgs cmd args).exitCode = .everythingOkay)
    (hvalues : (CLI.parseArgs cmd args).values = some values) {index : Nat} {token : String}
    (htoken : (positionalValues args)[index]? = some token) (op : CommandOption)
    (hop : cmd.optionForPosition index = some op) :
    values.objectForKey op.optionName = some (.string token) :=
  CLI.objectForKey_of_position (CLI.wellFormed_of_mem_commandClasses cmd cmd_mem)
    (CLI.optionName_ne_help cmd cmd_mem) hokay hvalues (filterMap_positional_argGroups 0 args)
    htoken hop

/-- The other options have no value but that. -/
theorem objectForKey_of_position (hokay : (CLI.parseArgs cmd args).exitCode = .everythingOkay)
    (hvalues : (CLI.parseArgs cmd args).values = some values) {index : Nat} (hindex : index ≠ 0)
    (op : CommandOption) (hop : cmd.optionForPosition index = some op) :
    values.objectForKey op.optionName = (positionalValues args)[index]?.map .string := by
  obtain ⟨hmem, hpos, hposition⟩ := Command.optionForPosition_eq_some hop
  cases htoken : (positionalValues args)[index]? with
  | some token => exact objectForKey_of_getElem? hokay hvalues htoken op hop
  | none =>
    rw [Option.map_none, Option.eq_none_iff_forall_ne_some]
    intro value hvalue
    have hcmd := CLI.wellFormed_of_mem_commandClasses cmd cmd_mem
    have hflag : ∀ v, .flag op v ∉ CLI.argGroups cmd 0 args := by
      -- only the first positional option has a flag
      intro v hgroup
      have hhead := CLI.head?_of_flag_mem hcmd hpos hgroup
      have hfirst : ∃ first, cmd.positionalOptions.head? = some first ∧ first.position = 0 :=
        ⟨_, rfl, rfl⟩
      obtain ⟨first, hfirst, hzero⟩ := hfirst
      obtain rfl := Option.some.inj (hhead.symm.trans hfirst)
      exact hindex (hposition.symm.trans hzero)
    obtain ⟨other, token, hother, hfound, -⟩ := CLI.position_of_value hcmd
      (CLI.optionName_ne_help cmd cmd_mem) hokay hvalues (filterMap_positional_argGroups 0 args)
      hmem hflag hvalue
    obtain rfl : other = index := (Command.optionForPosition_eq_some hother).2.2.symm.trans hposition
    rw [htoken] at hfound
    cases hfound

/-- So is the string that is bound to the option. -/
theorem stringArg_of_position (hokay : (CLI.parseArgs cmd args).exitCode = .everythingOkay)
    (hvalues : (CLI.parseArgs cmd args).values = some values) {index : Nat} (hindex : index ≠ 0)
    (op : CommandOption) (hop : cmd.optionForPosition index = some op) :
    stringArg values op.optionName = (positionalValues args)[index]? := by
  rw [stringArg, objectForKey_of_position hokay hvalues hindex op hop]
  cases (positionalValues args)[index]? <;> rfl

/-- There are at most three positional values. -/
theorem length_positionalValues_le (hokay : (CLI.parseArgs cmd args).exitCode = .everythingOkay) :
    (positionalValues args).length ≤ 3 := by
  by_contra hlength
  have htoken := List.getElem?_eq_getElem (l := positionalValues args) (i := 3) (by omega)
  have hentry : ((positionalValues args)[3], none) ∈
      (CLI.argGroups cmd 0 args).filterMap CLI.ArgGroup.positional? := by
    rw [filterMap_positional_argGroups]
    exact List.mem_map.mpr ⟨(_, 3), List.mem_zipIdx_iff_getElem?.mpr htoken, rfl⟩
  obtain ⟨group, hgroup, hpositional⟩ := List.mem_filterMap.mp hentry
  obtain rfl := CLI.positional?_eq_some.mp hpositional
  have hvalid := CLI.valid_of_atEvery_fits ((CLI.parseArgs_exitCode_iff cmd args).mp hokay)
  exact absurd (hvalid _ hgroup).1 (by simp [CLI.ArgGroup.option])

/-- Of a list with a second member there is a first. -/
theorem exists_first_of_second {l : List String} {second : String} (h : l[1]? = some second) :
    ∃ first, l[0]? = some first := by
  obtain ⟨hlength, -⟩ := List.getElem?_eq_some_iff.mp h
  exact ⟨l[0], List.getElem?_eq_getElem (by omega)⟩

/-- A list of at most three members with a third one. -/
theorem eq_three_of_getElem? {l : List String} {first second third : String} (hle : l.length ≤ 3)
    (hfirst : l[0]? = some first) (hsecond : l[1]? = some second) (hthird : l[2]? = some third) :
    l = [first, second, third] := by
  match l, hle with
  | [a, b, c], _ => simp_all
  | [], _ => cases hfirst
  | [a], _ => cases hsecond
  | [a, b], _ => cases hthird
  | _ :: _ :: _ :: _ :: _, hle =>
    simp only [List.length_cons] at hle
    omega

/-- With an input file, the command is executed. -/
theorem run_of_input (host : ConfigurationHost) (commandHost : CommandHost) (fs : FileSystem)
    (hokay : (CLI.parseArgs cmd args).exitCode = .everythingOkay)
    (hvalues : (CLI.parseArgs cmd args).values = some values)
    (hinput : (values.objectForKey "input-file").isSome) :
    (run host commandHost fs args).status = (execute host fs values).status ∧
      (run host commandHost fs args).fs = (execute host fs values).fs ∧
      (run host commandHost fs args).changes = (execute host fs values).changes := by
  obtain ⟨hshort, hlong⟩ := CLI.hasKey_helpFlag cmd_mem hokay hvalues
  have hkey : CLI.hasKey values "input-file" = true := by
    rw [CLI.hasKey, List.contains_eq_mem, decide_eq_true_iff]
    by_contra hmem
    rw [(values.objectForKey_eq_none_iff "input-file").mpr hmem] at hinput
    cases hinput
  have hfind : cmd.options.find? (fun opt => opt.required && !CLI.hasKey values opt.optionName) =
      none := by
    simp [xctestConfigReadWriteCommand, CommandOption.withPosition, hkey]
  simp [run, CLI.processCommand, CLI.dispatch, CLI.runCommand, hokay, hvalues, hshort, hlong, hfind]

end Parsed

/-! ## Overwriting -/

/-- The input file exists, has the extension of test configurations, and is decoded to one. -/
structure Configures (host : ConfigurationHost) (fs : FileSystem) (input : String)
    (config : XCTestConfiguration) : Prop where
  exists_input : host.fileExistsAtPath fs input = true
  extension : NSString.pathExtension input = "xctestconfiguration"
  decoded : configurationWithContentsOfFile host fs input = .ok (.ok config)

/-- The text that asks for the template names no configuration. -/
theorem ne_printTemplate {input : String}
    (h : NSString.pathExtension input = "xctestconfiguration") : input ≠ "--print-template" := by
  rintro rfl
  exact absurd h (by decide +kernel)

section

variable {host : ConfigurationHost} {fs : FileSystem} {values : NSDictionary ArgValue}
  {input output : String} {target : Path}

/-- The writing by the command. -/
theorem keepsOutput_writeConfiguration_iff
    (houtput : stringArg values "output-file" = some output) (hpath : host.path output = some target)
    (hexists : fs.Exists target) (requested : Prop) (config : XCTestConfiguration) :
    KeepsOutput fs target requested
        ((writeConfiguration host fs values config).status = .ok .everythingOkay)
        (writeConfiguration host fs values config).changes
        (writeConfiguration host fs values config).fs ↔
      ((values.objectForKey "--overwrite").isSome = true →
        host.fails (.removeItem target) = false → requested ∧ Writable host config target) := by
  have hsuccess : ∀ success : Bool,
      (Except.ok (if success then .everythingOkay else .genericFailure) :
        Except NSException IOSReturnStatusCode) = .ok .everythingOkay ↔ success = true := by
    decide
  simp only [writeConfiguration, houtput, hsuccess]
  exact keepsOutput_writeToPlistFile_iff hpath hexists _ requested

/-- **The execution.** An existing output file is kept unless a third value is bound, the input is a
configuration and the file can be removed; then it is kept exactly if that was requested and the
properties can be written. -/
theorem keepsOutput_execute_iff (hinput : stringArg values "input-file" = some input)
    (houtput : stringArg values "output-file" = some output) (hpath : host.path output = some target)
    (hexists : fs.Exists target) (requested : Prop) :
    KeepsOutput fs target requested ((execute host fs values).status = .ok .everythingOkay)
        (execute host fs values).changes (execute host fs values).fs ↔
      ((values.objectForKey "--overwrite").isSome = true → ∀ config,
        Configures host fs input config → host.fails (.removeItem target) = false →
          requested ∧ Writable host config target) := by
  -- an execution that ends before it writes keeps the output file
  have hended : ∀ status console, KeepsOutput fs target requested
      ((Run.ended fs status console).status = .ok .everythingOkay)
      (Run.ended fs status console).changes (Run.ended fs status console).fs :=
    fun _ _ => keepsOutput_refl _ _
  simp only [execute, hinput, readConfiguration]
  split
  · rename_i htemplate
    exact iff_of_true (hended _ _) fun _ _ h => absurd htemplate (ne_printTemplate h.extension)
  split
  · rename_i hmissing
    refine iff_of_true (hended _ _) fun _ _ h => ?_
    rw [h.exists_input] at hmissing
    cases hmissing
  split
  · rename_i hextension
    exact iff_of_true (hended _ _) fun _ _ h => absurd h.extension hextension
  rename_i hnamed hfound hextension
  cases hconfig : configurationWithContentsOfFile host fs input with
  | error e =>
    refine iff_of_true (hended _ _) fun _ _ h => ?_
    rw [h.decoded] at hconfig
    cases hconfig
  | ok result =>
    cases result with
    | error texts =>
      refine iff_of_true (hended _ _) fun _ _ h => ?_
      rw [h.decoded] at hconfig
      cases hconfig
    | ok config =>
      -- only here something is written
      have hconfigures : Configures host fs input config :=
        ⟨by simpa using hfound, by simpa using hextension, hconfig⟩
      refine (keepsOutput_writeConfiguration_iff houtput hpath hexists requested config).trans
        (forall_congr' fun _ => ⟨fun h other hother hremoves => ?_,
          fun h => h config hconfigures⟩)
      obtain rfl : other = config :=
        Except.ok.inj (Except.ok.inj (hother.decoded.symm.trans hconfig))
      exact h hremoves

end

/-- The string that the arguments bind to the output file, if they are parsed. -/
def outputFile (args : List String) : Option String :=
  (CLI.parseArgs cmd args).values.bind fun values => stringArg values "output-file"

/-- The command line asks to overwrite: it has the flag, not followed by `false`. -/
def AsksToOverwrite (args : List String) : Prop :=
  ∃ before after, args = before ++ "--overwrite" :: after ∧ after.head? ≠ some "false"

/-- An existing output file is removed or replaced only if the command line asks for it, and is as
before unless the command succeeds. -/
def OverwritesOnRequest (host : ConfigurationHost) (fs : FileSystem) (args : List String)
    (result : Run) : Prop :=
  ∀ output ∈ outputFile args, ∀ target ∈ host.path output, fs.Exists target →
    KeepsOutput fs target (AsksToOverwrite args) (result.status = .ok .everythingOkay)
      result.changes result.fs

/-- **When a test configuration is overwritten on request.** For every host and file system and all
arguments that are parsed: whenever there are three positional values, the first names a test
configuration, and what is at the second can be removed, the command line must ask to overwrite and
the properties must be ones that can be written. -/
theorem run_overwritesOnRequest_iff (host : ConfigurationHost) (commandHost : CommandHost)
    (fs : FileSystem) {args : List String}
    (hokay : (CLI.parseArgs cmd args).exitCode = .everythingOkay) :
    OverwritesOnRequest host fs args (run host commandHost fs args) ↔
      ∀ input output flag target config, positionalValues args = [input, output, flag] →
        Configures host fs input config → host.path output = some target → fs.Exists target →
          host.fails (.removeItem target) = false →
            AsksToOverwrite args ∧ Writable host config target := by
  obtain ⟨values, hvalues⟩ : ∃ values, (CLI.parseArgs cmd args).values = some values :=
    ⟨_, CLI.parseArgs_values hokay⟩
  have houtput : stringArg values "output-file" = (positionalValues args)[1]? :=
    stringArg_of_position hokay hvalues one_ne_zero cmd.options[1] rfl
  -- with two values at least, the run is the execution with these
  have hkeeps : ∀ {input output target}, (positionalValues args)[0]? = some input →
      (positionalValues args)[1]? = some output → host.path output = some target →
      fs.Exists target → (KeepsOutput fs target (AsksToOverwrite args)
          ((run host commandHost fs args).status = .ok .everythingOkay)
          (run host commandHost fs args).changes (run host commandHost fs args).fs ↔
        ((positionalValues args)[2]?.isSome = true → ∀ config, Configures host fs input config →
          host.fails (.removeItem target) = false →
            AsksToOverwrite args ∧ Writable host config target)) := by
    intro input output target hfirst hsecond hpath hexists
    have hinput : values.objectForKey "input-file" = some (.string input) :=
      objectForKey_of_getElem? hokay hvalues hfirst cmd.options[0] rfl
    have hthird : (values.objectForKey "--overwrite").isSome =
        (positionalValues args)[2]?.isSome := by
      rw [← Option.isSome_map (f := ArgValue.string),
        ← objectForKey_of_position hokay hvalues two_ne_zero cmd.options[2] rfl]
      rfl
    obtain ⟨hstatus, hfs, hchanges⟩ := run_of_input host commandHost fs hokay hvalues
      (Option.isSome_of_mem hinput)
    rw [hstatus, hfs, hchanges, keepsOutput_execute_iff (by rw [stringArg, hinput])
      (houtput.trans hsecond) hpath hexists, hthird]
  have houtputFile : outputFile args = (positionalValues args)[1]? := by
    rw [outputFile, hvalues, Option.bind_some, houtput]
  constructor
  · intro h input output flag target config hargs hconfigures hpath hexists hremoves
    have hkept := h output (by rw [houtputFile, hargs]; rfl) target hpath hexists
    rw [hkeeps (by rw [hargs]; rfl) (by rw [hargs]; rfl) hpath hexists] at hkept
    exact hkept (by rw [hargs]; rfl) config hconfigures hremoves
  · intro h output houtputMem target hpath hexists
    rw [houtputFile] at houtputMem
    obtain ⟨input, hinput⟩ : ∃ input, (positionalValues args)[0]? = some input :=
      exists_first_of_second houtputMem
    rw [hkeeps hinput houtputMem hpath hexists]
    intro hflag config hconfigures hremoves
    obtain ⟨flag, hflag⟩ := Option.isSome_iff_exists.mp hflag
    have hthree := eq_three_of_getElem? (length_positionalValues_le hokay) hinput houtputMem hflag
    exact h input output flag target config hthree hconfigures hpath hexists hremoves

/-! ### A file that is overwritten -/

/-- A host where every file in `/tmp` is decoded to one configuration and nothing fails. -/
def sampleHost : ConfigurationHost where
  path name := if name = "" then none else some ["tmp", name]
  loadError := none
  unarchive _ := .ok (some (.configuration
    ⟨"<XCTestConfiguration>", [("productModuleName", some (.string "MyAppUITests"))]⟩))
  serialize _ := []
  fails := noFailure
  removeError _ := ""
  writeFails _ := false

/-- A command host, of which nothing is asked. -/
def sampleCommandHost : CommandHost where
  lowercaseString := id
  execute _ _ := .ok .everythingOkay
  defaultPhysicalDeviceID := none
  defaultSimulatorID := none

/-- A configuration and a property list in `/tmp`. -/
def sampleFiles : FileSystem :=
  ((PathStore.empty.create ["tmp"]).write ["tmp"] "a.xctestconfiguration" [1] (by decide +kernel)
    (by decide +kernel)).write ["tmp"] "b.plist" [2] (by decide +kernel) (by decide +kernel)

/-- With the flag as the last token, the property list is overwritten on request. -/
theorem run_overwritesOnRequest_flag :
    OverwritesOnRequest sampleHost sampleFiles ["a.xctestconfiguration", "b.plist", "--overwrite"]
      (run sampleHost sampleCommandHost sampleFiles
        ["a.xctestconfiguration", "b.plist", "--overwrite"]) := by
  refine (run_overwritesOnRequest_iff sampleHost sampleCommandHost sampleFiles
    (by decide +kernel)).mpr fun input output flag target config hargs hconfigures hpath _ _ => ?_
  have htokens : positionalValues ["a.xctestconfiguration", "b.plist", "--overwrite"] =
      ["a.xctestconfiguration", "b.plist", "--overwrite"] := by decide +kernel
  simp only [htokens, List.cons.injEq, and_true] at hargs
  obtain ⟨rfl, rfl, rfl⟩ := hargs
  obtain rfl := Option.some.inj hpath
  have hdecoded : configurationWithContentsOfFile sampleHost sampleFiles "a.xctestconfiguration" =
      .ok (.ok ⟨"<XCTestConfiguration>",
        [("productModuleName", some (.string "MyAppUITests"))]⟩) := rfl
  obtain rfl := Except.ok.inj (Except.ok.inj (hconfigures.decoded.symm.trans hdecoded))
  exact ⟨⟨["a.xctestconfiguration", "b.plist"], [], rfl, by simp⟩, by simp, rfl,
    by decide +kernel⟩

/-- `xctestconfig a.xctestconfiguration b.plist false` replaces the property list. -/
theorem run_overwrites_false :
    (CLI.parseArgs cmd ["a.xctestconfiguration", "b.plist", "false"]).exitCode = .everythingOkay ∧
      (run sampleHost sampleCommandHost sampleFiles
        ["a.xctestconfiguration", "b.plist", "false"]).changes =
          [.removed ["tmp", "b.plist"], .written ["tmp", "b.plist"]] ∧
      ¬ OverwritesOnRequest sampleHost sampleFiles ["a.xctestconfiguration", "b.plist", "false"]
        (run sampleHost sampleCommandHost sampleFiles
          ["a.xctestconfiguration", "b.plist", "false"]) := by
  have hchanges : (run sampleHost sampleCommandHost sampleFiles
      ["a.xctestconfiguration", "b.plist", "false"]).changes =
        [.removed ["tmp", "b.plist"], .written ["tmp", "b.plist"]] := by decide +kernel
  refine ⟨by decide +kernel, hchanges, fun h => ?_⟩
  have hkept := h "b.plist" rfl ["tmp", "b.plist"] rfl (by decide +kernel)
  obtain ⟨before, after, hargs, -⟩ :=
    hkept.onRequest ⟨.removed ["tmp", "b.plist"], by simp [hchanges], rfl⟩
  have hmem : "--overwrite" ∈ ["a.xctestconfiguration", "b.plist", "false"] := by
    rw [hargs]
    simp
  exact absurd hmem (by decide)

end XCTestConfigReadWriteCommand

end IOSDeviceManager
