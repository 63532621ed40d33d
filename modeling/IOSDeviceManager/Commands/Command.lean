import IOSDeviceManager.Foundation.NSString

/-! # `CommandOption` and `Command`

A command is its name and its table of options. The lookups by flag and by position scan the table
in order; every command also understands the help flags. -/

namespace IOSDeviceManager

/-- `iOSReturnStatusCode`. -/
inductive IOSReturnStatusCode where
  | everythingOkay
  | genericFailure
  | false
  | missingArguments
  | invalidArguments
  | internalError
  | unrecognizedCommand
  | unrecognizedFlag
  | deviceNotFound
  | noValidCodesignIdentity
  deriving DecidableEq, Repr

/-- The value of an argument: an `NSString`, or the `NSNumber` of a boolean. -/
inductive ArgValue where
  | string (s : String)
  | bool (b : Bool)
  deriving DecidableEq, Repr

/-- `%@` of a value. -/
def ArgValue.description : ArgValue → String
  | .string s => s
  | .bool b => if b then "1" else "0"

/-- `CommandOption`. -/
structure CommandOption where
  shortFlag : String
  longFlag : String
  optionName : String
  additionalInfo : String
  defaultValue : Option ArgValue
  position : Nat
  positional : Bool
  required : Bool
  requiresArgument : Bool
  /-- A positional option has no flags. -/
  flags_eq_empty : positional = true → shortFlag = "" ∧ longFlag = ""
  deriving DecidableEq, Repr

namespace CommandOption

/-- `withPosition:optionName:info:required:defaultVal:`. -/
def withPosition (positionIndex : Nat) (optionName info : String) (required : Bool)
    (defaultValue : Option ArgValue) : CommandOption where
  shortFlag := ""
  longFlag := ""
  optionName := optionName
  additionalInfo := info
  defaultValue := defaultValue
  position := positionIndex
  positional := true
  required := required
  requiresArgument := true
  flags_eq_empty _ := ⟨rfl, rfl⟩

/-- `withShortFlag:longFlag:optionName:info:required:defaultVal:`. -/
def withShortFlag (shortFlag longFlag optionName info : String) (required : Bool)
    (defaultValue : Option ArgValue) : CommandOption where
  shortFlag := shortFlag
  longFlag := longFlag
  optionName := optionName
  additionalInfo := info
  defaultValue := defaultValue
  position := 0
  positional := false
  required := required
  requiresArgument := true
  flags_eq_empty h := nomatch h

/-- `asBooleanOption`: a flagged copy that takes no argument. -/
def asBooleanOption (op : CommandOption) : CommandOption :=
  { withShortFlag op.shortFlag op.longFlag op.optionName op.additionalInfo op.required
      op.defaultValue with requiresArgument := false }

end CommandOption

/-- `HELP_SHORT_FLAG`. -/
def helpShortFlag : String := "-h"

/-- `HELP_LONG_FLAG`. -/
def helpLongFlag : String := "--help"

/-- `DEVICE_ID_FLAG`. -/
def deviceIDFlag : String := "-d"

/-- `BUNDLE_ID_OPTION_NAME`. -/
def bundleIDOptionName : String := "bundle-identifier"

/-- `RUNNER_BUNDLE_ID_OPTION_NAME`. -/
def runnerBundleIDOptionName : String := "runner-bundle-identifier"

/-- `DEVICE_ID_OPTION_NAME`. -/
def deviceIDOptionName : String := "device-identifier"

/-- `CODESIGN_ID_OPTION_NAME`. -/
def codesignIDOptionName : String := "codesign-identifier"

/-- `RESOURCES_PATH_OPTION_NAME`. -/
def resourcesPathOptionName : String := "resources-path"

/-- A `Command` class: its name and its options. -/
structure Command where
  name : String
  options : List CommandOption
  deriving DecidableEq, Repr

namespace Command

/-- The option that `optionForFlag:` makes up for the help flags. -/
def helpCommand : CommandOption :=
  (CommandOption.withShortFlag helpShortFlag helpLongFlag "help" "prints help" false
    (some (.bool false))).asBooleanOption

/-- `optionForFlag:`. -/
def optionForFlag (cmd : Command) (flag : String) : Option CommandOption :=
  match cmd.options.find? fun op => op.shortFlag == flag || op.longFlag == flag with
  | some op => some op
  | none => if flag = helpShortFlag ∨ flag = helpLongFlag then some helpCommand else none

/-- `positionalOptions`. -/
def positionalOptions (cmd : Command) : List CommandOption :=
  cmd.options.filter fun op => op.positional

/-- `flaggedOptions`. -/
def flaggedOptions (cmd : Command) : List CommandOption :=
  cmd.options.filter fun op => !op.positional

/-- `optionForPosition:`. -/
def optionForPosition (cmd : Command) (index : Nat) : Option CommandOption :=
  cmd.options.find? fun op => op.positional && op.position == index

/-- `optionForAppPathOrBundleID:`. -/
def optionForAppPathOrBundleID (cmd : Command) (arg : String) : Option CommandOption :=
  if NSString.hasSuffix arg ".app" || NSString.hasSuffix arg ".ipa" then cmd.options[1]?
  else cmd.options.head?

/-- The line of a positional option in the usage; the commands that take either an app path or a
bundle identifier say so. -/
def positionalUsage (cmd : Command) (op : CommandOption) : String :=
  " <" ++ op.optionName ++ ">" ++
    if ["is-installed", "app-info", "clear-app-data", "download-xcappdata"].contains cmd.name &&
        op.optionName == bundleIDOptionName then " OR"
    else ""

/-- The line of a flagged option in the usage. -/
def flaggedUsage (op : CommandOption) : String :=
  "\t\t" ++ op.shortFlag ++ "," ++ op.longFlag ++ "\t<" ++ op.optionName ++ ">" ++
    (if !op.required then " [OPTIONAL] " else "") ++
    (if op.additionalInfo ≠ "" then "\t" ++ op.additionalInfo else "") ++
    op.defaultValue.elim "" fun value => "\tDEFAULT=" ++ value.description

/-- `usage`. -/
def usage (cmd : Command) : String :=
  "\n\t" ++ cmd.name ++ String.join (cmd.positionalOptions.map cmd.positionalUsage) ++ "\n" ++
    "\n".intercalate (cmd.flaggedOptions.map flaggedUsage)

/-! ## The lookups -/

/-- A flag finds an option of the table that has it, or else the help option. -/
theorem optionForFlag_eq_some {cmd : Command} {flag : String} {op : CommandOption}
    (h : cmd.optionForFlag flag = some op) :
    (op ∈ cmd.options ∧ (op.shortFlag = flag ∨ op.longFlag = flag)) ∨
      (op = helpCommand ∧ (flag = helpShortFlag ∨ flag = helpLongFlag)) := by
  unfold optionForFlag at h
  split at h
  · rename_i found hfind
    obtain rfl := Option.some.inj h
    exact .inl ⟨List.mem_of_find?_eq_some hfind, by simpa using List.find?_some hfind⟩
  · split at h
    · rename_i hflag
      obtain rfl := Option.some.inj h
      exact .inr ⟨rfl, hflag⟩
    · cases h

/-- A flag of one option only finds that option. -/
theorem optionForFlag_of_unique {cmd : Command} {flag : String} {op : CommandOption}
    (hmem : op ∈ cmd.options) (hflag : op.shortFlag = flag ∨ op.longFlag = flag)
    (hunique : ∀ other ∈ cmd.options, (other.shortFlag = flag ∨ other.longFlag = flag) →
      other = op) :
    cmd.optionForFlag flag = some op := by
  have hfind : cmd.options.find? (fun op => op.shortFlag == flag || op.longFlag == flag) =
      some op := by
    cases hcases : cmd.options.find? fun op => op.shortFlag == flag || op.longFlag == flag with
    | none =>
      have hnone := List.find?_eq_none.mp hcases op hmem
      simp [hflag] at hnone
    | some found =>
      have hfound := List.find?_some hcases
      rw [hunique found (List.mem_of_find?_eq_some hcases) (by simpa using hfound)]
  simp [optionForFlag, hfind]

/-- A help flag that no option of the table has finds the help option. -/
theorem optionForFlag_help {cmd : Command} {flag : String}
    (hflag : flag = helpShortFlag ∨ flag = helpLongFlag)
    (hfree : ∀ op ∈ cmd.options, op.shortFlag ≠ flag ∧ op.longFlag ≠ flag) :
    cmd.optionForFlag flag = some helpCommand := by
  have hfind : cmd.options.find? (fun op => op.shortFlag == flag || op.longFlag == flag) =
      none := List.find?_eq_none.mpr fun op hop => by simp [hfree op hop]
  simp [optionForFlag, hfind, hflag]

/-- A position finds a positional option of the table at that position. -/
theorem optionForPosition_eq_some {cmd : Command} {index : Nat} {op : CommandOption}
    (h : cmd.optionForPosition index = some op) :
    op ∈ cmd.options ∧ op.positional = true ∧ op.position = index :=
  ⟨List.mem_of_find?_eq_some h, by simpa using List.find?_some h⟩

end Command

end IOSDeviceManager
