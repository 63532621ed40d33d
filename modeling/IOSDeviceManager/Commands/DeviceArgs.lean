import IOSDeviceManager.Devices.Device
import IOSDeviceManager.Commands.Registry

/-! # Reading the arguments of a command

The device, the bundle identifier, the application, the flags and the codesign identity that the
arguments of a command stand for. -/

namespace IOSDeviceManager

/-- `boolValue`: of a string, after blanks, a sign and zeros, a `Y`, a `T` or another digit. -/
def ArgValue.boolValue : ArgValue → Bool
  | .bool b => b
  | .string s =>
      let unsigned :=
        match s.toList.dropWhile Char.isWhitespace with
        | '-' :: cs | '+' :: cs => cs
        | cs => cs
      match unsigned.dropWhile (· == '0') with
      | c :: _ => c.isDigit || ['Y', 'y', 'T', 't'].contains c
      | [] => false

/-- A component of a uniform type identifier after the first. -/
def isIdentifierLabel (label : List Char) : Bool :=
  decide (1 ≤ label.length ∧ label.length ≤ 63) &&
    label.all (fun c => c.isAlphanum || c == '-') && label.getLast? != some '-'

/-- `isUniformTypeIdentifier`: two to six letters, and at least one more component. -/
def isUniformTypeIdentifier (s : String) : Bool :=
  match s.toList.splitOn '.' with
  | first :: label :: labels =>
      decide (2 ≤ first.length ∧ first.length ≤ 6) && first.all Char.isAlpha &&
        (label :: labels).all isIdentifierLabel
  | _ => false

/-- `optionDict`: the last option of a short flag. -/
def Command.optionDict (cmd : Command) (flag : String) : Option CommandOption :=
  cmd.options.reverse.find? fun op => op.shortFlag == flag

/-- The `boolValue` of an argument, or of the default of the option. -/
def boolArg (cmd : Command) (args : NSDictionary ArgValue) (flag optionName : String) : Bool :=
  match args.objectForKey optionName with
  | some value => value.boolValue
  | none => ((cmd.optionDict flag).bind CommandOption.defaultValue).any ArgValue.boolValue

/-- `APP_PATH_OPTION_NAME`. -/
def appPathOptionName : String := "app-path"

namespace DeviceHost

/-- `expandPath:` of an argument; a missing one cannot be appended to the current directory. -/
def expandArgument (host : DeviceHost) : Option String → Except NSException String
  | none => .error .invalidArgument
  | some path => .ok (host.expandPath path)

/-- `appBundleOrIpaArchiveExistsAtPath:`. -/
def appBundleOrIpaArchiveExistsAtPath (host : DeviceHost) (path : String) : Bool :=
  let expanded := some (host.expandPath path)
  if NSString.hasSuffix path ".app" then host.isDirectoryAtPath expanded
  else if NSString.hasSuffix path ".ipa" then
    host.fileExistsAtPath expanded && !host.isDirectoryAtPath expanded
  else false

/-- `withBundlePath:` of `Application`; an archive is unpacked first. -/
def withBundlePath (host : DeviceHost) (pathToBundle : Option String) :
    Except NSException (Option Application) := do
  let path ← host.expandArgument pathToBundle
  if !host.fileExistsAtPath (some path) then return none
  let path ← if NSString.hasSuffix path ".ipa" then host.unzipToTmpDir path else pure path
  if !NSString.hasSuffix path ".app" then return none
  return host.application path

end DeviceHost

/-- `deviceFromArgs:`. -/
def deviceFromArgs (host : DeviceHost) (args : NSDictionary ArgValue) :
    Except NSException (Option Device) := do
  let deviceID ←
    match stringArg args deviceIDOptionName with
    | some deviceID => pure deviceID
    | none => DeviceUtils.defaultDeviceID host
  Device.withID host deviceID

/-- `simulatorFromArgs:`. -/
def simulatorFromArgs (host : DeviceHost) (args : NSDictionary ArgValue) :
    Except NSException (Option Device) := do
  let deviceID ←
    match stringArg args deviceIDOptionName with
    | some deviceID => pure deviceID
    | none => host.defaultSimulatorID
  if !DeviceUtils.isSimulatorID deviceID then
    throw (.named "InvalidArgumentException"
      "The specified device id does not match a simulator id")
  Device.withID host deviceID

/-- The bundle identifier in the arguments, or that of the app at the path given in its place:
`none` if it is neither. -/
def bundleIDFromArgs (host : DeviceHost) (args : NSDictionary ArgValue) :
    Except NSException (Option (Option String)) := do
  let bundleId := stringArg args bundleIDOptionName
  if bundleId.any isUniformTypeIdentifier then return some bundleId
  let expanded ← host.expandArgument bundleId
  if !host.appBundleOrIpaArchiveExistsAtPath expanded then return none
  let app ← host.withBundlePath (some expanded)
  return some (app.map host.bundleID)

/-- The path of an app in the arguments, which an identifier cannot stand for: `none` if it is
one or nothing is there. -/
def appPathFromArgs (host : DeviceHost) (args : NSDictionary ArgValue) (optionName : String) :
    Except NSException (Option String) := do
  let idOrPath := stringArg args optionName
  if idOrPath.any isUniformTypeIdentifier then return none
  let expanded ← host.expandArgument idOrPath
  if !host.appBundleOrIpaArchiveExistsAtPath expanded then return none
  return some expanded

example : isUniformTypeIdentifier "com.my.app" = true := by decide

end IOSDeviceManager
