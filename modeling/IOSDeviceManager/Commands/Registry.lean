import IOSDeviceManager.Commands.Command

/-! # The commands of the program

The option tables of the classes that conform to `iOSDeviceManagementCommand`. -/

namespace IOSDeviceManager

namespace Commands

/-- `AppInfoCommand`. -/
def appInfoCommand : Command where
  name := "app-info"
  options := [
    .withPosition 0 bundleIDOptionName
      "bundle identifier (e.g. com.my.app)" false none,
    .withPosition 0 "app-path"
      "Path .app bundle or .ipa" false none,
    .withShortFlag deviceIDFlag "--device-id" deviceIDOptionName
      "iOS Simulator GUID, physical device ID, or an alias" false none]

/-- `ClearAppDataCommand`. -/
def clearAppDataCommand : Command where
  name := "clear-app-data"
  options := [
    .withPosition 0 bundleIDOptionName
      "bundle identifier (e.g. com.my.app)" false none,
    .withPosition 0 "app-path"
      "Path .app bundle or .ipa" false none,
    .withPosition 1 deviceIDOptionName
      "iOS Simulator GUID, physical device ID, or an alias" false none]

/-- `DownloadXCAppDataCommand`. -/
def downloadXCAppDataCommand : Command where
  name := "download-xcappdata"
  options := [
    .withPosition 0 bundleIDOptionName
      "bundle identifier (e.g. com.my.app)" false none,
    .withPosition 0 "app-path"
      "Path .app bundle or .ipa" false none,
    .withPosition 1 "download-path"
      "Path to download .xcappdata" true none,
    .withPosition 2 deviceIDOptionName
      "iOS Simulator GUID, physical device ID, or an alias" false none]

/-- `EraseSimulatorCommand`. -/
def eraseSimulatorCommand : Command where
  name := "erase-simulator"
  options := [
    .withPosition 0 deviceIDOptionName
      "iOS Simulator GUID, physical device ID, or an alias" true none]

/-- `GenerateXCAppDataCommand`. -/
def generateXCAppDataCommand : Command where
  name := "generate-xcappdata"
  options := [
    .withPosition 0 "file-path"
      "the path to the .xcappdata to generate" true none,
    .withShortFlag "-o" "--overwrite" "overwrite"
      "overwrite existing .xcappdata directory" false (some (.bool false))]

/-- `InstallAppCommand`. -/
def installAppCommand : Command where
  name := "install"
  options := [
    .withPosition 0 "app-path"
      "Path .app bundle or .ipa" true none,
    .withShortFlag deviceIDFlag "--device-id" deviceIDOptionName
      "iOS Simulator GUID, physical device ID, or an alias" true none,
    (CommandOption.withShortFlag "-f" "--force" "force-reinstall-app"
      "Reinstall the app if the device contains an older version than the bundle specified"
      false (some (.bool false))).asBooleanOption,
    .withShortFlag "-p" "--profile-path" "profile-path"
      "Path to provisioning profile" false none,
    .withShortFlag "-c" "--codesign-identity" codesignIDOptionName
      "Identity used to codesign app bundle [device only]. Deprecated - should use profile path."
      false (some (.string "")),
    .withShortFlag "-i" "--resources-path" resourcesPathOptionName
      ("Path to resources (executables) to inject into app directory. " ++
        "A list of colon separated files may be specified.") false none]

/-- `IsInstalledCommand`. -/
def isInstalledCommand : Command where
  name := "is-installed"
  options := [
    .withPosition 0 bundleIDOptionName
      "bundle identifier (e.g. com.my.app)" false none,
    .withPosition 0 "app-path"
      "path/to/app" false none,
    .withShortFlag deviceIDFlag "--device-id" deviceIDOptionName
      "iOS Simulator GUID, physical device ID, or an alias" true none]

/-- `KillAppCommand`. -/
def killAppCommand : Command where
  name := "kill-app"
  options := [
    .withPosition 0 bundleIDOptionName
      "bundle identifier (e.g. com.my.app)" true none,
    .withShortFlag deviceIDFlag "--device-id" deviceIDOptionName
      "iOS Simulator GUID, physical device ID, or an alias" true none]

/-- `KillSimulatorCommand`. -/
def killSimulatorCommand : Command where
  name := "kill-simulator"
  options := [
    .withShortFlag deviceIDFlag "--device-id" deviceIDOptionName
      "iOS Simulator UDID" false none]

/-- `LaunchAppCommand`. -/
def launchAppCommand : Command where
  name := "launch-app"
  options := [
    .withPosition 0 bundleIDOptionName
      "bundle identifier (e.g. com.my.app)" true none,
    .withShortFlag deviceIDFlag "--device-id" deviceIDOptionName
      "iOS Simulator GUID, physical device ID, or an alias" true none]

/-- `LaunchSimulatorCommand`. -/
def launchSimulatorCommand : Command where
  name := "launch-simulator"
  options := [
    .withShortFlag deviceIDFlag "--device-id" deviceIDOptionName
      "iOS Simulator GUIDs" true none]

/-- `ResignAllCommand`. -/
def resignAllCommand : Command where
  name := "resign-all"
  options := [
    .withPosition 0 "app-path"
      "Path to .ipa" true none,
    .withPosition 1 "profiles-directory-path"
      "Path to profiles directory" true none,
    .withShortFlag "-o" "--output-path" "output-path"
      "Path to directory to resigned output apps" true none,
    .withShortFlag "-i" "--resources-path" resourcesPathOptionName
      "Path to resources to inject" false none]

/-- `ResignCommand`. -/
def resignCommand : Command where
  name := "resign"
  options := [
    .withPosition 0 "app-path"
      "Path to .ipa" true none,
    .withPosition 1 "profile-path"
      "Path to provisioning profile" true none,
    .withShortFlag "-o" "--output-path" "output-path"
      "Path to resign output app" true none,
    .withShortFlag "-i" "--resources-path" resourcesPathOptionName
      "Path to resources to inject" false none]

/-- `ResignObjectCommand`. -/
def resignObjectCommand : Command where
  name := "resign-object"
  options := [
    .withPosition 0 "resign-object-path"
      "Path to dylib or framework to resign in page" true none,
    .withPosition 1 codesignIDOptionName
      "Codesign identity shasum or name" true none]

/-- `SimulateLocationCommand`. -/
def simulateLocationCommand : Command where
  name := "set-location"
  options := [
    .withPosition 0 "latitude,longitude"
      "latitude and longitude separated by a single comma" true none,
    .withShortFlag deviceIDFlag "--device-id" deviceIDOptionName
      "iOS Simulator GUID, physical device ID, or an alias" true none]

/-- `StopSimulatingLocationCommand`. -/
def stopSimulatingLocationCommand : Command where
  name := "stop-simulating-location"
  options := [
    .withShortFlag deviceIDFlag "--device-id" deviceIDOptionName
      "iOS Simulator GUID, physical device ID, or an alias" true none]

/-- `UninstallAppCommand`. -/
def uninstallAppCommand : Command where
  name := "uninstall"
  options := [
    .withPosition 0 bundleIDOptionName
      "bundle identifier (e.g. com.my.app)" true none,
    .withShortFlag deviceIDFlag "--device-id" deviceIDOptionName
      "iOS Simulator GUID, physical device ID, or an alias" true none]

/-- `UploadFileCommand`. -/
def uploadFileCommand : Command where
  name := "upload"
  options := [
    .withPosition 0 "file-path"
      "path to file to be uploaded" true none,
    .withPosition 1 bundleIDOptionName
      "bundle identifier (e.g. com.my.app)" true none,
    .withShortFlag deviceIDFlag "--device-id" deviceIDOptionName
      "iOS Simulator GUID, physical device ID, or an alias" true none,
    .withShortFlag "-o" "--overwrite" "overwrite"
      "overwrite file if already in app container" false (some (.bool false))]

/-- `UploadXCAppDataBundleCommand`. -/
def uploadXCAppDataBundleCommand : Command where
  name := "upload-xcappdata"
  options := [
    .withPosition 0 bundleIDOptionName
      "bundle identifier or path to .app on disk" true none,
    .withPosition 1 "file-path"
      "the path to the .xcappdata to generate" true none,
    .withShortFlag deviceIDFlag "--device-id" deviceIDOptionName
      "iOS Simulator GUID, physical device ID, or an alias" true none]

/-- `UploadXCTestConfigurationCommand`. -/
def uploadXCTestConfigurationCommand : Command where
  name := "upload-xctestconf"
  options := [
    .withPosition 0 bundleIDOptionName
      "path to application under test .app on disk" true none,
    .withPosition 1 runnerBundleIDOptionName
      "path to test -Runner.app on disk" true none,
    .withShortFlag deviceIDFlag "--device-id" deviceIDOptionName
      "iOS Simulator GUID, physical device ID, or an alias" true none]

/-- `VersionCommand`. -/
def versionCommand : Command where
  name := "version"
  options := [
    (CommandOption.withShortFlag "-j" "--json" "json"
      "Print version information as json" false none).asBooleanOption]

/-- `XCTestConfigReadWriteCommand`. -/
def xctestConfigReadWriteCommand : Command where
  name := "xctestconfig"
  options := [
    .withPosition 0 "input-file"
      "Path to an .xctestconfiguration file or --print-template to print .xctestconfig template"
      true none,
    .withPosition 1 "output-file"
      "Where to write the XCTestConfiguration to a .plist" false none,
    .withPosition 2 "--overwrite"
      "When writing, should an existing .plist be overwritten" false none]

/-- The commands that `+[CLI load]` collects. -/
def commandClasses : List Command := [
  appInfoCommand, clearAppDataCommand, downloadXCAppDataCommand, eraseSimulatorCommand,
  generateXCAppDataCommand, installAppCommand, isInstalledCommand, killAppCommand,
  killSimulatorCommand, launchAppCommand, launchSimulatorCommand, resignAllCommand,
  resignCommand, resignObjectCommand, simulateLocationCommand, stopSimulatingLocationCommand,
  uninstallAppCommand, uploadFileCommand, uploadXCAppDataBundleCommand,
  uploadXCTestConfigurationCommand, versionCommand, xctestConfigReadWriteCommand]

end Commands

end IOSDeviceManager
