import IOSDeviceManager.General.Interaction
import IOSDeviceManager.Resigning.ApplicationSigning

/-! # `PhysicalDevice`: installing an application

`installApp:` on a physical device, as a program of the requests it makes of the device and of the
Mac. It uninstalls the old application first, to avoid a mismatch of entitlements, and only then
selects a profile and an identity and resigns the new one. -/

namespace IOSDeviceManager

open General

/-! ## `AppUtils` -/

namespace AppUtils

/-- `valueForKeyOrThrow:key:` for the value at a key. The message goes on with the whole plist. -/
def valueForKeyOrThrow (value : Option String) (key : String) : Except NSException String :=
  match value with
  | some value => .ok value
  | none =>
      .error (.named "NSInternalInconsistencyException"
        ("Missing required key '" ++ key ++ "' in plist: "))

/-- `appVersionIsDifferent:newPlist:`. -/
def appVersionIsDifferent (oldPlist newPlist : ApplicationPlist) : Except NSException Bool := do
  let oldShortVersionString ←
    valueForKeyOrThrow oldPlist.bundleShortVersion "CFBundleShortVersionString"
  let oldBundleVersion ← valueForKeyOrThrow oldPlist.bundleVersion "CFBundleVersion"
  let newShortVersionString ←
    valueForKeyOrThrow newPlist.bundleShortVersion "CFBundleShortVersionString"
  let newBundleVersion ← valueForKeyOrThrow newPlist.bundleVersion "CFBundleVersion"
  return oldShortVersionString != newShortVersionString || oldBundleVersion != newBundleVersion

end AppUtils

/-! ## The requests -/

/-- A `PhysicalDevice`. -/
structure PhysicalDevice where
  uuid : String
  /-- `architecture` of the `FBDevice`. -/
  architecture : String

/-- The end of an awaited request: whether there is a result, and whether the error is set. -/
structure Awaited where
  success : Bool
  error : Bool
  deriving DecidableEq

/-- The requests of an installation: to the device, to the keychain and the profiles of the Mac, and
to the codesigner. -/
inductive PhysicalDeviceRequest where
  /-- `AMDinstalledApplicationWithBundleIdentifier:bundleID:`: the plist of the application. -/
  | installedPlist (bundleID : String)
  /-- `installedApplicationWithBundleID:`. -/
  | installedApplication (bundleID : String)
  /-- The `intValue` of `processIDWithBundleID:`, zero for `nil`. -/
  | processID (bundleID : String)
  /-- `killApplicationWithBundleID:`. -/
  | killApplication (bundleID : String)
  /-- `uninstallApplicationWithBundleID:`. -/
  | uninstallApplication (bundleID : String)
  /-- `identityForAppBundle:deviceId:`. -/
  | identityForAppBundle (appBundle deviceId : String)
  /-- `rankedProfiles:withIdentity:deviceUDID:appBundlePath:` of `nonExpiredIOSProfiles`. -/
  | rankedProfiles (identity : CodesignIdentity) (deviceUDID appBundlePath : String)
  /-- `resignApplication:withProvisioningProfile:withCodesignIdentity:resourcesToInject:`. -/
  | resignApplication (appPath : String) (profile : MobileProfile)
      (codesignIdentity : Option CodesignIdentity) (resourcePaths : List String)
  /-- `installProvisioningProfileAtPath:error:`. -/
  | installProvisioningProfile (profile : MobileProfile)
  /-- `installApplicationWithPath:`. -/
  | installApplication (appPath : String)

namespace PhysicalDeviceRequest

/-- The answers to a request. -/
abbrev Answer : PhysicalDeviceRequest → Type
  | installedPlist _ => Option ApplicationPlist
  | installedApplication _ => Awaited
  | processID _ => Int
  | identityForAppBundle .. => Option CodesignIdentity
  | rankedProfiles .. => List MobileProfile
  | resignApplication .. => Except NSException Unit
  | _ => Bool

end PhysicalDeviceRequest

/-- A program of requests. -/
abbrev PhysicalDeviceProgram (α : Type) : Type :=
  Interaction PhysicalDeviceRequest PhysicalDeviceRequest.Answer α

namespace PhysicalDevice

/-- The program that makes one request and awaits it. -/
abbrev request (r : PhysicalDeviceRequest) : PhysicalDeviceProgram r.Answer :=
  Interaction.request r

/-! ## Uninstalling -/

/-- `isInstalled:withError:`. -/
def isInstalledWithError (bundleID : String) : PhysicalDeviceProgram Awaited :=
  request (.installedApplication bundleID)

/-- `terminateApplication:wasRunning:`, without the second result. -/
def terminateApplication (bundleID : String) : PhysicalDeviceProgram Bool := do
  let pid ← request (.processID bundleID)
  if pid < 1 then return true
  else request (.killApplication bundleID)

/-- `uninstallApp:`. -/
def uninstallApp (bundleID : String) : PhysicalDeviceProgram IOSReturnStatusCode := do
  let installed ← isInstalledWithError bundleID
  if !installed.success then return .internalError
  else if installed.error then return .internalError
  else
    let terminated ← terminateApplication bundleID
    if terminated then
      let uninstalled ← request (.uninstallApplication bundleID)
      return if uninstalled then .everythingOkay else .internalError
    else return .internalError

/-! ## Selecting a profile and resigning -/

/-- `bestMatchProfileForApplication:device:codesignIdentity:`. -/
def bestMatchProfileWithIdentity (device : PhysicalDevice) (app : TypedApplication)
    (codesignID : CodesignIdentity) : PhysicalDeviceProgram (Option MobileProfile) := do
  let profiles ← request (.rankedProfiles codesignID device.uuid app.bundlePath)
  return profiles.head?

/-- `bestMatchProfileForApplication:device:`. -/
def bestMatchProfile (device : PhysicalDevice) (app : TypedApplication) :
    PhysicalDeviceProgram (Except NSException (Option MobileProfile)) := do
  let identity ← request (.identityForAppBundle app.bundlePath device.uuid)
  match identity with
  | none =>
      return .error (.cbx ("Unable to find appropriate codesign identity for device " ++
        device.uuid ++ " / app " ++ app.bundleID ++ " combo"))
  | some identity =>
      let profile ← bestMatchProfileWithIdentity device app identity
      return .ok profile

/-- The resigning with a profile, if there is one. -/
def resignWith (app : TypedApplication) (codesignIdentity : Option CodesignIdentity)
    (resourcePaths : List String) :
    Option MobileProfile → PhysicalDeviceProgram (Except NSException (Option MobileProfile))
  | none => return .ok none
  | some profile => do
      let resigned ←
        request (.resignApplication app.bundlePath profile codesignIdentity resourcePaths)
      return resigned.map fun _ => some profile

/-- `resignApp:identity:resourcesToInject:`. -/
def resignApp (device : PhysicalDevice) (app : TypedApplication) (identity : CodesignIdentity)
    (resourcePaths : List String) :
    PhysicalDeviceProgram (Except NSException (Option MobileProfile)) := do
  let profile ← bestMatchProfileWithIdentity device app identity
  resignWith app (some identity) resourcePaths profile

/-- The middle of `installApp:`: the profile the application was resigned with, or `none` when there
is none. -/
def selectAndResign (device : PhysicalDevice) (app : TypedApplication)
    (profile : Option MobileProfile) (codesignID : Option CodesignIdentity)
    (resourcePaths : List String) :
    PhysicalDeviceProgram (Except NSException (Option MobileProfile)) :=
  match codesignID with
  | some identity => resignApp device app identity resourcePaths
  | none =>
      match profile with
      | some profile => resignWith app none resourcePaths (some profile)
      | none => do
          let profile ← bestMatchProfile device app
          match profile with
          | .error e => return .error e
          | .ok profile => resignWith app none resourcePaths profile

/-! ## Installing -/

/-- `installedApp:`. -/
def installedApp (device : PhysicalDevice) (bundleID : String) :
    PhysicalDeviceProgram (Option TypedApplication) := do
  let plist ← request (.installedPlist bundleID)
  return plist.map fun plist => .withBundleID bundleID plist [device.architecture]

/-- `shouldUpdateApp:installedApp:statusCode:` for an app that is installed; the status code stays
`iOSReturnStatusCodeEverythingOkay`. -/
def shouldUpdateApp (newApp installedApp : TypedApplication) : Except NSException Bool :=
  AppUtils.appVersionIsDifferent installedApp.infoPlist newApp.infoPlist

/-- The first part of `installApp:`. -/
def needsInstall (device : PhysicalDevice) (app : TypedApplication) (forceReinstall : Bool) :
    PhysicalDeviceProgram (Except NSException Bool) := do
  let installedApp ← installedApp device app.bundleID
  match installedApp with
  | none => return .ok true
  | some installedApp =>
      return if forceReinstall then .ok true else shouldUpdateApp app installedApp

/-- The end of `installApp:`. The comparison of the entitlements writes to the log only. -/
def installSigned (app : TypedApplication) (profile : MobileProfile) :
    PhysicalDeviceProgram IOSReturnStatusCode := do
  let installed ← request (.installProvisioningProfile profile)
  if !installed then return .internalError
  else
    let installed ← request (.installApplication app.bundlePath)
    return if installed then .everythingOkay else .internalError

/-- What is left of `installApp:` when the application was resigned, or could not be. -/
def finishInstall (app : TypedApplication) : Except NSException (Option MobileProfile) →
    PhysicalDeviceProgram (Except NSException IOSReturnStatusCode)
  | .error e => return .error e
  | .ok none => return .ok .internalError
  | .ok (some profile) => do
      let code ← installSigned app profile
      return .ok code

/-- The rest of `installApp:`, if the application is to be installed. -/
def reinstall (device : PhysicalDevice) (app : TypedApplication) (profile : Option MobileProfile)
    (codesignID : Option CodesignIdentity) (resourcePaths : List String) :
    PhysicalDeviceProgram (Except NSException IOSReturnStatusCode) := do
  -- to avoid a mismatch of the application-identifier entitlement; the status is dropped
  let _ ← uninstallApp app.bundleID
  let profile ← selectAndResign device app profile codesignID resourcePaths
  finishInstall app profile

/-- `installApp:mobileProfile:codesignIdentity:resourcesToInject:forceReinstall:`. -/
def installApp (device : PhysicalDevice) (app : TypedApplication) (profile : Option MobileProfile)
    (codesignID : Option CodesignIdentity) (resourcePaths : List String) (forceReinstall : Bool) :
    PhysicalDeviceProgram (Except NSException IOSReturnStatusCode) := do
  let needed ← needsInstall device app forceReinstall
  match needed with
  | .error e => return .error e
  | .ok false => return .ok .everythingOkay
  | .ok true => reinstall device app profile codesignID resourcePaths

end PhysicalDevice

end IOSDeviceManager
