import IOSDeviceManager.Commands.AppInfo
import IOSDeviceManager.Resigning.AutoDetectedProfile
import IOSDeviceManager.Resigning.ResourceInjection

/-! # `Application`: the type, and the signing it leads to

An `Application` takes its type from the architectures of its executable. The codesigner knows the
type alone, not the device: it signs a simulator application ad hoc, and every other one with the
profile it is given, which may be `nil`. -/

namespace IOSDeviceManager

open General

/-! ## `Application` -/

/-- The keys of an `Info.plist` that `Application` reads. -/
structure ApplicationPlist where
  /-- `CFBundleExecutable`. -/
  bundleExecutable : Option String
  /-- `CFBundleShortVersionString`. -/
  bundleShortVersion : Option String
  /-- `CFBundleVersion`. -/
  bundleVersion : Option String
  /-- `CFBundleDisplayName`. -/
  bundleDisplayName : Option String
  /-- `Entitlements`. -/
  entitlements : Option (NSDictionary Json.Value)
  /-- `Path`. -/
  path : Option String

/-- An `Application` with its type and its `Info.plist`. -/
structure TypedApplication extends ApplicationDetails where
  infoPlist : ApplicationPlist
  type : ApplicationType

/-- The path, which an application that is read from a bundle has. -/
def TypedApplication.bundlePath (app : TypedApplication) : String :=
  app.path.getD ""

/-- A host with application bundles. -/
structure ApplicationHost extends InjectionHost where
  /-- `dictionaryWithContentsOfFile:` of an `Info.plist`. -/
  infoPlist : String → Option ApplicationPlist
  /-- The `architectures` of the binary at a path. -/
  architectures : String → Option (List String)
  /-- The `identifier` of the bundle at a path. -/
  bundleIdentifier : String → Option String
  /-- `dictionaryOfEntitlementsWithBundlePath:`. -/
  entitlements : String → Option (NSDictionary Json.Value)
  /-- The app directory at a path. -/
  appDir : String → AppDir
  /-- What the ad hoc `codesign` of an app directory writes to `stderr`, if it fails. -/
  codesign : String → Option String
  /-- The error of deleting the `.DS_STORE` in a directory, if it is there and cannot be deleted. -/
  deleteDSStore : String → Option String

namespace TypedApplication

/-- The type that the architectures stand for. -/
def typeOf (architectures : List String) : ApplicationType :=
  if architectures.contains "x86_64" || architectures.contains "i386" then .simulator
  else if architectures.contains "arm" || architectures.contains "armv7" ||
      architectures.contains "armv7s" || architectures.contains "arm64" then .physicalDevice
  else .unknown

/-- `withBundleID:plist:architectures:`. -/
def withBundleID (bundleID : String) (plist : ApplicationPlist) (architectures : List String) :
    TypedApplication where
  bundleID := bundleID
  infoPlist := plist
  arches := architectures
  executableName := plist.bundleExecutable
  bundleShortVersion := plist.bundleShortVersion
  bundleVersion := plist.bundleVersion
  entitlements := plist.entitlements
  displayName := plist.bundleDisplayName
  path := plist.path
  type := typeOf architectures

/-- The end of `withBundlePath:`: the path, and the entitlements of the signature unless the
application is one for a simulator. -/
def located (host : ApplicationHost) (path : String) (app : TypedApplication) : TypedApplication :=
  { app with
    path := some path
    entitlements :=
      if app.type = .simulator then some NSDictionary.empty
      else host.entitlements path <|> app.entitlements }

/-- `withBundlePath:`. -/
def withBundlePath (host : ApplicationHost) (pathToBundle : String) :
    Except NSException (Option TypedApplication) := do
  let path := host.expandPath pathToBundle
  if !host.fileExistsAtPath (some path) then return none
  let path ← if NSString.hasSuffix path ".ipa" then host.unzipToTmpDir path else pure path
  if !NSString.hasSuffix path ".app" then return none
  let plistPath := NSString.stringByAppendingPathComponent path "Info.plist"
  if !host.fileExistsAtPath (some plistPath) then return none
  match host.infoPlist plistPath with
  | none => throw .invalidArgument
  | some infoPlist =>
      match infoPlist.bundleExecutable with
      -- a missing name cannot be appended to the path
      | none => throw .invalidArgument
      | some executableName =>
          let executablePath := NSString.stringByAppendingPathComponent path executableName
          if !host.fileExistsAtPath (some executablePath) then return none
          match host.architectures executablePath, host.bundleIdentifier path with
          | some arches, some identifier =>
              return some (located host path (withBundleID identifier infoPlist arches))
          | _, _ => return none

theorem typeOf_eq_simulator_iff (architectures : List String) :
    typeOf architectures = .simulator ↔ "x86_64" ∈ architectures ∨ "i386" ∈ architectures := by
  rw [← List.contains_iff_mem, ← List.contains_iff_mem, ← Bool.or_eq_true]
  unfold typeOf
  split
  · rename_i h
    exact iff_of_true rfl h
  · rename_i h
    refine iff_of_false ?_ h
    split <;> nofun

/-- Whatever bundle it is read from, an application has the type of its architectures. -/
theorem type_of_withBundlePath {host : ApplicationHost} {pathToBundle : String}
    {app : TypedApplication} (h : withBundlePath host pathToBundle = .ok (some app)) :
    app.type = typeOf app.arches := by
  unfold withBundlePath at h
  simp only [bind, Except.bind, pure, Except.pure, throw, throwThe, MonadExceptOf.throw] at h
  -- every way out but the last one returns nothing or throws
  repeat' split at h
  all_goals first
    | cases h; done
    | obtain rfl := Option.some.inj (Except.ok.inj h); rfl

end TypedApplication

/-! ## `Codesigner` -/

/-- What `nil` answers to the messages of a profile. -/
def MobileProfile.nil : MobileProfile where
  name := none
  uuid := none
  expirationDate := none
  applicationIdentifierPrefix := none
  developerCertificates := []
  provisionedDevices := none
  entitlements := ⟨none⟩
  entitlements_weight_lt := by decide

/-- The methods of the codesigner that sign an app directory. -/
inductive SigningCall where
  | adHocSign (appDir : String)
  | resignAppDir (appDir : String) (profile : Option MobileProfile)

namespace Codesigner

/-- `adHocSign:resourcesToInject:`. -/
def adHocSign (host : ApplicationHost) (appDir : String) (resourcePaths : List String) :
    Except NSException Unit := do
  let _ ← ResourceInjection.injectResources host.toInjectionHost (Path.ofText appDir)
    resourcePaths host.fs
  match host.codesign appDir with
  | none => return ()
  | some stderrStr => throw (.cbx ("Error codesigning " ++ appDir ++ ": " ++ stderrStr))

/-- `prepareResign:`. -/
def prepareResign (host : ApplicationHost) (appPath : String) : Except NSException Unit :=
  match host.deleteDSStore appPath with
  | none => .ok ()
  | some e => .error (.cbx ("Error deleting .DS_STORE: " ++ e))

/-- `resignApplication:withProvisioningProfile:withCodesignIdentity:resourcesToInject:`, with the
methods that it enters. -/
def resignApplicationWithProvisioningProfile (host : ApplicationHost) (type : ApplicationType)
    (path : String) (profile : Option MobileProfile) (codesignIdentity : Option CodesignIdentity)
    (resourcePaths : List String) : List SigningCall × Except NSException Unit :=
  if type = .simulator then ([.adHocSign path], adHocSign host path resourcePaths)
  else
    match prepareResign host path with
    | .error e => ([], .error e)
    | .ok () =>
        ([.resignAppDir path profile],
          (resignAppDir host.environment (host.appDir path) (profile.getD .nil)
            codesignIdentity).map fun _ => ())

/-- A `nil` profile has no identity. -/
theorem resignAppDir_nil (env : SigningEnvironment) (app : AppDir) :
    resignAppDir env app .nil none = .error (identityError none) :=
  rfl

/-- The exceptions for want of a profile: about its prefixes, about the `Info.plist` and about the
codesign identity. -/
def ConcernsProfile (e : NSException) : Prop :=
  e = .range ∨ (∃ path, e = .cbx ("No Info.plist found for bundle: " ++ path)) ∨
    ∃ name, e = identityError name

/-- A text that begins differently is about something else. -/
theorem not_concernsProfile_cbx {a : String} (s : String)
    (hplist : ¬ a.toList <+: "No Info.plist found for bundle: ".toList ∧
      ¬ "No Info.plist found for bundle: ".toList <+: a.toList)
    (hidentity : ¬ a.toList <+: "Unable to find valid codesign identity from profile ".toList ∧
      ¬ "Unable to find valid codesign identity from profile ".toList <+: a.toList) :
    ¬ ConcernsProfile (.cbx (a ++ s)) := by
  rintro (hrange | ⟨path, hpath⟩ | ⟨name, hname⟩)
  · cases hrange
  · exact append_ne_append hplist.1 hplist.2 s path (NSException.cbx.inj hpath)
  · exact cbx_append_ne_identityError hidentity.1 hidentity.2 s name hname

/-- The injection of resources throws about the resources. -/
theorem not_concernsProfile_injectResources {host : InjectionHost} {appDir : Path}
    {resourcePaths : List String} {fs : FileSystem} {e : NSException}
    (h : ResourceInjection.injectResources host appDir resourcePaths fs = .error e) :
    ¬ ConcernsProfile e := by
  induction resourcePaths generalizing fs with
  | nil => cases h
  | cons resourcePath resourcePaths ih =>
    rcases ResourceInjection.bind_eq_error h with hinjected | ⟨injected, -, h⟩
    · -- a round throws for a resource that is missing or cannot be copied
      simp only [ResourceInjection.injectResource] at hinjected
      split at hinjected
      · obtain rfl := Except.error.inj hinjected
        rw [String.append_assoc]
        exact not_concernsProfile_cbx _ (by decide) (by decide)
      split at hinjected
      · obtain rfl := Except.error.inj hinjected
        exact not_concernsProfile_cbx _ (by decide) (by decide)
      · cases hinjected
    · rcases ResourceInjection.bind_eq_error h with hrest | ⟨rest, -, hok⟩
      · exact ih hrest
      · cases hok

/-- Signing ad hoc throws about the resources or about the app directory. -/
theorem not_concernsProfile_adHocSign {host : ApplicationHost} {appDir : String}
    {resourcePaths : List String} {e : NSException}
    (h : adHocSign host appDir resourcePaths = .error e) : ¬ ConcernsProfile e := by
  rcases ResourceInjection.bind_eq_error h with hinjected | ⟨injected, -, h⟩
  · exact not_concernsProfile_injectResources hinjected
  -- otherwise it is `codesign` that fails
  · split at h
    · cases h
    · obtain rfl := Except.error.inj h
      rw [String.append_assoc, String.append_assoc]
      exact not_concernsProfile_cbx _ (by decide) (by decide)

end Codesigner

end IOSDeviceManager
