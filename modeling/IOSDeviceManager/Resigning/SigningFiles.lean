import IOSDeviceManager.General.ThrowingProgram
import IOSDeviceManager.Resigning.NamedIdentity
import IOSDeviceManager.Resigning.ResourceInjection
import IOSDeviceManager.Resigning.SigningDebts
import IOSDeviceManager.Utilities.AppArchive

/-! # Resigning on the files

What `resignApplication:withProvisioningProfile:resourcesToInject:` does to the files: the writes
and removals of `resignAppDir` in the order in which it makes them, the injection between them, and
the `codesign` calls. Whatever is thrown, what was done before stays. Nothing changes outside the
app directory; inside, a resigning without an exception leaves the last resource of each name and
what there was besides, but for the files that signing is about and the signatures in the others. -/

namespace IOSDeviceManager

open General

/-- A program on the files that may throw. -/
abbrev FileProgram (α : Type) : Type :=
  ThrowingProgram SigningRun.Stop FileSystem α

namespace FileProgram

variable {α : Type}

/-- The program with these outcomes. -/
def ofRun (run : FileSystem → Except NSException α × FileSystem) : FileProgram α :=
  ThrowingProgram.ofRun fun fs => (SigningRun.throwing (run fs).1, (run fs).2)

/-- The program that looks at the files. -/
def ofState (look : FileSystem → Except NSException α) : FileProgram α :=
  ofRun fun fs => (look fs, fs)

variable {run : FileSystem → Except NSException α × FileSystem}
  {look : FileSystem → Except NSException α} {fs fs' : FileSystem} {a : α}

/-- A run with a result. -/
theorem runFrom_ofRun_eq_ok_iff :
    (ofRun run).runFrom fs = (.ok a, fs') ↔ run fs = (.ok a, fs') := by
  rw [Prod.ext_iff, Prod.ext_iff, ← SigningRun.throwing_eq_ok_iff]
  rfl

/-- A program stays within a relation that its outcomes keep. -/
theorem within_ofRun {R : FileSystem → FileSystem → Prop} (h : ∀ fs, R fs (run fs).2) :
    (ofRun run).Within R :=
  h

/-- Looking at the files leaves them as they are. -/
theorem within_ofState {R : FileSystem → FileSystem → Prop} (hrefl : ∀ fs, R fs fs)
    (look : FileSystem → Except NSException α) : (ofState look).Within R :=
  hrefl

/-- What is read is what is there at some moment. -/
theorem exists_of_returns (h : (ofState look).Returns a) : ∃ fs, look fs = .ok a := by
  obtain ⟨fs, fs', hrun⟩ := h
  exact ⟨fs, congrArg Prod.fst (runFrom_ofRun_eq_ok_iff.mp hrun)⟩

end FileProgram

/-- The `codesign` calls that sign. -/
inductive CodesignCall where
  /-- The call of `resignObject:codesignIdentity:`. -/
  | object (path : Path) (identity : CodesignIdentity)
  /-- The call of `resignBundle:bundleExecutable:appEntitlementsFile:codesignIdentity:`; the
  executable and the file of the entitlements lie in the bundle. -/
  | bundle (path : Path) (executable entitlements : String) (identity : CodesignIdentity)
  /-- The call of `adHocSign:resourcesToInject:`. -/
  | adHoc (path : Path)

/-- The path that is signed. -/
def CodesignCall.path : CodesignCall → Path
  | object path _ => path
  | bundle path _ _ _ => path
  | adHoc path => path

/-- What a `ShellResult` says of a `codesign` call. -/
structure CodesignResult extends ShellResult where
  didTimeOut : Bool

/-- What the codesigner works with. -/
structure SigningHost where
  environment : SigningEnvironment
  /-- The files and directories as they are listed, from the root directory on. -/
  tree : FileSystem → FileTree
  /-- What `codesign --display` says of a path. -/
  info : FileSystem → Path → SigningRun.CodesignInfo
  /-- What is read of the app directory at a path. -/
  appDir : FileSystem → Path → AppDir
  /-- A `codesign` call through `xcrun:timeout:`. -/
  codesign : FileSystem → CodesignCall → CodesignResult × FileSystem
  /-- The property list of `AppGroupIDs` and `AllAppGroupIDs`. -/
  entitlementsMapData : EntitlementsMeta → List UInt8
  /-- The property list of entitlements. -/
  entitlementsData : NSDictionary EntitlementValue → List UInt8
  /-- The paths that cannot be written to. -/
  writeFails : Path → Bool
  /-- The description of the error of a failed copy. -/
  copyError : Path → Path → String
  /-- The description of the error of a failed removal. -/
  removeError : Path → String
  /-- The content of a file without the code signature in it. -/
  unsigned : List UInt8 → List UInt8

/-- What is at a path, without the code signature in it. -/
def SigningHost.content (host : SigningHost) :
    Option (Entry (List UInt8)) → Option (Entry (List UInt8)) :=
  Option.map fun
    | .file content => .file (host.unsigned content)
    | .directory => .directory

namespace SigningFiles

open ResourceInjection (targetFile)

section Definitions

variable (host : SigningHost) (fails : FailurePattern)

/-! ## Signing -/

/-- `resignObject:codesignIdentity:`. -/
def resignObject (identity : CodesignIdentity) (pathToObject : Path) : FileProgram Unit :=
  FileProgram.ofRun fun fs =>
    let result := host.codesign fs (.object pathToObject identity)
    (Codesigner.cbxThrowExceptionIf result.1.success
      ("Error codesigning " ++ pathToObject.text ++ ": " ++ result.1.stderrStr), result.2)

/-- `resignBundle:bundleExecutable:appEntitlementsFile:codesignIdentity:`. -/
def resignBundle (identity : CodesignIdentity) (pathToBundle : Path)
    (bundleExecutable appEntitlements : String) : FileProgram Unit :=
  FileProgram.ofRun fun fs =>
    let result := host.codesign fs (.bundle pathToBundle bundleExecutable appEntitlements identity)
    ((do
      Codesigner.cbxThrowExceptionIf (!result.1.didTimeOut)
        ("Timeout in resigning " ++ pathToBundle.text ++ " after 30 seconds")
      Codesigner.cbxThrowExceptionIf result.1.success
        ("Error codesigning " ++ pathToBundle.text ++ ": " ++ result.1.stderrStr)), result.2)

/-- The `codesign` of `adHocSign:resourcesToInject:`. -/
def codesignAdHoc (appDir : Path) : FileProgram Unit :=
  FileProgram.ofRun fun fs =>
    let result := host.codesign fs (.adHoc appDir)
    (Codesigner.cbxThrowExceptionIf result.1.success
      ("Error codesigning " ++ appDir.text ++ ": " ++ result.1.stderrStr), result.2)

/-! ## Injecting -/

/-- What is at the target is removed. A failed removal is not reported: the condition of its
exception holds. -/
def clearTarget (fs : FileSystem) (target : Path) : FileSystem :=
  if NSFileManager.fileExistsAtPath fs target then (fails.removeItemAtPath fs target).getD fs
  else fs

/-- The copy in a round of `injectResources:intoAppDir:codesignIdentity:baseDir:`. One that fails
leaves the target removed. -/
def copyResource (appDir : Path) (resourcePath : String) : FileProgram Unit :=
  FileProgram.ofRun fun fs =>
    let source := Path.ofText resourcePath
    if NSFileManager.fileExistsAtPath fs source = false then
      (.error (.cbx ("Failed to inject resources: file '" ++ resourcePath ++
        "' does not exist!")), fs)
    else
      let target := targetFile appDir source
      -- the target is gone already when a copy fails
      let cleared := clearTarget fails fs target
      match fails.copyItemAtPath cleared source target with
      | none =>
          (.error (.cbx ("Error injecting resource: " ++ host.copyError source target)), cleared)
      | some copied => (.ok (), copied)

/-- A round of `injectResources:intoAppDir:codesignIdentity:baseDir:`. -/
def injectResource (appDir : Path) (identity : CodesignIdentity) (resourcePath : String) :
    FileProgram Unit := do
  copyResource host fails appDir resourcePath
  let target := targetFile appDir (Path.ofText resourcePath)
  if FileUtils.isDylibOrFramework target then resignObject host identity target

/-- `injectResources:intoAppDir:codesignIdentity:baseDir:`. -/
def injectResources (appDir : Path) (identity : CodesignIdentity) : List String → FileProgram Unit
  | [] => pure ()
  | resourcePath :: resourcePaths => do
      injectResource host fails appDir identity resourcePath
      injectResources appDir identity resourcePaths

/-! ## `resignAppDir` -/

/-- `writeToFile:atomically:` of a file in the app directory. It needs a directory, and none in the
place. -/
def writeToFile (appDir : Path) (name : String) (data : List UInt8) (reason : String) :
    FileProgram Unit :=
  FileProgram.ofRun fun fs =>
    if host.writeFails (appDir ++ [name]) then (.error (.cbx reason), fs)
    else if h : fs.IsDirectory appDir ∧ ¬ fs.IsDirectory (appDir ++ [name]) then
      (.ok (), fs.write appDir name data h.1 h.2)
    else (.error (.cbx reason), fs)

/-- What the first part of `resignAppDir` finds out. -/
structure Preparation where
  codesignIdentity : CodesignIdentity
  infoPlist : InfoPlist
  entitlementsMap : EntitlementsMeta
  finalEntitlements : Entitlements

/-- The checks of the profile and of the app directory. -/
def prepare (profile : MobileProfile) (codesignIdentity : Option CodesignIdentity) (app : AppDir) :
    Except NSException Preparation := do
  let appIDPrefix ← Codesigner.appIDPrefix profile
  let codesignIdentity ← Codesigner.chooseIdentity host.environment profile codesignIdentity
  let newEntitlements := profile.entitlements
  let oldEntitlements := Entitlements.entitlementsWithBundlePath app
  let mobileProfileAppID ←
    Codesigner.applicationIdentifierWithoutPrefix host.environment newEntitlements
  let infoPlist ← Codesigner.readInfoPlist app
  let oldBundleID ← Codesigner.getOldBundleId host.environment oldEntitlements infoPlist
  let finalAppIdentifier :=
    Codesigner.finalAppIdentifier mobileProfileAppID appIDPrefix oldBundleID newEntitlements
  let entitlementsMap ← Codesigner.mapAppGroups profile.name oldEntitlements newEntitlements
  return {
    codesignIdentity
    infoPlist
    entitlementsMap
    finalEntitlements :=
      newEntitlements.entitlementsByReplacingApplicationIdentifier finalAppIdentifier }

/-- `resignAppDir` up to the injection: the checks, and the map of the entitlements. -/
def beforeInjection (profile : MobileProfile) (codesignIdentity : Option CodesignIdentity)
    (appDir : Path) : FileProgram Preparation := do
  let preparation ← FileProgram.ofState fun fs =>
    prepare host profile codesignIdentity (host.appDir fs appDir)
  writeToFile host appDir "XTCEntitlementsMeta.plist"
    (host.entitlementsMapData preparation.entitlementsMap)
    "Unable to write EntitlementsMeta to application."
  return preparation

/-- The profile that is embedded is removed. If it cannot be, that is written to the console. -/
def removeEmbeddedMobileProvision (appDir : Path) : FileProgram Unit :=
  FileProgram.ofRun fun fs =>
    (.ok (), (fails.removeItemAtPath fs (appDir ++ ["embedded.mobileprovision"])).getD fs)

/-- The new entitlements are written to a file, if there is an executable to sign. -/
def writeEntitlements (appDir : Path) (preparation : Preparation) : FileProgram String := do
  let bundleExec ← FileProgram.ofState fun fs => do
    -- the message goes on with the whole plist
    Codesigner.cbxThrowExceptionIf preparation.infoPlist.bundleIdentifier.isSome
      "Bundle identifier is nil! Plist: "
    let bundleExec ← Codesigner.bundleExecutable preparation.infoPlist
    Codesigner.cbxThrowExceptionIf (NSFileManager.fileExistsAtPath fs (appDir ++ [bundleExec]))
      ("Bundle executable " ++ (appDir ++ [bundleExec]).text ++ " does not exist!")
    return bundleExec
  let xcent := xcentFilename appDir.lastPathComponent
  let reason := "Unable to write app entitlements to " ++ (appDir ++ [xcent]).text
  match preparation.finalEntitlements.dictionary with
  | none => throw (.exception (.cbx reason))
  | some dictionary => writeToFile host appDir xcent (host.entitlementsData dictionary) reason
  return bundleExec

/-- `shouldResign:inAppDir:`. -/
def shouldResign (fs : FileSystem) (objectPath appDir : Path) : Bool :=
  SigningRun.shouldResign ⟨host.tree fs, host.info fs⟩ objectPath appDir

/-- The loop over the files: each object that should be resigned is signed. -/
def signObjects (identity : CodesignIdentity) (appDir : Path) : List Path → FileProgram Unit
  | [] => pure ()
  | filePath :: files => do
      let resigns ← FileProgram.ofState fun fs =>
        .ok (FileUtils.isDylibOrFramework filePath && shouldResign host fs filePath appDir)
      if resigns then resignObject host identity filePath
      signObjects identity appDir files

/-- The files of the app directory. -/
def filesForResigning (appDir : Path) : FileProgram (List Path) :=
  FileProgram.ofState fun fs =>
    match FileUtils.depthFirstPathsStartingAtDirectory (host.tree fs) appDir with
    | none => .error (.cbx "No files for resigning")
    | some files => .ok files

/-- The loop over the files of the plugins directory: each bundle that should be resigned is
resigned with `resign`. -/
def resignBundles (resign : Path → FileProgram Unit) (appDir : Path) :
    List Path → FileProgram Unit
  | [] => pure ()
  | file :: files => do
      let resigns ← FileProgram.ofState fun fs =>
        .ok (SigningRun.isResignableBundle file && shouldResign host fs file appDir)
      if resigns then resign file
      resignBundles resign appDir files

/-- The part of `resignAppDir` that goes through the plugins directory, if it exists. -/
def resignPlugins (resign : Path → FileProgram Unit) (appDir : Path) : FileProgram Unit := do
  let pluginFiles ← FileProgram.ofState fun fs => .ok
    (FileUtils.depthFirstPathsStartingAtDirectory (host.tree fs) (SigningRun.pluginsPath appDir))
  match pluginFiles with
  | none => return
  | some pluginFiles => resignBundles host resign appDir pluginFiles.reverse

/-- `resignAppDir` after the injection: the profile that is embedded, the new entitlements, and the
signatures, where bundles are resigned with `resign`. -/
def afterInjection (resign : Path → FileProgram Unit) (appDir : Path) (preparation : Preparation) :
    FileProgram Unit := do
  removeEmbeddedMobileProvision fails appDir
  let bundleExec ← writeEntitlements host appDir preparation
  let files ← filesForResigning host appDir
  signObjects host preparation.codesignIdentity appDir files.reverse
  resignPlugins host resign appDir
  resignBundle host preparation.codesignIdentity appDir bundleExec
    (xcentFilename appDir.lastPathComponent)

/-- `resignAppDir:baseDir:provisioningProfile:codesignIdentity:resourcesToInject:`. The fuel bounds
how deep bundles lie in bundles. -/
def resignAppDir (profile : MobileProfile) :
    ℕ → Path → Option CodesignIdentity → List String → FileProgram Unit
  | 0, _, _, _ => throw .outOfFuel
  | fuel + 1, appDir, codesignIdentity, resourcesToInject => do
      let preparation ← beforeInjection host profile codesignIdentity appDir
      injectResources host fails appDir preparation.codesignIdentity resourcesToInject
      -- a bundle inside gets no resources, and its identity is looked for again
      afterInjection host fails (fun file => resignAppDir profile fuel file none []) appDir
        preparation

/-! ## `resignApplication` -/

/-- `prepareResign:`. -/
def prepareResign (app : Path) : FileProgram Unit :=
  FileProgram.ofRun fun fs =>
    let dsStorePath := app ++ [".DS_STORE"]
    if NSFileManager.fileExistsAtPath fs dsStorePath then
      match fails.removeItemAtPath fs dsStorePath with
      | none =>
          (.error (.cbx ("Error deleting .DS_STORE: " ++ host.removeError dsStorePath)), fs)
      | some fs => (.ok (), fs)
    else (.ok (), fs)

/-- `resignApplication:withProvisioningProfile:resourcesToInject:`; no resources are an empty
list. -/
def resignApplication (fuel : ℕ) (app : Path) (type : ApplicationType) (profile : MobileProfile)
    (resources : List String) : FileProgram Unit :=
  if type = .simulator then do
    injectResources host fails app CodesignIdentity.adHoc resources
    codesignAdHoc host app
  else do
    prepareResign host fails app
    resignAppDir host fails profile fuel app none resources

end Definitions

/-! ## What signing changes -/

/-- A file that the codesigner writes or removes, by its path below the app directory. -/
def IsOfSigning (below : Path) : Prop :=
  below.lastPathComponent = "XTCEntitlementsMeta.plist" ∨ below.hasSuffix ".xcent" = true ∨
    "embedded.mobileprovision" ∈ below ∨ "_CodeSignature" ∈ below

instance (below : Path) : Decidable (IsOfSigning below) :=
  inferInstanceAs (Decidable (_ ∨ _ ∨ _ ∨ _))

/-- Such a file of a bundle inside is one of the app directory. -/
theorem IsOfSigning.append {below : Path} (h : IsOfSigning below) (above : Path) :
    IsOfSigning (above ++ below) := by
  have hne : below ≠ [] := by
    rintro rfl
    exact absurd h (by decide +kernel)
  have hlast : Path.lastPathComponent (above ++ below) = below.lastPathComponent := by
    obtain ⟨rest, name, rfl⟩ := (List.eq_nil_or_concat' below).resolve_left hne
    rw [Path.lastPathComponent, Path.lastPathComponent, ← List.append_assoc, List.getLastD_concat,
      List.getLastD_concat]
  rw [IsOfSigning, Path.hasSuffix, hlast]
  exact h.imp_right fun h => h.imp_right fun h =>
    h.imp (List.mem_append_right above) (List.mem_append_right above)

/-- The files agree but for those in a directory that are set aside, and for the signatures in the
others there. -/
structure AgreesAside (host : SigningHost) (aside : Path → Prop) (dir : Path)
    (fs later : FileSystem) : Prop where
  outside : PathStore.AgreeOutside dir fs later
  inside : ∀ below, ¬ aside below →
    host.content (later.entry (dir ++ below)) = host.content (fs.entry (dir ++ below))

/-- The files agree but for those in a directory that signing is about. -/
abbrev SignsWithin (host : SigningHost) : Path → FileSystem → FileSystem → Prop :=
  AgreesAside host IsOfSigning

section

variable {host : SigningHost} {aside other : Path → Prop} {dir : Path} {fs later last : FileSystem}

/-- Files agree with themselves. -/
theorem AgreesAside.refl (host : SigningHost) (aside : Path → Prop) (dir : Path)
    (fs : FileSystem) : AgreesAside host aside dir fs fs :=
  ⟨fun _ _ => rfl, fun _ _ => rfl⟩

/-- Two such changes are one. -/
theorem AgreesAside.trans (h : AgreesAside host aside dir fs later)
    (h' : AgreesAside host aside dir later last) : AgreesAside host aside dir fs last :=
  ⟨h.outside.trans h'.outside,
    fun below hbelow => (h'.inside below hbelow).trans (h.inside below hbelow)⟩

/-- More can be set aside. -/
theorem AgreesAside.mono (h : AgreesAside host aside dir fs later)
    (haside : ∀ below, aside below → other below) : AgreesAside host other dir fs later :=
  ⟨h.outside, fun below hbelow => h.inside below fun hmem => hbelow (haside below hmem)⟩

/-- A change of what is set aside. -/
theorem agreesAside_of_agreeOutside {rest : Path}
    (h : PathStore.AgreeOutside (dir ++ rest) fs later)
    (haside : ∀ below, rest <+: below → aside below) : AgreesAside host aside dir fs later := by
  constructor
  · exact fun q hq => h q fun hpre => hq ((List.prefix_append dir rest).trans hpre)
  · intro below hbelow
    rw [h _ fun hpre => hbelow (haside below ((List.prefix_append_right_inj dir).mp hpre))]

/-- Signing within a directory is signing within every one around it. -/
theorem AgreesAside.widen {path : Path} (h : SignsWithin host path fs later) (hpath : dir <+: path) :
    SignsWithin host dir fs later := by
  obtain ⟨rest, rfl⟩ := hpath
  constructor
  · exact fun q hq => h.outside q fun hpre => hq ((List.prefix_append dir rest).trans hpre)
  · intro below hbelow
    -- what signing is about in the smaller directory is so in the greater one
    by_cases hrest : rest <+: below
    · obtain ⟨within, rfl⟩ := hrest
      rw [← List.append_assoc]
      exact h.inside within fun hsigning => hbelow (hsigning.append rest)
    · rw [h.outside _ fun hpre => hrest ((List.prefix_append_right_inj dir).mp hpre)]

end

/-- `codesign` as it is documented: signing changes the directories of signatures and the signatures
in the files at the path. -/
def SignsItsPath (host : SigningHost) : Prop :=
  ∀ fs call, SignsWithin host call.path fs (host.codesign fs call).2

section Frames

variable {host : SigningHost} {fails : FailurePattern} {appDir : Path} {identity : CodesignIdentity}
  {profile : MobileProfile} {resign : Path → FileProgram Unit}

/-- Signing an object changes what signing is about. -/
theorem within_resignObject (hsigns : SignsItsPath host) {path : Path} (hpath : appDir <+: path) :
    (resignObject host identity path).Within (SignsWithin host appDir) :=
  fun fs => (hsigns fs (.object path identity)).widen hpath

/-- So does signing the bundle. -/
theorem within_resignBundle (hsigns : SignsItsPath host) (executable entitlements : String) :
    (resignBundle host identity appDir executable entitlements).Within (SignsWithin host appDir) :=
  fun fs => hsigns fs (.bundle appDir executable entitlements identity)

/-- So does the signing of an app for a simulator. -/
theorem within_codesignAdHoc (hsigns : SignsItsPath host) :
    (codesignAdHoc host appDir).Within (SignsWithin host appDir) :=
  fun fs => hsigns fs (.adHoc appDir)

/-- A file that signing is about is written, or nothing is. -/
theorem within_writeToFile {name : String} (hname : IsOfSigning [name]) (data : List UInt8)
    (reason : String) :
    (writeToFile host appDir name data reason).Within (SignsWithin host appDir) := by
  refine FileProgram.within_ofRun fun fs => ?_
  split
  · exact .refl host _ appDir fs
  · split
    · rename_i hdir
      constructor
      · intro q hq
        rw [PathStore.entry_write, if_neg]
        rintro rfl
        exact hq (List.prefix_append appDir [name])
      · intro below hbelow
        rw [PathStore.entry_write, if_neg]
        intro heq
        exact hbelow (List.append_cancel_left heq ▸ hname)
    · exact .refl host _ appDir fs

/-- The profile that is embedded is removed, or nothing is. -/
theorem within_removeEmbeddedMobileProvision :
    (removeEmbeddedMobileProvision fails appDir).Within (SignsWithin host appDir) := by
  refine FileProgram.within_ofRun fun fs => ?_
  dsimp only
  cases hremove : fails.removeItemAtPath fs (appDir ++ ["embedded.mobileprovision"]) with
  | none => exact .refl host _ appDir fs
  | some removed =>
    obtain ⟨-, -, rfl⟩ := FailurePattern.removeItemAtPath_eq_some_iff.mp hremove
    refine agreesAside_of_agreeOutside (PathStore.agreeOutside_remove fs _) fun below hpre => ?_
    exact .inr (.inr (.inl (hpre.subset (List.mem_singleton_self _))))

/-- The name of the file of the entitlements. -/
theorem isOfSigning_xcentFilename (name : String) : IsOfSigning [xcentFilename name] :=
  .inr (.inl (NSString.hasSuffix_append _ _))

/-- **Before the injection** only the map of the entitlements is written. -/
theorem within_beforeInjection (codesignIdentity : Option CodesignIdentity) :
    (beforeInjection host profile codesignIdentity appDir).Within (SignsWithin host appDir) := by
  unfold beforeInjection
  refine .bind AgreesAside.trans (FileProgram.within_ofState (.refl host _ appDir) _)
    fun preparation _ => ?_
  exact .bind AgreesAside.trans (within_writeToFile (.inl rfl) _ _) fun _ _ =>
    ThrowingProgram.within_pure (.refl host _ appDir) preparation

/-- The new entitlements are in a file of signing. -/
theorem within_writeEntitlements (preparation : Preparation) :
    (writeEntitlements host appDir preparation).Within (SignsWithin host appDir) := by
  unfold writeEntitlements
  refine .bind AgreesAside.trans (FileProgram.within_ofState (.refl host _ appDir) _)
    fun bundleExec _ => ?_
  dsimp only
  cases preparation.finalEntitlements.dictionary with
  | none => exact ThrowingProgram.within_throw (.refl host _ appDir) _
  | some dictionary =>
    exact .bind AgreesAside.trans (within_writeToFile (isOfSigning_xcentFilename _) _ _) fun _ _ =>
      ThrowingProgram.within_pure (.refl host _ appDir) bundleExec

/-- The objects that are signed lie in the app directory. -/
theorem within_signObjects (hsigns : SignsItsPath host) {files : List Path}
    (hfiles : ∀ path ∈ files, appDir <+: path) :
    (signObjects host identity appDir files).Within (SignsWithin host appDir) := by
  induction files with
  | nil => exact ThrowingProgram.within_pure (.refl host _ appDir) ()
  | cons filePath files ih =>
    obtain ⟨hfile, hfiles⟩ := List.forall_mem_cons.mp hfiles
    refine .bind AgreesAside.trans (FileProgram.within_ofState (.refl host _ appDir) _)
      fun resigns _ => ?_
    cases resigns with
    | false => exact ih hfiles
    | true => exact .bind AgreesAside.trans (within_resignObject hsigns hfile) fun _ _ => ih hfiles

/-- So do the bundles that are resigned. -/
theorem within_resignBundles
    (hresign : ∀ file, (resign file).Within (SignsWithin host file)) {files : List Path}
    (hfiles : ∀ path ∈ files, appDir <+: path) :
    (resignBundles host resign appDir files).Within (SignsWithin host appDir) := by
  induction files with
  | nil => exact ThrowingProgram.within_pure (.refl host _ appDir) ()
  | cons file files ih =>
    obtain ⟨hfile, hfiles⟩ := List.forall_mem_cons.mp hfiles
    refine .bind AgreesAside.trans (FileProgram.within_ofState (.refl host _ appDir) _)
      fun resigns _ => ?_
    cases resigns with
    | false => exact ih hfiles
    | true =>
      exact .bind AgreesAside.trans ((hresign file).mono fun _ _ h => h.widen hfile)
        fun _ _ => ih hfiles

/-- So do the bundles in the plugins directory. -/
theorem within_resignPlugins
    (hresign : ∀ file, (resign file).Within (SignsWithin host file)) :
    (resignPlugins host resign appDir).Within (SignsWithin host appDir) := by
  unfold resignPlugins
  refine .bind AgreesAside.trans (FileProgram.within_ofState (.refl host _ appDir) _)
    fun pluginFiles hlisted => ?_
  cases pluginFiles with
  | none => exact ThrowingProgram.within_pure (.refl host _ appDir) ()
  | some pluginFiles =>
    -- the files were listed at some moment, and lay in the plugins directory then
    obtain ⟨fs, hfiles⟩ := FileProgram.exists_of_returns hlisted
    refine within_resignBundles hresign fun path hpath => ?_
    exact (List.prefix_append appDir _).trans
      (SigningRun.prefix_of_mem_files (Except.ok.inj hfiles) (List.mem_reverse.mp hpath))

/-- The files that are listed lie in the app directory. -/
theorem prefix_of_returns {files : List Path} (h : (filesForResigning host appDir).Returns files)
    {path : Path} (hpath : path ∈ files) : appDir <+: path := by
  obtain ⟨fs, hread⟩ := FileProgram.exists_of_returns h
  split at hread
  · cases hread
  · rename_i listed hwalk
    obtain rfl := Except.ok.inj hread
    exact SigningRun.prefix_of_mem_files hwalk hpath

/-- **After the injection** only signing goes on in the app directory. -/
theorem within_afterInjection (hsigns : SignsItsPath host)
    (hresign : ∀ file, (resign file).Within (SignsWithin host file)) (preparation : Preparation) :
    (afterInjection host fails resign appDir preparation).Within (SignsWithin host appDir) := by
  unfold afterInjection
  refine .bind AgreesAside.trans within_removeEmbeddedMobileProvision fun _ _ => ?_
  refine .bind AgreesAside.trans (within_writeEntitlements preparation) fun bundleExec _ => ?_
  refine .bind AgreesAside.trans (FileProgram.within_ofState (.refl host _ appDir) _)
    fun files hlisted => ?_
  refine .bind AgreesAside.trans (within_signObjects hsigns fun path hpath =>
    prefix_of_returns hlisted (List.mem_reverse.mp hpath)) fun _ _ => ?_
  exact .bind AgreesAside.trans (within_resignPlugins hresign) fun _ _ =>
    within_resignBundle hsigns bundleExec _

/-- **Without resources** a resigning changes what signing is about. By induction on the fuel: what
is resigned inside is so too. -/
theorem within_resignAppDir (hsigns : SignsItsPath host) (fuel : ℕ) (appDir : Path)
    (codesignIdentity : Option CodesignIdentity) :
    (resignAppDir host fails profile fuel appDir codesignIdentity []).Within
      (SignsWithin host appDir) := by
  induction fuel generalizing appDir codesignIdentity with
  | zero => exact ThrowingProgram.within_throw (.refl host _ appDir) _
  | succ fuel ih =>
    unfold resignAppDir
    refine .bind AgreesAside.trans (within_beforeInjection codesignIdentity) fun preparation _ => ?_
    refine .bind AgreesAside.trans (ThrowingProgram.within_pure (.refl host _ appDir) ()) fun _ _ => ?_
    exact within_afterInjection hsigns (fun file => ih file none) preparation

end Frames

/-! ## What an injection leaves -/

/-- The resource that a path in the app directory comes from: the last one with that name. -/
def lastNamed (sources : List Path) (below : Path) : Option Path :=
  sources.reverse.find? fun source => source.getLast? == below.head?

/-- A later resource of the name comes before the first one. -/
theorem lastNamed_cons (source : Path) (sources : List Path) (below : Path) :
    lastNamed (source :: sources) below =
      (lastNamed sources below).or
        (if source.getLast? = below.head? then some source else none) := by
  rw [lastNamed, List.reverse_cons, List.find?_append, List.find?_singleton]
  simp only [beq_iff_eq]
  rfl

/-- What is found is one of the resources. -/
theorem mem_of_lastNamed {sources : List Path} {source below : Path}
    (h : lastNamed sources below = some source) : source ∈ sources :=
  List.mem_reverse.mp (List.mem_of_find?_eq_some h)

/-- What is in an app directory, by the paths below it, once resources are injected: the last of
each name, and what there was besides. -/
def injectedEntry (fs : FileSystem) (sources : List Path)
    (tree : Path → Option (Entry (List UInt8))) (below : Path) : Option (Entry (List UInt8)) :=
  (lastNamed sources below).elim (tree below) fun source => fs.entry (source ++ below.tail)

section Injection

variable {host : SigningHost} {fails : FailurePattern} {appDir : Path} {identity : CodesignIdentity}
  {resourcePath : String} {resources : List String} {fs fs' : FileSystem}

/-- A path in the app directory is led back to a resource outside it if it has its name. -/
theorem redirect_targetFile {source : Path} (hapart : PathStore.Apart appDir source)
    (below : Path) :
    PathStore.redirect source (targetFile appDir source) (appDir ++ below) =
      if source.getLast? = below.head? then source ++ below.tail else appDir ++ below := by
  have hne : source ≠ [] := ResourceInjection.ne_nil_of_apart hapart
  have hlast := List.getLast?_eq_some_getLast hne
  rw [PathStore.redirect, targetFile, hlast, Option.toList_some]
  cases below with
  | nil => simp [PathStore.not_prefix_of_append_singleton]
  | cons name below =>
    by_cases hname : source.getLast hne = name
    · simp [hname]
    · simp [hname, List.prefix_append_right_inj]

/-- What lies in a path apart from the app directory is not in that. -/
theorem not_prefix_of_apart {source : Path} (hapart : PathStore.Apart appDir source)
    (below : Path) : ¬ appDir <+: source ++ below := fun hpre =>
  (List.prefix_or_prefix_of_prefix hpre (List.prefix_append source below)).elim hapart.1 hapart.2

/-- The target is freed, if that does not fail. -/
theorem clearTarget_cases (fails : FailurePattern) (fs : FileSystem) (target : Path) :
    clearTarget fails fs target = fs ∨ clearTarget fails fs target = fs.remove target := by
  unfold clearTarget
  split
  · cases hremove : fails.removeItemAtPath fs target with
    | none => exact .inl rfl
    | some removed =>
      obtain ⟨-, -, rfl⟩ := FailurePattern.removeItemAtPath_eq_some_iff.mp hremove
      exact .inr rfl
  · exact .inl rfl

/-- A copy without an exception puts the resource at its target. -/
theorem copyResource_eq_ok
    (h : (copyResource host fails appDir resourcePath).runFrom fs = (.ok (), fs')) (q : Path) :
    fs'.entry q = fs.entry (PathStore.redirect (Path.ofText resourcePath)
      (targetFile appDir (Path.ofText resourcePath)) q) := by
  have hrun := FileProgram.runFrom_ofRun_eq_ok_iff.mp h
  dsimp only at hrun
  split at hrun
  · cases congrArg Prod.fst hrun
  · split at hrun
    · cases congrArg Prod.fst hrun
    · rename_i copied hcopied
      obtain rfl : copied = fs' := congrArg Prod.snd hrun
      obtain ⟨-, hcopy, rfl⟩ := FailurePattern.copyItemAtPath_eq_some_iff.mp hcopied
      rcases clearTarget_cases fails fs (targetFile appDir (Path.ofText resourcePath)) with
        hcleared | hcleared
      · simp only [hcleared] at hcopy ⊢
        exact fs.entry_copy_eq_redirect hcopy q
      · simp only [hcleared] at hcopy ⊢
        exact fs.entry_copy_remove_eq_redirect hcopy q

/-- A copy changes nothing outside the app directory, whether it fails or not. -/
theorem within_copyResource (host : SigningHost) (fails : FailurePattern) (appDir : Path)
    (resourcePath : String) :
    (copyResource host fails appDir resourcePath).Within (PathStore.AgreeOutside appDir) := by
  refine FileProgram.within_ofRun fun fs => ?_
  have hcleared : PathStore.AgreeOutside (targetFile appDir (Path.ofText resourcePath)) fs
      (clearTarget fails fs (targetFile appDir (Path.ofText resourcePath))) := by
    rcases clearTarget_cases fails fs (targetFile appDir (Path.ofText resourcePath)) with h | h
    · rw [h]
      exact fun _ _ => rfl
    · rw [h]
      exact PathStore.agreeOutside_remove fs _
  have houtside : ∀ {later},
      PathStore.AgreeOutside (targetFile appDir (Path.ofText resourcePath)) fs later →
        PathStore.AgreeOutside appDir fs later :=
    fun h q hq => h q fun hpre => hq ((List.prefix_append _ _).trans hpre)
  dsimp only
  split
  · exact fun _ _ => rfl
  · split
    · exact houtside hcleared
    · rename_i copied hcopied
      obtain ⟨-, hcopy, rfl⟩ := FailurePattern.copyItemAtPath_eq_some_iff.mp hcopied
      exact houtside (hcleared.trans (PathStore.agreeOutside_copy _ hcopy))

/-- Nor does a round. -/
theorem within_injectResource (hsigns : SignsItsPath host) (resourcePath : String) :
    (injectResource host fails appDir identity resourcePath).Within
      (PathStore.AgreeOutside appDir) := by
  refine .bind PathStore.AgreeOutside.trans
    (within_copyResource host fails appDir resourcePath) fun _ _ => ?_
  dsimp only
  split
  · exact (within_resignObject hsigns (List.prefix_append appDir _)).mono fun _ _ h => h.outside
  · exact ThrowingProgram.within_pure (fun _ _ _ => rfl) ()

/-- Nor does an injection. -/
theorem within_injectResources (hsigns : SignsItsPath host) (resources : List String) :
    (injectResources host fails appDir identity resources).Within
      (PathStore.AgreeOutside appDir) := by
  induction resources with
  | nil => exact ThrowingProgram.within_pure (fun _ _ _ => rfl) ()
  | cons resourcePath resources ih =>
    exact .bind PathStore.AgreeOutside.trans (within_injectResource hsigns resourcePath)
      fun _ _ => ih

/-- A round without an exception is a copy, and perhaps a signing. -/
theorem injectResource_eq_ok (hsigns : SignsItsPath host)
    (h : (injectResource host fails appDir identity resourcePath).runFrom fs = (.ok (), fs')) :
    ∃ copied, (copyResource host fails appDir resourcePath).runFrom fs = (.ok (), copied) ∧
      SignsWithin host appDir copied fs' := by
  obtain ⟨_, copied, hcopied, hsigned⟩ := ThrowingProgram.runFrom_bind_eq_ok h
  refine ⟨copied, hcopied, ?_⟩
  dsimp only at hsigned
  split at hsigned
  · exact (within_resignObject hsigns (List.prefix_append appDir _)).of_eq hsigned
  · obtain rfl : copied = fs' := congrArg Prod.snd hsigned
    exact .refl host _ appDir copied

/-- **The injection.** In the app directory there is the last resource of each name, and what there
was besides. -/
theorem content_injectResources (hsigns : SignsItsPath host)
    (hapart : ∀ source ∈ resources.map Path.ofText, PathStore.Apart appDir source)
    (h : (injectResources host fails appDir identity resources).runFrom fs = (.ok (), fs'))
    {below : Path} (hbelow : ¬ IsOfSigning below) :
    host.content (fs'.entry (appDir ++ below)) =
      host.content (injectedEntry fs (resources.map Path.ofText) (fs.subtree appDir) below) := by
  induction resources generalizing fs with
  | nil =>
    obtain rfl : fs = fs' := congrArg Prod.snd h
    rfl
  | cons resourcePath resources ih =>
    obtain ⟨_, between, hround, hrest⟩ := ThrowingProgram.runFrom_bind_eq_ok h
    obtain ⟨copied, hcopied, hsigned⟩ := injectResource_eq_ok hsigns hround
    rw [List.map_cons] at hapart ⊢
    obtain ⟨hfirst, hapart⟩ := List.forall_mem_cons.mp hapart
    rw [ih hapart hrest, injectedEntry, injectedEntry, lastNamed_cons]
    cases hfind : lastNamed (resources.map Path.ofText) below with
    | some source =>
      -- what is injected later lies outside the app, so that this round leaves it alone
      have hagree := (within_injectResource hsigns resourcePath).of_eq hround
      have hsource := hapart source (mem_of_lastNamed hfind)
      exact congrArg host.content (hagree _ (not_prefix_of_apart hsource _))
    | none =>
      rw [Option.none_or, Option.elim_none, PathStore.subtree, hsigned.inside below hbelow,
        copyResource_eq_ok hcopied, redirect_targetFile hfirst]
      split <;> rfl

end Injection

/-! ## What a resigning leaves -/

/-- What may change in an app that is resigned, besides the resources: the files that signing is
about, and a `.DS_STORE`. -/
def IsSetAside (below : Path) : Prop :=
  IsOfSigning below ∨ [".DS_STORE"] <+: below

instance (below : Path) : Decidable (IsSetAside below) :=
  inferInstanceAs (Decidable (_ ∨ _))

section Application

variable {host : SigningHost} {fails : FailurePattern} {fuel : ℕ} {app : Path}
  {type : ApplicationType} {profile : MobileProfile} {resources : List String}
  {fs fs' : FileSystem}

/-- A `.DS_STORE` is removed, if there is one. -/
theorem within_prepareResign (host : SigningHost) (fails : FailurePattern) (app : Path) :
    (prepareResign host fails app).Within (AgreesAside host IsSetAside app) := by
  refine FileProgram.within_ofRun fun fs => ?_
  dsimp only
  split
  · cases hremove : fails.removeItemAtPath fs (app ++ [".DS_STORE"]) with
    | none => exact .refl host _ app fs
    | some removed =>
      obtain ⟨-, -, rfl⟩ := FailurePattern.removeItemAtPath_eq_some_iff.mp hremove
      exact agreesAside_of_agreeOutside (PathStore.agreeOutside_remove fs _) fun below => .inr
  · exact .refl host _ app fs

/-- **Nothing changes outside the app**, whatever fails or throws. -/
theorem within_resignApplication (hsigns : SignsItsPath host) :
    (resignApplication host fails fuel app type profile resources).Within
      (PathStore.AgreeOutside app) := by
  have houtside : ∀ {α : Type} {aside : Path → Prop} {p : FileProgram α},
      p.Within (AgreesAside host aside app) → p.Within (PathStore.AgreeOutside app) :=
    fun h => h.mono fun _ _ hagree => hagree.outside
  unfold resignApplication
  split
  · exact .bind PathStore.AgreeOutside.trans (within_injectResources hsigns resources)
      fun _ _ => houtside (within_codesignAdHoc hsigns)
  · refine .bind PathStore.AgreeOutside.trans (houtside (within_prepareResign host fails app))
      fun _ _ => ?_
    cases fuel with
    | zero => exact ThrowingProgram.within_throw (fun _ _ _ => rfl) _
    | succ fuel =>
      unfold resignAppDir
      refine .bind PathStore.AgreeOutside.trans (houtside (within_beforeInjection none))
        fun preparation _ => ?_
      refine .bind PathStore.AgreeOutside.trans (within_injectResources hsigns resources)
        fun _ _ => ?_
      exact houtside (within_afterInjection hsigns
        (fun file => within_resignAppDir hsigns fuel file none) preparation)

/-- A resigning without an exception is an injection between steps that sign. -/
theorem resignApplication_eq_ok (hsigns : SignsItsPath host)
    (h : (resignApplication host fails fuel app type profile resources).runFrom fs =
      (.ok (), fs')) :
    ∃ before injected identity, AgreesAside host IsSetAside app fs before ∧
      (injectResources host fails app identity resources).runFrom before = (.ok (), injected) ∧
      SignsWithin host app injected fs' := by
  unfold resignApplication at h
  split at h
  · obtain ⟨_, injected, hinjected, hsigned⟩ := ThrowingProgram.runFrom_bind_eq_ok h
    exact ⟨fs, injected, _, .refl host _ app fs, hinjected,
      (within_codesignAdHoc hsigns).of_eq hsigned⟩
  · obtain ⟨_, prepared, hprepared, h⟩ := ThrowingProgram.runFrom_bind_eq_ok h
    have hprepares := (within_prepareResign host fails app).of_eq hprepared
    cases fuel with
    | zero => cases congrArg Prod.fst h
    | succ fuel =>
      unfold resignAppDir at h
      obtain ⟨preparation, begun, hbegun, h⟩ := ThrowingProgram.runFrom_bind_eq_ok h
      obtain ⟨_, injected, hinjected, hsigned⟩ := ThrowingProgram.runFrom_bind_eq_ok h
      have hbegins := (within_beforeInjection none).of_eq hbegun
      exact ⟨begun, injected, _, hprepares.trans (hbegins.mono fun _ => .inl), hinjected,
        (within_afterInjection hsigns (fun file => within_resignAppDir hsigns fuel file none)
          preparation).of_eq hsigned⟩

/-- **The resigned app.** It has the last resource of each name, and what it had besides. -/
theorem content_resignApplication (hsigns : SignsItsPath host)
    (hapart : ∀ source ∈ resources.map Path.ofText, PathStore.Apart app source)
    (h : (resignApplication host fails fuel app type profile resources).runFrom fs =
      (.ok (), fs')) {below : Path} (hbelow : ¬ IsSetAside below) :
    host.content (fs'.entry (app ++ below)) =
      host.content (injectedEntry fs (resources.map Path.ofText) (fs.subtree app) below) := by
  obtain ⟨before, injected, identity, hbefore, hinjected, hafter⟩ :=
    resignApplication_eq_ok hsigns h
  have hsigning : ¬ IsOfSigning below := fun hsigning => hbelow (.inl hsigning)
  rw [hafter.inside below hsigning, content_injectResources hsigns hapart hinjected hsigning,
    injectedEntry, injectedEntry]
  cases hfind : lastNamed (resources.map Path.ofText) below with
  | none => exact hbefore.inside below hbelow
  | some source =>
    have hsource := hapart source (mem_of_lastNamed hfind)
    exact congrArg host.content (hbefore.outside _ (not_prefix_of_apart hsource _))

end Application

end SigningFiles

end IOSDeviceManager
