import IOSDeviceManager.Devices.PhysicalDeviceFileUpload
import IOSDeviceManager.Devices.SimulatorStaging
import IOSDeviceManager.Utilities.BundleSkeleton

/-! # Staging a test configuration on a physical device

`stageXctestConfigurationToTmpForRunner:AUT:deviceUDID:error:` makes the skeleton of an app data
bundle, writes the test configuration into it and, once more, into a directory of the working
directory, and uploads the bundle. The upload makes the bundle the data of the runner: other than on
a simulator, nothing is left there but the test configuration. -/

namespace IOSDeviceManager

open General

/-- What a call of the method meets. -/
structure DeviceStaging where
  /-- `NSTemporaryDirectory()`. -/
  temporaryDirectory : Path
  /-- The working directory. -/
  currentDirectory : Path
  /-- `bundleID` of `withBundlePath:`, `none` for a `nil`; an archive is unpacked for it. -/
  bundleID : FileSystem → String → Except NSException (Option String) × FileSystem
  /-- `applicationPathForApplicationWithBundleID:bundleID:error:`. -/
  applicationPath : Option String → Option String
  session : SessionIdentifier
  device : LegacyDevice
  fails : FailurePattern
  /-- The paths that cannot be written to. -/
  writeFails : Path → Bool

/-- `createDirectoryAtPath:withIntermediateDirectories:attributes:error:`, without the intermediate
directories. -/
def FailurePattern.createOneDirectory (fails : FailurePattern) (fs : FileSystem) (parent : Path)
    (name : String) : Option FileSystem :=
  if fails (.createDirectory (parent ++ [name])) then none
  else if fs.IsDirectory parent ∧ ¬ fs.Exists (parent ++ [name]) then
    some (fs.create (parent ++ [name]))
  else none

section

variable {fails : FailurePattern} {fs fs' : FileSystem} {path directory : Path} {name : String}

/-- Making one directory changes nothing else. -/
theorem entry_createOneDirectory (fails : FailurePattern) (fs : FileSystem) {parent q : Path}
    {name : String} (hne : q ≠ parent ++ [name]) :
    ((fails.createOneDirectory fs parent name).getD fs).entry q = fs.entry q := by
  unfold FailurePattern.createOneDirectory
  split
  · rfl
  · split
    · rename_i h
      rw [Option.getD_some, PathStore.entry_create]
      split
      · rename_i hpre
        -- the paths above it are directories already
        rcases List.prefix_concat_iff.mp hpre with heq | habove
        · exact absurd heq hne
        · have hdir := h.1
          exact (hdir.of_prefix habove).symm
      · rfl
    · rfl

/-- It is made only where there is nothing. -/
theorem keeps_createOneDirectory (fails : FailurePattern) (fs : FileSystem) (parent : Path)
    (name : String) : PathStore.Keeps fs ((fails.createOneDirectory fs parent name).getD fs) := by
  intro q e he
  by_cases hq : q = parent ++ [name]
  · have hexists : fs.Exists (parent ++ [name]) := by
      rw [PathStore.Exists, ← hq, he]
      rfl
    unfold FailurePattern.createOneDirectory
    split
    · exact he
    · rw [if_neg fun h => h.2 hexists]
      exact he
  · rw [entry_createOneDirectory fails fs hq]
    exact he

namespace XCAppDataBundle

variable (fails fs path name) in
/-- The bundle is given up, or is made in a directory that holds none, where an old one was removed;
until then nothing that is not in it has changed. -/
theorem generateBundleSkeleton_cases (overwrite : Bool) :
    (∃ later, PathStore.KeepsOutside (path ++ [name]) fs later ∧
      generateBundleSkeleton fails fs path name overwrite = (none, later)) ∨
    ∃ cleared, PathStore.KeepsOutside (path ++ [name]) fs cleared ∧
      cleared.IsDirectory path ∧ ¬ cleared.IsDirectory (path ++ [name]) ∧
      generateBundleSkeleton fails fs path name overwrite =
        createBundle fails cleared (path ++ [name]) := by
  unfold generateBundleSkeleton
  dsimp only
  cases hcreate : (if NSFileManager.isDirectoryAtPath fs path then some fs
      else fails.createDirectoryAtPath fs path) with
  | none => exact .inl ⟨fs, PathStore.KeepsOutside.refl _ fs, rfl⟩
  | some parent =>
    -- the directory around the bundle is there, or it is made
    have hparent : PathStore.KeepsOutside (path ++ [name]) fs parent ∧
        parent.IsDirectory path := by
      split at hcreate
      · rename_i hdir
        obtain rfl := Option.some.inj hcreate
        exact ⟨PathStore.KeepsOutside.refl _ fs, of_decide_eq_true hdir⟩
      · refine ⟨(FailurePattern.keeps_createDirectoryAtPath hcreate).keepsOutside _, ?_⟩
        obtain ⟨-, -, rfl⟩ := FailurePattern.createDirectoryAtPath_eq_some_iff.mp hcreate
        rw [PathStore.IsDirectory, PathStore.entry_create, if_pos (List.prefix_refl path)]
    obtain ⟨hkeeps, hdir⟩ := hparent
    dsimp only
    split
    · -- an old bundle is there
      cases hremove : fails.removeItemAtPath parent (path ++ [name]) with
      | none =>
        refine .inl ⟨parent, hkeeps, ?_⟩
        cases overwrite <;> rfl
      | some removed =>
        cases overwrite with
        | false => exact .inl ⟨parent, hkeeps, rfl⟩
        | true =>
          obtain ⟨-, -, rfl⟩ := FailurePattern.removeItemAtPath_eq_some_iff.mp hremove
          refine .inr ⟨_, hkeeps.trans (PathStore.agreeOutside_remove parent _).keepsOutside,
            ?_, ?_, rfl⟩
          · rw [PathStore.IsDirectory, PathStore.entry_remove,
              if_neg (PathStore.not_prefix_of_append_singleton path name)]
            exact hdir
          · simp [PathStore.IsDirectory]
    · rename_i hnotdir
      exact .inr ⟨parent, hkeeps, hdir, fun hbundle => hnotdir (decide_eq_true hbundle), rfl⟩

variable (fails fs path name) in
/-- What is not in the bundle stays. -/
theorem keepsOutside_generateBundleSkeleton (overwrite : Bool) :
    PathStore.KeepsOutside (path ++ [name]) fs
      (generateBundleSkeleton fails fs path name overwrite).2 := by
  obtain ⟨later, hkeeps, heq⟩ | ⟨cleared, hkeeps, -, -, heq⟩ :=
    generateBundleSkeleton_cases fails fs path name overwrite
  · rw [heq]
    exact hkeeps
  · rw [heq]
    exact hkeeps.trans ((keeps_createBundle fails _ _).keepsOutside _)

/-- A bundle that is made holds the skeleton and nothing else. -/
theorem holdsExactly_generateBundleSkeleton {bundle : Path}
    (h : generateBundleSkeleton fails fs path name true = (some bundle, fs')) :
    fs'.HoldsExactly (path ++ [name]) requiredDirectories := by
  obtain ⟨later, -, heq⟩ | ⟨cleared, -, hdir, hnotdir, heq⟩ :=
    generateBundleSkeleton_cases fails fs path name true
  · rw [heq] at h
    cases h
  · have hall : AllOrNothing cleared (path ++ [name]) (createBundle fails cleared (path ++ [name])) :=
      allOrNothing_createBundle (PathStore.Keeps.refl cleared) hdir hnotdir
    rw [← heq, h] at hall
    exact (hall.generated bundle rfl).2.2

end XCAppDataBundle

end

namespace PhysicalDevice

section

variable (call : DeviceStaging) (state : UploadState) (pathToRunner pathToAUT : String)

/-- `uploadXCAppDataBundle:forApplication:`. -/
def uploadXCAppDataBundle (device : LegacyDevice) (xcappdata : Path) (bundleIdentifier : String) :
    IOSReturnStatusCode × UploadState :=
  if !XCAppDataBundle.isValid state.fs xcappdata then (.genericFailure, state)
  else
    let uploaded := device.uploadApplicationData state.containers state.fs xcappdata
      bundleIdentifier
    if !uploaded.1 then (.internalError, { state with containers := uploaded.2 })
    else (.everythingOkay, { state with containers := uploaded.2 })

/-- The name of the bundle that is made. -/
def appDataBundle : String :=
  NSString.firstComponent (NSString.lastPathComponent pathToRunner) '.' ++ ".xcappdata"

/-- The path of the bundle. -/
def stagedBundle : Path :=
  call.temporaryDirectory ++ [appDataBundle pathToRunner]

/-- The name of the file that is written. -/
def stagedFilename : String :=
  XCTestConfigurationPlist.runnerProductName pathToRunner ++ "-" ++ call.session.uuid ++
    ".xctestconfiguration"

/-- The directory for copies of the test configurations. -/
def copyDirectory : Path :=
  call.currentDirectory ++ ["xctestconfig"]

/-- The arguments of the test configuration: the test bundle on the device, and the local paths of
the apps. -/
def deviceArguments (AUTBundleId runnerBundleId : String) : XCTestConfigurationPlist.Arguments :=
  XCTestConfigurationPlist.sessionArguments call.session
    ((call.applicationPath (some runnerBundleId)).bind fun runnerPath =>
      (Device.xctestBundlePathForTestRunnerAtPath runnerPath).toOption)
    pathToAUT AUTBundleId pathToRunner runnerBundleId

/-- The end of the method: the upload of the bundle. A bundle that cannot be removed is left. -/
def uploadStaged (runnerBundleId : String) : Except NSException Bool × UploadState :=
  let uploaded := uploadXCAppDataBundle state call.device (stagedBundle call pathToRunner)
    runnerBundleId
  if uploaded.1 ≠ .everythingOkay then (.ok false, uploaded.2)
  else
    let fs := (call.fails.removeItemAtPath uploaded.2.fs
      (stagedBundle call pathToRunner)).getD uploaded.2.fs
    (.ok true, { uploaded.2 with fs := fs })

/-- The two files are written, and the bundle uploaded. The directory for the copy may be there. -/
def writeAndUpload (data : List UInt8) (runnerBundleId : String) :
    Except NSException Bool × UploadState :=
  let filename := stagedFilename call pathToRunner
  let tmpDirectory := stagedBundle call pathToRunner ++ ["AppData", "tmp"]
  match NSData.writeToFile call.writeFails state.fs tmpDirectory filename data with
  | none => (.ok false, state)
  | some fs =>
      let fs := (call.fails.createOneDirectory fs call.currentDirectory "xctestconfig").getD fs
      match NSData.writeToFile call.writeFails fs (copyDirectory call) filename data with
      | none => (.ok false, { state with fs := fs })
      | some fs => uploadStaged call { state with fs := fs } pathToRunner runnerBundleId

/-- The test configuration is generated; a `nil` for the identifier of an app is put into no text.
-/
def generateAndUpload (runnerBundleId AUTBundleId : Option String) :
    Except NSException Bool × UploadState :=
  match runnerBundleId, AUTBundleId with
  | some runnerBundleId, some AUTBundleId =>
      writeAndUpload call state pathToRunner
        (XCTestConfigurationPlist.plistData call.session
          (deviceArguments call pathToRunner pathToAUT AUTBundleId runnerBundleId) rfl)
        runnerBundleId
  | _, _ => (.error .invalidArgument, state)

/-- `stageXctestConfigurationToTmpForRunner:AUT:deviceUDID:error:`. -/
def stageXctestConfigurationToTmp : Except NSException Bool × UploadState :=
  match XCAppDataBundle.generateBundleSkeleton call.fails state.fs call.temporaryDirectory
      (appDataBundle pathToRunner) true with
  | (none, fs) => (.ok false, { state with fs := fs })
  | (some _, fs) =>
      match call.bundleID fs pathToRunner with
      | (.error e, fs) => (.error e, { state with fs := fs })
      | (.ok runnerBundleId, fs) =>
          match call.bundleID fs pathToAUT with
          | (.error e, fs) => (.error e, { state with fs := fs })
          | (.ok AUTBundleId, fs) =>
              generateAndUpload call { state with fs := fs } pathToRunner pathToAUT runnerBundleId
                AUTBundleId

end

/-! ## What a call leaves -/

/-- For the identifier of an app nothing changes, or an archive is unpacked to a new directory. -/
def UnpacksApart (call : DeviceStaging) : Prop :=
  ∀ fs path, (call.bundleID fs path).2 = fs ∨
    ∃ guid, ¬ fs.Exists (call.temporaryDirectory ++ [guid]) ∧
      PathStore.AgreeOutside (call.temporaryDirectory ++ [guid]) fs (call.bundleID fs path).2

/-- What an upload is for: it makes what is under `AppData` the data of the app. -/
def UploadsAppData (device : LegacyDevice) (containers : AppContainers) : Prop :=
  ∀ fs path bundleID, (device.uploadApplicationData containers fs path bundleID).1 = true →
    (device.uploadApplicationData containers fs path bundleID).2 =
      Function.update containers bundleID (some (fs.subtree (path ++ ["AppData"])))

/-- The app data with nothing in it but the skeleton and a test configuration. -/
def stagedTree (filename : String) (content : List UInt8) : DataTree := fun below =>
  if below = ["tmp", filename] then some (.file content)
  else if XCAppDataBundle.requiredDirectories.contains ("AppData" :: below) then some .directory
  else none

/-- Everything is in the second file system that is in the first, but for the bundle and the copy of
the test configuration. -/
def KeepsOther (call : DeviceStaging) (pathToRunner : String) (fs later : FileSystem) : Prop :=
  ∀ q e, ¬ stagedBundle call pathToRunner <+: q →
    q ≠ copyDirectory call ++ [stagedFilename call pathToRunner] →
      fs.entry q = some e → later.entry q = some e

/-- The data of the test configuration for the two apps. -/
def IsStagedFor (call : DeviceStaging) (pathToRunner pathToAUT AUTBundleId runnerBundleId : String)
    (content : List UInt8) : Prop :=
  XCTestConfigurationPlist.IsDataOf
    (deviceArguments call pathToRunner pathToAUT AUTBundleId runnerBundleId) call.session.bytes
    content

/-- The data of the runner is that of the bundle, and there is a copy of the test configuration. -/
def IsStaged (call : DeviceStaging) (pathToRunner : String) (before after : UploadState)
    (runnerBundleId : String) (content : List UInt8) : Prop :=
  after.containers = Function.update before.containers runnerBundleId
      (some (stagedTree (stagedFilename call pathToRunner) content)) ∧
    after.fs.entry (copyDirectory call ++ [stagedFilename call pathToRunner]) =
      some (.file content)

/-- The data of the apps is as before, or what a failed transfer left. -/
def NotUploaded (call : DeviceStaging) (before after : AppContainers) : Prop :=
  after = before ∨ ∃ fs xcappdata bundleID,
    call.device.uploadApplicationData before fs xcappdata bundleID = (false, after)

section

variable {call : DeviceStaging} {before state : UploadState} {pathToRunner pathToAUT : String}
  {fs later last : FileSystem} {runnerBundleId : String} {content : List UInt8}

theorem KeepsOther.trans (h : KeepsOther call pathToRunner fs later)
    (h' : KeepsOther call pathToRunner later last) : KeepsOther call pathToRunner fs last :=
  fun q e hq hne he => h' q e hq hne (h q e hq hne he)

/-- What stays outside the bundle. -/
theorem keepsOther_of_keepsOutside
    (h : PathStore.KeepsOutside (stagedBundle call pathToRunner) fs later) :
    KeepsOther call pathToRunner fs later :=
  fun q e hq _ he => h q e hq he

/-- What stays anywhere. -/
theorem keepsOther_of_keeps (h : PathStore.Keeps fs later) :
    KeepsOther call pathToRunner fs later :=
  keepsOther_of_keepsOutside (h.keepsOutside _)

/-- The write of the copy. -/
theorem keepsOther_writeCopy
    (h : NSData.writeToFile call.writeFails fs (copyDirectory call)
      (stagedFilename call pathToRunner) content = some later) :
    KeepsOther call pathToRunner fs later := by
  intro q e _ hne he
  rw [NSData.entry_writeToFile h, if_neg hne]
  exact he

/-- The bundle and the test configuration have different names: these end differently. -/
theorem appDataBundle_ne_stagedFilename (call : DeviceStaging) (pathToRunner : String) :
    appDataBundle pathToRunner ≠ stagedFilename call pathToRunner := by
  intro heq
  have hbundle : (appDataBundle pathToRunner).toList.getLast? = some 'a' := by
    have hlast : ".xcappdata".toList.getLast? = some 'a' := by decide
    rw [appDataBundle, String.toList_append, List.getLast?_append, hlast, Option.some_or]
  have hfile : (stagedFilename call pathToRunner).toList.getLast? = some 'n' := by
    have hlast : ".xctestconfiguration".toList.getLast? = some 'n' := by decide
    rw [stagedFilename, String.toList_append, List.getLast?_append, hlast, Option.some_or]
  rw [heq, hfile] at hbundle
  exact absurd hbundle (by decide)

/-- The copy of the test configuration is not in the bundle. -/
theorem not_prefix_copy (hdir : ¬ stagedBundle call pathToRunner <+: copyDirectory call) :
    ¬ stagedBundle call pathToRunner <+:
      copyDirectory call ++ [stagedFilename call pathToRunner] := by
  intro hpre
  rcases List.prefix_concat_iff.mp hpre with heq | hpre
  · rw [stagedBundle] at heq
    obtain ⟨-, hname⟩ := List.append_inj' heq (by rw [List.length_singleton, List.length_singleton])
    exact appDataBundle_ne_stagedFilename call pathToRunner (List.singleton_inj.mp hname)
  · exact hdir hpre

/-- The bundle with the test configuration. -/
theorem subtree_writeToFile (hholds : fs.HoldsExactly (stagedBundle call pathToRunner)
      XCAppDataBundle.requiredDirectories)
    (h : NSData.writeToFile call.writeFails fs (stagedBundle call pathToRunner ++ ["AppData", "tmp"])
      (stagedFilename call pathToRunner) content = some later) :
    later.subtree (stagedBundle call pathToRunner ++ ["AppData"]) =
      stagedTree (stagedFilename call pathToRunner) content := by
  funext below
  have hself : stagedBundle call pathToRunner ++ ["AppData"] ++ below =
      stagedBundle call pathToRunner ++ "AppData" :: below := by simp
  have hfile : stagedBundle call pathToRunner ++ "AppData" :: below =
        stagedBundle call pathToRunner ++ ["AppData", "tmp"] ++
          [stagedFilename call pathToRunner] ↔
      below = ["tmp", stagedFilename call pathToRunner] := by simp
  rw [PathStore.subtree, hself, NSData.entry_writeToFile h, stagedTree]
  by_cases hbelow : below = ["tmp", stagedFilename call pathToRunner]
  · rw [if_pos (hfile.mpr hbelow), if_pos hbelow]
  · rw [if_neg fun heq => hbelow (hfile.mp heq), if_neg hbelow]
    split
    · rename_i hmem
      exact hholds.directory _ (List.contains_iff_mem.mp hmem)
    · rename_i hmem
      exact Option.not_isSome_iff_eq_none.mp
        (hholds.nothing _ fun h => hmem (List.contains_iff_mem.mpr h))

/-! ### Phase by phase -/

/-- What the phases from the test configuration on leave: the other files, and the data of the apps
unless everything went well. -/
structure Uploads (call : DeviceStaging) (pathToRunner : String) (before : UploadState)
    (runnerBundleId : String) (content : List UInt8)
    (result : Except NSException Bool × UploadState) : Prop where
  keeps : KeepsOther call pathToRunner before.fs result.2.fs
  notUploaded : result.1 ≠ .ok true →
    NotUploaded call before.containers result.2.containers
  staged : result.1 = .ok true →
    IsStaged call pathToRunner before result.2 runnerBundleId content

/-- The files stay, and the data of the apps is what the transfer made of it. -/
theorem uploadXCAppDataBundle_spec (state : UploadState) (device : LegacyDevice) (xcappdata : Path)
    (bundleIdentifier : String) :
    let uploaded := device.uploadApplicationData state.containers state.fs xcappdata
      bundleIdentifier
    let result := uploadXCAppDataBundle state device xcappdata bundleIdentifier
    result.2.fs = state.fs ∧
      (result.1 = .everythingOkay → uploaded = (true, result.2.containers)) ∧
      (result.1 ≠ .everythingOkay → result.2.containers = state.containers ∨
        uploaded = (false, result.2.containers)) := by
  dsimp only [uploadXCAppDataBundle]
  split
  · exact ⟨rfl, fun h => (nomatch h), fun _ => .inl rfl⟩
  · split
    · rename_i hfailed
      refine ⟨rfl, fun h => (nomatch h), fun _ => .inr (Prod.ext ?_ rfl)⟩
      simpa using hfailed
    · rename_i huploaded
      refine ⟨rfl, fun _ => Prod.ext ?_ rfl, fun h => absurd rfl h⟩
      simpa using huploaded

/-- **The upload**, of a bundle that is ready and with a copy of its test configuration. -/
theorem uploads_uploadStaged (htransfers : UploadsAppData call.device state.containers)
    (hdir : ¬ stagedBundle call pathToRunner <+: copyDirectory call)
    (htree : state.fs.subtree (stagedBundle call pathToRunner ++ ["AppData"]) =
      stagedTree (stagedFilename call pathToRunner) content)
    (hcopy : state.fs.entry (copyDirectory call ++ [stagedFilename call pathToRunner]) =
      some (.file content)) :
    Uploads call pathToRunner state runnerBundleId content
      (uploadStaged call state pathToRunner runnerBundleId) := by
  obtain ⟨hfs, hokay, hfailed⟩ := uploadXCAppDataBundle_spec state call.device
    (stagedBundle call pathToRunner) runnerBundleId
  unfold uploadStaged
  generalize uploadXCAppDataBundle state call.device (stagedBundle call pathToRunner)
    runnerBundleId = uploaded at hfs hokay hfailed ⊢
  dsimp only
  split
  · rename_i hstatus
    refine ⟨fun _ _ _ _ he => hfs ▸ he, fun _ => ?_, fun h => nomatch h⟩
    exact (hfailed hstatus).imp id fun h => ⟨_, _, _, h⟩
  · rename_i hstatus
    have htransfer := hokay (not_not.mp hstatus)
    -- the bundle is removed after the transfer; if it cannot be, that is not reported
    have hremoved := agreeOutside_getD_removeItemAtPath call.fails state.fs
      (stagedBundle call pathToRunner)
    rw [hfs]
    refine ⟨keepsOther_of_keepsOutside hremoved.keepsOutside, fun h => absurd rfl h,
      fun _ => ⟨?_, ?_⟩⟩
    · have hdata := htransfers state.fs (stagedBundle call pathToRunner) runnerBundleId
        (by rw [htransfer])
      rwa [htransfer, htree] at hdata
    · exact (hremoved _ (not_prefix_copy hdir)).trans hcopy

/-- **The writes**, into a bundle that holds the skeleton. -/
theorem uploads_writeAndUpload (htransfers : UploadsAppData call.device state.containers)
    (hdir : ¬ stagedBundle call pathToRunner <+: copyDirectory call)
    (hholds : state.fs.HoldsExactly (stagedBundle call pathToRunner)
      XCAppDataBundle.requiredDirectories) :
    Uploads call pathToRunner state runnerBundleId content
      (writeAndUpload call state pathToRunner content runnerBundleId) := by
  unfold writeAndUpload
  dsimp only
  cases hwrite : NSData.writeToFile call.writeFails state.fs
      (stagedBundle call pathToRunner ++ ["AppData", "tmp"]) (stagedFilename call pathToRunner)
      content with
  | none => exact ⟨fun _ _ _ _ he => he, fun _ => .inl rfl, fun h => nomatch h⟩
  | some written =>
    dsimp only
    have htree := subtree_writeToFile hholds hwrite
    have hwritten : KeepsOther call pathToRunner state.fs written := by
      refine keepsOther_of_keepsOutside fun q e hq he => ?_
      rw [NSData.entry_writeToFile hwrite, if_neg, he]
      rintro rfl
      exact hq (by simp)
    have hmade : ∀ q, q ≠ copyDirectory call → ((call.fails.createOneDirectory written
        call.currentDirectory "xctestconfig").getD written).entry q = written.entry q :=
      fun q hne => entry_createOneDirectory call.fails written hne
    have hkept := hwritten.trans (keepsOther_of_keeps
      (keeps_createOneDirectory call.fails written call.currentDirectory "xctestconfig"))
    generalize (call.fails.createOneDirectory written call.currentDirectory "xctestconfig").getD
      written = made at hmade hkept ⊢
    cases hcopy : NSData.writeToFile call.writeFails made (copyDirectory call)
        (stagedFilename call pathToRunner) content with
    | none => exact ⟨hkept, fun _ => .inl rfl, fun h => nomatch h⟩
    | some copied =>
      dsimp only
      have hkept := hkept.trans (keepsOther_writeCopy hcopy)
      -- neither the directory nor the copy lies in the bundle
      have hsame : copied.subtree (stagedBundle call pathToRunner ++ ["AppData"]) =
          written.subtree (stagedBundle call pathToRunner ++ ["AppData"]) := by
        funext below
        have hbundle : stagedBundle call pathToRunner <+:
            stagedBundle call pathToRunner ++ ["AppData"] ++ below := by
          rw [List.append_assoc]
          exact List.prefix_append _ _
        rw [PathStore.subtree, PathStore.subtree, NSData.entry_writeToFile hcopy, if_neg, hmade]
        · intro heq
          exact hdir (heq ▸ hbundle)
        · intro heq
          exact not_prefix_copy hdir (heq ▸ hbundle)
      have hentry : copied.entry (copyDirectory call ++ [stagedFilename call pathToRunner]) =
          some (.file content) := by
        rw [NSData.entry_writeToFile hcopy, if_pos rfl]
      have huploads : Uploads call pathToRunner { state with fs := copied } runnerBundleId content
          (uploadStaged call { state with fs := copied } pathToRunner runnerBundleId) :=
        uploads_uploadStaged htransfers hdir (hsame.trans htree) hentry
      exact ⟨hkept.trans huploads.keeps, huploads.notUploaded, huploads.staged⟩

/-- What the call as a whole leaves; the apps are read for their identifiers. -/
structure Stages (call : DeviceStaging) (pathToRunner pathToAUT : String) (before : UploadState)
    (result : Except NSException Bool × UploadState) : Prop where
  keeps : KeepsOther call pathToRunner before.fs result.2.fs
  notUploaded : result.1 ≠ .ok true →
    NotUploaded call before.containers result.2.containers
  staged : result.1 = .ok true → ∃ runnerBundleId AUTBundleId content,
    (∃ fs, (call.bundleID fs pathToRunner).1 = .ok (some runnerBundleId)) ∧
      (∃ fs, (call.bundleID fs pathToAUT).1 = .ok (some AUTBundleId)) ∧
      IsStagedFor call pathToRunner pathToAUT AUTBundleId runnerBundleId content ∧
      IsStaged call pathToRunner before result.2 runnerBundleId content

/-- Reading an app keeps everything, and the bundle as it is. -/
theorem holdsExactly_bundleID (hunpacks : UnpacksApart call)
    (hholds : fs.HoldsExactly (stagedBundle call pathToRunner)
      XCAppDataBundle.requiredDirectories) (path : String) :
    PathStore.Keeps fs (call.bundleID fs path).2 ∧
      (call.bundleID fs path).2.HoldsExactly (stagedBundle call pathToRunner)
        XCAppDataBundle.requiredDirectories := by
  rcases hunpacks fs path with hsame | ⟨guid, hfresh, hagree⟩
  · rw [hsame]
    exact ⟨PathStore.Keeps.refl fs, hholds⟩
  have hbundle : fs.Exists (stagedBundle call pathToRunner) := by
    have hself := hholds.directory [] (by decide)
    rw [List.append_nil] at hself
    exact hself.exists
  have hname : appDataBundle pathToRunner ≠ guid := by
    rintro rfl
    exact hfresh hbundle
  have hentry : ∀ below, (call.bundleID fs path).2.entry (stagedBundle call pathToRunner ++ below) =
      fs.entry (stagedBundle call pathToRunner ++ below) := by
    have happart : PathStore.Apart (call.temporaryDirectory ++ [guid])
        (stagedBundle call pathToRunner) := PathStore.apart_of_ne _ hname.symm
    exact fun below => congrFun (hagree.subtree_eq happart) below
  refine ⟨hagree.keeps hfresh, fun below hbelow => ?_, fun below hbelow => ?_⟩
  · rw [PathStore.IsDirectory, hentry]
    exact hholds.directory below hbelow
  · rw [PathStore.Exists, hentry]
    exact hholds.nothing below hbelow

/-- Where the data of the apps is not touched and nothing is staged. -/
theorem stages_of_keeps {status : Except NSException Bool} (hstatus : status ≠ .ok true)
    (h : KeepsOther call pathToRunner before.fs later) :
    Stages call pathToRunner pathToAUT before (status, { before with fs := later }) :=
  ⟨h, fun _ => .inl rfl, fun hokay => absurd hokay hstatus⟩

/-- The call from the writes on, when both apps have been read. -/
theorem stages_writeAndUpload {AUTBundleId : String}
    (htransfers : UploadsAppData call.device before.containers)
    (hdir : ¬ stagedBundle call pathToRunner <+: copyDirectory call)
    (hholds : later.HoldsExactly (stagedBundle call pathToRunner)
      XCAppDataBundle.requiredDirectories)
    (hkept : KeepsOther call pathToRunner before.fs later)
    (hrunner : ∃ fs, (call.bundleID fs pathToRunner).1 = .ok (some runnerBundleId))
    (hAUT : ∃ fs, (call.bundleID fs pathToAUT).1 = .ok (some AUTBundleId)) :
    Stages call pathToRunner pathToAUT before
      (generateAndUpload call { before with fs := later } pathToRunner pathToAUT
        (some runnerBundleId) (some AUTBundleId)) := by
  have hargs : (deviceArguments call pathToRunner pathToAUT AUTBundleId runnerBundleId).uuid =
      call.session.uuid := rfl
  have huploads : Uploads call pathToRunner { before with fs := later } runnerBundleId
      (XCTestConfigurationPlist.plistData call.session _ hargs)
      (writeAndUpload call { before with fs := later } pathToRunner
        (XCTestConfigurationPlist.plistData call.session _ hargs) runnerBundleId) :=
    uploads_writeAndUpload htransfers hdir hholds
  exact ⟨hkept.trans huploads.keeps, huploads.notUploaded, fun hokay =>
    ⟨runnerBundleId, AUTBundleId, _, hrunner, hAUT,
      XCTestConfigurationPlist.isDataOf_plistData call.session hargs, huploads.staged hokay⟩⟩

/-- **Staging on a physical device.** Whatever fails, the files on the Mac stay but for the bundle
and the copy of the test configuration, and the data of the apps stays unless a transfer fails. A
success has made the skeleton with the test configuration the data of the runner, with nothing of
what was there before; the copy on the Mac is the same. Both hold the text for the call, which is
read with the values of the call if they survive in it. -/
theorem stage_spec (htransfers : UploadsAppData call.device before.containers)
    (hunpacks : UnpacksApart call)
    (hdir : ¬ stagedBundle call pathToRunner <+: copyDirectory call) :
    Stages call pathToRunner pathToAUT before
      (stageXctestConfigurationToTmp call before pathToRunner pathToAUT) := by
  have hskeleton : KeepsOther call pathToRunner before.fs
      (XCAppDataBundle.generateBundleSkeleton call.fails before.fs call.temporaryDirectory
        (appDataBundle pathToRunner) true).2 :=
    keepsOther_of_keepsOutside
      (XCAppDataBundle.keepsOutside_generateBundleSkeleton call.fails before.fs _ _ true)
  unfold stageXctestConfigurationToTmp
  -- the skeleton, then the two identifiers: at each the method can end
  cases hgenerate : XCAppDataBundle.generateBundleSkeleton call.fails before.fs
      call.temporaryDirectory (appDataBundle pathToRunner) true with
  | mk bundle made =>
    rw [hgenerate] at hskeleton
    cases bundle with
    | none => exact stages_of_keeps (by decide) hskeleton
    | some bundle =>
      have hholds : made.HoldsExactly (stagedBundle call pathToRunner)
          XCAppDataBundle.requiredDirectories :=
        XCAppDataBundle.holdsExactly_generateBundleSkeleton hgenerate
      dsimp only
      obtain ⟨hkeeps, hholds⟩ := holdsExactly_bundleID hunpacks hholds pathToRunner
      have hkept := hskeleton.trans (keepsOther_of_keeps hkeeps)
      cases hrunner : call.bundleID made pathToRunner with
      | mk runnerBundleId read =>
        rw [hrunner] at hkept hholds
        dsimp only at hkept hholds
        cases runnerBundleId with
        | error e => exact stages_of_keeps (fun h => nomatch h) hkept
        | ok runnerBundleId =>
          dsimp only
          obtain ⟨hkeeps, hholds⟩ := holdsExactly_bundleID hunpacks hholds pathToAUT
          have hkept := hkept.trans (keepsOther_of_keeps hkeeps)
          cases hAUT : call.bundleID read pathToAUT with
          | mk AUTBundleId readBoth =>
            rw [hAUT] at hkept hholds
            dsimp only at hkept hholds
            cases AUTBundleId with
            | error e => exact stages_of_keeps (fun h => nomatch h) hkept
            | ok AUTBundleId =>
              cases runnerBundleId with
              | none => exact stages_of_keeps (by decide) hkept
              | some runnerBundleId =>
                cases AUTBundleId with
                | none => exact stages_of_keeps (by decide) hkept
                | some AUTBundleId =>
                  -- everything is known: the configuration is written and the bundle sent
                  exact stages_writeAndUpload htransfers hdir hholds hkept ⟨made, by rw [hrunner]⟩
                    ⟨read, by rw [hAUT]⟩

end

/-! ### A runner with documents -/

/-- App data with a file in the documents. -/
def notesTree : DataTree :=
  documentsTree.put ["Documents", "notes.txt"] fun below => if below = [] then some (.file [1]) else none

/-- A Mac with a temporary and a working directory, and the runner on the device. -/
def sampleStagingState : UploadState where
  fs := (PathStore.empty.create ["tmp"]).create ["work"]
  containers bundleID := if bundleID = "com.my.app" then some notesTree else none

/-- A call for apps that are no archives. -/
def sampleDeviceStaging : DeviceStaging where
  temporaryDirectory := ["tmp"]
  currentDirectory := ["work"]
  bundleID fs path :=
    (.ok (some (if path = "/w/AUT-Runner.app" then "com.my.app" else "com.example.AUT")), fs)
  applicationPath _ := some "/private/AUT-Runner.app"
  session := (Simulator.sampleStagingCall false).session
  device := sampleLegacyDevice
  fails := noFailure
  writeFails _ := false

/-- The notes are gone, and the test configuration is there, the same as the copy on the Mac. -/
theorem stage_spec_sample :
    let staged := (stageXctestConfigurationToTmp sampleDeviceStaging sampleStagingState
      "/w/AUT-Runner.app" "/w/AUT.app").2
    ∃ tree, staged.containers "com.my.app" = some tree ∧ tree ["Documents", "notes.txt"] = none ∧
      ∃ content, tree ["tmp", stagedFilename sampleDeviceStaging "/w/AUT-Runner.app"] =
          some (.file content) ∧
        staged.fs.entry ["work", "xctestconfig",
          stagedFilename sampleDeviceStaging "/w/AUT-Runner.app"] = some (.file content) := by
  have htransfers : UploadsAppData sampleDeviceStaging.device sampleStagingState.containers := by
    intro fs path bundleID hsuccess
    dsimp only [sampleDeviceStaging, sampleLegacyDevice] at hsuccess ⊢
    split at hsuccess
    · rename_i h
      rw [if_pos h]
    · cases hsuccess
  have hdir : ¬ stagedBundle sampleDeviceStaging "/w/AUT-Runner.app" <+:
      copyDirectory sampleDeviceStaging := by decide +kernel
  have hspec : Stages sampleDeviceStaging "/w/AUT-Runner.app" "/w/AUT.app" sampleStagingState
      (stageXctestConfigurationToTmp sampleDeviceStaging sampleStagingState "/w/AUT-Runner.app"
        "/w/AUT.app") := stage_spec htransfers (fun _ _ => .inl rfl) hdir
  have hstatus : (stageXctestConfigurationToTmp sampleDeviceStaging sampleStagingState
      "/w/AUT-Runner.app" "/w/AUT.app").1 = .ok true := by decide +kernel
  obtain ⟨runnerBundleId, -, content, ⟨fs, hrunner⟩, -, -, hcontainers, hcopy⟩ :=
    hspec.staged hstatus
  obtain rfl : runnerBundleId = "com.my.app" := by
    simpa [sampleDeviceStaging, eq_comm] using hrunner
  intro staged
  refine ⟨_, by rw [hcontainers, Function.update_self], ?_, content, ?_, hcopy⟩
  · exact (if_neg (by simp)).trans (if_neg (by decide))
  · exact if_pos rfl

end PhysicalDevice

end IOSDeviceManager
