import IOSDeviceManager.Devices.SimulatorUpload
import IOSDeviceManager.Utilities.BundleSkeleton
import IOSDeviceManager.Utilities.ConsoleWriter

/-! # `clear-app-data` on a simulator

To clear the data of an app, an empty bundle is generated among the temporary files, uploaded in the
place of the data, and removed. The three steps tell nobody what fails: the command ends with a
success, unless the process ends while it reports a removal that failed, which it does with a C
string in the place of an object. What it leaves is told by the operations that fail, and nothing
but the data of the app and the temporary bundle is ever touched. -/

namespace IOSDeviceManager

open General XCAppDataBundle

/-- `generateXCAppDataBundleAtPath:overwrite:` of `Device`. -/
def Device.generateXCAppDataBundleAtPath (fails : FailurePattern) (fs : FileSystem) (path : Path)
    (overwrite : Bool) : IOSReturnStatusCode × FileSystem :=
  match generateBundleSkeleton fails fs path.dropLast path.lastPathComponent overwrite with
  | (some _, fs) => (.everythingOkay, fs)
  | (none, fs) => (.genericFailure, fs)

namespace Simulator

/-! ## What an upload reports -/

/-- The format of the report that a data directory cannot be removed. The first argument is the C
string `"while trying to upload xcappdata"`. -/
def removalReport : String :=
  "Cannot remove existing file:\n  %@\nbecause of error:\n  %@\n"

/-- The upload loop with this report; `none` for the status when the process ends there. -/
def reportingLoop (console : Console) (fails : FailurePattern) : List (Path × Path) → FileSystem →
    Option IOSReturnStatusCode × FileSystem
  | [], fs => (some .everythingOkay, fs)
  | (source, target) :: rest, fs =>
      match uploadRound fails fs source target with
      | none =>
          ((ConsoleWriter.print console removalReport false).map fun _ => .genericFailure, fs)
      | some fs => reportingLoop console fails rest fs

/-- `uploadXCAppDataBundle:forApplication:` with this report. -/
def reportingUpload (console : Console) (host : ContainerHost) (fails : FailurePattern)
    (fs : FileSystem) (uuid : String) (xcappdata : Path) (bundleIdentifier : String) :
    Option IOSReturnStatusCode × FileSystem :=
  if isValid fs xcappdata = false then (some .genericFailure, fs)
  else
    match containerPathForApplication host fs uuid bundleIdentifier with
    | none => (some .genericFailure, fs)
    | some containerPath =>
        reportingLoop console fails
          ((sourceDirectoriesForSimulator xcappdata).zip (targetDirectories containerPath)) fs

/-- The loop does what the loop without the report does, and the report comes where that one does
not succeed. -/
theorem reportingLoop_spec (console : Console) (fails : FailurePattern)
    (pairs : List (Path × Path)) (fs : FileSystem) :
    (reportingLoop console fails pairs fs).2 = (uploadLoop fails pairs fs).2 ∧
      ((reportingLoop console fails pairs fs).1 = none ↔
        (uploadLoop fails pairs fs).1 ≠ .everythingOkay ∧ console.goesOn removalReport = false) := by
  induction pairs generalizing fs with
  | nil => simp [reportingLoop, uploadLoop]
  | cons pair pairs ih =>
    obtain ⟨source, target⟩ := pair
    rw [reportingLoop, uploadLoop]
    cases uploadRound fails fs source target with
    | none => exact ⟨rfl, by simp [ConsoleWriter.print]⟩
    | some next => exact ih next

section

variable {console : Console} {host : ContainerHost} {fails : FailurePattern} {fs : FileSystem}
  {uuid bundleIdentifier : String} {xcappdata containerPath : Path}

/-- So does the upload. -/
theorem reportingUpload_snd :
    (reportingUpload console host fails fs uuid xcappdata bundleIdentifier).2 =
      (uploadXCAppDataBundleForApplication host fails fs uuid xcappdata bundleIdentifier).2 := by
  unfold reportingUpload uploadXCAppDataBundleForApplication
  split
  · rfl
  · cases containerPathForApplication host fs uuid bundleIdentifier with
    | none => rfl
    | some containerPath => exact (reportingLoop_spec console fails _ fs).1

/-- **The report of an upload.** The process ends in the upload of a valid bundle when a data
directory cannot be removed, unless it goes on by chance. -/
theorem reportingUpload_eq_none_iff
    (hcontainer : containerPathForApplication host fs uuid bundleIdentifier = some containerPath) :
    (reportingUpload console host fails fs uuid xcappdata bundleIdentifier).1 = none ↔
      isValid fs xcappdata = true ∧
        (∃ name ∈ dataDirectories, RemovalBlocked fails fs containerPath name) ∧
        console.goesOn removalReport = false := by
  unfold reportingUpload
  cases hvalid : isValid fs xcappdata with
  | false => simp
  | true =>
    have heffect := uploadLoop_effect fails (xcappdata ++ ["AppData"])
      (show dataDirectories.Nodup by decide) (isDirectory_containerPath hcontainer)
    have hblocked : (uploadLoop fails ((sourceDirectoriesForSimulator xcappdata).zip
        (targetDirectories containerPath)) fs).1 ≠ .everythingOkay ↔
          ∃ name ∈ dataDirectories, RemovalBlocked fails fs containerPath name := by
      refine (not_congr heffect.status).trans ?_
      push Not
      rfl
    rw [hcontainer, if_neg (by simp)]
    dsimp only
    rw [(reportingLoop_spec console fails _ fs).2, hblocked]
    simp

end

end Simulator

namespace ContainerHost

/-- What a directory is listed as depends on what is in it. -/
def ListsContents (host : ContainerHost) : Prop :=
  ∀ (fs fs' : FileSystem) (path : Path), fs'.subtree path = fs.subtree path →
    host.contentsOfDirectory fs' path = host.contentsOfDirectory fs path

end ContainerHost

namespace ClearAppDataCommand

open Simulator

/-- The name of the temporary bundle. -/
def emptyXcappdata : String :=
  "Empty.xcappdata"

/-- The format of the report that the temporary bundle cannot be removed. The first argument is the
C string `"%@"`. -/
def deletionWarning : String :=
  "Warning: could not delete temporary file: %@\n"

/-- The `@finally` block and the `return` after it; `none` when the process ends at the report. -/
def deleteTemporary (console : Console) (fails : FailurePattern) (fs : FileSystem)
    (emptyXcappdataPath : Path) : Option IOSReturnStatusCode × FileSystem :=
  match fails.removeItemAtPath fs emptyXcappdataPath with
  | some fs => (some .everythingOkay, fs)
  | none =>
      ((ConsoleWriter.print console deletionWarning false).map fun _ => .everythingOkay, fs)

/-- The end of `execute:`, from the generation of the empty bundle on, for a simulator; `none` for
the status when the process ends at a report. -/
def clearAppData (console : Console) (host : ContainerHost) (fails : FailurePattern)
    (fs : FileSystem) (uuid : String) (temporaryDirectory : Path) (bundleId : String) :
    Option IOSReturnStatusCode × FileSystem :=
  let emptyXcappdataPath := temporaryDirectory ++ [emptyXcappdata]
  let generated := (Device.generateXCAppDataBundleAtPath fails fs emptyXcappdataPath true).2
  match reportingUpload console host fails generated uuid emptyXcappdataPath bundleId with
  | (none, uploaded) => (none, uploaded)
  | (some _, uploaded) => deleteTemporary console fails uploaded emptyXcappdataPath

/-- The data directory `name` of an app without data. -/
def noData (name : String) (below : List String) : Option (Entry (List UInt8)) :=
  if requiredDirectories.contains (["AppData", name] ++ below) then some .directory else none

/-- There is no data in a container. -/
def IsClear (fs : FileSystem) (containerPath : Path) : Prop :=
  ∀ name ∈ dataDirectories, fs.subtree (containerPath ++ [name]) = noData name

/-! ## The empty bundle -/

section

variable {fails : FailurePattern} {fs : FileSystem} {path : Path} {name : String}

/-- A complete skeleton has no data. -/
theorem subtree_of_holdsExactly {bundle : Path}
    (hholds : fs.HoldsExactly bundle requiredDirectories) :
    fs.subtree (bundle ++ ["AppData", name]) = noData name := by
  funext below
  rw [PathStore.subtree, List.append_assoc, noData]
  split
  · rename_i hmem
    exact hholds.directory _ (List.contains_iff_mem.mp hmem)
  · rename_i hnot
    exact Option.not_isSome_iff_eq_none.mp
      (hholds.nothing _ fun h => hnot (List.contains_iff_mem.mpr h))

/-- A skeleton that is not completed lacks one of the required directories. -/
theorem exists_missing (hext : hasCorrectExtension path = true)
    (hdone : (madeSkeleton fails path).1 = false) :
    ∃ below ∈ requiredDirectories, below ∉ (madeSkeleton fails path).2 := by
  -- which of the four directories is the first that cannot be made
  unfold madeSkeleton at hdone ⊢
  by_cases hbundle : fails (.createDirectory path) = true
  · simp only [hbundle, if_true]
    exact ⟨[], by decide, by decide⟩
  · simp only [hbundle, Bool.false_eq_true, if_false, hext, Bool.and_true, skeletonDirectories,
      madeDirectories] at hdone ⊢
    by_cases hdocuments : fails (.createDirectory (path ++ ["AppData", "Documents"])) = true
    · simp only [hdocuments, if_true]
      exact ⟨["AppData"], by decide, by decide⟩
    · by_cases htmp : fails (.createDirectory (path ++ ["AppData", "tmp"])) = true
      · simp only [hdocuments, htmp, Bool.false_eq_true, if_false, if_true]
        exact ⟨["AppData", "tmp"], by decide, by decide⟩
      · by_cases hlibrary :
            fails (.createDirectory (path ++ ["AppData", "Library", "Preferences"])) = true
        · simp only [hdocuments, htmp, hlibrary, Bool.false_eq_true, if_false, if_true]
          exact ⟨["AppData", "Library"], by decide, by decide⟩
        · simp [hdocuments, htmp, hlibrary] at hdone

/-- What is there stays when directories are made. -/
theorem mem_madeDirectories {directories made : List Path} {below : Path} (h : below ∈ made) :
    below ∈ (madeDirectories fails path directories made).2 := by
  induction directories generalizing made with
  | nil => exact h
  | cons directory directories ih =>
    rw [madeDirectories]
    split
    · exact h
    · exact ih (List.mem_append_left _ h)

/-- There is a bundle, complete or not, unless its directory could not be made. -/
theorem nil_mem_madeSkeleton_iff :
    [] ∈ (madeSkeleton fails path).2 ↔ fails (.createDirectory path) = false := by
  unfold madeSkeleton
  cases fails (.createDirectory path) with
  | true => simp
  | false => simpa using mem_madeDirectories (List.mem_singleton_self [])

variable (fails) in
/-- **The empty bundle.** Where there is nothing yet, the generation changes nothing else, and
leaves a valid bundle without data, one that is not valid, or none. -/
theorem generate_spec (hext : hasCorrectExtension (path ++ [name]) = true)
    (hparent : fs.IsDirectory path) (hnone : ¬ fs.Exists (path ++ [name])) :
    let generated := (Device.generateXCAppDataBundleAtPath fails fs (path ++ [name]) true).2
    PathStore.AgreeOutside (path ++ [name]) fs generated ∧
      (generated.Exists (path ++ [name]) ↔ fails (.createDirectory (path ++ [name])) = false) ∧
      (isValid generated (path ++ [name]) = true ↔
        (madeSkeleton fails (path ++ [name])).1 = true) ∧
      ((madeSkeleton fails (path ++ [name])).1 = true →
        generated.HoldsExactly (path ++ [name]) requiredDirectories) := by
  have hnotdir : ¬ fs.IsDirectory (path ++ [name]) := fun hdir => hnone hdir.exists
  obtain ⟨fs', hrun, hholds, hagree⟩ := createBundle_spec fails hparent hnone
  -- the directory is there and the bundle is not, so it is made at once
  have hgenerated : (Device.generateXCAppDataBundleAtPath fails fs (path ++ [name]) true).2 =
      fs' := by
    have hskeleton : generateBundleSkeleton fails fs (path ++ [name]).dropLast
        (Path.lastPathComponent (path ++ [name])) true =
          createBundle fails fs (path ++ [name]) := by
      simp [generateBundleSkeleton, Path.lastPathComponent, NSFileManager.isDirectoryAtPath,
        hparent, hnotdir]
    rw [Device.generateXCAppDataBundleAtPath, hskeleton, hrun]
    split <;> rename_i heq <;> exact (congrArg Prod.snd heq).symm
  dsimp only
  rw [hgenerated]
  refine ⟨hagree, ?_, ?_, fun hdone => (generated_of_done hdone hholds).2⟩
  · rw [← nil_mem_madeSkeleton_iff]
    constructor
    · intro hexists
      by_contra hmissing
      exact hholds.nothing [] hmissing (by rwa [List.append_nil])
    · intro hmade
      have hself := (hholds.directory [] hmade).exists
      rwa [List.append_nil] at hself
  constructor
  · intro hvalid
    by_contra hnot
    obtain ⟨below, hbelow, hmissing⟩ := exists_missing hext (by simpa using hnot)
    exact hholds.nothing below hmissing (((isValid_iff fs' _).mp hvalid).2 below hbelow).exists
  · exact fun hdone => (generated_of_done hdone hholds).1

end

/-! ## The whole command -/

/-- The container of an app lies in the directory of the containers. -/
theorem exists_folder {host : ContainerHost} {fs : FileSystem} {uuid bundleId : String}
    {containerPath : Path}
    (h : containerPathForApplication host fs uuid bundleId = some containerPath) :
    ∃ folder, containerPath = appDataPath host uuid ++ [folder] := by
  obtain ⟨folder, -, hfolder⟩ := List.mem_map.mp (List.mem_of_find?_eq_some h)
  exact ⟨folder, hfolder.symm⟩

/-- Where the containers are left alone, the same one is found. -/
theorem containerPath_of_agreeOutside {host : ContainerHost} {fs fs' : FileSystem} {bundle : Path}
    {uuid : String} (hlists : host.ListsContents)
    (hapart : PathStore.Apart bundle (appDataPath host uuid))
    (hagree : PathStore.AgreeOutside bundle fs fs') (bundleId : String) :
    containerPathForApplication host fs' uuid bundleId =
      containerPathForApplication host fs uuid bundleId := by
  have hcontents := hlists fs fs' _ (hagree.subtree_eq hapart)
  have htest : ∀ folder, isContainerOf host fs' bundleId (appDataPath host uuid ++ [folder]) =
      isContainerOf host fs bundleId (appDataPath host uuid ++ [folder]) := by
    intro folder
    have hentry := congrFun (hagree.subtree_eq hapart) [folder, metadataFile]
    simp only [PathStore.subtree] at hentry
    simp only [isContainerOf, List.append_assoc, List.cons_append, List.nil_append, hentry]
  unfold containerPathForApplication
  rw [hcontents, List.find?_map, List.find?_map]
  exact congrArg (Option.map _) (List.find?_congr fun folder _ => htest folder)

section

variable {host : ContainerHost} {fails : FailurePattern} {fs : FileSystem}
  {uuid bundleId : String} {temporaryDirectory containerPath : Path}

/-- What the command meets: the app has a container, apart from the temporary bundle, which is not
there yet. -/
structure Meets (host : ContainerHost) (fs : FileSystem) (uuid bundleId : String)
    (temporaryDirectory containerPath : Path) : Prop where
  directory : fs.IsDirectory temporaryDirectory
  nothing : ¬ fs.Exists (temporaryDirectory ++ [emptyXcappdata])
  apart : PathStore.Apart (temporaryDirectory ++ [emptyXcappdata]) (appDataPath host uuid)
  container : containerPathForApplication host fs uuid bundleId = some containerPath

/-- The copies that clear the data: every data directory up to the first one that cannot be removed
is replaced by an empty one, and from there on there was no data. -/
def CopiesClear (fails : FailurePattern) (fs : FileSystem) (bundle containerPath : Path) : Prop :=
  ∀ name ∈ dataDirectories,
    (name ∈ attempted fails fs containerPath dataDirectories →
      fails (.copyItem (bundle ++ ["AppData", name]) (containerPath ++ [name])) = false) ∧
    (name ∉ attempted fails fs containerPath dataDirectories →
      fs.subtree (containerPath ++ [name]) = noData name)

variable (fails) in
/-- **The upload of the empty bundle.** A valid bundle without data clears the data as its copies
do; a bundle that is not valid leaves it alone. -/
theorem upload_spec {generated : FileSystem} {bundle : Path}
    (hcontainer : containerPathForApplication host generated uuid bundleId = some containerPath)
    (hapart : PathStore.Apart bundle containerPath)
    (hholds : isValid generated bundle = true → generated.HoldsExactly bundle requiredDirectories) :
    let uploaded :=
      (uploadXCAppDataBundleForApplication host fails generated uuid bundle bundleId).2
    (∀ q, (∀ name ∈ dataDirectories, ¬ containerPath ++ [name] <+: q) →
      uploaded.entry q = generated.entry q) ∧
      (IsClear uploaded containerPath ↔
        if isValid generated bundle then CopiesClear fails generated bundle containerPath
        else IsClear generated containerPath) := by
  dsimp only
  cases hvalid : isValid generated bundle with
  | false =>
    rw [uploadXCAppDataBundleForApplication, if_pos hvalid]
    exact ⟨fun _ _ => rfl, by simp⟩
  | true =>
    have heffect := uploadLoop_effect fails (bundle ++ ["AppData"])
      (show dataDirectories.Nodup by decide) (isDirectory_containerPath hcontainer)
    have hrun : uploadXCAppDataBundleForApplication host fails generated uuid bundle bundleId =
        uploadLoop fails (dataDirectories.map fun name =>
          (bundle ++ ["AppData"] ++ [name], containerPath ++ [name])) generated := by
      rw [uploadXCAppDataBundleForApplication, if_neg (by simp [hvalid]), hcontainer]
      rfl
    rw [← hrun] at heffect
    generalize uploadXCAppDataBundleForApplication host fails generated uuid bundle bundleId =
      result at heffect
    refine ⟨fun q hq => heffect.outside q fun name hname =>
      hq name ((List.takeWhile_sublist _).subset hname), ?_⟩
    -- a valid bundle has these directories, and they are empty
    have hempty : ∀ name, generated.subtree (bundle ++ ["AppData"] ++ [name]) = noData name := by
      intro name
      rw [List.append_assoc]
      exact subtree_of_holdsExactly (hholds hvalid)
    have hsources : ∀ name ∈ dataDirectories, generated.Exists (bundle ++ ["AppData"] ++ [name]) := by
      intro name hname
      have hmem : ["AppData", name] ∈ requiredDirectories := by
        revert name
        decide
      simpa using ((hholds hvalid).directory _ hmem).exists
    -- the bundle lies apart from the container, so a copy can only fail by itself
    have hworks : ∀ name, CopyWorks fails (bundle ++ ["AppData"]) containerPath name ↔
        fails (.copyItem (bundle ++ ["AppData", name]) (containerPath ++ [name])) = false := by
      intro name
      rw [CopyWorks, List.append_assoc]
      exact and_iff_left (hapart.append ["AppData", name] [name])
    have hcopies := all_copies_iff heffect hsources
    simp only [hempty, hworks] at hcopies
    exact hcopies

/-- What happens to the bundle does not bear on the data. -/
theorem isClear_of_agreeOutside {fs' : FileSystem} {bundle : Path}
    (hapart : PathStore.Apart bundle containerPath)
    (hagree : PathStore.AgreeOutside bundle fs fs') :
    IsClear fs' containerPath ↔ IsClear fs containerPath := by
  have hsubtree : ∀ name, fs'.subtree (containerPath ++ [name]) =
      fs.subtree (containerPath ++ [name]) := by
    intro name
    have happend := hapart.append [] [name]
    rw [List.append_nil] at happend
    exact hagree.subtree_eq happend
  simp only [IsClear, hsubtree]

/-- Whether a data directory can be removed does not depend on the bundle. -/
theorem removalBlocked_iff {fs' : FileSystem} {bundle : Path} {name : String}
    (hapart : PathStore.Apart bundle containerPath)
    (hagree : PathStore.AgreeOutside bundle fs fs') :
    RemovalBlocked fails fs' containerPath name ↔ RemovalBlocked fails fs containerPath name := by
  have happend := hapart.append [] [name]
  rw [List.append_nil] at happend
  rw [RemovalBlocked, RemovalBlocked, PathStore.Exists, PathStore.Exists, hagree _ happend.1]

/-- Nor do the copies that clear the data. -/
theorem copiesClear_of_agreeOutside {fs' : FileSystem} {bundle : Path}
    (hapart : PathStore.Apart bundle containerPath)
    (hagree : PathStore.AgreeOutside bundle fs fs') :
    CopiesClear fails fs' bundle containerPath ↔ CopiesClear fails fs bundle containerPath := by
  have hsubtree : ∀ name, fs'.subtree (containerPath ++ [name]) =
      fs.subtree (containerPath ++ [name]) := by
    intro name
    have happend := hapart.append [] [name]
    rw [List.append_nil] at happend
    exact hagree.subtree_eq happend
  have hattempted : attempted fails fs' containerPath dataDirectories =
      attempted fails fs containerPath dataDirectories := by
    simp only [attempted, removalBlocked_iff hapart hagree]
  simp only [CopiesClear, hattempted, hsubtree]

/-- The process ends at a report: the bundle was completed and a data directory cannot be removed,
or the bundle cannot be removed, or was not made, so that there is nothing to remove. -/
def Interrupted (console : Console) (fails : FailurePattern) (fs : FileSystem)
    (bundle containerPath : Path) : Prop :=
  ((madeSkeleton fails bundle).1 = true ∧
      (∃ name ∈ dataDirectories, RemovalBlocked fails fs containerPath name) ∧
      console.goesOn removalReport = false) ∨
    ((fails (.createDirectory bundle) = true ∨ fails (.removeItem bundle) = true) ∧
      console.goesOn deletionWarning = false)

variable (fails fs) in
/-- **The end of the command.** The process ends there when there is no bundle to remove, or it
cannot be removed, unless it goes on by chance. -/
theorem deleteTemporary_spec (console : Console) (bundle : Path) :
    PathStore.AgreeOutside bundle fs (deleteTemporary console fails fs bundle).2 ∧
      ((deleteTemporary console fails fs bundle).1 = some .everythingOkay ∨
        (deleteTemporary console fails fs bundle).1 = none) ∧
      ((deleteTemporary console fails fs bundle).1 = none ↔
        (¬ fs.Exists bundle ∨ fails (.removeItem bundle) = true) ∧
          console.goesOn deletionWarning = false) := by
  have hremoval : fails.removeItemAtPath fs bundle = none ↔
      ¬ fs.Exists bundle ∨ fails (.removeItem bundle) = true := by
    rw [FailurePattern.removeItemAtPath, NSFileManager.removeItemAtPath]
    by_cases hfails : fails (.removeItem bundle) = true <;>
      by_cases hexists : fs.Exists bundle <;> simp [hfails, hexists]
  rw [← hremoval]
  unfold deleteTemporary
  cases hremove : fails.removeItemAtPath fs bundle with
  | some removed =>
    obtain ⟨-, -, rfl⟩ := FailurePattern.removeItemAtPath_eq_some_iff.mp hremove
    exact ⟨PathStore.agreeOutside_remove fs bundle, .inl rfl, by simp⟩
  | none =>
    refine ⟨fun _ _ => rfl, ?_, by simp [ConsoleWriter.print]⟩
    dsimp only [ConsoleWriter.print]
    cases console.goesOn deletionWarning <;> simp

/-- What the command does after the upload. -/
theorem clearAppData_of_upload {console : Console} {bundle : Path} {generated : FileSystem}
    {uploaded : Option IOSReturnStatusCode × FileSystem}
    (hbundle : temporaryDirectory ++ [emptyXcappdata] = bundle)
    (hgenerated : (Device.generateXCAppDataBundleAtPath fails fs bundle true).2 = generated)
    (huploaded : reportingUpload console host fails generated uuid bundle bundleId = uploaded) :
    let result := clearAppData console host fails fs uuid temporaryDirectory bundleId
    PathStore.AgreeOutside bundle uploaded.2 result.2 ∧
      (result.1 = some .everythingOkay ∨ result.1 = none) ∧
      (result.1 = none ↔ uploaded.1 = none ∨
        (¬ uploaded.2.Exists bundle ∨ fails (.removeItem bundle) = true) ∧
          console.goesOn deletionWarning = false) := by
  subst hbundle hgenerated
  obtain ⟨code, later⟩ := uploaded
  rw [clearAppData, huploaded]
  cases code with
  | none => exact ⟨fun _ _ => rfl, .inr rfl, by simp⟩
  | some code => simpa using deleteTemporary_spec fails later console _

variable (fails) in
/-- **Clearing the data of an app.** Whatever fails, the command ends with a success, or the process
ends at a report, exactly when a data directory or the temporary bundle cannot be removed; and
nothing is touched but the data of the app and the temporary bundle. In either case the data is
cleared exactly when the empty bundle was completed and its copies clear it or, without the bundle,
when there was none before. -/
theorem clearAppData_iff (console : Console) (hlists : host.ListsContents)
    (hmeets : Meets host fs uuid bundleId temporaryDirectory containerPath) :
    let result := clearAppData console host fails fs uuid temporaryDirectory bundleId
    (result.1 = some .everythingOkay ∨ result.1 = none) ∧
      (result.1 = none ↔
        Interrupted console fails fs (temporaryDirectory ++ [emptyXcappdata]) containerPath) ∧
      (∀ q, ¬ temporaryDirectory ++ [emptyXcappdata] <+: q →
        (∀ name ∈ dataDirectories, ¬ containerPath ++ [name] <+: q) →
          result.2.entry q = fs.entry q) ∧
      (IsClear result.2 containerPath ↔
        if (madeSkeleton fails (temporaryDirectory ++ [emptyXcappdata])).1 then
          CopiesClear fails fs (temporaryDirectory ++ [emptyXcappdata]) containerPath
        else IsClear fs containerPath) := by
  have hext : hasCorrectExtension (temporaryDirectory ++ [emptyXcappdata]) = true := by
    simp only [hasCorrectExtension, Path.hasSuffix, Path.lastPathComponent, List.getLastD_concat]
    decide
  obtain ⟨hgenerated, hmade, hvalid, hholds⟩ :=
    generate_spec fails hext hmeets.directory hmeets.nothing
  obtain ⟨folder, hfolder⟩ := exists_folder hmeets.container
  have hapart : PathStore.Apart (temporaryDirectory ++ [emptyXcappdata]) containerPath := by
    rw [hfolder]
    simpa using hmeets.apart.append [] [folder]
  generalize hbundle : temporaryDirectory ++ [emptyXcappdata] = bundle at *
  generalize hgen : (Device.generateXCAppDataBundleAtPath fails fs bundle true).2 = generated at *
  have hfound := (containerPath_of_agreeOutside hlists (hbundle ▸ hmeets.apart) hgenerated
    bundleId).trans hmeets.container
  obtain ⟨houtside, hclear⟩ :=
    upload_spec fails hfound hapart fun h => hholds (hvalid.mp h)
  have hreport : (reportingUpload console host fails generated uuid bundle bundleId).1 = none ↔ _ :=
    reportingUpload_eq_none_iff hfound
  have hsame : (reportingUpload console host fails generated uuid bundle bundleId).2 = _ :=
    reportingUpload_snd
  rw [← hsame] at houtside hclear
  generalize hupload : reportingUpload console host fails generated uuid bundle bundleId =
    uploaded at houtside hclear hreport
  obtain ⟨hagree, hstatus, hnone⟩ := clearAppData_of_upload hbundle hgen hupload
  -- the bundle is not one of the data directories
  have hexists : uploaded.2.Exists bundle ↔ fails (.createDirectory bundle) = false := by
    rw [← hmade, PathStore.Exists, PathStore.Exists, houtside bundle fun name _ hpre => ?_]
    exact (hapart.append [] [name]).2 (by rwa [List.append_nil])
  refine ⟨hstatus, ?_, fun q hq hdata => ?_, ?_⟩
  · rw [hnone, hreport, hexists, Bool.not_eq_false, hvalid, Interrupted]
    simp only [removalBlocked_iff hapart hgenerated]
  · calc (clearAppData console host fails fs uuid temporaryDirectory bundleId).2.entry q
        = uploaded.2.entry q := hagree q hq
      _ = generated.entry q := houtside q hdata
      _ = fs.entry q := hgenerated q hq
  · rw [isClear_of_agreeOutside hapart hagree, hclear,
      copiesClear_of_agreeOutside hapart hgenerated, isClear_of_agreeOutside hapart hgenerated]
    by_cases hdone : (madeSkeleton fails bundle).1 = true
    · rw [if_pos (hvalid.mpr hdone), if_pos hdone]
    · rw [if_neg (mt hvalid.mp hdone), if_neg hdone]

end

/-- Where no operation fails by itself, every directory is replaced by its copy. -/
theorem copiesClear_noFailure (fs : FileSystem) (bundle containerPath : Path) :
    CopiesClear noFailure fs bundle containerPath := by
  intro name hname
  refine ⟨fun _ => rfl, fun hnot => absurd ?_ hnot⟩
  have hall : attempted noFailure fs containerPath dataDirectories = dataDirectories :=
    List.takeWhile_eq_self_iff.mpr fun other _ => by simp [RemovalBlocked, noFailure]
  rwa [hall]

/-- The app of a simulator has documents before, and no data afterwards; on a console that ends the
process at once, the command has ended with a success. -/
theorem clearAppData_sample :
    let result :=
      clearAppData .strict sampleHost noFailure sampleFileSystem "5C2D" ["tmp"] "com.my.app"
    result.1 = some .everythingOkay ∧ IsClear result.2 sampleContainer := by
  have hmeets : Meets sampleHost sampleFileSystem "5C2D" "com.my.app" ["tmp"] sampleContainer :=
    ⟨by decide +kernel, by decide +kernel, ⟨by decide +kernel, by decide +kernel⟩,
      by decide +kernel⟩
  have hlists : sampleHost.ListsContents := fun _ _ _ _ => rfl
  obtain ⟨hstatus, hnone, -, hclear⟩ := clearAppData_iff noFailure .strict hlists hmeets
  refine ⟨hstatus.resolve_right fun h => ?_, hclear.mpr ?_⟩
  · obtain ⟨-, ⟨name, -, -, hblocked⟩, -⟩ | ⟨hfails, -⟩ := hnone.mp h
    · cases hblocked
    · exact hfails.elim Bool.noConfusion Bool.noConfusion
  · rw [if_pos (by decide +kernel)]
    exact copiesClear_noFailure _ _ _

end ClearAppDataCommand

end IOSDeviceManager
