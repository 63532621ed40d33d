import IOSDeviceManager.Devices.PhysicalDeviceInstall
import IOSDeviceManager.Devices.SimulatorFileUpload

/-! # Uploading a file to a physical device

`uploadFile:forApplication:overwrite:` of a physical device downloads all app data to a temporary
directory, puts the file into the documents there and uploads everything. An entry of the same name
is removed in the temporary directory only, so the device loses nothing when the copy fails; what
was downloaded is not removed but for its documents. At the end the local destination is printed, as
a format: a `%` in it can end the process, when everything is done. -/

namespace IOSDeviceManager

open General

/-- A tree of app data. -/
abbrev DataTree : Type :=
  Path → Option (Entry (List UInt8))

/-- A tree with another one put at a path. -/
def DataTree.put (tree : DataTree) (path : Path) (other : DataTree) : DataTree :=
  fun q => if path <+: q then other (q.drop path.length) else tree q

/-- The data of the apps that are installed on a device. -/
abbrev AppContainers : Type :=
  String → Option DataTree

/-- The transfers of app data. -/
structure LegacyDevice where
  /-- `downloadApplicationDataToPath:bundleID:error:`. -/
  downloadApplicationData : AppContainers → FileSystem → Path → String → Bool × FileSystem
  /-- `uploadApplicationDataAtPath:bundleID:error:`. -/
  uploadApplicationData : AppContainers → FileSystem → Path → String → Bool × AppContainers

/-- What the transfers are for: a download puts the data of an app under `AppData`, and an upload
makes what is under `AppData` the data of the app. -/
structure TransfersAppData (device : LegacyDevice) (containers : AppContainers) : Prop where
  outside : ∀ fs path bundleID,
    PathStore.AgreeOutside path fs (device.downloadApplicationData containers fs path bundleID).2
  downloaded : ∀ fs path bundleID,
    (device.downloadApplicationData containers fs path bundleID).1 = true →
      containers bundleID = some ((device.downloadApplicationData containers fs path
        bundleID).2.subtree (path ++ ["AppData"]))
  uploaded : ∀ fs path bundleID,
    (device.uploadApplicationData containers fs path bundleID).1 = true →
      (device.uploadApplicationData containers fs path bundleID).2 =
        Function.update containers bundleID (some (fs.subtree (path ++ ["AppData"])))

/-- The files of the Mac and the data of the apps on the device. -/
structure UploadState where
  fs : FileSystem
  containers : AppContainers

namespace PhysicalDevice

/-- Where the app data is downloaded to; `guid` is a `globallyUniqueString`. -/
def xcappdataPath (temporaryDirectory : Path) (guid : String) : Path :=
  temporaryDirectory ++ [guid] ++ [guid ++ ".xcappdata"]

/-- The documents in the app data. -/
def dataBundle (temporaryDirectory : Path) (guid : String) : Path :=
  xcappdataPath temporaryDirectory guid ++ ["AppData"] ++ ["Documents"]

/-- The local path that the file is copied to. -/
def destination (temporaryDirectory : Path) (guid : String) (filepath : Path) : Path :=
  dataBundle temporaryDirectory guid ++ filepath.getLast?.toList

section

variable (device : LegacyDevice) (console : Console) (fails : FailurePattern)
  (temporaryDirectory : Path) (guid : String) (state : UploadState) (filepath : Path)
  (bundleID : String)

/-- The end of the method, when the file is in the temporary directory. A removal that fails is only
reported. There is no status when the process ends at the printing of the destination. -/
def uploadDocuments : Option IOSReturnStatusCode × UploadState :=
  let uploaded := device.uploadApplicationData state.containers state.fs
    (xcappdataPath temporaryDirectory guid) bundleID
  if !uploaded.1 then (some .internalError, { state with containers := uploaded.2 })
  else
    (Simulator.printDestination console (destination temporaryDirectory guid filepath),
      { fs := (fails.removeItemAtPath state.fs (dataBundle temporaryDirectory guid)).getD state.fs
        containers := uploaded.2 })

/-- The copy of the file to the temporary directory, and the rest of the method. -/
def copyAndUpload : Option IOSReturnStatusCode × UploadState :=
  match fails.copyItemAtPath state.fs filepath (destination temporaryDirectory guid filepath) with
  | none => (some .genericFailure, state)
  | some fs =>
      uploadDocuments device console fails temporaryDirectory guid { state with fs := fs } filepath
        bundleID

/-- The method after the download. -/
def replaceAndUpload (overwrite : Bool) : Option IOSReturnStatusCode × UploadState :=
  let dest := destination temporaryDirectory guid filepath
  if NSFileManager.fileExistsAtPath state.fs dest then
    if !overwrite then (some .genericFailure, state)
    else
      match fails.removeItemAtPath state.fs dest with
      | none => (some .genericFailure, state)
      | some fs =>
          copyAndUpload device console fails temporaryDirectory guid { state with fs := fs } filepath
            bundleID
  else copyAndUpload device console fails temporaryDirectory guid state filepath bundleID

/-- `uploadFile:forApplication:overwrite:`. -/
def uploadFile (overwrite : Bool) : Option IOSReturnStatusCode × UploadState :=
  if NSFileManager.fileExistsAtPath state.fs filepath = false then (some .invalidArguments, state)
  else
    match fails.createDirectoryAtPath state.fs (xcappdataPath temporaryDirectory guid) with
    | none => (some .genericFailure, state)
    | some fs =>
        let downloaded := device.downloadApplicationData state.containers fs
          (xcappdataPath temporaryDirectory guid) bundleID
        let state := { state with fs := downloaded.2 }
        if !downloaded.1 then (some .internalError, state)
        else
          replaceAndUpload device console fails temporaryDirectory guid state filepath bundleID
            overwrite

end

/-! ## What happens to the app data -/

section

variable {device : LegacyDevice} {console : Console} {fails : FailurePattern}
  {temporaryDirectory dir : Path} {guid name bundleID : String} {overwrite : Bool}

/-- The destination of a file, seen from the app data. -/
theorem destination_eq (temporaryDirectory dir : Path) (guid name : String) :
    destination temporaryDirectory guid (dir ++ [name]) =
      xcappdataPath temporaryDirectory guid ++ ["AppData"] ++ ["Documents", name] := by
  rw [destination, dataBundle, List.getLast?_concat, Option.toList_some, List.append_assoc,
    List.singleton_append]

/-- Everything is put into one directory of the temporary one. -/
theorem prefix_destination (temporaryDirectory : Path) (guid : String) (filepath : Path) :
    temporaryDirectory ++ [guid] <+: destination temporaryDirectory guid filepath := by
  rw [destination, dataBundle, xcappdataPath]
  simp only [List.append_assoc]
  exact (List.prefix_append_right_inj temporaryDirectory).mpr (List.prefix_append [guid] _)

/-- A frame within another one. -/
theorem agreeOutside_widen {p q : Path} {fs fs' : FileSystem} (hpre : p <+: q)
    (h : PathStore.AgreeOutside q fs fs') : PathStore.AgreeOutside p fs fs' :=
  fun path hpath => h path fun hq => hpath (hpre.trans hq)

/-- A removal whose failure is ignored. -/
theorem agreeOutside_getD_removeItemAtPath (fails : FailurePattern) (fs : FileSystem)
    (path : Path) :
    PathStore.AgreeOutside path fs ((fails.removeItemAtPath fs path).getD fs) := by
  cases hremove : fails.removeItemAtPath fs path with
  | none => exact fun _ _ => rfl
  | some removed =>
    obtain ⟨-, -, rfl⟩ := FailurePattern.removeItemAtPath_eq_some_iff.mp hremove
    exact PathStore.agreeOutside_remove fs _

/-- The status of an upload that is given up: neither a success nor an error of a transfer. -/
def GivenUp (status : Option IOSReturnStatusCode) : Prop :=
  ∃ code, status = some code ∧ code ≠ .everythingOkay ∧ code ≠ .internalError

/-- The upload was not given up and met no error of a transfer: a success, unless the process ends
at the printing. -/
def Completed (status : Option IOSReturnStatusCode) : Prop :=
  ∀ code, status = some code → code = .everythingOkay

/-- What an upload is to do: touch nothing on the Mac but its temporary directory; touch nothing on
the device unless the transfer to it begins; and if it is completed, put the file into the documents
of the app and change nothing else on the device. -/
structure PutsFile (temporaryDirectory : Path) (guid : String) (before : UploadState)
    (file : DataTree) (name bundleID : String) (result : Option IOSReturnStatusCode × UploadState) :
    Prop where
  outside : PathStore.AgreeOutside (temporaryDirectory ++ [guid]) before.fs result.2.fs
  unchanged : GivenUp result.1 → result.2.containers = before.containers
  put : Completed result.1 → ∃ tree, before.containers bundleID = some tree ∧
    result.2.containers = Function.update before.containers bundleID
      (some (tree.put ["Documents", name] file))
  /-- The rest of the app data stays on the Mac. -/
  left : Completed result.1 → ∀ tree, before.containers bundleID = some tree →
    ∀ below, ¬ ["Documents"] <+: below →
      result.2.fs.entry (xcappdataPath temporaryDirectory guid ++ ["AppData"] ++ below) =
        tree below

variable {before : UploadState} {fs : FileSystem} {file tree : DataTree}

/-- A printed destination is no status of an upload that is given up. -/
theorem not_givenUp_printDestination (console : Console) (dest : Path) :
    ¬ GivenUp (Simulator.printDestination console dest) := by
  rintro ⟨code, hcode, hokay, -⟩
  obtain ⟨-, -, rfl⟩ := Option.map_eq_some_iff.mp hcode
  exact hokay rfl

/-- An upload that ends before the transfer, with the status of a failure. -/
theorem putsFile_of_failure {status : IOSReturnStatusCode} (hstatus : status ≠ .everythingOkay)
    (hagree : PathStore.AgreeOutside (temporaryDirectory ++ [guid]) before.fs fs) :
    PutsFile temporaryDirectory guid before file name bundleID
      (some status, { before with fs := fs }) :=
  ⟨hagree, fun _ => rfl, fun h => absurd (h status rfl) hstatus,
    fun h => absurd (h status rfl) hstatus⟩

/-- The transfer puts the file if the temporary app data is that of the app with the file put. -/
theorem putsFile_uploadDocuments {filepath : Path} (htransfers : TransfersAppData device before.containers)
    (hagree : PathStore.AgreeOutside (temporaryDirectory ++ [guid]) before.fs fs)
    (htree : before.containers bundleID = some tree)
    (hput : fs.subtree (xcappdataPath temporaryDirectory guid ++ ["AppData"]) =
      tree.put ["Documents", name] file) :
    PutsFile temporaryDirectory guid before file name bundleID
      (uploadDocuments device console fails temporaryDirectory guid { before with fs := fs } filepath
        bundleID) := by
  have hremoved := agreeOutside_getD_removeItemAtPath fails fs (dataBundle temporaryDirectory guid)
  unfold uploadDocuments
  dsimp only
  cases hupload : (device.uploadApplicationData before.containers fs
      (xcappdataPath temporaryDirectory guid) bundleID).1 with
  | false =>
    have hfailed : ¬ Completed (some .internalError) := fun h => nomatch h _ rfl
    refine ⟨hagree, ?_, fun h => absurd h hfailed, fun h => absurd h hfailed⟩
    rintro ⟨_, ⟨rfl⟩, -, hinternal⟩
    exact absurd rfl hinternal
  | true =>
    refine ⟨?_, fun h => absurd h (not_givenUp_printDestination console _),
      fun _ => ⟨tree, htree, ?_⟩, ?_⟩
    · refine hagree.trans (agreeOutside_widen ?_ hremoved)
      rw [dataBundle, xcappdataPath]
      simp only [List.append_assoc]
      exact (List.prefix_append_right_inj temporaryDirectory).mpr (List.prefix_append [guid] _)
    · rw [← hput]
      exact htransfers.uploaded _ _ _ hupload
    · intro _ tree' htree' below hbelow
      obtain rfl : tree = tree' := by simpa [htree] using htree'
      -- only the documents are removed, and only below them was something put
      have houtside : ¬ dataBundle temporaryDirectory guid <+:
          xcappdataPath temporaryDirectory guid ++ ["AppData"] ++ below := by
        rw [dataBundle, List.prefix_append_right_inj]
        exact hbelow
      have hname : ¬ ["Documents", name] <+: below := fun h =>
        hbelow ((List.prefix_append ["Documents"] [name]).trans h)
      have hbefore := congrFun hput below
      rw [DataTree.put, if_neg hname] at hbefore
      exact (hremoved _ houtside).trans hbefore

/-- **The copy and the transfer.** Where the temporary app data is that of the app, apart from the
destination, the file is put. -/
theorem putsFile_copyAndUpload (htransfers : TransfersAppData device before.containers)
    (hexists : before.fs.Exists (dir ++ [name]))
    (hfresh : ¬ before.fs.Exists (temporaryDirectory ++ [guid]))
    (hagree : PathStore.AgreeOutside (temporaryDirectory ++ [guid]) before.fs fs)
    (htree : before.containers bundleID = some tree)
    (hsame : ∀ below, ¬ ["Documents", name] <+: below →
      fs.entry (xcappdataPath temporaryDirectory guid ++ ["AppData"] ++ below) = tree below) :
    PutsFile temporaryDirectory guid before (before.fs.subtree (dir ++ [name])) name bundleID
      (copyAndUpload device console fails temporaryDirectory guid { before with fs := fs }
        (dir ++ [name]) bundleID) := by
  have hwithin := prefix_destination temporaryDirectory guid (dir ++ [name])
  unfold copyAndUpload
  dsimp only
  cases hcopy : fails.copyItemAtPath fs (dir ++ [name])
      (destination temporaryDirectory guid (dir ++ [name])) with
  | none => exact putsFile_of_failure (by decide) hagree
  | some copied =>
    obtain ⟨-, hcan, rfl⟩ := FailurePattern.copyItemAtPath_eq_some_iff.mp hcopy
    have hcopied := hagree.trans
      (agreeOutside_widen hwithin (PathStore.agreeOutside_copy fs hcan))
    -- the file lies apart from the temporary directory, and so is copied as it was
    have hapart : PathStore.Apart (temporaryDirectory ++ [guid]) (dir ++ [name]) :=
      ⟨fun hpre => PathStore.not_exists_of_prefix hfresh hpre hexists,
        fun hpre => hcan.outside (hpre.trans hwithin)⟩
    have hfile := hagree.subtree_eq hapart
    refine putsFile_uploadDocuments htransfers hcopied htree ?_
    funext below
    rw [PathStore.subtree, PathStore.entry_copy, destination_eq, DataTree.put]
    by_cases hbelow : ["Documents", name] <+: below
    · obtain ⟨rest, rfl⟩ := hbelow
      rw [if_pos ((List.prefix_append_right_inj _).mpr (List.prefix_append _ rest)),
        if_pos (List.prefix_append _ rest), ← List.append_assoc, List.drop_left, List.drop_left,
        ← hfile]
      rfl
    · rw [if_neg fun hpre => hbelow ((List.prefix_append_right_inj _).mp hpre), if_neg hbelow]
      exact hsame below hbelow

/-- What is at the destination is removed first, if it is to be overwritten. -/
theorem putsFile_replaceAndUpload (htransfers : TransfersAppData device before.containers)
    (hexists : before.fs.Exists (dir ++ [name]))
    (hfresh : ¬ before.fs.Exists (temporaryDirectory ++ [guid]))
    (hagree : PathStore.AgreeOutside (temporaryDirectory ++ [guid]) before.fs fs)
    (htree : before.containers bundleID =
      some (fs.subtree (xcappdataPath temporaryDirectory guid ++ ["AppData"]))) :
    PutsFile temporaryDirectory guid before (before.fs.subtree (dir ++ [name])) name bundleID
      (replaceAndUpload device console fails temporaryDirectory guid { before with fs := fs }
        (dir ++ [name]) bundleID overwrite) := by
  unfold replaceAndUpload
  dsimp only
  split
  · split
    · exact putsFile_of_failure (by decide) hagree
    · cases hremove : fails.removeItemAtPath fs
          (destination temporaryDirectory guid (dir ++ [name])) with
      | none => exact putsFile_of_failure (by decide) hagree
      | some removed =>
        obtain ⟨-, -, rfl⟩ := FailurePattern.removeItemAtPath_eq_some_iff.mp hremove
        have hremoved := agreeOutside_widen
          (prefix_destination temporaryDirectory guid (dir ++ [name]))
          (PathStore.agreeOutside_remove fs (destination temporaryDirectory guid (dir ++ [name])))
        refine putsFile_copyAndUpload htransfers hexists hfresh (hagree.trans hremoved) htree ?_
        intro below hbelow
        rw [PathStore.entry_remove, destination_eq, if_neg fun hpre =>
          hbelow ((List.prefix_append_right_inj _).mp hpre)]
        rfl
  · exact putsFile_copyAndUpload htransfers hexists hfresh hagree htree fun _ _ => rfl

/-- The whole method puts the file. -/
theorem putsFile_uploadFile (htransfers : TransfersAppData device before.containers)
    (htmp : before.fs.IsDirectory temporaryDirectory)
    (hfresh : ¬ before.fs.Exists (temporaryDirectory ++ [guid])) :
    PutsFile temporaryDirectory guid before (before.fs.subtree (dir ++ [name])) name bundleID
      (uploadFile device console fails temporaryDirectory guid before (dir ++ [name]) bundleID
        overwrite) := by
  have hsame : PathStore.AgreeOutside (temporaryDirectory ++ [guid]) before.fs before.fs :=
    fun _ _ => rfl
  unfold uploadFile NSFileManager.fileExistsAtPath
  by_cases hexists : before.fs.Exists (dir ++ [name])
  · rw [if_neg (by simpa using hexists)]
    cases hcreate : fails.createDirectoryAtPath before.fs
        (xcappdataPath temporaryDirectory guid) with
    | none => exact putsFile_of_failure (by decide) hsame
    | some created =>
      obtain ⟨-, -, rfl⟩ := FailurePattern.createDirectoryAtPath_eq_some_iff.mp hcreate
      have hcreated := PathStore.agreeOutside_create htmp guid [guid ++ ".xcappdata"]
      have hdownloaded := hcreated.trans (agreeOutside_widen
        (List.prefix_append _ [guid ++ ".xcappdata"])
        (htransfers.outside _ (xcappdataPath temporaryDirectory guid) bundleID))
      dsimp only
      split
      · exact putsFile_of_failure (by decide) hdownloaded
      · rename_i hsuccess
        refine putsFile_replaceAndUpload htransfers hexists hfresh hdownloaded ?_
        exact htransfers.downloaded _ _ _ (by simpa using hsuccess)
  · rw [if_pos (by simpa using hexists)]
    exact putsFile_of_failure (by decide) hsame

end

/-! ## The two kinds of devices -/

section

variable {host : ContainerHost} {device : LegacyDevice} {console : Console}
  {fails : FailurePattern} {temporaryDirectory dir : Path} {guid name bundleID uuid : String} {overwrite : Bool}
  {before : UploadState} {fs : FileSystem}

/-- A successful upload to a simulator has put the file into the container. -/
theorem simulator_uploadFile_put
    (h : Simulator.uploadFile host console fails before.fs uuid (dir ++ [name]) bundleID overwrite =
      (some .everythingOkay, fs)) :
    ∃ container, Simulator.containerPathForApplication host before.fs uuid bundleID =
        some container ∧
      fs.subtree container = DataTree.put (before.fs.subtree container) ["Documents", name]
        (before.fs.subtree (dir ++ [name])) := by
  -- every entry is one of before, redirected below the destination
  have hredirected : ∃ container,
      Simulator.containerPathForApplication host before.fs uuid bundleID = some container ∧
        ∀ q, fs.entry q = before.fs.entry (PathStore.redirect (dir ++ [name])
          (Simulator.uploadDestination container (dir ++ [name])) q) := by
    unfold Simulator.uploadFile at h
    split at h
    · cases h
    · split at h
      · cases h
      · rename_i container hcontainer
        refine ⟨container, hcontainer, ?_⟩
        dsimp only at h
        split at h
        · split at h
          · cases h
          · split at h
            · cases h
            · rename_i removed hremove
              obtain ⟨-, -, rfl⟩ := FailurePattern.removeItemAtPath_eq_some_iff.mp hremove
              unfold Simulator.copyFile at h
              split at h
              · cases h
              · rename_i copied hcopy
                obtain ⟨-, hcan, rfl⟩ := FailurePattern.copyItemAtPath_eq_some_iff.mp hcopy
                obtain rfl := (Prod.mk.inj h).2
                exact fun q => PathStore.entry_copy_remove_eq_redirect before.fs hcan q
        · unfold Simulator.copyFile at h
          split at h
          · cases h
          · rename_i copied hcopy
            obtain ⟨-, hcan, rfl⟩ := FailurePattern.copyItemAtPath_eq_some_iff.mp hcopy
            obtain rfl := (Prod.mk.inj h).2
            exact fun q => PathStore.entry_copy_eq_redirect before.fs hcan q
  obtain ⟨container, hcontainer, hentry⟩ := hredirected
  refine ⟨container, hcontainer, ?_⟩
  have hdest : Simulator.uploadDestination container (dir ++ [name]) =
      container ++ ["Documents", name] := by
    rw [Simulator.uploadDestination, Simulator.documentsDir, List.getLast?_concat,
      Option.toList_some, List.append_assoc, List.singleton_append]
  funext below
  rw [PathStore.subtree, hentry, hdest, PathStore.redirect, DataTree.put]
  by_cases hbelow : ["Documents", name] <+: below
  · obtain ⟨rest, rfl⟩ := hbelow
    rw [if_pos ((List.prefix_append_right_inj _).mpr (List.prefix_append _ rest)),
      if_pos (List.prefix_append _ rest), ← List.append_assoc, List.drop_left, List.drop_left]
    rfl
  · rw [if_neg fun hpre => hbelow ((List.prefix_append_right_inj _).mp hpre), if_neg hbelow]
    rfl

/-- **An upload to a physical device.** Whatever fails, nothing on the Mac changes outside one
directory, and nothing on the device before the transfer to it; so an entry that is to be
overwritten is not lost when it cannot be replaced. A completed upload, whether or not the process
ends at the printing of the destination, has put the file into the documents of the app, has left
the rest of its data on the Mac, and has done what a successful upload of the file to a simulator
does with the same app data. -/
theorem uploadFile_spec (htransfers : TransfersAppData device before.containers)
    (htmp : before.fs.IsDirectory temporaryDirectory)
    (hfresh : ¬ before.fs.Exists (temporaryDirectory ++ [guid])) :
    PutsFile temporaryDirectory guid before (before.fs.subtree (dir ++ [name])) name bundleID
        (uploadFile device console fails temporaryDirectory guid before (dir ++ [name]) bundleID
          overwrite) ∧
      ∀ (host : ContainerHost) (console' : Console) (fails' : FailurePattern) (uuid : String)
        (overwrite' : Bool) fs,
        Simulator.uploadFile host console' fails' before.fs uuid (dir ++ [name]) bundleID
            overwrite' = (some .everythingOkay, fs) →
          Completed (uploadFile device console fails temporaryDirectory guid before (dir ++ [name])
            bundleID overwrite).1 →
          before.containers bundleID =
            (Simulator.containerPathForApplication host before.fs uuid bundleID).map
              before.fs.subtree →
          (uploadFile device console fails temporaryDirectory guid before (dir ++ [name]) bundleID
            overwrite).2.containers bundleID =
              (Simulator.containerPathForApplication host before.fs uuid bundleID).map
                fs.subtree := by
  have hputs : PutsFile temporaryDirectory guid before (before.fs.subtree (dir ++ [name])) name
      bundleID (uploadFile device console fails temporaryDirectory guid before (dir ++ [name])
        bundleID overwrite) := putsFile_uploadFile htransfers htmp hfresh
  refine ⟨hputs, fun host console' fails' uuid overwrite' fs hsimulator hcompleted hdata => ?_⟩
  -- both put the same file into the same data
  obtain ⟨container, hcontainer, hput⟩ := simulator_uploadFile_put hsimulator
  obtain ⟨tree, htree, hcontainers⟩ := hputs.put hcompleted
  rw [hcontainer, Option.map_some] at hdata ⊢
  obtain rfl : tree = before.fs.subtree container := by
    rw [hdata, Option.some.injEq] at htree
    exact htree.symm
  rw [hcontainers, Function.update_self, hput]

end

/-! ### An app with empty documents -/

/-- App data that consists of the documents directory. -/
def documentsTree : DataTree :=
  fun q => if q <+: ["Documents"] then some .directory else none

/-- The one app on the device. -/
def sampleAppContainers : AppContainers :=
  fun bundleID => if bundleID = "com.my.app" then some documentsTree else none

/-- The download makes the documents directory, the upload takes what there is. -/
def sampleLegacyDevice : LegacyDevice where
  downloadApplicationData _ fs path bundleID :=
    if bundleID = "com.my.app" ∧ fs.IsDirectory path ∧ ¬ fs.Exists (path ++ ["AppData"]) then
      (true, fs.create (path ++ ["AppData"] ++ ["Documents"]))
    else (false, fs)
  uploadApplicationData containers fs path bundleID :=
    if (containers bundleID).isSome then
      (true, Function.update containers bundleID (some (fs.subtree (path ++ ["AppData"]))))
    else (false, containers)

/-- These are transfers of app data. -/
theorem transfersAppData_sample : TransfersAppData sampleLegacyDevice sampleAppContainers where
  outside fs path bundleID := by
    dsimp only [sampleLegacyDevice]
    split
    · rename_i h
      exact agreeOutside_widen (List.prefix_append path ["AppData"])
        (PathStore.agreeOutside_create h.2.1 "AppData" ["Documents"])
    · exact fun _ _ => rfl
  downloaded fs path bundleID hsuccess := by
    dsimp only [sampleLegacyDevice] at hsuccess ⊢
    split at hsuccess
    · rename_i h
      rw [sampleAppContainers, if_pos h.1, if_pos h]
      refine congrArg some (funext fun below => ?_)
      have hnothing : fs.entry (path ++ ["AppData"] ++ below) = none :=
        Option.not_isSome_iff_eq_none.mp
          (PathStore.not_exists_of_prefix h.2.2 (List.prefix_append _ below))
      rw [PathStore.subtree, PathStore.entry_create, hnothing, documentsTree]
      simp [List.prefix_append_right_inj]
    · cases hsuccess
  uploaded fs path bundleID hsuccess := by
    dsimp only [sampleLegacyDevice] at hsuccess ⊢
    split at hsuccess
    · rename_i h
      rw [if_pos h]
    · cases hsuccess

/-- The directories of a Mac. -/
def macDirectories : FileSystem :=
  (PathStore.empty.create ["tmp"]).create ["work"]

theorem isDirectory_work : macDirectories.IsDirectory ["work"] := by
  decide +kernel

theorem not_isDirectory_file : ¬ macDirectories.IsDirectory (["work"] ++ ["a.txt"]) := by
  decide +kernel

/-- A Mac with a file to upload. -/
def sampleUploadState : UploadState where
  fs := macDirectories.write ["work"] "a.txt" [1] isDirectory_work not_isDirectory_file
  containers := sampleAppContainers

/-- The file is then in the documents of the app. -/
theorem uploadFile_spec_sample :
    ((uploadFile sampleLegacyDevice .strict noFailure ["tmp"] "1F" sampleUploadState ["work", "a.txt"]
        "com.my.app" false).2.containers "com.my.app").bind (fun tree => tree ["Documents", "a.txt"]) =
      some (.file [1]) := by
  have htmp : sampleUploadState.fs.IsDirectory ["tmp"] := by decide +kernel
  have hfresh : ¬ sampleUploadState.fs.Exists (["tmp"] ++ ["1F"]) := by decide +kernel
  have hstatus : (uploadFile sampleLegacyDevice .strict noFailure ["tmp"] "1F" sampleUploadState
      (["work"] ++ ["a.txt"]) "com.my.app" false).1 = some .everythingOkay := by decide +kernel
  have hcompleted : Completed (uploadFile sampleLegacyDevice .strict noFailure ["tmp"] "1F"
      sampleUploadState (["work"] ++ ["a.txt"]) "com.my.app" false).1 := by
    rw [hstatus]
    rintro _ ⟨rfl⟩
    rfl
  obtain ⟨tree, -, hcontainers⟩ := (uploadFile_spec transfersAppData_sample htmp hfresh).1.put
    hcompleted
  have hrun : (uploadFile sampleLegacyDevice .strict noFailure ["tmp"] "1F" sampleUploadState
      ["work", "a.txt"] "com.my.app" false).2.containers =
        Function.update sampleUploadState.containers "com.my.app"
          (some (tree.put ["Documents", "a.txt"]
            (sampleUploadState.fs.subtree (["work"] ++ ["a.txt"])))) := hcontainers
  rw [hrun, Function.update_self, Option.bind_some, DataTree.put, if_pos (List.prefix_refl _)]
  decide +kernel

end PhysicalDevice

end IOSDeviceManager
