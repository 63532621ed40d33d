import IOSDeviceManager.Commands.Command
import IOSDeviceManager.Utilities.XCAppDataBundle

/-! # App data bundles of a simulator

`downloadXCAppDataBundleForApplication:toPath:` copies the container itself to the bundle, while
`uploadXCAppDataBundle:forApplication:` takes the directories from `AppData` within the bundle. The
round trip therefore works exactly for containers that hold a copy of their directories under
`AppData`. -/

namespace IOSDeviceManager

open General XCAppDataBundle NSFileManager

namespace Simulator

/-- `downloadXCAppDataBundleForApplication:toPath:` for an app with the given container, `none` when
the app has none. -/
def downloadXCAppDataBundle (fs : FileSystem) (containerPath : Option Path) (path : Path) :
    IOSReturnStatusCode × FileSystem :=
  match containerPath with
  | none => (.genericFailure, fs)
  | some containerPath =>
      match removeItemAtPath fs path with
      | none => (.internalError, fs)
      | some fs =>
          match copyItemAtPath fs containerPath path with
          | none => (.genericFailure, fs)
          | some fs => (.everythingOkay, fs)

/-- One round of the upload loop, `none` when the existing target cannot be removed. A copy that
fails is only reported. -/
def uploadDirectory (fs : FileSystem) (source target : Path) : Option FileSystem :=
  let cleared := if fileExistsAtPath fs target then removeItemAtPath fs target else some fs
  cleared.map fun fs => (copyItemAtPath fs source target).getD fs

/-- The upload loop over sources and targets. -/
def uploadDirectories : List (Path × Path) → FileSystem → IOSReturnStatusCode × FileSystem
  | [], fs => (.everythingOkay, fs)
  | (source, target) :: rest, fs =>
      match uploadDirectory fs source target with
      | none => (.genericFailure, fs)
      | some fs => uploadDirectories rest fs

/-- The targets of an upload. -/
def targetDirectories (containerPath : Path) : List Path :=
  [containerPath ++ ["Documents"], containerPath ++ ["Library"], containerPath ++ ["tmp"]]

/-- `uploadXCAppDataBundle:forApplication:` for an app with the given container. -/
def uploadXCAppDataBundle (fs : FileSystem) (xcappdata : Path) (containerPath : Option Path) :
    IOSReturnStatusCode × FileSystem :=
  if isValid fs xcappdata = false then (.genericFailure, fs)
  else
    match containerPath with
    | none => (.genericFailure, fs)
    | some containerPath =>
        uploadDirectories
          ((sourceDirectoriesForSimulator xcappdata).zip (targetDirectories containerPath)) fs

/-- The directories of a container that make up the app data. -/
def dataDirectories : List String :=
  ["Documents", "Library", "tmp"]

/-! ## Download -/

/-- A successful download leaves a copy of the container at the destination, which is apart from the
container. -/
theorem download_spec {fs fs' : FileSystem} {containerPath path : Path}
    (h : downloadXCAppDataBundle fs (some containerPath) path = (.everythingOkay, fs')) :
    PathStore.Apart path containerPath ∧ fs'.subtree path = fs.subtree containerPath := by
  unfold downloadXCAppDataBundle at h
  cases hremove : removeItemAtPath fs path with
  | none => simp [hremove] at h
  | some removed =>
    cases hcopy : copyItemAtPath removed containerPath path with
    | none => simp [hremove, hcopy] at h
    | some copied =>
      obtain rfl : copied = fs' := by simpa [hremove, hcopy] using h
      obtain ⟨-, rfl⟩ := removeItemAtPath_eq_some hremove
      obtain ⟨hcan, rfl⟩ := copyItemAtPath_eq_some hcopy
      have hapart : PathStore.Apart path containerPath := by
        refine ⟨fun hpre => ?_, hcan.outside⟩
        -- a container within the destination would be gone
        have hsource := hcan.exists_source
        simp [PathStore.Exists, hpre] at hsource
      refine ⟨hapart, ?_⟩
      rw [PathStore.subtree_copy_self]
      exact (PathStore.agreeOutside_remove fs path).subtree_eq hapart

/-! ## Upload -/

/-- One round of the upload puts a copy of the source at the target and changes nothing else. -/
theorem uploadDirectory_spec {fs : FileSystem} {source containerPath : Path} {name : String}
    (hsource : fs.Exists source) (hcontainer : fs.IsDirectory containerPath)
    (hapart : PathStore.Apart source (containerPath ++ [name])) :
    ∃ fs', uploadDirectory fs source (containerPath ++ [name]) = some fs' ∧
      fs'.subtree (containerPath ++ [name]) = fs.subtree source ∧
      PathStore.AgreeOutside (containerPath ++ [name]) fs fs' := by
  obtain ⟨cleared, hcleared, habsent, hagree⟩ : ∃ cleared,
      (if fileExistsAtPath fs (containerPath ++ [name]) then
        removeItemAtPath fs (containerPath ++ [name]) else some fs) = some cleared ∧
      ¬ cleared.Exists (containerPath ++ [name]) ∧
      PathStore.AgreeOutside (containerPath ++ [name]) fs cleared := by
    by_cases hexists : fs.Exists (containerPath ++ [name])
    · refine ⟨fs.remove (containerPath ++ [name]), ?_, ?_, PathStore.agreeOutside_remove _ _⟩
      · simp [fileExistsAtPath, removeItemAtPath, hexists]
      · simp [PathStore.Exists]
    · exact ⟨fs, by simp [fileExistsAtPath, hexists], hexists, fun _ _ => rfl⟩
  have hsource' : cleared.entry source = fs.entry source := hagree source hapart.2
  have hcontainer' : cleared.entry containerPath = fs.entry containerPath :=
    hagree containerPath (PathStore.not_prefix_of_append_singleton containerPath name)
  -- After the removal nothing stands in the way of the copy.
  have hcan : cleared.CanCopy source (containerPath ++ [name]) :=
    { exists_source := by rwa [PathStore.Exists, hsource']
      not_exists_target := habsent
      parent := ⟨by simp, by
        rw [List.dropLast_concat, PathStore.IsDirectory, hcontainer']
        exact hcontainer⟩
      outside := hapart.1 }
  refine ⟨cleared.copy source (containerPath ++ [name]) hcan, ?_, ?_, ?_⟩
  · simp [uploadDirectory, hcleared, copyItemAtPath, hcan]
  · rw [PathStore.subtree_copy_self]
    exact hagree.subtree_eq ⟨hapart.2, hapart.1⟩
  · exact hagree.trans (PathStore.agreeOutside_copy cleared hcan)

/-- The upload loop puts a copy of every source at its target, from a bundle apart from the
container. -/
theorem uploadDirectories_spec {appData containerPath : Path} {names : List String}
    (hnd : names.Nodup) (hapart : PathStore.Apart appData containerPath) {fs : FileSystem}
    (hsources : ∀ name ∈ names, fs.Exists (appData ++ [name]))
    (hcontainer : fs.IsDirectory containerPath) :
    ∃ fs', uploadDirectories
        (names.map fun name => (appData ++ [name], containerPath ++ [name])) fs =
          (.everythingOkay, fs') ∧
      (∀ name ∈ names,
        fs'.subtree (containerPath ++ [name]) = fs.subtree (appData ++ [name])) ∧
      ∀ q, (∀ name ∈ names, PathStore.Apart (containerPath ++ [name]) q) →
        fs'.subtree q = fs.subtree q := by
  induction names generalizing fs with
  | nil => exact ⟨fs, rfl, by simp, fun _ _ => rfl⟩
  | cons name names ih =>
    obtain ⟨hnotin, hnd⟩ := List.nodup_cons.mp hnd
    have hapartOf : ∀ a b, PathStore.Apart (appData ++ [a]) (containerPath ++ [b]) :=
      fun a b => hapart.append [a] [b]
    obtain ⟨next, hnext, hself, hagree⟩ := uploadDirectory_spec
      (hsources name List.mem_cons_self) hcontainer (hapartOf name name)
    -- The round for `name` changes no source of a later round.
    have hkeep : ∀ other, next.subtree (appData ++ [other]) = fs.subtree (appData ++ [other]) :=
      fun other => hagree.subtree_eq ⟨(hapartOf other name).2, (hapartOf other name).1⟩
    have hsources' : ∀ other ∈ names, next.Exists (appData ++ [other]) := by
      intro other hother
      have hentry := congrFun (hkeep other) []
      simp only [PathStore.subtree, List.append_nil] at hentry
      rw [PathStore.Exists, hentry]
      exact hsources other (List.mem_cons_of_mem name hother)
    have hcontainer' : next.IsDirectory containerPath :=
      (hagree _ (PathStore.not_prefix_of_append_singleton containerPath name)).trans hcontainer
    obtain ⟨fs', hrun, hcopies, hrest⟩ := ih hnd hsources' hcontainer'
    refine ⟨fs', by simp [uploadDirectories, hnext, hrun], ?_, fun q hq => ?_⟩
    · rw [List.forall_mem_cons]
      refine ⟨?_, fun other hother => (hcopies other hother).trans (hkeep other)⟩
      rw [hrest _ fun other hother =>
        PathStore.apart_of_ne containerPath (ne_of_mem_of_not_mem hother hnotin), hself]
    · rw [hrest q fun other hother => hq other (List.mem_cons_of_mem name hother)]
      exact hagree.subtree_eq (hq name List.mem_cons_self)

/-- An upload of a valid bundle apart from the container succeeds and gives the container the data
directories of the bundle. -/
theorem upload_spec {fs : FileSystem} {path containerPath : Path} (hvalid : isValid fs path = true)
    (hapart : PathStore.Apart path containerPath) (hcontainer : fs.IsDirectory containerPath) :
    ∃ fs', uploadXCAppDataBundle fs path (some containerPath) = (.everythingOkay, fs') ∧
      ∀ name ∈ dataDirectories,
        fs'.subtree (containerPath ++ [name]) = fs.subtree (path ++ ["AppData", name]) := by
  have hdirs := ((isValid_iff fs path).mp hvalid).2
  have hapart' : PathStore.Apart (path ++ ["AppData"]) containerPath := by
    simpa using hapart.append ["AppData"] []
  have hsources : ∀ name ∈ dataDirectories, fs.Exists (path ++ ["AppData"] ++ [name]) := by
    intro name hname
    have hmem : ["AppData", name] ∈ requiredDirectories := by
      revert name
      decide
    simpa using (hdirs _ hmem).exists
  obtain ⟨fs', hrun, hcopies, -⟩ :=
    uploadDirectories_spec (show dataDirectories.Nodup by decide) hapart' hsources hcontainer
  refine ⟨fs', ?_, fun name hname => ?_⟩
  · rw [uploadXCAppDataBundle, if_neg (by simp [hvalid])]
    exact hrun
  · simpa using hcopies name hname

/-! ## The round trip -/

/-- A container has the data directories, and preferences. -/
structure IsContainer (fs : FileSystem) (containerPath : Path) : Prop where
  directories : ∀ name ∈ dataDirectories, fs.IsDirectory (containerPath ++ [name])
  preferences : fs.IsDirectory (containerPath ++ ["Library", "Preferences"])

/-- The bundle is valid, and its upload succeeds and leaves the container with the data directories
`original`. -/
def UploadRestores (fs : FileSystem) (path containerPath : Path)
    (original : String → List String → Option (Entry (List UInt8))) : Prop :=
  isValid fs path = true ∧
    ∃ fs', uploadXCAppDataBundle fs path (some containerPath) = (.everythingOkay, fs') ∧
      ∀ name ∈ dataDirectories, fs'.subtree (containerPath ++ [name]) = original name

/-- **Round trip of app data.** After a successful download of a container to a bundle, and whatever
happens to the container while the bundle stays as it is: the bundle is valid and its upload gives
the container back its `Documents`, `Library` and `tmp` exactly when the container, at the time of
the download, held copies of the three under `AppData`. -/
theorem uploadRestores_iff {fs downloaded later : FileSystem} {containerPath path : Path}
    (hcontainer : IsContainer fs containerPath) (hext : hasCorrectExtension path = true)
    (hdownload : downloadXCAppDataBundle fs (some containerPath) path =
      (.everythingOkay, downloaded))
    (hsame : later.subtree path = downloaded.subtree path)
    (hlater : later.IsDirectory containerPath) :
    UploadRestores later path containerPath (fun name => fs.subtree (containerPath ++ [name])) ↔
      ∀ name ∈ dataDirectories, fs.subtree (containerPath ++ ["AppData", name]) =
        fs.subtree (containerPath ++ [name]) := by
  obtain ⟨hapart, hcopy⟩ := download_spec hdownload
  -- the bundle, as it is at the upload, is the container as it was
  have hbundle : ∀ below, later.entry (path ++ below) = fs.entry (containerPath ++ below) :=
    fun below => congrFun (hsame.trans hcopy) below
  have hsubtree : ∀ name, later.subtree (path ++ ["AppData", name]) =
      fs.subtree (containerPath ++ ["AppData", name]) := by
    intro name
    funext below
    simpa [PathStore.subtree] using hbundle (["AppData", name] ++ below)
  constructor
  · rintro ⟨hvalid, fs', hupload, hrestored⟩ name hname
    obtain ⟨fs'', hupload', hcopies⟩ := upload_spec hvalid hapart hlater
    obtain rfl : fs'' = fs' := by simpa [hupload] using hupload'.symm
    rw [← hsubtree, ← hcopies name hname]
    exact hrestored name hname
  · intro heq
    have hentry : ∀ name ∈ dataDirectories, ∀ below,
        later.entry (path ++ (["AppData", name] ++ below)) =
          fs.entry (containerPath ++ ([name] ++ below)) := by
      intro name hname below
      rw [hbundle]
      simpa [PathStore.subtree] using congrFun (heq name hname) below
    have hdirectory : ∀ name ∈ dataDirectories, later.IsDirectory (path ++ ["AppData", name]) :=
      fun name hname => (by simpa using hentry name hname [] :
        later.entry (path ++ ["AppData", name]) = fs.entry (containerPath ++ [name])).trans
          (hcontainer.directories name hname)
    have hpreferences : later.IsDirectory (path ++ ["AppData", "Library", "Preferences"]) :=
      (hentry "Library" (by decide) ["Preferences"]).trans hcontainer.preferences
    have hexists : later.Exists (path ++ [] ++ ["AppData"] ++ ["Documents"]) := by
      simpa using (hdirectory "Documents" (by decide)).exists
    have hvalid : isValid later path = true := by
      rw [isValid_iff]
      refine ⟨hext, ?_⟩
      simp only [requiredDirectories, List.forall_mem_cons]
      refine ⟨?_, ?_, hdirectory _ (by decide), hdirectory _ (by decide), hdirectory _ (by decide),
        hpreferences, by simp⟩
      · exact later.isDirectory_of_exists_append ["AppData"] (by simpa using hexists)
      · exact later.isDirectory_of_exists_append [] (by simpa using hexists)
    obtain ⟨fs', hupload, hcopies⟩ := upload_spec hvalid hapart hlater
    exact ⟨hvalid, fs', hupload, fun name hname =>
      (hcopies name hname).trans ((hsubtree name).trans (heq name hname))⟩

/-! ### Two containers -/

/-- The entries of a file system of directories only. -/
def directoryEntry (directories : List Path) (path : Path) : Option (Entry (List UInt8)) :=
  if directories.contains path then some .directory else none

/-- If the list holds the parents of its members, then the parent of an entry is a directory. -/
theorem directoryEntry_parent (directories : List Path)
    (h : ∀ path ∈ directories, path ≠ [] → path.dropLast ∈ directories) (path : Path)
    (name : String) (hsome : (directoryEntry directories (path ++ [name])).isSome = true) :
    directoryEntry directories path = some .directory := by
  have hmem : path ++ [name] ∈ directories := by
    by_contra hnot
    simp [directoryEntry, hnot] at hsome
  have hparent : path ∈ directories := by simpa using h _ hmem (by simp)
  exact if_pos (List.contains_iff_mem.mpr hparent)

/-- A file system of directories only. -/
def ofDirectories (directories : List Path)
    (h : ∀ path ∈ directories, path ≠ [] → path.dropLast ∈ directories) : FileSystem where
  entry := directoryEntry directories
  parent := directoryEntry_parent directories h

/-- The listed paths below a path, relative to it. -/
def pathsBelow (directories : List Path) (path : Path) : List Path :=
  (directories.filter path.isPrefixOf).map (List.drop path.length)

/-- Paths with the same list of paths below them have equal subtrees. -/
theorem subtree_ofDirectories_eq {directories : List Path}
    (h : ∀ path ∈ directories, path ≠ [] → path.dropLast ∈ directories) {path other : Path}
    (heq : pathsBelow directories path = pathsBelow directories other) :
    (ofDirectories directories h).subtree path = (ofDirectories directories h).subtree other := by
  have hiff : ∀ p below : Path, p ++ below ∈ directories ↔ below ∈ pathsBelow directories p := by
    intro p below
    simp only [pathsBelow, List.mem_map, List.mem_filter, List.isPrefixOf_iff_prefix]
    constructor
    · exact fun hmem => ⟨_, ⟨hmem, List.prefix_append p below⟩, by simp⟩
    · rintro ⟨_, ⟨hmem, rest, rfl⟩, hdrop⟩
      rw [List.drop_left] at hdrop
      rwa [hdrop] at hmem
  funext below
  simp only [PathStore.subtree, ofDirectories, directoryEntry, List.contains_iff_mem, hiff, heq]

/-- The container of an app, as the simulator lays it out, and an empty bundle. -/
def plainFileSystem : FileSystem :=
  ofDirectories [[], ["container"], ["container", "Documents"], ["container", "Library"],
    ["container", "Library", "Preferences"], ["container", "tmp"], ["data.xcappdata"]] (by decide)

/-- A container that also holds copies of its directories under `AppData`. -/
def nestedFileSystem : FileSystem :=
  ofDirectories [[], ["container"], ["container", "Documents"], ["container", "Library"],
    ["container", "Library", "Preferences"], ["container", "tmp"], ["container", "AppData"],
    ["container", "AppData", "Documents"], ["container", "AppData", "Library"],
    ["container", "AppData", "Library", "Preferences"], ["container", "AppData", "tmp"],
    ["data.xcappdata"]] (by decide)

/-- The bundle of the nested container can be uploaded again. -/
theorem uploadRestores_nestedFileSystem :
    UploadRestores
      (downloadXCAppDataBundle nestedFileSystem (some ["container"]) ["data.xcappdata"]).2
      ["data.xcappdata"] ["container"]
      (fun name => nestedFileSystem.subtree (["container"] ++ [name])) := by
  have hcontainer : IsContainer nestedFileSystem ["container"] :=
    ⟨by decide +kernel, by decide +kernel⟩
  have hstatus : (downloadXCAppDataBundle nestedFileSystem (some ["container"])
      ["data.xcappdata"]).1 = .everythingOkay := by decide +kernel
  refine (uploadRestores_iff hcontainer (by decide +kernel) (Prod.ext hstatus rfl) rfl
    (by decide +kernel)).mpr ?_
  simp only [dataDirectories, List.forall_mem_cons]
  exact ⟨subtree_ofDirectories_eq _ (by decide), subtree_ofDirectories_eq _ (by decide),
    subtree_ofDirectories_eq _ (by decide), by simp⟩

/-- **A bundle that cannot be uploaded.** The download of a plain container succeeds, and the upload
refuses its bundle, which lacks the `AppData` directory. -/
theorem not_uploadRestores_plainFileSystem :
    IsContainer plainFileSystem ["container"] ∧
    hasCorrectExtension ["data.xcappdata"] = true ∧
    ∃ downloaded, downloadXCAppDataBundle plainFileSystem (some ["container"])
        ["data.xcappdata"] = (.everythingOkay, downloaded) ∧
      downloaded.IsDirectory ["container"] ∧
      invalidMessage downloaded ["data.xcappdata"] =
        some "App data bundle:\n  /data.xcappdata\nmust have AppData subdirectory" ∧
      ¬ UploadRestores downloaded ["data.xcappdata"] ["container"]
        (fun name => plainFileSystem.subtree (["container"] ++ [name])) := by
  have hstatus : (downloadXCAppDataBundle plainFileSystem (some ["container"])
      ["data.xcappdata"]).1 = .everythingOkay := by decide +kernel
  have hinvalid : isValid (downloadXCAppDataBundle plainFileSystem (some ["container"])
      ["data.xcappdata"]).2 ["data.xcappdata"] = false := by decide +kernel
  exact ⟨⟨by decide +kernel, by decide +kernel⟩, by decide +kernel,
    (downloadXCAppDataBundle plainFileSystem (some ["container"]) ["data.xcappdata"]).2,
    Prod.ext hstatus rfl, by decide +kernel, by decide +kernel,
    fun hrestores => Bool.false_ne_true (hinvalid.symm.trans hrestores.1)⟩

end Simulator

end IOSDeviceManager
