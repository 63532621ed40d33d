import IOSDeviceManager.Devices.SimulatorAppData
import IOSDeviceManager.Foundation.FileOperation

/-! # Downloading app data from a simulator

`downloadXCAppDataBundleForApplication:toPath:` finds the container of an app, removes what is at
the destination and copies the container there. It takes the failure of the removal for an error
also when there was nothing to remove, and has nothing to put back when the copy fails. -/

namespace IOSDeviceManager

open General

/-- What the simulator's app data is read with. -/
structure ContainerHost where
  /-- `NSHomeDirectory()`. -/
  homeDirectory : Path
  /-- `contentsOfDirectoryAtPath:error:`, in some order. -/
  contentsOfDirectory : FileSystem → Path → List String
  /-- The string under `MCMMetadataIdentifier` of a property list file. -/
  metadataIdentifier : List UInt8 → Option String

namespace Simulator

/-! ## The container of an app -/

/-- The directory that holds the containers of a simulator. -/
def appDataPath (host : ContainerHost) (uuid : String) : Path :=
  host.homeDirectory ++ ["Library", "Developer", "CoreSimulator", "Devices", uuid, "data",
    "Containers", "Data", "Application"]

/-- The file that names the app of a container. -/
def metadataFile : String :=
  ".com.apple.mobile_container_manager.metadata.plist"

/-- The folder has a metadata file with the given identifier. -/
def isContainerOf (host : ContainerHost) (fs : FileSystem) (bundleID : String) (folder : Path) :
    Bool :=
  match fs.entry (folder ++ [metadataFile]) with
  | some (.file content) => host.metadataIdentifier content == some bundleID
  | _ => false

/-- `containerPathForApplication:`. -/
def containerPathForApplication (host : ContainerHost) (fs : FileSystem) (uuid bundleID : String) :
    Option Path :=
  ((host.contentsOfDirectory fs (appDataPath host uuid)).map fun bundleFolder =>
    appDataPath host uuid ++ [bundleFolder]).find? (isContainerOf host fs bundleID)

/-- A container is a directory. -/
theorem isDirectory_containerPath {host : ContainerHost} {fs : FileSystem} {uuid bundleID : String}
    {containerPath : Path}
    (h : containerPathForApplication host fs uuid bundleID = some containerPath) :
    fs.IsDirectory containerPath := by
  have htest := List.find?_some h
  unfold isContainerOf at htest
  split at htest
  · rename_i content hentry
    exact fs.parent containerPath metadataFile (by rw [hentry]; rfl)
  · cases htest

/-! ## The download -/

/-- `downloadXCAppDataBundleForApplication:toPath:`. -/
def downloadXCAppDataBundleForApplication (host : ContainerHost) (fails : FailurePattern)
    (fs : FileSystem) (uuid bundleID : String) (path : Path) : IOSReturnStatusCode × FileSystem :=
  match containerPathForApplication host fs uuid bundleID with
  | none => (.genericFailure, fs)
  | some containerPath =>
      match fails.removeItemAtPath fs path with
      | none => (.internalError, fs)
      | some fs =>
          match fails.copyItemAtPath fs containerPath path with
          | none => (.genericFailure, fs)
          | some fs => (.everythingOkay, fs)

/-- What a download of a container to a path is to do: succeed with a copy unless an operation
fails, and leave alone what is at the path whenever it does not succeed. -/
structure Downloads (fails : FailurePattern) (fs : FileSystem) (containerPath path : Path)
    (result : IOSReturnStatusCode × FileSystem) : Prop where
  copies : fails (.removeItem path) = false → fails (.copyItem containerPath path) = false →
    result.1 = .everythingOkay ∧ result.2.subtree path = fs.subtree containerPath
  keeps : result.1 ≠ .everythingOkay → fs.Exists path →
    result.2.subtree path = fs.subtree path

section

variable {fails : FailurePattern} {fs : FileSystem} {containerPath path : Path}

/-- After the removal of the destination, the container can be copied there exactly when the two are
apart. -/
theorem canCopy_remove_iff (hcontainer : fs.Exists containerPath) (hne : path ≠ [])
    (hparent : fs.IsDirectory path.dropLast) :
    (fs.remove path).CanCopy containerPath path ↔ PathStore.Apart path containerPath := by
  constructor
  · intro hcan
    refine ⟨fun hpre => ?_, hcan.outside⟩
    -- a container within the destination would be gone
    have hsource := hcan.exists_source
    simp [PathStore.Exists, hpre] at hsource
  · rintro ⟨hwithin, houtside⟩
    have habove : ¬ path <+: path.dropLast := by
      intro hpre
      have hle := hpre.length_le
      have hpos := List.length_pos_iff.mpr hne
      rw [List.length_dropLast] at hle
      omega
    refine ⟨?_, by simp [PathStore.Exists], ⟨hne, ?_⟩, houtside⟩
    · rw [PathStore.Exists, PathStore.entry_remove, if_neg hwithin]
      exact hcontainer
    · rw [PathStore.IsDirectory, PathStore.entry_remove, if_neg habove]
      exact hparent

/-- **When a download works.** For an app with a container and a destination in a directory: the
download succeeds unless an operation fails, and leaves the destination alone when it does not
succeed, exactly in these cases. There is something at the destination, and its removal fails, or
the destination and the container are apart and the copy does not fail; or there is nothing, and one
of the operations fails. -/
theorem download_iff {host : ContainerHost} {uuid bundleID : String}
    (hcontainer : containerPathForApplication host fs uuid bundleID = some containerPath)
    (hne : path ≠ []) (hparent : fs.IsDirectory path.dropLast) :
    Downloads fails fs containerPath path
        (downloadXCAppDataBundleForApplication host fails fs uuid bundleID path) ↔
      (fs.Exists path ∧ (fails (.removeItem path) = true ∨
        PathStore.Apart path containerPath ∧ fails (.copyItem containerPath path) = false)) ∨
      (¬ fs.Exists path ∧ (fails (.removeItem path) = true ∨
        fails (.copyItem containerPath path) = true)) := by
  have hcan := canCopy_remove_iff (isDirectory_containerPath hcontainer).exists hne hparent
  unfold downloadXCAppDataBundleForApplication
  rw [hcontainer]
  by_cases hexists : fs.Exists path
  · cases hremove : fails.removeItemAtPath fs path with
    | none =>
      -- the removal fails only by the pattern
      have hfails : fails (.removeItem path) = true := by
        by_contra hnot
        have hsome := FailurePattern.removeItemAtPath_eq_some_iff.mpr
          ⟨by simpa using hnot, hexists, rfl⟩
        rw [hremove] at hsome
        cases hsome
      refine iff_of_true ⟨by simp [hfails], fun _ _ => rfl⟩ (.inl ⟨hexists, .inl hfails⟩)
    | some removed =>
      obtain ⟨hfails, -, rfl⟩ := FailurePattern.removeItemAtPath_eq_some_iff.mp hremove
      simp only [hexists, hfails, not_true_eq_false, false_and, or_false, true_and,
        Bool.false_eq_true, false_or]
      cases hcopy : fails.copyItemAtPath (fs.remove path) containerPath path with
      | none =>
        -- what was at the destination is lost
        apply iff_of_false
          (fun h => PathStore.subtree_remove_ne hexists (h.keeps (by simp) hexists))
        rintro ⟨hapart, hcopies⟩
        have hsome := FailurePattern.copyItemAtPath_eq_some_iff.mpr
          ⟨hcopies, hcan.mpr hapart, rfl⟩
        rw [hcopy] at hsome
        cases hsome
      | some copied =>
        obtain ⟨hcopies, hcancopy, rfl⟩ := FailurePattern.copyItemAtPath_eq_some_iff.mp hcopy
        have hapart := hcan.mp hcancopy
        refine iff_of_true ⟨fun _ _ => ⟨rfl, ?_⟩, by simp⟩ ⟨hapart, hcopies⟩
        rw [PathStore.subtree_copy_self]
        exact (PathStore.agreeOutside_remove fs path).subtree_eq hapart
  · -- there is nothing to remove, and that counts as a failure
    have hremove : fails.removeItemAtPath fs path = none := by
      rw [Option.eq_none_iff_forall_ne_some]
      intro removed hsome
      exact hexists (FailurePattern.removeItemAtPath_eq_some_iff.mp hsome).2.1
    simp only [hremove, hexists, false_and, not_false_eq_true, true_and, false_or]
    constructor
    · intro h
      by_contra hnot
      rw [not_or, Bool.not_eq_true, Bool.not_eq_true] at hnot
      have hokay := (h.copies hnot.1 hnot.2).1
      cases hokay
    · rintro hfails
      refine ⟨fun hremoves hcopies => ?_, fun _ h => absurd h hexists⟩
      rcases hfails with hfails | hfails
      · rw [hremoves] at hfails
        cases hfails
      · rw [hcopies] at hfails
        cases hfails

end

/-! ### A simulator with one app -/

/-- A home directory, with one container in it. -/
def sampleHost : ContainerHost where
  homeDirectory := ["Users", "me"]
  contentsOfDirectory _ _ := ["C1"]
  metadataIdentifier _ := some "com.my.app"

/-- The container of the app. -/
def sampleContainer : Path :=
  appDataPath sampleHost "5C2D" ++ ["C1"]

/-- The directories of the container, and an older bundle in another directory. -/
def sampleDirectories : FileSystem :=
  (PathStore.empty.create (sampleContainer ++ ["Documents"])).create ["tmp", "old.xcappdata"]

theorem isDirectory_sampleContainer : sampleDirectories.IsDirectory sampleContainer := by
  decide +kernel

theorem not_isDirectory_metadataFile :
    ¬ sampleDirectories.IsDirectory (sampleContainer ++ [metadataFile]) := by
  decide +kernel

/-- The directories, and the metadata file of the container. -/
def sampleFileSystem : FileSystem :=
  sampleDirectories.write sampleContainer metadataFile [] isDirectory_sampleContainer
    not_isDirectory_metadataFile

/-- An older bundle is replaced. -/
theorem download_iff_oldBundle :
    Downloads noFailure sampleFileSystem sampleContainer ["tmp", "old.xcappdata"]
      (downloadXCAppDataBundleForApplication sampleHost noFailure sampleFileSystem "5C2D"
        "com.my.app" ["tmp", "old.xcappdata"]) := by
  refine (download_iff (by decide +kernel) (by decide) (by decide +kernel)).mpr (.inl ⟨?_, .inr ?_⟩)
  · decide +kernel
  · exact ⟨⟨by decide +kernel, by decide +kernel⟩, rfl⟩

/-- **A download to a new path fails.** Where there is nothing at the destination and nothing fails,
the download returns an internal error and makes no bundle. -/
theorem download_fails_newBundle :
    containerPathForApplication sampleHost sampleFileSystem "5C2D" "com.my.app" =
        some sampleContainer ∧
      sampleFileSystem.IsDirectory ["tmp"] ∧ ¬ sampleFileSystem.Exists ["tmp", "new.xcappdata"] ∧
      (downloadXCAppDataBundleForApplication sampleHost noFailure sampleFileSystem "5C2D"
        "com.my.app" ["tmp", "new.xcappdata"]).1 = .internalError ∧
      ¬ Downloads noFailure sampleFileSystem sampleContainer ["tmp", "new.xcappdata"]
        (downloadXCAppDataBundleForApplication sampleHost noFailure sampleFileSystem "5C2D"
          "com.my.app" ["tmp", "new.xcappdata"]) := by
  have hstatus : (downloadXCAppDataBundleForApplication sampleHost noFailure sampleFileSystem
      "5C2D" "com.my.app" ["tmp", "new.xcappdata"]).1 = .internalError := by decide +kernel
  refine ⟨by decide +kernel, by decide +kernel, by decide +kernel, hstatus, fun h => ?_⟩
  have hokay := (h.copies rfl rfl).1
  rw [hstatus] at hokay
  cases hokay

end Simulator

end IOSDeviceManager
