import IOSDeviceManager.Commands.ClearAppData
import IOSDeviceManager.Devices.Device
import IOSDeviceManager.Devices.PhysicalDeviceStaging
import IOSDeviceManager.General.LabelledRun

/-! # App data from device to device

Runs of downloads and uploads of app data, between simulators and physical devices and with any
bundles in between. The bundle of a simulator has no `AppData`, so that no upload accepts it; what
an upload puts on a device is always data that a physical device had, or a bundle that was there
before. A ledger of who has which data tells what a run leaves. -/

namespace IOSDeviceManager

open General XCAppDataBundle

/-! ## The methods of a physical device -/

namespace PhysicalDevice

variable {device : LegacyDevice} {state after : UploadState} {bundleIdentifier : String}
  {path : Path}

/-- `downloadXCAppDataBundleForApplication:toPath:`. -/
def downloadXCAppDataBundle (device : LegacyDevice) (state : UploadState)
    (bundleIdentifier : String) (path : Path) : IOSReturnStatusCode × UploadState :=
  let downloaded := device.downloadApplicationData state.containers state.fs path bundleIdentifier
  -- what a transfer that fails has written is not removed
  if !downloaded.1 then (.internalError, { state with fs := downloaded.2 })
  else (.everythingOkay, { state with fs := downloaded.2 })

/-- A successful download puts the data of the app under `AppData`. -/
theorem downloadXCAppDataBundle_eq_ok (htransfers : TransfersAppData device state.containers)
    (h : downloadXCAppDataBundle device state bundleIdentifier path = (.everythingOkay, after)) :
    PathStore.AgreeOutside path state.fs after.fs ∧ after.containers = state.containers ∧
      state.containers bundleIdentifier = some (after.fs.subtree (path ++ ["AppData"])) := by
  unfold downloadXCAppDataBundle at h
  cases hdone : (device.downloadApplicationData state.containers state.fs path
      bundleIdentifier).1 with
  | false => simp [hdone] at h
  | true =>
    obtain rfl : { state with fs := (device.downloadApplicationData state.containers state.fs path
        bundleIdentifier).2 } = after := by simpa [hdone] using h
    exact ⟨htransfers.outside _ _ _, rfl, htransfers.downloaded _ _ _ hdone⟩

/-- A successful upload of a valid bundle makes what is under `AppData` the data of the app. -/
theorem uploadXCAppDataBundle_eq_ok (htransfers : TransfersAppData device state.containers)
    (h : uploadXCAppDataBundle state device path bundleIdentifier = (.everythingOkay, after)) :
    isValid state.fs path = true ∧ after.fs = state.fs ∧
      after.containers = Function.update state.containers bundleIdentifier
        (some (state.fs.subtree (path ++ ["AppData"]))) := by
  have hvalid : isValid state.fs path = true := by
    cases hvalid : isValid state.fs path with
    | true => rfl
    | false => simp [uploadXCAppDataBundle, hvalid] at h
  obtain ⟨hfs, hokay, -⟩ := uploadXCAppDataBundle_spec state device path bundleIdentifier
  rw [h] at hfs hokay
  have hdone := hokay rfl
  refine ⟨hvalid, hfs, ?_⟩
  rw [← htransfers.uploaded _ _ _ (congrArg Prod.fst hdone)]
  exact (congrArg Prod.snd hdone).symm

end PhysicalDevice

/-! ## The containers of the simulators -/

/-- A listing tells what is in the directory. -/
def ContainerHost.ListsNames (host : ContainerHost) : Prop :=
  ∀ (fs fs' : FileSystem) (path : Path),
    (∀ name, fs'.Exists (path ++ [name]) ↔ fs.Exists (path ++ [name])) →
      host.contentsOfDirectory fs' path = host.contentsOfDirectory fs path

/-- A listing that goes by the names goes by the contents. -/
theorem ContainerHost.ListsNames.listsContents {host : ContainerHost} (h : host.ListsNames) :
    host.ListsContents := by
  intro fs fs' path hsubtree
  refine h fs fs' path fun name => ?_
  have hentry : fs'.entry (path ++ [name]) = fs.entry (path ++ [name]) := congrFun hsubtree [name]
  rw [PathStore.Exists, PathStore.Exists, hentry]

namespace Simulator

/-- The directory of the simulators. -/
def devicesPath (host : ContainerHost) : Path :=
  host.homeDirectory ++ ["Library", "Developer", "CoreSimulator", "Devices"]

section

variable {host : ContainerHost} {fails : FailurePattern} {fs fs' : FileSystem}
  {uuid uuid' bundleID bundleID' : String} {appData path containerPath containerPath' : Path}
  {names : List String} {status : IOSReturnStatusCode}

/-- Where a container is. -/
theorem exists_containerPath
    (h : containerPathForApplication host fs uuid bundleID = some containerPath) :
    ∃ folder, containerPath = devicesPath host ++
      [uuid, "data", "Containers", "Data", "Application", folder] := by
  obtain ⟨folder, rfl⟩ := ClearAppDataCommand.exists_folder h
  exact ⟨folder, by simp [appDataPath, devicesPath]⟩

/-- What is apart from the simulators is apart from the containers. -/
theorem apart_containerPath (hapart : PathStore.Apart path (devicesPath host))
    (h : containerPathForApplication host fs uuid bundleID = some containerPath) :
    PathStore.Apart path containerPath := by
  obtain ⟨folder, rfl⟩ := exists_containerPath h
  simpa using hapart.append [] [uuid, "data", "Containers", "Data", "Application", folder]

/-- A container belongs to one app. -/
theorem bundleID_unique (h : isContainerOf host fs bundleID containerPath = true)
    (h' : isContainerOf host fs bundleID' containerPath = true) : bundleID = bundleID' := by
  unfold isContainerOf at h h'
  split at h
  · rename_i content hentry
    rw [hentry] at h'
    have hid : host.metadataIdentifier content = some bundleID := by simpa using h
    have hid' : host.metadataIdentifier content = some bundleID' := by simpa using h'
    exact Option.some.inj (hid.symm.trans hid')
  · cases h

/-- Containers are those of the same app on the same simulator, or apart. -/
theorem container_eq_or_apart
    (h : containerPathForApplication host fs uuid bundleID = some containerPath)
    (h' : containerPathForApplication host fs uuid' bundleID' = some containerPath') :
    (uuid = uuid' ∧ bundleID = bundleID') ∨ PathStore.Apart containerPath containerPath' := by
  obtain ⟨folder, hfolder⟩ := exists_containerPath h
  obtain ⟨folder', hfolder'⟩ := exists_containerPath h'
  by_cases heq : containerPath = containerPath'
  · left
    -- the identifier of the simulator is a part of the path, and that of the app in its metadata
    have hpaths := heq
    rw [hfolder, hfolder', List.append_cancel_left_eq, List.cons.injEq] at hpaths
    refine ⟨hpaths.1, bundleID_unique (List.find?_some h) ?_⟩
    rw [heq]
    exact List.find?_some h'
  · right
    have hlength : containerPath.length = containerPath'.length := by simp [hfolder, hfolder']
    exact ⟨fun hpre => heq (hpre.eq_of_length hlength),
      fun hpre => heq (hpre.eq_of_length hlength.symm).symm⟩

/-- The containers are found by the folders and their metadata. -/
theorem containerPathForApplication_congr (hlists : host.ListsNames)
    (hfolder : ∀ folder, fs'.entry (appDataPath host uuid ++ [folder]) =
      fs.entry (appDataPath host uuid ++ [folder]))
    (hmetadata : ∀ folder, fs'.entry (appDataPath host uuid ++ [folder] ++ [metadataFile]) =
      fs.entry (appDataPath host uuid ++ [folder] ++ [metadataFile])) (bundleID : String) :
    containerPathForApplication host fs' uuid bundleID =
      containerPathForApplication host fs uuid bundleID := by
  have hcontents : host.contentsOfDirectory fs' (appDataPath host uuid) =
      host.contentsOfDirectory fs (appDataPath host uuid) :=
    hlists fs fs' _ fun folder => by rw [PathStore.Exists, PathStore.Exists, hfolder]
  have htest : ∀ folder, isContainerOf host fs' bundleID (appDataPath host uuid ++ [folder]) =
      isContainerOf host fs bundleID (appDataPath host uuid ++ [folder]) := by
    intro folder
    rw [isContainerOf, isContainerOf, hmetadata folder]
  rw [containerPathForApplication, containerPathForApplication, hcontents, List.find?_map,
    List.find?_map]
  exact congrArg (Option.map _) (List.find?_congr fun folder _ => htest folder)

/-- What is done apart from the simulators does not change where the containers are. -/
theorem containerPathForApplication_of_agreeOutside (hlists : host.ListsNames)
    (hapart : PathStore.Apart path (devicesPath host)) (hagree : PathStore.AgreeOutside path fs fs')
    (uuid bundleID : String) :
    containerPathForApplication host fs' uuid bundleID =
      containerPathForApplication host fs uuid bundleID := by
  have hcontainers := hapart.append [] [uuid, "data", "Containers", "Data", "Application"]
  refine ClearAppDataCommand.containerPath_of_agreeOutside hlists.listsContents ?_ hagree bundleID
  simpa [appDataPath, devicesPath] using hcontainers

/-! ## A successful upload to a simulator -/

/-- Nothing is changed but the data directories of a container. -/
def AgreeBesideData (containerPath : Path) (fs fs' : FileSystem) : Prop :=
  ∀ q, (∀ name ∈ dataDirectories, ¬ containerPath ++ [name] <+: q) → fs'.entry q = fs.entry q

/-- Whatever fails, the loop changes nothing else. -/
theorem uploadLoop_outside (hnd : names.Nodup) (hcontainer : fs.IsDirectory containerPath)
    (h : uploadLoop fails (names.map fun name => (appData ++ [name], containerPath ++ [name])) fs =
      (status, fs')) {q : Path} (hq : ∀ name ∈ names, ¬ containerPath ++ [name] <+: q) :
    fs'.entry q = fs.entry q := by
  have heffect := uploadLoop_effect fails appData hnd hcontainer
  rw [h] at heffect
  exact heffect.outside q fun name hname => hq name ((List.takeWhile_sublist _).subset hname)

/-- **Each directory.** After a successful loop every data directory is a copy of its source, or
gone. By induction on the directories still to be replaced. -/
theorem uploadLoop_eq_ok (hnd : names.Nodup) (hapart : PathStore.Apart appData containerPath)
    (hcontainer : fs.IsDirectory containerPath)
    (hsources : ∀ name ∈ names, fs.Exists (appData ++ [name]))
    (h : uploadLoop fails (names.map fun name => (appData ++ [name], containerPath ++ [name])) fs =
      (.everythingOkay, fs')) :
    ∀ name ∈ names, fs'.subtree (containerPath ++ [name]) = fs.subtree (appData ++ [name]) ∨
      ¬ fs'.Exists (containerPath ++ [name]) := by
  induction names generalizing fs with
  | nil => simp
  | cons name names ih =>
    obtain ⟨hnotin, hnd⟩ := List.nodup_cons.mp hnd
    rw [List.map_cons, uploadLoop] at h
    cases hround : uploadRound fails fs (appData ++ [name]) (containerPath ++ [name]) with
    | none => simp [hround] at h
    | some next =>
      rw [hround] at h
      have hagree := agreeOutside_uploadRound hround
      -- the round changes neither the container itself nor a source
      have hcontainer' : next.IsDirectory containerPath :=
        (hagree _ (PathStore.not_prefix_of_append_singleton containerPath name)).trans hcontainer
      have hkept : ∀ other, next.subtree (appData ++ [other]) = fs.subtree (appData ++ [other]) :=
        fun other => hagree.subtree_eq
          ⟨(hapart.append [other] [name]).2, (hapart.append [other] [name]).1⟩
      have hsources' : ∀ other ∈ names, next.Exists (appData ++ [other]) := by
        intro other hother
        have hentry : next.entry (appData ++ [other]) = fs.entry (appData ++ [other]) := by
          simpa [PathStore.subtree] using congrFun (hkept other) []
        rw [PathStore.Exists, hentry]
        exact hsources other (List.mem_cons_of_mem name hother)
      -- the later rounds do not change the directory of this one
      have hself : ∀ q, containerPath ++ [name] <+: q → fs'.entry q = next.entry q := by
        intro q hq
        refine uploadLoop_outside hnd hcontainer' h fun other hother hpre => ?_
        have hne := PathStore.apart_of_ne containerPath
          (ne_of_mem_of_not_mem hother hnotin : other ≠ name)
        exact (List.prefix_or_prefix_of_prefix hpre hq).elim hne.1 hne.2
      rw [List.forall_mem_cons]
      refine ⟨?_, fun other hother => ?_⟩
      · by_cases hworks : CopyWorks fails appData containerPath name
        · left
          rw [← subtree_uploadRound (hsources name List.mem_cons_self) hcontainer hworks hround]
          funext below
          exact hself _ (List.prefix_append _ below)
        · right
          rw [PathStore.Exists, hself _ (List.prefix_refl _)]
          exact not_exists_uploadRound hworks hround
      · rw [← hkept other]
        exact ih hnd hcontainer' hsources' h other hother

/-- So it is after a successful upload of a bundle apart from the simulators. -/
theorem uploadXCAppDataBundle_eq_ok (hapart : PathStore.Apart path (devicesPath host))
    (h : uploadXCAppDataBundleForApplication host fails fs uuid path bundleID =
      (.everythingOkay, fs')) :
    isValid fs path = true ∧ ∃ containerPath,
      containerPathForApplication host fs uuid bundleID = some containerPath ∧
        (∀ name ∈ dataDirectories,
          fs'.subtree (containerPath ++ [name]) = fs.subtree (path ++ ["AppData", name]) ∨
            ¬ fs'.Exists (containerPath ++ [name])) ∧
        AgreeBesideData containerPath fs fs' := by
  unfold uploadXCAppDataBundleForApplication at h
  cases hvalid : isValid fs path with
  | false => simp [hvalid] at h
  | true =>
    cases hcontainer : containerPathForApplication host fs uuid bundleID with
    | none => simp [hvalid, hcontainer] at h
    | some containerPath =>
      simp only [hvalid, hcontainer, Bool.true_eq_false, if_false] at h
      -- a valid bundle apart from the container has each of the directories
      have hwithin : PathStore.Apart (path ++ ["AppData"]) containerPath := by
        simpa using (apart_containerPath hapart hcontainer).append ["AppData"] []
      have hsources : ∀ name ∈ dataDirectories, fs.Exists (path ++ ["AppData"] ++ [name]) := by
        intro name hname
        have hmem : ["AppData", name] ∈ requiredDirectories := by
          revert name
          decide
        simpa using (((isValid_iff fs path).mp hvalid).2 _ hmem).exists
      have hnd : dataDirectories.Nodup := by decide
      have hdir := isDirectory_containerPath hcontainer
      have hdirectories := uploadLoop_eq_ok hnd hwithin hdir hsources h
      refine ⟨rfl, containerPath, rfl, fun name hname => ?_,
        fun q hq => uploadLoop_outside hnd hdir h hq⟩
      simpa using hdirectories name hname

namespace AgreeBesideData

/-- The container itself and what is above it stay. -/
theorem entry_of_length_le (h : AgreeBesideData containerPath fs fs') {q : Path}
    (hq : q.length ≤ containerPath.length) : fs'.entry q = fs.entry q := by
  refine h q fun name _ hpre => ?_
  have hle := hpre.length_le
  rw [List.length_append, List.length_singleton] at hle
  omega

/-- So does all else in the container. -/
theorem entry_of_not_mem (h : AgreeBesideData containerPath fs fs') {name : String}
    (hname : name ∉ dataDirectories) (below : List String) :
    fs'.entry (containerPath ++ name :: below) = fs.entry (containerPath ++ name :: below) := by
  refine h _ fun other hother hpre => hname ?_
  rw [List.prefix_append_right_inj, List.cons_prefix_cons] at hpre
  exact hpre.1 ▸ hother

/-- And what is not in the container. -/
theorem subtree_eq (h : AgreeBesideData containerPath fs fs') {other : Path}
    (hapart : PathStore.Apart containerPath other) : fs'.subtree other = fs.subtree other := by
  funext below
  refine h _ fun name _ hpre => ?_
  have hwithin := (List.prefix_append containerPath [name]).trans hpre
  exact (List.prefix_or_prefix_of_prefix hwithin (List.prefix_append other below)).elim
    hapart.1 hapart.2

/-- The containers are found as before, as the metadata is no data. -/
theorem containerPathForApplication_eq (h : AgreeBesideData containerPath fs fs')
    (hlists : host.ListsNames)
    (hcontainer : containerPathForApplication host fs uuid bundleID = some containerPath)
    (uuid' bundleID' : String) :
    containerPathForApplication host fs' uuid' bundleID' =
      containerPathForApplication host fs uuid' bundleID' := by
  obtain ⟨folder, hfolder⟩ := exists_containerPath hcontainer
  have hlength : ∀ other, (appDataPath host uuid' ++ [other]).length = containerPath.length := by
    simp [hfolder, appDataPath, devicesPath]
  refine containerPathForApplication_congr hlists
    (fun other => h.entry_of_length_le (hlength other).le) (fun other => ?_) bundleID'
  -- the metadata of this container, and that of another one
  by_cases heq : containerPath = appDataPath host uuid' ++ [other]
  · rw [← heq]
    exact h.entry_of_not_mem (by decide) []
  · have hother : PathStore.Apart containerPath (appDataPath host uuid' ++ [other]) :=
      ⟨fun hpre => heq (hpre.eq_of_length (hlength other).symm),
        fun hpre => heq (hpre.eq_of_length (hlength other)).symm⟩
    exact congrFun (h.subtree_eq hother) [metadataFile]

end AgreeBesideData

end

end Simulator

/-! ## Transfers -/

/-- What app data is moved with: how the containers are found, and the transfers of each physical
device. -/
structure TransferHost extends ContainerHost where
  legacyDevice : String → LegacyDevice

/-- The files of the Mac, the simulators among them, and the app data on each physical device. -/
structure TransferState where
  fs : FileSystem
  containers : String → AppContainers

/-- What the transfers of one physical device see. -/
def TransferState.uploadState (state : TransferState) (uuid : String) : UploadState :=
  ⟨state.fs, state.containers uuid⟩

/-- What they leave. -/
def TransferState.withUploadState (state : TransferState) (uuid : String) (after : UploadState) :
    TransferState :=
  ⟨after.fs, Function.update state.containers uuid after.containers⟩

/-- The transfers of app data. -/
inductive AppDataTransfer where
  /-- `downloadXCAppDataBundleForApplication:toPath:`. -/
  | download (device : Device) (bundleID : String) (path : Path)
  /-- `uploadXCAppDataBundle:forApplication:`. -/
  | upload (path : Path) (device : Device) (bundleID : String)

namespace AppDataTransfer

/-- The bundle. -/
def path : AppDataTransfer → Path
  | download _ _ path | upload path _ _ => path

/-- A transfer: the method of the class of the device. -/
def perform (host : TransferHost) (fails : FailurePattern) (state : TransferState) :
    AppDataTransfer → IOSReturnStatusCode × TransferState
  | download (.simulator uuid) bundleID path =>
      let result := Simulator.downloadXCAppDataBundleForApplication host.toContainerHost fails
        state.fs uuid bundleID path
      (result.1, { state with fs := result.2 })
  | download (.physicalDevice uuid) bundleID path =>
      let result := PhysicalDevice.downloadXCAppDataBundle (host.legacyDevice uuid)
        (state.uploadState uuid) bundleID path
      (result.1, state.withUploadState uuid result.2)
  | upload path (.simulator uuid) bundleID =>
      -- a success, too, when copies of the upload fail
      let result := Simulator.uploadXCAppDataBundleForApplication host.toContainerHost fails
        state.fs uuid path bundleID
      (result.1, { state with fs := result.2 })
  | upload path (.physicalDevice uuid) bundleID =>
      let result := PhysicalDevice.uploadXCAppDataBundle (state.uploadState uuid)
        (host.legacyDevice uuid) path bundleID
      (result.1, state.withUploadState uuid result.2)

/-- A transfer that succeeds, with the failures that it meets. -/
def next (host : TransferHost) (state : TransferState)
    (transfer : FailurePattern × AppDataTransfer) : Option TransferState :=
  let result := transfer.2.perform host transfer.1 state
  if result.1 = .everythingOkay then some result.2 else none

/-- A step of a run is a transfer that succeeds. -/
theorem next_eq_some_iff {host : TransferHost} {state after : TransferState}
    {fails : FailurePattern} {transfer : AppDataTransfer} :
    next host state (fails, transfer) = some after ↔
      transfer.perform host fails state = (.everythingOkay, after) := by
  simp only [next, Option.ite_none_right_eq_some, Option.some.injEq, Prod.ext_iff]

end AppDataTransfer

/-! ## The ledger -/

/-- The data of an app, by directory. -/
abbrev AppData : Type :=
  String → DataTree

/-- The directories of a tree. -/
def DataTree.directories (tree : DataTree) : AppData :=
  fun name below => tree (name :: below)

/-- The data in a bundle. -/
def bundleData (fs : FileSystem) (path : Path) : AppData :=
  DataTree.directories (fs.subtree (path ++ ["AppData"]))

/-- What a bundle holds of a data directory. -/
theorem bundleData_apply (fs : FileSystem) (path : Path) (name : String) :
    bundleData fs path name = fs.subtree (path ++ ["AppData", name]) := by
  funext below
  simp [bundleData, DataTree.directories, PathStore.subtree]

/-- Who has which data: the apps on the devices, and the bundles that can be uploaded. -/
structure Ledger where
  data : Device → String → Option AppData
  bundles : Path → Option AppData

namespace Ledger

variable {ledger first after : Ledger} {device other : Device} {bundleID otherID : String}
  {path : Path} {data : AppData} {transfer : AppDataTransfer}

/-- The ledger with an entry for a bundle. -/
def put (ledger : Ledger) (path : Path) (entry : Option AppData) : Ledger :=
  { ledger with bundles := Function.update ledger.bundles path entry }

/-- The ledger with data for an app. -/
def give (ledger : Ledger) (device : Device) (bundleID : String) (data : AppData) : Ledger :=
  { ledger with
    data := Function.update ledger.data device
      (Function.update (ledger.data device) bundleID (some data)) }

/-- What a transfer is for: a download puts the data of an app into the bundle, and an upload gives
that of the bundle to an app. There is nothing to upload in the bundle of a simulator. -/
def next (ledger : Ledger) : AppDataTransfer → Option Ledger
  -- the bundle is the container itself, without the `AppData` that a bundle must have
  | .download (.simulator _) _ path => some (ledger.put path none)
  | .download (.physicalDevice uuid) bundleID path =>
      some (ledger.put path (ledger.data (.physicalDevice uuid) bundleID))
  | .upload path device bundleID => (ledger.bundles path).map (ledger.give device bundleID)

/-- An upload gives an app what the bundle holds. -/
theorem next_upload (h : ledger.bundles path = some data) :
    ledger.next (.upload path device bundleID) = some (ledger.give device bundleID data) :=
  congrArg (Option.map _) h

@[simp] theorem bundles_give : (ledger.give device bundleID data).bundles = ledger.bundles :=
  rfl

@[simp] theorem bundles_put_self {entry : Option AppData} :
    (ledger.put path entry).bundles path = entry :=
  Function.update_self ..

/-- The other bundles stay. -/
theorem bundles_put_of_ne {entry : Option AppData} {otherPath : Path} (h : otherPath ≠ path) :
    (ledger.put path entry).bundles otherPath = ledger.bundles otherPath :=
  Function.update_of_ne h ..

@[simp] theorem data_give_self :
    (ledger.give device bundleID data).data device bundleID = some data := by
  simp [give]

/-- The data of the other apps stays. -/
theorem data_give_of_ne (h : other ≠ device ∨ otherID ≠ bundleID) :
    (ledger.give device bundleID data).data other otherID = ledger.data other otherID := by
  show Function.update ledger.data device _ other otherID = _
  by_cases hdevice : other = device
  · subst hdevice
    rw [Function.update_self, Function.update_of_ne (h.resolve_left fun hne => hne rfl)]
  · rw [Function.update_of_ne hdevice]

/-- The data is on a physical device or in a bundle. -/
def Holds (ledger : Ledger) (data : AppData) : Prop :=
  (∃ uuid bundleID, ledger.data (.physicalDevice uuid) bundleID = some data) ∨
    ∃ path, ledger.bundles path = some data

/-- All data is from the first ledger: that of the physical devices and the bundles was on a
physical device or in a bundle, and that of a simulator there, too, or on the same simulator. -/
structure DataFrom (first ledger : Ledger) : Prop where
  holds : ∀ data, ledger.Holds data → first.Holds data
  simulator : ∀ uuid bundleID data, ledger.data (.simulator uuid) bundleID = some data →
    first.data (.simulator uuid) bundleID = some data ∨ first.Holds data

/-- A bundle can be given what a physical device has. -/
theorem DataFrom.put {entry : Option AppData} (h : first.DataFrom ledger)
    (hentry : ∀ data, entry = some data → ledger.Holds data) :
    first.DataFrom (ledger.put path entry) := by
  refine ⟨fun data hdata => ?_, h.simulator⟩
  rcases hdata with hdevice | ⟨otherPath, hbundle⟩
  · exact h.holds data (.inl hdevice)
  · by_cases heq : otherPath = path
    · subst heq
      exact h.holds data (hentry data (bundles_put_self.symm.trans hbundle))
    · exact h.holds data (.inr ⟨otherPath, (bundles_put_of_ne heq).symm.trans hbundle⟩)

/-- An app can be given what is in a bundle. -/
theorem DataFrom.give (h : first.DataFrom ledger) (hdata : ledger.Holds data) :
    first.DataFrom (ledger.give device bundleID data) := by
  -- an app has the data of the bundle, or what it had
  have hgiven : ∀ other otherID found,
      (ledger.give device bundleID data).data other otherID = some found →
        found = data ∨ ledger.data other otherID = some found := by
    intro other otherID found hfound
    by_cases heq : other = device ∧ otherID = bundleID
    · obtain ⟨rfl, rfl⟩ := heq
      exact .inl (Option.some.inj (hfound.symm.trans data_give_self))
    · exact .inr ((data_give_of_ne (by tauto)).symm.trans hfound)
  constructor
  · rintro found (⟨uuid, otherID, hdevice⟩ | hbundle)
    · rcases hgiven _ _ _ hdevice with rfl | hstays
      · exact h.holds _ hdata
      · exact h.holds found (.inl ⟨uuid, otherID, hstays⟩)
    · exact h.holds found (.inr hbundle)
  · intro uuid otherID found hdevice
    rcases hgiven _ _ _ hdevice with rfl | hstays
    · exact .inr (h.holds _ hdata)
    · exact h.simulator uuid otherID found hstays

/-- A transfer moves data only. -/
theorem DataFrom.next (h : first.DataFrom ledger) (hnext : ledger.next transfer = some after) :
    first.DataFrom after := by
  cases transfer with
  | download device bundleID path =>
    cases device with
    | simulator uuid =>
      obtain rfl := Option.some.inj hnext
      exact h.put nofun
    | physicalDevice uuid =>
      obtain rfl := Option.some.inj hnext
      exact h.put fun data hdata => .inl ⟨uuid, bundleID, hdata⟩
  | upload path device bundleID =>
    obtain ⟨data, hdata, rfl⟩ := Option.map_eq_some_iff.mp hnext
    exact h.give (.inr ⟨path, hdata⟩)

/-- Nor do more. -/
theorem dataFrom_run {transfers : List AppDataTransfer}
    (hrun : run next first transfers = some ledger) : first.DataFrom ledger :=
  run_invariant (fun _ _ _ h hnext => h.next hnext) ⟨fun _ h => h, fun _ _ _ h => .inl h⟩ hrun

end Ledger

/-- The ledger of a state. -/
def ledgerOf (host : TransferHost) (state : TransferState) : Ledger where
  data
    | .simulator uuid, bundleID =>
        (Simulator.containerPathForApplication host.toContainerHost state.fs uuid bundleID).map
          fun containerPath name => state.fs.subtree (containerPath ++ [name])
    | .physicalDevice uuid, bundleID => (state.containers uuid bundleID).map DataTree.directories
  bundles path := if isValid state.fs path then some (bundleData state.fs path) else none

/-! ## What a run leaves -/

/-- What is relied on: listings name what is there, and the transfers of the physical devices are
transfers of app data. -/
structure TransferHost.Documented (host : TransferHost) : Prop where
  lists : host.toContainerHost.ListsNames
  transfers : ∀ uuid containers, TransfersAppData (host.legacyDevice uuid) containers

/-- The bundles are apart from the simulators and from each other. -/
structure BundlesApart (host : TransferHost) (bundles : List Path) : Prop where
  simulators : ∀ path ∈ bundles,
    PathStore.Apart path (Simulator.devicesPath host.toContainerHost)
  others : ∀ path ∈ bundles, ∀ other ∈ bundles, path ≠ other → PathStore.Apart path other

/-- No container of a simulator has an `AppData`. -/
def NoAppData (host : TransferHost) (fs : FileSystem) : Prop :=
  ∀ uuid bundleID containerPath,
    Simulator.containerPathForApplication host.toContainerHost fs uuid bundleID =
      some containerPath → ¬ fs.Exists (containerPath ++ ["AppData"])

/-- The state is as the ledger says. A bundle that is not valid need not be in it, and a simulator
may have lost directories. -/
structure Represents (host : TransferHost) (bundles : List Path) (state : TransferState)
    (ledger : Ledger) : Prop where
  bundle : ∀ path ∈ bundles, isValid state.fs path = true →
    ledger.bundles path = some (bundleData state.fs path)
  physicalDevice : ∀ uuid bundleID, ledger.data (.physicalDevice uuid) bundleID =
    (state.containers uuid bundleID).map DataTree.directories
  simulator : ∀ uuid bundleID containerPath,
    Simulator.containerPathForApplication host.toContainerHost state.fs uuid bundleID =
      some containerPath → ∃ data, ledger.data (.simulator uuid) bundleID = some data ∧
        ∀ name ∈ Simulator.dataDirectories,
          state.fs.subtree (containerPath ++ [name]) = data name ∨
            ¬ state.fs.Exists (containerPath ++ [name])
  noAppData : NoAppData host state.fs

section

variable {host : TransferHost} {bundles : List Path} {state after : TransferState}
  {ledger : Ledger} {fs fs' : FileSystem} {path : Path} {entry : Option AppData}

/-- The ledger that is read off the start stands for it. -/
theorem represents_ledgerOf (hnone : NoAppData host state.fs) :
    Represents host bundles state (ledgerOf host state) where
  bundle _ _ hvalid := if_pos hvalid
  physicalDevice _ _ := rfl
  simulator _ _ _ hcontainer := ⟨_, congrArg (Option.map _) hcontainer, fun _ _ => .inl rfl⟩
  noAppData := hnone

/-- A bundle is valid by what is in it. -/
theorem isValid_of_subtree_eq (h : fs'.subtree path = fs.subtree path) :
    isValid fs' path = true ↔ isValid fs path = true := by
  have hentry : ∀ below, fs'.entry (path ++ below) = fs.entry (path ++ below) := congrFun h
  simp only [isValid_iff, PathStore.IsDirectory, hentry]

/-- Bundles that are equal hold the same data. -/
theorem bundleData_of_subtree_eq (h : fs'.subtree path = fs.subtree path) :
    bundleData fs' path = bundleData fs path := by
  funext name
  rw [bundleData_apply, bundleData_apply]
  funext below
  simpa [PathStore.subtree] using congrFun h (["AppData", name] ++ below)

/-- **A change of one bundle**, when the ledger says what is in it if it is valid. -/
theorem Represents.updateBundle (hdoc : host.Documented) (hbundles : BundlesApart host bundles)
    (h : Represents host bundles state ledger) (hpath : path ∈ bundles)
    (hagree : PathStore.AgreeOutside path state.fs fs')
    (hentry : isValid fs' path = true → entry = some (bundleData fs' path)) :
    Represents host bundles { state with fs := fs' } (ledger.put path entry) := by
  have hapart := hbundles.simulators path hpath
  have hfound : ∀ uuid bundleID,
      Simulator.containerPathForApplication host.toContainerHost fs' uuid bundleID =
        Simulator.containerPathForApplication host.toContainerHost state.fs uuid bundleID :=
    Simulator.containerPathForApplication_of_agreeOutside hdoc.lists hapart hagree
  -- the containers stay with all they hold
  have hkept : ∀ {uuid bundleID containerPath},
      Simulator.containerPathForApplication host.toContainerHost state.fs uuid bundleID =
        some containerPath → ∀ below,
          fs'.entry (containerPath ++ below) = state.fs.entry (containerPath ++ below) := by
    intro uuid bundleID containerPath hcontainer below
    exact congrFun (hagree.subtree_eq (Simulator.apart_containerPath hapart hcontainer)) below
  refine ⟨?_, h.physicalDevice, ?_, ?_⟩
  · intro other hother hvalid
    by_cases heq : other = path
    · subst heq
      rw [Ledger.bundles_put_self]
      exact hentry hvalid
    · have hsame := hagree.subtree_eq (hbundles.others path hpath other hother (Ne.symm heq))
      rw [Ledger.bundles_put_of_ne heq, bundleData_of_subtree_eq hsame]
      exact h.bundle other hother ((isValid_of_subtree_eq hsame).mp hvalid)
  · intro uuid bundleID containerPath hcontainer
    rw [hfound] at hcontainer
    obtain ⟨data, hdata, hdirectories⟩ := h.simulator uuid bundleID containerPath hcontainer
    refine ⟨data, hdata, fun name hname => ?_⟩
    have hsubtree : fs'.subtree (containerPath ++ [name]) =
        state.fs.subtree (containerPath ++ [name]) := by
      funext below
      simpa [PathStore.subtree] using hkept hcontainer ([name] ++ below)
    rw [hsubtree, PathStore.Exists, hkept hcontainer [name]]
    exact hdirectories name hname
  · intro uuid bundleID containerPath hcontainer
    rw [hfound] at hcontainer
    rw [PathStore.Exists, hkept hcontainer]
    exact h.noAppData uuid bundleID containerPath hcontainer

/-- **Download from a simulator.** The bundle is a copy of the container, and not valid. -/
theorem Represents.downloadSimulator {fails : FailurePattern} {uuid bundleID : String}
    (hdoc : host.Documented) (hbundles : BundlesApart host bundles)
    (h : Represents host bundles state ledger) (hpath : path ∈ bundles)
    (hokay : Simulator.downloadXCAppDataBundleForApplication host.toContainerHost fails state.fs
      uuid bundleID path = (.everythingOkay, fs')) :
    Represents host bundles { state with fs := fs' } (ledger.put path none) := by
  unfold Simulator.downloadXCAppDataBundleForApplication at hokay
  cases hcontainer : Simulator.containerPathForApplication host.toContainerHost state.fs uuid
      bundleID with
  | none => simp [hcontainer] at hokay
  | some containerPath =>
    cases hremove : fails.removeItemAtPath state.fs path with
    | none => simp [hcontainer, hremove] at hokay
    | some removed =>
      cases hcopy : fails.copyItemAtPath removed containerPath path with
      | none => simp [hcontainer, hremove, hcopy] at hokay
      | some copied =>
        obtain rfl : copied = fs' := by simpa [hcontainer, hremove, hcopy] using hokay
        obtain ⟨-, -, rfl⟩ := FailurePattern.removeItemAtPath_eq_some_iff.mp hremove
        obtain ⟨-, hcan, rfl⟩ := FailurePattern.copyItemAtPath_eq_some_iff.mp hcopy
        have hremoved := PathStore.agreeOutside_remove state.fs path
        refine h.updateBundle hdoc hbundles hpath
          (hremoved.trans (PathStore.agreeOutside_copy _ hcan)) fun hvalid => ?_
        -- an `AppData` in the bundle would be one in the container
        have hexists := (((isValid_iff _ _).mp hvalid).2 ["AppData"] (by decide)).exists
        have hcopied := congrFun (PathStore.subtree_copy_self _ hcan) ["AppData"]
        simp only [PathStore.subtree] at hcopied
        have hapart : PathStore.Apart path (containerPath ++ ["AppData"]) := by
          simpa using (Simulator.apart_containerPath (hbundles.simulators path hpath)
            hcontainer).append [] ["AppData"]
        rw [PathStore.Exists, hcopied, hremoved _ hapart.1] at hexists
        exact absurd hexists (h.noAppData uuid bundleID containerPath hcontainer)

/-- An upload to a simulator makes no `AppData`. -/
theorem NoAppData.of_agreeBesideData {uuid bundleID : String} {containerPath : Path}
    (hnone : NoAppData host fs) (hlists : host.toContainerHost.ListsNames)
    (hcontainer : Simulator.containerPathForApplication host.toContainerHost fs uuid bundleID =
      some containerPath)
    (hbeside : Simulator.AgreeBesideData containerPath fs fs') : NoAppData host fs' := by
  intro otherUuid otherID otherContainer hothercontainer
  rw [hbeside.containerPathForApplication_eq hlists hcontainer] at hothercontainer
  have hentry : fs'.entry (otherContainer ++ ["AppData"]) =
      fs.entry (otherContainer ++ ["AppData"]) := by
    rcases Simulator.container_eq_or_apart hcontainer hothercontainer with ⟨rfl, rfl⟩ | hother
    · obtain rfl : containerPath = otherContainer :=
        Option.some.inj (hcontainer.symm.trans hothercontainer)
      exact hbeside.entry_of_not_mem (by decide) []
    · exact congrFun (hbeside.subtree_eq hother) ["AppData"]
  rw [PathStore.Exists, hentry]
  exact hnone otherUuid otherID otherContainer hothercontainer

/-- **Upload to a simulator.** -/
theorem Represents.uploadSimulator {fails : FailurePattern} {uuid bundleID : String}
    (hdoc : host.Documented) (hbundles : BundlesApart host bundles)
    (h : Represents host bundles state ledger) (hpath : path ∈ bundles)
    (hokay : Simulator.uploadXCAppDataBundleForApplication host.toContainerHost fails state.fs uuid
      path bundleID = (.everythingOkay, fs')) :
    ledger.bundles path = some (bundleData state.fs path) ∧
      Represents host bundles { state with fs := fs' }
        (ledger.give (.simulator uuid) bundleID (bundleData state.fs path)) := by
  obtain ⟨hvalid, containerPath, hcontainer, hdirectories, hbeside⟩ :=
    Simulator.uploadXCAppDataBundle_eq_ok (hbundles.simulators path hpath) hokay
  have hfound := hbeside.containerPathForApplication_eq hdoc.lists hcontainer
  refine ⟨h.bundle path hpath hvalid, ?_, ?_, ?_, ?_⟩
  · intro other hother hothervalid
    have hapart := Simulator.apart_containerPath (hbundles.simulators other hother) hcontainer
    have hsame := hbeside.subtree_eq ⟨hapart.2, hapart.1⟩
    rw [Ledger.bundles_give, bundleData_of_subtree_eq hsame]
    exact h.bundle other hother ((isValid_of_subtree_eq hsame).mp hothervalid)
  · intro otherUuid otherID
    have hne : Device.physicalDevice otherUuid ≠ .simulator uuid := nofun
    rw [Ledger.data_give_of_ne (.inl hne)]
    exact h.physicalDevice otherUuid otherID
  · intro otherUuid otherID otherContainer hothercontainer
    rw [hfound] at hothercontainer
    -- the container of the app has the data of the bundle now, and another one what it had
    rcases Simulator.container_eq_or_apart hcontainer hothercontainer with ⟨rfl, rfl⟩ | hother
    · obtain rfl : containerPath = otherContainer :=
        Option.some.inj (hcontainer.symm.trans hothercontainer)
      refine ⟨_, Ledger.data_give_self, fun name hname => ?_⟩
      rw [bundleData_apply]
      exact hdirectories name hname
    · have hne : Device.simulator otherUuid ≠ .simulator uuid ∨ otherID ≠ bundleID := by
        by_contra heq
        push Not at heq
        obtain ⟨huuid, rfl⟩ := heq
        obtain rfl := Device.simulator.inj huuid
        obtain rfl : containerPath = otherContainer :=
          Option.some.inj (hcontainer.symm.trans hothercontainer)
        exact hother.1 (List.prefix_refl _)
      obtain ⟨data, hledger, hothers⟩ := h.simulator otherUuid otherID otherContainer
        hothercontainer
      refine ⟨data, (Ledger.data_give_of_ne hne).trans hledger, fun name hname => ?_⟩
      have hwithin : PathStore.Apart containerPath (otherContainer ++ [name]) := by
        simpa using hother.append [] [name]
      have hsubtree := hbeside.subtree_eq hwithin
      have hentry := congrFun hsubtree []
      simp only [PathStore.subtree, List.append_nil] at hentry
      rw [hsubtree, PathStore.Exists, hentry]
      exact hothers name hname
  · exact h.noAppData.of_agreeBesideData hdoc.lists hcontainer hbeside

/-- **Download from a physical device.** -/
theorem Represents.downloadPhysicalDevice {uuid bundleID : String} {downloaded : UploadState}
    (hdoc : host.Documented) (hbundles : BundlesApart host bundles)
    (h : Represents host bundles state ledger) (hpath : path ∈ bundles)
    (hokay : PhysicalDevice.downloadXCAppDataBundle (host.legacyDevice uuid)
      (state.uploadState uuid) bundleID path = (.everythingOkay, downloaded)) :
    Represents host bundles (state.withUploadState uuid downloaded)
      (ledger.put path (ledger.data (.physicalDevice uuid) bundleID)) := by
  obtain ⟨hagree, hcontainers, hdata⟩ :=
    PhysicalDevice.downloadXCAppDataBundle_eq_ok (hdoc.transfers uuid _) hokay
  have hafter : state.withUploadState uuid downloaded = { state with fs := downloaded.fs } := by
    unfold TransferState.withUploadState
    rw [hcontainers]
    exact congrArg (TransferState.mk _) (Function.update_eq_self uuid state.containers)
  -- the device keeps its data, so the bundle is all that changes
  rw [hafter]
  refine h.updateBundle hdoc hbundles hpath hagree fun _ => ?_
  rw [h.physicalDevice]
  exact congrArg (Option.map _) hdata

/-- **Upload to a physical device.** -/
theorem Represents.uploadPhysicalDevice {uuid bundleID : String} {uploaded : UploadState}
    (hdoc : host.Documented) (h : Represents host bundles state ledger) (hpath : path ∈ bundles)
    (hokay : PhysicalDevice.uploadXCAppDataBundle (state.uploadState uuid) (host.legacyDevice uuid)
      path bundleID = (.everythingOkay, uploaded)) :
    ledger.bundles path = some (bundleData state.fs path) ∧
      Represents host bundles (state.withUploadState uuid uploaded)
        (ledger.give (.physicalDevice uuid) bundleID (bundleData state.fs path)) := by
  obtain ⟨hvalid, hfs, hcontainers⟩ :=
    PhysicalDevice.uploadXCAppDataBundle_eq_ok (hdoc.transfers uuid _) hokay
  have hfs' : (state.withUploadState uuid uploaded).fs = state.fs := hfs
  refine ⟨h.bundle path hpath hvalid, ?_, ?_, ?_, ?_⟩
  · rw [hfs']
    exact h.bundle
  · -- the device has the data of the bundle for this app, and for another one what it had
    intro otherUuid otherID
    show _ = (Function.update state.containers uuid uploaded.containers otherUuid otherID).map _
    by_cases heq : otherUuid = uuid ∧ otherID = bundleID
    · obtain ⟨rfl, rfl⟩ := heq
      rw [Ledger.data_give_self, Function.update_self, hcontainers, Function.update_self]
      rfl
    · have hne : Device.physicalDevice otherUuid ≠ .physicalDevice uuid ∨ otherID ≠ bundleID := by
        rw [ne_eq, Device.physicalDevice.injEq]
        tauto
      have hcontainer : Function.update state.containers uuid uploaded.containers otherUuid
          otherID = state.containers otherUuid otherID := by
        by_cases huuid : otherUuid = uuid
        · subst huuid
          have hid : otherID ≠ bundleID := fun hid => heq ⟨rfl, hid⟩
          rw [Function.update_self, hcontainers, Function.update_of_ne hid]
          rfl
        · rw [Function.update_of_ne huuid]
      rw [Ledger.data_give_of_ne hne, hcontainer]
      exact h.physicalDevice otherUuid otherID
  · rw [hfs']
    intro otherUuid otherID containerPath hcontainer
    have hne : Device.simulator otherUuid ≠ .physicalDevice uuid := nofun
    obtain ⟨data, hdata, hdirectories⟩ := h.simulator otherUuid otherID containerPath hcontainer
    exact ⟨data, (Ledger.data_give_of_ne (.inl hne)).trans hdata, hdirectories⟩
  · rw [hfs']
    exact h.noAppData

/-- **One transfer** that succeeds is one of the ledger. -/
theorem Represents.next {transfer : FailurePattern × AppDataTransfer} (hdoc : host.Documented)
    (hbundles : BundlesApart host bundles) (h : Represents host bundles state ledger)
    (hpath : transfer.2.path ∈ bundles)
    (hnext : AppDataTransfer.next host state transfer = some after) :
    ∃ ledger', ledger.next transfer.2 = some ledger' ∧ Represents host bundles after ledger' := by
  obtain ⟨fails, transfer⟩ := transfer
  obtain ⟨hokay, rfl⟩ := Prod.ext_iff.mp (AppDataTransfer.next_eq_some_iff.mp hnext)
  cases transfer with
  | download device bundleID path =>
    cases device with
    | simulator uuid =>
      exact ⟨_, rfl, h.downloadSimulator hdoc hbundles hpath (Prod.ext hokay rfl)⟩
    | physicalDevice uuid =>
      exact ⟨_, rfl, h.downloadPhysicalDevice hdoc hbundles hpath (Prod.ext hokay rfl)⟩
  | upload path device bundleID =>
    cases device with
    | simulator uuid =>
      obtain ⟨hledger, hafter⟩ := h.uploadSimulator hdoc hbundles hpath (Prod.ext hokay rfl)
      exact ⟨_, Ledger.next_upload hledger, hafter⟩
    | physicalDevice uuid =>
      obtain ⟨hledger, hafter⟩ := h.uploadPhysicalDevice hdoc hpath (Prod.ext hokay rfl)
      exact ⟨_, Ledger.next_upload hledger, hafter⟩

end

/-! ## Runs -/

/-- The data is that of an app on a physical device, or of a valid bundle. -/
def Original (before : TransferState) (data : AppData) : Prop :=
  (∃ uuid bundleID tree, before.containers uuid bundleID = some tree ∧ data = tree.directories) ∨
    ∃ path, isValid before.fs path = true ∧ data = bundleData before.fs path

/-- What a run of successful transfers leaves: what the ledger says. An app on a physical device has
original data; of an app on a simulator each data directory is an original one, the one it was, or
lost. -/
structure Moved (host : TransferHost) (bundles : List Path) (before : TransferState)
    (transfers : List AppDataTransfer) (after : TransferState) : Prop where
  ledger : ∃ ledger, run Ledger.next (ledgerOf host before) transfers = some ledger ∧
    Represents host bundles after ledger
  physicalDevice : ∀ uuid bundleID tree, after.containers uuid bundleID = some tree →
    Original before tree.directories
  simulator : ∀ uuid bundleID containerPath,
    Simulator.containerPathForApplication host.toContainerHost after.fs uuid bundleID =
      some containerPath →
        ∃ data, ((ledgerOf host before).data (.simulator uuid) bundleID = some data ∨
            Original before data) ∧
          ∀ name ∈ Simulator.dataDirectories,
            after.fs.subtree (containerPath ++ [name]) = data name ∨
              ¬ after.fs.Exists (containerPath ++ [name])

section

variable {host : TransferHost} {bundles : List Path} {before after : TransferState}

/-- What is in the ledger at first is original. -/
theorem original_of_holds {data : AppData} (h : (ledgerOf host before).Holds data) :
    Original before data := by
  rcases h with ⟨uuid, bundleID, hdevice⟩ | ⟨path, hbundle⟩
  · obtain ⟨tree, htree, rfl⟩ := Option.map_eq_some_iff.mp hdevice
    exact .inl ⟨uuid, bundleID, tree, htree, rfl⟩
  · obtain ⟨hvalid, hdata⟩ := Option.ite_none_right_eq_some.mp hbundle
    exact .inr ⟨path, hvalid, (Option.some.inj hdata).symm⟩

/-- **App data from device to device.** In every run of successful transfers, with bundles apart
from the simulators and from each other, and whatever copies fail on the way: the data is where the
ledger says. So no data of a simulator comes to any other device, and none is mixed on a physical
device. -/
theorem run_transfers (hdoc : host.Documented) (hbundles : BundlesApart host bundles)
    (hnone : NoAppData host before.fs) {transfers : List (FailurePattern × AppDataTransfer)}
    (hpaths : ∀ transfer ∈ transfers, transfer.2.path ∈ bundles)
    (hrun : run (AppDataTransfer.next host) before transfers = some after) :
    Moved host bundles before (transfers.map Prod.snd) after := by
  obtain ⟨ledger, hledger, hafter⟩ :=
    run_simulates (fun _ _ _ _ h hpath hnext => h.next hdoc hbundles hpath hnext)
      (represents_ledgerOf hnone) hpaths hrun
  -- what the state represents is told by the ledger, and its data is from the first one
  have hfrom := Ledger.dataFrom_run hledger
  refine ⟨⟨ledger, hledger, hafter⟩, ?_, ?_⟩
  · intro uuid bundleID tree htree
    have hdevice := hafter.physicalDevice uuid bundleID
    rw [htree, Option.map_some] at hdevice
    exact original_of_holds (hfrom.holds _ (.inl ⟨uuid, bundleID, hdevice⟩))
  · intro uuid bundleID containerPath hcontainer
    obtain ⟨data, hdata, hdirectories⟩ := hafter.simulator uuid bundleID containerPath hcontainer
    exact ⟨data, (hfrom.simulator uuid bundleID data hdata).imp_right original_of_holds,
      hdirectories⟩

end

/-! ### A phone and a simulator -/

/-- App data with the directories that a bundle must have. -/
def skeletonTree : DataTree :=
  fun q => if q <+: ["Documents"] ∨ q <+: ["tmp"] ∨ q <+: ["Library", "Preferences"] then
    some .directory else none

/-- The files with a bundle of this data. -/
def createSkeleton (fs : FileSystem) (path : Path) : FileSystem :=
  ((fs.create (path ++ ["AppData"] ++ ["Documents"])).create
    (path ++ ["AppData"] ++ ["tmp"])).create (path ++ ["AppData"] ++ ["Library", "Preferences"])

open Classical in
/-- A phone that can make bundles of this data only. -/
noncomputable def samplePhoneTransfers : LegacyDevice where
  downloadApplicationData containers fs path bundleID :=
    if containers bundleID = some skeletonTree ∧ fs.IsDirectory path ∧
        ¬ fs.Exists (path ++ ["AppData"]) then (true, createSkeleton fs path)
    else (false, fs)
  uploadApplicationData containers fs path bundleID :=
    (true, Function.update containers bundleID (some (fs.subtree (path ++ ["AppData"]))))

/-- A skeleton is made in its directory. -/
theorem agreeOutside_createSkeleton {fs : FileSystem} {path : Path} (h : fs.IsDirectory path) :
    PathStore.AgreeOutside path fs (createSkeleton fs path) := by
  have hstep : ∀ {fs : FileSystem} (below : Path), fs.IsDirectory path →
      PathStore.AgreeOutside path fs (fs.create (path ++ ["AppData"] ++ below)) ∧
        (fs.create (path ++ ["AppData"] ++ below)).IsDirectory path := by
    intro fs below hdir
    refine ⟨PhysicalDevice.agreeOutside_widen (List.prefix_append path ["AppData"])
      (PathStore.agreeOutside_create hdir "AppData" below), ?_⟩
    rw [PathStore.IsDirectory, PathStore.entry_create, if_pos (by simp)]
  obtain ⟨hdocuments, hdir⟩ := hstep ["Documents"] h
  obtain ⟨htmp, hdir⟩ := hstep ["tmp"] hdir
  exact (hdocuments.trans htmp).trans (hstep ["Library", "Preferences"] hdir).1

/-- It is an empty bundle. -/
theorem subtree_createSkeleton {fs : FileSystem} {path : Path}
    (h : ¬ fs.Exists (path ++ ["AppData"])) :
    (createSkeleton fs path).subtree (path ++ ["AppData"]) = skeletonTree := by
  funext below
  have hnothing : fs.entry (path ++ ["AppData"] ++ below) = none :=
    Option.not_isSome_iff_eq_none.mp
      (PathStore.not_exists_of_prefix h (List.prefix_append _ below))
  simp only [createSkeleton, PathStore.subtree, PathStore.entry_create,
    List.prefix_append_right_inj, hnothing, skeletonTree]
  split_ifs <;> simp_all

/-- The phone transfers what it is asked to. -/
theorem transfersAppData_samplePhone (containers : AppContainers) :
    TransfersAppData samplePhoneTransfers containers where
  outside fs path bundleID := by
    dsimp only [samplePhoneTransfers]
    split
    · rename_i h
      exact agreeOutside_createSkeleton h.2.1
    · exact fun _ _ => rfl
  downloaded fs path bundleID hsuccess := by
    dsimp only [samplePhoneTransfers] at hsuccess ⊢
    split at hsuccess
    · rename_i h
      rw [if_pos h, h.1, subtree_createSkeleton h.2.2]
    · cases hsuccess
  uploaded _ _ _ _ := rfl

/-- A Mac with the phone. -/
noncomputable def phoneHost : TransferHost where
  toContainerHost := Simulator.sampleHost
  legacyDevice _ := samplePhoneTransfers

/-- The phone and the simulator have the app. -/
def phoneState : TransferState where
  fs := Simulator.sampleFileSystem
  containers _ bundleID := if bundleID = "com.my.app" then some skeletonTree else none

/-- The bundle that is replaced. -/
def phoneBundle : Path :=
  ["tmp", "old.xcappdata"]

/-- From the phone to the simulator. -/
def phoneTransfers : List (FailurePattern × AppDataTransfer) :=
  [(noFailure, .download (.physicalDevice "A") "com.my.app" phoneBundle),
    (noFailure, .upload phoneBundle (.simulator "5C2D") "com.my.app")]

/-- The files once the data is downloaded. -/
def phoneFiles : FileSystem :=
  createSkeleton Simulator.sampleFileSystem phoneBundle

/-- Its host does what is documented. -/
theorem documented_phoneHost : phoneHost.Documented where
  lists _ _ _ _ := rfl
  transfers _ containers := transfersAppData_samplePhone containers

/-- No container is a bundle. -/
theorem noAppData_phoneHost : NoAppData phoneHost phoneState.fs := by
  intro uuid bundleID containerPath hcontainer
  obtain ⟨folder, rfl⟩ := Simulator.exists_containerPath hcontainer
  simp [phoneState, Simulator.sampleFileSystem, Simulator.sampleDirectories,
    Simulator.sampleContainer, Simulator.appDataPath, Simulator.devicesPath, phoneHost,
    Simulator.sampleHost, PathStore.Exists, PathStore.entry_write, PathStore.entry_create,
    Simulator.metadataFile, PathStore.empty]

/-- The one bundle lies apart from the containers. -/
theorem bundlesApart_phoneHost : BundlesApart phoneHost [phoneBundle] where
  simulators path hpath := by
    obtain rfl := List.mem_singleton.mp hpath
    exact ⟨by decide +kernel, by decide +kernel⟩
  others path hpath other hother hne :=
    absurd ((List.mem_singleton.mp hpath).trans (List.mem_singleton.mp hother).symm) hne

/-- The data of the app is downloaded. -/
theorem download_phoneHost :
    AppDataTransfer.next phoneHost phoneState
        (noFailure, .download (.physicalDevice "A") "com.my.app" phoneBundle) =
      some { phoneState with fs := phoneFiles } := by
  have hdone : samplePhoneTransfers.downloadApplicationData (phoneState.containers "A")
      phoneState.fs phoneBundle "com.my.app" = (true, phoneFiles) :=
    if_pos ⟨rfl, by decide +kernel, by decide +kernel⟩
  have hresult : PhysicalDevice.downloadXCAppDataBundle samplePhoneTransfers
      (phoneState.uploadState "A") "com.my.app" phoneBundle =
        (.everythingOkay, ⟨phoneFiles, phoneState.containers "A"⟩) := by
    simp only [PhysicalDevice.downloadXCAppDataBundle, TransferState.uploadState, hdone,
      Bool.not_true, Bool.false_eq_true, if_false]
  refine AppDataTransfer.next_eq_some_iff.mpr ?_
  simp only [AppDataTransfer.perform, phoneHost, hresult, TransferState.withUploadState,
    Function.update_eq_self]

/-- The simulator has the documents of the phone then. -/
theorem run_transfers_sample :
    ∃ after, run (AppDataTransfer.next phoneHost) phoneState phoneTransfers = some after ∧
      after.fs.subtree (Simulator.sampleContainer ++ ["Documents"]) =
        skeletonTree.directories "Documents" := by
  have hstatus : (Simulator.uploadXCAppDataBundleForApplication Simulator.sampleHost noFailure
      phoneFiles "5C2D" phoneBundle "com.my.app").1 = .everythingOkay := by decide +kernel
  have hupload : AppDataTransfer.next phoneHost { phoneState with fs := phoneFiles }
      (noFailure, .upload phoneBundle (.simulator "5C2D") "com.my.app") =
        some { phoneState with fs := (Simulator.uploadXCAppDataBundleForApplication
          Simulator.sampleHost noFailure phoneFiles "5C2D" phoneBundle "com.my.app").2 } :=
    AppDataTransfer.next_eq_some_iff.mpr (Prod.ext hstatus rfl)
  have hrun : run (AppDataTransfer.next phoneHost) phoneState phoneTransfers = some _ :=
    run_cons_eq_some_iff.mpr ⟨_, download_phoneHost,
      run_cons_eq_some_iff.mpr ⟨_, hupload, run_nil _⟩⟩
  have hmoved := run_transfers documented_phoneHost bundlesApart_phoneHost noAppData_phoneHost
    (by simp [phoneTransfers, AppDataTransfer.path]) hrun
  refine ⟨_, hrun, ?_⟩
  obtain ⟨ledger, hledger, hafter⟩ := hmoved.ledger
  obtain ⟨data, hdata, hdirectories⟩ := hafter.simulator "5C2D" "com.my.app"
    Simulator.sampleContainer (by decide +kernel)
  -- what the ledger says of the two transfers
  have hput : (ledgerOf phoneHost phoneState).next
      (.download (.physicalDevice "A") "com.my.app" phoneBundle) =
        some ((ledgerOf phoneHost phoneState).put phoneBundle (some skeletonTree.directories)) :=
    rfl
  have hgive : Ledger.next ((ledgerOf phoneHost phoneState).put phoneBundle
      (some skeletonTree.directories)) (.upload phoneBundle (.simulator "5C2D") "com.my.app") =
        some (((ledgerOf phoneHost phoneState).put phoneBundle
          (some skeletonTree.directories)).give (.simulator "5C2D") "com.my.app"
            skeletonTree.directories) :=
    Ledger.next_upload Ledger.bundles_put_self
  have hnext : run Ledger.next (ledgerOf phoneHost phoneState) (phoneTransfers.map Prod.snd) =
      some _ :=
    run_cons_eq_some_iff.mpr ⟨_, hput, run_cons_eq_some_iff.mpr ⟨_, hgive, run_nil _⟩⟩
  obtain rfl := Option.some.inj (hnext.symm.trans hledger)
  obtain rfl : skeletonTree.directories = data :=
    Option.some.inj (Ledger.data_give_self.symm.trans hdata)
  exact (hdirectories "Documents" (by decide)).resolve_right (not_not_intro (by decide +kernel))

end IOSDeviceManager
