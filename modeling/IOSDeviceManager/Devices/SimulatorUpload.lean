import IOSDeviceManager.Devices.SimulatorDownload

/-! # Uploading app data to a simulator

`uploadXCAppDataBundle:forApplication:` replaces the data directories of a container one by one. A
removal that fails ends the loop with an error; a copy that fails is reported on the console, and
the loop goes on to its success. Whether the returned status tells if the data was replaced depends
on which operation fails where. -/

namespace IOSDeviceManager

open General XCAppDataBundle

namespace Simulator

/-! ## The loop -/

/-- One round of the upload loop, `none` when the existing target cannot be removed. A copy that
fails is only reported. -/
def uploadRound (fails : FailurePattern) (fs : FileSystem) (source target : Path) :
    Option FileSystem :=
  let cleared :=
    if NSFileManager.fileExistsAtPath fs target then fails.removeItemAtPath fs target else some fs
  cleared.map fun fs => (fails.copyItemAtPath fs source target).getD fs

/-- The upload loop over sources and targets. -/
def uploadLoop (fails : FailurePattern) : List (Path × Path) → FileSystem →
    IOSReturnStatusCode × FileSystem
  | [], fs => (.everythingOkay, fs)
  | (source, target) :: rest, fs =>
      match uploadRound fails fs source target with
      | none => (.genericFailure, fs)
      | some fs => uploadLoop fails rest fs

/-- `uploadXCAppDataBundle:forApplication:`. -/
def uploadXCAppDataBundleForApplication (host : ContainerHost) (fails : FailurePattern)
    (fs : FileSystem) (uuid : String) (xcappdata : Path) (bundleIdentifier : String) :
    IOSReturnStatusCode × FileSystem :=
  if isValid fs xcappdata = false then (.genericFailure, fs)
  else
    match containerPathForApplication host fs uuid bundleIdentifier with
    | none => (.genericFailure, fs)
    | some containerPath =>
        uploadLoop fails
          ((sourceDirectoriesForSimulator xcappdata).zip (targetDirectories containerPath)) fs

/-! ## One round -/

section

variable {fails : FailurePattern} {fs fs' : FileSystem} {appData containerPath : Path}
  {name : String} {names : List String}

/-- The removal of an existing data directory fails. -/
def RemovalBlocked (fails : FailurePattern) (fs : FileSystem) (containerPath : Path)
    (name : String) : Prop :=
  fs.Exists (containerPath ++ [name]) ∧ fails (.removeItem (containerPath ++ [name])) = true

instance (fails : FailurePattern) (fs : FileSystem) (containerPath : Path) :
    DecidablePred (RemovalBlocked fails fs containerPath) :=
  fun _ => inferInstanceAs (Decidable (_ ∧ _))

/-- The copy of a data directory does not fail, and its source and target are apart. -/
def CopyWorks (fails : FailurePattern) (appData containerPath : Path) (name : String) : Prop :=
  fails (.copyItem (appData ++ [name]) (containerPath ++ [name])) = false ∧
    PathStore.Apart (appData ++ [name]) (containerPath ++ [name])

/-- A round ends the loop exactly when its removal is blocked. -/
theorem uploadRound_eq_none_iff (source : Path) :
    uploadRound fails fs source (containerPath ++ [name]) = none ↔
      RemovalBlocked fails fs containerPath name := by
  unfold uploadRound RemovalBlocked
  rw [Option.map_eq_none_iff]
  by_cases hexists : fs.Exists (containerPath ++ [name])
  · simp only [NSFileManager.fileExistsAtPath, hexists, decide_true, if_true, true_and]
    rw [FailurePattern.removeItemAtPath, NSFileManager.removeItemAtPath, if_pos hexists]
    split <;> simp [*]
  · simp [NSFileManager.fileExistsAtPath, hexists]

/-- A round that does not end the loop clears its target, and then tries to copy. -/
theorem uploadRound_cases {source target : Path}
    (h : uploadRound fails fs source target = some fs') :
    ∃ cleared, ¬ cleared.Exists target ∧ PathStore.AgreeOutside target fs cleared ∧
      fs' = (fails.copyItemAtPath cleared source target).getD cleared := by
  unfold uploadRound at h
  obtain ⟨cleared, hcleared, rfl⟩ := Option.map_eq_some_iff.mp h
  by_cases hexists : fs.Exists target
  · simp only [NSFileManager.fileExistsAtPath, hexists, decide_true, if_true] at hcleared
    obtain ⟨-, -, rfl⟩ := FailurePattern.removeItemAtPath_eq_some_iff.mp hcleared
    exact ⟨_, by simp [PathStore.Exists], PathStore.agreeOutside_remove fs target, rfl⟩
  · simp only [NSFileManager.fileExistsAtPath, hexists, decide_false] at hcleared
    obtain rfl : fs = cleared := by simpa using hcleared
    exact ⟨fs, hexists, fun _ _ => rfl, rfl⟩

/-- A round changes nothing outside its target. -/
theorem agreeOutside_uploadRound {source target : Path}
    (h : uploadRound fails fs source target = some fs') :
    PathStore.AgreeOutside target fs fs' := by
  obtain ⟨cleared, -, hagree, rfl⟩ := uploadRound_cases h
  cases hcopy : fails.copyItemAtPath cleared source target with
  | none => exact hagree
  | some copied =>
    obtain ⟨-, hcan, rfl⟩ := FailurePattern.copyItemAtPath_eq_some_iff.mp hcopy
    exact hagree.trans (PathStore.agreeOutside_copy cleared hcan)

/-- When the copy works, the round leaves a copy of the source. -/
theorem subtree_uploadRound (hsource : fs.Exists (appData ++ [name]))
    (hcontainer : fs.IsDirectory containerPath)
    (hworks : CopyWorks fails appData containerPath name)
    (h : uploadRound fails fs (appData ++ [name]) (containerPath ++ [name]) = some fs') :
    fs'.subtree (containerPath ++ [name]) = fs.subtree (appData ++ [name]) := by
  obtain ⟨hcopies, hapart⟩ := hworks
  obtain ⟨cleared, habsent, hagree, rfl⟩ := uploadRound_cases h
  have hcan : cleared.CanCopy (appData ++ [name]) (containerPath ++ [name]) :=
    { exists_source := by rwa [PathStore.Exists, hagree _ hapart.2]
      not_exists_target := habsent
      parent := ⟨by simp, by
        rw [List.dropLast_concat, PathStore.IsDirectory,
          hagree _ (PathStore.not_prefix_of_append_singleton containerPath name)]
        exact hcontainer⟩
      outside := hapart.1 }
  rw [FailurePattern.copyItemAtPath_eq_some_iff.mpr ⟨hcopies, hcan, rfl⟩, Option.getD_some,
    PathStore.subtree_copy_self]
  exact hagree.subtree_eq ⟨hapart.2, hapart.1⟩

/-- When the copy does not work, the round leaves nothing at its target. -/
theorem not_exists_uploadRound (hworks : ¬ CopyWorks fails appData containerPath name)
    (h : uploadRound fails fs (appData ++ [name]) (containerPath ++ [name]) = some fs') :
    ¬ fs'.Exists (containerPath ++ [name]) := by
  obtain ⟨cleared, habsent, -, rfl⟩ := uploadRound_cases h
  cases hcopy : fails.copyItemAtPath cleared (appData ++ [name]) (containerPath ++ [name]) with
  | none => exact habsent
  | some copied =>
    obtain ⟨hcopies, hcan, -⟩ := FailurePattern.copyItemAtPath_eq_some_iff.mp hcopy
    -- a source within the cleared target is gone
    exact absurd ⟨hcopies, hcan.outside, fun hpre =>
      PathStore.not_exists_of_prefix habsent hpre hcan.exists_source⟩ hworks

/-! ## The whole loop -/

/-- The data directories up to the first one whose removal is blocked. -/
def attempted (fails : FailurePattern) (fs : FileSystem) (containerPath : Path)
    (names : List String) : List String :=
  names.takeWhile fun name => !decide (RemovalBlocked fails fs containerPath name)

/-- Where the copies of two directories work, the source of one is apart from the target of the
other. -/
theorem apart_of_copyWorks {other : String} (hne : name ≠ other)
    (h : CopyWorks fails appData containerPath name)
    (h' : CopyWorks fails appData containerPath other) :
    PathStore.Apart (appData ++ [other]) (containerPath ++ [name]) := by
  constructor
  · intro hpre
    rcases List.prefix_concat_iff.mp hpre with heq | habove
    · exact hne (List.singleton_inj.mp (List.append_inj' heq rfl).2.symm)
    · exact h'.2.1 (habove.trans (List.prefix_append _ _))
  · intro hpre
    rcases List.prefix_concat_iff.mp hpre with heq | habove
    · exact hne (List.singleton_inj.mp (List.append_inj' heq rfl).2)
    · exact h.2.2 (habove.trans (List.prefix_append _ _))

/-- What a call of the loop does to the data directories. -/
structure LoopEffect (fails : FailurePattern) (fs : FileSystem) (appData containerPath : Path)
    (names : List String) (result : IOSReturnStatusCode × FileSystem) : Prop where
  /-- It succeeds when no removal is blocked. -/
  status : result.1 = .everythingOkay ↔
    ∀ name ∈ names, ¬ RemovalBlocked fails fs containerPath name
  /-- What is outside the directories attempted stays. -/
  outside : ∀ q, (∀ name ∈ attempted fails fs containerPath names,
    ¬ containerPath ++ [name] <+: q) → result.2.entry q = fs.entry q
  /-- When all attempted copies work, they are copies of the sources. -/
  copies : (∀ name ∈ attempted fails fs containerPath names,
      CopyWorks fails appData containerPath name ∧ fs.Exists (appData ++ [name])) →
    ∀ name ∈ attempted fails fs containerPath names,
      result.2.subtree (containerPath ++ [name]) = fs.subtree (appData ++ [name])
  /-- A directory whose copy does not work is gone. -/
  gone : ∀ name ∈ attempted fails fs containerPath names,
    ¬ CopyWorks fails appData containerPath name → ¬ result.2.Exists (containerPath ++ [name])

variable (fails) in
/-- Whether a removal is blocked does not change in a round for another directory. -/
theorem removalBlocked_of_agreeOutside {other : String} (hne : name ≠ other)
    (hagree : PathStore.AgreeOutside (containerPath ++ [name]) fs fs') :
    RemovalBlocked fails fs' containerPath other ↔ RemovalBlocked fails fs containerPath other := by
  have hentry := hagree (containerPath ++ [other]) (PathStore.apart_of_ne containerPath hne).1
  rw [RemovalBlocked, RemovalBlocked, PathStore.Exists, PathStore.Exists, hentry]

/-- So the directories attempted are the same. -/
theorem attempted_of_agreeOutside (hnotin : name ∉ names)
    (hagree : PathStore.AgreeOutside (containerPath ++ [name]) fs fs') :
    attempted fails fs' containerPath names = attempted fails fs containerPath names := by
  unfold attempted
  induction names with
  | nil => rfl
  | cons other names ih =>
    rw [List.mem_cons, not_or] at hnotin
    have hsame := removalBlocked_of_agreeOutside fails hnotin.1 hagree
    simp only [List.takeWhile_cons, hsame, ih hnotin.2]

variable (appData) in
/-- A loop that ends at a blocked removal has done nothing. -/
theorem loopEffect_blocked {status : IOSReturnStatusCode}
    (hblocked : RemovalBlocked fails fs containerPath name) (hstatus : status ≠ .everythingOkay) :
    LoopEffect fails fs appData containerPath (name :: names) (status, fs) := by
  have hnone : attempted fails fs containerPath (name :: names) = [] := by
    simp [attempted, hblocked]
  refine ⟨?_, fun _ _ => rfl, ?_, ?_⟩
  · simp [hblocked, hstatus]
  · simp [hnone]
  · simp [hnone]

/-- The rest of the loop leaves the directory of a round as it is. -/
theorem LoopEffect.entry_eq {result : IOSReturnStatusCode × FileSystem}
    (h : LoopEffect fails fs appData containerPath names result) (hnotin : name ∉ names)
    {q : Path} (hq : containerPath ++ [name] <+: q) : result.2.entry q = fs.entry q := by
  refine h.outside q fun other hother hpre => ?_
  have hne : name ≠ other := fun heq => hnotin (heq ▸ (List.takeWhile_sublist _).subset hother)
  have hapart := PathStore.apart_of_ne containerPath hne
  exact (List.prefix_or_prefix_of_prefix hq hpre).elim hapart.1 hapart.2

/-- A round, and then the rest of the loop. -/
theorem LoopEffect.round {next : FileSystem} {result : IOSReturnStatusCode × FileSystem}
    (hnotin : name ∉ names) (hcontainer : fs.IsDirectory containerPath)
    (hblocked : ¬ RemovalBlocked fails fs containerPath name)
    (hnext : uploadRound fails fs (appData ++ [name]) (containerPath ++ [name]) = some next)
    (hrest : LoopEffect fails next appData containerPath names result) :
    LoopEffect fails fs appData containerPath (name :: names) result := by
  have hagree := agreeOutside_uploadRound hnext
  have hattempted : attempted fails fs containerPath (name :: names) =
      name :: attempted fails next containerPath names := by
    rw [attempted_of_agreeOutside hnotin hagree]
    simp [attempted, hblocked]
  refine ⟨?_, ?_, ?_, ?_⟩
  · rw [hrest.status, List.forall_mem_cons]
    simp only [hblocked, not_false_eq_true, true_and]
    exact forall₂_congr fun other hother => not_congr
      (removalBlocked_of_agreeOutside fails (fun e : name = other => hnotin (e ▸ hother)) hagree)
  · intro q hq
    rw [hattempted, List.forall_mem_cons] at hq
    exact (hrest.outside q hq.2).trans (hagree q hq.1)
  · rw [hattempted, List.forall_mem_cons, List.forall_mem_cons]
    rintro ⟨⟨hworks, hsource⟩, hothers⟩
    -- the sources of the others lie apart from the target of this round
    have hkept : ∀ other ∈ attempted fails next containerPath names,
        next.subtree (appData ++ [other]) = fs.subtree (appData ++ [other]) := by
      intro other hother
      have hne : name ≠ other := fun heq => hnotin (heq ▸ (List.takeWhile_sublist _).subset hother)
      have hapart := apart_of_copyWorks hne hworks (hothers other hother).1
      exact hagree.subtree_eq ⟨hapart.2, hapart.1⟩
    constructor
    · rw [← subtree_uploadRound hsource hcontainer hworks hnext]
      funext below
      exact hrest.entry_eq hnotin (List.prefix_append _ below)
    · intro other hother
      rw [hrest.copies (fun o ho => ⟨(hothers o ho).1, ?_⟩) other hother, hkept other hother]
      have hentry := congrFun (hkept o ho) []
      simp only [PathStore.subtree, List.append_nil] at hentry
      rw [PathStore.Exists, hentry]
      exact (hothers o ho).2
  · rw [hattempted, List.forall_mem_cons]
    refine ⟨fun hworks => ?_, hrest.gone⟩
    rw [PathStore.Exists, hrest.entry_eq hnotin (List.prefix_refl _)]
    exact not_exists_uploadRound hworks hnext

variable (fails appData) in
/-- **The upload loop.** By induction on the data directories still to be replaced. -/
theorem uploadLoop_effect (hnd : names.Nodup) (hcontainer : fs.IsDirectory containerPath) :
    LoopEffect fails fs appData containerPath names
      (uploadLoop fails (names.map fun name =>
        (appData ++ [name], containerPath ++ [name])) fs) := by
  induction names generalizing fs with
  | nil => exact ⟨by simp [uploadLoop], fun _ _ => rfl, by simp [attempted], by simp [attempted]⟩
  | cons name names ih =>
    obtain ⟨hnotin, hnd⟩ := List.nodup_cons.mp hnd
    rw [List.map_cons, uploadLoop]
    by_cases hblocked : RemovalBlocked fails fs containerPath name
    · rw [(uploadRound_eq_none_iff (appData ++ [name])).mpr hblocked]
      exact loopEffect_blocked appData hblocked (by decide)
    · obtain ⟨next, hnext⟩ := Option.ne_none_iff_exists'.mp
        (mt (uploadRound_eq_none_iff (appData ++ [name])).mp hblocked)
      have hdirectory : next.IsDirectory containerPath :=
        (agreeOutside_uploadRound hnext _
          (PathStore.not_prefix_of_append_singleton containerPath name)).trans hcontainer
      rw [hnext]
      exact (ih hnd hdirectory).round hnotin hcontainer hblocked hnext

/-! ## What the status says -/

/-- What an upload of the bundle at `xcappdata` to a container is to do: report success exactly when
the data directories of the container are then copies of those of the bundle, and leave everything
else alone. -/
structure ReplacesData (fs : FileSystem) (xcappdata containerPath : Path)
    (result : IOSReturnStatusCode × FileSystem) : Prop where
  status : result.1 = .everythingOkay ↔ ∀ name ∈ dataDirectories,
    result.2.subtree (containerPath ++ [name]) = fs.subtree (xcappdata ++ ["AppData", name])
  outside : ∀ q, (∀ name ∈ dataDirectories, ¬ containerPath ++ [name] <+: q) →
    result.2.entry q = fs.entry q

/-- Without a removal that fails, all copies have to work. -/
def AllCopied (fails : FailurePattern) (fs : FileSystem) (xcappdata containerPath : Path) : Prop :=
  (∀ name ∈ dataDirectories, ¬ RemovalBlocked fails fs containerPath name) →
    ∀ name ∈ dataDirectories, CopyWorks fails (xcappdata ++ ["AppData"]) containerPath name

/-- After a removal that fails, the data must not happen to be the bundle's: the directories before
it by their copies, and those from it on because they were. -/
def NotAllCopies (fails : FailurePattern) (fs : FileSystem) (xcappdata containerPath : Path) :
    Prop :=
  (∃ name ∈ dataDirectories, RemovalBlocked fails fs containerPath name) →
    ¬ ∀ name ∈ dataDirectories,
      (name ∈ attempted fails fs containerPath dataDirectories →
        CopyWorks fails (xcappdata ++ ["AppData"]) containerPath name) ∧
      (name ∉ attempted fails fs containerPath dataDirectories →
        fs.subtree (containerPath ++ [name]) = fs.subtree (xcappdata ++ ["AppData", name]))

/-- After the loop the data directories are the bundle's exactly when the attempted copies work and
the other directories were copies before. -/
theorem all_copies_iff {result : IOSReturnStatusCode × FileSystem}
    (heffect : LoopEffect fails fs appData containerPath names result)
    (hsources : ∀ name ∈ names, fs.Exists (appData ++ [name])) :
    (∀ name ∈ names,
        result.2.subtree (containerPath ++ [name]) = fs.subtree (appData ++ [name])) ↔
      ∀ name ∈ names,
        (name ∈ attempted fails fs containerPath names →
          CopyWorks fails appData containerPath name) ∧
        (name ∉ attempted fails fs containerPath names →
          fs.subtree (containerPath ++ [name]) = fs.subtree (appData ++ [name])) := by
  have hsub : ∀ name ∈ attempted fails fs containerPath names, name ∈ names :=
    fun name hname => (List.takeWhile_sublist _).subset hname
  -- a directory that was not attempted stays
  have hstays : ∀ name ∉ attempted fails fs containerPath names,
      result.2.subtree (containerPath ++ [name]) = fs.subtree (containerPath ++ [name]) := by
    intro name hname
    funext below
    refine heffect.outside _ fun other hother hpre => ?_
    have hapart := PathStore.apart_of_ne containerPath
      (ne_of_mem_of_not_mem hother hname : other ≠ name)
    exact (List.prefix_or_prefix_of_prefix hpre (List.prefix_append _ below)).elim
      hapart.1 hapart.2
  constructor
  · intro hall name hname
    refine ⟨fun hattempted => ?_, fun hnot => (hstays name hnot).symm.trans (hall name hname)⟩
    by_contra hworks
    have hgone := heffect.gone name hattempted hworks
    have hentry := congrFun (hall name hname) []
    simp only [PathStore.subtree, List.append_nil] at hentry
    rw [PathStore.Exists, hentry] at hgone
    exact hgone (hsources name hname)
  · intro hall name hname
    by_cases hattempted : name ∈ attempted fails fs containerPath names
    · exact heffect.copies (fun other hother => ⟨(hall other (hsub other hother)).1 hother,
        hsources other (hsub other hother)⟩) name hattempted
    · rw [hstays name hattempted]
      exact (hall name hname).2 hattempted

/-- **When the status of an upload is true.** For a valid bundle and an app with a container: the
upload reports success exactly when the data was replaced, and never touches anything else, exactly
in these cases. No removal of an existing directory fails, no copy fails and each source is apart
from its target; or a removal fails, and the data directories are not copies of the bundle's for
other reasons. -/
theorem upload_iff {host : ContainerHost} {uuid bundleIdentifier : String} {xcappdata : Path}
    (hvalid : isValid fs xcappdata = true)
    (hcontainer : containerPathForApplication host fs uuid bundleIdentifier = some containerPath) :
    ReplacesData fs xcappdata containerPath
        (uploadXCAppDataBundleForApplication host fails fs uuid xcappdata bundleIdentifier) ↔
      AllCopied fails fs xcappdata containerPath ∧
        NotAllCopies fails fs xcappdata containerPath := by
  have heffect := uploadLoop_effect fails (xcappdata ++ ["AppData"])
    (show dataDirectories.Nodup by decide) (isDirectory_containerPath hcontainer)
  have hrun : uploadXCAppDataBundleForApplication host fails fs uuid xcappdata bundleIdentifier =
      uploadLoop fails (dataDirectories.map fun name =>
        (xcappdata ++ ["AppData"] ++ [name], containerPath ++ [name])) fs := by
    rw [uploadXCAppDataBundleForApplication, if_neg (by simp [hvalid]), hcontainer]
    rfl
  rw [← hrun] at heffect
  generalize uploadXCAppDataBundleForApplication host fails fs uuid xcappdata bundleIdentifier =
    result at heffect
  have hsources : ∀ name ∈ dataDirectories, fs.Exists (xcappdata ++ ["AppData"] ++ [name]) := by
    intro name hname
    have hmem : ["AppData", name] ∈ requiredDirectories := by
      revert name
      decide
    simpa using (((isValid_iff fs xcappdata).mp hvalid).2 _ hmem).exists
  have hcopies := all_copies_iff heffect hsources
  simp only [List.append_assoc, List.cons_append, List.nil_append] at hcopies
  have houtside : ∀ q, (∀ name ∈ dataDirectories, ¬ containerPath ++ [name] <+: q) →
      result.2.entry q = fs.entry q := fun q hq => heffect.outside q fun name hname =>
    hq name ((List.takeWhile_sublist _).subset hname)
  have hlaw : ReplacesData fs xcappdata containerPath result ↔
      (result.1 = .everythingOkay ↔ ∀ name ∈ dataDirectories,
        result.2.subtree (containerPath ++ [name]) = fs.subtree (xcappdata ++ ["AppData", name])) :=
    ⟨fun h => h.status, fun h => ⟨h, houtside⟩⟩
  rw [hlaw, heffect.status, hcopies, AllCopied, NotAllCopies]
  by_cases hblocked : ∃ name ∈ dataDirectories, RemovalBlocked fails fs containerPath name
  · have hnot : ¬ ∀ name ∈ dataDirectories, ¬ RemovalBlocked fails fs containerPath name := by
      push Not
      exact hblocked
    simp only [hnot, hblocked, false_iff, false_implies, true_and, true_implies]
  · have hnone : ∀ name ∈ dataDirectories, ¬ RemovalBlocked fails fs containerPath name := by
      push Not at hblocked
      exact hblocked
    -- every directory is attempted
    have hattempted : attempted fails fs containerPath dataDirectories = dataDirectories := by
      rw [attempted, List.takeWhile_eq_self_iff]
      simpa using hnone
    rw [iff_true_left hnone, imp_iff_right hnone, hattempted]
    simp only [hblocked, false_implies, and_true]
    refine forall₂_congr fun name hname => ?_
    rw [imp_iff_right hname]
    exact and_iff_left fun hnot => absurd hname hnot

end

/-! ### A full disk -/

/-- The simulator with one app, and a skeleton of a bundle in another directory. -/
def uploadFileSystem : FileSystem :=
  ((sampleFileSystem.create ["tmp", "new.xcappdata", "AppData", "Documents"]).create
    ["tmp", "new.xcappdata", "AppData", "tmp"]).create
      ["tmp", "new.xcappdata", "AppData", "Library", "Preferences"]

/-- Every copy fails. -/
def fullDisk : FailurePattern
  | .copyItem _ _ => true
  | _ => false

/-- Where nothing fails, the status is true. -/
theorem upload_iff_noFailure :
    ReplacesData uploadFileSystem ["tmp", "new.xcappdata"] sampleContainer
      (uploadXCAppDataBundleForApplication sampleHost noFailure uploadFileSystem "5C2D"
        ["tmp", "new.xcappdata"] "com.my.app") := by
  have hapart : PathStore.Apart ["tmp", "new.xcappdata", "AppData"] sampleContainer :=
    ⟨by decide +kernel, by decide +kernel⟩
  refine (upload_iff (by decide +kernel) (by decide +kernel)).mpr ⟨?_, ?_⟩
  · exact fun _ name _ => ⟨rfl, hapart.append [name] [name]⟩
  · rintro ⟨name, -, -, hfails⟩
    cases hfails

/-- **A success without the data.** Where every copy fails, the upload removes the documents of the
app, copies nothing and reports success. -/
theorem upload_succeeds_fullDisk :
    isValid uploadFileSystem ["tmp", "new.xcappdata"] = true ∧
      containerPathForApplication sampleHost uploadFileSystem "5C2D" "com.my.app" =
        some sampleContainer ∧
      (uploadXCAppDataBundleForApplication sampleHost fullDisk uploadFileSystem "5C2D"
        ["tmp", "new.xcappdata"] "com.my.app").1 = .everythingOkay ∧
      ¬ (uploadXCAppDataBundleForApplication sampleHost fullDisk uploadFileSystem "5C2D"
        ["tmp", "new.xcappdata"] "com.my.app").2.Exists (sampleContainer ++ ["Documents"]) ∧
      ¬ ReplacesData uploadFileSystem ["tmp", "new.xcappdata"] sampleContainer
        (uploadXCAppDataBundleForApplication sampleHost fullDisk uploadFileSystem "5C2D"
          ["tmp", "new.xcappdata"] "com.my.app") := by
  have hstatus : (uploadXCAppDataBundleForApplication sampleHost fullDisk uploadFileSystem "5C2D"
      ["tmp", "new.xcappdata"] "com.my.app").1 = .everythingOkay := by decide +kernel
  have hgone : ¬ (uploadXCAppDataBundleForApplication sampleHost fullDisk uploadFileSystem "5C2D"
      ["tmp", "new.xcappdata"] "com.my.app").2.Exists (sampleContainer ++ ["Documents"]) := by
    decide +kernel
  have hsource : uploadFileSystem.Exists (["tmp", "new.xcappdata"] ++ ["AppData", "Documents"]) :=
    by decide +kernel
  refine ⟨by decide +kernel, by decide +kernel, hstatus, hgone, fun h => hgone ?_⟩
  have hcopy := congrFun (h.status.mp hstatus "Documents" (by decide)) []
  simp only [PathStore.subtree, List.append_nil] at hcopy
  rwa [PathStore.Exists, hcopy]

end Simulator

end IOSDeviceManager
