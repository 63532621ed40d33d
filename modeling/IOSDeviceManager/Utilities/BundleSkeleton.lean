import IOSDeviceManager.Foundation.FileOperation
import IOSDeviceManager.Utilities.XCAppDataBundle

/-! # `generateBundleSkeleton:name:overwrite:`

The skeleton of an `.xcappdata` bundle is made in several steps, each of which can fail: the parent,
the removal of an old bundle, the bundle, its subdirectories and, last, the check of the result,
which includes the name. Nothing undoes the removal, so what the old bundle held is lost when a
later step fails, and exactly then. The reports on the console are left out. -/

namespace IOSDeviceManager

open General

namespace XCAppDataBundle

/-- The directories of a skeleton, relative to the bundle, in the order in which they are made. -/
def skeletonDirectories : List Path :=
  [["AppData", "Documents"], ["AppData", "tmp"], ["AppData", "Library", "Preferences"]]

/-- The loop that makes the subdirectories, `false` when one could not be made. -/
def createDirectories (fails : FailurePattern) : List Path → FileSystem → Bool × FileSystem
  | [], fs => (true, fs)
  | directory :: directories, fs =>
      match fails.createDirectoryAtPath fs directory with
      | none => (false, fs)
      | some fs => createDirectories fails directories fs

/-- The steps of `generateBundleSkeleton:name:overwrite:` from the creation of the bundle on. -/
def createBundle (fails : FailurePattern) (fs : FileSystem) (bundle : Path) :
    Option Path × FileSystem :=
  match fails.createDirectoryAtPath fs bundle with
  | none => (none, fs)
  | some fs =>
      match createDirectories fails (skeletonDirectories.map (bundle ++ ·)) fs with
      | (false, fs) => (none, fs)
      | (true, fs) => if isValid fs bundle then (some bundle, fs) else (none, fs)

/-- `generateBundleSkeleton:name:overwrite:`. -/
def generateBundleSkeleton (fails : FailurePattern) (fs : FileSystem) (path : Path) (name : String)
    (overwrite : Bool) : Option Path × FileSystem :=
  let parent :=
    if NSFileManager.isDirectoryAtPath fs path then some fs
    else fails.createDirectoryAtPath fs path
  match parent with
  | none => (none, fs)
  | some fs =>
      let bundle := path ++ [name]
      if NSFileManager.isDirectoryAtPath fs bundle then
        if overwrite then
          match fails.removeItemAtPath fs bundle with
          | none => (none, fs)
          | some fs => createBundle fails fs bundle
        else (none, fs)
      else createBundle fails fs bundle

/-! ## What is made before a failure -/

/-- Whether all of the directories are made below a bundle that holds `made`, and what it holds
then. -/
def madeDirectories (fails : FailurePattern) (bundle : Path) :
    List Path → List Path → Bool × List Path
  | [], made => (true, made)
  | directory :: directories, made =>
      if fails (.createDirectory (bundle ++ directory)) then (false, made)
      else madeDirectories fails bundle directories (made ++ directory.inits)

/-- Whether a skeleton is completed where there is no bundle, and what the bundle holds in the end:
nothing, not even itself, when it could not be made. -/
def madeSkeleton (fails : FailurePattern) (bundle : Path) : Bool × List Path :=
  if fails (.createDirectory bundle) then (false, [])
  else
    let made := madeDirectories fails bundle skeletonDirectories [[]]
    (made.1 && hasCorrectExtension bundle, made.2)

section

variable {fails : FailurePattern} {fs fs' : FileSystem} {bundle : Path}

/-- Making a directory below a bundle of directories adds it and what lies on the way. -/
theorem holdsExactly_create {made : List Path} (hholds : fs.HoldsExactly bundle made)
    (directory : Path) : (fs.create (bundle ++ directory)).HoldsExactly bundle
      (made ++ directory.inits) := by
  constructor
  · intro below hbelow
    rw [List.mem_append, List.mem_inits, ← List.prefix_append_right_inj bundle] at hbelow
    rw [PathStore.IsDirectory, PathStore.entry_create]
    split
    · rfl
    · rename_i hnot
      exact hholds.directory below (hbelow.resolve_right hnot)
  · intro below hbelow
    rw [List.mem_append, List.mem_inits, not_or, ← List.prefix_append_right_inj bundle] at hbelow
    rw [PathStore.Exists, PathStore.entry_create, if_neg hbelow.2]
    exact hholds.nothing below hbelow.1

/-- Below a bundle of directories, directories can be made. -/
theorem canCreate_of_holdsExactly {made : List Path} (hholds : fs.HoldsExactly bundle made)
    (hself : [] ∈ made) (directory : Path) : fs.CanCreate (bundle ++ directory) := by
  have hbundle : fs.IsDirectory bundle := by simpa using hholds.directory [] hself
  refine PathStore.canCreate_append hbundle fun q _ hexists => ?_
  by_contra hnot
  exact hholds.nothing q (fun hmade => hnot (hholds.directory q hmade)) hexists

/-- Making directories below the bundle changes nothing outside. -/
theorem agreeOutside_create (hbundle : fs.IsDirectory bundle) (directory : Path) :
    PathStore.AgreeOutside bundle fs (fs.create (bundle ++ directory)) := by
  intro q hq
  rw [PathStore.entry_create]
  split
  · rename_i hpre
    rcases List.prefix_or_prefix_of_prefix hpre (List.prefix_append bundle directory) with
      habove | hbelow
    · exact (hbundle.of_prefix habove).symm
    · exact absurd hbelow hq
  · rfl

variable (fails) in
/-- **The loop.** Below a bundle of directories the loop makes what the failure pattern lets it. -/
theorem createDirectories_spec (directories : List Path) {made : List Path}
    (hholds : fs.HoldsExactly bundle made) (hself : [] ∈ made) :
    ∃ fs', createDirectories fails (directories.map (bundle ++ ·)) fs =
        ((madeDirectories fails bundle directories made).1, fs') ∧
      fs'.HoldsExactly bundle (madeDirectories fails bundle directories made).2 ∧
      PathStore.AgreeOutside bundle fs fs' := by
  induction directories generalizing fs made with
  | nil => exact ⟨fs, rfl, hholds, fun _ _ => rfl⟩
  | cons directory directories ih =>
    rw [List.map_cons, createDirectories, madeDirectories]
    by_cases hfails : fails (.createDirectory (bundle ++ directory)) = true
    · have hnone : fails.createDirectoryAtPath fs (bundle ++ directory) = none := by
        rw [FailurePattern.createDirectoryAtPath, if_pos hfails]
      simp only [hnone, hfails, if_true]
      exact ⟨fs, rfl, hholds, fun _ _ => rfl⟩
    · have hcan := canCreate_of_holdsExactly hholds hself directory
      have hsome : fails.createDirectoryAtPath fs (bundle ++ directory) =
          some (fs.create (bundle ++ directory)) :=
        FailurePattern.createDirectoryAtPath_eq_some_iff.mpr ⟨by simpa using hfails, hcan, rfl⟩
      have hbundle : fs.IsDirectory bundle := by simpa using hholds.directory [] hself
      obtain ⟨fs', hrun, hfinal, hagree⟩ := ih (holdsExactly_create hholds directory)
        (List.mem_append_left _ hself)
      simp only [hsome, hfails]
      exact ⟨fs', hrun, hfinal, (agreeOutside_create hbundle directory).trans hagree⟩

variable (fails) in
/-- The loop keeps what there is. -/
theorem keeps_createDirectories (directories : List Path) (fs : FileSystem) :
    PathStore.Keeps fs (createDirectories fails directories fs).2 := by
  induction directories generalizing fs with
  | nil => exact PathStore.Keeps.refl fs
  | cons directory directories ih =>
    rw [createDirectories]
    split
    · exact PathStore.Keeps.refl fs
    · rename_i hcreate
      exact (FailurePattern.keeps_createDirectoryAtPath hcreate).trans (ih _)

/-! ## From the creation of the bundle on -/

/-- Where there is nothing, a new directory is all there is. -/
theorem holdsExactly_create_self (hnone : ¬ fs.Exists bundle) :
    (fs.create bundle).HoldsExactly bundle [[]] := by
  constructor
  · intro below hbelow
    obtain rfl := List.mem_singleton.mp hbelow
    simp [PathStore.IsDirectory, PathStore.entry_create]
  · intro below hbelow
    have hne : below ≠ [] := by simpa using hbelow
    have hpre : ¬ bundle ++ below <+: bundle := by
      intro hpre
      have hle := hpre.length_le
      rw [List.length_append] at hle
      exact hne (List.length_eq_zero_iff.mp (by omega))
    rw [PathStore.Exists, PathStore.entry_create, if_neg hpre]
    exact PathStore.not_exists_append (fun hdir => hnone hdir.exists) hne

/-- When all directories are made, the bundle holds them and what lies on the way. -/
theorem madeDirectories_of_done {directories made : List Path}
    (hdone : (madeDirectories fails bundle directories made).1 = true) :
    (madeDirectories fails bundle directories made).2 =
      made ++ directories.flatMap List.inits := by
  induction directories generalizing made with
  | nil => simp [madeDirectories]
  | cons directory directories ih =>
    rw [madeDirectories] at hdone ⊢
    split at hdone
    · cases hdone
    · rename_i hfails
      rw [if_neg hfails, ih hdone, List.flatMap_cons, List.append_assoc]

/-- All the directories of a skeleton are the required ones. -/
theorem mem_skeleton_iff (below : Path) :
    below ∈ [[]] ++ skeletonDirectories.flatMap List.inits ↔ below ∈ requiredDirectories := by
  have hsub : ∀ below ∈ [[]] ++ skeletonDirectories.flatMap List.inits,
      below ∈ requiredDirectories := by decide
  have hsup : ∀ below ∈ requiredDirectories,
      below ∈ [[]] ++ skeletonDirectories.flatMap List.inits := by decide
  exact ⟨hsub below, hsup below⟩

/-- A file at the path of the bundle stays. -/
theorem createBundle_of_file (hexists : fs.Exists bundle) (hnotdir : ¬ fs.IsDirectory bundle) :
    createBundle fails fs bundle = (none, fs) := by
  have hnone : fails.createDirectoryAtPath fs bundle = none := by
    rw [Option.eq_none_iff_forall_ne_some]
    intro fs' hsome
    obtain ⟨-, hcan, -⟩ := FailurePattern.createDirectoryAtPath_eq_some_iff.mp hsome
    exact hnotdir (hcan bundle (List.prefix_refl _) hexists)
  simp [createBundle, hnone]

variable (fails) in
/-- **The new bundle.** Where there is nothing in a directory, the bundle is completed, or holds
what was made before the failure. -/
theorem createBundle_spec {path : Path} {name : String} (hparent : fs.IsDirectory path)
    (hnone : ¬ fs.Exists (path ++ [name])) :
    ∃ fs', createBundle fails fs (path ++ [name]) =
        (if (madeSkeleton fails (path ++ [name])).1 then some (path ++ [name]) else none, fs') ∧
      fs'.HoldsExactly (path ++ [name]) (madeSkeleton fails (path ++ [name])).2 ∧
      PathStore.AgreeOutside (path ++ [name]) fs fs' := by
  generalize hbundle : path ++ [name] = bundle at hnone ⊢
  unfold createBundle madeSkeleton
  by_cases hfails : fails (.createDirectory bundle) = true
  · have hfail : fails.createDirectoryAtPath fs bundle = none := by
      rw [FailurePattern.createDirectoryAtPath, if_pos hfails]
    simp only [hfail, hfails, if_true]
    refine ⟨fs, rfl, ⟨by simp, fun below _ => ?_⟩, fun _ _ => rfl⟩
    by_cases hne : below = []
    · simpa [hne] using hnone
    · exact PathStore.not_exists_append (fun hdir => hnone hdir.exists) hne
  · have hcan : fs.CanCreate bundle := by
      rw [← hbundle] at hnone ⊢
      refine PathStore.canCreate_append hparent fun q hq hexists => ?_
      rcases List.prefix_concat_iff.mp (show q <+: [] ++ [name] from hq) with rfl | hnil
      · exact absurd hexists hnone
      · rw [List.prefix_nil.mp hnil, List.append_nil]
        exact hparent
    have hsome : fails.createDirectoryAtPath fs bundle = some (fs.create bundle) :=
      FailurePattern.createDirectoryAtPath_eq_some_iff.mpr ⟨by simpa using hfails, hcan, rfl⟩
    have hagree : PathStore.AgreeOutside bundle fs (fs.create bundle) := by
      intro q hq
      rw [PathStore.entry_create]
      split
      · rename_i hpre
        -- a proper prefix of the bundle is the parent or lies above it
        rw [← hbundle] at hpre hq
        rcases List.prefix_concat_iff.mp hpre with rfl | habove
        · exact absurd (List.prefix_refl _) hq
        · exact (hparent.of_prefix habove).symm
      · rfl
    obtain ⟨fs', hrun, hholds, hagree'⟩ := createDirectories_spec fails
      skeletonDirectories (holdsExactly_create_self hnone) (List.mem_singleton_self _)
    refine ⟨fs', ?_, by simpa [hfails] using hholds, hagree.trans hagree'⟩
    simp only [hsome, hrun, hfails]
    cases hdone : (madeDirectories fails bundle skeletonDirectories [[]]).1 with
    | false => simp
    | true =>
      rw [madeDirectories_of_done hdone] at hholds
      have hvalid : isValid fs' bundle = hasCorrectExtension bundle := by
        rw [Bool.eq_iff_iff, isValid_iff, and_iff_left_iff_imp]
        exact fun _ below hbelow => hholds.directory below ((mem_skeleton_iff below).mpr hbelow)
      simp only [hvalid]
      cases hasCorrectExtension bundle <;> rfl

variable (fails) in
/-- From the creation of the bundle on, everything that is there stays. -/
theorem keeps_createBundle (fs : FileSystem) (bundle : Path) :
    PathStore.Keeps fs (createBundle fails fs bundle).2 := by
  unfold createBundle
  split
  · exact PathStore.Keeps.refl fs
  · rename_i created hcreate
    have hkeeps := (FailurePattern.keeps_createDirectoryAtPath hcreate).trans
      (keeps_createDirectories fails (skeletonDirectories.map (bundle ++ ·)) created)
    split
    · rename_i hloop
      rwa [hloop] at hkeeps
    · rename_i hloop
      rw [hloop] at hkeeps
      split <;> exact hkeeps

end

/-! ## All or nothing -/

/-- What a call is to leave: the bundle, valid and with nothing but the skeleton in it, or else
everything that was there. -/
structure AllOrNothing (fs : FileSystem) (bundle : Path) (result : Option Path × FileSystem) :
    Prop where
  generated : ∀ path, result.1 = some path → path = bundle ∧ isValid result.2 bundle = true ∧
    result.2.HoldsExactly bundle requiredDirectories
  kept : result.1 = none → PathStore.Keeps fs result.2

/-- An old bundle is removed, the skeleton that is to replace it is not completed, and the old
bundle held something that was not made anew. -/
def LosesOldBundle (fails : FailurePattern) (fs : FileSystem) (bundle : Path) (overwrite : Bool) :
    Prop :=
  fs.IsDirectory bundle ∧ overwrite = true ∧ fails (.removeItem bundle) = false ∧
    (madeSkeleton fails bundle).1 = false ∧
    ∃ below e, fs.entry (bundle ++ below) = some e ∧
      ¬ (e = .directory ∧ below ∈ (madeSkeleton fails bundle).2)

section

variable {fails : FailurePattern} {fs later : FileSystem} {path : Path} {name : String}

/-- A completed skeleton is a valid bundle with nothing but the skeleton in it. -/
theorem generated_of_done (hdone : (madeSkeleton fails path).1 = true)
    (hholds : later.HoldsExactly path (madeSkeleton fails path).2) :
    isValid later path = true ∧ later.HoldsExactly path requiredDirectories := by
  unfold madeSkeleton at hdone hholds
  split at hdone
  · cases hdone
  · rename_i hfails
    obtain ⟨hloop, hext⟩ := (Bool.and_eq_true _ _).mp hdone
    simp only [hfails, madeDirectories_of_done hloop] at hholds
    have hrequired : later.HoldsExactly path requiredDirectories :=
      ⟨fun below hbelow => hholds.directory below ((mem_skeleton_iff below).mpr hbelow),
        fun below hbelow => hholds.nothing below (mt (mem_skeleton_iff below).mp hbelow)⟩
    exact ⟨(isValid_iff later path).mpr ⟨hext, hrequired.directory⟩, hrequired⟩

/-- Where no directory is in the way, the call leaves the bundle or everything. -/
theorem allOrNothing_createBundle (hkeeps : PathStore.Keeps fs later)
    (hparent : later.IsDirectory path) (hnotdir : ¬ later.IsDirectory (path ++ [name])) :
    AllOrNothing fs (path ++ [name]) (createBundle fails later (path ++ [name])) := by
  by_cases hexists : later.Exists (path ++ [name])
  · rw [createBundle_of_file hexists hnotdir]
    exact ⟨by simp, fun _ => hkeeps⟩
  · have hkept := keeps_createBundle fails later (path ++ [name])
    obtain ⟨fs', hrun, hholds, -⟩ := createBundle_spec fails hparent hexists
    rw [hrun] at hkept ⊢
    constructor
    · intro p hp
      simp only [Option.ite_none_right_eq_some] at hp
      obtain ⟨hdone, hp⟩ := hp
      exact ⟨(Option.some.inj hp).symm, generated_of_done hdone hholds⟩
    · exact fun _ => hkeeps.trans hkept

/-- After the removal of an old bundle, the call leaves the new one, or everything exactly if what
the old one held was made anew. -/
theorem allOrNothing_createBundle_remove_iff (hparent : fs.IsDirectory path) :
    AllOrNothing fs (path ++ [name])
        (createBundle fails (fs.remove (path ++ [name])) (path ++ [name])) ↔
      ((madeSkeleton fails (path ++ [name])).1 = false → ∀ below e,
        fs.entry (path ++ [name] ++ below) = some e →
          e = .directory ∧ below ∈ (madeSkeleton fails (path ++ [name])).2) := by
  have hparent' : (fs.remove (path ++ [name])).IsDirectory path := by
    rw [PathStore.IsDirectory, PathStore.entry_remove,
      if_neg (PathStore.not_prefix_of_append_singleton path name)]
    exact hparent
  have hnone : ¬ (fs.remove (path ++ [name])).Exists (path ++ [name]) := by
    simp [PathStore.Exists]
  obtain ⟨fs', hrun, hholds, hagree⟩ := createBundle_spec fails hparent' hnone
  have hagree' := (PathStore.agreeOutside_remove fs (path ++ [name])).trans hagree
  rw [hrun]
  cases hdone : (madeSkeleton fails (path ++ [name])).1 with
  | true =>
    -- A finished skeleton is the promised tree, whatever was there before.
    refine iff_of_true ⟨fun p hp => ?_, by simp⟩ (by simp)
    exact ⟨by simpa using hp.symm, generated_of_done hdone hholds⟩
  | false =>
    constructor
    -- After the removal only what was made again is there, and that are directories.
    · intro h _ below e he
      have hentry := h.kept rfl _ e he
      by_cases hmade : below ∈ (madeSkeleton fails (path ++ [name])).2
      · have hdir := hholds.directory below hmade
        rw [PathStore.IsDirectory, hentry] at hdir
        exact ⟨Option.some.inj hdir, hmade⟩
      · have hnothing := hholds.nothing below hmade
        rw [PathStore.Exists, hentry] at hnothing
        exact absurd rfl hnothing
    · intro h
      refine ⟨by simp, fun _ q e he => ?_⟩
      by_cases hq : path ++ [name] <+: q
      · obtain ⟨below, rfl⟩ := hq
        obtain ⟨rfl, hmade⟩ := h rfl below e he
        exact hholds.directory below hmade
      · rw [← he]
        exact hagree' q hq

/-- **When generating a bundle is all or nothing.** For every file system, failure pattern, name and
overwrite flag: the call returns the bundle, valid and with nothing but the skeleton in it, or
leaves everything that was there, except exactly when it removes an old bundle and then does not
complete the new one, which lacks something that the old one held. -/
theorem generateBundleSkeleton_allOrNothing_iff (fails : FailurePattern) (fs : FileSystem)
    (path : Path) (name : String) (overwrite : Bool) :
    AllOrNothing fs (path ++ [name]) (generateBundleSkeleton fails fs path name overwrite) ↔
      ¬ LosesOldBundle fails fs (path ++ [name]) overwrite := by
  unfold generateBundleSkeleton LosesOldBundle NSFileManager.isDirectoryAtPath
  by_cases hdir : fs.IsDirectory (path ++ [name])
  · have hparent : fs.IsDirectory path := hdir.of_prefix (List.prefix_append path [name])
    simp only [hparent, hdir, decide_true, if_true, true_and]
    cases overwrite with
    | false => exact iff_of_true ⟨by simp, fun _ => PathStore.Keeps.refl fs⟩ (by simp)
    | true =>
      cases hremove : fails.removeItemAtPath fs (path ++ [name]) with
      | none =>
        -- the removal fails only by the pattern
        have hfails : fails (.removeItem (path ++ [name])) = true := by
          by_contra hnot
          have hsome := FailurePattern.removeItemAtPath_eq_some_iff.mpr
            ⟨by simpa using hnot, hdir.exists, rfl⟩
          rw [hremove] at hsome
          cases hsome
        exact iff_of_true ⟨by simp, fun _ => PathStore.Keeps.refl fs⟩ (by simp [hfails])
      | some removed =>
        obtain ⟨hfails, -, rfl⟩ := FailurePattern.removeItemAtPath_eq_some_iff.mp hremove
        simp only [if_true, allOrNothing_createBundle_remove_iff hparent, hfails, true_and]
        push Not
        rfl
  · -- nothing is removed
    refine iff_of_true ?_ fun h => hdir h.1
    by_cases hparent : fs.IsDirectory path
    · simp only [hparent, hdir, decide_true, decide_false, if_true]
      exact allOrNothing_createBundle (PathStore.Keeps.refl fs) hparent hdir
    · simp only [hparent, decide_false]
      cases hcreate : fails.createDirectoryAtPath fs path with
      | none => exact ⟨by simp, fun _ => PathStore.Keeps.refl fs⟩
      | some created =>
        have hkeeps := FailurePattern.keeps_createDirectoryAtPath hcreate
        obtain ⟨-, -, rfl⟩ := FailurePattern.createDirectoryAtPath_eq_some_iff.mp hcreate
        have hparent' : (fs.create path).IsDirectory path := by
          simp [PathStore.IsDirectory, PathStore.entry_create]
        have hnotdir : ¬ (fs.create path).IsDirectory (path ++ [name]) := by
          rw [PathStore.IsDirectory, PathStore.entry_create,
            if_neg (PathStore.not_prefix_of_append_singleton path name)]
          exact hdir
        simp only [Bool.false_eq_true, if_false, hnotdir, decide_false]
        exact allOrNothing_createBundle hkeeps hparent' hnotdir

end

/-! ### A name without the extension -/

/-- A directory of pictures, with nothing else beside it. -/
def picturesFileSystem : FileSystem :=
  PathStore.empty.create ["tmp", "Pictures", "Holidays"]

/-- **A directory that is lost.** Where a name without the extension is that of a directory, and
nothing fails, the overwriting call returns `nil` and what was in the directory is gone. -/
theorem generateBundleSkeleton_loses_pictures :
    picturesFileSystem.IsDirectory ["tmp", "Pictures", "Holidays"] ∧
      (generateBundleSkeleton noFailure picturesFileSystem ["tmp"] "Pictures" true).1 = none ∧
      ¬ (generateBundleSkeleton noFailure picturesFileSystem ["tmp"] "Pictures" true).2.Exists
        ["tmp", "Pictures", "Holidays"] ∧
      ¬ AllOrNothing picturesFileSystem (["tmp"] ++ ["Pictures"])
        (generateBundleSkeleton noFailure picturesFileSystem ["tmp"] "Pictures" true) := by
  have hdir : picturesFileSystem.IsDirectory ["tmp", "Pictures", "Holidays"] := by decide +kernel
  have hnil : (generateBundleSkeleton noFailure picturesFileSystem ["tmp"] "Pictures" true).1 =
      none := by decide +kernel
  have hgone : ¬ (generateBundleSkeleton noFailure picturesFileSystem ["tmp"] "Pictures"
      true).2.Exists ["tmp", "Pictures", "Holidays"] := by decide +kernel
  refine ⟨hdir, hnil, hgone, fun h => hgone ?_⟩
  rw [PathStore.Exists, h.kept hnil _ _ hdir]
  rfl

end XCAppDataBundle

end IOSDeviceManager
