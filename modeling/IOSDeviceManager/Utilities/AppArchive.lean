import IOSDeviceManager.Foundation.FileOperation
import IOSDeviceManager.Resigning.Codesigner

/-! # `AppUtils`: packing and unpacking an app

An `.ipa` is copied to a temporary directory of its own and unpacked there; a resigned app is packed
from the `Payload` directory that it lies in. What is unpacked is the first `.app` that the listing
of `Payload` gives, so the round trip gives an app back exactly if no other comes before it. -/

namespace IOSDeviceManager

open General

/-- What a `ShellResult` says of a command. -/
structure ShellResult where
  success : Bool
  stderrStr : String
  deriving DecidableEq, Repr

/-- The calls of `ditto`. -/
inductive DittoCall where
  /-- `ditto -ck --sequesterRsrc --keepParent`. -/
  | pack (source archive : Path)
  /-- `ditto -xk --sequesterRsrc`. -/
  | unpack (archive directory : Path)
  deriving DecidableEq, Repr

/-- What the archives are made and read with. -/
structure ArchiveHost where
  /-- `NSTemporaryDirectory()`. -/
  temporaryDirectory : Path
  /-- `contentsOfDirectoryAtPath:error:`, in some order, nothing for what cannot be listed. -/
  contentsOfDirectory : FileSystem → Path → List String
  /-- A call of `ditto` through `xcrun:timeout:`. -/
  ditto : FileSystem → DittoCall → ShellResult × FileSystem

namespace AppUtils

variable (host : ArchiveHost) (fails : FailurePattern)

/-- `copyAppBundleToTmpDir:`; `uuid` is the `globallyUniqueString`. -/
def copyAppBundleToTmpDir (fs : FileSystem) (uuid : String) (bundlePath : Path) :
    Option Path × FileSystem :=
  let tempPath := host.temporaryDirectory ++ [uuid]
  match fails.createDirectoryAtPath fs tempPath with
  | none => (none, fs)
  | some fs =>
      let newBundlePath := tempPath ++ bundlePath.getLast?.toList
      match fails.copyItemAtPath fs bundlePath newBundlePath with
      | none => (none, fs)
      | some fs => (some newBundlePath, fs)

/-- The search at the end of `unzipToTmpDir:`. -/
def bundleInPayload (fs : FileSystem) (payloadPath : Path) : Except NSException Path :=
  match (host.contentsOfDirectory fs payloadPath).find? fun payloadContent =>
      NSString.hasSuffix payloadContent ".app" with
  | some payloadContent => .ok (payloadPath ++ [payloadContent])
  | none => .error (.named "Error unzipping ipa" "Unable to find Payload/ in unzipped ipa")

/-- `unzipToTmpDir:`. Without the copy there is no path to put into the array of the arguments. -/
def unzipToTmpDir (fs : FileSystem) (uuid : String) (ipaPath : Path) :
    Except NSException Path × FileSystem :=
  match copyAppBundleToTmpDir host fails fs uuid ipaPath with
  | (none, fs) => (.error .invalidArgument, fs)
  | (some copiedAppPath, fs) =>
      let unzipPath := copiedAppPath.dropLast
      let result := host.ditto fs (.unpack copiedAppPath unzipPath)
      if !result.1.success then
        (.error (.named "Error unzipping ipa" result.1.stderrStr), result.2)
      else (bundleInPayload host result.2 (unzipPath ++ ["Payload"]), result.2)

/-- `baseDir` of an `Application`, and `baseDirFromAppDir:`. -/
def baseDirFromAppDir (appDir : Path) : Path :=
  let dir := appDir.dropLast
  if Path.lastPathComponent dir = "Payload" then dir.dropLast else dir

/-- `zipApp:to:`. -/
def zipApp (fs : FileSystem) (app outputPath : Path) : Except NSException Unit × FileSystem :=
  let result := host.ditto fs (.pack (baseDirFromAppDir app ++ ["Payload"]) outputPath)
  if !result.1.success then (.error (.named "Error zipping ipa" result.1.stderrStr), result.2)
  else (.ok (), result.2)

/-! ## What is unpacked -/

section

variable {host : ArchiveHost} {fails : FailurePattern} {fs fs' : FileSystem} {uuid : String}
  {path : Path}

/-- Unpacking changes nothing outside the directory it unpacks to, whether it succeeds or not. -/
def UnpacksWithin (host : ArchiveHost) : Prop :=
  ∀ fs archive directory,
    PathStore.AgreeOutside directory fs (host.ditto fs (.unpack archive directory)).2

/-- The listing of a directory names what is in it. -/
def ListsContents (host : ArchiveHost) : Prop :=
  ∀ fs path, ∀ name ∈ host.contentsOfDirectory fs path, fs.Exists (path ++ [name])

/-- An archive with this content holds the tree: wherever it is successfully unpacked to, unless
there is a `Payload` already, the tree is there under that name. -/
def HoldsPayload (host : ArchiveHost) (content : Option (Entry (List UInt8)))
    (tree : Path → Option (Entry (List UInt8))) : Prop :=
  ∀ fs archive directory, fs.entry archive = content → ¬ fs.Exists (directory ++ ["Payload"]) →
    (host.ditto fs (.unpack archive directory)).1.success = true →
      (host.ditto fs (.unpack archive directory)).2.subtree (directory ++ ["Payload"]) = tree

/-- A successful packing, from these files, makes an archive that holds the tree at the source. -/
def PacksPayload (host : ArchiveHost) (fs : FileSystem) : Prop :=
  ∀ source archive, (host.ditto fs (.pack source archive)).1.success = true →
    HoldsPayload host ((host.ditto fs (.pack source archive)).2.entry archive) (fs.subtree source)

/-- The copy is in the temporary directory, and nothing outside that changes. -/
theorem agreeOutside_copyAppBundleToTmpDir (htmp : fs.IsDirectory host.temporaryDirectory)
    (bundlePath : Path) :
    PathStore.AgreeOutside (host.temporaryDirectory ++ [uuid]) fs
      (copyAppBundleToTmpDir host fails fs uuid bundlePath).2 := by
  dsimp only [copyAppBundleToTmpDir]
  cases hcreate : fails.createDirectoryAtPath fs (host.temporaryDirectory ++ [uuid]) with
  | none => exact fun _ _ => rfl
  | some created =>
    obtain ⟨-, -, rfl⟩ := FailurePattern.createDirectoryAtPath_eq_some_iff.mp hcreate
    have hcreated := PathStore.agreeOutside_create htmp uuid []
    rw [List.append_nil] at hcreated
    dsimp only
    split
    · exact hcreated
    · rename_i copied hcopy
      obtain ⟨-, hcan, rfl⟩ := FailurePattern.copyItemAtPath_eq_some_iff.mp hcopy
      intro q hq
      rw [PathStore.agreeOutside_copy _ hcan q fun hpre => hq ((List.prefix_append _ _).trans hpre)]
      exact hcreated q hq

/-- What a successful copy leaves. -/
theorem copyAppBundleToTmpDir_spec {bundlePath copied : Path}
    (h : copyAppBundleToTmpDir host fails fs uuid bundlePath = (some copied, fs')) :
    copied = host.temporaryDirectory ++ [uuid] ++ bundlePath.getLast?.toList ∧
      ∃ hcan : (fs.create (host.temporaryDirectory ++ [uuid])).CanCopy bundlePath copied,
        fs' = (fs.create (host.temporaryDirectory ++ [uuid])).copy bundlePath copied hcan := by
  dsimp only [copyAppBundleToTmpDir] at h
  cases hcreate : fails.createDirectoryAtPath fs (host.temporaryDirectory ++ [uuid]) with
  | none => simp [hcreate] at h
  | some created =>
    obtain ⟨-, -, rfl⟩ := FailurePattern.createDirectoryAtPath_eq_some_iff.mp hcreate
    rw [hcreate] at h
    dsimp only at h
    split at h
    · cases h
    · rename_i result hcopy
      obtain ⟨-, hcan, rfl⟩ := FailurePattern.copyItemAtPath_eq_some_iff.mp hcopy
      simp only [Prod.mk.injEq, Option.some.injEq] at h
      obtain ⟨rfl, rfl⟩ := h
      exact ⟨rfl, hcan, rfl⟩

/-- The copy lies in the directory that was made for it. -/
theorem dropLast_copyAppBundleToTmpDir {bundlePath copied : Path} (hne : bundlePath ≠ [])
    (h : copyAppBundleToTmpDir host fails fs uuid bundlePath = (some copied, fs')) :
    copied.dropLast = host.temporaryDirectory ++ [uuid] := by
  obtain ⟨rfl, -⟩ := copyAppBundleToTmpDir_spec h
  rw [List.getLast?_eq_some_getLast hne, Option.toList_some, List.dropLast_concat]

/-- **Unpacking touches nothing but its temporary directory**, whichever step fails. -/
theorem agreeOutside_unzipToTmpDir (hunpacks : UnpacksWithin host)
    (htmp : fs.IsDirectory host.temporaryDirectory) {ipaPath : Path} (hne : ipaPath ≠ []) :
    PathStore.AgreeOutside (host.temporaryDirectory ++ [uuid]) fs
      (unzipToTmpDir host fails fs uuid ipaPath).2 := by
  have hcopied : ∀ bundlePath, PathStore.AgreeOutside (host.temporaryDirectory ++ [uuid]) fs
      (copyAppBundleToTmpDir host fails fs uuid bundlePath).2 :=
    agreeOutside_copyAppBundleToTmpDir htmp
  have hself := hcopied ipaPath
  unfold unzipToTmpDir
  split
  · rename_i fs' hcopy
    rwa [hcopy] at hself
  · rename_i copied fs' hcopy
    rw [hcopy] at hself
    have hunpacked := hself.trans
      (hunpacks fs' copied (host.temporaryDirectory ++ [uuid]))
    dsimp only
    rw [dropLast_copyAppBundleToTmpDir hne hcopy]
    split <;> exact hunpacked

/-- What a successful unpacking has done, step by step. -/
theorem unzipToTmpDir_eq_ok {ipaPath bundle : Path} (hne : ipaPath ≠ [])
    (h : unzipToTmpDir host fails fs uuid ipaPath = (.ok bundle, fs')) :
    ∃ copied fs₁, copyAppBundleToTmpDir host fails fs uuid ipaPath = (some copied, fs₁) ∧
      (host.ditto fs₁ (.unpack copied (host.temporaryDirectory ++ [uuid]))).1.success = true ∧
      fs' = (host.ditto fs₁ (.unpack copied (host.temporaryDirectory ++ [uuid]))).2 ∧
      ∃ name ∈ host.contentsOfDirectory fs' (host.temporaryDirectory ++ [uuid] ++ ["Payload"]),
        NSString.hasSuffix name ".app" = true ∧
        bundle = host.temporaryDirectory ++ [uuid] ++ ["Payload"] ++ [name] := by
  unfold unzipToTmpDir at h
  split at h
  · cases h
  · rename_i copied fs₁ hcopy
    dsimp only at h
    rw [dropLast_copyAppBundleToTmpDir hne hcopy] at h
    split at h
    · cases h
    · rename_i hsuccess
      rw [Prod.mk.injEq] at h
      obtain ⟨hbundle, rfl⟩ := h
      refine ⟨copied, fs₁, hcopy, by simpa using hsuccess, rfl, ?_⟩
      unfold bundleInPayload at hbundle
      split at hbundle
      · rename_i name hfind
        have hsuffix := List.find?_some hfind
        exact ⟨name, List.mem_of_find?_eq_some hfind, hsuffix, (Except.ok.inj hbundle).symm⟩
      · cases hbundle

end

/-! ## The round trip -/

section

variable {host : ArchiveHost} {fails : FailurePattern} {fs fs₁ fs₂ : FileSystem}
  {base outputDir bundle : Path} {appName ipaName uuid : String}

/-- An app in a `Payload` directory has the directory around that as its base. -/
theorem baseDirFromAppDir_payload (base : Path) (appName : String) :
    baseDirFromAppDir (base ++ ["Payload"] ++ [appName]) = base := by
  unfold baseDirFromAppDir
  simp only [List.dropLast_concat, Path.lastPathComponent, List.getLastD_concat, if_true]

/-- The archive is copied to a directory in which there is no `Payload` yet. -/
theorem entry_copyAppBundleToTmpDir {copied : Path}
    (hfresh : ¬ fs.Exists (host.temporaryDirectory ++ [uuid])) (hipa : ipaName ≠ "Payload")
    (h : copyAppBundleToTmpDir host fails fs uuid (outputDir ++ [ipaName]) = (some copied, fs₁)) :
    fs₁.entry copied = fs.entry (outputDir ++ [ipaName]) ∧
      ¬ fs₁.Exists (host.temporaryDirectory ++ [uuid] ++ ["Payload"]) := by
  obtain ⟨hcopied, hcan, rfl⟩ := copyAppBundleToTmpDir_spec h
  have hname : copied = host.temporaryDirectory ++ [uuid] ++ [ipaName] := by
    rw [hcopied, List.getLast?_concat, Option.toList_some]
  constructor
  · have habove : ¬ outputDir ++ [ipaName] <+: host.temporaryDirectory ++ [uuid] := fun hpre =>
      hcan.outside (hpre.trans (hname ▸ List.prefix_append _ _))
    rw [PathStore.entry_copy, if_pos (List.prefix_refl _), List.drop_length, List.append_nil,
      PathStore.entry_create, if_neg habove]
  · have hother : ¬ copied <+: host.temporaryDirectory ++ [uuid] ++ ["Payload"] := by
      rw [hname]
      exact (PathStore.apart_of_ne _ hipa).1
    rw [PathStore.Exists, PathStore.entry_copy, if_neg hother, PathStore.entry_create,
      if_neg (PathStore.not_prefix_of_append_singleton _ _)]
    exact PathStore.not_exists_of_prefix hfresh (List.prefix_append _ _)

/-- A successful packing makes an archive that holds the `Payload` directory of the app. -/
theorem holdsPayload_zipApp {outputPath : Path} (hpacks : PacksPayload host fs)
    (h : zipApp host fs (base ++ ["Payload"] ++ [appName]) outputPath = (.ok (), fs₁)) :
    HoldsPayload host (fs₁.entry outputPath) (fs.subtree (base ++ ["Payload"])) := by
  unfold zipApp at h
  dsimp only at h
  rw [baseDirFromAppDir_payload] at h
  split at h
  · cases h
  · rename_i hpack
    rw [Prod.mk.injEq] at h
    rw [← h.2]
    exact hpacks _ _ (by simpa using hpack)

/-- What an archive holds is in the temporary directory once it is unpacked. -/
theorem subtree_unzipToTmpDir {tree : Path → Option (Entry (List UInt8))}
    (hfresh : ¬ fs.Exists (host.temporaryDirectory ++ [uuid])) (hipa : ipaName ≠ "Payload")
    (hholds : HoldsPayload host (fs.entry (outputDir ++ [ipaName])) tree)
    (h : unzipToTmpDir host fails fs uuid (outputDir ++ [ipaName]) = (.ok bundle, fs₁)) :
    fs₁.subtree (host.temporaryDirectory ++ [uuid] ++ ["Payload"]) = tree := by
  have hne : outputDir ++ [ipaName] ≠ [] := by simp
  obtain ⟨copied, fs', hcopy, hsuccess, hfs₁, -⟩ := unzipToTmpDir_eq_ok hne h
  obtain ⟨hentry, hnothing⟩ := entry_copyAppBundleToTmpDir hfresh hipa hcopy
  rw [hfs₁]
  exact hholds fs' copied _ hentry hnothing hsuccess

end

/-! ### Archives of a few files -/

/-- A list of contents as bytes: each begins with a `1`, each byte of it follows a `1`, and it ends
with a `0`, which alone stands for nothing. -/
def encodeContents : List (Option (List UInt8)) → List UInt8
  | [] => []
  | none :: contents => 0 :: encodeContents contents
  | some content :: contents =>
      1 :: (content.flatMap fun byte => [1, byte]) ++ 0 :: encodeContents contents

/-- The contents, read on from the part of one that is read already. -/
def decodeContents : Option (List UInt8) → List UInt8 → List (Option (List UInt8))
  | _, [] => []
  | none, tag :: bytes =>
      if tag = 0 then none :: decodeContents none bytes else decodeContents (some []) bytes
  | some content, tag :: bytes =>
      if tag = 0 then some content :: decodeContents none bytes
      else
        match bytes with
        | [] => []
        | byte :: bytes => decodeContents (some (content ++ [byte])) bytes
termination_by structural _ bytes => bytes

theorem decodeContents_content (content more bytes : List UInt8) :
    decodeContents (some content) ((more.flatMap fun byte => [1, byte]) ++ 0 :: bytes) =
      some (content ++ more) :: decodeContents none bytes := by
  induction more generalizing content with
  | nil => cases bytes <;> simp [decodeContents]
  | cons byte more ih => simp [decodeContents, ih]

/-- The contents are read back. -/
theorem decodeContents_encodeContents (contents : List (Option (List UInt8))) :
    decodeContents none (encodeContents contents) = contents := by
  induction contents with
  | nil => rfl
  | cons content contents ih =>
    cases content with
    | none => simp [encodeContents, decodeContents, ih]
    | some content =>
      rw [encodeContents, List.cons_append, decodeContents, if_neg (by decide),
        decodeContents_content, ih, List.nil_append]

/-- Some files, and the directories that they lie in. -/
def treeOf (files : List (Path × List UInt8)) : FileSystem where
  entry q :=
    if ∃ file ∈ files, q <+: file.1 ∧ q ≠ file.1 then some .directory
    else (files.find? fun file => file.1 == q).map fun file => .file file.2
  parent path name h := by
    refine if_pos ?_
    split at h
    · rename_i habove
      obtain ⟨file, hfile, hpre, -⟩ := habove
      refine ⟨file, hfile, (List.prefix_append path [name]).trans hpre, ?_⟩
      rintro rfl
      exact PathStore.not_prefix_of_append_singleton _ name hpre
    · rw [Option.isSome_map, List.find?_isSome] at h
      obtain ⟨file, hfile, hpath⟩ := h
      obtain hpath : file.1 = path ++ [name] := by simpa using hpath
      exact ⟨file, hfile, by simp [hpath]⟩

/-- The contents of the files at some paths below a directory. -/
def contentsAt (paths : List Path) (fs : FileSystem) (directory : Path) :
    List (Option (List UInt8)) :=
  paths.map fun path =>
    match fs.entry (directory ++ path) with
    | some (.file content) => some content
    | _ => none

/-- The files at some paths, for their contents. -/
def filesAt (paths : List Path) (contents : List (Option (List UInt8))) :
    List (Path × List UInt8) :=
  (paths.zip contents).filterMap fun file => file.2.map fun content => (file.1, content)

/-- The tree of the files at some paths below a directory. -/
def treeAt (paths : List Path) (fs : FileSystem) (directory : Path) : FileSystem :=
  treeOf (filesAt paths (contentsAt paths fs directory))

/-- Nothing is in a directory but what lies on the way to the paths. -/
def HoldsOnly (paths : List Path) (fs : FileSystem) (directory : Path) : Prop :=
  ∀ below, (∀ path ∈ paths, ¬ below <+: path) → ¬ fs.Exists (directory ++ below)

/-- Nothing is in the tree but what lies on the way to the paths. -/
theorem entry_treeOf_filesAt_eq_none {paths : List Path} (contents : List (Option (List UInt8)))
    {below : Path} (h : ∀ path ∈ paths, ¬ below <+: path) :
    (treeOf (filesAt paths contents)).entry below = none := by
  have hfiles : ∀ file ∈ filesAt paths contents, ¬ below <+: file.1 := by
    intro file hfile
    obtain ⟨⟨path, content⟩, hzip, hsome⟩ := List.mem_filterMap.mp hfile
    obtain ⟨bytes, -, rfl⟩ := Option.map_eq_some_iff.mp hsome
    exact h path (List.of_mem_zip hzip).1
  refine (if_neg ?_).trans ?_
  · rintro ⟨file, hfile, hpre, -⟩
    exact hfiles file hfile hpre
  · rw [Option.map_eq_none_iff, List.find?_eq_none]
    intro file hfile hpath
    exact hfiles file hfile (by simp [eq_of_beq hpath])

/-- A directory that holds nothing else is the tree of the files at the paths, if it is so on the
way to them. -/
theorem subtree_eq_treeAt {paths : List Path} {fs : FileSystem} {directory : Path}
    (honly : HoldsOnly paths fs directory)
    (hpaths : ∀ path ∈ paths, ∀ q ∈ path.inits,
      fs.entry (directory ++ q) = (treeAt paths fs directory).entry q) :
    fs.subtree directory = (treeAt paths fs directory).entry := by
  funext below
  by_cases hbelow : ∀ path ∈ paths, ¬ below <+: path
  · have hnothing : fs.entry (directory ++ below) = none := by
      simpa [PathStore.Exists] using honly below hbelow
    rw [PathStore.subtree, hnothing, treeAt, entry_treeOf_filesAt_eq_none _ hbelow]
  · push Not at hbelow
    obtain ⟨path, hpath, hpre⟩ := hbelow
    exact hpaths path hpath below (List.mem_inits _ _ |>.mpr hpre)

/-- A file is written at a path, if it can be. -/
def writeAt (fs : FileSystem) (path : Path) (content : List UInt8) : Option FileSystem :=
  match path.getLast? with
  | none => none
  | some name =>
      if h : path = path.dropLast ++ [name] ∧ fs.IsDirectory path.dropLast ∧
          ¬ fs.IsDirectory (path.dropLast ++ [name]) then
        some (fs.write path.dropLast name content h.2.1 h.2.2)
      else none

/-- Packing the `Payload` directory writes the contents of its files. -/
def samplePack (payload : Path) (paths : List Path) (fs : FileSystem) (source archive : Path) :
    ShellResult × FileSystem :=
  if source = payload then
    match writeAt fs archive (encodeContents (contentsAt paths fs source)) with
    | some packed => (⟨true, ""⟩, packed)
    | none => (⟨false, "ditto: cannot pack"⟩, fs)
  else (⟨false, "ditto: nothing to pack"⟩, fs)

/-- Unpacking such a file puts the files there. -/
def sampleUnpack (paths : List Path) (fs : FileSystem) (archive directory : Path) :
    ShellResult × FileSystem :=
  match fs.entry archive with
  | some (.file bytes) =>
      if h : fs.IsDirectory directory ∧ ¬ fs.Exists (directory ++ ["Payload"]) then
        (⟨true, ""⟩, fs.graft directory "Payload"
          (treeOf (filesAt paths (decodeContents none bytes))) h.1)
      else (⟨false, "ditto: cannot unpack"⟩, fs)
  | _ => (⟨false, "ditto: no archive"⟩, fs)

/-- Surroundings that pack and unpack the files at some paths. -/
def sampleArchiveHost (payload : Path) (paths : List Path) : ArchiveHost where
  temporaryDirectory := ["tmp"]
  contentsOfDirectory fs path := if fs.Exists (path ++ ["My.app"]) then ["My.app"] else []
  ditto fs
    | .pack source archive => samplePack payload paths fs source archive
    | .unpack archive directory => sampleUnpack paths fs archive directory

section

variable {payload : Path} {paths : List Path} {fs : FileSystem}

/-- The files are put into the directory that is given. -/
theorem unpacksWithin_sample : UnpacksWithin (sampleArchiveHost payload paths) := by
  intro fs archive directory q hq
  change (sampleUnpack paths fs archive directory).2.entry q = fs.entry q
  unfold sampleUnpack
  split
  · split
    · rename_i h
      exact PathStore.agreeOutside_graft h.1 _ _ q fun hpre =>
        hq ((List.prefix_append _ _).trans hpre)
    · rfl
  · rfl

/-- What a file that is written leaves. -/
theorem entry_of_writeAt_eq_some {fs' : FileSystem} {path : Path} {content : List UInt8}
    (h : writeAt fs path content = some fs') (q : Path) :
    fs'.entry q = if q = path then some (.file content) else fs.entry q := by
  unfold writeAt at h
  split at h
  · cases h
  · split at h
    · rename_i hfits
      obtain rfl := Option.some.inj h
      rw [PathStore.entry_write, ← hfits.1]
    · cases h

/-- Nothing else changes. -/
theorem agreeOutside_writeAt {fs' : FileSystem} {path : Path} {content : List UInt8}
    (h : writeAt fs path content = some fs') : PathStore.AgreeOutside path fs fs' := by
  intro q hq
  rw [entry_of_writeAt_eq_some h, if_neg]
  rintro rfl
  exact hq (List.prefix_refl q)

/-- Packing changes the archive only. -/
theorem agreeOutside_samplePack (fs : FileSystem) (source archive : Path) :
    PathStore.AgreeOutside archive fs (samplePack payload paths fs source archive).2 := by
  unfold samplePack
  split
  · split
    · rename_i hpacked
      exact agreeOutside_writeAt hpacked
    · exact fun _ _ => rfl
  · exact fun _ _ => rfl

/-- The listing is of what is there. -/
theorem listsContents_sample : ListsContents (sampleArchiveHost payload paths) := by
  intro fs path name hname
  change name ∈ (if fs.Exists (path ++ ["My.app"]) then ["My.app"] else []) at hname
  split at hname
  · obtain rfl := List.mem_singleton.mp hname
    assumption
  · cases hname

/-- A file of these contents holds the tree that they make. -/
theorem holdsPayload_sample (contents : List (Option (List UInt8))) :
    HoldsPayload (sampleArchiveHost payload paths) (some (.file (encodeContents contents)))
      (treeOf (filesAt paths contents)).entry := by
  intro fs archive directory hentry hnothing hunpack
  change (sampleUnpack paths fs archive directory).1.success = true at hunpack
  change (sampleUnpack paths fs archive directory).2.subtree _ = _
  unfold sampleUnpack at hunpack ⊢
  rw [hentry] at hunpack ⊢
  dsimp only at hunpack ⊢
  split
  · rename_i h
    rw [PathStore.subtree_graft h.1, decodeContents_encodeContents]
  · rename_i h
    rw [dif_neg h] at hunpack
    cases hunpack

/-- A successful packing is one of the `Payload` directory. -/
theorem samplePack_success {source archive : Path}
    (h : (samplePack payload paths fs source archive).1.success = true) :
    source = payload ∧ (samplePack payload paths fs source archive).2.entry archive =
      some (.file (encodeContents (contentsAt paths fs source))) := by
  unfold samplePack at h ⊢
  split at h
  · rename_i hsource
    rw [if_pos hsource]
    cases hpacked : writeAt fs archive (encodeContents (contentsAt paths fs source)) with
    | some packed => exact ⟨hsource, (entry_of_writeAt_eq_some hpacked archive).trans (if_pos rfl)⟩
    | none =>
      rw [hpacked] at h
      cases h
  · cases h

/-- Where nothing else is in the `Payload` directory than the files at the paths, it is what is
packed. -/
theorem packsPayload_sample (h : fs.subtree payload = (treeAt paths fs payload).entry) :
    PacksPayload (sampleArchiveHost payload paths) fs := by
  intro source archive hpack
  obtain ⟨rfl, hentry⟩ := samplePack_success hpack
  rw [h]
  change HoldsPayload _ ((samplePack source paths fs source archive).2.entry archive) _
  rw [hentry]
  exact holdsPayload_sample (contentsAt paths fs source)

end

/-! ### An app that is packed and unpacked -/

/-- The files of a Mac with an app in a `Payload` directory. -/
def payloadFileSystem : FileSystem :=
  (((PathStore.empty.create ["work", "Payload", "My.app"]).create ["tmp"]).create ["out"]).write
    ["work", "Payload", "My.app"] "My" [0xCA, 0xFE] (by decide +kernel) (by decide +kernel)

/-- The surroundings that pack and unpack the app of these files. -/
def payloadHost : ArchiveHost :=
  sampleArchiveHost ["work", "Payload"] [["My.app", "My"]]

/-- The files after the app was packed. -/
def packedFileSystem : FileSystem :=
  (zipApp payloadHost payloadFileSystem ["work", "Payload", "My.app"] ["out", "My.ipa"]).2

theorem subtree_payloadFileSystem :
    payloadFileSystem.subtree ["work", "Payload"] =
      (treeAt [["My.app", "My"]] payloadFileSystem ["work", "Payload"]).entry := by
  refine subtree_eq_treeAt (fun below hbelow => ?_) (by decide +kernel)
  have hbelow := hbelow _ List.mem_cons_self
  have hfile : below ≠ ["My.app", "My"] := fun h => hbelow (h ▸ List.prefix_refl _)
  have happ : ¬ below <+: ["My.app"] := fun h => hbelow (h.trans (List.prefix_append _ ["My"]))
  simp [PathStore.Exists, payloadFileSystem, PathStore.entry_create, PathStore.entry_write,
    PathStore.empty, List.cons_prefix_cons, hfile, happ]

end AppUtils

end IOSDeviceManager
