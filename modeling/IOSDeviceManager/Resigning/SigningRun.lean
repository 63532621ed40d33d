import IOSDeviceManager.Resigning.Codesigner
import IOSDeviceManager.Utilities.FileUtils

/-! # The run of `resignAppDir`

`resignAppDir:baseDir:provisioningProfile:codesignIdentity:resourcesToInject:` as the sequence of
its file writes and `codesign` calls: the writes into the app directory, the objects inside it, the
plugin bundles by recursion, and last the app directory itself. Paths are relative to the base
directory. What `codesign` does to the signatures, with `--deep` also to those inside, is a
parameter; the files it adds are neither objects nor bundles and are left out. -/

namespace IOSDeviceManager

open General

namespace SigningRun

/-- What `codesign --display` says of a path: whether it is signed at all, and the team. -/
structure CodesignInfo where
  codesigned : Bool
  teamIdentifier : Option String

/-- The files below the base directory and their signatures. -/
structure SigningState where
  tree : FileTree
  info : Path → CodesignInfo

/-- A file or directory to inject, and the signatures in it. -/
structure Resource where
  item : FileTree
  info : Path → CodesignInfo

/-- What a run relies on. -/
structure SigningTools where
  environment : SigningEnvironment
  profile : MobileProfile
  /-- What is read of a bundle: its `Info.plist`, its executable and its entitlements. -/
  bundle : SigningState → Path → AppDir
  /-- The signatures after `codesign --force --sign`. -/
  codesign : CodesignIdentity → Path → (Path → CodesignInfo) → Path → CodesignInfo

/-- What is done to a path. -/
inductive Action where
  /-- A file or directory is written. -/
  | write (path : Path)
  /-- A file or directory is removed. -/
  | remove (path : Path)
  /-- `codesign --force --sign`. -/
  | sign (path : Path)
  /-- Nothing: `shouldResign:inAppDir:` says no. -/
  | pass (path : Path)
  deriving DecidableEq, Repr

/-- An action, and the app directories of the calls that are open at that moment, innermost
first. -/
structure Event where
  calls : List Path
  action : Action
  deriving DecidableEq, Repr

/-- Why there is no result. -/
inductive Stop where
  | exception (e : NSException)
  | outOfFuel
  deriving DecidableEq, Repr

/-- The events of a part of a run and the state it leaves. -/
abbrev Result : Type :=
  Except Stop (List Event × SigningState)

/-- The part of a run that may throw. -/
def throwing {α : Type} : Except NSException α → Except Stop α
  | .ok a => .ok a
  | .error e => .error (.exception e)

/-! ## The signatures -/

/-- `isCodesigned:`. -/
def isCodesigned (s : SigningState) (objectPath : Path) : Bool :=
  (s.info objectPath).codesigned

/-- `objectSigningID:`. -/
def objectSigningID (s : SigningState) (object : Path) : Option String :=
  if isCodesigned s object then (s.info object).teamIdentifier else none

/-- `shouldResign:inAppDir:`. -/
def shouldResign (s : SigningState) (objectPath appDir : Path) : Bool :=
  if !isCodesigned s appDir then true
  else if Path.lastPathComponent objectPath = "calabash.dylib" then true
  else
    match objectSigningID s appDir with
    | none => true
    | some appSigningID =>
        objectSigningID s objectPath == some appSigningID || appSigningID == "not set"

/-- `isResignableBundle:`. -/
def isResignableBundle (bundlePath : Path) : Bool :=
  Path.hasSuffix bundlePath ".xctest" || Path.hasSuffix bundlePath ".appex"

/-- A `codesign` call. -/
def codesign (tools : SigningTools) (identity : CodesignIdentity) (path : Path)
    (s : SigningState) : SigningState :=
  { s with info := tools.codesign identity path s.info }

/-! ## The writes -/

/-- `writeToFile:` of a file in a directory. -/
def writeToFile (calls : List Path) (dir : Path) (name reason : String) (s : SigningState) :
    Result :=
  if s.tree.isDirectoryAt dir && !s.tree.isDirectoryAt (dir ++ [name]) then
    .ok ([⟨calls, .write (dir ++ [name])⟩],
      { s with tree := DirectoryTree.update (DirectoryTree.put (.file name)) dir s.tree })
  else .error (.exception (.cbx reason))

/-- `removeItemAtPath:error:` of what is in a directory, if it exists. -/
def removeIfExists (calls : List Path) (dir : Path) (name : String) (s : SigningState) :
    List Event × SigningState :=
  if (s.tree.find (dir ++ [name])).isSome then
    ([⟨calls, .remove (dir ++ [name])⟩],
      { s with tree := DirectoryTree.update (DirectoryTree.erase name) dir s.tree })
  else ([], s)

/-- The copy of a resource into the app directory. -/
def copyResource (calls : List Path) (appDir : Path) (resource : Resource) (s : SigningState) :
    List Event × SigningState :=
  let targetFile := appDir ++ [resource.item.name]
  ((targetFile :: resource.item.entries targetFile).map fun path => ⟨calls, .write path⟩,
    { tree := DirectoryTree.update (DirectoryTree.put resource.item) appDir s.tree
      info := fun path =>
        if targetFile <+: path then resource.info (path.drop targetFile.length)
        else s.info path })

/-- One round of `injectResources:intoAppDir:codesignIdentity:baseDir:`. -/
def injectResource (tools : SigningTools) (identity : CodesignIdentity) (calls : List Path)
    (appDir : Path) (resource : Resource) (s : SigningState) : List Event × SigningState :=
  let targetFile := appDir ++ [resource.item.name]
  let removed := removeIfExists calls appDir resource.item.name s
  let copied := copyResource calls appDir resource removed.2
  if FileUtils.isDylibOrFramework targetFile then
    (removed.1 ++ copied.1 ++ [⟨calls, .sign targetFile⟩],
      codesign tools identity targetFile copied.2)
  else (removed.1 ++ copied.1, copied.2)

/-- `injectResources:intoAppDir:codesignIdentity:baseDir:`, for the paths of the resources with what
is there. -/
def injectResources (tools : SigningTools) (identity : CodesignIdentity) (calls : List Path)
    (appDir : Path) : List (String × Option Resource) → SigningState → Result
  | [], s => .ok ([], s)
  | (resourcePath, none) :: _, _ =>
      .error (.exception (.cbx ("Failed to inject resources: file '" ++ resourcePath ++
        "' does not exist!")))
  | (_, some resource) :: resourcePaths, s => do
      let injected := injectResource tools identity calls appDir resource s
      let rest ← injectResources tools identity calls appDir resourcePaths injected.2
      .ok (injected.1 ++ rest.1, rest.2)

/-- The part of `resignAppDir` that writes into the app directory. -/
def writeAppDir (tools : SigningTools) (identity : CodesignIdentity) (calls : List Path)
    (appDir : Path) (resourcesToInject : List (String × Option Resource)) (s : SigningState) :
    Result := do
  let entitlementsMap ← writeToFile calls appDir "XTCEntitlementsMeta.plist"
    "Unable to write EntitlementsMeta to application." s
  let injected ← injectResources tools identity calls appDir resourcesToInject entitlementsMap.2
  let removed := removeIfExists calls appDir "embedded.mobileprovision" injected.2
  let entitlements ← writeToFile calls appDir (xcentFilename (Path.lastPathComponent appDir))
    ("Unable to write app entitlements to " ++ (tools.bundle s appDir).entitlementsFile) removed.2
  .ok (entitlementsMap.1 ++ injected.1 ++ removed.1 ++ entitlements.1, entitlements.2)

/-! ## The objects and the bundles -/

/-- The loop over the files: each object that should be resigned is signed. -/
def signObjects (tools : SigningTools) (identity : CodesignIdentity) (calls : List Path)
    (appDir : Path) : List Path → SigningState → List Event × SigningState
  | [], s => ([], s)
  | filePath :: files, s =>
      if FileUtils.isDylibOrFramework filePath then
        if shouldResign s filePath appDir then
          let rest := signObjects tools identity calls appDir files
            (codesign tools identity filePath s)
          (⟨calls, .sign filePath⟩ :: rest.1, rest.2)
        else
          let rest := signObjects tools identity calls appDir files s
          (⟨calls, .pass filePath⟩ :: rest.1, rest.2)
      else signObjects tools identity calls appDir files s

/-- The loop over the files of the plugins directory: each bundle that should be resigned is
resigned with `resign`. -/
def resignBundles (resign : Path → SigningState → Result) (calls : List Path) (appDir : Path) :
    List Path → SigningState → Result
  | [], s => .ok ([], s)
  | file :: files, s =>
      if isResignableBundle file then
        if shouldResign s file appDir then do
          let bundle ← resign file s
          let rest ← resignBundles resign calls appDir files bundle.2
          .ok (bundle.1 ++ rest.1, rest.2)
        else do
          let rest ← resignBundles resign calls appDir files s
          .ok (⟨calls, .pass file⟩ :: rest.1, rest.2)
      else resignBundles resign calls appDir files s

/-- The plugins directory. -/
def pluginsPath (appDir : Path) : Path :=
  appDir ++ ["Plugins"]

/-- The part of `resignAppDir` that goes through the plugins directory, if it exists. -/
def resignPlugins (resign : Path → SigningState → Result) (calls : List Path) (appDir : Path)
    (s : SigningState) : Result :=
  match FileUtils.depthFirstPathsStartingAtDirectory s.tree (pluginsPath appDir) with
  | none => .ok ([], s)
  | some pluginFiles => resignBundles resign calls appDir pluginFiles.reverse s

/-- The files of the app directory. -/
def filesForResigning (s : SigningState) (appDir : Path) : Except Stop (List Path) :=
  match FileUtils.depthFirstPathsStartingAtDirectory s.tree appDir with
  | none => .error (.exception (.cbx "No files for resigning"))
  | some files => .ok files

/-- `resignBundle:bundleExecutable:appEntitlementsFile:codesignIdentity:`: one call for the
executable and the bundle. -/
def resignBundle (tools : SigningTools) (identity : CodesignIdentity) (calls : List Path)
    (pathToBundle : Path) (bundleExecutableFile : String) (s : SigningState) :
    List Event × SigningState :=
  let executable := pathToBundle ++ [bundleExecutableFile]
  ([⟨calls, .sign executable⟩, ⟨calls, .sign pathToBundle⟩],
    codesign tools identity pathToBundle (codesign tools identity executable s))

/-- `resignAppDir:baseDir:provisioningProfile:codesignIdentity:resourcesToInject:`, called from the
calls that are open. The fuel bounds how deep bundles lie in bundles. -/
def resignAppDir (tools : SigningTools) : Nat → List Path → Path → Option CodesignIdentity →
    List (String × Option Resource) → SigningState → Result
  | 0, _, _, _, _, _ => .error .outOfFuel
  | fuel + 1, outer, appDir, codesignIdentity, resourcesToInject, s => do
      let calls := appDir :: outer
      let identity ← throwing
        (Codesigner.chooseIdentity tools.environment tools.profile codesignIdentity)
      let infoPlist ← throwing (Codesigner.readInfoPlist (tools.bundle s appDir))
      let bundleExec ← throwing (Codesigner.bundleExecutable infoPlist)
      -- the entitlements and the app groups
      let _ ← throwing (Codesigner.resignAppDir tools.environment (tools.bundle s appDir)
        tools.profile codesignIdentity)
      let written ← writeAppDir tools identity calls appDir resourcesToInject s
      let files ← filesForResigning written.2 appDir
      let objects := signObjects tools identity calls appDir files.reverse written.2
      let plugins ← resignPlugins
        (fun file s => resignAppDir tools fuel calls file none [] s) calls appDir objects.2
      let bundle := resignBundle tools identity calls appDir bundleExec plugins.2
      .ok (written.1 ++ objects.1 ++ plugins.1 ++ bundle.1, bundle.2)

/-! ## What the parts of a run do -/

/-- The path that an action changes. -/
def Action.changed : Action → Option Path
  | .write path => some path
  | .remove path => some path
  | .sign path => some path
  | .pass _ => none

/-- A path lies in a directory. -/
def Contains (container path : Path) : Prop :=
  container <+: path ∧ container ≠ path

theorem Contains.length_lt {container path : Path} (h : Contains container path) :
    container.length < path.length :=
  lt_of_le_of_ne h.1.length_le fun heq => h.2 (h.1.eq_of_length heq)

theorem Contains.trans {outer container path : Path} (h : Contains outer container)
    (h' : Contains container path) : Contains outer path := by
  refine ⟨h.1.trans h'.1, fun heq => ?_⟩
  have hlt := h.length_lt
  have hlt' := h'.length_lt
  rw [heq] at hlt
  omega

theorem contains_append_cons (path : Path) (name : String) (below : Path) :
    Contains path (path ++ name :: below) :=
  ⟨List.prefix_append _ _, by simp⟩

/-- The event is one of the calls themselves and changes something in the directory. -/
def ChangesIn (calls : List Path) (dir : Path) (e : Event) : Prop :=
  e.calls = calls ∧ ∃ path, e.action.changed = some path ∧ Contains dir path

section Parts

variable {tools : SigningTools} {identity : CodesignIdentity} {calls : List Path} {appDir : Path}

/-- A write adds an entry to the directory, and no directory. -/
theorem writeToFile_eq_ok {name reason : String} {s : SigningState}
    {r : List Event × SigningState} (h : writeToFile calls appDir name reason s = .ok r) :
    (∀ e ∈ r.1, ChangesIn calls appDir e) ∧
      ∀ q, r.2.tree.isDirectoryAt q = true → s.tree.isDirectoryAt q = true := by
  unfold writeToFile at h
  split at h
  · obtain rfl := Except.ok.inj h
    refine ⟨fun e he => ?_, fun q hq => DirectoryTree.isDirectoryAt_of_update_put hq⟩
    obtain rfl := List.mem_singleton.mp he
    exact ⟨rfl, _, rfl, contains_append_cons appDir name []⟩
  · cases h

/-- A removal changes the directory, and adds none. -/
theorem removeIfExists_spec (calls : List Path) (appDir : Path) (name : String)
    (s : SigningState) :
    (∀ e ∈ (removeIfExists calls appDir name s).1, ChangesIn calls appDir e) ∧
      ∀ q, (removeIfExists calls appDir name s).2.tree.isDirectoryAt q = true →
        s.tree.isDirectoryAt q = true := by
  unfold removeIfExists
  split
  · refine ⟨fun e he => ?_, fun q hq => DirectoryTree.isDirectoryAt_of_update_erase hq⟩
    obtain rfl := List.mem_singleton.mp he
    exact ⟨rfl, _, rfl, contains_append_cons appDir name []⟩
  · exact ⟨fun e he => absurd he List.not_mem_nil, fun q hq => hq⟩

/-- An injection changes the directory. -/
theorem changesIn_injectResource {resource : Resource} {s : SigningState} {e : Event}
    (he : e ∈ (injectResource tools identity calls appDir resource s).1) :
    ChangesIn calls appDir e := by
  have hcopied : ∀ e ∈ (copyResource calls appDir resource
      (removeIfExists calls appDir resource.item.name s).2).1, ChangesIn calls appDir e := by
    intro e he
    obtain ⟨path, hpath, rfl⟩ := List.mem_map.mp he
    have htarget : appDir ++ [resource.item.name] <+: path := by
      rcases List.mem_cons.mp hpath with rfl | hmem
      · exact List.prefix_refl _
      · exact DirectoryTree.prefix_of_mem_entries resource.item hmem
    obtain ⟨below, rfl⟩ := htarget
    exact ⟨rfl, _, rfl, by simpa using contains_append_cons appDir resource.item.name below⟩
  have hremoved := (removeIfExists_spec calls appDir resource.item.name s).1
  unfold injectResource at he
  dsimp only at he
  split at he
  · simp only [List.mem_append, List.mem_singleton] at he
    rcases he with (he | he) | rfl
    · exact hremoved e he
    · exact hcopied e he
    · exact ⟨rfl, _, rfl, contains_append_cons appDir resource.item.name []⟩
  · exact (List.mem_append.mp he).elim (hremoved e) (hcopied e)

/-- The injections change the directory. -/
theorem changesIn_injectResources {resourcePaths : List (String × Option Resource)}
    {s : SigningState} {r : List Event × SigningState}
    (h : injectResources tools identity calls appDir resourcePaths s = .ok r) :
    ∀ e ∈ r.1, ChangesIn calls appDir e := by
  induction resourcePaths generalizing s r with
  | nil =>
    obtain rfl := Except.ok.inj h
    exact fun e he => absurd he List.not_mem_nil
  | cons resource resourcePaths ih =>
    obtain ⟨resourcePath, _ | resource⟩ := resource
    · cases h
    · obtain ⟨rest, hrest, hr⟩ := Codesigner.bind_eq_ok_iff.mp h
      obtain rfl := Except.ok.inj hr
      exact fun e he => (List.mem_append.mp he).elim changesIn_injectResource (ih hrest e)

/-- **The writes.** They change the app directory, and without resources they add no directory. -/
theorem writeAppDir_eq_ok {resourcesToInject : List (String × Option Resource)}
    {s : SigningState} {r : List Event × SigningState}
    (h : writeAppDir tools identity calls appDir resourcesToInject s = .ok r) :
    (∀ e ∈ r.1, ChangesIn calls appDir e) ∧ (resourcesToInject = [] →
      ∀ q, r.2.tree.isDirectoryAt q = true → s.tree.isDirectoryAt q = true) := by
  obtain ⟨entitlementsMap, hmap, h⟩ := Codesigner.bind_eq_ok_iff.mp h
  obtain ⟨injected, hinject, h⟩ := Codesigner.bind_eq_ok_iff.mp h
  obtain ⟨entitlements, hentitlements, h⟩ := Codesigner.bind_eq_ok_iff.mp h
  obtain rfl := Except.ok.inj h
  obtain ⟨hmapChanges, hmapDirs⟩ := writeToFile_eq_ok hmap
  obtain ⟨hremovedChanges, hremovedDirs⟩ :=
    removeIfExists_spec calls appDir "embedded.mobileprovision" injected.2
  obtain ⟨hentChanges, hentDirs⟩ := writeToFile_eq_ok hentitlements
  constructor
  · intro e he
    simp only [List.mem_append] at he
    rcases he with ((he | he) | he) | he
    · exact hmapChanges e he
    · exact changesIn_injectResources hinject e he
    · exact hremovedChanges e he
    · exact hentChanges e he
  · rintro rfl q hq
    obtain rfl := Except.ok.inj hinject
    exact hmapDirs q (hremovedDirs q (hentDirs q hq))

/-- The objects are signed without a change to the tree. -/
@[simp] theorem tree_signObjects (files : List Path) (s : SigningState) :
    (signObjects tools identity calls appDir files s).2.tree = s.tree := by
  induction files generalizing s with
  | nil => rfl
  | cons filePath files ih =>
    unfold signObjects
    split
    · split
      · exact ih _
      · exact ih s
    · exact ih s

theorem throwing_eq_ok_iff {α : Type} {x : Except NSException α} {a : α} :
    throwing x = .ok a ↔ x = .ok a := by
  cases x <;> simp [throwing]

/-- **The whole run.** A run that ends writes, signs the objects, resigns the plugin bundles, and
signs the executable and the app directory. -/
theorem resignAppDir_eq_ok {fuel : Nat} {outer : List Path}
    {codesignIdentity : Option CodesignIdentity}
    {resourcesToInject : List (String × Option Resource)} {s : SigningState}
    {r : List Event × SigningState}
    (h : resignAppDir tools (fuel + 1) outer appDir codesignIdentity resourcesToInject s =
      .ok r) :
    ∃ identity infoPlist bundleExec written files plugins,
      Codesigner.chooseIdentity tools.environment tools.profile codesignIdentity = .ok identity ∧
      (tools.bundle s appDir).infoPlist = some infoPlist ∧
      infoPlist.bundleExecutable = some bundleExec ∧
      writeAppDir tools identity (appDir :: outer) appDir resourcesToInject s = .ok written ∧
      filesForResigning written.2 appDir = .ok files ∧
      resignPlugins (fun file s => resignAppDir tools fuel (appDir :: outer) file none [] s)
        (appDir :: outer) appDir (signObjects tools identity (appDir :: outer) appDir
          files.reverse written.2).2 = .ok plugins ∧
      r = (written.1 ++ (signObjects tools identity (appDir :: outer) appDir files.reverse
          written.2).1 ++ plugins.1 ++
          (resignBundle tools identity (appDir :: outer) appDir bundleExec plugins.2).1,
        (resignBundle tools identity (appDir :: outer) appDir bundleExec plugins.2).2) := by
  rw [resignAppDir] at h
  obtain ⟨identity, hidentity, h⟩ := Codesigner.bind_eq_ok_iff.mp h
  obtain ⟨infoPlist, hinfo, h⟩ := Codesigner.bind_eq_ok_iff.mp h
  obtain ⟨bundleExec, hexec, h⟩ := Codesigner.bind_eq_ok_iff.mp h
  obtain ⟨-, -, h⟩ := Codesigner.bind_eq_ok_iff.mp h
  obtain ⟨written, hwritten, h⟩ := Codesigner.bind_eq_ok_iff.mp h
  obtain ⟨files, hfiles, h⟩ := Codesigner.bind_eq_ok_iff.mp h
  obtain ⟨plugins, hplugins, h⟩ := Codesigner.bind_eq_ok_iff.mp h
  exact ⟨identity, infoPlist, bundleExec, written, files, plugins,
    throwing_eq_ok_iff.mp hidentity,
    Codesigner.readInfoPlist_eq_ok_iff.mp (throwing_eq_ok_iff.mp hinfo),
    Codesigner.bundleExecutable_eq_ok_iff.mp (throwing_eq_ok_iff.mp hexec),
    hwritten, hfiles, hplugins, (Except.ok.inj h).symm⟩

end Parts

end SigningRun

end IOSDeviceManager
