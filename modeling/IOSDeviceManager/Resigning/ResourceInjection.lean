import IOSDeviceManager.Commands.ResignAllCommand
import IOSDeviceManager.Foundation.FileOperation
import IOSDeviceManager.General.LexicalPath

/-! # The injection of resources

`resourcesFromArgs:` splits the resources path at its colons, and `injectResources:…` copies what is
found into the app directory, each under its last path component. An empty segment stands for the
current directory, and what has the same last component as something before takes its place. -/

namespace IOSDeviceManager

open General

namespace Path

/-- The path that a text names: its components. -/
def ofText (text : String) : Path :=
  (LexicalPath.components text.toList).map String.ofList

end Path

/-- What the injection asks of its surroundings, with the files it begins with. -/
structure InjectionHost extends Host where
  fs : FileSystem
  /-- The host looks up what is in the files. -/
  item_fs : ∀ path, (item path).isSome ↔ fs.Exists (Path.ofText path)
  /-- The current directory, which an empty path is expanded to, exists. -/
  exists_current : fs.Exists (Path.ofText (toHost.expandPath ""))
  /-- The description of the error of a failed copy. -/
  copyError : Path → Path → String

/-- What the injection does in the app directory. Contents are meant up to code signatures: what a
signature adds is told by this alone. -/
inductive Injection where
  | copied (source target : Path)
  | signed (target : Path)
  deriving DecidableEq

/-- The path in the app directory. -/
def Injection.target : Injection → Path
  | .copied _ target => target
  | .signed target => target

namespace ResourceInjection

/-- Where a resource is put: under its last path component. The root directory has none, and `/`
appended to a path adds nothing. -/
def targetFile (appDir source : Path) : Path :=
  appDir ++ source.getLast?.toList

/-- What is at the target is removed. A failed removal is not reported: the condition of its
exception holds. -/
def removeExisting (fs : FileSystem) (target : Path) : FileSystem :=
  if NSFileManager.fileExistsAtPath fs target then
    (NSFileManager.removeItemAtPath fs target).getD fs
  else fs

/-- One round of `injectResources:intoAppDir:codesignIdentity:baseDir:`. -/
def injectResource (host : InjectionHost) (appDir : Path) (resourcePath : String)
    (fs : FileSystem) : Except NSException (FileSystem × List Injection) :=
  let source := Path.ofText resourcePath
  if NSFileManager.fileExistsAtPath fs source = false then
    .error (.cbx ("Failed to inject resources: file '" ++ resourcePath ++ "' does not exist!"))
  else
    let target := targetFile appDir source
    match NSFileManager.copyItemAtPath (removeExisting fs target) source target with
    | none => .error (.cbx ("Error injecting resource: " ++ host.copyError source target))
    | some copied =>
        .ok (copied, .copied source target ::
          if FileUtils.isDylibOrFramework target then [.signed target] else [])

/-- `injectResources:intoAppDir:codesignIdentity:baseDir:`, where no signing fails. -/
def injectResources (host : InjectionHost) (appDir : Path) :
    List String → FileSystem → Except NSException (FileSystem × List Injection)
  | [], fs => .ok (fs, [])
  | resourcePath :: resourcePaths, fs => do
      let injected ← injectResource host appDir resourcePath fs
      let rest ← injectResources host appDir resourcePaths injected.1
      .ok (rest.1, injected.2 ++ rest.2)

/-- The resources of the arguments, injected into an app directory. -/
def injectFromArgs (host : InjectionHost) (appDir : Path) (args : NSDictionary ArgValue) :
    Except NSException (FileSystem × List Injection) := do
  let resources ← resourcesFromArgs host.toHost args
  injectResources host appDir resources host.fs

/-! ## What a run leaves behind -/

section Run

variable {host : InjectionHost} {appDir : Path}

/-- What a round does in the app directory. -/
def injectionsOf (appDir source : Path) : List Injection :=
  .copied source (targetFile appDir source) ::
    if FileUtils.isDylibOrFramework (targetFile appDir source) then
      [.signed (targetFile appDir source)]
    else []

theorem removeExisting_eq_remove {fs : FileSystem} {target : Path} (h : fs.Exists target) :
    removeExisting fs target = fs.remove target := by
  simp [removeExisting, NSFileManager.fileExistsAtPath, NSFileManager.removeItemAtPath, h]

theorem removeExisting_eq_self {fs : FileSystem} {target : Path} (h : ¬ fs.Exists target) :
    removeExisting fs target = fs := by
  simp [removeExisting, NSFileManager.fileExistsAtPath, h]

/-- Then nothing is at the target, and the rest is as before. -/
theorem agreeOutside_removeExisting (fs : FileSystem) (target : Path) :
    PathStore.AgreeOutside target fs (removeExisting fs target) ∧
      ¬ (removeExisting fs target).Exists target := by
  by_cases hexists : fs.Exists target
  · rw [removeExisting_eq_remove hexists]
    exact ⟨PathStore.agreeOutside_remove fs target, by simp [PathStore.Exists]⟩
  · rw [removeExisting_eq_self hexists]
    exact ⟨fun _ _ => rfl, hexists⟩

/-- A resource that is apart from its target has a name. -/
theorem targetFile_of_apart {source : Path} (h : PathStore.Apart (targetFile appDir source) source) :
    ∃ name, source.getLast? = some name ∧ targetFile appDir source = appDir ++ [name] := by
  have hne : source ≠ [] := by
    rintro rfl
    exact h.2 List.nil_prefix
  refine ⟨source.getLast hne, List.getLast?_eq_some_getLast hne, ?_⟩
  rw [targetFile, List.getLast?_eq_some_getLast hne]
  rfl

/-- A round makes its copy exactly if the app directory is one and neither path lies in the other.
-/
theorem canCopy_removeExisting_iff {fs : FileSystem} {source : Path} (hsource : fs.Exists source) :
    (removeExisting fs (targetFile appDir source)).CanCopy source (targetFile appDir source) ↔
      fs.IsDirectory appDir ∧ PathStore.Apart (targetFile appDir source) source := by
  obtain ⟨hagree, hfree⟩ := agreeOutside_removeExisting fs (targetFile appDir source)
  by_cases hroot : source = []
  · subst hroot
    exact iff_of_false (fun hcan => hcan.outside List.nil_prefix) fun h => h.2.2 List.nil_prefix
  · have htarget : targetFile appDir source = appDir ++ [source.getLast hroot] := by
      rw [targetFile, List.getLast?_eq_some_getLast hroot]
      rfl
    rw [htarget] at hagree hfree ⊢
    exact PathStore.canCopy_iff_apart hsource hagree hfree

/-- So a round goes through exactly then, if the resource is there. -/
theorem injectResource_isOk_iff {resourcePath : String} {fs : FileSystem} :
    (∃ result, injectResource host appDir resourcePath fs = .ok result) ↔
      fs.Exists (Path.ofText resourcePath) ∧ fs.IsDirectory appDir ∧
        PathStore.Apart (targetFile appDir (Path.ofText resourcePath))
          (Path.ofText resourcePath) := by
  by_cases hsource : fs.Exists (Path.ofText resourcePath)
  · rw [and_iff_right hsource, ← canCopy_removeExisting_iff hsource]
    by_cases hcan : (removeExisting fs (targetFile appDir (Path.ofText resourcePath))).CanCopy
        (Path.ofText resourcePath) (targetFile appDir (Path.ofText resourcePath))
    · simp [injectResource, NSFileManager.fileExistsAtPath, NSFileManager.copyItemAtPath, hsource,
        hcan]
    · simp [injectResource, NSFileManager.fileExistsAtPath, NSFileManager.copyItemAtPath, hsource,
        hcan]
  · simp [injectResource, NSFileManager.fileExistsAtPath, hsource]

/-- **A round** puts a copy of the resource at its target. -/
theorem injectResource_eq_ok {resourcePath : String} {fs : FileSystem}
    {result : FileSystem × List Injection}
    (h : injectResource host appDir resourcePath fs = .ok result) :
    (∀ q, result.1.entry q = fs.entry (PathStore.redirect (Path.ofText resourcePath)
      (targetFile appDir (Path.ofText resourcePath)) q)) ∧
    result.2 = injectionsOf appDir (Path.ofText resourcePath) := by
  simp only [injectResource] at h
  split at h
  · cases h
  split at h
  · cases h
  rename_i copied hcopied
  obtain rfl := Except.ok.inj h
  refine ⟨fun q => ?_, rfl⟩
  obtain ⟨hcopy, rfl⟩ := NSFileManager.copyItemAtPath_eq_some hcopied
  by_cases hexists : fs.Exists (targetFile appDir (Path.ofText resourcePath))
  · simp only [removeExisting_eq_remove hexists] at hcopy ⊢
    exact fs.entry_copy_remove_eq_redirect hcopy q
  · simp only [removeExisting_eq_self hexists] at hcopy ⊢
    exact fs.entry_copy_eq_redirect hcopy q

/-- Where the entry at a path comes from when the resources are injected one after the other. -/
def origin (appDir : Path) (sources : List Path) (q : Path) : Path :=
  sources.foldr (fun source q => PathStore.redirect source (targetFile appDir source) q) q

/-- **A run** of the injection: every entry is what was at the path that its own is led back to. -/
theorem injectResources_eq_ok {resourcePaths : List String} {fs : FileSystem}
    {result : FileSystem × List Injection}
    (h : injectResources host appDir resourcePaths fs = .ok result) :
    (∀ q, result.1.entry q = fs.entry (origin appDir (resourcePaths.map Path.ofText) q)) ∧
    result.2 = (resourcePaths.map Path.ofText).flatMap (injectionsOf appDir) := by
  induction resourcePaths generalizing fs result with
  | nil =>
    obtain rfl := Except.ok.inj h
    exact ⟨fun _ => rfl, rfl⟩
  | cons resourcePath resourcePaths ih =>
    obtain ⟨injected, hinjected, h⟩ := Codesigner.bind_eq_ok_iff.mp h
    obtain ⟨rest, hrest, h⟩ := Codesigner.bind_eq_ok_iff.mp h
    obtain rfl := Except.ok.inj h
    obtain ⟨hentry, hinjections⟩ := injectResource_eq_ok hinjected
    obtain ⟨hentries, hall⟩ := ih hrest
    refine ⟨fun q => ?_, ?_⟩
    · rw [hentries, hentry]
      rfl
    · rw [hinjections, hall]
      rfl

/-- The resources can be injected one after the other: no path lies in its target or holds it, and
each resource is there when it is its turn. -/
structure Injectable (fs : FileSystem) (appDir : Path) (sources : List Path) : Prop where
  directory : sources ≠ [] → fs.IsDirectory appDir
  apart : ∀ source ∈ sources, PathStore.Apart (targetFile appDir source) source
  present : ∀ before source after, sources = before ++ source :: after →
    fs.Exists (origin appDir before source)

/-- The first round, and the others with what it leaves. -/
theorem injectable_cons_iff {fs fs' : FileSystem} {source : Path} {sources : List Path}
    (hentry : ∀ q, fs'.entry q =
      fs.entry (PathStore.redirect source (targetFile appDir source) q)) :
    Injectable fs appDir (source :: sources) ↔
      (fs.Exists source ∧ fs.IsDirectory appDir ∧
        PathStore.Apart (targetFile appDir source) source) ∧ Injectable fs' appDir sources := by
  -- what the later rounds find is what was there, led back once more
  have hexists : ∀ before q, fs'.Exists (origin appDir before q) ↔
      fs.Exists (origin appDir (source :: before) q) := by
    intro before q
    rw [PathStore.Exists, hentry]
    rfl
  -- the first copy lies in the app directory, which stays
  have hdirectory : PathStore.Apart (targetFile appDir source) source →
      (fs'.IsDirectory appDir ↔ fs.IsDirectory appDir) := by
    intro hapart
    obtain ⟨name, -, htarget⟩ := targetFile_of_apart hapart
    have hpre : ¬ targetFile appDir source <+: appDir := by
      rw [htarget]
      exact PathStore.not_prefix_of_append_singleton appDir name
    rw [PathStore.IsDirectory, hentry, PathStore.redirect, if_neg hpre, PathStore.IsDirectory]
  constructor
  · intro h
    have hapart := h.apart source List.mem_cons_self
    have happ := h.directory (List.cons_ne_nil source sources)
    refine ⟨⟨h.present [] source sources rfl, happ, hapart⟩,
      fun _ => (hdirectory hapart).mpr happ, fun other hother =>
        h.apart other (List.mem_cons_of_mem source hother), ?_⟩
    rintro before other after rfl
    exact (hexists before other).mpr (h.present (source :: before) other after rfl)
  · rintro ⟨⟨hsource, happ, hapart⟩, h⟩
    refine ⟨fun _ => happ, List.forall_mem_cons.mpr ⟨hapart, h.apart⟩, ?_⟩
    intro before other after hsplit
    cases before with
    | nil =>
      obtain ⟨rfl, -⟩ := List.cons.inj hsplit
      exact hsource
    | cons first before =>
      obtain ⟨rfl, hrest⟩ := List.cons.inj hsplit
      exact (hexists before other).mp (h.present before other after hrest)

/-- **When a run goes through.** By induction on the resources. -/
theorem injectResources_isOk_iff {resourcePaths : List String} {fs : FileSystem} :
    (∃ result, injectResources host appDir resourcePaths fs = .ok result) ↔
      Injectable fs appDir (resourcePaths.map Path.ofText) := by
  induction resourcePaths generalizing fs with
  | nil => exact iff_of_true ⟨_, rfl⟩ ⟨fun h => absurd rfl h, by simp, by simp⟩
  | cons resourcePath resourcePaths ih =>
    rw [List.map_cons]
    constructor
    · rintro ⟨result, h⟩
      obtain ⟨injected, hinjected, h⟩ := Codesigner.bind_eq_ok_iff.mp h
      obtain ⟨rest, hrest, -⟩ := Codesigner.bind_eq_ok_iff.mp h
      exact (injectable_cons_iff (injectResource_eq_ok hinjected).1).mpr
        ⟨injectResource_isOk_iff.mp ⟨injected, hinjected⟩, ih.mp ⟨rest, hrest⟩⟩
    · intro h
      obtain ⟨injected, hinjected⟩ := injectResource_isOk_iff.mpr ⟨h.present [] _ _ rfl,
        h.directory (List.cons_ne_nil _ _), h.apart _ List.mem_cons_self⟩
      have hlater := ((injectable_cons_iff (injectResource_eq_ok hinjected).1).mp h).2
      obtain ⟨rest, hrest⟩ := ih.mpr hlater
      refine ⟨(rest.1, injected.2 ++ rest.2), Codesigner.bind_eq_ok_iff.mpr ⟨injected, hinjected, ?_⟩⟩
      exact Codesigner.bind_eq_ok_iff.mpr ⟨rest, hrest, rfl⟩

theorem mem_injectionsOf {source : Path} {injection : Injection} :
    injection ∈ injectionsOf appDir source ↔
      injection = .copied source (targetFile appDir source) ∨
        FileUtils.isDylibOrFramework (targetFile appDir source) = true ∧
          injection = .signed (targetFile appDir source) := by
  unfold injectionsOf
  split <;> simp [*]

/-- What is put where a framework or a dylib goes is signed after the last copy. -/
theorem signed_after_copied {sources : List Path} {target : Path}
    (hsource : ∃ source ∈ sources, targetFile appDir source = target)
    (hkind : FileUtils.isDylibOrFramework target = true) :
    ∃ before after, sources.flatMap (injectionsOf appDir) = before ++ .signed target :: after ∧
      (∃ source, .copied source target ∈ before) ∧ ∀ other, .copied other target ∉ after := by
  induction sources with
  | nil =>
    obtain ⟨source, hmem, -⟩ := hsource
    cases hmem
  | cons first sources ih =>
    by_cases hlater : ∃ source ∈ sources, targetFile appDir source = target
    · obtain ⟨before, after, hsplit, ⟨source, hcopied⟩, hlast⟩ := ih hlater
      refine ⟨injectionsOf appDir first ++ before, after, ?_,
        ⟨source, List.mem_append_right _ hcopied⟩, hlast⟩
      rw [List.flatMap_cons, hsplit, List.append_assoc]
    · -- no later resource has this target, so it is that of the first
      obtain ⟨source, hmem, htarget⟩ := hsource
      rcases List.mem_cons.mp hmem with rfl | hmem
      · refine ⟨[.copied source target], sources.flatMap (injectionsOf appDir), ?_,
          ⟨source, List.mem_singleton_self _⟩, ?_⟩
        · rw [List.flatMap_cons, injectionsOf, htarget, if_pos hkind]
          rfl
        · intro other hother
          obtain ⟨later, hmem, hcopied⟩ := List.mem_flatMap.mp hother
          rcases mem_injectionsOf.mp hcopied with heq | ⟨-, heq⟩
          · obtain ⟨-, heq⟩ := Injection.copied.inj heq
            exact hlater ⟨later, hmem, heq.symm⟩
          · cases heq
      · exact absurd ⟨source, hmem, htarget⟩ hlater

end Run

/-! ## The resources path -/

/-- The segments of the resources path. -/
def segments (args : NSDictionary ArgValue) : List String :=
  match stringArg args resourcesPathOptionName with
  | none => []
  | some resourcePaths => if resourcePaths = "" then [] else resourcePaths.splitOn ":"

section Segments

variable (host : InjectionHost) (args : NSDictionary ArgValue)

/-- The path that a segment is expanded to. -/
def pathOf (segment : String) : Path :=
  Path.ofText (host.toHost.expandPath segment)

/-- The paths that are listed: those of the segments that are not empty. -/
def listedPaths : List Path :=
  ((segments args).filter (· ≠ "")).map (pathOf host)

/-- What `resourcesFromArgs:` returns. -/
theorem resourcesFromArgs_eq :
    resourcesFromArgs host.toHost args =
      if ∀ segment ∈ segments args, host.fs.Exists (pathOf host segment) then
        .ok ((segments args).map host.toHost.expandPath)
      else .error (.named "InvalidArgumentException"
        "The specified resource for injection does not exist") := by
  have hexists : ∀ path, host.toHost.fileExistsAtPath (some path) = true ↔
      host.fs.Exists (Path.ofText path) := fun path => host.item_fs path
  unfold resourcesFromArgs segments
  cases stringArg args resourcesPathOptionName with
  | none => simp
  | some resourcePaths =>
    by_cases hempty : resourcePaths = ""
    · simp [hempty]
    · simp [hempty, hexists, pathOf]

end Segments

/-! ## Every listed path and nothing else -/

section

variable (host : InjectionHost) (appDir : Path) (args : NSDictionary ArgValue)

/-- The listed paths have different last components. -/
def DistinctNames : Prop :=
  ((listedPaths host args).map fun path => path.getLast?).Nodup

/-- What a run without an exception is to leave behind: every listed path is in the app directory
under its last component, signed after the last copy where that is due, and nothing else has been
touched. Where two listed paths have one last component there is to be no such run. -/
structure InjectsExactly (result : FileSystem × List Injection) : Prop where
  names : DistinctNames host args
  present : ∀ path ∈ listedPaths host args,
    result.1.subtree (targetFile appDir path) = host.fs.subtree path
  signed : ∀ path ∈ listedPaths host args,
    FileUtils.isDylibOrFramework (targetFile appDir path) = true →
      ∃ before after, result.2 = before ++ .signed (targetFile appDir path) :: after ∧
        (∃ source, .copied source (targetFile appDir path) ∈ before) ∧
        ∀ other, .copied other (targetFile appDir path) ∉ after
  nothingElse : ∀ injection ∈ result.2, ∃ path ∈ listedPaths host args,
    injection.target = targetFile appDir path
  unchanged : ∀ q, (∀ path ∈ listedPaths host args, ¬ targetFile appDir path <+: q) →
    result.1.entry q = host.fs.entry q

/-- Every listed path is injected and nothing else is, or there is an exception because one does not
exist or two have one last component. -/
def InjectsOrThrows : Prop :=
  match injectFromArgs host appDir args with
  | .ok result => InjectsExactly host appDir args result
  | .error _ => (∃ path ∈ listedPaths host args, ¬ host.fs.Exists path) ∨
      ¬ DistinctNames host args

/-- No path is gone when it is its turn. -/
def AllPresent : Prop :=
  ∀ before segment after, segments args = before ++ segment :: after →
    host.fs.Exists (origin appDir (before.map (pathOf host)) (pathOf host segment))

/-- The resources do not get into each other's way: the last components are different, an empty
segment comes only with a listed path that has the last component of the current directory, and what
ends up at the target of a listed path, led back through the copies, is what was at the path. -/
structure ResourcesFit : Prop where
  names : DistinctNames host args
  current : "" ∈ segments args → ∃ path ∈ listedPaths host args,
    targetFile appDir (pathOf host "") = targetFile appDir path
  content : ∀ path ∈ listedPaths host args, ∀ below,
    host.fs.entry (origin appDir ((segments args).map (pathOf host))
      (targetFile appDir path ++ below)) = host.fs.entry (path ++ below)

end

section

variable {host : InjectionHost} {appDir : Path} {args : NSDictionary ArgValue}

/-- An exception of two steps is one of the first or of the second. -/
theorem bind_eq_error {α β : Type} {x : Except NSException α} {f : α → Except NSException β}
    {e : NSException} (h : x >>= f = .error e) :
    x = .error e ∨ ∃ a, x = .ok a ∧ f a = .error e := by
  cases x with
  | error e' => exact .inl (congrArg Except.error (Except.error.inj h))
  | ok a => exact .inr ⟨a, rfl, h⟩

/-- The exception of a failed copy. -/
def copyException (host : InjectionHost) (source target : Path) : NSException :=
  .cbx ("Error injecting resource: " ++ host.copyError source target)

/-- An exception of the injection is that of a failed copy, or a resource is gone when it is its
turn. -/
theorem injectResources_eq_error {resourcePaths : List String} {fs : FileSystem} {e : NSException}
    (h : injectResources host appDir resourcePaths fs = .error e) :
    (∃ source target, e = copyException host source target) ∨
      ∃ before resourcePath after, resourcePaths = before ++ resourcePath :: after ∧
        ¬ fs.Exists (origin appDir (before.map Path.ofText) (Path.ofText resourcePath)) := by
  induction resourcePaths generalizing fs with
  | nil => cases h
  | cons resourcePath resourcePaths ih =>
    rcases bind_eq_error h with hinjected | ⟨injected, hinjected, h⟩
    · simp only [injectResource] at hinjected
      split at hinjected
      · rename_i hmissing
        exact .inr ⟨[], resourcePath, resourcePaths, rfl, by
          simpa [NSFileManager.fileExistsAtPath, origin] using hmissing⟩
      split at hinjected
      · exact .inl ⟨_, _, (Except.error.inj hinjected).symm⟩
      · cases hinjected
    · rcases bind_eq_error h with hrest | ⟨rest, -, hok⟩
      · refine (ih hrest).imp_right ?_
        rintro ⟨before, later, after, rfl, hmissing⟩
        refine ⟨resourcePath :: before, later, after, rfl, ?_⟩
        rwa [PathStore.Exists, (injectResource_eq_ok hinjected).1] at hmissing
      · cases hok

/-- Every resource is that of a segment: of one that is listed, or of an empty one. -/
theorem mem_segments {source : Path} (h : source ∈ (segments args).map (pathOf host)) :
    source ∈ listedPaths host args ∨ "" ∈ segments args ∧ source = pathOf host "" := by
  obtain ⟨segment, hsegment, rfl⟩ := List.mem_map.mp h
  by_cases hempty : segment = ""
  · exact .inr ⟨hempty ▸ hsegment, by rw [hempty]⟩
  · refine .inl (List.mem_map.mpr ⟨segment, List.mem_filter.mpr ⟨hsegment, ?_⟩, rfl⟩)
    simpa using hempty

/-- Listed paths are those of segments. -/
theorem mem_of_mem_listedPaths {path : Path} (h : path ∈ listedPaths host args) :
    path ∈ (segments args).map (pathOf host) := by
  obtain ⟨segment, hsegment, rfl⟩ := List.mem_map.mp h
  exact List.mem_map_of_mem (List.mem_filter.mp hsegment).1

/-- A path under no target is led back to itself. -/
theorem origin_eq_self {sources : List Path} {q : Path}
    (h : ∀ source ∈ sources, ¬ targetFile appDir source <+: q) : origin appDir sources q = q := by
  induction sources with
  | nil => rfl
  | cons source sources ih =>
    obtain ⟨hfirst, hrest⟩ := List.forall_mem_cons.mp h
    rw [origin, List.foldr_cons, ← origin, ih hrest, PathStore.redirect, if_neg hfirst]

/-- **The run.** It is exact if and only if the resources do not get into each other's way. -/
theorem injectsExactly_iff {result : FileSystem × List Injection}
    (h : injectResources host appDir ((segments args).map host.toHost.expandPath) host.fs =
      .ok result) :
    InjectsExactly host appDir args result ↔ ResourcesFit host appDir args := by
  obtain ⟨hentry, hinjections⟩ := injectResources_eq_ok h
  have hsources : ((segments args).map host.toHost.expandPath).map Path.ofText =
      (segments args).map (pathOf host) := by
    rw [List.map_map]
    rfl
  rw [hsources] at hentry hinjections
  constructor
  · intro hexact
    refine ⟨hexact.names, fun hempty => ?_, fun path hpath below => ?_⟩
    · obtain ⟨path, hpath, htarget⟩ := hexact.nothingElse
        (.copied (pathOf host "") (targetFile appDir (pathOf host ""))) (by
          rw [hinjections]
          exact List.mem_flatMap.mpr ⟨pathOf host "", List.mem_map_of_mem hempty,
            mem_injectionsOf.mpr (.inl rfl)⟩)
      exact ⟨path, hpath, htarget⟩
    · rw [← hentry]
      exact congrFun (hexact.present path hpath) below
  · intro hfit
    -- an empty segment is put where a listed path is put
    have htargets : ∀ source ∈ (segments args).map (pathOf host),
        ∃ path ∈ listedPaths host args, targetFile appDir source = targetFile appDir path := by
      intro source hsource
      rcases mem_segments hsource with hlisted | ⟨hempty, rfl⟩
      · exact ⟨source, hlisted, rfl⟩
      · exact hfit.current hempty
    refine ⟨hfit.names, fun path hpath => ?_, fun path hpath hkind => ?_,
      fun injection hinjection => ?_, fun q hq => ?_⟩
    · funext below
      exact (hentry _).trans (hfit.content path hpath below)
    · rw [hinjections]
      exact signed_after_copied ⟨path, mem_of_mem_listedPaths hpath, rfl⟩ hkind
    · rw [hinjections] at hinjection
      obtain ⟨source, hsource, hmem⟩ := List.mem_flatMap.mp hinjection
      obtain ⟨path, hpath, htarget⟩ := htargets source hsource
      refine ⟨path, hpath, ?_⟩
      rw [← htarget]
      rcases mem_injectionsOf.mp hmem with rfl | ⟨-, rfl⟩ <;> rfl
    · rw [hentry, origin_eq_self]
      intro source hsource
      obtain ⟨path, hpath, htarget⟩ := htargets source hsource
      rw [htarget]
      exact hq path hpath

/-- A run that goes through has found every path when it was its turn. -/
theorem allPresent_of_eq_ok {result : FileSystem × List Injection}
    (h : injectResources host appDir ((segments args).map host.toHost.expandPath) host.fs =
      .ok result) : AllPresent host appDir args := by
  intro before segment after hsplit
  have hinjectable := injectResources_isOk_iff.mp ⟨result, h⟩
  refine hinjectable.present _ (pathOf host segment) (after.map (pathOf host)) ?_
  rw [hsplit, List.map_map, List.map_append, List.map_cons]
  rfl

/-- An exception that is not that of a copy has found a path gone. -/
theorem not_allPresent_of_eq_error {e : NSException}
    (h : injectResources host appDir ((segments args).map host.toHost.expandPath) host.fs =
      .error e) (hcopies : ∀ source target, e ≠ copyException host source target) :
    ¬ AllPresent host appDir args := by
  rcases injectResources_eq_error h with
    ⟨source, target, heq⟩ | ⟨before, resourcePath, after, hsplit, hmissing⟩
  · exact absurd heq (hcopies source target)
  · obtain ⟨before', rest, hsegments, rfl, hrest⟩ := List.map_eq_append_iff.mp hsplit
    obtain ⟨segment, after', rfl, rfl, rfl⟩ := List.map_eq_cons_iff.mp hrest
    rw [List.map_map] at hmissing
    exact fun hall => hmissing (hall before' segment after' hsegments)

/-- **When the named resources and nothing else are injected.** For every app directory and all
arguments with which no copy fails: whenever all listed paths exist, they must not get into each
other's way; and if one is gone when it is its turn, two must have one last component. -/
theorem injectsOrThrows_iff (host : InjectionHost) (appDir : Path) (args : NSDictionary ArgValue)
    (hcopies : ∀ source target,
      injectFromArgs host appDir args ≠ .error (copyException host source target)) :
    InjectsOrThrows host appDir args ↔
      ((∀ path ∈ listedPaths host args, host.fs.Exists path) →
        (AllPresent host appDir args → ResourcesFit host appDir args) ∧
          (¬ AllPresent host appDir args → ¬ DistinctNames host args)) := by
  by_cases hall : ∀ segment ∈ segments args, host.fs.Exists (pathOf host segment)
  · have hrun : injectFromArgs host appDir args =
        injectResources host appDir ((segments args).map host.toHost.expandPath) host.fs := by
      rw [injectFromArgs, resourcesFromArgs_eq, if_pos hall]
      rfl
    have hlisted : ∀ path ∈ listedPaths host args, host.fs.Exists path := by
      intro path hpath
      obtain ⟨segment, hsegment, rfl⟩ := List.mem_map.mp (mem_of_mem_listedPaths hpath)
      exact hall segment hsegment
    rw [InjectsOrThrows, imp_iff_right hlisted]
    cases hresult : injectFromArgs host appDir args with
    | ok result =>
      have hpresent := allPresent_of_eq_ok (hrun.symm.trans hresult)
      simp only [hpresent, true_implies, not_true_eq_false, false_implies, and_true]
      exact injectsExactly_iff (hrun.symm.trans hresult)
    | error e =>
      have hgone : ¬ AllPresent host appDir args :=
        not_allPresent_of_eq_error (hrun.symm.trans hresult) fun source target heq =>
          hcopies source target (heq ▸ hresult)
      simp only [hgone, false_implies, not_false_eq_true, true_implies, true_and]
      refine or_iff_right ?_
      rintro ⟨path, hpath, hnot⟩
      exact hnot (hlisted path hpath)
  · have hrun : injectFromArgs host appDir args = .error (.named "InvalidArgumentException"
        "The specified resource for injection does not exist") := by
      rw [injectFromArgs, resourcesFromArgs_eq, if_neg hall]
      rfl
    have hmissing : ∃ path ∈ listedPaths host args, ¬ host.fs.Exists path := by
      simp only [not_forall] at hall
      obtain ⟨segment, hsegment, hnot⟩ := hall
      rcases mem_segments (List.mem_map_of_mem hsegment) with hlisted | ⟨-, heq⟩
      · exact ⟨_, hlisted, hnot⟩
      · -- the current directory exists
        rw [heq] at hnot
        exact absurd host.exists_current hnot
    rw [InjectsOrThrows, hrun]
    obtain ⟨path, hpath, hnot⟩ := hmissing
    exact iff_of_true (.inl ⟨path, hpath, hnot⟩) fun h => absurd (h path hpath) hnot

/-- The targets of paths with different last components are different. -/
theorem getLast?_eq_of_targetFile_prefix {source path below : Path} (hsource : source ≠ [])
    (hpath : path ≠ []) (h : targetFile appDir source <+: targetFile appDir path ++ below) :
    source.getLast? = path.getLast? := by
  obtain ⟨name, hname⟩ := Option.isSome_iff_exists.mp (List.getLast?_isSome.mpr hsource)
  obtain ⟨other, hother⟩ := Option.isSome_iff_exists.mp (List.getLast?_isSome.mpr hpath)
  rw [targetFile, targetFile, hname, hother, List.append_assoc,
    List.prefix_append_right_inj] at h
  obtain ⟨rfl, -⟩ := List.cons_prefix_cons.mp h
  rw [hname, hother]

/-- Resources outside the app directory have a last component. -/
theorem ne_nil_of_apart {path : Path} (h : PathStore.Apart appDir path) : path ≠ [] := by
  rintro rfl
  exact h.2 List.nil_prefix

/-- Resources outside the app directory stay where they are. -/
theorem origin_of_apart {path : Path} (h : PathStore.Apart appDir path) (before : List Path)
    (below : Path) : origin appDir before (path ++ below) = path ++ below := by
  refine origin_eq_self fun source _ hpre => ?_
  have hdir := (List.prefix_append appDir source.getLast?.toList).trans hpre
  exact (List.prefix_or_prefix_of_prefix hdir (List.prefix_append path below)).elim h.1 h.2

/-- The target of one of several resources outside the app directory with different last components
is led back to that resource. -/
theorem origin_targetFile {sources : List Path} {path : Path}
    (hnames : (sources.map fun path => path.getLast?).Nodup)
    (hapart : ∀ source ∈ sources, PathStore.Apart appDir source) (hpath : path ∈ sources)
    (below : Path) : origin appDir sources (targetFile appDir path ++ below) = path ++ below := by
  obtain ⟨before, after, rfl⟩ := List.append_of_mem hpath
  rw [List.map_append, List.map_cons] at hnames
  rw [origin, List.foldr_append, List.foldr_cons, ← origin, ← origin]
  have hafter : origin appDir after (targetFile appDir path ++ below) =
      targetFile appDir path ++ below := by
    refine origin_eq_self fun source hsource hpre => ?_
    have hmem : source ∈ before ++ path :: after :=
      List.mem_append_right _ (List.mem_cons_of_mem _ hsource)
    have hname := getLast?_eq_of_targetFile_prefix (ne_nil_of_apart (hapart source hmem))
      (ne_nil_of_apart (hapart path hpath)) hpre
    have hfresh := (List.nodup_cons.mp (List.nodup_append.mp hnames).2.1).1
    exact hfresh (hname ▸ List.mem_map_of_mem hsource)
  rw [hafter, PathStore.redirect, if_pos (List.prefix_append _ _), List.drop_left,
    origin_of_apart (hapart path hpath)]

/-- Resources outside the app directory with different last components do not get into each other's
way when no segment is empty. -/
theorem resourcesFit_of_apart (hempty : "" ∉ segments args) (hnames : DistinctNames host args)
    (hapart : ∀ path ∈ listedPaths host args, PathStore.Apart appDir path) :
    ResourcesFit host appDir args := by
  have hsources : (segments args).map (pathOf host) = listedPaths host args := by
    rw [listedPaths, List.filter_eq_self.mpr]
    intro segment hsegment
    simpa using fun heq : segment = "" => hempty (heq ▸ hsegment)
  refine ⟨hnames, fun h => absurd h hempty, fun path hpath below => ?_⟩
  rw [hsources, origin_targetFile hnames hapart hpath]

end

/-! ### A current directory that is injected -/

/-- A work directory with a file, and an app beside it. -/
def sampleFiles : FileSystem :=
  ((PathStore.empty.create ["work"]).create ["Payload", "My.app"]).write ["work"] "a" [1]
    (by decide +kernel) (by decide +kernel)

/-- The host that works in this directory. -/
def sampleHost : InjectionHost where
  toHost := { ResignAllCommand.oneProfileHost with
    item := fun path => if sampleFiles.Exists (Path.ofText path) then some (.file path) else none
    currentDirectoryPath := "/work" }
  fs := sampleFiles
  item_fs path := by simp
  exists_current := by decide +kernel
  copyError _ _ := ""

/-- The arguments with a resources path. -/
def resourcesArgs (resourcePaths : String) : NSDictionary ArgValue :=
  NSDictionary.empty.setObject resourcesPathOptionName (.string resourcePaths)

theorem segments_file : segments (resourcesArgs "a") = ["a"] := by
  have hsplit : "a".splitOn ":" = ["a"] := by
    rw [String.splitOn, if_neg (by decide), String.splitOnAux, if_neg (by decide +kernel),
      if_neg (by decide +kernel), String.splitOnAux, if_pos (by decide +kernel)]
    decide +kernel
  exact hsplit

theorem segments_colon : segments (resourcesArgs "a:") = ["a", ""] := by
  have hsplit : "a:".splitOn ":" = ["a", ""] := by
    rw [String.splitOn, if_neg (by decide), String.splitOnAux, if_neg (by decide +kernel),
      if_neg (by decide +kernel), String.splitOnAux, if_neg (by decide +kernel),
      if_pos (by decide +kernel), if_pos (by decide +kernel), String.splitOnAux,
      if_pos (by decide +kernel)]
    decide +kernel
  exact hsplit

/-- One resource is injected, and nothing else. -/
theorem injectsOrThrows_file : InjectsOrThrows sampleHost ["Payload", "My.app"]
    (resourcesArgs "a") := by
  have hlisted : listedPaths sampleHost (resourcesArgs "a") = [["work", "a"]] := by
    rw [listedPaths, segments_file]
    decide +kernel
  have hrun : injectFromArgs sampleHost ["Payload", "My.app"] (resourcesArgs "a") =
      injectResources sampleHost ["Payload", "My.app"] ["/work/a"] sampleFiles := by
    rw [injectFromArgs, resourcesFromArgs_eq, segments_file, if_pos (by decide +kernel)]
    rfl
  have hokay : (injectResources sampleHost ["Payload", "My.app"] ["/work/a"]
      sampleFiles).toOption.isSome = true := by decide +kernel
  have hfit : ResourcesFit sampleHost ["Payload", "My.app"] (resourcesArgs "a") := by
    refine resourcesFit_of_apart ?_ ?_ ?_
    · rw [segments_file]
      decide
    · rw [DistinctNames, hlisted]
      exact List.nodup_singleton _
    · rw [hlisted]
      simp [PathStore.Apart]
  have hpresent : AllPresent sampleHost ["Payload", "My.app"] (resourcesArgs "a") := by
    intro before segment after hsplit
    rw [segments_file] at hsplit
    obtain ⟨rfl, rfl⟩ : before = [] ∧ segment = "a" := by
      cases before <;> simp_all
    decide +kernel
  refine (injectsOrThrows_iff sampleHost ["Payload", "My.app"] (resourcesArgs "a")
    fun source target hthrown => ?_).mpr fun _ => ⟨fun _ => hfit, fun h => absurd hpresent h⟩
  rw [← hrun, hthrown] at hokay
  cases hokay

/-- With a colon after it, the current directory is injected too. -/
theorem not_injectsOrThrows_colon :
    (∀ path ∈ listedPaths sampleHost (resourcesArgs "a:"), sampleFiles.Exists path) ∧
      ¬ InjectsOrThrows sampleHost ["Payload", "My.app"] (resourcesArgs "a:") := by
  have hlisted : listedPaths sampleHost (resourcesArgs "a:") = [["work", "a"]] := by
    rw [listedPaths, segments_colon]
    decide +kernel
  have hrun : injectFromArgs sampleHost ["Payload", "My.app"] (resourcesArgs "a:") =
      injectResources sampleHost ["Payload", "My.app"] ["/work/a", "/work/"] sampleFiles := by
    rw [injectFromArgs, resourcesFromArgs_eq, segments_colon, if_pos (by decide +kernel)]
    rfl
  have hinjections : (injectResources sampleHost ["Payload", "My.app"] ["/work/a", "/work/"]
      sampleFiles).toOption.map Prod.snd =
        some [.copied ["work", "a"] ["Payload", "My.app", "a"],
          .copied ["work"] ["Payload", "My.app", "work"]] := by decide +kernel
  refine ⟨by rw [hlisted]; decide +kernel, fun h => ?_⟩
  rw [InjectsOrThrows, hrun] at h
  cases hresult : injectResources sampleHost ["Payload", "My.app"] ["/work/a", "/work/"]
      sampleFiles with
  | error e =>
    rw [hresult] at hinjections
    cases hinjections
  | ok result =>
    rw [hresult] at h hinjections
    have hcopied : .copied ["work"] ["Payload", "My.app", "work"] ∈ result.2 := by
      rw [Option.some.inj hinjections]
      simp
    obtain ⟨path, hpath, htarget⟩ := h.nothingElse _ hcopied
    rw [hlisted, List.mem_singleton] at hpath
    rw [hpath] at htarget
    exact absurd htarget (by decide)

end ResourceInjection

end IOSDeviceManager
