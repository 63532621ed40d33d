import IOSDeviceManager.General.PreorderWalk
import IOSDeviceManager.Resigning.SigningOrder

/-! # Signing nothing twice

A plugin bundle is gone through once more when it is resigned itself. What has been signed by then
is told by its team only: it is passed over if the bundle has a team, and another one than the new
signatures. Where that is so, every object and every bundle is signed once at most. -/

namespace IOSDeviceManager

open General

/-- A text has not two suffixes of which neither is one of the other. -/
theorem NSString.hasSuffix_eq_false {s suffix other : String} (h : hasSuffix s suffix = true)
    (hshort : ¬ other.toList <:+ suffix.toList) (hlong : ¬ suffix.toList <:+ other.toList) :
    hasSuffix s other = false := by
  refine Bool.eq_false_iff.mpr fun hother => ?_
  rcases List.suffix_or_suffix_of_suffix (List.isSuffixOf_iff_suffix.mp h)
    (List.isSuffixOf_iff_suffix.mp hother) with hsuffix | hsuffix
  · exact hlong hsuffix
  · exact hshort hsuffix

namespace SigningRun

/-! ## What is signed -/

/-- An object or a plugin bundle, by its name. -/
def isResignable (path : Path) : Bool :=
  FileUtils.isDylibOrFramework path || isResignableBundle path

/-- A name with another suffix is not resignable. -/
theorem isResignable_eq_false {path : Path} (suffix : String)
    (h : Path.hasSuffix path suffix = true)
    (hother : [".framework", ".dylib", ".xctest", ".appex"].all (fun other =>
      !other.toList.isSuffixOf suffix.toList && !suffix.toList.isSuffixOf other.toList) = true) :
    isResignable path = false := by
  have hnone : ∀ other ∈ [".framework", ".dylib", ".xctest", ".appex"],
      Path.hasSuffix path other = false := by
    intro other hmem
    have hapart := List.all_eq_true.mp hother other hmem
    simp only [Bool.and_eq_true, Bool.not_eq_true', List.isSuffixOf_iff_suffix,
      ← Bool.not_eq_true] at hapart
    exact NSString.hasSuffix_eq_false h hapart.1 hapart.2
  simp [isResignable, FileUtils.isDylibOrFramework, isResignableBundle, hnone]

/-- A bundle is no object. -/
theorem isDylibOrFramework_eq_false {path : Path} (h : isResignableBundle path = true) :
    FileUtils.isDylibOrFramework path = false := by
  rw [FileUtils.isDylibOrFramework]
  rcases Bool.or_eq_true_iff.mp h with hsuffix | hsuffix
  · rw [Path.hasSuffix, Path.hasSuffix,
      NSString.hasSuffix_eq_false hsuffix (by decide) (by decide),
      NSString.hasSuffix_eq_false hsuffix (by decide) (by decide)]
    rfl
  · rw [Path.hasSuffix, Path.hasSuffix,
      NSString.hasSuffix_eq_false hsuffix (by decide) (by decide),
      NSString.hasSuffix_eq_false hsuffix (by decide) (by decide)]
    rfl

/-- A bundle is not the library that is always resigned. -/
theorem lastPathComponent_ne_calabash {path : Path} (h : isResignableBundle path = true) :
    Path.lastPathComponent path ≠ "calabash.dylib" := by
  intro hname
  have hobject : FileUtils.isDylibOrFramework path = true := by
    rw [FileUtils.isDylibOrFramework, Path.hasSuffix, Path.hasSuffix, hname]
    decide
  rw [isDylibOrFramework_eq_false h] at hobject
  cases hobject

/-- How often a path is signed. -/
def timesSigned (events : List Event) (path : Path) : Nat :=
  (events.map Event.action).count (.sign path)

@[simp] theorem timesSigned_nil (path : Path) : timesSigned [] path = 0 := rfl

@[simp] theorem timesSigned_append (events events' : List Event) (path : Path) :
    timesSigned (events ++ events') path = timesSigned events path + timesSigned events' path := by
  rw [timesSigned, List.map_append, List.count_append]
  rfl

theorem timesSigned_cons (e : Event) (events : List Event) (path : Path) :
    timesSigned (e :: events) path =
      timesSigned events path + if e.action = .sign path then 1 else 0 := by
  rw [timesSigned, List.map_cons, List.count_cons]
  simp [timesSigned]

/-- Nothing is signed where nothing happens but writes, removals and rejections. -/
theorem timesSigned_eq_zero {events : List Event} {path : Path}
    (h : ∀ e ∈ events, e.action ≠ .sign path) : timesSigned events path = 0 := by
  refine List.count_eq_zero.mpr fun hmem => ?_
  obtain ⟨e, he, haction⟩ := List.mem_map.mp hmem
  exact h e he haction

/-- No object or plugin bundle is signed twice. -/
def SignsOnce (events : List Event) : Prop :=
  ∀ path, isResignable path = true → timesSigned events path ≤ 1

/-! ## The rule of `shouldResign:inAppDir:` -/

/-- A signature of a team. -/
def signedBy (team : String) : CodesignInfo :=
  ⟨true, some team⟩

/-- What is passed over: the app directory has a team, and the object not the same. -/
theorem shouldResign_eq_false_iff {s : SigningState} {objectPath appDir : Path} :
    shouldResign s objectPath appDir = false ↔
      Path.lastPathComponent objectPath ≠ "calabash.dylib" ∧
        ∃ old, s.info appDir = signedBy old ∧ old ≠ "not set" ∧
          objectSigningID s objectPath ≠ some old := by
  rcases happ : s.info appDir with ⟨signed, team⟩
  unfold shouldResign
  cases signed with
  | false => simp [isCodesigned, happ, signedBy]
  | true =>
    cases team with
    | none => simp [isCodesigned, objectSigningID, happ, signedBy]
    | some old => simp [isCodesigned, objectSigningID, happ, signedBy, and_comm]

/-- The app directory has a team, and another one than the given. -/
def HasOtherTeam (app : CodesignInfo) (team : String) : Prop :=
  ∃ old, app = signedBy old ∧ old ≠ "not set" ∧ old ≠ team

/-- Such a directory passes over what has the given team. -/
theorem HasOtherTeam.shouldResign_eq_false {s : SigningState} {objectPath appDir : Path}
    {team : String} (happ : HasOtherTeam (s.info appDir) team)
    (hname : Path.lastPathComponent objectPath ≠ "calabash.dylib")
    (hobject : s.info objectPath = signedBy team) : shouldResign s objectPath appDir = false := by
  obtain ⟨old, hold, hset, hne⟩ := happ
  refine shouldResign_eq_false_iff.mpr ⟨hname, old, hold, hset, ?_⟩
  rw [objectSigningID, isCodesigned, hobject]
  simpa [signedBy] using Ne.symm hne

/-- The rule depends on the two signatures only. -/
theorem shouldResign_congr {s s' : SigningState} {objectPath appDir : Path}
    (happ : s'.info appDir = s.info appDir) (hobject : s'.info objectPath = s.info objectPath) :
    shouldResign s' objectPath appDir = shouldResign s objectPath appDir := by
  unfold shouldResign objectSigningID isCodesigned
  rw [happ, hobject]

/-! ## The calls of `codesign` -/

/-- A `codesign` call gives the path its team, and an object's call perhaps what is inside as well;
nothing else is affected. -/
structure SetsTeam (tools : SigningTools) (team : CodesignIdentity → String) : Prop where
  own : ∀ identity path info, tools.codesign identity path info path = signedBy (team identity)
  inside : ∀ identity path info q, FileUtils.isDylibOrFramework path = true → path <+: q →
    tools.codesign identity path info q = info q ∨
      tools.codesign identity path info q = signedBy (team identity)
  outside : ∀ identity path info q, ¬ path <+: q → tools.codesign identity path info q = info q
  bundle : ∀ identity path info q, FileUtils.isDylibOrFramework path = false → q ≠ path →
    tools.codesign identity path info q = info q

section Parts

variable {tools : SigningTools} {team : CodesignIdentity → String} {identity : CodesignIdentity}
  {calls : List Path} {appDir : Path}

/-! ### The objects -/

/-- Where everything is passed over, nothing is signed. -/
theorem signObjects_of_rejected (tools : SigningTools) (identity : CodesignIdentity)
    (calls : List Path) {files : List Path} {s : SigningState}
    (h : ∀ path ∈ files, FileUtils.isDylibOrFramework path = true →
      shouldResign s path appDir = false) :
    (signObjects tools identity calls appDir files s).2 = s ∧
      ∀ path, timesSigned (signObjects tools identity calls appDir files s).1 path = 0 := by
  induction files with
  | nil => exact ⟨rfl, fun path => rfl⟩
  | cons file files ih =>
    rw [List.forall_mem_cons] at h
    obtain ⟨hstate, htimes⟩ := ih h.2
    unfold signObjects
    split
    · rename_i hobject
      rw [h.1 hobject, if_neg Bool.false_ne_true]
      refine ⟨hstate, fun path => ?_⟩
      rw [timesSigned_cons, htimes path]
      simp
    · exact ⟨hstate, htimes⟩

/-- What the loop over the objects does, from a state on. -/
structure ObjectsSpec (team : String) (appDir : Path) (files : List Path) (s : SigningState)
    (r : List Event × SigningState) : Prop where
  times : ∀ path, timesSigned r.1 path =
    if FileUtils.isDylibOrFramework path = true ∧ shouldResign s path appDir = true then
      files.count path else 0
  signed : ∀ path ∈ files, FileUtils.isDylibOrFramework path = true →
    shouldResign s path appDir = true → r.2.info path = signedBy team
  /-- Whatever else has changed lies in an object that was signed. -/
  changed : ∀ q, r.2.info q = s.info q ∨ r.2.info q = signedBy team ∧ ∃ path ∈ files,
    FileUtils.isDylibOrFramework path = true ∧ shouldResign s path appDir = true ∧ path <+: q

/-- A file that is no object, or is passed over. -/
theorem ObjectsSpec.pass {newTeam : String} {file : Path} {files : List Path} {s : SigningState}
    {r : List Event × SigningState} {events : List Event}
    (h : ObjectsSpec newTeam appDir files s r)
    (hpass : ¬ (FileUtils.isDylibOrFramework file = true ∧ shouldResign s file appDir = true))
    (hevents : ∀ path, timesSigned events path = timesSigned r.1 path) :
    ObjectsSpec newTeam appDir (file :: files) s (events, r.2) := by
  refine ⟨fun path => ?_, fun path hpath hobj hresign => ?_, fun q => ?_⟩
  · rw [hevents path, h.times path, List.count_cons]
    by_cases hsame : file = path
    · subst hsame
      rw [if_neg hpass, if_neg hpass]
    · simp [hsame]
  · rcases List.mem_cons.mp hpath with rfl | hmem
    · exact absurd ⟨hobj, hresign⟩ hpass
    · exact h.signed path hmem hobj hresign
  · exact (h.changed q).imp_right fun ⟨hnewTeam, path, hmem, h⟩ =>
      ⟨hnewTeam, path, List.mem_cons_of_mem _ hmem, h⟩

/-- An object that is signed. -/
theorem ObjectsSpec.sign (hteam : SetsTeam tools team) {file : Path} {files : List Path}
    {s : SigningState} {r : List Event × SigningState}
    (h : ObjectsSpec (team identity) appDir files (codesign tools identity file s) r)
    (hobject : FileUtils.isDylibOrFramework file = true)
    (hsign : shouldResign s file appDir = true) (hlater : ∀ path ∈ files, ¬ file <+: path)
    (happ : ¬ file <+: appDir) :
    ObjectsSpec (team identity) appDir (file :: files) s (⟨calls, .sign file⟩ :: r.1, r.2) := by
  -- What comes later is judged as before: it does not lie in the file.
  have hrule : ∀ path ∈ files,
      shouldResign (codesign tools identity file s) path appDir = shouldResign s path appDir :=
    fun path hpath => shouldResign_congr (hteam.outside _ _ _ _ happ)
      (hteam.outside _ _ _ _ (hlater path hpath))
  have hnew : file ∉ files := fun hmem => hlater file hmem (List.prefix_refl _)
  refine ⟨fun path => ?_, fun path hpath hobj hresign => ?_, fun q => ?_⟩
  · rw [timesSigned_cons, h.times path, List.count_cons]
    by_cases hsame : file = path
    · subst hsame
      simp [hobject, hsign, List.count_eq_zero.mpr hnew]
    · by_cases hmem : path ∈ files
      · simp [hrule path hmem, hsame]
      · simp [List.count_eq_zero.mpr hmem, hsame]
  · rcases List.mem_cons.mp hpath with rfl | hmem
    · rcases h.changed path with hsame | ⟨hnewTeam, -⟩
      · exact hsame.trans (hteam.own _ _ _)
      · exact hnewTeam
    · exact h.signed path hmem hobj ((hrule path hmem).trans hresign)
  · rcases h.changed q with hsame | ⟨hnewTeam, path, hmem, hobj, hresign, hpre⟩
    · by_cases hpre : file <+: q
      · rcases hteam.inside identity file s.info q hobject hpre with hkept | hnewTeam
        · exact .inl (hsame.trans hkept)
        · exact .inr ⟨hsame.trans hnewTeam, file, List.mem_cons_self, hobject, hsign, hpre⟩
      · exact .inl (hsame.trans (hteam.outside _ _ _ _ hpre))
    · exact .inr ⟨hnewTeam, path, List.mem_cons_of_mem _ hmem, hobj,
        (hrule path hmem).symm.trans hresign, hpre⟩

/-- **The loop over the objects**, what is inside before what contains it. -/
theorem objectsSpec (identity : CodesignIdentity) (calls : List Path)
    (hteam : SetsTeam tools team) {files : List Path}
    (hfiles : files.Pairwise fun path later => ¬ path <+: later)
    (happ : ∀ path ∈ files, FileUtils.isDylibOrFramework path = true → ¬ path <+: appDir)
    (s : SigningState) :
    ObjectsSpec (team identity) appDir files s
      (signObjects tools identity calls appDir files s) := by
  induction files generalizing s with
  | nil =>
    refine ⟨fun path => ?_, fun path hpath => absurd hpath List.not_mem_nil, fun q => .inl rfl⟩
    simp [signObjects]
  | cons file files ih =>
    rw [List.pairwise_cons] at hfiles
    rw [List.forall_mem_cons] at happ
    unfold signObjects
    split
    · rename_i hobject
      split
      · rename_i hsign
        exact (ih hfiles.2 happ.2 _).sign hteam hobject hsign hfiles.1 (happ.1 hobject)
      · rename_i hpass
        refine (ih hfiles.2 happ.2 s).pass (fun h => hpass h.2) fun path => ?_
        simp [timesSigned_cons]
    · rename_i hnot
      exact (ih hfiles.2 happ.2 s).pass (fun h => hnot h.1) fun _ => rfl

/-! ### The writes -/

/-- No resignable path is added to a tree, and the names stay distinct. -/
structure AddsNone (t t' : FileTree) : Prop where
  distinctNames : t.DistinctNames → t'.DistinctNames
  found : ∀ path, isResignable path = true → (t'.find path).isSome → (t.find path).isSome

theorem AddsNone.refl (t : FileTree) : AddsNone t t :=
  ⟨id, fun _ _ h => h⟩

theorem AddsNone.trans {t t' t'' : FileTree} (h : AddsNone t t') (h' : AddsNone t' t'') :
    AddsNone t t'' :=
  ⟨fun hnames => h'.distinctNames (h.distinctNames hnames),
    fun path hpath hfound => h.found path hpath (h'.found path hpath hfound)⟩

/-- What the writes of a call leave alone. -/
structure WritesNone (s : SigningState) (r : List Event × SigningState) : Prop where
  info : r.2.info = s.info
  tree : AddsNone s.tree r.2.tree
  times : ∀ path, timesSigned r.1 path = 0

theorem WritesNone.trans {s : SigningState} {r r' : List Event × SigningState}
    (h : WritesNone s r) (h' : WritesNone r.2 r') : WritesNone s (r.1 ++ r'.1, r'.2) :=
  ⟨h'.info.trans h.info, h.tree.trans h'.tree, fun path => by
    rw [timesSigned_append, h.times path, h'.times path]⟩

/-- A file of another name is written. -/
theorem writesNone_writeToFile {name reason : String} {s : SigningState}
    {r : List Event × SigningState} (hname : isResignable (appDir ++ [name]) = false)
    (h : writeToFile calls appDir name reason s = .ok r) : WritesNone s r := by
  unfold writeToFile at h
  split at h
  · obtain rfl := Except.ok.inj h
    refine ⟨rfl, ⟨fun hnames => hnames.update_put_file name appDir, fun path hpath hfound => ?_⟩,
      fun path => timesSigned_eq_zero fun e he => ?_⟩
    · rcases DirectoryTree.isSome_find_of_update_put_file hfound with rfl | hold
      · rw [hname] at hpath
        cases hpath
      · exact hold
    · rw [List.mem_singleton.mp he]
      simp
  · cases h

/-- A file of another name is removed. -/
theorem writesNone_removeIfExists {name : String} (s : SigningState)
    (hname : isResignable (appDir ++ [name]) = false) :
    WritesNone s (removeIfExists calls appDir name s) := by
  unfold removeIfExists
  split
  · refine ⟨rfl, ⟨fun hnames => hnames.update_erase name appDir, fun path hpath hfound => ?_⟩,
      fun path => timesSigned_eq_zero fun e he => ?_⟩
    · rcases DirectoryTree.isSome_find_of_update_erase hfound with rfl | hold
      · rw [hname] at hpath
        cases hpath
      · exact hold
    · rw [List.mem_singleton.mp he]
      simp
  · exact ⟨rfl, AddsNone.refl _, fun path => rfl⟩

/-- **The writes** of a call without resources. -/
theorem writesNone_writeAppDir {s : SigningState} {r : List Event × SigningState}
    (h : writeAppDir tools identity calls appDir [] s = .ok r) : WritesNone s r := by
  obtain ⟨entitlementsMap, hmap, h⟩ := Codesigner.bind_eq_ok_iff.mp h
  obtain ⟨injected, hinject, h⟩ := Codesigner.bind_eq_ok_iff.mp h
  obtain ⟨entitlements, hentitlements, h⟩ := Codesigner.bind_eq_ok_iff.mp h
  obtain rfl := Except.ok.inj h
  obtain rfl := Except.ok.inj hinject
  have hlast : ∀ name, Path.lastPathComponent (appDir ++ [name]) = name := by
    intro name
    simp [Path.lastPathComponent]
  have hplist : isResignable (appDir ++ ["XTCEntitlementsMeta.plist"]) = false :=
    isResignable_eq_false ".plist" (by rw [Path.hasSuffix, hlast]; decide) (by decide)
  have hprofile : isResignable (appDir ++ ["embedded.mobileprovision"]) = false :=
    isResignable_eq_false ".mobileprovision"
      (by rw [Path.hasSuffix, hlast]; decide) (by decide)
  have hxcent : isResignable (appDir ++ [xcentFilename (Path.lastPathComponent appDir)]) = false :=
    isResignable_eq_false ".xcent"
      (by rw [Path.hasSuffix, hlast, xcentFilename]; exact NSString.hasSuffix_append _ _) (by decide)
  have hwrites := ((writesNone_writeToFile hplist hmap).trans
    (writesNone_removeIfExists _ hprofile)).trans
      (writesNone_writeToFile hxcent hentitlements)
  simpa using hwrites

/-! ### The bundles -/

/-- Where every bundle is passed over, nothing is signed. -/
theorem resignBundles_of_rejected {resign : Path → SigningState → Result} {files : List Path}
    {s : SigningState} {r : List Event × SigningState}
    (hfiles : ∀ file ∈ files, isResignableBundle file = true →
      shouldResign s file appDir = false)
    (h : resignBundles resign calls appDir files s = .ok r) :
    r.2 = s ∧ ∀ path, timesSigned r.1 path = 0 := by
  induction files generalizing r with
  | nil =>
    obtain rfl := Except.ok.inj h
    exact ⟨rfl, fun path => rfl⟩
  | cons file files ih =>
    rw [List.forall_mem_cons] at hfiles
    rw [resignBundles] at h
    split at h
    · rename_i hbundle
      rw [hfiles.1 hbundle, if_neg Bool.false_ne_true] at h
      obtain ⟨rest, hrest, h⟩ := Codesigner.bind_eq_ok_iff.mp h
      obtain rfl := Except.ok.inj h
      obtain ⟨hstate, htimes⟩ := ih hfiles.2 hrest
      refine ⟨hstate, fun path => ?_⟩
      rw [timesSigned_cons, htimes path]
      simp
    · exact ih hfiles.2 h

/-- What a call on a bundle goes through: the objects in it, and the bundles in its plugins
directory. -/
structure IsContent (s : SigningState) (bundle path : Path) : Prop where
  found : (s.tree.find path).isSome
  contains : Contains bundle path
  kind : FileUtils.isDylibOrFramework path = true ∨
    isResignableBundle path = true ∧ pluginsPath bundle <+: path

/-- What a call on a bundle does if it signs nothing but the bundle. -/
structure SignsOnly (newTeam : String) (bundle : Path) (s : SigningState)
    (r : List Event × SigningState) : Prop where
  tree : AddsNone s.tree r.2.tree
  own : r.2.info bundle = signedBy newTeam
  others : ∀ q, isResignable q = true ∨ ¬ bundle <+: q → q ≠ bundle → r.2.info q = s.info q
  times : ∀ path, isResignable path = true →
    timesSigned r.1 path = if path = bundle then 1 else 0

/-- The names of the executables of a bundle are not those of objects or bundles. -/
def ExecutableApart (tools : SigningTools) (bundle : Path) : Prop :=
  ∀ s infoPlist bundleExec, (tools.bundle s bundle).infoPlist = some infoPlist →
    infoPlist.bundleExecutable = some bundleExec → isResignable (bundle ++ [bundleExec]) = false

/-- What is listed is there. -/
theorem mem_files_iff {tree : FileTree} (htree : tree.DistinctNames) {root path : Path}
    {files : List Path}
    (h : FileUtils.depthFirstPathsStartingAtDirectory tree root = some files) :
    path ∈ files ↔ root <+: path ∧ (tree.find path).isSome := by
  obtain ⟨sub, hsub, rfl⟩ := Option.map_eq_some_iff.mp h
  rw [DirectoryTree.walk_singleton, DirectoryTree.mem_preorder_iff (htree.of_find hsub)]
  constructor
  · rintro ⟨below, rfl, hbelow⟩
    exact ⟨List.prefix_append _ _, by rwa [DirectoryTree.find_append, hsub]⟩
  · rintro ⟨⟨below, rfl⟩, hfound⟩
    rw [DirectoryTree.find_append, hsub] at hfound
    exact ⟨below, rfl, hfound⟩

/-- Backwards, nothing comes after what it lies in. -/
theorem pairwise_reverse_files {tree : FileTree} (htree : tree.DistinctNames) {root : Path}
    {files : List Path}
    (h : FileUtils.depthFirstPathsStartingAtDirectory tree root = some files) :
    files.reverse.Pairwise fun path later => ¬ path <+: later := by
  obtain ⟨sub, hsub, rfl⟩ := Option.map_eq_some_iff.mp h
  rw [DirectoryTree.walk_singleton]
  exact List.pairwise_reverse.mpr ((htree.of_find hsub).pairwise_preorder root)

/-- Where every plugin bundle is passed over, nothing is signed. -/
theorem resignPlugins_of_rejected {resign : Path → SigningState → Result} {s : SigningState}
    {r : List Event × SigningState} (hnames : s.tree.DistinctNames)
    (hrejected : ∀ path, pluginsPath appDir <+: path → (s.tree.find path).isSome →
      isResignableBundle path = true → shouldResign s path appDir = false)
    (h : resignPlugins resign calls appDir s = .ok r) :
    r.2 = s ∧ ∀ path, timesSigned r.1 path = 0 := by
  unfold resignPlugins at h
  split at h
  · obtain rfl := Except.ok.inj h
    exact ⟨rfl, fun path => rfl⟩
  · rename_i pluginFiles hfiles
    refine resignBundles_of_rejected (fun file hfile hbundle => ?_) h
    obtain ⟨hpre, hfound⟩ := (mem_files_iff hnames hfiles).mp (List.mem_reverse.mp hfile)
    exact hrejected file hpre hfound hbundle

/-- The files of a call are those of its app directory. -/
theorem filesForResigning_eq_ok_iff {s : SigningState} {files : List Path} :
    filesForResigning s appDir = .ok files ↔
      FileUtils.depthFirstPathsStartingAtDirectory s.tree appDir = some files := by
  unfold filesForResigning
  split
  · rename_i hnone
    simp [hnone]
  · rename_i found hfound
    simp [hfound]

/-- The last call of `codesign` in a run: the executable is none of what is resigned. -/
theorem timesSigned_resignBundle {bundleExec : String} {s : SigningState} {path : Path}
    (hpath : isResignable path = true) (hexec : isResignable (appDir ++ [bundleExec]) = false) :
    timesSigned (resignBundle tools identity calls appDir bundleExec s).1 path =
      if path = appDir then 1 else 0 := by
  have hne : path ≠ appDir ++ [bundleExec] := by
    rintro rfl
    rw [hexec] at hpath
    cases hpath
  simp [resignBundle, timesSigned_cons, hne, eq_comm]

/-- **A call that rejects what is in the bundle** signs the bundle only. -/
theorem signsOnly_resignAppDir (hteam : SetsTeam tools team) {fuel : Nat} {outer : List Path}
    {bundle : Path} {s : SigningState} {r : List Event × SigningState}
    (hnames : s.tree.DistinctNames) (hbundle : isResignableBundle bundle = true)
    (hidentity : Codesigner.chooseIdentity tools.environment tools.profile none = .ok identity)
    (hexec : ExecutableApart tools bundle)
    (hcontents : ∀ path, IsContent s bundle path → shouldResign s path bundle = false)
    (h : resignAppDir tools fuel outer bundle none [] s = .ok r) :
    SignsOnly (team identity) bundle s r := by
  cases fuel with
  | zero => cases h
  | succ fuel =>
    obtain ⟨identity', infoPlist, bundleExec, written, files, plugins, hidentity', hinfo, hname,
      hwritten, hfiles, hplugins, rfl⟩ := resignAppDir_eq_ok h
    obtain rfl : identity = identity' := Except.ok.inj (hidentity.symm.trans hidentity')
    have hapart := hexec s infoPlist bundleExec hinfo hname
    have hnotObject := isDylibOrFramework_eq_false hbundle
    obtain ⟨hwrittenInfo, hwrittenTree, hwrittenTimes⟩ := writesNone_writeAppDir hwritten
    have hwrittenNames := hwrittenTree.distinctNames hnames
    -- the writes change no signature, so the bundle rejects after them what it rejected before
    have hrule : ∀ path, shouldResign written.2 path bundle = shouldResign s path bundle :=
      fun path => shouldResign_congr (by rw [hwrittenInfo]) (by rw [hwrittenInfo])
    have hobjectsRejected : ∀ path ∈ files.reverse, FileUtils.isDylibOrFramework path = true →
        shouldResign written.2 path bundle = false := by
      intro path hpath hobject
      obtain ⟨hpre, hfound⟩ := (mem_files_iff hwrittenNames
        (filesForResigning_eq_ok_iff.mp hfiles)).mp (List.mem_reverse.mp hpath)
      have hold := hwrittenTree.found path (by simp [isResignable, hobject]) hfound
      rw [hrule path]
      refine hcontents path ⟨hold, ⟨hpre, ?_⟩, .inl hobject⟩
      rintro rfl
      rw [hnotObject] at hobject
      cases hobject
    have hbundlesRejected : ∀ path, pluginsPath bundle <+: path →
        (written.2.tree.find path).isSome → isResignableBundle path = true →
          shouldResign written.2 path bundle = false := by
      intro path hpre hfound hkind
      have hold := hwrittenTree.found path (by simp [isResignable, hkind]) hfound
      rw [hrule path]
      exact hcontents path ⟨hold, contains_of_pluginsPath hpre, .inr ⟨hkind, hpre⟩⟩
    -- both loops pass over all they meet, so only the executable and the bundle are signed
    obtain ⟨hobjects, hobjectTimes⟩ := signObjects_of_rejected tools identity (bundle :: outer)
      hobjectsRejected
    rw [hobjects] at hplugins
    obtain ⟨hstate, hpluginTimes⟩ := resignPlugins_of_rejected hwrittenNames hbundlesRejected
      hplugins
    refine ⟨?_, ?_, fun q hq hne => ?_, fun path hpath => ?_⟩
    · rw [hstate]
      exact hwrittenTree
    · exact hteam.own _ _ _
    · have hexecNe : q ≠ bundle ++ [bundleExec] := by
        rintro rfl
        rcases hq with hq | hq
        · rw [hapart] at hq
          cases hq
        · exact hq (List.prefix_append _ _)
      have hexecKind : FileUtils.isDylibOrFramework (bundle ++ [bundleExec]) = false :=
        (Bool.or_eq_false_iff.mp hapart).1
      calc (resignBundle tools identity (bundle :: outer) bundle bundleExec plugins.2).2.info q
          = (codesign tools identity (bundle ++ [bundleExec]) plugins.2).info q :=
            hteam.bundle _ _ _ _ hnotObject hne
        _ = plugins.2.info q := hteam.bundle _ _ _ _ hexecKind hexecNe
        _ = s.info q := by rw [hstate, hwrittenInfo]
    · simp only [timesSigned_append, hwrittenTimes, hobjectTimes, hpluginTimes,
        timesSigned_resignBundle hpath hapart, Nat.zero_add]

/-! ### The walk through the plugins directory -/

/-- A bundle that the app's walk resigns. -/
def isCalled (s : SigningState) (appDir path : Path) : Bool :=
  isResignableBundle path && shouldResign s path appDir

/-- The state after a part of the walk: the bundles that were called have the new team, the other
paths their old signatures. -/
structure Walked (newTeam : String) (appDir : Path) (before : SigningState) (done : List Path)
    (s : SigningState) : Prop where
  tree : AddsNone before.tree s.tree
  app : s.info appDir = before.info appDir
  info : ∀ path, isResignable path = true → s.info path =
    if path ∈ done ∧ isCalled before appDir path = true then signedBy newTeam
    else before.info path

/-- What is still to come is judged as before the walk. -/
theorem Walked.shouldResign_eq {newTeam : String} {before s : SigningState} {done : List Path}
    {file : Path} (h : Walked newTeam appDir before done s) (hkind : isResignable file = true)
    (hnew : file ∉ done) : shouldResign s file appDir = shouldResign before file appDir := by
  refine shouldResign_congr h.app ?_
  rw [h.info file hkind, if_neg fun hdone => hnew hdone.1]

/-- A file that is not called is as it was. -/
theorem Walked.pass {newTeam : String} {before s : SigningState} {done : List Path} {file : Path}
    (h : Walked newTeam appDir before done s) (hnot : isCalled before appDir file = false) :
    Walked newTeam appDir before (done ++ [file]) s := by
  refine ⟨h.tree, h.app, fun path hpath => ?_⟩
  rw [h.info path hpath]
  by_cases hsame : path = file
  · simp [hsame, hnot]
  · simp [hsame]

/-- A bundle that is called gets the new team. -/
theorem Walked.call {newTeam : String} {before s : SigningState} {done : List Path} {file : Path}
    {r : List Event × SigningState} (h : Walked newTeam appDir before done s)
    (hcontains : Contains appDir file) (hcalled : isCalled before appDir file = true)
    (hsigns : SignsOnly newTeam file s r) :
    Walked newTeam appDir before (done ++ [file]) r.2 := by
  refine ⟨h.tree.trans hsigns.tree, ?_, fun path hpath => ?_⟩
  · have hapart : ¬ file <+: appDir := fun hpre =>
      hcontains.2 (hcontains.1.eq_of_length_le hpre.length_le)
    rw [hsigns.others appDir (.inr hapart) hcontains.2, h.app]
  · by_cases hsame : path = file
    · simp [hsame, hsigns.own, hcalled]
    · rw [hsigns.others path (.inl hpath) hsame, h.info path hpath]
      simp [hsame]

/-- How often a path is to be signed by the walk, once a file of it is behind. -/
theorem called_cons {before : SigningState} {file : Path} {files : List Path} (hnew : file ∉ files)
    (path : Path) :
    (if path ∈ file :: files ∧ isCalled before appDir path = true then 1 else 0) =
      (if path = file ∧ isCalled before appDir file = true then 1 else 0) +
        if path ∈ files ∧ isCalled before appDir path = true then 1 else 0 := by
  by_cases hsame : path = file
  · simp [hsame, hnew]
  · simp [hsame]

/-- **The walk**, if every call signs its bundle only. -/
theorem walked_resignBundles {newTeam : String} {resign : Path → SigningState → Result}
    {before s : SigningState} {done files : List Path} {r : List Event × SigningState}
    (hnodup : (done ++ files).Nodup) (hfiles : ∀ file ∈ files, Contains appDir file)
    (hcall : ∀ done' file later s r, done ++ files = done' ++ file :: later →
      Walked newTeam appDir before done' s → isCalled before appDir file = true →
        resign file s = .ok r → SignsOnly newTeam file s r)
    (hwalked : Walked newTeam appDir before done s)
    (h : resignBundles resign calls appDir files s = .ok r) :
    ∀ path, isResignable path = true → timesSigned r.1 path =
      if path ∈ files ∧ isCalled before appDir path = true then 1 else 0 := by
  induction files generalizing done s r with
  | nil =>
    obtain rfl := Except.ok.inj h
    simp
  | cons file files ih =>
    rw [List.forall_mem_cons] at hfiles
    have hsplit : done ++ file :: files = (done ++ [file]) ++ files := by simp
    have hnew : file ∉ done := fun hmem =>
      (List.nodup_append.mp hnodup).2.2 file hmem file List.mem_cons_self rfl
    have hlater : file ∉ files :=
      (List.nodup_cons.mp (List.nodup_append.mp hnodup).2.1).1
    -- The rest of the walk, from the state after this file.
    have hrest : ∀ s r, Walked newTeam appDir before (done ++ [file]) s →
        resignBundles resign calls appDir files s = .ok r → ∀ path, isResignable path = true →
          timesSigned r.1 path =
            if path ∈ files ∧ isCalled before appDir path = true then 1 else 0 := by
      intro s r hwalked hrun
      rw [hsplit] at hnodup hcall
      exact ih hnodup hfiles.2 hcall hwalked hrun
    intro path hpath
    rw [called_cons hlater]
    rw [resignBundles] at h
    split at h
    · rename_i hbundle
      have hkind : isResignable file = true := by simp [isResignable, hbundle]
      have hcalled : isCalled before appDir file = shouldResign s file appDir := by
        rw [isCalled, hbundle, Bool.true_and, hwalked.shouldResign_eq hkind hnew]
      split at h
      · rename_i hsign
        obtain ⟨bundle, hrun, h⟩ := Codesigner.bind_eq_ok_iff.mp h
        obtain ⟨rest, hrestRun, h⟩ := Codesigner.bind_eq_ok_iff.mp h
        obtain rfl := Except.ok.inj h
        have hcalled := hcalled.trans hsign
        have hsigns := hcall done file files s bundle rfl hwalked hcalled hrun
        rw [timesSigned_append, hsigns.times path hpath,
          hrest _ _ (hwalked.call hfiles.1 hcalled hsigns) hrestRun path hpath]
        simp [hcalled]
      · rename_i hpass
        obtain ⟨rest, hrestRun, h⟩ := Codesigner.bind_eq_ok_iff.mp h
        obtain rfl := Except.ok.inj h
        have hnot : isCalled before appDir file = false := by simpa [hcalled] using hpass
        rw [timesSigned_cons, hrest _ _ (hwalked.pass hnot) hrestRun path hpath]
        simp [hnot]
    · rename_i hbundle
      have hnot : isCalled before appDir file = false := by simp [isCalled, hbundle]
      rw [hrest _ _ (hwalked.pass hnot) h path hpath]
      simp [hnot]

/-! ### What tells that something is signed -/

/-- A bundle that the walk through the plugins directory comes to. -/
structure IsPlugin (appDir : Path) (s : SigningState) (bundle : Path) : Prop where
  kind : isResignableBundle bundle = true
  inPlugins : pluginsPath appDir <+: bundle
  found : (s.tree.find bundle).isSome

/-- What has been signed is told by its team: a plugin bundle that is resigned has another team than
what is signed in it before. -/
structure TellsSigned (tools : SigningTools) (team : CodesignIdentity → String)
    (identity : CodesignIdentity) (appDir : Path) (s : SigningState) : Prop where
  objects : ∀ bundle path, IsPlugin appDir s bundle → shouldResign s bundle appDir = true →
    IsContent s bundle path → FileUtils.isDylibOrFramework path = true →
      shouldResign s path appDir = true →
        Path.lastPathComponent path ≠ "calabash.dylib" ∧
          HasOtherTeam (s.info bundle) (team identity)
  bundles : ∀ bundle path, IsPlugin appDir s bundle → shouldResign s bundle appDir = true →
    IsContent s bundle path → isResignableBundle path = true →
      shouldResign s path appDir = true →
        ∀ inner, Codesigner.chooseIdentity tools.environment tools.profile none = .ok inner →
          HasOtherTeam (s.info bundle) (team inner)
  /-- Around a plugin bundle, an object is resigned only if the app has another team. -/
  frameworks : ∀ object bundle path, (s.tree.find object).isSome →
    FileUtils.isDylibOrFramework object = true → shouldResign s object appDir = true →
      Contains object bundle → IsPlugin appDir s bundle → IsContent s bundle path →
        HasOtherTeam (s.info appDir) (team identity)
  executables : ∀ bundle, bundle = appDir ∨ IsPlugin appDir s bundle →
    ExecutableApart tools bundle
  app : isResignable appDir = false

/-- The state after the loop over the objects of the app. -/
structure ObjectsSigned (newTeam : String) (appDir : Path) (s signed : SigningState) : Prop where
  tree : AddsNone s.tree signed.tree
  app : signed.info appDir = s.info appDir
  objects : ∀ path, appDir <+: path → (signed.tree.find path).isSome →
    FileUtils.isDylibOrFramework path = true → shouldResign s path appDir = true →
      signed.info path = signedBy newTeam
  changed : ∀ path, signed.info path = s.info path ∨ signed.info path = signedBy newTeam ∧
    ∃ object, (s.tree.find object).isSome ∧ FileUtils.isDylibOrFramework object = true ∧
      shouldResign s object appDir = true ∧ object <+: path

/-- Of two paths around a third, one lies in the other. -/
theorem contains_or_contains {p q path : Path} (hp : p <+: path) (hq : q <+: path) (hne : p ≠ q) :
    Contains p q ∨ Contains q p :=
  (List.prefix_or_prefix_of_prefix hp hq).imp (fun h => ⟨h, hne⟩) fun h => ⟨h, hne.symm⟩

section Told

variable {inner : CodesignIdentity} {s signed now : SigningState} {done : List Path}
  {bundle path : Path}

/-- In an app with a team, every bundle that is resigned has the same team. -/
theorem info_eq_of_shouldResign {old : String} (hbundle : isResignableBundle bundle = true)
    (happ : s.info appDir = signedBy old) (hset : old ≠ "not set")
    (hcalled : shouldResign s bundle appDir = true) : s.info bundle = signedBy old := by
  by_contra hother
  have hrejected : shouldResign s bundle appDir = false := by
    refine shouldResign_eq_false_iff.mpr
      ⟨lastPathComponent_ne_calabash hbundle, old, happ, hset, fun hsame => hother ?_⟩
    unfold objectSigningID isCodesigned at hsame
    split at hsame
    · rename_i hcodesigned
      cases hinfo : s.info bundle with
      | mk codesigned teamIdentifier =>
        rw [hinfo] at hsame hcodesigned
        rw [signedBy, ← hsame, ← hcodesigned]
    · cases hsame
  rw [hrejected] at hcalled
  cases hcalled

/-- What the app passes over is passed over by a bundle that it resigns, if neither has changed: the
bundle has the team of the app. -/
theorem shouldResign_of_passed (hbundle : isResignableBundle bundle = true)
    (hcalled : shouldResign s bundle appDir = true) (hinfo : now.info bundle = s.info bundle)
    (hrejected : shouldResign s path appDir = false) (hsame : now.info path = s.info path) :
    shouldResign now path bundle = false := by
  obtain ⟨hname, old, happ, hset, hother⟩ := shouldResign_eq_false_iff.mp hrejected
  refine shouldResign_eq_false_iff.mpr ⟨hname, old, ?_, hset, ?_⟩
  · rw [hinfo]
    exact info_eq_of_shouldResign hbundle happ hset hcalled
  · rwa [objectSigningID, isCodesigned, hsame]

variable (htells : TellsSigned tools team identity appDir s)
include htells

/-- A bundle that is resigned has another team than what was signed in it with an object. -/
theorem hasOtherTeam_of_changed (hbundle : IsPlugin appDir s bundle)
    (hcontent : IsContent s bundle path) (hcalled : shouldResign s bundle appDir = true)
    {object : Path} (hfound : (s.tree.find object).isSome)
    (hobject : FileUtils.isDylibOrFramework object = true)
    (hresign : shouldResign s object appDir = true) (hpre : object <+: path) :
    HasOtherTeam (s.info bundle) (team identity) := by
  have hne : object ≠ bundle := by
    rintro rfl
    rw [isDylibOrFramework_eq_false hbundle.kind] at hobject
    cases hobject
  rcases contains_or_contains hpre hcontent.contains.1 hne with hcontains | hcontains
  · -- The object lies around the bundle, which has the team of the app.
    obtain ⟨old, happ, hset, hother⟩ := htells.frameworks object bundle path hfound hobject hresign
      hcontains hbundle hcontent
    exact ⟨old, info_eq_of_shouldResign hbundle.kind happ hset hcalled, hset, hother⟩
  · exact (htells.objects bundle object hbundle hcalled ⟨hfound, hcontains, .inl hobject⟩ hobject
      hresign).2

variable (hsigned : ObjectsSigned (team identity) appDir s signed)
include hsigned

/-- The bundle that is called has its old signature. -/
theorem info_of_called (hbundle : IsPlugin appDir s bundle) (hcontent : IsContent s bundle path)
    (hcalled : shouldResign signed bundle appDir = true) : signed.info bundle = s.info bundle := by
  rcases hsigned.changed bundle with hsame | ⟨hnew, object, hfound, hobject, hresign, hpre⟩
  · exact hsame
  · have hcontains : Contains object bundle := by
      refine ⟨hpre, ?_⟩
      rintro rfl
      rw [isDylibOrFramework_eq_false hbundle.kind] at hobject
      cases hobject
    have happ := htells.frameworks object bundle path hfound hobject hresign hcontains hbundle
      hcontent
    rw [← hsigned.app] at happ
    rw [happ.shouldResign_eq_false (lastPathComponent_ne_calabash hbundle.kind) hnew] at hcalled
    cases hcalled

/-- A path in it that an object around it has changed is rejected. -/
theorem shouldResign_of_changed (hbundle : IsPlugin appDir s bundle)
    (hcontent : IsContent s bundle path) (hcalled : shouldResign s bundle appDir = true)
    (hinfo : now.info bundle = s.info bundle)
    (hname : Path.lastPathComponent path ≠ "calabash.dylib") (hnow : now.info path = signed.info path)
    (hrejected : signed.info path = s.info path → shouldResign now path bundle = false) :
    shouldResign now path bundle = false := by
  rcases hsigned.changed path with hsame | ⟨hnew, object, hfound, hobject, hsign, hpre⟩
  · exact hrejected hsame
  · have hother := hasOtherTeam_of_changed htells hbundle hcontent hcalled hfound hobject hsign hpre
    rw [← hinfo] at hother
    exact hother.shouldResign_eq_false hname (hnow.trans hnew)

/-- An object in a bundle that is called is rejected. -/
theorem shouldResign_object (hbundle : IsPlugin appDir s bundle) (hcontent : IsContent s bundle path)
    (hcalled : shouldResign s bundle appDir = true) (hinfo : now.info bundle = s.info bundle)
    (hfound : (signed.tree.find path).isSome) (hobject : FileUtils.isDylibOrFramework path = true)
    (hnow : now.info path = signed.info path) : shouldResign now path bundle = false := by
  have happ : appDir <+: path :=
    (contains_of_pluginsPath hbundle.inPlugins).1.trans hcontent.contains.1
  by_cases hresign : shouldResign s path appDir = true
  · obtain ⟨hname, hother⟩ := htells.objects bundle path hbundle hcalled hcontent hobject hresign
    rw [← hinfo] at hother
    exact hother.shouldResign_eq_false hname
      (hnow.trans (hsigned.objects path happ hfound hobject hresign))
  · have hrejected : shouldResign s path appDir = false := by simpa using hresign
    exact shouldResign_of_changed htells hsigned hbundle hcontent hcalled hinfo
      (shouldResign_eq_false_iff.mp hrejected).1 hnow fun hsame =>
        shouldResign_of_passed hbundle.kind hcalled hinfo hrejected (hnow.trans hsame)

/-- A bundle that the app passes over at the start is passed over by the walk: an object around it
that was signed has told that the app has another team. -/
theorem shouldResign_signed_eq_false (hbundle : IsPlugin appDir s bundle)
    (hcontent : IsContent s bundle path) (hcalled : shouldResign s bundle appDir = true)
    (hinside : isResignableBundle path = true) (hrejected : shouldResign s path appDir = false) :
    shouldResign signed path appDir = false := by
  rcases hsigned.changed path with hsame | ⟨hnew, object, hfound, hobject, hsign, hpre⟩
  · rw [shouldResign_congr hsigned.app hsame, hrejected]
  · obtain ⟨old, hold, hset, hother⟩ := hasOtherTeam_of_changed htells hbundle hcontent hcalled
      hfound hobject hsign hpre
    obtain ⟨-, appTeam, happ, happSet, -⟩ := shouldResign_eq_false_iff.mp hrejected
    have hteamBundle := info_eq_of_shouldResign hbundle.kind happ happSet hcalled
    have happOther : HasOtherTeam (signed.info appDir) (team identity) := by
      rw [hsigned.app, happ, ← hteamBundle]
      exact ⟨old, hold, hset, hother⟩
    exact happOther.shouldResign_eq_false (lastPathComponent_ne_calabash hinside) hnew

/-- A bundle in a bundle that is called is rejected. -/
theorem shouldResign_plugin (hwalked : Walked (team inner) appDir signed done now)
    (hinner : Codesigner.chooseIdentity tools.environment tools.profile none = .ok inner)
    (hbundle : IsPlugin appDir s bundle) (hcontent : IsContent s bundle path)
    (hcalled : shouldResign s bundle appDir = true) (hinfo : now.info bundle = s.info bundle)
    (hinside : isResignableBundle path = true) (hmem : path ∈ done) :
    shouldResign now path bundle = false := by
  have hname := lastPathComponent_ne_calabash hinside
  have hnow := hwalked.info path (by simp [isResignable, hinside])
  by_cases hcall : shouldResign signed path appDir = true
  · rw [if_pos ⟨hmem, by rw [isCalled, hinside, hcall, Bool.and_self]⟩] at hnow
    by_cases hresign : shouldResign s path appDir = true
    · have hother := htells.bundles bundle path hbundle hcalled hcontent hinside hresign inner hinner
      rw [← hinfo] at hother
      exact hother.shouldResign_eq_false hname hnow
    · have hrejected : shouldResign s path appDir = false := by simpa using hresign
      rw [shouldResign_signed_eq_false htells hsigned hbundle hcontent hcalled hinside
        hrejected] at hcall
      cases hcall
  · rw [if_neg fun h => hcall (Bool.and_eq_true_iff.mp h.2).2] at hnow
    refine shouldResign_of_changed htells hsigned hbundle hcontent hcalled hinfo hname hnow
      fun hsame => ?_
    have hrejected : shouldResign s path appDir = false := by
      rw [← shouldResign_congr hsigned.app hsame]
      simpa using hcall
    exact shouldResign_of_passed hbundle.kind hcalled hinfo hrejected (hnow.trans hsame)

/-- **What is in a bundle that is called is rejected.** -/
theorem shouldResign_content (hwalked : Walked (team inner) appDir signed done now)
    (hinner : Codesigner.chooseIdentity tools.environment tools.profile none = .ok inner)
    (hbundle : IsPlugin appDir s bundle) (hnew : bundle ∉ done)
    (hcalled : isCalled signed appDir bundle = true)
    (hdone : ∀ q, isResignableBundle q = true → (signed.tree.find q).isSome →
      pluginsPath bundle <+: q → q ∈ done)
    (hcontent : IsContent now bundle path) : shouldResign now path bundle = false := by
  have hkind : isResignable path = true := by
    rcases hcontent.kind with hobject | ⟨hinside, -⟩
    · simp [isResignable, hobject]
    · simp [isResignable, hinside]
  have hfound := hwalked.tree.found path hkind hcontent.found
  have hcontentOld : IsContent s bundle path :=
    ⟨hsigned.tree.found path hkind hfound, hcontent.contains, hcontent.kind⟩
  obtain ⟨-, hcalledSigned⟩ := Bool.and_eq_true_iff.mp hcalled
  -- The bundle has its old signature, and was accepted at the start.
  have hinfoSigned : signed.info bundle = s.info bundle :=
    info_of_called htells hsigned hbundle hcontentOld hcalledSigned
  have hinfo : now.info bundle = s.info bundle := by
    rw [hwalked.info bundle (by simp [isResignable, hbundle.kind]), if_neg fun h => hnew h.1,
      hinfoSigned]
  have hcalledOld : shouldResign s bundle appDir = true := by
    rw [← hcalledSigned]
    exact shouldResign_congr hsigned.app.symm hinfoSigned.symm
  rcases hcontent.kind with hobject | ⟨hinside, hplugins⟩
  · refine shouldResign_object htells hsigned hbundle hcontentOld hcalledOld hinfo hfound hobject ?_
    rw [hwalked.info path hkind, if_neg fun h => ?_]
    obtain ⟨hinside, -⟩ := Bool.and_eq_true_iff.mp h.2
    rw [isDylibOrFramework_eq_false hinside] at hobject
    cases hobject
  · exact shouldResign_plugin htells hsigned hwalked hinner hbundle hcontentOld hcalledOld hinfo
      hinside (hdone path hinside hfound hplugins)

end Told

/-! ### The whole run -/

/-- The objects of the app, after the writes. -/
theorem objectsSigned (identity : CodesignIdentity) (calls : List Path)
    (hteam : SetsTeam tools team) (happ : isResignable appDir = false)
    {s : SigningState} {written : List Event × SigningState} {files : List Path}
    (hnames : written.2.tree.DistinctNames) (hwritten : WritesNone s written)
    (hfiles : FileUtils.depthFirstPathsStartingAtDirectory written.2.tree appDir = some files) :
    ObjectsSigned (team identity) appDir s
        (signObjects tools identity calls appDir files.reverse written.2).2 ∧
      ∀ path, timesSigned (signObjects tools identity calls appDir files.reverse written.2).1 path ≤
        if FileUtils.isDylibOrFramework path = true then 1 else 0 := by
  have hlisted : ∀ path, path ∈ files.reverse ↔
      appDir <+: path ∧ (written.2.tree.find path).isSome := fun path =>
    List.mem_reverse.trans (mem_files_iff hnames hfiles)
  -- each path comes once, and after all that lies in it
  have horder := pairwise_reverse_files hnames hfiles
  have hnotAbove : ∀ path ∈ files.reverse, FileUtils.isDylibOrFramework path = true →
      ¬ path <+: appDir := by
    intro path hpath hobject hpre
    obtain rfl : path = appDir := hpre.eq_of_length_le ((hlisted path).mp hpath).1.length_le
    rw [isResignable, hobject, Bool.true_or] at happ
    cases happ
  -- the writes change no signature
  have hrule : ∀ path, shouldResign written.2 path appDir = shouldResign s path appDir :=
    fun path => shouldResign_congr (by rw [hwritten.info]) (by rw [hwritten.info])
  obtain ⟨htimes, hsigned, hchanged⟩ :=
    objectsSpec identity calls hteam horder hnotAbove written.2
  refine ⟨⟨?_, ?_, ?_, ?_⟩, ?_⟩
  · rw [tree_signObjects]
    exact hwritten.tree
  · rcases hchanged appDir with hsame | ⟨-, path, hpath, hobject, -, hpre⟩
    · rw [hsame, hwritten.info]
    · exact absurd hpre (hnotAbove path hpath hobject)
  · intro path hpre hfound hobject hresign
    rw [tree_signObjects] at hfound
    exact hsigned path ((hlisted path).mpr ⟨hpre, hfound⟩) hobject ((hrule path).trans hresign)
  · intro q
    rcases hchanged q with hsame | ⟨hnew, path, hpath, hobject, hresign, hpre⟩
    · left
      rw [hsame, hwritten.info]
    · have hfound := hwritten.tree.found path (by simp [isResignable, hobject])
        ((hlisted path).mp hpath).2
      exact .inr ⟨hnew, path, hfound, hobject, (hrule path).symm.trans hresign, hpre⟩
  · intro path
    rw [htimes path]
    by_cases hobject : FileUtils.isDylibOrFramework path = true
    · have honce : files.reverse.count path ≤ 1 := by
        refine List.nodup_iff_count_le_one.mp (horder.imp fun hnot heq => ?_) path
        rw [heq] at hnot
        exact hnot (List.prefix_refl _)
      split
      · simpa [hobject] using honce
      · exact Nat.zero_le _
    · simp [hobject]

/-- All calls on bundles sign for one team. -/
theorem exists_team_of_calls (tools : SigningTools) (team : CodesignIdentity → String) :
    ∃ newTeam, ∀ fuel outer bundle s r,
      resignAppDir tools fuel outer bundle none [] s = .ok r → ∃ inner,
        Codesigner.chooseIdentity tools.environment tools.profile none = .ok inner ∧
          team inner = newTeam := by
  cases hinner : Codesigner.chooseIdentity tools.environment tools.profile none with
  | ok inner => exact ⟨team inner, fun _ _ _ _ _ _ => ⟨inner, rfl, rfl⟩⟩
  | error e =>
    refine ⟨"", fun fuel outer bundle s r h => ?_⟩
    cases fuel with
    | zero => cases h
    | succ fuel =>
      obtain ⟨inner, _, _, _, _, _, hidentity, -⟩ := resignAppDir_eq_ok h
      rw [hinner] at hidentity
      cases hidentity

/-- The bundles in the plugins directory are signed once at most. -/
theorem timesSigned_resignPlugins_le (hteam : SetsTeam tools team) {fuel : Nat}
    {s signed : SigningState} {plugins : List Event × SigningState}
    (hnames : signed.tree.DistinctNames) (htells : TellsSigned tools team identity appDir s)
    (hsigned : ObjectsSigned (team identity) appDir s signed)
    (h : resignPlugins (fun file s => resignAppDir tools fuel calls file none [] s) calls appDir
      signed = .ok plugins) :
    ∀ path, isResignable path = true →
      timesSigned plugins.1 path ≤ if isResignableBundle path = true then 1 else 0 := by
  intro path hpath
  unfold resignPlugins at h
  split at h
  · obtain rfl := Except.ok.inj h
    simp
  · rename_i pluginFiles hfiles
    have hlisted : ∀ path, path ∈ pluginFiles.reverse ↔
        pluginsPath appDir <+: path ∧ (signed.tree.find path).isSome := fun path =>
      List.mem_reverse.trans (mem_files_iff hnames hfiles)
    have horder := pairwise_reverse_files hnames hfiles
    have hnodup : pluginFiles.reverse.Nodup := by
      refine horder.imp fun hnot heq => ?_
      rw [heq] at hnot
      exact hnot (List.prefix_refl _)
    obtain ⟨newTeam, hcalls⟩ := exists_team_of_calls tools team
    -- A call comes after everything in its bundle.
    have hcall : ∀ done file later now r, [] ++ pluginFiles.reverse = done ++ file :: later →
        Walked newTeam appDir signed done now → isCalled signed appDir file = true →
          resignAppDir tools fuel calls file none [] now = .ok r →
            SignsOnly newTeam file now r := by
      intro done file later now r hsplit hwalked hcalled hrun
      rw [List.nil_append] at hsplit
      obtain ⟨inner, hinner, rfl⟩ := hcalls fuel calls file now r hrun
      have hkind := (Bool.and_eq_true_iff.mp hcalled).1
      obtain ⟨hinPlugins, hfound⟩ := (hlisted file).mp (by simp [hsplit])
      have hplugin : IsPlugin appDir s file :=
        ⟨hkind, hinPlugins, hsigned.tree.found file (by simp [isResignable, hkind]) hfound⟩
      rw [hsplit, List.pairwise_append, List.pairwise_cons] at horder
      have hnew : file ∉ done := fun hmem =>
        horder.2.2 file hmem file List.mem_cons_self (List.prefix_refl _)
      have hdone : ∀ q, isResignableBundle q = true → (signed.tree.find q).isSome →
          pluginsPath file <+: q → q ∈ done := by
        intro q _ hq hpre
        have hcontains := contains_of_pluginsPath hpre
        have hmem := (hlisted q).mpr ⟨hinPlugins.trans hcontains.1, hq⟩
        rw [hsplit, List.mem_append, List.mem_cons] at hmem
        rcases hmem with hmem | rfl | hmem
        · exact hmem
        · exact absurd rfl hcontains.2
        · exact absurd hcontains.1 (horder.2.1.1 q hmem)
      exact signsOnly_resignAppDir hteam (hwalked.tree.distinctNames hnames) hkind hinner
        (htells.executables file (.inr hplugin)) (fun q hcontent => shouldResign_content htells
          hsigned hwalked hinner hplugin hnew hcalled hdone hcontent) hrun
    rw [walked_resignBundles (by simpa using hnodup)
      (fun file hfile => contains_of_pluginsPath ((hlisted file).mp hfile).1) hcall
      ⟨AddsNone.refl _, rfl, fun path _ => by simp⟩ h path hpath]
    by_cases hbundle : isResignableBundle path = true
    · rw [if_pos hbundle]
      split <;> simp
    · simp [isCalled, hbundle]

/-- **Once at most.** In every run that ends, for any tree of distinct names and any signatures,
each object and each bundle is signed once at most, if what has been signed is told. -/
theorem signsOnce (hteam : SetsTeam tools team) {fuel : Nat} {appDir : Path}
    {codesignIdentity : Option CodesignIdentity} {s : SigningState}
    {r : List Event × SigningState} (hnames : s.tree.DistinctNames)
    (hidentity : Codesigner.chooseIdentity tools.environment tools.profile codesignIdentity =
      .ok identity)
    (htells : TellsSigned tools team identity appDir s)
    (h : resignAppDir tools fuel [] appDir codesignIdentity [] s = .ok r) : SignsOnce r.1 := by
  cases fuel with
  | zero => cases h
  | succ fuel =>
    obtain ⟨identity', infoPlist, bundleExec, written, files, plugins, hidentity', hinfo, hname,
      hwritten, hfiles, hplugins, rfl⟩ := resignAppDir_eq_ok h
    obtain rfl : identity = identity' := Except.ok.inj (hidentity.symm.trans hidentity')
    have hapart := htells.executables appDir (.inl rfl) s infoPlist bundleExec hinfo hname
    have hwrites := writesNone_writeAppDir hwritten
    have hwrittenNames := hwrites.tree.distinctNames hnames
    obtain ⟨hsigned, hobjects⟩ := objectsSigned identity [appDir] hteam
      htells.app hwrittenNames hwrites (filesForResigning_eq_ok_iff.mp hfiles)
    have hplugin := timesSigned_resignPlugins_le hteam (by simpa using hwrittenNames) htells
      hsigned hplugins
    intro path hpath
    have hne : path ≠ appDir := by
      rintro rfl
      rw [htells.app] at hpath
      cases hpath
    have hobject := hobjects path
    have hbundle := hplugin path hpath
    -- an object is no bundle, so one of the two counts is zero
    have hapartKinds : FileUtils.isDylibOrFramework path = true →
        isResignableBundle path = false := by
      intro hobject
      by_contra hkind
      rw [isDylibOrFramework_eq_false (Bool.not_eq_false _ ▸ hkind)] at hobject
      cases hobject
    simp only [timesSigned_append, hwrites.times, timesSigned_resignBundle hpath hapart, if_neg hne]
    by_cases hkind : FileUtils.isDylibOrFramework path = true
    · rw [if_pos hkind] at hobject
      rw [hapartKinds hkind] at hbundle
      simp at hbundle
      omega
    · rw [if_neg hkind] at hobject
      have hle : timesSigned plugins.1 path ≤ 1 := hbundle.trans (by split <;> simp)
      omega

end Parts

/-! ### A plugin bundle with an object -/

theorem setsTeam_developmentTools : SetsTeam developmentTools fun _ => "ABCDE12345" := by
  refine ⟨fun _ path info => ?_, fun _ path info q hobject hpre => ?_,
    fun _ path info q hout => ?_, fun _ path info q hkind hne => ?_⟩
  · simp [developmentTools, signedBy]
  · exact .inr (by simp [developmentTools, signedBy, hobject, hpre])
  · have hne : q ≠ path := by
      rintro rfl
      exact hout (List.prefix_refl _)
    simp [developmentTools, hne, hout]
  · simp [developmentTools, hne, hkind]

/-- `My.app` with an object in a plugin bundle, all signed by one team. -/
def pluginState (team : String) : SigningState :=
  ⟨.directory "Payload" [.directory "My.app" [.directory "Plugins" [.directory "T.xctest"
    [.file "own.dylib"]]]], fun _ => signedBy team⟩

theorem distinctNames_pluginState (team : String) : (pluginState team).tree.DistinctNames := by
  have hone : ∀ (name : String) (t : FileTree), t.DistinctNames →
      DirectoryTree.DistinctNames (.directory name [t]) := fun name t ht =>
    .directory name (List.nodup_singleton _) (by simpa using ht)
  exact hone _ _ (hone _ _ (hone _ _ (hone _ _ (.file _))))

/-- The run for it. -/
def pluginRun (team : String) : Result :=
  resignAppDir developmentTools 3 [] ["My.app"] none [] (pluginState team)

/-- The object is signed again when the app has the new team already. -/
theorem not_signsOnce_sameTeam :
    SetsTeam developmentTools (fun _ => "ABCDE12345") ∧
      (pluginState "ABCDE12345").tree.DistinctNames ∧
        ∃ r, pluginRun "ABCDE12345" = .ok r ∧ ¬ SignsOnce r.1 := by
  refine ⟨setsTeam_developmentTools, distinctNames_pluginState _, ?_⟩
  have htwice : (pluginRun "ABCDE12345").toOption.map (fun r =>
      timesSigned r.1 ["My.app", "Plugins", "T.xctest", "own.dylib"]) = some 2 := by decide +kernel
  obtain ⟨r, hr, htimes⟩ := Option.map_eq_some_iff.mp htwice
  cases hrun : pluginRun "ABCDE12345" with
  | error stop =>
    rw [hrun] at hr
    cases hr
  | ok r' =>
    rw [hrun] at hr
    obtain rfl : r' = r := Option.some.inj hr
    refine ⟨r', rfl, fun honce => ?_⟩
    have hle := honce ["My.app", "Plugins", "T.xctest", "own.dylib"] (by decide)
    rw [htimes] at hle
    omega

/-- An app of another team tells what has been signed. -/
theorem tellsSigned_pluginState (identity : CodesignIdentity) :
    TellsSigned developmentTools (fun _ => "ABCDE12345") identity ["My.app"]
      (pluginState "OLDTEAM123") := by
  have hother : ∀ path, HasOtherTeam ((pluginState "OLDTEAM123").info path) "ABCDE12345" :=
    fun path => ⟨"OLDTEAM123", rfl, by decide, by decide⟩
  refine ⟨fun bundle path _ _ hcontent _ _ => ⟨?_, hother bundle⟩,
    fun bundle path _ _ _ _ _ _ _ => hother bundle, fun _ _ _ _ _ _ _ _ _ => hother _,
    fun bundle _ s infoPlist bundleExec hinfo hname => ?_, by decide⟩
  · have hmem := (DirectoryTree.mem_preorder_iff (distinctNames_pluginState _)).mpr
      ⟨path, (List.nil_append path).symm, hcontent.found⟩
    have hall : ∀ p ∈ DirectoryTree.preorder [] (pluginState "OLDTEAM123").tree,
        Path.lastPathComponent p ≠ "calabash.dylib" := by decide
    exact hall path hmem
  · obtain rfl : infoPlist = ⟨some "com.my.app", some "My"⟩ := (Option.some.inj hinfo).symm
    obtain rfl : bundleExec = "My" := (Option.some.inj hname).symm
    simp [isResignable, FileUtils.isDylibOrFramework, isResignableBundle, Path.hasSuffix,
      Path.lastPathComponent]
    decide

theorem signsOnce_otherTeam : ∃ r, pluginRun "OLDTEAM123" = .ok r ∧ SignsOnce r.1 := by
  have hok : (pluginRun "OLDTEAM123").isOk = true := by decide +kernel
  cases hrun : pluginRun "OLDTEAM123" with
  | error stop => simp [hrun, Except.isOk, Except.toBool] at hok
  | ok r =>
    obtain ⟨identity, _, _, _, _, _, hidentity, -⟩ := resignAppDir_eq_ok hrun
    exact ⟨r, rfl, signsOnce setsTeam_developmentTools (distinctNames_pluginState _) hidentity
      (tellsSigned_pluginState identity) hrun⟩

end SigningRun

end IOSDeviceManager
