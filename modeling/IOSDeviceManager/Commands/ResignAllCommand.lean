import IOSDeviceManager.Commands.Command
import IOSDeviceManager.Resigning.ResignAll
import IOSDeviceManager.Utilities.FileUtils

/-! # `ResignAllCommand`: the execution

The profiles are collected by a walk through the profiles directory, the app is resigned once for
each of them, and each time it is zipped into the output directory. The array the profiles are
collected in is never created, and the name of an archive depends on the app alone. -/

namespace IOSDeviceManager

open General

/-- `Application`, as far as the resigning uses it. -/
structure Application where
  type : ApplicationType
  appDir : AppDir
  /-- `hash`. -/
  hash : Int

/-- The host the command runs on. -/
structure Host where
  environment : SigningEnvironment
  /-- What is at a path, if anything. -/
  item : String → Option FileTree
  /-- The current date, in seconds since the reference date. -/
  now : ℚ
  /-- The profile that `security` exports from a file. -/
  exportedProfile : String → Option MobileProfile
  /-- `unzipToTmpDir:`. -/
  unzipToTmpDir : String → Except NSException String
  /-- `withBundlePath:` of `Application`. -/
  application : String → Option Application
  /-- `zipApp:to:`. -/
  zipApp : AppDir → String → Except NSException Unit
  currentDirectoryPath : String
  stringByStandardizingPath : String → String

namespace Host

/-- `expandPath:` of `FileUtils`. -/
def expandPath (host : Host) (path : String) : String :=
  FileUtils.expandPath host.currentDirectoryPath host.stringByStandardizingPath path

/-- `fileExistsAtPath:`. -/
def fileExistsAtPath (host : Host) (path : Option String) : Bool :=
  (path.bind host.item).isSome

/-- What is at a path, with the path, if that is a directory. -/
def directory (host : Host) (path : Option String) : Option (String × FileTree) :=
  path.bind fun dir =>
    ((host.item dir).filter DirectoryTree.isDirectory).map fun tree => (dir, tree)

/-- The `isDirectory:` result of `fileExistsAtPath:isDirectory:`. -/
def isDirectoryAtPath (host : Host) (path : Option String) : Bool :=
  (host.directory path).isSome

end Host

/-- `withPath:` of `MobileProfile`: the profile, or what is written to the console. -/
def MobileProfile.withPath (host : Host) (profilePath : Option String) :
    Except String MobileProfile :=
  if host.fileExistsAtPath profilePath then
    match profilePath.bind host.exportedProfile with
    | none =>
        .error ("Unable to create dictionary for profile at: " ++
          Codesigner.formatString profilePath)
    | some profile =>
        if profile.isExpired host.now then
          .error ("Profile expired at path: " ++ Codesigner.formatString profilePath)
        else .ok profile
  else .error ("No profile file at path: " ++ Codesigner.formatString profilePath)

/-- The string bound to an option. -/
def stringArg (args : NSDictionary ArgValue) (key : String) : Option String :=
  match args.objectForKey key with
  | some (.string s) => some s
  | _ => none

/-- `resourcesFromArgs:`. -/
def resourcesFromArgs (host : Host) (args : NSDictionary ArgValue) :
    Except NSException (List String) :=
  match stringArg args resourcesPathOptionName with
  | none => .ok []
  | some resourcePaths =>
      if resourcePaths = "" then .ok []
      else
        -- separate list of paths by colon
        let resources := (resourcePaths.splitOn ":").map host.expandPath
        if resources.all fun path => host.fileExistsAtPath (some path) then .ok resources
        else
          .error (.named "InvalidArgumentException"
            "The specified resource for injection does not exist")

namespace ResignAllCommand

/-- `PROFILES_PATH_OPTION_NAME`. -/
def profilesPathOptionName : String := "profiles-directory-path"

/-- `APP_PATH_OPTION_NAME`. -/
def appPathOptionName : String := "app-path"

/-- `OUTPUT_PATH_OPTION_NAME`. -/
def outputPathOptionName : String := "output-path"

/-- What an execution does. -/
structure Run where
  status : Except NSException IOSReturnStatusCode
  /-- The profiles for which the app was resigned, in order. -/
  resigned : List MobileProfile
  /-- The archives that were written, in order. -/
  archives : List String
  console : List String

/-- An execution that ends before the resigning. -/
def Run.ended (status : Except NSException IOSReturnStatusCode) (console : List String) : Run :=
  ⟨status, [], [], console⟩

/-- The path of an entry of the profiles directory. -/
def filePath (profilesDir : String) (below : Path) : String :=
  below.foldl NSString.stringByAppendingPathComponent profilesDir

/-- The message for a profile that cannot be created. -/
def unableToCreate (path : Option String) : String :=
  "Unable to create mobile profile for profile at: " ++ Codesigner.formatString path

/-- The block that `fileSeq:handler:` runs on each entry of the profiles directory; adding an object
to a `nil` array does nothing. -/
def collectProfile (host : Host) (profilesDir : String) (below : Path)
    (s : Option (List MobileProfile) × List String) : Option (List MobileProfile) × List String :=
  let filepath := filePath profilesDir below
  if NSString.hasSuffix filepath ".mobileprovision" then
    match MobileProfile.withPath host (some filepath) with
    | .error message => (s.1, s.2 ++ [message, unableToCreate (some filepath)])
    | .ok profile => (s.1.map fun mutableProfiles => mutableProfiles ++ [profile], s.2)
  else s

/-- The profiles and what was written to the console, or the end of the execution. The array for
those of a directory is declared only, so that it is `nil`. -/
def collectProfiles (host : Host) (profilesDir : Option String) :
    Except Run (Option (List MobileProfile) × List String) :=
  match host.directory profilesDir with
  | some (dir, tree) =>
      let mutableProfiles : Option (List MobileProfile) := none
      .ok (FileUtils.fileSeq (collectProfile host dir) [] tree (mutableProfiles, []))
  | none =>
      match MobileProfile.withPath host profilesDir with
      | .error message =>
          .error (.ended (.ok .internalError) [message, unableToCreate profilesDir])
      | .ok profile => .ok (some [profile], [])

/-- The archive of a resigned app. -/
def outputFile (app : Application) (outputPath : String) : String :=
  NSString.stringByAppendingPathComponent outputPath ("resigned-" ++ toString app.hash ++ ".ipa")

/-- The resigning for all profiles, with the handler that zips; there is no iteration over `nil`. -/
def resignAndZip (host : Host) (app : Application) (outputPath : String)
    (profiles : Option (List MobileProfile)) (console : List String) : Run :=
  let loop := Codesigner.resignApplication host.environment app.type app.appDir
    (profiles.getD []) fun appDir => host.zipApp appDir (outputFile app outputPath)
  { status := loop.2.elim (.ok .everythingOkay) .error
    resigned := (profiles.getD []).take loop.1.length
    archives := loop.1.map fun _ => outputFile app outputPath
    console := console }

/-- The application, or the end of the execution. -/
def applicationFromArgs (host : Host) (args : NSDictionary ArgValue) : Except Run Application :=
  match stringArg args appPathOptionName with
  | none => .error (.ended (.ok .invalidArguments) ["Resigning requires ipa path"])
  | some ipa =>
      if NSString.hasSuffix ipa ".ipa" then
        match host.unzipToTmpDir ipa with
        | .error e => .error (.ended (.error e) [])
        | .ok pathToBundle =>
            match host.application pathToBundle with
            | some app => .ok app
            | none =>
                .error (.ended (.ok .genericFailure)
                  ["Error creating application object for path: " ++ pathToBundle])
      else .error (.ended (.ok .invalidArguments) ["Resigning requires ipa path"])

/-- The output directory, or the end of the execution. -/
def outputPathFromArgs (host : Host) (args : NSDictionary ArgValue) : Except Run String :=
  match stringArg args outputPathOptionName with
  | some outputPath =>
      if host.isDirectoryAtPath (some outputPath) then .ok outputPath
      else
        .error (.ended (.ok .invalidArguments)
          ["Output path: " ++ outputPath ++ " is not a directory"])
  | none =>
      .error (.ended (.ok .invalidArguments) ["Output path: (null) is not a directory"])

/-- `execute:`. -/
def execute (host : Host) (args : NSDictionary ArgValue) : Run :=
  match applicationFromArgs host args with
  | .error run => run
  | .ok app =>
      match outputPathFromArgs host args with
      | .error run => run
      | .ok outputPath =>
          match collectProfiles host (stringArg args profilesPathOptionName) with
          | .error run => run
          | .ok (profiles, console) =>
              match resourcesFromArgs host args with
              | .error e => .ended (.error e) console
              | .ok _ => resignAndZip host app outputPath profiles console

/-! ## Collecting the profiles -/

/-- The profile of an entry of the profiles directory, if it is one that can be loaded. -/
def loadableProfile (host : Host) (profilesDir : String) (below : Path) : Option MobileProfile :=
  if NSString.hasSuffix (filePath profilesDir below) ".mobileprovision" then
    (MobileProfile.withPath host (some (filePath profilesDir below))).toOption
  else none

/-- The loadable profiles of a profiles directory, at any depth, or of a single profile file. -/
def loadableProfiles (host : Host) (profilesDir : Option String) : List MobileProfile :=
  match host.directory profilesDir with
  | some (dir, tree) => (tree.entries []).filterMap (loadableProfile host dir)
  | none => (MobileProfile.withPath host profilesDir).toOption.toList

/-- One entry adds its profile to the array, if there is an array. -/
theorem collectProfile_fst (host : Host) (profilesDir : String) (below : Path)
    (s : Option (List MobileProfile) × List String) :
    (collectProfile host profilesDir below s).1 =
      s.1.map fun profiles => profiles ++ (loadableProfile host profilesDir below).toList := by
  unfold collectProfile loadableProfile
  by_cases hsuffix : NSString.hasSuffix (filePath profilesDir below) ".mobileprovision" = true
  · simp only [hsuffix, if_true]
    cases MobileProfile.withPath host (some (filePath profilesDir below)) with
    | error message => simp [Except.toOption]
    | ok profile => simp [Except.toOption]
  · simp [hsuffix]

/-- **The walk.** The walk adds every loadable profile of the tree to the array once, if there is an
array. -/
theorem fileSeq_collectProfile_fst (host : Host) (profilesDir : String) (t : FileTree)
    (s : Option (List MobileProfile) × List String) :
    (FileUtils.fileSeq (collectProfile host profilesDir) [] t s).1 =
      s.1.map fun profiles =>
        profiles ++ (t.entries []).filterMap (loadableProfile host profilesDir) := by
  rw [FileUtils.fileSeq_eq_foldl]
  induction t.entries [] generalizing s with
  | nil => simp
  | cons below rest ih =>
    rw [List.foldl_cons, ih, collectProfile_fst, Option.map_map]
    congr 1
    funext profiles
    cases hload : loadableProfile host profilesDir below <;> simp [hload]

/-- Nothing is collected from a directory, and the one profile from a file. -/
theorem collectProfiles_eq_ok {host : Host} {profilesDir : Option String}
    {profiles : Option (List MobileProfile)} {console : List String}
    (h : collectProfiles host profilesDir = .ok (profiles, console)) :
    if host.isDirectoryAtPath profilesDir then profiles = none
    else ∃ profile, profiles = some [profile] ∧ loadableProfiles host profilesDir = [profile] := by
  unfold collectProfiles at h
  unfold Host.isDirectoryAtPath loadableProfiles
  cases hdirectory : host.directory profilesDir with
  | some found =>
    obtain ⟨dir, tree⟩ := found
    have hfst := fileSeq_collectProfile_fst host dir tree (none, [])
    simp only [hdirectory, Except.ok.injEq] at h
    rw [h] at hfst
    exact hfst
  | none =>
    cases hprofile : MobileProfile.withPath host profilesDir with
    | error message => simp [hdirectory, hprofile] at h
    | ok profile =>
      simp only [hdirectory, hprofile, Except.ok.injEq, Prod.mk.injEq] at h
      exact ⟨profile, h.1.symm, rfl⟩

/-! ## One archive for each profile -/

/-- **One name.** A run of the loop that ends without an exception resigns the app for every profile
and writes an archive of the same name each time. -/
theorem resignAndZip_of_okay {host : Host} {app : Application} {outputPath : String}
    {profiles : Option (List MobileProfile)} {console : List String}
    (h : (resignAndZip host app outputPath profiles console).status = .ok .everythingOkay) :
    (resignAndZip host app outputPath profiles console).resigned = profiles.getD [] ∧
      (resignAndZip host app outputPath profiles console).archives =
        List.replicate (profiles.getD []).length (outputFile app outputPath) := by
  have hnone : (Codesigner.resignApplication host.environment app.type app.appDir
      (profiles.getD []) fun appDir => host.zipApp appDir (outputFile app outputPath)).2 =
        none := by
    unfold resignAndZip at h
    rw [Option.eq_none_iff_forall_not_mem]
    intro e he
    simp [Option.mem_def.mp he] at h
  have hlength := Codesigner.length_resignApplication hnone
  refine ⟨?_, ?_⟩
  · simp only [resignAndZip, hlength, List.take_length]
  · simp only [resignAndZip, List.map_const', hlength]

/-- What is promised for `n` loadable profiles: the app is resigned once for each of them, and the
output directory gains `n` archives with different names. -/
structure OnePerProfile (host : Host) (args : NSDictionary ArgValue) : Prop where
  resigned : (execute host args).resigned.Perm
    (loadableProfiles host (stringArg args profilesPathOptionName))
  distinct : (execute host args).archives.Nodup
  count : (execute host args).archives.length =
    (loadableProfiles host (stringArg args profilesPathOptionName)).length
  gained : ∀ archive ∈ (execute host args).archives, host.item archive = none ∧
    ∃ outputPath name, stringArg args outputPathOptionName = some outputPath ∧
      archive = NSString.stringByAppendingPathComponent outputPath ("resigned-" ++ name ++ ".ipa")

/-- Without an application the execution does not succeed. -/
theorem status_ne_of_applicationFromArgs {host : Host} {args : NSDictionary ArgValue} {run : Run}
    (h : applicationFromArgs host args = .error run) : run.status ≠ .ok .everythingOkay := by
  unfold applicationFromArgs at h
  repeat' split at h
  all_goals try contradiction
  all_goals
    obtain rfl := Except.error.inj h
    simp [Run.ended]

/-- Without an output directory the execution does not succeed. -/
theorem status_ne_of_outputPathFromArgs {host : Host} {args : NSDictionary ArgValue} {run : Run}
    (h : outputPathFromArgs host args = .error run) : run.status ≠ .ok .everythingOkay := by
  unfold outputPathFromArgs at h
  repeat' split at h
  all_goals try contradiction
  all_goals
    obtain rfl := Except.error.inj h
    simp [Run.ended]

/-- Without profiles the execution does not succeed. -/
theorem status_ne_of_collectProfiles {host : Host} {profilesDir : Option String} {run : Run}
    (h : collectProfiles host profilesDir = .error run) : run.status ≠ .ok .everythingOkay := by
  unfold collectProfiles at h
  repeat' split at h
  all_goals try contradiction
  all_goals
    obtain rfl := Except.error.inj h
    simp [Run.ended]

/-- The output directory is the one in the arguments. -/
theorem stringArg_of_outputPathFromArgs {host : Host} {args : NSDictionary ArgValue}
    {outputPath : String} (h : outputPathFromArgs host args = .ok outputPath) :
    stringArg args outputPathOptionName = some outputPath := by
  unfold outputPathFromArgs at h
  split at h
  · rename_i path hpath
    split at h
    · rw [hpath, Except.ok.inj h]
    · cases h
  · cases h

/-- An execution that succeeds has found the application, the output directory and the profiles, and
has gone through the loop. -/
theorem execute_of_okay {host : Host} {args : NSDictionary ArgValue}
    (h : (execute host args).status = .ok .everythingOkay) :
    ∃ app outputPath profiles console, applicationFromArgs host args = .ok app ∧
      outputPathFromArgs host args = .ok outputPath ∧
      collectProfiles host (stringArg args profilesPathOptionName) = .ok (profiles, console) ∧
      execute host args = resignAndZip host app outputPath profiles console := by
  unfold execute at h ⊢
  cases happ : applicationFromArgs host args with
  | error run => exact absurd (by simpa [happ] using h) (status_ne_of_applicationFromArgs happ)
  | ok app =>
    cases hpath : outputPathFromArgs host args with
    | error run =>
      exact absurd (by simpa [happ, hpath] using h) (status_ne_of_outputPathFromArgs hpath)
    | ok outputPath =>
      cases hcollect : collectProfiles host (stringArg args profilesPathOptionName) with
      | error run =>
        exact absurd (by simpa [happ, hpath, hcollect] using h)
          (status_ne_of_collectProfiles hcollect)
      | ok collected =>
        obtain ⟨profiles, console⟩ := collected
        cases hresources : resourcesFromArgs host args with
        | error e => simp [happ, hpath, hcollect, hresources, Run.ended] at h
        | ok resources => exact ⟨app, outputPath, profiles, console, rfl, rfl, rfl, rfl⟩

/-- **When there is one archive for each profile.** For an execution that succeeds: the promise is
kept exactly when the profiles path is a directory without a loadable profile, or is a single file
whose archive is not in the output directory yet. -/
theorem onePerProfile_iff {host : Host} {args : NSDictionary ArgValue}
    (h : (execute host args).status = .ok .everythingOkay) :
    OnePerProfile host args ↔
      if host.isDirectoryAtPath (stringArg args profilesPathOptionName) then
        loadableProfiles host (stringArg args profilesPathOptionName) = []
      else
        ∀ app outputPath, applicationFromArgs host args = .ok app →
          outputPathFromArgs host args = .ok outputPath →
          host.item (outputFile app outputPath) = none := by
  obtain ⟨app, outputPath, profiles, console, happ, hpath, hcollect, hexecute⟩ := execute_of_okay h
  have hprofiles := collectProfiles_eq_ok hcollect
  rw [hexecute] at h
  obtain ⟨hresigned, harchives⟩ := resignAndZip_of_okay h
  rw [← hexecute] at hresigned harchives
  by_cases hdirectory : host.isDirectoryAtPath (stringArg args profilesPathOptionName) = true
  · rw [if_pos hdirectory] at hprofiles ⊢
    subst hprofiles
    -- A directory contributes no profile, so no archive is made.
    constructor
    · intro hone
      have hcount := hone.count
      rw [harchives] at hcount
      exact List.length_eq_zero_iff.mp hcount.symm
    · intro hnone
      refine ⟨?_, ?_, ?_, ?_⟩
      · rw [hresigned, hnone]
        rfl
      · rw [harchives]
        exact List.nodup_nil
      · rw [harchives, hnone]
        rfl
      · simp [harchives]
  · rw [if_neg hdirectory] at hprofiles ⊢
    obtain ⟨profile, rfl, hloadable⟩ := hprofiles
    -- A file contributes its profile once, so one archive is made, and it must be a new file.
    constructor
    · intro hone app' outputPath' happ' hpath'
      obtain rfl : app = app' := by simpa [happ] using happ'
      obtain rfl : outputPath = outputPath' := by simpa [hpath] using hpath'
      exact (hone.gained _ (by simp [harchives])).1
    · intro hfresh
      refine ⟨?_, ?_, ?_, ?_⟩
      · rw [hresigned, hloadable]
        rfl
      · rw [harchives]
        exact List.nodup_singleton _
      · rw [harchives, hloadable]
        rfl
      · intro archive harchive
        obtain rfl : archive = outputFile app outputPath := by simpa [harchives] using harchive
        exact ⟨hfresh app outputPath happ hpath, outputPath, toString app.hash,
          stringArg_of_outputPathFromArgs hpath, rfl⟩

/-! ### A host with one profile -/

/-- A host with one profile, which is the only file of its directory. -/
def oneProfileHost : Host where
  environment := Codesigner.developerEnvironment
  item path :=
    if path = "/profiles" then some (.directory "profiles" [.file "a.mobileprovision"])
    else if path = "/profiles/a.mobileprovision" then some (.file "a.mobileprovision")
    else if path = "/out" then some (.directory "out" [])
    else none
  now := 0
  exportedProfile path :=
    if path = "/profiles/a.mobileprovision" then some (Codesigner.profileWithAppID "ABCDE12345.*")
    else none
  unzipToTmpDir _ := .ok "/tmp/Payload/My.app"
  application _ := some ⟨.physicalDevice, Codesigner.otherTeamApp, 4242⟩
  zipApp _ _ := .ok ()
  currentDirectoryPath := "/"
  stringByStandardizingPath := id

/-- `resign-all My.ipa profilesPath -o /out`. -/
def resignAllArgs (profilesPath : String) : NSDictionary ArgValue :=
  ⟨[(appPathOptionName, .string "My.ipa"), (profilesPathOptionName, .string profilesPath),
    (outputPathOptionName, .string "/out")], by simp [appPathOptionName, profilesPathOptionName,
      outputPathOptionName]⟩

/-- The profile file is used once. -/
theorem onePerProfile_file :
    OnePerProfile oneProfileHost (resignAllArgs "/profiles/a.mobileprovision") := by
  apply (onePerProfile_iff (by decide +kernel)).mpr
  rw [if_neg (by decide +kernel)]
  intro app outputPath happ hpath
  have hhash : ((applicationFromArgs oneProfileHost
      (resignAllArgs "/profiles/a.mobileprovision")).toOption.map Application.hash) =
        some 4242 := by decide +kernel
  obtain rfl : outputPath = "/out" :=
    (Option.some.inj (stringArg_of_outputPathFromArgs hpath)).symm
  rw [happ] at hhash
  rw [outputFile, Option.some.inj hhash]
  decide +kernel

/-- **The profiles directory is ignored.** With the directory of that profile the execution succeeds
without resigning anything. -/
theorem not_onePerProfile_directory :
    (execute oneProfileHost (resignAllArgs "/profiles")).status = .ok .everythingOkay ∧
      (loadableProfiles oneProfileHost (some "/profiles")).length = 1 ∧
      (execute oneProfileHost (resignAllArgs "/profiles")).resigned.length = 0 ∧
      ¬ OnePerProfile oneProfileHost (resignAllArgs "/profiles") := by
  refine ⟨by decide +kernel, by decide +kernel, by decide +kernel, fun h => ?_⟩
  exact absurd h.count (by decide +kernel)

end ResignAllCommand

end IOSDeviceManager
