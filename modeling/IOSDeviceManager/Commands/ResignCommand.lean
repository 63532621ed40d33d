import IOSDeviceManager.Resigning.ApplicationSigning
import IOSDeviceManager.Resigning.SigningFiles

/-! # `resign`

The command unpacks an archive into a temporary directory, resigns the app in it, with resources
injected, and packs the `Payload` directory again. Any of the steps can throw. The files that the
command changes, its log aside, are those of its temporary directory, the property list that the
profile is exported to, and the archive it writes; and what it writes is the archive it has read but
for the resources, the files that signing is about and the signatures in the others. -/

namespace IOSDeviceManager

open General

/-- What `resign` works with. -/
structure ResignHost extends ArchiveHost, SigningHost where
  /-- The path that a text names. -/
  resolve : String → Path
  currentDirectory : Path
  /-- What applications are read from and resources are looked for in. -/
  surroundings : FileSystem → ApplicationHost
  /-- The files are looked at as they are, as long as there is a current directory. -/
  surroundings_fs : ∀ fs, fs.Exists currentDirectory → (surroundings fs).fs = fs
  /-- `security cms -D` of a profile into a property list, through `xcrun:timeout:`. -/
  security : FileSystem → Path → Path → ShellResult × FileSystem
  /-- The profile in a property list. -/
  profileOfPlist : FileSystem → Path → Option MobileProfile

namespace ResignCommand

/-- `PROFILE_PATH_OPTION_NAME`. -/
def profilePathOptionName : String := "profile-path"

variable (host : ResignHost) (fails : FailurePattern) (fuel : ℕ) (uuid profileUuid : String)
  (args : NSDictionary ArgValue)

/-- `plistPath` of `stringByExportingProfileWithSecurity:`. -/
def exportedPlistPath : Path :=
  host.temporaryDirectory ++ [profileUuid ++ ".plist"]

/-- `withPath:` of `MobileProfile`; `profileUuid` is the `globallyUniqueString`. What the profile is
exported to stays in the temporary directory. -/
def profileWithPath (profilePath : Option String) : FileProgram (Option MobileProfile) :=
  FileProgram.ofRun fun fs =>
    match profilePath.map host.resolve with
    | none => (.ok none, fs)
    | some path =>
        if NSFileManager.fileExistsAtPath fs path = false then (.ok none, fs)
        else
          let result := host.security fs path (exportedPlistPath host profileUuid)
          if !result.1.success then (.ok none, result.2)
          else
            (.ok ((host.profileOfPlist result.2 (exportedPlistPath host profileUuid)).filter
              fun profile => !profile.isExpired (host.surroundings result.2).now), result.2)

/-- What comes after the profile is read, up to the packing. -/
def resignUnpacked (pathToBundle : Path) (type : ApplicationType) (profile : MobileProfile) :
    FileProgram Unit := do
  let resources ← FileProgram.ofState fun fs => resourcesFromArgs (host.surroundings fs).toHost args
  SigningFiles.resignApplication host.toSigningHost fails fuel pathToBundle type profile resources

/-- `execute:` up to the packing: the resigned bundle, or the status that is returned before. -/
def unzipAndResign : FileProgram (Except IOSReturnStatusCode Path) :=
  match (stringArg args ResignAllCommand.appPathOptionName).filter
      fun pathToBundle => NSString.hasSuffix pathToBundle ".ipa" with
  | none => return .error .invalidArguments
  | some ipaPath => do
      let pathToBundle ← FileProgram.ofRun fun fs =>
        AppUtils.unzipToTmpDir host.toArchiveHost fails fs uuid (host.resolve ipaPath)
      let app ← FileProgram.ofState fun fs =>
        TypedApplication.withBundlePath (host.surroundings fs) pathToBundle.text
      match app with
      | none => return .error .genericFailure
      | some app => do
          let profile ← profileWithPath host profileUuid (stringArg args profilePathOptionName)
          match profile with
          | none => return .error .internalError
          | some profile => do
              resignUnpacked host fails fuel args pathToBundle app.type profile
              return .ok pathToBundle

/-- The end of `execute:`. Without an output path there is nothing to put into the array of the
arguments. -/
def zipBundle (pathToBundle : Path) : FileProgram IOSReturnStatusCode :=
  match stringArg args ResignAllCommand.outputPathOptionName with
  | none => throw (.exception .invalidArgument)
  | some outputPath => do
      FileProgram.ofRun fun fs =>
        AppUtils.zipApp host.toArchiveHost fs pathToBundle (host.resolve outputPath)
      return .everythingOkay

/-- `execute:`. -/
def execute : FileProgram IOSReturnStatusCode := do
  let bundle ← unzipAndResign host fails fuel uuid profileUuid args
  match bundle with
  | .error code => return code
  | .ok pathToBundle => zipBundle host args pathToBundle

/-! ## What the command changes -/

/-- The files agree but for what is at some paths. -/
def AgreeElsewhere (paths : List Path) (fs later : FileSystem) : Prop :=
  ∀ q, (∀ path ∈ paths, ¬ path <+: q) → later.entry q = fs.entry q

/-- What `ditto`, `security` and `codesign` do as they are documented: unpacking changes the
directory it unpacks to, packing the archive, an export its property list, and signing the
signatures; a text that ends in `.ipa` names no `Payload`. -/
structure Documented (host : ResignHost) : Prop where
  unpacks : AppUtils.UnpacksWithin host.toArchiveHost
  packs : ∀ fs source archive,
    PathStore.AgreeOutside archive fs (host.ditto fs (.pack source archive)).2
  exports : ∀ fs path plistPath,
    PathStore.AgreeOutside plistPath fs (host.security fs path plistPath).2
  signs : SigningFiles.SignsItsPath host.toSigningHost
  resolve : ∀ text, NSString.hasSuffix text ".ipa" = true →
    ∃ directory name, host.resolve text = directory ++ [name] ∧ name ≠ "Payload"

/-- The paths at which the files change up to the packing: the directory that the archive is
unpacked to, and the property list of the profile. -/
def temporaryPaths : List Path :=
  [host.temporaryDirectory ++ [uuid], exportedPlistPath host profileUuid]

section

variable {host : ResignHost} {fails : FailurePattern} {fuel : ℕ} {uuid profileUuid : String}
  {args : NSDictionary ArgValue} {fs fs' later last : FileSystem} {paths : List Path}
  {pathToBundle : Path} {type : ApplicationType} {profile : MobileProfile}
  {status : IOSReturnStatusCode}

/-- Files agree with themselves. -/
theorem AgreeElsewhere.refl (paths : List Path) (fs : FileSystem) : AgreeElsewhere paths fs fs :=
  fun _ _ => rfl

/-- Two such changes are one. -/
theorem AgreeElsewhere.trans (h : AgreeElsewhere paths fs later)
    (h' : AgreeElsewhere paths later last) : AgreeElsewhere paths fs last :=
  fun q hq => (h' q hq).trans (h q hq)

/-- A change within one of the paths. -/
theorem agreeElsewhere_of_agreeOutside {path changed : Path} (hpath : path ∈ paths)
    (hchanged : path <+: changed) (h : PathStore.AgreeOutside changed fs later) :
    AgreeElsewhere paths fs later :=
  fun q hq => h q fun hpre => hq path hpath (hchanged.trans hpre)

/-- More paths can change. -/
theorem AgreeElsewhere.mono {more : List Path} (h : AgreeElsewhere paths fs later)
    (hpaths : ∀ path ∈ paths, path ∈ more) : AgreeElsewhere more fs later :=
  fun q hq => h q fun path hpath => hq path (hpaths path hpath)

/-- What lies at a path apart from those is as it was. -/
theorem AgreeElsewhere.entry_of_apart (h : AgreeElsewhere paths fs later) {path : Path}
    (hapart : ∀ changed ∈ paths, PathStore.Apart changed path) (below : Path) :
    later.entry (path ++ below) = fs.entry (path ++ below) :=
  h _ fun changed hchanged => SigningFiles.not_prefix_of_apart (hapart changed hchanged) below

/-- Exporting a profile changes the property list only. -/
theorem within_profileWithPath (hhost : Documented host) (profilePath : Option String) :
    (profileWithPath host profileUuid profilePath).Within
      (PathStore.AgreeOutside (exportedPlistPath host profileUuid)) := by
  refine FileProgram.within_ofRun fun fs => ?_
  split
  · exact fun _ _ => rfl
  · rename_i path _
    split
    · exact fun _ _ => rfl
    · dsimp only
      split <;> exact hhost.exports fs path _

/-- Resigning the unpacked app changes nothing else. -/
theorem within_resignUnpacked (hhost : Documented host) :
    (resignUnpacked host fails fuel args pathToBundle type profile).Within
      (PathStore.AgreeOutside pathToBundle) := by
  unfold resignUnpacked
  exact .bind PathStore.AgreeOutside.trans (FileProgram.within_ofState (fun _ _ _ => rfl) _)
    fun _ _ => SigningFiles.within_resignApplication hhost.signs

/-- An archive that is unpacked without an exception has its app in the temporary directory. -/
theorem unzipped_spec (hhost : Documented host) {ipaPath : String}
    (hipa : NSString.hasSuffix ipaPath ".ipa" = true)
    (h : AppUtils.unzipToTmpDir host.toArchiveHost fails fs uuid (host.resolve ipaPath) =
      (.ok pathToBundle, fs')) :
    ∃ name, NSString.hasSuffix name ".app" = true ∧
      pathToBundle = host.temporaryDirectory ++ [uuid] ++ ["Payload"] ++ [name] := by
  obtain ⟨dir, ipaName, hresolve, -⟩ := hhost.resolve ipaPath hipa
  rw [hresolve] at h
  obtain ⟨-, -, -, -, -, name, -, hsuffix, rfl⟩ := AppUtils.unzipToTmpDir_eq_ok (by simp) h
  exact ⟨name, hsuffix, rfl⟩

/-- Nothing outside the temporary directory changes when an archive is unpacked. -/
theorem agreeElsewhere_unzipped (hhost : Documented host)
    (htmp : fs.IsDirectory host.temporaryDirectory) {ipaPath : String}
    (hipa : NSString.hasSuffix ipaPath ".ipa" = true) :
    AgreeElsewhere (temporaryPaths host uuid profileUuid) fs
      (AppUtils.unzipToTmpDir host.toArchiveHost fails fs uuid (host.resolve ipaPath)).2 := by
  obtain ⟨dir, ipaName, hresolve, -⟩ := hhost.resolve ipaPath hipa
  exact agreeElsewhere_of_agreeOutside List.mem_cons_self (List.prefix_refl _)
    (AppUtils.agreeOutside_unzipToTmpDir hhost.unpacks htmp (by rw [hresolve]; simp))

/-- **Up to the packing** nothing changes but in the temporary directory, and the property list. -/
theorem agreeElsewhere_unzipAndResign (hhost : Documented host)
    (htmp : fs.IsDirectory host.temporaryDirectory) :
    AgreeElsewhere (temporaryPaths host uuid profileUuid) fs
      ((unzipAndResign host fails fuel uuid profileUuid args).runFrom fs).2 := by
  unfold unzipAndResign
  split
  · exact .refl _ fs
  · rename_i ipaPath hpath
    have hipa : NSString.hasSuffix ipaPath ".ipa" = true := (Option.filter_eq_some_iff.mp hpath).2
    refine ThrowingProgram.rel_bind AgreeElsewhere.trans
      (agreeElsewhere_unzipped hhost htmp hipa) fun pathToBundle unzipped hrun => ?_
    -- the bundle lies in the temporary directory, and so does everything that signing changes
    obtain ⟨name, -, rfl⟩ := unzipped_spec hhost hipa (FileProgram.runFrom_ofRun_eq_ok_iff.mp hrun)
    refine ThrowingProgram.rel_bind AgreeElsewhere.trans (.refl _ unzipped) fun app read _ => ?_
    cases app with
    | none => exact .refl _ read
    | some app =>
      refine ThrowingProgram.rel_bind AgreeElsewhere.trans
        (agreeElsewhere_of_agreeOutside (List.mem_cons_of_mem _ (List.mem_singleton_self _))
          (List.prefix_refl _) (within_profileWithPath hhost _ read)) fun profile exported _ => ?_
      cases profile with
      | none => exact .refl _ exported
      | some profile =>
        refine ThrowingProgram.rel_bind AgreeElsewhere.trans ?_ fun _ later _ => .refl _ later
        refine agreeElsewhere_of_agreeOutside List.mem_cons_self ?_
          (within_resignUnpacked hhost exported)
        rw [List.append_assoc]
        exact List.prefix_append _ _

/-- A resigning without an exception, with the resources that it injects. -/
theorem resignUnpacked_eq_ok
    (h : (resignUnpacked host fails fuel args pathToBundle type profile).runFrom fs =
      (.ok (), fs')) :
    ∃ resources, resourcesFromArgs (host.surroundings fs).toHost args = .ok resources ∧
      (SigningFiles.resignApplication host.toSigningHost fails fuel pathToBundle type profile
        resources).runFrom fs = (.ok (), fs') := by
  obtain ⟨resources, looked, hresources, h⟩ := ThrowingProgram.runFrom_bind_eq_ok h
  have hread := FileProgram.runFrom_ofRun_eq_ok_iff.mp hresources
  obtain rfl : fs = looked := congrArg Prod.snd hread
  exact ⟨resources, congrArg Prod.fst hread, h⟩

/-- A bundle that is to be packed was unpacked and, once the profile was exported, resigned. -/
theorem unzipAndResign_eq_ok (hhost : Documented host)
    (h : (unzipAndResign host fails fuel uuid profileUuid args).runFrom fs =
      (.ok (.ok pathToBundle), fs')) :
    ∃ ipaPath unzipped exported type profile resources,
      stringArg args ResignAllCommand.appPathOptionName = some ipaPath ∧
      NSString.hasSuffix ipaPath ".ipa" = true ∧
      AppUtils.unzipToTmpDir host.toArchiveHost fails fs uuid (host.resolve ipaPath) =
        (.ok pathToBundle, unzipped) ∧
      PathStore.AgreeOutside (exportedPlistPath host profileUuid) unzipped exported ∧
      resourcesFromArgs (host.surroundings exported).toHost args = .ok resources ∧
      (SigningFiles.resignApplication host.toSigningHost fails fuel pathToBundle type profile
        resources).runFrom exported = (.ok (), fs') := by
  unfold unzipAndResign at h
  split at h
  · cases congrArg Prod.fst h
  · rename_i ipaPath hpath
    obtain ⟨hipaPath, hipa⟩ := Option.filter_eq_some_iff.mp hpath
    obtain ⟨bundle, unzipped, hunzipped, h⟩ := ThrowingProgram.runFrom_bind_eq_ok h
    obtain ⟨app, read, happ, h⟩ := ThrowingProgram.runFrom_bind_eq_ok h
    -- the app is only looked at
    obtain rfl : unzipped = read :=
      congrArg Prod.snd (FileProgram.runFrom_ofRun_eq_ok_iff.mp happ)
    cases app with
    | none => cases congrArg Prod.fst h
    | some app =>
      obtain ⟨profile, exported, hprofile, h⟩ := ThrowingProgram.runFrom_bind_eq_ok h
      cases profile with
      | none => cases congrArg Prod.fst h
      | some profile =>
        obtain ⟨_, resigned, hresigned, h⟩ := ThrowingProgram.runFrom_bind_eq_ok h
        obtain rfl : resigned = fs' := congrArg Prod.snd h
        obtain rfl : bundle = pathToBundle := Except.ok.inj (Except.ok.inj (congrArg Prod.fst h))
        obtain ⟨resources, hresources, hresigns⟩ := resignUnpacked_eq_ok hresigned
        exact ⟨ipaPath, unzipped, exported, app.type, profile, resources, hipaPath, hipa,
          FileProgram.runFrom_ofRun_eq_ok_iff.mp hunzipped,
          (within_profileWithPath hhost _).of_eq hprofile, hresources, hresigns⟩

/-- A status that is returned before the packing is not a success. -/
theorem status_unzipAndResign
    (h : (unzipAndResign host fails fuel uuid profileUuid args).runFrom fs =
      (.ok (.error status), fs')) :
    status ≠ .everythingOkay := by
  unfold unzipAndResign at h
  split at h
  · obtain rfl : IOSReturnStatusCode.invalidArguments = status :=
      Except.error.inj (Except.ok.inj (congrArg Prod.fst h))
    decide
  · obtain ⟨bundle, unzipped, -, h⟩ := ThrowingProgram.runFrom_bind_eq_ok h
    obtain ⟨app, read, -, h⟩ := ThrowingProgram.runFrom_bind_eq_ok h
    cases app with
    | none =>
      obtain rfl : IOSReturnStatusCode.genericFailure = status :=
        Except.error.inj (Except.ok.inj (congrArg Prod.fst h))
      decide
    | some app =>
      obtain ⟨profile, read, -, h⟩ := ThrowingProgram.runFrom_bind_eq_ok h
      cases profile with
      | none =>
        obtain rfl : IOSReturnStatusCode.internalError = status :=
          Except.error.inj (Except.ok.inj (congrArg Prod.fst h))
        decide
      | some profile =>
        obtain ⟨_, resigned, -, h⟩ := ThrowingProgram.runFrom_bind_eq_ok h
        cases Except.ok.inj (congrArg Prod.fst h)

end

/-! ## What it writes -/

/-- One `Payload` directory is another one with its app resigned: what lies beside the app is the
same, and in it there is the last resource of each name, and what there was besides, signed anew. -/
structure Resigned (host : ResignHost) (fs : FileSystem) (sources : List Path) (name : String)
    (tree resigned : Path → Option (Entry (List UInt8))) : Prop where
  beside : ∀ q, ¬ [name] <+: q → resigned q = tree q
  inside : ∀ below, ¬ SigningFiles.IsSetAside below →
    host.content (resigned (name :: below)) =
      host.content (SigningFiles.injectedEntry fs sources (fun below => tree (name :: below)) below)

section

variable {host : ResignHost} {fails : FailurePattern} {fuel : ℕ} {uuid profileUuid : String}
  {args : NSDictionary ArgValue} {fs fs' exported : FileSystem} {pathToBundle : Path}
  {type : ApplicationType} {profile : MobileProfile} {status : IOSReturnStatusCode}

/-- The property list lies beside the directory that the archive is unpacked to. -/
theorem apart_exportedPlistPath (huuids : profileUuid ++ ".plist" ≠ uuid) (rest : Path) :
    PathStore.Apart (exportedPlistPath host profileUuid)
      (host.temporaryDirectory ++ [uuid] ++ rest) := by
  have hapart := (PathStore.apart_of_ne host.temporaryDirectory huuids).append [] rest
  rwa [List.append_nil] at hapart

/-- The new `Payload` directory is the one that was unpacked, with the app resigned. -/
theorem resigned_of_resignApplication (hhost : Documented host) {name : String}
    {resources : List String} {payload : Path}
    (hpayload : host.temporaryDirectory ++ [uuid] <+: payload)
    (hexported : AgreeElsewhere (temporaryPaths host uuid profileUuid) fs exported)
    (hapart : ∀ source ∈ resources.map Path.ofText,
      ∀ path ∈ temporaryPaths host uuid profileUuid, PathStore.Apart path source)
    (h : (SigningFiles.resignApplication host.toSigningHost fails fuel (payload ++ [name]) type
      profile resources).runFrom exported = (.ok (), fs')) :
    Resigned host fs (resources.map Path.ofText) name (exported.subtree payload)
      (fs'.subtree payload) := by
  have hagree : PathStore.AgreeOutside (payload ++ [name]) exported fs' :=
    (SigningFiles.within_resignApplication hhost.signs).of_eq h
  have hoff : ∀ source ∈ resources.map Path.ofText, PathStore.Apart (payload ++ [name]) source := by
    intro source hsource
    obtain ⟨rest, rfl⟩ := hpayload
    have happended := (hapart source hsource _ List.mem_cons_self).append (rest ++ [name]) []
    rwa [List.append_nil, ← List.append_assoc] at happended
  constructor
  · intro q hq
    exact hagree (payload ++ q) fun hpre => hq ((List.prefix_append_right_inj payload).mp hpre)
  · intro below hbelow
    have happ : ∀ below, payload ++ name :: below = payload ++ [name] ++ below := fun below => by simp
    rw [PathStore.subtree, happ,
      SigningFiles.content_resignApplication hhost.signs hoff h hbelow]
    unfold SigningFiles.injectedEntry
    cases hfind : SigningFiles.lastNamed (resources.map Path.ofText) below with
    | none =>
      have hentry : exported.entry (payload ++ [name] ++ below) =
          exported.entry (payload ++ name :: below) := congrArg exported.entry (happ below).symm
      exact congrArg host.content hentry
    | some source =>
      -- a resource is as it was at the start, apart from what the command has written
      have hsource := hapart source (SigningFiles.mem_of_lastNamed hfind)
      exact congrArg host.content (hexported.entry_of_apart hsource below.tail)

/-- Only the packing changes the archive. -/
theorem agreeElsewhere_zipBundle (hhost : Documented host) (fs : FileSystem) :
    AgreeElsewhere
      ((stringArg args ResignAllCommand.outputPathOptionName).map host.resolve).toList fs
      ((zipBundle host args pathToBundle).runFrom fs).2 := by
  unfold zipBundle
  cases stringArg args ResignAllCommand.outputPathOptionName with
  | none => exact .refl _ fs
  | some outputPath =>
    refine ThrowingProgram.rel_bind AgreeElsewhere.trans ?_ fun _ later _ => .refl _ later
    have hpacked : (AppUtils.zipApp host.toArchiveHost fs pathToBundle (host.resolve outputPath)).2 =
        (host.ditto fs (.pack (AppUtils.baseDirFromAppDir pathToBundle ++ ["Payload"])
          (host.resolve outputPath))).2 := by
      unfold AppUtils.zipApp
      dsimp only
      split <;> rfl
    refine agreeElsewhere_of_agreeOutside (List.mem_singleton_self _) (List.prefix_refl _) ?_
    exact hpacked ▸ hhost.packs fs _ _

/-- A success of the packing. -/
theorem zipBundle_eq_ok (h : (zipBundle host args pathToBundle).runFrom fs = (.ok status, fs')) :
    ∃ outputPath, stringArg args ResignAllCommand.outputPathOptionName = some outputPath ∧
      AppUtils.zipApp host.toArchiveHost fs pathToBundle (host.resolve outputPath) =
        (.ok (), fs') := by
  unfold zipBundle at h
  split at h
  · cases congrArg Prod.fst h
  · rename_i outputPath houtput
    obtain ⟨_, packed, hpacked, h⟩ := ThrowingProgram.runFrom_bind_eq_ok h
    obtain rfl : packed = fs' := congrArg Prod.snd h
    exact ⟨outputPath, houtput, FileProgram.runFrom_ofRun_eq_ok_iff.mp hpacked⟩

end

/-! ### An archive that is resigned -/

/-- The paths in the `Payload` directory of the app, before and after it is resigned. -/
def resignPaths : List Path :=
  [["My.app", "Info.plist"], ["My.app", "My"], ["My.app", "XTCEntitlementsMeta.plist"],
    ["My.app", "My.xcent"], ["My.app", "_CodeSignature", "CodeResources"]]

/-- What is in the archive: no file that a signing writes. -/
def archivedContents : List (Option (List UInt8)) :=
  [some [1], some [0xCA, 0xFE], none, none, none]

/-- A work directory with an archive and a profile. -/
def archiveFiles : FileSystem :=
  (((PathStore.empty.create ["tmp"]).create ["work"]).write ["work"] "My.ipa"
    (AppUtils.encodeContents archivedContents) (by decide +kernel) (by decide +kernel)).write
      ["work"] "a.mobileprovision" [2] (by decide +kernel) (by decide +kernel)

/-- The files, looked at from the work directory; every bundle is one of a device app. -/
def surroundingsOf (fs : FileSystem) (h : fs.Exists ["work"]) : ApplicationHost where
  toHost := { ResignAllCommand.oneProfileHost with
    item := fun path => if fs.Exists (Path.ofText path) then some (.file path) else none
    currentDirectoryPath := "/work" }
  fs := fs
  item_fs path := by simp
  exists_current := by
    have hwork : Path.ofText (FileUtils.expandPath "/work" id "") = ["work"] := by decide +kernel
    exact hwork ▸ h
  copyError _ _ := ""
  infoPlist _ := some ⟨some "My", some "1.0", some "1", none, none, none⟩
  architectures _ := some ["arm64"]
  bundleIdentifier _ := some "com.my.app"
  entitlements _ := none
  appDir _ := Codesigner.otherTeamApp
  codesign _ := none
  deleteDSStore _ := none

/-- What is at a path, among these names. -/
def listing (names : List String) (fs : FileSystem) : ℕ → Path → String → FileTree
  | 0, _, name => .file name
  | depth + 1, path, name =>
      if fs.IsDirectory path then
        .directory name ((names.filter fun child => fs.Exists (path ++ [child])).map fun child =>
          listing names fs depth (path ++ [child]) child)
      else .file name

/-- An export writes a property list. -/
def exportTo (fs : FileSystem) (plistPath : Path) : ShellResult × FileSystem :=
  match AppUtils.writeAt fs plistPath [3] with
  | some exported => (⟨true, ""⟩, exported)
  | none => (⟨false, "security: cannot export"⟩, fs)

/-- A content without the mark of a signature. -/
def unsigned (content : List UInt8) : List UInt8 :=
  content.filter (· != 0xFA)

/-- Signing a bundle lists its resources, and puts a mark at the end of the executable. -/
def signBundle (fs : FileSystem) (path : Path) (executable : String) :
    CodesignResult × FileSystem :=
  match fs.entry (path ++ [executable]) with
  | some (.file content) =>
      match AppUtils.writeAt (fs.create (path ++ ["_CodeSignature"]))
          (path ++ ["_CodeSignature", "CodeResources"]) [4] with
      | some listed =>
          match AppUtils.writeAt listed (path ++ [executable]) (unsigned content ++ [0xFA]) with
          | some signed => (⟨⟨true, ""⟩, false⟩, signed)
          | none => (⟨⟨false, "codesign: cannot sign"⟩, false⟩, fs)
      | none => (⟨⟨false, "codesign: cannot list the resources"⟩, false⟩, fs)
  | _ => (⟨⟨false, "codesign: no executable"⟩, false⟩, fs)

/-- A host that signs by a mark at the end of the executable. -/
def resigningHost : ResignHost where
  toArchiveHost := AppUtils.sampleArchiveHost ["tmp", "1F", "Payload"] resignPaths
  environment := Codesigner.developerEnvironment
  tree fs := listing ["tmp", "1F", "Payload", "My.app", "Info.plist", "My", "My.xcent",
    "XTCEntitlementsMeta.plist", "_CodeSignature", "CodeResources"] fs 6 [] "/"
  info fs path := ⟨fs.Exists (path ++ ["_CodeSignature"]), none⟩
  appDir fs path := { Codesigner.otherTeamApp with
    infoPlist := Codesigner.otherTeamApp.infoPlist.filter fun _ =>
      fs.Exists (path ++ ["Info.plist"]) }
  codesign fs
    | .bundle path executable _ _ => signBundle fs path executable
    | .object _ _ => (⟨⟨true, ""⟩, false⟩, fs)
    | .adHoc _ => (⟨⟨true, ""⟩, false⟩, fs)
  entitlementsMapData _ := [5]
  entitlementsData _ := [6]
  writeFails _ := false
  copyError _ _ := ""
  removeError _ := ""
  unsigned := unsigned
  resolve text := ["work", text]
  currentDirectory := ["work"]
  surroundings fs :=
    if h : fs.Exists ["work"] then surroundingsOf fs h
    else surroundingsOf archiveFiles (by decide +kernel)
  surroundings_fs fs h := by rw [dif_pos h]; rfl
  security fs _ plistPath := exportTo fs plistPath
  profileOfPlist fs plistPath :=
    if fs.Exists plistPath then some (Codesigner.profileWithAppID "ABCDE12345.*") else none

/-- An export changes its property list only. -/
theorem agreeOutside_exportTo (fs : FileSystem) (plistPath : Path) :
    PathStore.AgreeOutside plistPath fs (exportTo fs plistPath).2 := by
  unfold exportTo
  split
  · rename_i hexported
    exact AppUtils.agreeOutside_writeAt hexported
  · exact fun _ _ => rfl

/-- A mark is no part of a content. -/
theorem unsigned_append_mark (content : List UInt8) :
    unsigned (unsigned content ++ [0xFA]) = unsigned content := by
  simp [unsigned]

/-- Signing a bundle changes what signing is about, and the signature of the executable. -/
theorem signsWithin_signBundle (fs : FileSystem) (path : Path) (executable : String) :
    SigningFiles.SignsWithin resigningHost.toSigningHost path fs
      (signBundle fs path executable).2 := by
  have hrefl : SigningFiles.SignsWithin resigningHost.toSigningHost path fs fs := .refl _ _ path fs
  unfold signBundle
  split
  · rename_i content hexecutable
    split
    · rename_i listed hlisted
      split
      · rename_i signed hsigned
        have hdir : fs.IsDirectory path := fs.parent path executable (by rw [hexecutable]; rfl)
        have hmade := PathStore.agreeOutside_create hdir "_CodeSignature" []
        rw [List.append_nil] at hmade
        -- the resources are listed among the files of signing
        have hlists : SigningFiles.SignsWithin resigningHost.toSigningHost path fs listed := by
          refine (SigningFiles.agreesAside_of_agreeOutside hmade fun below hpre => ?_).trans
            (SigningFiles.agreesAside_of_agreeOutside (AppUtils.agreeOutside_writeAt hlisted)
              fun below hpre => ?_)
          · exact .inr (.inr (.inr (hpre.subset List.mem_cons_self)))
          · exact .inr (.inr (.inr (hpre.subset List.mem_cons_self)))
        refine hlists.trans ⟨fun q hq => ?_, fun below hbelow => ?_⟩
        · rw [AppUtils.entry_of_writeAt_eq_some hsigned, if_neg]
          rintro rfl
          exact hq (List.prefix_append path [executable])
        · rw [AppUtils.entry_of_writeAt_eq_some hsigned]
          split
          · rename_i hself
            rw [List.append_cancel_left hself] at hbelow ⊢
            rw [hlists.inside _ hbelow, hexecutable]
            exact congrArg (fun content => some (Entry.file content)) (unsigned_append_mark content)
          · rfl
      · exact hrefl
    · exact hrefl
  · exact hrefl

/-- The host does what is documented. -/
theorem documented_resigningHost : Documented resigningHost where
  unpacks := AppUtils.unpacksWithin_sample
  packs fs source archive := AppUtils.agreeOutside_samplePack fs source archive
  exports fs _ plistPath := agreeOutside_exportTo fs plistPath
  signs fs call := by
    cases call with
    | bundle path executable entitlements identity => exact signsWithin_signBundle fs path executable
    | object path identity => exact .refl _ _ path fs
    | adHoc path => exact .refl _ _ path fs
  resolve text htext := by
    refine ⟨["work"], text, rfl, ?_⟩
    rintro rfl
    exact absurd htext (by decide +kernel)

/-- `resign My.ipa a.mobileprovision -o Resigned.ipa`. -/
def resignArgs : NSDictionary ArgValue :=
  ((NSDictionary.empty.setObject ResignAllCommand.appPathOptionName (.string "My.ipa")).setObject
    profilePathOptionName (.string "a.mobileprovision")).setObject
      ResignAllCommand.outputPathOptionName (.string "Resigned.ipa")

/-- The files once the archive is unpacked and the profile exported. -/
def exportedFiles : FileSystem :=
  (exportTo (AppUtils.unzipToTmpDir resigningHost.toArchiveHost noFailure archiveFiles "1F"
    ["work", "My.ipa"]).2 ["tmp", "2A.plist"]).2

/-- The app in them. -/
def unpackedApp : Path :=
  ["tmp", "1F", "Payload", "My.app"]

/-- The files once the app is resigned. -/
def resignedFiles : FileSystem :=
  ((((exportedFiles.write unpackedApp "XTCEntitlementsMeta.plist" [5] (by decide +kernel)
    (by decide +kernel)).write unpackedApp "My.xcent" [6] (by decide +kernel)
      (by decide +kernel)).create (unpackedApp ++ ["_CodeSignature"])).write
        (unpackedApp ++ ["_CodeSignature"]) "CodeResources" [4] (by decide +kernel)
          (by decide +kernel)).write unpackedApp "My" [0xCA, 0xFE, 0xFA] (by decide +kernel)
            (by decide +kernel)

/-- What the run leaves before it packs. -/
theorem unzipAndResign_archiveFiles :
    (unzipAndResign resigningHost noFailure 2 "1F" "2A" resignArgs).runFrom archiveFiles =
      (.ok (.ok unpackedApp), resignedFiles) := by
  with_unfolding_all rfl

/-- The unpacked `Payload` directory is that of the archive. -/
theorem subtree_exportedFiles :
    exportedFiles.subtree ["tmp", "1F", "Payload"] =
      (AppUtils.treeOf (AppUtils.filesAt resignPaths archivedContents)).entry := by
  have hunzipped : (AppUtils.unzipToTmpDir resigningHost.toArchiveHost noFailure archiveFiles "1F"
      (["work"] ++ ["My.ipa"])).1 = .ok unpackedApp := by decide +kernel
  have hexported : PathStore.AgreeOutside ["tmp", "2A.plist"]
      (AppUtils.unzipToTmpDir resigningHost.toArchiveHost noFailure archiveFiles "1F"
        ["work", "My.ipa"]).2 exportedFiles := agreeOutside_exportTo _ _
  rw [hexported.subtree_eq (by constructor <;> decide)]
  exact AppUtils.subtree_unzipToTmpDir (by decide +kernel) (by decide)
    (AppUtils.holdsPayload_sample archivedContents) (Prod.ext hunzipped rfl)

/-- A signing adds the files of signing. -/
theorem holdsOnly_resignedFiles :
    AppUtils.HoldsOnly resignPaths resignedFiles ["tmp", "1F", "Payload"] := by
  intro below hbelow
  have hfile : ∀ path ∈ resignPaths, below ≠ path := fun path hpath h =>
    hbelow path hpath (h ▸ List.prefix_refl _)
  have hdir : ¬ below <+: ["My.app", "_CodeSignature"] := fun h =>
    hbelow ["My.app", "_CodeSignature", "CodeResources"] (by decide)
      (h.trans (List.prefix_append _ ["CodeResources"]))
  have hexported := congrFun subtree_exportedFiles below
  rw [AppUtils.entry_treeOf_filesAt_eq_none _ hbelow] at hexported
  simp only [resignPaths, List.forall_mem_cons] at hfile
  simpa [PathStore.Exists, resignedFiles, PathStore.entry_create, PathStore.entry_write,
    unpackedApp, List.cons_prefix_cons, hdir, hfile, PathStore.subtree] using hexported

/-- What is packed then can be unpacked. -/
theorem packsPayload_resignedFiles :
    AppUtils.PacksPayload resigningHost.toArchiveHost resignedFiles :=
  AppUtils.packsPayload_sample
    (AppUtils.subtree_eq_treeAt holdsOnly_resignedFiles (by decide +kernel))

end ResignCommand

end IOSDeviceManager
