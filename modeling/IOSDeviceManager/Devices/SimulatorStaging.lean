import IOSDeviceManager.Commands.XCTestConfigReadWrite
import IOSDeviceManager.Devices.SimulatorDownload
import IOSDeviceManager.Devices.TestRunner
import IOSDeviceManager.General.LabelledRun
import IOSDeviceManager.Utilities.GeneratedConfiguration

/-! # Staging a test configuration on a simulator

`stageXctestConfigurationToTmpForRunner:AUT:error:` removes the test configurations from the
temporary directory of the runner, one by one, and then writes a new one. Any step may fail, and
what was removed is not put back. Over a run of calls the other data of the app stays as it is, and
after the first success there is at most one test configuration, that of the last success. -/

namespace IOSDeviceManager

open General

/-- The identifier of a test session: the `UUIDString` of a UUID, with its bytes. -/
structure SessionIdentifier where
  uuid : String
  bytes : List UInt8
  getUUIDBytes_uuid : NSUUID.getUUIDBytes uuid = some bytes

namespace NSData

/-- `writeToFile:atomically:`, for paths some of which cannot be written to: it needs a directory,
and none in the place. -/
def writeToFile (writeFails : Path → Bool) (fs : FileSystem) (directory : Path) (name : String)
    (data : List UInt8) : Option FileSystem :=
  if writeFails (directory ++ [name]) then none
  else if h : fs.IsDirectory directory ∧ ¬ fs.IsDirectory (directory ++ [name]) then
    some (fs.write directory name data h.1 h.2)
  else none

/-- A write changes the file only. -/
theorem entry_writeToFile {writeFails : Path → Bool} {fs fs' : FileSystem} {directory : Path}
    {name : String} {data : List UInt8}
    (h : writeToFile writeFails fs directory name data = some fs') (q : Path) :
    fs'.entry q = if q = directory ++ [name] then some (.file data) else fs.entry q := by
  unfold writeToFile at h
  split at h
  · cases h
  · split at h
    · rename_i hwrite
      obtain rfl := Option.some.inj h
      exact PathStore.entry_write fs hwrite.1 hwrite.2 q
    · cases h

end NSData

namespace XCTestConfigurationPlist

/-- The arguments for a session; `%@` gives `(null)` for a test bundle that is not found. -/
def sessionArguments (session : SessionIdentifier) (xctestBundlePath : Option String)
    (AUTHostPath AUTBundleIdentifier runnerHostPath runnerBundleIdentifier : String) :
    Arguments where
  testInstallPath := xctestBundlePath.getD "(null)"
  autHostPath := AUTHostPath
  autBundleIdentifier := AUTBundleIdentifier
  runnerHostPath := runnerHostPath
  runnerBundleIdentifier := runnerBundleIdentifier
  uuid := session.uuid

/-- The bytes of a session are known, so that there is a text. -/
theorem isSome_plist (session : SessionIdentifier) {args : Arguments}
    (h : args.uuid = session.uuid) : (plistWithXCTestInstallPath args).isSome := by
  rw [plistWithXCTestInstallPath, h, session.getUUIDBytes_uuid]
  rfl

/-- `dataUsingEncoding:NSUTF8StringEncoding` of the text. -/
def plistData (session : SessionIdentifier) (args : Arguments) (h : args.uuid = session.uuid) :
    List UInt8 :=
  ((plistWithXCTestInstallPath args).get (isSome_plist session h)).toUTF8.data.toList

/-- The data is the text that `plistWithXCTestInstallPath` makes of the arguments, and the text is
read with the values in their places if they survive. -/
def IsDataOf (args : Arguments) (bytes : List UInt8) (content : List UInt8) : Prop :=
  ∃ text, plistWithXCTestInstallPath args = some text ∧ content = text.toUTF8.data.toList ∧
    ((substitution args bytes).Survives →
      PropertyList.read text.toList = some (expected (substitution args bytes) bytes))

/-- The data of a session is that of its text. -/
theorem isDataOf_plistData (session : SessionIdentifier) {args : Arguments}
    (h : args.uuid = session.uuid) : IsDataOf args session.bytes (plistData session args h) := by
  obtain ⟨text, hplist, htext⟩ := exists_plist (h ▸ session.getUUIDBytes_uuid)
  refine ⟨text, hplist, by simp only [plistData, hplist, Option.get_some], fun hsurvives => ?_⟩
  have hnames := map_substitution args session.bytes
  obtain ⟨hsession, hcarried⟩ := substitution_session args session.bytes
  rw [htext]
  exact (read_eq_expected_iff hnames hsession hcarried
    (hsurvives.not_mem (isPlaceholder_of_names hnames))).mpr hsurvives

end XCTestConfigurationPlist

/-! ## The method -/

/-- A call of the method, with what it meets. -/
structure StagingCall where
  AUTBundleIdentifier : String
  session : SessionIdentifier
  /-- `installPathForApplication:`. -/
  installPath : String → Option String
  fails : FailurePattern
  /-- The directories that cannot be listed. -/
  listFails : Path → Bool
  /-- The paths that cannot be written to. -/
  writeFails : Path → Bool

/-- The name of the file that the call writes. -/
def StagingCall.filename (call : StagingCall) : String :=
  call.session.uuid ++ ".xctestconfiguration"

namespace Simulator

/-- The file is a test configuration by its name. -/
def IsConfigurationName (name : String) : Prop :=
  "xctestconfiguration" = NSString.pathExtension name

instance (name : String) : Decidable (IsConfigurationName name) :=
  inferInstanceAs (Decidable ("xctestconfiguration" = NSString.pathExtension name))

/-- The loop that removes the test configurations of a directory, `false` when one could not be
removed. -/
def removeConfigurations (fails : FailurePattern) (tmpDirectory : Path) :
    List String → FileSystem → Bool × FileSystem
  | [], fs => (true, fs)
  | fileName :: tmpDirContents, fs =>
      if IsConfigurationName fileName then
        match fails.removeItemAtPath fs (tmpDirectory ++ [fileName]) with
        | none => (false, fs)
        | some fs => removeConfigurations fails tmpDirectory tmpDirContents fs
      else removeConfigurations fails tmpDirectory tmpDirContents fs

section

variable (host : ContainerHost) (udid runner : String) (call : StagingCall) (fs : FileSystem)

/-- The end of the method, from the listing of the temporary directory on. -/
def replaceConfigurations (tmpDirectory : Path) (data : List UInt8) :
    Except NSException Bool × FileSystem :=
  if call.listFails tmpDirectory || !NSFileManager.isDirectoryAtPath fs tmpDirectory then
    (.ok false, fs)
  else
    match removeConfigurations call.fails tmpDirectory (host.contentsOfDirectory fs tmpDirectory)
        fs with
    | (false, fs) => (.ok false, fs)
    | (true, fs) =>
        match NSData.writeToFile call.writeFails fs tmpDirectory call.filename data with
        | none => (.ok false, fs)
        | some fs => (.ok true, fs)

/-- The arguments of the test configuration, for the paths at which the apps are installed. -/
def stagedArguments (runnerInstalledPath AUTInstalledPath : String) :
    XCTestConfigurationPlist.Arguments :=
  XCTestConfigurationPlist.sessionArguments call.session
    (Device.xctestBundlePathForTestRunnerAtPath runnerInstalledPath).toOption AUTInstalledPath
    call.AUTBundleIdentifier runnerInstalledPath runner

/-- The data of the test configuration, unless one of the apps is not installed. -/
def stagedData : Option (List UInt8) :=
  (call.installPath runner).bind fun runnerInstalledPath =>
    (call.installPath call.AUTBundleIdentifier).map fun AUTInstalledPath =>
      XCTestConfigurationPlist.plistData call.session
        (stagedArguments runner call runnerInstalledPath AUTInstalledPath) rfl

/-- `stageXctestConfigurationToTmpForRunner:AUT:error:`. A `nil` for the path of an app is put into
no text, and at one for the container no directory is made. -/
def stageXctestConfigurationToTmp : Except NSException Bool × FileSystem :=
  match stagedData runner call with
  | none => (.error .invalidArgument, fs)
  | some data =>
      match containerPathForApplication host fs udid runner with
      | none => (.error .invalidArgument, fs)
      | some containerPath =>
          let tmpDirectory := containerPath ++ ["tmp"]
          if NSFileManager.fileExistsAtPath fs tmpDirectory then
            replaceConfigurations host call fs tmpDirectory data
          else
            match call.fails.createDirectoryAtPath fs tmpDirectory with
            | none => (.ok false, fs)
            | some fs => replaceConfigurations host call fs tmpDirectory data

end

/-! ## The names of test configurations -/

/-- What follows the last dot of a name. -/
theorem pathExtension_append {name ext : String} (hslash : '/' ∉ name.toList ++ '.' :: ext.toList)
    (hne : name ≠ "") (hdot : '.' ∉ ext.toList) :
    NSString.pathExtension (name ++ "." ++ ext) = ext := by
  have htext : (name ++ "." ++ ext).toList = name.toList ++ '.' :: ext.toList := by
    simp [String.toList_append]
  have hlast : NSString.lastPathComponent (name ++ "." ++ ext) = name ++ "." ++ ext := by
    have hcomponents := LexicalPath.components_of_not_mem hslash (by simp)
    rw [LexicalPath.components, ← htext] at hcomponents
    rw [NSString.lastPathComponent, hcomponents]
    exact String.ofList_toList
  have hext : (name.toList ++ '.' :: ext.toList).rtakeWhile (· ≠ '.') = ext.toList := by
    have hall : ∀ c ∈ ext.toList.reverse, (decide (c ≠ '.')) = true := by
      intro c hc
      rw [decide_eq_true_eq]
      rintro rfl
      exact hdot (List.mem_reverse.mp hc)
    rw [List.rtakeWhile, List.reverse_append, List.reverse_cons, List.append_assoc,
      List.takeWhile_append_of_pos hall, List.singleton_append,
      List.takeWhile_cons_of_neg (by decide), List.append_nil, List.reverse_reverse]
  have hlength : 0 < name.toList.length := List.length_pos_iff.mpr (by simpa using hne)
  simp only [NSString.pathExtension, hlast, htext, hext, List.length_append, List.length_cons]
  rw [if_pos (by omega), String.ofList_toList]

/-- Only digits are decoded. -/
theorem isSome_digitValue_of_decode {s : List Char} {bytes : List UInt8}
    (h : Hexadecimal.decode s = some bytes) : ∀ c ∈ s, (Hexadecimal.digitValue c).isSome := by
  fun_induction Hexadecimal.decode s generalizing bytes with
  | case1 => simp
  | case2 => cases h
  | case3 high low rest vhigh vlow tail hrest hlow hhigh ih =>
    intro c hc
    rcases List.mem_cons.mp hc with rfl | hc
    · rw [hhigh]
      rfl
    · rcases List.mem_cons.mp hc with rfl | hc
      · rw [hlow]
        rfl
      · exact ih hrest c hc
  | case4 => cases h

/-- The parts hold what is no separator. -/
theorem flatten_splitOn (s : List Char) (separator : Char) :
    (s.splitOn separator).flatten = s.filter (· ≠ separator) := by
  rw [List.splitOn_eq_splitOnP]
  induction s with
  | nil => rfl
  | cons c s ih =>
    rw [List.splitOnP_cons_eq_if_modifyHead]
    by_cases hc : c = separator
    · simp [hc, ih]
    · obtain ⟨group, groups, hgroups⟩ :=
        List.exists_cons_of_ne_nil (List.splitOnP_ne_nil (· == separator) s)
      rw [hgroups] at ih ⊢
      simp_all

/-- There is no slash in the text of a session. -/
theorem not_mem_uuid (session : SessionIdentifier) : '/' ∉ session.uuid.toList := by
  intro hmem
  have hbytes := session.getUUIDBytes_uuid
  simp only [NSUUID.getUUIDBytes, Option.ite_none_right_eq_some] at hbytes
  have hdigit := isSome_digitValue_of_decode hbytes.2 '/'
    (by rw [flatten_splitOn]; exact List.mem_filter.mpr ⟨hmem, by decide⟩)
  exact absurd hdigit (by decide)

/-- The file that is written is a test configuration by its name. -/
theorem isConfigurationName_filename (call : StagingCall) : IsConfigurationName call.filename := by
  have hslash : '/' ∉ call.session.uuid.toList ++ '.' :: "xctestconfiguration".toList := by
    rw [List.mem_append, not_or]
    exact ⟨not_mem_uuid call.session, by decide⟩
  have hne : call.session.uuid ≠ "" := by
    intro hempty
    have hbytes := call.session.getUUIDBytes_uuid
    rw [hempty] at hbytes
    cases hbytes
  have hext := pathExtension_append hslash hne (by decide)
  rw [String.append_assoc] at hext
  exact hext.symm

/-! ## What a call leaves -/

/-- The path is that of a test configuration in the directory, or lies within one. -/
def OfConfiguration (tmpDirectory q : Path) : Prop :=
  ∃ name, IsConfigurationName name ∧ tmpDirectory ++ [name] <+: q

/-- Everything but the test configurations is the same; the directory may have been made. -/
structure KeepsOther (tmpDirectory : Path) (before after : FileSystem) : Prop where
  outside : ∀ q, ¬ OfConfiguration tmpDirectory q → q ≠ tmpDirectory →
    after.entry q = before.entry q
  directory : after.entry tmpDirectory = before.entry tmpDirectory ∨
    before.entry tmpDirectory = none ∧ after.entry tmpDirectory = some .directory

/-- What a call leaves: the rest of the data, some of the old test configurations if it does not
succeed, and just the new one if it does. -/
structure Replaces (tmpDirectory : Path) (filename : String) (data : Option (List UInt8))
    (before : FileSystem) (result : Except NSException Bool × FileSystem) : Prop where
  keeps : KeepsOther tmpDirectory before result.2
  removes : result.1 ≠ .ok true → ∀ q, OfConfiguration tmpDirectory q →
    result.2.entry q = before.entry q ∨ result.2.entry q = none
  writes : result.1 = .ok true → ∃ content, data = some content ∧ ∀ q,
    OfConfiguration tmpDirectory q →
      result.2.entry q = if q = tmpDirectory ++ [filename] then some (.file content) else none

section

variable {tmpDirectory : Path} {before after later : FileSystem} {filename : String}
  {data : Option (List UInt8)}

/-- The directory is not a part of a test configuration in it. -/
theorem not_ofConfiguration_self : ¬ OfConfiguration tmpDirectory tmpDirectory := by
  rintro ⟨name, -, hpre⟩
  exact PathStore.not_prefix_of_append_singleton tmpDirectory name hpre

theorem KeepsOther.refl (before : FileSystem) : KeepsOther tmpDirectory before before :=
  ⟨fun _ _ _ => rfl, .inl rfl⟩

/-- What agrees with the store except for the test configurations. -/
theorem KeepsOther.of_entry_eq
    (h : ∀ q, ¬ OfConfiguration tmpDirectory q → after.entry q = before.entry q) :
    KeepsOther tmpDirectory before after :=
  ⟨fun q hq _ => h q hq, .inl (h tmpDirectory not_ofConfiguration_self)⟩

theorem KeepsOther.trans (h : KeepsOther tmpDirectory before after)
    (h' : KeepsOther tmpDirectory after later) : KeepsOther tmpDirectory before later := by
  refine ⟨fun q hq hne => (h'.outside q hq hne).trans (h.outside q hq hne), ?_⟩
  rcases h'.directory with heq | ⟨hnone, hmade⟩
  · rw [heq]
    exact h.directory
  · rcases h.directory with heq | ⟨-, hdir⟩
    · exact .inr ⟨heq ▸ hnone, hmade⟩
    · rw [hdir] at hnone
      cases hnone

/-- A call that changes nothing and does not succeed. -/
theorem replaces_of_unchanged {status : Except NSException Bool} (hstatus : status ≠ .ok true) :
    Replaces tmpDirectory filename data before (status, before) :=
  ⟨KeepsOther.refl before, fun _ _ _ => .inl rfl, fun h => absurd h hstatus⟩

/-- **The loop.** It removes test configurations only, and all that are listed if it goes through.
-/
theorem removeConfigurations_spec (fails : FailurePattern) (tmpDirectory : Path)
    (names : List String) (fs : FileSystem) :
    (∀ q, (removeConfigurations fails tmpDirectory names fs).2.entry q = fs.entry q ∨
        OfConfiguration tmpDirectory q ∧
          (removeConfigurations fails tmpDirectory names fs).2.entry q = none) ∧
      ((removeConfigurations fails tmpDirectory names fs).1 = true →
        ∀ name ∈ names, IsConfigurationName name → ∀ q, tmpDirectory ++ [name] <+: q →
          (removeConfigurations fails tmpDirectory names fs).2.entry q = none) := by
  induction names generalizing fs with
  | nil => exact ⟨fun _ => .inl rfl, fun _ name hname => absurd hname List.not_mem_nil⟩
  | cons fileName names ih =>
    by_cases hname : IsConfigurationName fileName
    · cases hremove : fails.removeItemAtPath fs (tmpDirectory ++ [fileName]) with
      | none =>
        have hrun : removeConfigurations fails tmpDirectory (fileName :: names) fs =
            (false, fs) := by rw [removeConfigurations, if_pos hname, hremove]
        rw [hrun]
        exact ⟨fun _ => .inl rfl, fun h => Bool.noConfusion h⟩
      | some removed =>
        obtain ⟨-, -, rfl⟩ := FailurePattern.removeItemAtPath_eq_some_iff.mp hremove
        have hrun : removeConfigurations fails tmpDirectory (fileName :: names) fs =
            removeConfigurations fails tmpDirectory names
              (fs.remove (tmpDirectory ++ [fileName])) := by
          rw [removeConfigurations, if_pos hname, hremove]
        obtain ⟨honly, hall⟩ := ih (fs.remove (tmpDirectory ++ [fileName]))
        rw [hrun]
        constructor
        · intro q
          rcases honly q with heq | hgone
          · rw [heq, PathStore.entry_remove]
            split
            · rename_i hpre
              exact .inr ⟨⟨fileName, hname, hpre⟩, rfl⟩
            · exact .inl rfl
          · exact .inr hgone
        · intro hsuccess name hmem hconfiguration q hpre
          rcases List.mem_cons.mp hmem with rfl | hmem
          · -- removed first, and nothing is put back
            rcases honly q with heq | hgone
            · rw [heq, PathStore.entry_remove, if_pos hpre]
            · exact hgone.2
          · exact hall hsuccess name hmem hconfiguration q hpre
    · have hrun : removeConfigurations fails tmpDirectory (fileName :: names) fs =
          removeConfigurations fails tmpDirectory names fs := by
        rw [removeConfigurations, if_neg hname]
      obtain ⟨honly, hall⟩ := ih fs
      rw [hrun]
      refine ⟨honly, fun hsuccess name hmem hconfiguration => ?_⟩
      rcases List.mem_cons.mp hmem with rfl | hmem
      · exact absurd hconfiguration hname
      · exact hall hsuccess name hmem hconfiguration

end

section

variable {host : ContainerHost} {udid runner : String} {call : StagingCall} {fs : FileSystem}
  {containerPath tmpDirectory : Path}

/-- The listing of the directory names the test configurations in it. -/
def ListsConfigurations (host : ContainerHost) (fs : FileSystem) (tmpDirectory : Path) : Prop :=
  ∀ name, IsConfigurationName name → fs.Exists (tmpDirectory ++ [name]) →
    name ∈ host.contentsOfDirectory fs tmpDirectory

/-- From the listing on. -/
theorem replaces_replaceConfigurations (hlists : ListsConfigurations host fs tmpDirectory)
    (data : List UInt8) :
    Replaces tmpDirectory call.filename (some data) fs
      (replaceConfigurations host call fs tmpDirectory data) := by
  unfold replaceConfigurations
  split
  · exact replaces_of_unchanged (by decide)
  · obtain ⟨honly, hall⟩ := removeConfigurations_spec call.fails tmpDirectory
      (host.contentsOfDirectory fs tmpDirectory) fs
    have hother : ∀ q, ¬ OfConfiguration tmpDirectory q →
        (removeConfigurations call.fails tmpDirectory (host.contentsOfDirectory fs tmpDirectory)
          fs).2.entry q = fs.entry q :=
      fun q hq => (honly q).resolve_right fun h => hq h.1
    have hgone : ∀ q, (removeConfigurations call.fails tmpDirectory
          (host.contentsOfDirectory fs tmpDirectory) fs).2.entry q = fs.entry q ∨
        (removeConfigurations call.fails tmpDirectory (host.contentsOfDirectory fs tmpDirectory)
          fs).2.entry q = none :=
      fun q => (honly q).imp id And.right
    generalize removeConfigurations call.fails tmpDirectory
      (host.contentsOfDirectory fs tmpDirectory) fs = removed at hall hother hgone ⊢
    obtain ⟨success, removed⟩ := removed
    cases success with
    | false => exact ⟨.of_entry_eq hother, fun _ q _ => hgone q, fun h => nomatch h⟩
    | true =>
      dsimp only at hall hother hgone ⊢
      split
      · exact ⟨.of_entry_eq hother, fun _ q _ => hgone q, fun h => nomatch h⟩
      · rename_i written hwrite
        have hentry := NSData.entry_writeToFile hwrite
        refine ⟨.of_entry_eq fun q hq => ?_, fun h => absurd rfl h, fun _ => ⟨data, rfl, ?_⟩⟩
        · rw [hentry, if_neg, hother q hq]
          rintro rfl
          exact hq ⟨call.filename, isConfigurationName_filename call, List.prefix_refl _⟩
        · rintro q ⟨name, hname, hpre⟩
          rw [hentry]
          split
          · rfl
          · -- what was listed is removed, and there was nothing else
            by_cases hexists : fs.Exists (tmpDirectory ++ [name])
            · exact hall rfl name (hlists name hname hexists) hname q hpre
            · have hnothing := PathStore.not_exists_of_prefix hexists hpre
              rw [PathStore.Exists, Bool.not_eq_true, Option.isSome_eq_false_iff,
                Option.isNone_iff_eq_none] at hnothing
              rcases hgone q with heq | hnone
              · rw [heq, hnothing]
              · exact hnone

/-- A directory that is made holds no test configuration. -/
theorem replaces_of_create (hcontainer : fs.IsDirectory containerPath)
    (hnone : ¬ fs.Exists (containerPath ++ ["tmp"])) {filename : String}
    {data : Option (List UInt8)} {result : Except NSException Bool × FileSystem}
    (h : Replaces (containerPath ++ ["tmp"]) filename data
      (fs.create (containerPath ++ ["tmp"])) result) :
    Replaces (containerPath ++ ["tmp"]) filename data fs result := by
  have hentry : ∀ q, q ≠ containerPath ++ ["tmp"] →
      (fs.create (containerPath ++ ["tmp"])).entry q = fs.entry q := by
    intro q hne
    rw [PathStore.entry_create]
    split
    · rename_i hpre
      rcases List.prefix_concat_iff.mp hpre with heq | habove
      · exact absurd heq hne
      · exact (hcontainer.of_prefix habove).symm
    · rfl
  have hmade : KeepsOther (containerPath ++ ["tmp"]) fs
      (fs.create (containerPath ++ ["tmp"])) := by
    refine ⟨fun q _ hne => hentry q hne, .inr ⟨?_, ?_⟩⟩
    · exact Option.not_isSome_iff_eq_none.mp hnone
    · rw [PathStore.entry_create, if_pos (List.prefix_refl _)]
  refine ⟨hmade.trans h.keeps, fun hstatus q hq => ?_, h.writes⟩
  rw [← hentry q]
  · exact h.removes hstatus q hq
  · rintro rfl
    exact not_ofConfiguration_self hq

variable (call) in
/-- **One call.** -/
theorem replaces_stage
    (hcontainer : containerPathForApplication host fs udid runner = some containerPath)
    (hlists : ListsConfigurations host fs (containerPath ++ ["tmp"])) :
    Replaces (containerPath ++ ["tmp"]) call.filename (stagedData runner call) fs
      (stageXctestConfigurationToTmp host udid runner call fs) := by
  unfold stageXctestConfigurationToTmp NSFileManager.fileExistsAtPath
  split
  · exact replaces_of_unchanged (by decide)
  · rename_i data hdata
    rw [hcontainer, hdata]
    dsimp only
    by_cases hexists : fs.Exists (containerPath ++ ["tmp"])
    · rw [if_pos (by simpa using hexists)]
      exact replaces_replaceConfigurations hlists data
    · rw [if_neg (by simpa using hexists)]
      cases hcreate : call.fails.createDirectoryAtPath fs (containerPath ++ ["tmp"]) with
      | none => exact replaces_of_unchanged (by decide)
      | some created =>
        obtain ⟨-, -, rfl⟩ := FailurePattern.createDirectoryAtPath_eq_some_iff.mp hcreate
        refine replaces_of_create (isDirectory_containerPath hcontainer) hexists
          (replaces_replaceConfigurations ?_ data)
        -- nothing is listed there
        intro name _ hname
        rw [PathStore.Exists, PathStore.entry_create,
          if_neg (PathStore.not_prefix_of_append_singleton _ name)] at hname
        exact absurd hname (PathStore.not_exists_of_prefix hexists (List.prefix_append _ [name]))

variable (runner) in
/-- The container of the runner stays what it is. -/
theorem containerPathForApplication_of_keepsOther {before : FileSystem} {folder : String}
    (hkeeps : KeepsOther (appDataPath host udid ++ [folder] ++ ["tmp"]) before fs)
    (hlisting : host.contentsOfDirectory fs (appDataPath host udid) =
      host.contentsOfDirectory before (appDataPath host udid)) :
    containerPathForApplication host fs udid runner =
      containerPathForApplication host before udid runner := by
  have hentry : ∀ other, fs.entry (appDataPath host udid ++ [other] ++ [metadataFile]) =
      before.entry (appDataPath host udid ++ [other] ++ [metadataFile]) := by
    intro other
    refine hkeeps.outside _ ?_ fun heq => ?_
    · rintro ⟨name, -, hpre⟩
      have hle := hpre.length_le
      simp only [List.length_append, List.length_singleton] at hle
      omega
    · have hlast := (List.append_inj' heq rfl).2
      exact absurd hlast (by decide)
  have htest : ∀ other, isContainerOf host fs runner (appDataPath host udid ++ [other]) =
      isContainerOf host before runner (appDataPath host udid ++ [other]) := by
    intro other
    rw [isContainerOf, isContainerOf, hentry other]
  rw [containerPathForApplication, containerPathForApplication, hlisting, List.find?_map,
    List.find?_map]
  exact congrArg (Option.map _) (congrArg (fun p => List.find? p _) (funext htest))

end

/-! ## Runs of calls -/

/-- The file system between two calls, and the file that the last successful call has written. -/
structure StagingState where
  fs : FileSystem
  staged : Option (String × List UInt8)

/-- A call is made to its end. -/
def StagingState.next (host : ContainerHost) (udid runner : String) (state : StagingState)
    (call : StagingCall) : Option StagingState :=
  let result := stageXctestConfigurationToTmp host udid runner call state.fs
  some
    { fs := result.2
      staged :=
        if result.1 = .ok true then (stagedData runner call).map (call.filename, ·)
        else state.staged }

/-- Nothing but the test configurations has changed; as long as no call has succeeded these are old
ones, and from then on there is at most the one that was written last. -/
structure HoldsStaged (tmpDirectory : Path) (before : FileSystem) (state : StagingState) : Prop where
  keeps : KeepsOther tmpDirectory before state.fs
  configurations : ∀ q e, OfConfiguration tmpDirectory q → state.fs.entry q = some e →
    match state.staged with
    | none => before.entry q = some e
    | some file => q = tmpDirectory ++ [file.1] ∧ e = .file file.2

/-- What a call meets: the containers are the same, and the directory is listed. -/
structure Meets (host : ContainerHost) (udid : String) (containerPath : Path) (before : FileSystem)
    (state : StagingState) : Prop where
  containers : host.contentsOfDirectory state.fs (appDataPath host udid) =
    host.contentsOfDirectory before (appDataPath host udid)
  lists : ListsConfigurations host state.fs (containerPath ++ ["tmp"])

/-- The data of the test configuration for the call, when both apps are installed. -/
def IsStagedFor (runner : String) (call : StagingCall) (content : List UInt8) : Prop :=
  ∃ runnerInstalledPath AUTInstalledPath,
    call.installPath runner = some runnerInstalledPath ∧
      call.installPath call.AUTBundleIdentifier = some AUTInstalledPath ∧
      XCTestConfigurationPlist.IsDataOf
        (stagedArguments runner call runnerInstalledPath AUTInstalledPath) call.session.bytes content

section

variable {host : ContainerHost} {udid runner folder : String} {before : FileSystem}
  {state later : StagingState} {call : StagingCall}

/-- What `stagedData` is. -/
theorem isStagedFor_of_stagedData {content : List UInt8}
    (h : stagedData runner call = some content) : IsStagedFor runner call content := by
  simp only [stagedData, Option.bind_eq_some_iff, Option.map_eq_some_iff] at h
  obtain ⟨runnerInstalledPath, hrunner, AUTInstalledPath, hAUT, rfl⟩ := h
  have hargs : (stagedArguments runner call runnerInstalledPath AUTInstalledPath).uuid =
      call.session.uuid := rfl
  exact ⟨runnerInstalledPath, AUTInstalledPath, hrunner, hAUT,
    XCTestConfigurationPlist.isDataOf_plistData call.session hargs⟩

/-- **The step.** A call keeps the invariant, whatever fails. -/
theorem HoldsStaged.next
    (hcontainer : containerPathForApplication host before udid runner =
      some (appDataPath host udid ++ [folder]))
    (h : HoldsStaged (appDataPath host udid ++ [folder] ++ ["tmp"]) before state)
    (hmeets : Meets host udid (appDataPath host udid ++ [folder]) before state)
    (hnext : state.next host udid runner call = some later) :
    HoldsStaged (appDataPath host udid ++ [folder] ++ ["tmp"]) before later := by
  obtain rfl := Option.some.inj hnext
  have hfound := containerPathForApplication_of_keepsOther runner h.keeps
    hmeets.containers
  rw [hcontainer] at hfound
  have hreplaces := replaces_stage call hfound hmeets.lists
  refine ⟨h.keeps.trans hreplaces.keeps, fun q e hq he => ?_⟩
  dsimp only at he ⊢
  by_cases hstatus : (stageXctestConfigurationToTmp host udid runner call state.fs).1 = .ok true
  · obtain ⟨content, hdata, hwrites⟩ := hreplaces.writes hstatus
    rw [if_pos hstatus, hdata, Option.map_some]
    rw [hwrites q hq, Option.ite_none_right_eq_some, Option.some.injEq] at he
    exact ⟨he.1, he.2.symm⟩
  · rw [if_neg hstatus]
    rcases hreplaces.removes hstatus q hq with heq | hnone
    · exact h.configurations q e hq (heq ▸ he)
    · rw [hnone] at he
      cases he

/-- **Runs of calls.** However the calls of a run fail, they change nothing but the test
configurations of the runner; before the first success these are old ones, and then there is at most
the one that was written last. The next call that succeeds leaves exactly its own, with the text for
the call, which is read with the values of the call if they survive in it. -/
theorem run_stage (hcontainer : containerPathForApplication host before udid runner =
      some (appDataPath host udid ++ [folder])) {calls : List StagingCall}
    (hmeets : Along (StagingState.next host udid runner)
      (fun state _ => Meets host udid (appDataPath host udid ++ [folder]) before state)
      ⟨before, none⟩ calls)
    (hrun : run (StagingState.next host udid runner) ⟨before, none⟩ calls = some state) :
    HoldsStaged (appDataPath host udid ++ [folder] ++ ["tmp"]) before state ∧
      ∀ call, Meets host udid (appDataPath host udid ++ [folder]) before state →
        (stageXctestConfigurationToTmp host udid runner call state.fs).1 = .ok true →
          ∃ content, IsStagedFor runner call content ∧
            ∀ q, OfConfiguration (appDataPath host udid ++ [folder] ++ ["tmp"]) q →
              (stageXctestConfigurationToTmp host udid runner call state.fs).2.entry q =
                if q = appDataPath host udid ++ [folder] ++ ["tmp"] ++ [call.filename] then
                  some (.file content)
                else none := by
  have hstart : HoldsStaged (appDataPath host udid ++ [folder] ++ ["tmp"]) before
      ⟨before, none⟩ := ⟨KeepsOther.refl before, fun _ _ _ he => he⟩
  have hholds := run_invariant_along (fun _ _ _ h hmeets hnext => h.next hcontainer hmeets hnext)
    hstart hmeets hrun
  refine ⟨hholds, fun call hmeets hstatus => ?_⟩
  have hfound := containerPathForApplication_of_keepsOther runner hholds.keeps
    hmeets.containers
  rw [hcontainer] at hfound
  obtain ⟨content, hdata, hwrites⟩ :=
    (replaces_stage call hfound hmeets.lists).writes hstatus
  exact ⟨content, isStagedFor_of_stagedData hdata, hwrites⟩

end

/-! ### A call that fails and one that succeeds -/

/-- The temporary directory of the app in the container. -/
def sampleTmpDirectory : Path :=
  sampleContainer ++ ["tmp"]

/-- The container, and the names of what may be found. -/
def stagingHost : ContainerHost where
  homeDirectory := sampleHost.homeDirectory
  contentsOfDirectory fs path :=
    ["C1", "old.xctestconfiguration"].filter fun name => fs.Exists (path ++ [name])
  metadataIdentifier := sampleHost.metadataIdentifier

/-- The container with an old test configuration. -/
def stagedOnce : FileSystem :=
  (sampleFileSystem.create sampleTmpDirectory).write sampleTmpDirectory "old.xctestconfiguration" []
    (by decide +kernel) (by decide +kernel)

/-- A call on a host on which nothing, or every file, cannot be written. -/
def sampleStagingCall (writeFails : Bool) : StagingCall where
  AUTBundleIdentifier := "com.example.AUT"
  session := ⟨"AAAAAAAA-BBBB-CCCC-DDDD-EEEEEEEEEEEE", XCTestConfigurationPlist.sampleBytes,
    by decide +kernel⟩
  installPath bundleID := some (if bundleID = "com.my.app" then "/c/AUT-Runner.app" else "/c/AUT.app")
  fails := noFailure
  listFails _ := false
  writeFails _ := writeFails

/-- The old test configuration is all there is in the directory. -/
theorem name_of_exists_stagedOnce {name : String}
    (h : stagedOnce.Exists (sampleTmpDirectory ++ [name])) : name = "old.xctestconfiguration" := by
  by_contra hne
  have hentry : stagedOnce.entry (sampleTmpDirectory ++ [name]) =
      sampleFileSystem.entry (sampleTmpDirectory ++ [name]) := by
    rw [stagedOnce, PathStore.entry_write, if_neg fun heq => hne (by simpa using heq),
      PathStore.entry_create, if_neg (PathStore.not_prefix_of_append_singleton _ name)]
  have hnone : ¬ sampleFileSystem.Exists sampleTmpDirectory := by decide +kernel
  rw [PathStore.Exists, hentry] at h
  exact PathStore.not_exists_of_prefix hnone (List.prefix_append _ [name]) h

/-- So it is found as long as there is no other one. -/
theorem listsConfigurations_stagingHost {fs : FileSystem}
    (h : ∀ name, IsConfigurationName name → fs.Exists (sampleTmpDirectory ++ [name]) →
      stagedOnce.Exists (sampleTmpDirectory ++ [name])) :
    ListsConfigurations stagingHost fs sampleTmpDirectory := by
  intro name hname hexists
  obtain rfl := name_of_exists_stagedOnce (h name hname hexists)
  exact List.mem_filter.mpr ⟨by decide, decide_eq_true hexists⟩

/-- The call that fails removes the old one, and the next call puts its own in the place. -/
theorem run_stage_sample :
    let failed := stageXctestConfigurationToTmp stagingHost "5C2D" "com.my.app"
      (sampleStagingCall true) stagedOnce
    let staged := stageXctestConfigurationToTmp stagingHost "5C2D" "com.my.app"
      (sampleStagingCall false) failed.2
    failed.1 = .ok false ∧ staged.1 = .ok true ∧
      staged.2.entry (sampleTmpDirectory ++ ["old.xctestconfiguration"]) = none ∧
      ∃ content, IsStagedFor "com.my.app" (sampleStagingCall false) content ∧
        staged.2.entry (sampleTmpDirectory ++ [(sampleStagingCall false).filename]) =
          some (.file content) := by
  intro failed staged
  have hcontainer : containerPathForApplication stagingHost stagedOnce "5C2D" "com.my.app" =
      some (appDataPath stagingHost "5C2D" ++ ["C1"]) := by decide +kernel
  have hlists : ListsConfigurations stagingHost stagedOnce sampleTmpDirectory :=
    listsConfigurations_stagingHost fun _ _ h => h
  have hfailed : failed.1 = .ok false := by decide +kernel
  have hne : failed.1 ≠ .ok true := by
    rw [hfailed]
    decide
  have hstaged : staged.1 = .ok true := by decide +kernel
  have hmeets : Meets stagingHost "5C2D" (appDataPath stagingHost "5C2D" ++ ["C1"]) stagedOnce
      ⟨stagedOnce, none⟩ := ⟨rfl, hlists⟩
  have hmeets' : Meets stagingHost "5C2D" (appDataPath stagingHost "5C2D" ++ ["C1"]) stagedOnce
      ⟨failed.2, none⟩ := by
    refine ⟨by decide +kernel, listsConfigurations_stagingHost fun name hname hexists => ?_⟩
    -- the failed call has removed configurations, and written none
    have hremoves : failed.2.entry (sampleTmpDirectory ++ [name]) =
          stagedOnce.entry (sampleTmpDirectory ++ [name]) ∨
        failed.2.entry (sampleTmpDirectory ++ [name]) = none :=
      (replaces_stage _ hcontainer hlists).removes hne _ ⟨name, hname, List.prefix_refl _⟩
    have hexists : (failed.2.entry (sampleTmpDirectory ++ [name])).isSome := hexists
    rcases hremoves with heq | hnone
    · rw [heq] at hexists
      exact hexists
    · rw [hnone] at hexists
      cases hexists
  have hrun : run (StagingState.next stagingHost "5C2D" "com.my.app") ⟨stagedOnce, none⟩
      [sampleStagingCall true] = some ⟨failed.2, none⟩ := by
    rw [run, StagingState.next, Option.bind_some, run_nil]
    dsimp only
    rw [if_neg hne]
  have halong : Along (StagingState.next stagingHost "5C2D" "com.my.app")
      (fun state _ => Meets stagingHost "5C2D" (appDataPath stagingHost "5C2D" ++ ["C1"]) stagedOnce
        state) ⟨stagedOnce, none⟩ [sampleStagingCall true] := ⟨hmeets, fun _ _ => trivial⟩
  obtain ⟨-, hnext⟩ := run_stage hcontainer halong hrun
  obtain ⟨content, hcontent, hentry⟩ := hnext (sampleStagingCall false) hmeets' hstaged
  refine ⟨hfailed, hstaged, ?_, content, hcontent, ?_⟩
  · refine (hentry _ ⟨"old.xctestconfiguration", by decide +kernel, List.prefix_refl _⟩).trans ?_
    exact if_neg (by decide +kernel)
  · refine (hentry _ ⟨_, isConfigurationName_filename _, List.prefix_refl _⟩).trans ?_
    exact if_pos rfl

end Simulator

end IOSDeviceManager
