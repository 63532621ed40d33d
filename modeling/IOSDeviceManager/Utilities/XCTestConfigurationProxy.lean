import IOSDeviceManager.Foundation.FileOperation
import IOSDeviceManager.Foundation.NSDictionary
import IOSDeviceManager.Resigning.Codesigner

/-! # `XCTestConfigurationProxy`

A configuration is decoded from a file, and the dictionary of its properties is written to another.
An existing file is removed first, so it is lost when the dictionary cannot be written; and that is
so for arrays and dictionaries that hold anything but property list objects. -/

namespace IOSDeviceManager

open General

/-- A property of a configuration: an object of one of the classes of property lists, or any other
object with its description. -/
inductive PropertyValue where
  | data (bytes : List UInt8)
  | date (interval : ℚ)
  | number (n : ℚ)
  | string (s : String)
  | array (items : List PropertyValue)
  | dictionary (entries : List (PropertyValue × PropertyValue))
  | object (description : String)

namespace PropertyValue

mutual

/-- The object can be written as a property list: it is of one of the classes, all objects in it can
be written, and the keys of its dictionaries are strings. -/
def isPropertyList : PropertyValue → Bool
  | data _ | date _ | number _ | string _ => true
  | array items => itemsArePropertyLists items
  | dictionary entries => entriesArePropertyLists entries
  | object _ => false

/-- All items can be written. -/
def itemsArePropertyLists : List PropertyValue → Bool
  | [] => true
  | item :: items => item.isPropertyList && itemsArePropertyLists items

/-- All entries can be written. -/
def entriesArePropertyLists : List (PropertyValue × PropertyValue) → Bool
  | [] => true
  | (string _, value) :: entries => value.isPropertyList && entriesArePropertyLists entries
  | _ :: _ => false

end

/-- What is put into the dictionary for a property: the object if it is of one of the classes,
whatever it holds, or else its description. -/
def stored : PropertyValue → PropertyValue
  | object description => string description
  | value => value

end PropertyValue

/-- An `XCTestConfiguration`. -/
structure XCTestConfiguration where
  description : String
  /-- The properties of the class with their values, `nil` or not. -/
  properties : List (String × Option PropertyValue)

/-- An object that `unarchiveObjectWithFile:` returns. -/
inductive UnarchivedObject where
  | configuration (config : XCTestConfiguration)
  | other (className description : String)

/-- What reading and writing a configuration asks of its surroundings. -/
structure ConfigurationHost where
  /-- The path a string names, if it names one. -/
  path : String → Option Path
  /-- Why `XCTest.framework` cannot be loaded, if it cannot. -/
  loadError : Option String
  /-- `unarchiveObjectWithFile:` for the content of a file. -/
  unarchive : List UInt8 → Except NSException (Option UnarchivedObject)
  /-- The text of a dictionary as a property list. -/
  serialize : NSDictionary PropertyValue → List UInt8
  /-- The file operations that fail by themselves. -/
  fails : FailurePattern
  /-- The description of the error of a failed removal. -/
  removeError : Path → String
  /-- The paths that cannot be written to. -/
  writeFails : Path → Bool

/-- A change that was made to a file system. -/
inductive FileChange where
  | removed (path : Path)
  | written (path : Path)
  deriving DecidableEq

/-- The path that was changed. -/
def FileChange.path : FileChange → Path
  | .removed path => path
  | .written path => path

/-- The outcome of `writeToPlistFile:overwrite:`, with the changes made and what is written to the
console. -/
structure PlistWriting where
  success : Bool
  fs : FileSystem
  changes : List FileChange
  errors : List String

namespace ConfigurationHost

variable (host : ConfigurationHost)

/-- `fileExistsAtPath:` for a string. -/
def fileExistsAtPath (fs : FileSystem) (path : String) : Bool :=
  (host.path path).any (NSFileManager.fileExistsAtPath fs)

/-- `XCTestConfigurationWithContentsOfFile:`; nothing is decoded from what is no file. -/
def unarchiveObjectWithFile (fs : FileSystem) (path : String) :
    Except NSException (Option UnarchivedObject) :=
  match (host.path path).bind fs.entry with
  | some (.file content) => host.unarchive content
  | _ => .ok none

/-- `writeToFile:atomically:` of a dictionary: it needs a directory, and none in the place. -/
def writeToFile (fs : FileSystem) (dict : NSDictionary PropertyValue) (path : Path) :
    Option FileSystem :=
  if host.writeFails path || !dict.entries.all fun entry => entry.2.isPropertyList then none
  else
    match path.getLast? with
    | none => none
    | some name =>
        if h : fs.IsDirectory path.dropLast ∧ ¬ fs.IsDirectory (path.dropLast ++ [name]) then
          some (fs.write path.dropLast name (host.serialize dict) h.1 h.2)
        else none

end ConfigurationHost

namespace XCTestConfigurationProxy

/-- `configurationWithContentsOfFile:`: the configuration, or what is written to the console. -/
def configurationWithContentsOfFile (host : ConfigurationHost) (fs : FileSystem) (path : String) :
    Except NSException (Except (List String) XCTestConfiguration) :=
  match host.loadError with
  | some description => .ok (.error ["Could not load XCTest.framework", description])
  | none =>
      if host.fileExistsAtPath fs path = false then
        .ok (.error ["File does not exist at path: " ++ path])
      else do
        let couldNot := ["Could not create an XCTestConfiguration instance by decoding:",
          "  " ++ path]
        match ← host.unarchiveObjectWithFile fs path with
        | none => return .error couldNot
        | some (.other className description) =>
            return .error
              (couldNot ++ ["Decoded object in an instance of " ++ className, description])
        | some (.configuration config) => return .ok config

/-- `dictionaryWithPropertiesOfObject:`. -/
def dictionaryWithPropertiesOfObject (config : XCTestConfiguration) : NSDictionary PropertyValue :=
  config.properties.foldl (fun dict property =>
    match property.2 with
    | none => dict
    | some value => dict.setObject property.1 value.stored) .empty

/-- The end of `writeToPlistFile:overwrite:`. -/
def writeDictionary (host : ConfigurationHost) (config : XCTestConfiguration) (path : Path)
    (changes : List FileChange) (fs : FileSystem) : PlistWriting :=
  match host.writeToFile fs (dictionaryWithPropertiesOfObject config) path with
  | none => ⟨false, fs, changes, []⟩
  | some written => ⟨true, written, changes ++ [.written path], []⟩

/-- `writeToPlistFile:overwrite:`. -/
def writeToPlistFile (host : ConfigurationHost) (fs : FileSystem) (config : XCTestConfiguration)
    (path : String) (overwrite : Bool) : PlistWriting :=
  match host.path path with
  | none => ⟨false, fs, [], []⟩
  | some target =>
      if NSFileManager.fileExistsAtPath fs target then
        if overwrite then
          match host.fails.removeItemAtPath fs target with
          | none =>
              ⟨false, fs, [], ["Could not overwrite file at path", "  " ++ path,
                "while trying to write XCTestConfiguration", host.removeError target]⟩
          | some removed => writeDictionary host config target [.removed target] removed
        else
          ⟨false, fs, [], ["File already exists at path", "  " ++ path,
            "while trying to write XCTestConfiguration",
            "Use the --overwrite flag or delete the existing file"]⟩
      else writeDictionary host config target [] fs

/-! ## What happens to an existing file -/

/-- The properties of a configuration can be written in the place of what was removed at a path. -/
structure Writable (host : ConfigurationHost) (config : XCTestConfiguration) (target : Path) :
    Prop where
  /-- Nothing can be written in the place of the root directory. -/
  named : target ≠ []
  allowed : host.writeFails target = false
  propertyList : ∀ entry ∈ (dictionaryWithPropertiesOfObject config).entries,
    entry.2.isPropertyList = true

/-- What a run is to do with an existing output file: remove or replace it on request only, and
leave it as it was unless the run succeeds. -/
structure KeepsOutput (fs : FileSystem) (target : Path) (requested succeeds : Prop)
    (changes : List FileChange) (after : FileSystem) : Prop where
  onRequest : (∃ change ∈ changes, change.path = target) → requested
  unchanged : ¬ succeeds → after.subtree target = fs.subtree target

variable {host : ConfigurationHost} {fs : FileSystem} {config : XCTestConfiguration}
  {target : Path}

/-- A run that changes nothing keeps its output. -/
theorem keepsOutput_refl (requested succeeds : Prop) :
    KeepsOutput fs target requested succeeds [] fs :=
  ⟨by simp, fun _ => rfl⟩

/-- After a removal the directory is still there, so only the dictionary and the file system itself
can be in the way. -/
theorem isSome_writeToFile_remove_iff (hexists : fs.Exists target) :
    (host.writeToFile (fs.remove target) (dictionaryWithPropertiesOfObject config)
      target).isSome ↔ Writable host config target := by
  -- the target was in a directory, which its removal leaves
  have hplace : ∀ name, target.getLast? = some name →
      (fs.remove target).IsDirectory target.dropLast ∧
        ¬ (fs.remove target).IsDirectory (target.dropLast ++ [name]) := by
    intro name hname
    have htarget := List.dropLast_append_getLast? name hname
    have hdir : fs.IsDirectory target.dropLast := by
      rw [← htarget] at hexists
      exact fs.parent target.dropLast name hexists
    have hpre : ¬ target <+: target.dropLast := by
      intro hpre
      rw [← htarget, List.dropLast_concat] at hpre
      exact PathStore.not_prefix_of_append_singleton _ _ hpre
    refine ⟨?_, ?_⟩
    · rw [PathStore.IsDirectory, PathStore.entry_remove, if_neg hpre]
      exact hdir
    · rw [htarget, PathStore.IsDirectory, PathStore.entry_remove, if_pos (List.prefix_refl _)]
      nofun
  unfold ConfigurationHost.writeToFile
  by_cases hall : ∀ entry ∈ (dictionaryWithPropertiesOfObject config).entries,
      entry.2.isPropertyList = true
  · cases hwrite : host.writeFails target with
    | true => simpa using fun h : Writable host config target => by simpa [hwrite] using h.allowed
    | false =>
      rw [if_neg (by simpa using hall)]
      cases hname : target.getLast? with
      | none =>
        have hnil := List.getLast?_eq_none_iff.mp hname
        exact iff_of_false (by simp) fun h => h.named hnil
      | some name =>
        have hne : target ≠ [] := by
          rintro rfl
          cases hname
        simp only [dif_pos (hplace name hname), Option.isSome_some, true_iff]
        exact ⟨hne, hwrite, hall⟩
  · rw [if_pos (by simpa using Or.inr hall)]
    exact iff_of_false (by simp) fun h => hall h.propertyList

/-- After a removal the existing file is kept exactly if it was to be removed and the properties can
be written. -/
theorem keepsOutput_writeDictionary_iff (hexists : fs.Exists target) (requested : Prop) :
    KeepsOutput fs target requested
        ((writeDictionary host config target [.removed target] (fs.remove target)).success = true)
        (writeDictionary host config target [.removed target] (fs.remove target)).changes
        (writeDictionary host config target [.removed target] (fs.remove target)).fs ↔
      requested ∧ Writable host config target := by
  rw [← isSome_writeToFile_remove_iff hexists]
  unfold writeDictionary
  cases hwrite : host.writeToFile (fs.remove target) (dictionaryWithPropertiesOfObject config)
      target with
  | none =>
    -- the file is gone
    exact iff_of_false (fun h => PathStore.subtree_remove_ne hexists (h.unchanged (by simp)))
      (by simp)
  | some written =>
    constructor
    · exact fun h => ⟨h.onRequest ⟨.removed target, by simp, rfl⟩, rfl⟩
    · exact fun h => ⟨fun _ => h.1, fun hfailed => absurd rfl hfailed⟩

/-- **The writing of a configuration.** An existing file is kept unless it is to be overwritten and
can be removed; then it is kept exactly if that was requested and the properties can be written. -/
theorem keepsOutput_writeToPlistFile_iff {path : String} (hpath : host.path path = some target)
    (hexists : fs.Exists target) (overwrite : Bool) (requested : Prop) :
    KeepsOutput fs target requested
        ((writeToPlistFile host fs config path overwrite).success = true)
        (writeToPlistFile host fs config path overwrite).changes
        (writeToPlistFile host fs config path overwrite).fs ↔
      (overwrite = true → host.fails (.removeItem target) = false →
        requested ∧ Writable host config target) := by
  have hfile : NSFileManager.fileExistsAtPath fs target = true := by
    simpa [NSFileManager.fileExistsAtPath] using hexists
  simp only [writeToPlistFile, hpath, hfile, if_true]
  cases overwrite with
  | false => exact iff_of_true (keepsOutput_refl _ _) (by simp)
  | true =>
    simp only [if_true, true_implies]
    by_cases hremoves : host.fails (.removeItem target) = false
    · rw [FailurePattern.removeItemAtPath_eq_some_iff.mpr ⟨hremoves, hexists, rfl⟩,
        imp_iff_right hremoves]
      exact keepsOutput_writeDictionary_iff hexists requested
    · have hnone : host.fails.removeItemAtPath fs target = none := by
        simp [FailurePattern.removeItemAtPath, hremoves]
      rw [hnone]
      exact iff_of_true (keepsOutput_refl _ _) fun h => absurd h hremoves

end XCTestConfigurationProxy

end IOSDeviceManager
