import IOSDeviceManager.Foundation.NSFileManager
import IOSDeviceManager.Foundation.NSString

/-! # `XCAppDataBundle`

The layout of an `.xcappdata` bundle: where a simulator upload takes its directories from, and the
check that a bundle has them. -/

namespace IOSDeviceManager

open General

namespace XCAppDataBundle

/-- `sourceDirectoriesForSimulator:`. -/
def sourceDirectoriesForSimulator (path : Path) : List Path :=
  let appData := path ++ ["AppData"]
  [appData ++ ["Documents"], appData ++ ["Library"], appData ++ ["tmp"]]

/-- `hasCorrectExtension:`. -/
def hasCorrectExtension (path : Path) : Bool :=
  Path.hasSuffix path ".xcappdata"

/-- `hasSubDirectory:directory:`. -/
def hasSubDirectory (fs : FileSystem) (path : Path) (name : String) : Bool :=
  NSFileManager.isDirectoryAtPath fs (path ++ [name])

/-- `hasSubDirectoryUnderAppData:directory:`. -/
def hasSubDirectoryUnderAppData (fs : FileSystem) (path : Path) (name : String) : Bool :=
  hasSubDirectory fs (path ++ ["AppData"]) name

/-- `hasAppDataDirectory:`. -/
def hasAppDataDirectory (fs : FileSystem) (path : Path) : Bool :=
  hasSubDirectory fs path "AppData"

/-- `hasDocumentsDirectory:`. -/
def hasDocumentsDirectory (fs : FileSystem) (path : Path) : Bool :=
  hasSubDirectoryUnderAppData fs path "Documents"

/-- `hasTmpDirectory:`. -/
def hasTmpDirectory (fs : FileSystem) (path : Path) : Bool :=
  hasSubDirectoryUnderAppData fs path "tmp"

/-- `hasLibraryDirectory:`. -/
def hasLibraryDirectory (fs : FileSystem) (path : Path) : Bool :=
  hasSubDirectoryUnderAppData fs path "Library"

/-- `hasLibraryPreferencesDirectory:`. -/
def hasLibraryPreferencesDirectory (fs : FileSystem) (path : Path) : Bool :=
  hasSubDirectory fs (path ++ ["AppData"] ++ ["Library"]) "Preferences"

/-- The checks of `isValid:`, in order, each with what follows the path in its message. -/
def checks (fs : FileSystem) (path : Path) : List (Bool × String) :=
  [(NSFileManager.isDirectoryAtPath fs path,
      "\ndoes not exist at path or is not a directory"),
    (hasCorrectExtension path, "\nmust have extension .xcappdata"),
    (hasAppDataDirectory fs path, "\nmust have AppData subdirectory"),
    (hasDocumentsDirectory fs path, "\nmust have AppData/Documents subdirectory"),
    (hasTmpDirectory fs path, "\nmust have AppData/tmp subdirectory"),
    (hasLibraryDirectory fs path, "\nmust have AppData/Library subdirectory"),
    (hasLibraryPreferencesDirectory fs path,
      "\nmust have AppData/Library/Preferences subdirectory")]

/-- What `isValid:` writes to the console: the message of the first check that fails. -/
def invalidMessage (fs : FileSystem) (path : Path) : Option String :=
  ((checks fs path).find? fun check => !check.1).map fun check =>
    "App data bundle:\n  " ++ Path.text path ++ check.2

/-- `isValid:`. -/
def isValid (fs : FileSystem) (path : Path) : Bool :=
  (invalidMessage fs path).isNone

/-- The directories of a valid bundle, with the bundle itself. -/
def requiredDirectories : List Path :=
  [[], ["AppData"], ["AppData", "Documents"], ["AppData", "tmp"], ["AppData", "Library"],
    ["AppData", "Library", "Preferences"]]

/-- A bundle is valid exactly when it has the extension and all required directories. -/
theorem isValid_iff (fs : FileSystem) (path : Path) :
    isValid fs path = true ↔ hasCorrectExtension path = true ∧
      ∀ below ∈ requiredDirectories, fs.IsDirectory (path ++ below) := by
  have hchecks : isValid fs path = true ↔ ∀ check ∈ checks fs path, check.1 = true := by
    simp [isValid, invalidMessage]
  rw [hchecks]
  simp only [checks, requiredDirectories, List.forall_mem_cons, hasAppDataDirectory,
    hasDocumentsDirectory, hasTmpDirectory, hasLibraryDirectory, hasLibraryPreferencesDirectory,
    hasSubDirectoryUnderAppData, hasSubDirectory, NSFileManager.isDirectoryAtPath,
    List.append_assoc, List.cons_append, List.nil_append, List.append_nil, decide_eq_true_eq,
    List.not_mem_nil, false_implies, implies_true, and_true]
  constructor
  · rintro ⟨hdir, hext, hrest⟩
    exact ⟨hext, hdir, hrest⟩
  · rintro ⟨hext, hdir, hrest⟩
    exact ⟨hdir, hext, hrest⟩

end XCAppDataBundle

end IOSDeviceManager
