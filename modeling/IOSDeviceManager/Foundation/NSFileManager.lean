import IOSDeviceManager.Foundation.NSString
import IOSDeviceManager.General.PathStore

/-! # `NSFileManager`

Paths are absolute and standardized: the list of their components. The operations fail, with `none`,
when their `BOOL` result is `NO`. -/

namespace IOSDeviceManager

open General

/-- The components of a standardized absolute path. -/
abbrev Path : Type :=
  List String

/-- The files and directories of a host. -/
abbrev FileSystem : Type :=
  PathStore String (List UInt8)

namespace Path

/-- The text of a path. -/
def text (path : Path) : String :=
  "/" ++ "/".intercalate path

/-- `lastPathComponent`. -/
def lastPathComponent (path : Path) : String :=
  path.getLastD "/"

/-- `hasSuffix:` of a path, for a suffix without a slash. -/
def hasSuffix (path : Path) (suffix : String) : Bool :=
  NSString.hasSuffix path.lastPathComponent suffix

end Path

namespace NSFileManager

/-- `fileExistsAtPath:`. -/
def fileExistsAtPath (fs : FileSystem) (path : Path) : Bool :=
  fs.Exists path

/-- The `isDirectory:` result of `fileExistsAtPath:isDirectory:`, `NO` when nothing exists. -/
def isDirectoryAtPath (fs : FileSystem) (path : Path) : Bool :=
  fs.IsDirectory path

/-- `removeItemAtPath:error:`. -/
def removeItemAtPath (fs : FileSystem) (path : Path) : Option FileSystem :=
  if fs.Exists path then some (fs.remove path) else none

/-- `copyItemAtPath:toPath:error:`. -/
def copyItemAtPath (fs : FileSystem) (source target : Path) : Option FileSystem :=
  if h : fs.CanCopy source target then some (fs.copy source target h) else none

/-- `createDirectoryAtPath:withIntermediateDirectories:attributes:error:`, with the intermediate
directories. -/
def createDirectoryAtPath (fs : FileSystem) (path : Path) : Option FileSystem :=
  if fs.CanCreate path then some (fs.create path) else none

/-- What a successful removal does. -/
theorem removeItemAtPath_eq_some {fs fs' : FileSystem} {path : Path}
    (h : removeItemAtPath fs path = some fs') : fs.Exists path ∧ fs' = fs.remove path := by
  simp only [removeItemAtPath, Option.ite_none_right_eq_some, Option.some.injEq] at h
  exact ⟨h.1, h.2.symm⟩

/-- What a successful copy does. -/
theorem copyItemAtPath_eq_some {fs fs' : FileSystem} {source target : Path}
    (h : copyItemAtPath fs source target = some fs') :
    ∃ hcopy : fs.CanCopy source target, fs' = fs.copy source target hcopy := by
  unfold copyItemAtPath at h
  split at h
  · rename_i hcopy
    exact ⟨hcopy, (Option.some.inj h).symm⟩
  · cases h

end NSFileManager

end IOSDeviceManager
