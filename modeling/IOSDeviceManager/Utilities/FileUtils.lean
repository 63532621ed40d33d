import IOSDeviceManager.Foundation.NSFileManager
import IOSDeviceManager.Foundation.NSString
import IOSDeviceManager.General.DirectoryTree

/-! # `FileUtils`

The two ways of going through a directory: `fileSeq:handler:` recursively, and
`depthFirstPathsStartingAtDirectory:error:` with a stack. A directory is a finite tree here, which
can be listed; what is in the files plays no part. Last, how a path is made absolute. -/

namespace IOSDeviceManager

open General

/-- The files and directories below a directory, with their names. -/
abbrev FileTree : Type :=
  DirectoryTree String

namespace FileUtils

/-! ## `fileSeq:handler:` -/

section FileSeq

variable {σ : Type*} (handler : Path → σ → σ)

mutual

/-- `fileSeq:handler:` on a directory, threading the state that the handler changes. Files are not
entered. -/
def fileSeq (dir : Path) : FileTree → σ → σ
  | .file _, s => s
  | .directory _ children, s => fileSeqChildren dir children s

/-- The loop over the children. -/
def fileSeqChildren (dir : Path) : List FileTree → σ → σ
  | [], s => s
  | child :: children, s =>
      let filePath := dir ++ [child.name]
      fileSeqChildren dir children (fileSeq filePath child (handler filePath s))

end

mutual

/-- The handler is called on everything below the directory, in order. -/
theorem fileSeq_eq_foldl (dir : Path) (t : FileTree) (s : σ) :
    fileSeq handler dir t s = (t.entries dir).foldl (fun s path => handler path s) s := by
  cases t with
  | file name => rfl
  | directory name children =>
    rw [fileSeq, DirectoryTree.entries, fileSeqChildren_eq_foldl]

theorem fileSeqChildren_eq_foldl (dir : Path) (children : List FileTree) (s : σ) :
    fileSeqChildren handler dir children s =
      (DirectoryTree.entriesOfChildren dir children).foldl (fun s path => handler path s) s := by
  cases children with
  | nil => rfl
  | cons child children =>
    rw [fileSeqChildren, DirectoryTree.entriesOfChildren, List.foldl_append, List.foldl_cons,
      fileSeqChildren_eq_foldl, fileSeq_eq_foldl]

end

end FileSeq

/-! ## `depthFirstPathsStartingAtDirectory:error:` -/

/-- `depthFirstPathsStartingAtDirectory:error:`: `nil` if nothing is there. -/
def depthFirstPathsStartingAtDirectory (tree : FileTree) (dir : Path) : Option (List Path) :=
  (tree.find dir).map fun sub => DirectoryTree.walk [(dir, sub)]

/-- `isDylibOrFramework:`. -/
def isDylibOrFramework (objectPath : Path) : Bool :=
  Path.hasSuffix objectPath ".framework" || Path.hasSuffix objectPath ".dylib"

/-! ## `expandPath:` -/

/-- `expandPath:`: a path that is not absolute is taken below the current directory. A leading dot
is replaced by the current directory, whatever follows it. -/
def expandPath (currentDirectory : String) (stringByStandardizingPath : String → String)
    (path : String) : String :=
  let standardPath :=
    if NSString.hasPrefix path ".." then
      NSString.stringByAppendingPathComponent currentDirectory path
    else path
  let standardPath :=
    if NSString.hasPrefix standardPath "." then
      currentDirectory ++ String.ofList (standardPath.toList.drop 1)
    else standardPath
  -- Handle possible relative path without preceding ~ .. or .
  let standardPath :=
    if !NSString.hasPrefix standardPath "/" && !NSString.hasPrefix standardPath "~" then
      NSString.stringByAppendingPathComponent currentDirectory standardPath
    else standardPath
  stringByStandardizingPath standardPath

end FileUtils

end IOSDeviceManager
