import IOSDeviceManager.Foundation.NSFileManager

/-! # File operations that may fail

A file operation can fail for reasons that are not in the file system: permissions, a full disk. A
pattern says which operations fail so; these change nothing. -/

namespace IOSDeviceManager

open General

/-- The operations of a file manager that change the file system. -/
inductive FileOperation where
  /-- `createDirectoryAtPath:withIntermediateDirectories:attributes:error:`. -/
  | createDirectory (path : Path)
  /-- `removeItemAtPath:error:`. -/
  | removeItem (path : Path)
  /-- `copyItemAtPath:toPath:error:`. -/
  | copyItem (source target : Path)
  deriving DecidableEq, Repr

/-- A pattern of failing operations. -/
abbrev FailurePattern : Type :=
  FileOperation → Bool

/-- Nothing fails but what cannot be done. -/
def noFailure : FailurePattern :=
  fun _ => false

namespace FailurePattern

variable (fails : FailurePattern)

/-- `createDirectoryAtPath:withIntermediateDirectories:YES` under a pattern. -/
def createDirectoryAtPath (fs : FileSystem) (path : Path) : Option FileSystem :=
  if fails (.createDirectory path) then none else NSFileManager.createDirectoryAtPath fs path

/-- `removeItemAtPath:error:` under a pattern. -/
def removeItemAtPath (fs : FileSystem) (path : Path) : Option FileSystem :=
  if fails (.removeItem path) then none else NSFileManager.removeItemAtPath fs path

/-- `copyItemAtPath:toPath:error:` under a pattern. -/
def copyItemAtPath (fs : FileSystem) (source target : Path) : Option FileSystem :=
  if fails (.copyItem source target) then none else NSFileManager.copyItemAtPath fs source target

@[simp] theorem removeItemAtPath_noFailure (fs : FileSystem) (path : Path) :
    noFailure.removeItemAtPath fs path = NSFileManager.removeItemAtPath fs path :=
  rfl

@[simp] theorem copyItemAtPath_noFailure (fs : FileSystem) (source target : Path) :
    noFailure.copyItemAtPath fs source target = NSFileManager.copyItemAtPath fs source target :=
  rfl

variable {fails} {fs fs' : FileSystem} {path source target : Path}

/-- A removal succeeds exactly when there is something and the pattern lets it. -/
theorem removeItemAtPath_eq_some_iff :
    fails.removeItemAtPath fs path = some fs' ↔
      fails (.removeItem path) = false ∧ fs.Exists path ∧ fs' = fs.remove path := by
  unfold removeItemAtPath NSFileManager.removeItemAtPath
  by_cases hfails : fails (.removeItem path) = true
  · simp [hfails]
  · by_cases hexists : fs.Exists path <;> simp [hfails, hexists, eq_comm]

/-- A copy succeeds exactly when it can be made and the pattern lets it. -/
theorem copyItemAtPath_eq_some_iff :
    fails.copyItemAtPath fs source target = some fs' ↔
      fails (.copyItem source target) = false ∧
        ∃ hcopy : fs.CanCopy source target, fs' = fs.copy source target hcopy := by
  unfold copyItemAtPath NSFileManager.copyItemAtPath
  by_cases hfails : fails (.copyItem source target) = true
  · simp [hfails]
  · by_cases hcan : fs.CanCopy source target <;> simp [hfails, hcan, eq_comm]

/-- Directories are made exactly when they can be and the pattern lets them. -/
theorem createDirectoryAtPath_eq_some_iff :
    fails.createDirectoryAtPath fs path = some fs' ↔
      fails (.createDirectory path) = false ∧ fs.CanCreate path ∧ fs' = fs.create path := by
  unfold createDirectoryAtPath NSFileManager.createDirectoryAtPath
  by_cases hfails : fails (.createDirectory path) = true
  · simp [hfails]
  · by_cases hcan : fs.CanCreate path <;> simp [hfails, hcan, eq_comm]

/-- Making directories keeps what there is. -/
theorem keeps_createDirectoryAtPath (h : fails.createDirectoryAtPath fs path = some fs') :
    PathStore.Keeps fs fs' := by
  obtain ⟨-, hcan, rfl⟩ := createDirectoryAtPath_eq_some_iff.mp h
  exact PathStore.keeps_create hcan

end FailurePattern

end IOSDeviceManager
