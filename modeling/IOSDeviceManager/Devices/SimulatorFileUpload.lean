import IOSDeviceManager.Devices.SimulatorDownload
import IOSDeviceManager.Utilities.ConsoleWriter

/-! # Uploading a file to a simulator

`uploadFile:forApplication:overwrite:` copies a file into the documents of an app. An entry of the
same name is removed before the copy is made, so it is lost if the copy fails; and it fails at the
latest when one of the two paths lies in the other. After the copy the destination is printed, as a
format, so that a `%` in it can end the process. -/

namespace IOSDeviceManager

open General

namespace Simulator

/-- The documents of an app. -/
def documentsDir (containerPath : Path) : Path :=
  containerPath ++ ["Documents"]

/-- Where a file is copied to: its last path component in the documents. The root directory has no
name, and `/` appended to a path adds nothing. -/
def uploadDestination (containerPath filepath : Path) : Path :=
  documentsDir containerPath ++ filepath.getLast?.toList

/-- The end of the method: the destination is printed. There is no status when the process ends. -/
def printDestination (console : Console) (dest : Path) : Option IOSReturnStatusCode :=
  (ConsoleWriter.write console dest.text).map fun _ => .everythingOkay

/-- The copy at the end of the method. -/
def copyFile (console : Console) (fails : FailurePattern) (filepath dest : Path)
    (fs : FileSystem) : Option IOSReturnStatusCode × FileSystem :=
  match fails.copyItemAtPath fs filepath dest with
  | none => (some .genericFailure, fs)
  | some fs => (printDestination console dest, fs)

/-- `uploadFile:forApplication:overwrite:`. -/
def uploadFile (host : ContainerHost) (console : Console) (fails : FailurePattern)
    (fs : FileSystem) (uuid : String) (filepath : Path) (bundleID : String) (overwrite : Bool) :
    Option IOSReturnStatusCode × FileSystem :=
  if NSFileManager.fileExistsAtPath fs filepath = false then (some .invalidArguments, fs)
  else
    match containerPathForApplication host fs uuid bundleID with
    | none => (some .genericFailure, fs)
    | some containerPath =>
        let dest := uploadDestination containerPath filepath
        if NSFileManager.fileExistsAtPath fs dest then
          if !overwrite then (some .genericFailure, fs)
          else
            match fails.removeItemAtPath fs dest with
            | none => (some .genericFailure, fs)
            | some fs => copyFile console fails filepath dest fs
        else copyFile console fails filepath dest fs

/-- What an upload is to do: change nothing in the documents and in the local file unless it
succeeds, and then put a copy of the local file at its destination and change nothing else. -/
structure LosesNothing (fs : FileSystem) (containerPath : Option Path) (filepath : Path)
    (result : Option IOSReturnStatusCode × FileSystem) : Prop where
  localFile : result.1 ≠ some .everythingOkay → result.2.subtree filepath = fs.subtree filepath
  documents : result.1 ≠ some .everythingOkay → ∀ container ∈ containerPath,
    result.2.subtree (documentsDir container) = fs.subtree (documentsDir container)
  uploaded : result.1 = some .everythingOkay → ∃ container ∈ containerPath,
    result.2.subtree (uploadDestination container filepath) = fs.subtree filepath ∧
      PathStore.AgreeOutside (uploadDestination container filepath) fs result.2

/-- An old entry at the destination is removed, if there is one. -/
def RemovesOld (fails : FailurePattern) (fs : FileSystem) (dest : Path) (overwrite : Bool) : Prop :=
  fs.Exists dest → overwrite = true ∧ fails (.removeItem dest) = false

/-- The copy is made: the old entry is out of the way, there are documents, neither path lies in the
other, and the copy does not fail by itself. -/
structure CopyIsMade (fails : FailurePattern) (fs : FileSystem) (container filepath : Path)
    (overwrite : Bool) : Prop where
  removes : RemovesOld fails fs (uploadDestination container filepath) overwrite
  directory : fs.IsDirectory (documentsDir container)
  apart : PathStore.Apart (uploadDestination container filepath) filepath
  copies : fails (.copyItem filepath (uploadDestination container filepath)) = false

section

variable {console : Console} {fails : FailurePattern} {fs cleared : FileSystem}
  {containerPath : Option Path} {container filepath : Path} {overwrite : Bool}

theorem printDestination_eq_okay_iff {dest : Path} :
    printDestination console dest = some .everythingOkay ↔
      (ConsoleWriter.hasConversion dest.text.toList = true → console.goesOn dest.text = true) := by
  unfold printDestination
  cases hwrite : ConsoleWriter.write console dest.text with
  | none =>
    obtain ⟨hconversion, hends⟩ := ConsoleWriter.write_eq_none_iff.mp hwrite
    simp [hconversion, hends]
  | some _ =>
    refine iff_of_true rfl fun hconversion => ?_
    by_contra hends
    rw [ConsoleWriter.write_eq_none_iff.mpr ⟨hconversion, by simpa using hends⟩] at hwrite
    cases hwrite

/-- Where nothing changes, nothing is lost. -/
theorem losesNothing_of_unchanged {status : IOSReturnStatusCode} (h : status ≠ .everythingOkay) :
    LosesNothing fs containerPath filepath (some status, fs) :=
  ⟨fun _ => rfl, fun _ _ _ => rfl, fun hokay => absurd (Option.some.inj hokay) h⟩

/-- The destination lies in a directory if it exists. -/
theorem parent_uploadDestination (h : fs.Exists (uploadDestination container filepath)) :
    uploadDestination container filepath ≠ [] ∧
      fs.IsDirectory (uploadDestination container filepath).dropLast := by
  have hne : uploadDestination container filepath ≠ [] := by
    simp [uploadDestination, documentsDir]
  refine ⟨hne, ?_⟩
  rw [PathStore.Exists, ← List.dropLast_append_getLast hne] at h
  exact fs.parent _ _ h

/-- What is apart from its destination has a name. -/
theorem uploadDestination_of_apart
    (h : PathStore.Apart (uploadDestination container filepath) filepath) :
    ∃ name, uploadDestination container filepath = documentsDir container ++ [name] := by
  have hne : filepath ≠ [] := by
    rintro rfl
    exact h.2 List.nil_prefix
  exact ⟨filepath.getLast hne, by rw [uploadDestination, List.getLast?_eq_some_getLast hne]; rfl⟩

/-- The copy can be made exactly if there are documents and neither path lies in the other. -/
theorem canCopy_uploadDestination_iff (hsource : fs.Exists filepath)
    (hagree : PathStore.AgreeOutside (uploadDestination container filepath) fs cleared)
    (hfree : ¬ cleared.Exists (uploadDestination container filepath)) :
    cleared.CanCopy filepath (uploadDestination container filepath) ↔
      fs.IsDirectory (documentsDir container) ∧
        PathStore.Apart (uploadDestination container filepath) filepath := by
  by_cases hroot : filepath = []
  · -- the root directory holds every destination
    subst hroot
    exact iff_of_false (fun hcan => hcan.outside List.nil_prefix) fun h => h.2.2 List.nil_prefix
  · have hdest : uploadDestination container filepath =
        documentsDir container ++ [filepath.getLast hroot] := by
      rw [uploadDestination, List.getLast?_eq_some_getLast hroot]
      rfl
    rw [hdest] at hagree hfree ⊢
    exact PathStore.canCopy_iff_apart hsource hagree hfree

/-- **After the copy** nothing is lost exactly if the destination can be printed, or the entry held
the content of the file before. -/
theorem losesNothing_copied_iff
    (hagree : PathStore.AgreeOutside (uploadDestination container filepath) fs cleared)
    (hapart : PathStore.Apart (uploadDestination container filepath) filepath)
    (hcan : cleared.CanCopy filepath (uploadDestination container filepath)) :
    LosesNothing fs (some container) filepath
        (printDestination console (uploadDestination container filepath),
          cleared.copy filepath (uploadDestination container filepath) hcan) ↔
      printDestination console (uploadDestination container filepath) = some .everythingOkay ∨
        fs.subtree (uploadDestination container filepath) = fs.subtree filepath := by
  have hcopied : (cleared.copy filepath (uploadDestination container filepath) hcan).subtree
      (uploadDestination container filepath) = fs.subtree filepath := by
    rw [PathStore.subtree_copy_self]
    exact hagree.subtree_eq hapart
  have hframe := hagree.trans (PathStore.agreeOutside_copy cleared hcan)
  by_cases hokay : printDestination console (uploadDestination container filepath) =
      some .everythingOkay
  · refine iff_of_true ⟨fun h => absurd hokay h, fun h => absurd hokay h, fun _ => ?_⟩ (.inl hokay)
    exact ⟨container, rfl, hcopied, hframe⟩
  · rw [or_iff_right hokay]
    constructor
    · -- the documents are as before, and with them the entry
      intro h
      rw [← hcopied]
      funext below
      have hentry := congrFun (h.documents hokay container rfl)
        (filepath.getLast?.toList ++ below)
      simpa only [PathStore.subtree, uploadDestination, List.append_assoc] using hentry.symm
    · intro hsame
      refine ⟨fun _ => hframe.subtree_eq hapart, ?_, fun h => absurd h hokay⟩
      rintro _ _ ⟨rfl⟩
      funext below
      by_cases hpre : uploadDestination container filepath <+: documentsDir container ++ below
      · obtain ⟨rest, hrest⟩ := hpre
        rw [PathStore.subtree, PathStore.subtree, ← hrest]
        exact congrFun (hcopied.trans hsame.symm) rest
      · exact hframe _ hpre

/-- The copy loses nothing exactly if the old entry was not removed in vain, and the destination of
a copy that is made can be printed or held the content before. -/
theorem losesNothing_copyFile_iff (console : Console) (hsource : fs.Exists filepath)
    (hagree : PathStore.AgreeOutside (uploadDestination container filepath) fs cleared)
    (hfree : ¬ cleared.Exists (uploadDestination container filepath))
    (hremoves : RemovesOld fails fs (uploadDestination container filepath) overwrite)
    (hcleared : ¬ fs.Exists (uploadDestination container filepath) → cleared = fs) :
    LosesNothing fs (some container) filepath
        (copyFile console fails filepath (uploadDestination container filepath) cleared) ↔
      (fs.Exists (uploadDestination container filepath) →
        PathStore.Apart (uploadDestination container filepath) filepath ∧
          fails (.copyItem filepath (uploadDestination container filepath)) = false) ∧
      (CopyIsMade fails fs container filepath overwrite →
        printDestination console (uploadDestination container filepath) = some .everythingOkay ∨
          fs.subtree (uploadDestination container filepath) = fs.subtree filepath) := by
  have hcan := canCopy_uploadDestination_iff hsource hagree hfree
  unfold copyFile
  cases hcopy : fails.copyItemAtPath cleared filepath (uploadDestination container filepath) with
  | none =>
    have hnot : ¬ (fs.IsDirectory (documentsDir container) ∧
        PathStore.Apart (uploadDestination container filepath) filepath ∧
          fails (.copyItem filepath (uploadDestination container filepath)) = false) := by
      rintro ⟨hdocuments, hapart, hworks⟩
      rw [FailurePattern.copyItemAtPath_eq_some_iff.mpr
        ⟨hworks, hcan.mpr ⟨hdocuments, hapart⟩, rfl⟩] at hcopy
      cases hcopy
    have hmade : ¬ CopyIsMade fails fs container filepath overwrite :=
      fun h => hnot ⟨h.directory, h.apart, h.copies⟩
    simp only [hmade, false_implies, and_true]
    by_cases hdest : fs.Exists (uploadDestination container filepath)
    · refine iff_of_false (fun h => ?_) fun h => ?_
      · -- the entry is no longer in the documents
        have hdocuments := congrFun (h.documents nofun container rfl)
          filepath.getLast?.toList
        rw [PathStore.subtree, PathStore.subtree, ← uploadDestination] at hdocuments
        rw [PathStore.Exists, ← hdocuments] at hdest
        exact hfree hdest
      · obtain ⟨hapart, hworks⟩ := h hdest
        obtain ⟨name, hname⟩ := uploadDestination_of_apart hapart
        have hparent := (parent_uploadDestination hdest).2
        rw [hname, List.dropLast_concat] at hparent
        exact hnot ⟨hparent, hapart, hworks⟩
    · obtain rfl := hcleared hdest
      exact iff_of_true (losesNothing_of_unchanged (by decide)) fun h => absurd h hdest
  | some copied =>
    obtain ⟨hworks, hcopied, rfl⟩ := FailurePattern.copyItemAtPath_eq_some_iff.mp hcopy
    obtain ⟨hdocuments, hapart⟩ := hcan.mp hcopied
    have hmade : CopyIsMade fails fs container filepath overwrite :=
      ⟨hremoves, hdocuments, hapart, hworks⟩
    simp only [hmade, hapart, hworks, and_self, implies_true, true_and, true_implies]
    exact losesNothing_copied_iff hagree hapart hcopied

/-- **When an upload loses nothing.** For every container, file, flag, pattern and console: unless
an entry is removed for a copy that then is not made, because it fails or because one path lies in
the other; or a copy is made under a path with a conversion, at which the process ends, and the
entry did not hold the content before. -/
theorem uploadFile_losesNothing_iff (host : ContainerHost) (console : Console)
    (fails : FailurePattern) (fs : FileSystem) (uuid : String) (filepath : Path)
    (bundleID : String) (overwrite : Bool) :
    LosesNothing fs (containerPathForApplication host fs uuid bundleID) filepath
        (uploadFile host console fails fs uuid filepath bundleID overwrite) ↔
      ∀ container ∈ containerPathForApplication host fs uuid bundleID, fs.Exists filepath →
        (fs.Exists (uploadDestination container filepath) → overwrite = true →
          fails (.removeItem (uploadDestination container filepath)) = false →
            PathStore.Apart (uploadDestination container filepath) filepath ∧
              fails (.copyItem filepath (uploadDestination container filepath)) = false) ∧
        (CopyIsMade fails fs container filepath overwrite →
          (ConsoleWriter.hasConversion (uploadDestination container filepath).text.toList = true →
            console.goesOn (uploadDestination container filepath).text = true) ∨
          fs.subtree (uploadDestination container filepath) = fs.subtree filepath) := by
  simp only [← printDestination_eq_okay_iff]
  unfold uploadFile NSFileManager.fileExistsAtPath
  by_cases hsource : fs.Exists filepath
  · rw [if_neg (by simpa using hsource)]
    cases hcontainer : containerPathForApplication host fs uuid bundleID with
    | none => exact iff_of_true (losesNothing_of_unchanged (by decide)) (by simp)
    | some container =>
      simp only [Option.mem_some_iff, forall_eq', hsource, true_implies]
      by_cases hdest : fs.Exists (uploadDestination container filepath)
      · simp only [hdest, decide_true, if_true, true_implies]
        by_cases hremoves : overwrite = true ∧
            fails (.removeItem (uploadDestination container filepath)) = false
        · obtain ⟨rfl, hworks⟩ := hremoves
          rw [FailurePattern.removeItemAtPath_eq_some_iff.mpr ⟨hworks, hdest, rfl⟩]
          have hcopy := losesNothing_copyFile_iff console hsource
            (PathStore.agreeOutside_remove fs _) (by simp [PathStore.Exists])
            (fun _ => ⟨rfl, hworks⟩) (fun h => absurd hdest h)
          simpa [hdest, hworks] using hcopy
        · -- the method is left with the old entry in place
          have hmade : ¬ CopyIsMade fails fs container filepath overwrite :=
            fun h => hremoves (h.removes hdest)
          simp only [hmade, false_implies, and_true]
          refine iff_of_true ?_ fun hoverwrite hworks => absurd ⟨hoverwrite, hworks⟩ hremoves
          cases overwrite with
          | false => exact losesNothing_of_unchanged (by decide)
          | true =>
            have hnone : fails.removeItemAtPath fs (uploadDestination container filepath) =
                none := by
              simp_all [FailurePattern.removeItemAtPath]
            simp only [Bool.not_true, Bool.false_eq_true, if_false, hnone]
            exact losesNothing_of_unchanged (by decide)
      · simp only [hdest, decide_false, Bool.false_eq_true, if_false]
        have hremoves : RemovesOld fails fs (uploadDestination container filepath) overwrite :=
          fun h => absurd h hdest
        have hcopy := losesNothing_copyFile_iff console hsource (fun _ _ => rfl) hdest hremoves
          (fun _ => rfl)
        simpa [hdest] using hcopy
  · rw [if_pos (by simpa using hsource)]
    exact iff_of_true (losesNothing_of_unchanged (by decide)) fun _ _ h => absurd h hsource

end

/-! ### An entry that is lost -/

/-- The simulator with one app, with a file in its documents. -/
def sampleDocuments : FileSystem :=
  sampleFileSystem.write (documentsDir sampleContainer) "a.txt" [] (by decide +kernel)
    (by decide +kernel)

/-- The file is uploaded to where it is: no operation fails by itself, but it is gone. -/
theorem uploadFile_loses_itself :
    containerPathForApplication sampleHost sampleDocuments "5C2D" "com.my.app" =
        some sampleContainer ∧
      sampleDocuments.Exists (documentsDir sampleContainer ++ ["a.txt"]) ∧
      ¬ LosesNothing sampleDocuments (some sampleContainer)
        (documentsDir sampleContainer ++ ["a.txt"])
        (uploadFile sampleHost .strict noFailure sampleDocuments "5C2D"
          (documentsDir sampleContainer ++ ["a.txt"]) "com.my.app" true) := by
  have hrun : (uploadFile sampleHost .strict noFailure sampleDocuments "5C2D"
      (documentsDir sampleContainer ++ ["a.txt"]) "com.my.app" true).1 = some .genericFailure ∧
      ¬ (uploadFile sampleHost .strict noFailure sampleDocuments "5C2D"
        (documentsDir sampleContainer ++ ["a.txt"]) "com.my.app" true).2.Exists
          (documentsDir sampleContainer ++ ["a.txt"]) := by decide +kernel
  have hexists : sampleDocuments.Exists (documentsDir sampleContainer ++ ["a.txt"]) := by
    decide +kernel
  refine ⟨by decide +kernel, hexists, fun h => hrun.2 ?_⟩
  have hfile := congrFun (h.localFile (by rw [hrun.1]; decide)) []
  rw [PathStore.subtree, PathStore.subtree, List.append_nil] at hfile
  rw [PathStore.Exists, hfile]
  exact hexists

end Simulator

end IOSDeviceManager
