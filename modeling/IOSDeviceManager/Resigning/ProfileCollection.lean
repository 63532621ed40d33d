import IOSDeviceManager.Foundation.NSString
import IOSDeviceManager.General.LockedCollection
import IOSDeviceManager.Resigning.IdentitySelection

/-! # `nonExpiredIOSProfiles`

The profiles in the profiles directory are exported concurrently, and those that count are collected
behind a lock. The order in which they are delivered depends on the interleaving, the profiles do
not; so neither does the identity that is selected by reading them again and again. -/

namespace IOSDeviceManager

open General

namespace MobileProfile

/-- A profile as `security` exports it, with the platforms it is for. -/
structure Exported where
  profile : MobileProfile
  /-- `Platform`. -/
  platform : Option (List String)

/-- `isPlatformIOS`. -/
def Exported.isPlatformIOS (exported : Exported) : Bool :=
  (exported.platform.getD []).contains "iOS"

/-- The host that the profiles are read on. -/
structure ProfilesHost where
  /-- `NSHomeDirectory()`. -/
  homeDirectory : String
  /-- `contentsOfDirectoryAtPath:error:` of the profiles directory. -/
  contents : Option (List String)
  /-- `dictionaryByExportingProfileWithSecurity:`. -/
  dictionaryByExporting : String → Option Exported
  /-- The current date, in seconds since the reference date. -/
  now : ℚ

variable (host : ProfilesHost)

/-- `profilesDirectory`. -/
def profilesDirectory : String :=
  NSString.stringByAppendingPathComponent host.homeDirectory
    "Library/MobileDevice/Provisioning Profiles"

/-- `arrayOfProfilePaths`: `nil` if there is nothing in the directory at all. -/
def arrayOfProfilePaths : Option (List String) :=
  match host.contents with
  | none => none
  | some contents =>
      if contents.length = 0 then none
      else some ((contents.filter fun name => NSString.hasSuffix name ".mobileprovision").map
        fun name => NSString.stringByAppendingPathComponent (profilesDirectory host) name)

/-- What a block adds for a path. -/
def nonExpiredIOSProfile (path : String) : Option MobileProfile :=
  match host.dictionaryByExporting path with
  | none => none
  | some exported =>
      if exported.isPlatformIOS && !exported.profile.isExpired host.now then some exported.profile
      else none

/-- The blocks that add a profile. -/
def addsProfile (paths : List String) (w : Fin paths.length) : Bool :=
  (nonExpiredIOSProfile host (paths.get w)).isSome

/-- The profiles that were added, in the order of the additions. -/
def collectedProfiles (paths : List String) (s : LockedCollection.State (Fin paths.length)) :
    List MobileProfile :=
  s.collected.filterMap fun w => nonExpiredIOSProfile host (paths.get w)

/-- The outcomes of `nonExpiredIOSProfiles`: one for every interleaving of the blocks. -/
inductive NonExpiredIOSProfiles : Option (List MobileProfile) → Prop
  | noPaths (hpaths : arrayOfProfilePaths host = none) : NonExpiredIOSProfiles none
  | collected {paths : List String} (hpaths : arrayOfProfilePaths host = some paths)
      {labels : List (LockedCollection.Step (Fin paths.length))}
      {s : LockedCollection.State (Fin paths.length)}
      (hrun : run (LockedCollection.step (addsProfile host paths))
        (LockedCollection.initial _) labels = some s)
      (hdone : s.Finished) :
      NonExpiredIOSProfiles
        (if (collectedProfiles host paths s).length = 0 then none
        else some (collectedProfiles host paths s))

/-- The profiles that count, in the order of the directory. -/
def profilesInOrder : List MobileProfile :=
  ((arrayOfProfilePaths host).getD []).filterMap (nonExpiredIOSProfile host)

/-! ## Every interleaving -/

section

variable {host} {paths : List String} {s : LockedCollection.State (Fin paths.length)}

/-- Whatever the interleaving, the profiles that count are collected. -/
theorem collectedProfiles_perm (hs : LockedCollection.Consistent (addsProfile host paths) s)
    (hdone : s.Finished) :
    (collectedProfiles host paths s).Perm (paths.filterMap (nonExpiredIOSProfile host)) := by
  have hperm := LockedCollection.collected_perm hs hdone (List.nodup_finRange paths.length)
    (List.mem_finRange (n := paths.length))
  have hfilter : ((List.finRange paths.length).filter (addsProfile host paths)).filterMap
      (fun w => nonExpiredIOSProfile host (paths.get w)) =
        (List.finRange paths.length).filterMap fun w =>
          nonExpiredIOSProfile host (paths.get w) := by
    rw [List.filterMap_filter]
    refine List.filterMap_congr fun w _ => ?_
    cases hprofile : nonExpiredIOSProfile host (paths.get w) with
    | none => rw [addsProfile, hprofile, Option.isSome_none]; rfl
    | some profile => rw [addsProfile, hprofile, Option.isSome_some]; rfl
  have hmap : (List.finRange paths.length).filterMap
      (fun w => nonExpiredIOSProfile host (paths.get w)) =
        paths.filterMap (nonExpiredIOSProfile host) := by
    conv_rhs => rw [← List.map_get_finRange paths, List.filterMap_map]
    rfl
  rw [← hmap, ← hfilter]
  exact hperm.filterMap _

/-- **Nothing is lost between the blocks.** Every outcome holds exactly the profiles that count, in
some order, and is `nil` if there are none. -/
theorem nonExpiredIOSProfiles_perm {outcome : Option (List MobileProfile)}
    (h : NonExpiredIOSProfiles host outcome) :
    (outcome.getD []).Perm (profilesInOrder host) ∧
      (outcome = none ↔ profilesInOrder host = []) := by
  cases h with
  | noPaths hpaths => simp [profilesInOrder, hpaths]
  | @collected paths hpaths labels s hrun hdone =>
    have hperm := collectedProfiles_perm (LockedCollection.consistent_run hrun) hdone
    have horder : profilesInOrder host = paths.filterMap (nonExpiredIOSProfile host) := by
      rw [profilesInOrder, hpaths, Option.getD_some]
    rw [horder]
    split
    · rename_i hzero
      have hnil := List.length_eq_zero_iff.mp hzero
      rw [hnil] at hperm
      rw [hperm.nil_eq]
      exact ⟨List.Perm.refl _, iff_of_true rfl rfl⟩
    · rename_i hne
      refine ⟨hperm, iff_of_false (by simp) fun hnil => hne ?_⟩
      rw [hperm.length_eq, hnil, List.length_nil]

/-- There is an outcome: no interleaving gets stuck. -/
theorem exists_nonExpiredIOSProfiles (host : ProfilesHost) :
    ∃ outcome, NonExpiredIOSProfiles host outcome := by
  cases hpaths : arrayOfProfilePaths host with
  | none => exact ⟨_, .noPaths hpaths⟩
  | some paths =>
    obtain ⟨labels, s, hrun, hdone⟩ := LockedCollection.exists_finished
      (LockedCollection.consistent_initial (addsProfile host paths))
    exact ⟨_, .collected hpaths hrun hdone⟩

end

/-! ### Two profiles for iOS -/

open RankedProfiles (sampleProfiles)

/-- A profiles directory with two profiles for iOS, one for another platform and a text file. -/
def sampleProfilesHost : ProfilesHost where
  homeDirectory := "/Users/me"
  contents := some ["a.mobileprovision", "b.mobileprovision", "mac.mobileprovision", "notes.txt"]
  dictionaryByExporting path :=
    if NSString.hasSuffix path "/a.mobileprovision" then
      sampleProfiles[0]?.map fun profile => ⟨profile, some ["iOS"]⟩
    else if NSString.hasSuffix path "/b.mobileprovision" then
      sampleProfiles[1]?.map fun profile => ⟨profile, some ["iOS", "tvOS"]⟩
    else sampleProfiles[0]?.map fun profile => ⟨profile, some ["OSX"]⟩
  now := 0

/-- The paths of the three profiles. -/
def samplePaths : List String :=
  (arrayOfProfilePaths sampleProfilesHost).getD []

/-- The workers of the three profiles. -/
def sampleWorker (i : Fin 3) : Fin samplePaths.length :=
  i.cast (by decide +kernel)

/-- The second block takes the lock first, and the third one is done in the meantime. -/
def sampleSteps : List (LockedCollection.Step (Fin samplePaths.length)) :=
  [.acquire (sampleWorker 1), .read (sampleWorker 1), .skip (sampleWorker 2),
    .write (sampleWorker 1), .release (sampleWorker 1), .acquire (sampleWorker 0),
    .read (sampleWorker 0), .write (sampleWorker 0), .release (sampleWorker 0)]

/-- The two profiles are delivered in the other order. -/
theorem nonExpiredIOSProfiles_perm_sample : ∃ outcome,
    NonExpiredIOSProfiles sampleProfilesHost outcome ∧ outcome.isSome = true ∧
      (outcome.getD []).Perm (profilesInOrder sampleProfilesHost) := by
  obtain ⟨s, hrun⟩ := Option.isSome_iff_exists.mp
    (show (run (LockedCollection.step (addsProfile sampleProfilesHost samplePaths))
      (LockedCollection.initial _) sampleSteps).isSome by decide +kernel)
  have hfinal : ∀ t ∈ run (LockedCollection.step (addsProfile sampleProfilesHost samplePaths))
      (LockedCollection.initial _) sampleSteps, ∀ w, t.phase w = .finished := by decide +kernel
  have hpaths : arrayOfProfilePaths sampleProfilesHost = some samplePaths := rfl
  have houtcome := NonExpiredIOSProfiles.collected hpaths hrun (hfinal s hrun)
  obtain ⟨hperm, hnone⟩ := nonExpiredIOSProfiles_perm houtcome
  refine ⟨_, houtcome, ?_, hperm⟩
  rw [Option.isSome_iff_ne_none]
  exact fun h => absurd (hnone.mp h) (by decide +kernel)

end MobileProfile

namespace CodesignIdentity

open MobileProfile

/-- **The selected identity does not depend on the interleavings.** However the blocks of every
single call of `nonExpiredIOSProfiles` interleave, `identityForAppBundle:deviceId:` selects the
identity that it would select from the profiles in the order of the directory. -/
theorem identityForAppBundle_of_interleavings (host : ProfilesHost)
    (appEnts : Option Entitlements) (identities : List CodesignIdentity) (deviceId : String)
    (delivered : Nat → Option (List MobileProfile))
    (hdelivered : ∀ call, NonExpiredIOSProfiles host (delivered call)) :
    identityForAppBundle appEnts identities (fun call => (delivered call).getD []) deviceId =
      identityForAppBundle appEnts identities (fun _ => profilesInOrder host) deviceId := by
  have hperm : ∀ call, ((delivered call).getD []).Perm (profilesInOrder host) := fun call =>
    (nonExpiredIOSProfiles_perm (hdelivered call)).1
  cases appEnts with
  | none => rfl
  | some appEnts =>
    by_cases happ : appEnts.count = 0
    · simp [identityForAppBundle, happ]
    · by_cases hidentities : identities = []
      · simp [identityForAppBundle, hidentities]
      · by_cases hprofiles : profilesInOrder host = []
        · have hzero : ((delivered 0).getD []).length = 0 := by
            rw [(hperm 0).length_eq, hprofiles, List.length_nil]
          simp [identityForAppBundle, hzero, hprofiles]
        · rw [identityForAppBundle_eq appEnts deviceId happ hidentities hprofiles hperm,
            identityForAppBundle_eq appEnts deviceId happ hidentities hprofiles fun _ =>
              List.Perm.refl _]

/-- For the profiles of the sample, in any interleavings, it is the second identity. -/
theorem identityForAppBundle_of_interleavings_sample :
    ∃ delivered : Nat → Option (List MobileProfile),
      (∀ call, NonExpiredIOSProfiles sampleProfilesHost (delivered call)) ∧
        identityForAppBundle (some Entitlements.debugApp) sampleIdentities
          (fun call => (delivered call).getD []) "e60ef9ae" =
            some ⟨"A0B1", "iPhone Developer: A"⟩ := by
  obtain ⟨outcome, houtcome⟩ := exists_nonExpiredIOSProfiles sampleProfilesHost
  refine ⟨fun _ => outcome, fun _ => houtcome, ?_⟩
  rw [identityForAppBundle_of_interleavings sampleProfilesHost (some Entitlements.debugApp)
    sampleIdentities "e60ef9ae" (fun _ => outcome) fun _ => houtcome]
  decide +kernel

end CodesignIdentity

end IOSDeviceManager
