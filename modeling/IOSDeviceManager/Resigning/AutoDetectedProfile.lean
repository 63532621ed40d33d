import IOSDeviceManager.Resigning.Codesigner
import IOSDeviceManager.Resigning.IdentitySelection

/-! # An auto-detected profile can be signed with

`bestMatchProfileForApplication:device:` takes the identity that `identityForAppBundle:deviceId:`
selects and returns the first of the profiles ranked for it. The codesigner is then given that
profile without the identity, and searches for one of its own with `findValidIdentity`. The first
search compares SHA-1s only; the second also compares names, in a new listing of the keychain. -/

namespace IOSDeviceManager

open General Codesigner

/-! ## The valid identities -/

namespace CodesignIdentity

/-- `isIOSDeveloperIdentity`. -/
def isIOSDeveloperIdentity (identity : CodesignIdentity) : Bool :=
  NSString.containsString identity.name "iPhone Developer" ||
    NSString.containsString identity.name "Apple Development"

/-- `validIOSDeveloperIdentities`, of the identities that `validCodesigningIdentities` lists. -/
def validIOSDeveloperIdentities (validCodesigningIdentities : List CodesignIdentity) :
    List CodesignIdentity :=
  validCodesigningIdentities.filter isIOSDeveloperIdentity

/-- The inner loop leaves the best identity alone or takes the one it runs for, if a profile is
valid for that one. -/
theorem profileLoop_item (appEnts : Entitlements) (deviceId : String) (identity : CodesignIdentity)
    (profiles : List MobileProfile) (best : Best CodesignIdentity Int) :
    (profileLoop appEnts deviceId identity profiles best).item = best.item ∨
      (profileLoop appEnts deviceId identity profiles best).item = some identity := by
  induction profiles generalizing best with
  | nil => exact .inl rfl
  | cons profile profiles ih =>
    rw [profileLoop]
    split
    · simp only
      split
      · exact .inr ((ih ⟨some identity, _⟩).elim id id)
      · exact ih best
    · exact ih best

/-- The outer loop ends with the best identity it began with, or with one of the identities. -/
theorem identityLoop_item (appEnts : Entitlements) (deviceId : String)
    (nonExpiredIOSProfiles : Nat → List MobileProfile) (call : Nat)
    (identities : List CodesignIdentity) (best : Best CodesignIdentity Int) :
    (identityLoop appEnts deviceId nonExpiredIOSProfiles call identities best).item = best.item ∨
      ∃ identity ∈ identities,
        (identityLoop appEnts deviceId nonExpiredIOSProfiles call identities best).item =
          some identity := by
  induction identities generalizing call best with
  | nil => exact .inl rfl
  | cons identity identities ih =>
    rw [identityLoop]
    rcases ih (call + 1)
      (profileLoop appEnts deviceId identity (nonExpiredIOSProfiles call) best) with hsame | hlater
    · rw [hsame]
      rcases profileLoop_item appEnts deviceId identity (nonExpiredIOSProfiles call) best
        with hkept | htaken
      · exact .inl hkept
      · exact .inr ⟨identity, List.mem_cons_self, htaken⟩
    · obtain ⟨other, hother, heq⟩ := hlater
      exact .inr ⟨other, List.mem_cons_of_mem identity hother, heq⟩

/-- A selected identity is one of those it was selected from. -/
theorem mem_of_identityForAppBundle {appEnts : Option Entitlements}
    {identities : List CodesignIdentity} {nonExpiredIOSProfiles : Nat → List MobileProfile}
    {deviceId : String} {identity : CodesignIdentity}
    (h : identityForAppBundle appEnts identities nonExpiredIOSProfiles deviceId = some identity) :
    identity ∈ identities := by
  unfold identityForAppBundle at h
  split at h
  · cases h
  · rename_i ents
    split at h
    · cases h
    · split at h
      · cases h
      · split at h
        · cases h
        · rcases identityLoop_item ents deviceId nonExpiredIOSProfiles 1 identities
            ⟨none, nsIntegerMax⟩ with hnone | ⟨other, hother, hsome⟩
          · rw [hnone] at h
            cases h
          · rw [hsome] at h
            cases h
            exact hother

end CodesignIdentity

/-! ## The best match -/

open CodesignIdentity

/-- The outcomes of `bestMatchProfileForApplication:device:` for an app directory, by the listing of
the keychain and what each call of `nonExpiredIOSProfiles` delivers. The last call, after that for
the count and one for every identity, is the one that is ranked, in any interleaving. -/
inductive BestMatchProfile (validCodesigningIdentities : List CodesignIdentity)
    (nonExpiredIOSProfiles : Nat → List MobileProfile) (app : AppDir) (deviceUUID : String) :
    Except NSException (Option MobileProfile) → Prop
  /-- No identity was selected. -/
  | noIdentity
      (hidentity : identityForAppBundle (Entitlements.entitlementsWithBundlePath app)
        (validIOSDeveloperIdentities validCodesigningIdentities) nonExpiredIOSProfiles deviceUUID =
          none) :
      BestMatchProfile validCodesigningIdentities nonExpiredIOSProfiles app deviceUUID
        (.error (.cbx ("Unable to find appropriate codesign identity for device " ++ deviceUUID ++
          " / app " ++ formatString (app.infoPlist.bind InfoPlist.bundleIdentifier) ++ " combo")))
  /-- The first of the ranked profiles, `nil` when there is none. -/
  | ranked {identity : CodesignIdentity} {appEntitlements : Entitlements}
      (hidentity : identityForAppBundle (Entitlements.entitlementsWithBundlePath app)
        (validIOSDeveloperIdentities validCodesigningIdentities) nonExpiredIOSProfiles deviceUUID =
          some identity)
      (happ : Entitlements.entitlementsWithBundlePath app = some appEntitlements)
      {labels : List (RankedProfiles.Step (RankedProfiles.blocks
        (nonExpiredIOSProfiles
          ((validIOSDeveloperIdentities validCodesigningIdentities).length + 1))
        identity deviceUUID appEntitlements))}
      {s : RankedProfiles.State _}
      (hrun : run RankedProfiles.step (RankedProfiles.initial _) labels = some s)
      (hdone : s.Finished) :
      BestMatchProfile validCodesigningIdentities nonExpiredIOSProfiles app deviceUUID
        (.ok s.result.head?)

/-- The branch of `-[PhysicalDevice installApp:mobileProfile:codesignIdentity:resourcesToInject:
forceReinstall:]` that was given neither a profile nor an identity: the app directory resigned with
the best match and a `nil` identity, or `none` for the internal error when there is no match. -/
def resignWithBestMatch (env : SigningEnvironment) (app : AppDir)
    (bestMatch : Except NSException (Option MobileProfile)) :
    Except NSException (Option AppDir) := do
  match ← bestMatch with
  | none => .ok none
  | some profile => do
      let app' ← resignAppDir env app profile none
      .ok (some app')

section

variable {validCodesigningIdentities : List CodesignIdentity}
  {nonExpiredIOSProfiles : Nat → List MobileProfile} {app : AppDir} {deviceUUID : String}
  {profile : MobileProfile}

/-- **The selection invariant.** A best match was delivered, and one of its certificates has the
SHA-1 of a valid identity. -/
theorem BestMatchProfile.exists_certificate
    (hmatch : BestMatchProfile validCodesigningIdentities nonExpiredIOSProfiles app deviceUUID
      (.ok (some profile))) :
    (∃ call, profile ∈ nonExpiredIOSProfiles call) ∧
      ∃ identity ∈ validIOSDeveloperIdentities validCodesigningIdentities,
        ∃ cert ∈ profile.developerCertificates, cert.shasum = identity.shasum := by
  generalize houtcome : Except.ok (some profile) = outcome at hmatch
  cases hmatch with
  | noIdentity _ => cases houtcome
  | ranked hidentity happ hrun hdone =>
    rename_i identity appEntitlements labels s
    have hhead : s.result.head? = some profile := (Except.ok.inj houtcome).symm
    have hmem := List.mem_of_head? hhead
    -- what is ranked was delivered and accepted
    rw [(RankedProfiles.result_perm (RankedProfiles.consistent_run hrun) hdone).mem_iff,
      List.mem_filter, RankedProfiles.Blocks.accepts, Bool.and_eq_true] at hmem
    obtain ⟨hdelivered, hvalid, -⟩ := hmem
    refine ⟨⟨_, hdelivered⟩, identity, mem_of_identityForAppBundle hidentity, ?_⟩
    -- and valid for the selected identity
    simp only [RankedProfiles.blocks, MobileProfile.isValidForDeviceUDID] at hvalid
    split at hvalid
    · cases hvalid
    · obtain ⟨cert, hcert, hshasum⟩ := List.any_eq_true.mp hvalid
      exact ⟨cert, hcert, by simpa using hshasum⟩

/-- A certificate with the SHA-1 and the name of a valid identity lets the search find one. -/
theorem findValidIdentity_of_certificate {identities : List CodesignIdentity} {cert : Certificate}
    (hcert : cert ∈ profile.developerCertificates)
    (hvalid : (⟨cert.shasum, cert.commonName⟩ : CodesignIdentity) ∈ identities) :
    ∃ identity ∈ identities, profile.findValidIdentity identities = some identity ∧
      ∃ cert ∈ profile.developerCertificates, cert.shasum = identity.shasum := by
  unfold MobileProfile.findValidIdentity
  have hsome : ((profile.developerCertificates.map fun cert =>
      (⟨cert.shasum, cert.commonName⟩ : CodesignIdentity)).find? identities.contains).isSome := by
    rw [List.find?_isSome]
    exact ⟨_, List.mem_map.mpr ⟨cert, hcert, rfl⟩, List.contains_iff_mem.mpr hvalid⟩
  obtain ⟨identity, hfound⟩ := Option.isSome_iff_exists.mp hsome
  refine ⟨identity, List.contains_iff_mem.mp (List.find?_some hfound), hfound, ?_⟩
  obtain ⟨other, hother, rfl⟩ := List.mem_map.mp (List.mem_of_find?_eq_some hfound)
  exact ⟨other, hother, rfl⟩

end

/-! ## The throw of the codesigner -/

/-- What the codesigner throws for want of an identity. -/
def identityError (profileName : Option String) : NSException :=
  .cbx ("Unable to find valid codesign identity from profile " ++ formatString profileName)

/-- A sequence none of whose parts fails with `e` does not. -/
theorem bind_ne_error {ε α β : Type} {x : Except ε α} {f : α → Except ε β} {e : ε}
    (hx : x ≠ .error e) (hf : ∀ a, x = .ok a → f a ≠ .error e) : (x >>= f) ≠ .error e := by
  cases x with
  | error e' => exact fun h => hx (by simpa [bind, Except.bind] using h)
  | ok a => exact hf a rfl

/-- Texts that begin differently differ. -/
theorem append_ne_append {a b : String} (hab : ¬ a.toList <+: b.toList)
    (hba : ¬ b.toList <+: a.toList) (s t : String) : a ++ s ≠ b ++ t := by
  intro heq
  have hlist : a.toList ++ s.toList = b.toList ++ t.toList := by
    rw [← String.toList_append, ← String.toList_append, heq]
  have ha : a.toList <+: b.toList ++ t.toList := hlist ▸ List.prefix_append _ _
  rcases List.prefix_or_prefix_of_prefix ha (List.prefix_append _ _) with h | h
  · exact hab h
  · exact hba h

/-- A text that begins differently is another exception. -/
theorem cbx_append_ne_identityError {a : String}
    (hab : ¬ a.toList <+: "Unable to find valid codesign identity from profile ".toList)
    (hba : ¬ "Unable to find valid codesign identity from profile ".toList <+: a.toList)
    (s : String) (name : Option String) : NSException.cbx (a ++ s) ≠ identityError name :=
  fun h => append_ne_append hab hba s (formatString name) (NSException.cbx.inj h)

/-- Stripping the team identifier fails only for a value that is no string. -/
theorem applicationIdentifierWithoutPrefix_ne_identityError (env : SigningEnvironment)
    (e : Entitlements) (name : Option String) :
    applicationIdentifierWithoutPrefix env e ≠ .error (identityError name) := by
  unfold applicationIdentifierWithoutPrefix
  split
  · nofun
  · nofun
  · simp [identityError]

/-- So does reading the old bundle identifier. -/
theorem getOldBundleId_ne_identityError (env : SigningEnvironment) (e : Option Entitlements)
    (infoPlist : InfoPlist) (name : Option String) :
    getOldBundleId env e infoPlist ≠ .error (identityError name) := by
  unfold getOldBundleId
  split
  · split
    · exact applicationIdentifierWithoutPrefix_ne_identityError env _ name
    · nofun
  · nofun

/-- Reading app groups fails only for a value that is no array. -/
theorem appGroups_ne_identityError (e : Option Entitlements) (name : Option String) :
    appGroups e ≠ .error (identityError name) := by
  unfold appGroups
  split
  · nofun
  · nofun
  · simp [identityError]

/-- The application-group step has its own message. -/
theorem mapAppGroups_ne_identityError (profileName : Option String)
    (oldEntitlements : Option Entitlements) (newEntitlements : Entitlements)
    (name : Option String) :
    mapAppGroups profileName oldEntitlements newEntitlements ≠ .error (identityError name) := by
  unfold mapAppGroups
  refine bind_ne_error (appGroups_ne_identityError _ name) fun old _ => ?_
  refine bind_ne_error (appGroups_ne_identityError _ name) fun new _ => ?_
  split
  · nofun
  · intro h
    rw [String.append_assoc] at h
    exact cbx_append_ne_identityError (by decide) (by decide) _ name (Except.error.inj h)

/-- Once an identity is chosen, a resigning does not fail for want of one. -/
theorem resignAppDir_ne_identityError {env : SigningEnvironment} {profile : MobileProfile}
    {codesignIdentity : Option CodesignIdentity} {identity : CodesignIdentity}
    (hidentity : chooseIdentity env profile codesignIdentity = .ok identity) (app : AppDir)
    (name : Option String) :
    resignAppDir env app profile codesignIdentity ≠ .error (identityError name) := by
  unfold resignAppDir
  -- step by step: what another step throws has another text
  refine bind_ne_error ?_ fun prefix0 _ => ?_
  · unfold appIDPrefix
    split <;> simp [identityError]
  refine bind_ne_error (by rw [hidentity]; nofun) fun _ _ => ?_
  refine bind_ne_error (applicationIdentifierWithoutPrefix_ne_identityError env _ name)
    fun mobileProfileAppID _ => ?_
  refine bind_ne_error ?_ fun infoPlist _ => ?_
  · unfold readInfoPlist
    split
    · nofun
    · exact fun h =>
        cbx_append_ne_identityError (by decide) (by decide) _ name (Except.error.inj h)
  refine bind_ne_error (getOldBundleId_ne_identityError env _ infoPlist name) fun bundleID _ => ?_
  refine bind_ne_error (mapAppGroups_ne_identityError _ _ _ name) fun entitlementsMap _ => ?_
  refine bind_ne_error ?_ fun _ _ => ?_
  · unfold cbxThrowExceptionIf
    split
    · nofun
    · exact fun h => cbx_append_ne_identityError (a := "Bundle identifier is nil! Plist: ")
        (by decide) (by decide) "" name (by simpa using Except.error.inj h)
  refine bind_ne_error ?_ fun bundleExec _ => ?_
  · unfold bundleExecutable
    split <;> simp [identityError]
  refine bind_ne_error ?_ fun _ _ => ?_
  · unfold cbxThrowExceptionIf
    split
    · nofun
    · intro h
      rw [String.append_assoc, String.append_assoc, String.append_assoc] at h
      exact cbx_append_ne_identityError (by decide) (by decide) _ name (Except.error.inj h)
  refine bind_ne_error ?_ fun signature _ => by nofun
  unfold writeEntitlements
  split
  · nofun
  · exact fun h =>
      cbx_append_ne_identityError (by decide) (by decide) _ name (Except.error.inj h)

/-- **An auto-detected profile can be signed with.** When `bestMatchProfileForApplication:device:`
returns a profile, and certificates and identities with equal SHA-1s have equal names, then
`findValidIdentity`, over a new listing of the same identities, returns a valid identity with the
SHA-1 of one of the profile's developer certificates. The codesigner takes that one when it is given
none, and does not throw for want of an identity. -/
theorem bestMatch_canSign {validCodesigningIdentities fresh : List CodesignIdentity}
    {nonExpiredIOSProfiles : Nat → List MobileProfile} {app : AppDir} {deviceUUID : String}
    {profile : MobileProfile} {env : SigningEnvironment}
    (hfresh : ∀ identity, identity ∈ fresh ↔ identity ∈ validCodesigningIdentities)
    (henv : env.validIOSDeveloperIdentities = validIOSDeveloperIdentities fresh)
    (hnames : ∀ call, ∀ profile ∈ nonExpiredIOSProfiles call,
      ∀ cert ∈ profile.developerCertificates, ∀ identity ∈ validCodesigningIdentities,
        cert.shasum = identity.shasum → cert.commonName = identity.name)
    (hmatch : BestMatchProfile validCodesigningIdentities nonExpiredIOSProfiles app deviceUUID
      (.ok (some profile))) :
    ∃ identity ∈ validIOSDeveloperIdentities fresh,
      profile.findValidIdentity (validIOSDeveloperIdentities fresh) = some identity ∧
      (∃ cert ∈ profile.developerCertificates, cert.shasum = identity.shasum) ∧
      chooseIdentity env profile none = .ok identity ∧
      resignWithBestMatch env app (.ok (some profile)) ≠ .error (identityError profile.name) := by
  obtain ⟨⟨call, hcall⟩, identity, hidentity, cert, hcert, hshasum⟩ := hmatch.exists_certificate
  obtain ⟨hlisted, hdeveloper⟩ := List.mem_filter.mp hidentity
  have hname := hnames call profile hcall cert hcert identity hlisted hshasum
  -- the certificate spells the selected identity, which is in the new listing too
  have hvalid : (⟨cert.shasum, cert.commonName⟩ : CodesignIdentity) ∈
      validIOSDeveloperIdentities fresh := by
    rw [hshasum, hname]
    exact List.mem_filter.mpr ⟨(hfresh identity).mpr hlisted, hdeveloper⟩
  obtain ⟨found, hmem, hfound, hfoundCert⟩ := findValidIdentity_of_certificate hcert hvalid
  have hchoose : chooseIdentity env profile none = .ok found := by
    simp [chooseIdentity, henv, hfound]
  refine ⟨found, hmem, hfound, hfoundCert, hchoose, ?_⟩
  unfold resignWithBestMatch
  refine bind_ne_error (by nofun) fun matched hmatched => ?_
  obtain rfl := Except.ok.inj hmatched
  exact bind_ne_error (resignAppDir_ne_identityError hchoose app profile.name) fun _ _ => by nofun

/-! ### An app with an exact profile -/

/-- The entitlements of an app that may be debugged. -/
def debugEntries : List (String × EntitlementValue) :=
  [("application-identifier", .string "ABCDE12345.com.my.app"), ("get-task-allow", .number 1)]

theorem nodup_debugEntries : (debugEntries.map Prod.fst).Nodup := by
  decide

/-- An app directory with an application identifier and a debugging entitlement. -/
def debugAppDir : AppDir where
  baseDir := "/tmp/Payload"
  name := "My.app"
  infoPlist := some ⟨some "com.my.app", some "My"⟩
  bundleExecutableExists := true
  signature := ⟨debugEntries, nodup_debugEntries⟩
  entitlementsMeta := none

/-- A keychain with one identity for development and one for distribution. -/
def sampleKeychain : List CodesignIdentity :=
  [⟨"E4F5", "iPhone Distribution: A"⟩, ⟨"A0B1", "iPhone Developer: A"⟩]

/-- The exact profile among the sample profiles. -/
def exactProfile : MobileProfile :=
  RankedProfiles.sampleBlocks.profile RankedProfiles.exactWorker

/-- The exact profile is the best match. -/
theorem bestMatch_exactProfile :
    BestMatchProfile sampleKeychain (fun _ => RankedProfiles.sampleProfiles) debugAppDir "e60ef9ae"
      (.ok (some exactProfile)) := by
  obtain ⟨s, hrun⟩ := Option.isSome_iff_exists.mp
    (show (run RankedProfiles.step (RankedProfiles.initial RankedProfiles.sampleBlocks)
      RankedProfiles.serialSteps).isSome by decide +kernel)
  have hfinal : ∀ t ∈ run RankedProfiles.step (RankedProfiles.initial RankedProfiles.sampleBlocks)
      RankedProfiles.serialSteps, (∀ w, t.phase w = .finished) ∧
        t.satisfyingProfiles.head? = some RankedProfiles.exactWorker := by decide +kernel
  obtain ⟨hdone, hhead⟩ := hfinal s hrun
  have hresult : s.result.head? = some exactProfile := by
    rw [RankedProfiles.State.result, List.head?_map, hhead]
    rfl
  rw [← hresult]
  exact .ranked (by decide +kernel) rfl hrun hdone

/-- It is signed with the identity of its certificate, in a keychain listed the other way round. -/
theorem bestMatch_canSign_exactProfile :
    ∃ identity ∈ validIOSDeveloperIdentities sampleKeychain.reverse,
      exactProfile.findValidIdentity (validIOSDeveloperIdentities sampleKeychain.reverse) =
        some identity ∧
      (∃ cert ∈ exactProfile.developerCertificates, cert.shasum = identity.shasum) ∧
      chooseIdentity developerEnvironment exactProfile none = .ok identity ∧
      resignWithBestMatch developerEnvironment debugAppDir (.ok (some exactProfile)) ≠
        .error (identityError exactProfile.name) := by
  refine bestMatch_canSign (fun _ => List.mem_reverse) (by decide +kernel) ?_
    bestMatch_exactProfile
  intro _ profile hprofile cert hcert identity hidentity hshasum
  have hall : ∀ profile ∈ RankedProfiles.sampleProfiles,
      ∀ cert ∈ profile.developerCertificates, ∀ identity ∈ sampleKeychain,
        cert.shasum = identity.shasum → cert.commonName = identity.name := by
    intro profile hprofile
    simp only [RankedProfiles.sampleProfiles, List.mem_cons, List.not_mem_nil, or_false] at hprofile
    rcases hprofile with rfl | rfl <;> decide
  exact hall profile hprofile cert hcert identity hidentity hshasum

end IOSDeviceManager
