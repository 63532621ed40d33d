import IOSDeviceManager.Resigning.MobileProfile

/-! # `Codesigner`: resigning one app directory

`resignAppDir:baseDir:provisioningProfile:codesignIdentity:resourcesToInject:` as far as the app's
own signature goes: the new application identifier, the assignment of the app groups and the
entitlements that are signed into the app. The order in which the objects and bundles inside are
signed is the subject of another module. -/

namespace IOSDeviceManager

/-- The exceptions that end a resigning. -/
inductive NSException where
  /-- A `CBXException`, thrown by `CBXThrowExceptionIf`. -/
  | cbx (reason : String)
  /-- `NSRangeException`. -/
  | range
  /-- `NSInvalidArgumentException`, such as for a selector the receiver does not recognize. -/
  | invalidArgument
  /-- `NotImplementedException`. -/
  | notImplemented (reason : String)
  /-- An exception raised under any other name. -/
  | named (name reason : String)
  deriving DecidableEq, Repr

/-- What the code signing asks of its surroundings: the identities in the keychain and the text
`%@` gives for a property list value. -/
structure SigningEnvironment where
  validIOSDeveloperIdentities : List CodesignIdentity
  description : EntitlementValue → String
  /-- A string prints as itself. -/
  description_string : ∀ s, description (.string s) = s

/-- The keys of an `Info.plist` that the code signing reads. -/
structure InfoPlist where
  /-- `CFBundleIdentifier`. -/
  bundleIdentifier : Option String
  /-- `CFBundleExecutable`. -/
  bundleExecutable : Option String
  deriving DecidableEq

/-- The contents of `XTCEntitlementsMeta.plist`. -/
structure EntitlementsMeta where
  /-- `AppGroupIDs`. -/
  appGroupIDs : NSDictionary String
  /-- `AllAppGroupIDs`. -/
  allAppGroupIDs : List String

/-- An app directory. -/
structure AppDir where
  /-- The directory it lies in. -/
  baseDir : String
  /-- Its last path component, such as `My.app`. -/
  name : String
  /-- `Info.plist`, if the file exists. -/
  infoPlist : Option InfoPlist
  /-- The file that `CFBundleExecutable` names exists. -/
  bundleExecutableExists : Bool
  /-- The entitlements in the signature, empty when there are none. -/
  signature : NSDictionary EntitlementValue
  entitlementsMeta : Option EntitlementsMeta

/-- `ApplicationType`. -/
inductive ApplicationType where
  | unknown
  | none
  | physicalDevice
  | simulator
  deriving DecidableEq, Repr

/-- The path of an app directory. -/
def AppDir.path (app : AppDir) : String :=
  app.baseDir ++ "/" ++ app.name

/-- The file for the new entitlements: the name of the app directory minus the `.app` extension,
plus `.xcent`. -/
def xcentFilename (appDirName : String) : String :=
  String.ofList (appDirName.toList.take (appDirName.toList.length - 4)) ++ ".xcent"

/-- The path of the file for the new entitlements. -/
def AppDir.entitlementsFile (app : AppDir) : String :=
  app.path ++ "/" ++ xcentFilename app.name

/-- `entitlementsWithBundlePath:`: `nil` when the signature has no entitlements. -/
def Entitlements.entitlementsWithBundlePath (app : AppDir) : Option Entitlements :=
  if app.signature.count = 0 then none else some ⟨some app.signature⟩

namespace Codesigner

/-- `%@` of an optional string: `nil` prints as `(null)`. -/
def formatString (s : Option String) : String :=
  s.getD "(null)"

/-- The key of the application identifier. -/
def applicationIdentifierKey : String := "application-identifier"

/-- The key of the team identifier. -/
def teamIdentifierKey : String := "com.apple.developer.team-identifier"

/-- `appGroupKey`. -/
def appGroupKey : String := "com.apple.security.application-groups"

section

variable (env : SigningEnvironment)

/-- `applicationIdentifierWithoutPrefix`: `ABCDEF12345.com.my.app => com.my.app`. Only a string
understands `replace:with:`. -/
def applicationIdentifierWithoutPrefix (e : Entitlements) : Except NSException (Option String) :=
  match e.objectForKey applicationIdentifierKey with
  | none => .ok none
  | some (.string appID) =>
      let teamID := (e.objectForKey teamIdentifierKey).elim "(null)" env.description
      .ok (some (NSString.replace appID (teamID ++ ".") ""))
  | some _ => .error .invalidArgument

/-- `isWildcardAppId:`. -/
def isWildcardAppId (appID : Option String) : Bool :=
  appID == some "*"

/-- `getOldBundleId:infoPlist:`. -/
def getOldBundleId (oldEntitlements : Option Entitlements) (infoPlist : InfoPlist) :
    Except NSException (Option String) :=
  match oldEntitlements with
  | some e =>
      if (e.objectForKey applicationIdentifierKey).isSome ∧
          (e.objectForKey teamIdentifierKey).isSome then
        applicationIdentifierWithoutPrefix env e
      else .ok infoPlist.bundleIdentifier
  | none => .ok infoPlist.bundleIdentifier

/-- The app groups of entitlements, none when the key is absent. Only an array has the count that is
asked of the value. -/
def appGroups (e : Option Entitlements) : Except NSException (List String) :=
  match e.bind fun e => e.objectForKey appGroupKey with
  | none => .ok []
  | some (.array groups) => .ok groups
  | some _ => .error .invalidArgument

/-- The application-group step: trim to equal length, or throw; then map by position. -/
def mapAppGroups (profileName : Option String) (oldEntitlements : Option Entitlements)
    (newEntitlements : Entitlements) : Except NSException EntitlementsMeta := do
  let appGroupIDs ← appGroups oldEntitlements
  let ourAppGroups ← appGroups (some newEntitlements)
  if appGroupIDs.length ≤ ourAppGroups.length then
    let ourAppGroups := ourAppGroups.take appGroupIDs.length
    .ok { appGroupIDs := NSDictionary.dictionaryWithObjects ourAppGroups appGroupIDs
          allAppGroupIDs := ourAppGroups }
  else
    .error (.cbx ("Application has more app groups then " ++ formatString profileName ++
      " supports"))

/-- `prefixes[0]`: `nil` without the key, an exception for an empty array. -/
def appIDPrefix (profile : MobileProfile) : Except NSException (Option String) :=
  match profile.applicationIdentifierPrefix with
  | none => .ok none
  | some [] => .error .range
  | some (first :: _) => .ok (some first)

/-- The given identity, or else a valid one of the profile. -/
def chooseIdentity (profile : MobileProfile) (codesignIdentity : Option CodesignIdentity) :
    Except NSException CodesignIdentity :=
  match codesignIdentity <|> profile.findValidIdentity env.validIOSDeveloperIdentities with
  | some identity => .ok identity
  | none => .error (.cbx ("Unable to find valid codesign identity from profile " ++
      formatString profile.name))

/-- `CBXThrowExceptionIf`, which throws unless the condition holds. -/
def cbxThrowExceptionIf (condition : Bool) (reason : String) : Except NSException Unit :=
  if condition then .ok () else .error (.cbx reason)

/-- The `Info.plist` of an app directory. -/
def readInfoPlist (app : AppDir) : Except NSException InfoPlist :=
  match app.infoPlist with
  | some infoPlist => .ok infoPlist
  | none => .error (.cbx ("No Info.plist found for bundle: " ++ app.path))

/-- The path component of the executable; `joinPath:` takes no `nil`. -/
def bundleExecutable (infoPlist : InfoPlist) : Except NSException String :=
  match infoPlist.bundleExecutable with
  | some bundleExec => .ok bundleExec
  | none => .error .invalidArgument

/-- The application identifier to sign with: for a wildcard profile its prefix with the old bundle
identifier, else the identifier of the profile. -/
def finalAppIdentifier (mobileProfileAppID appIDPrefix oldBundleID : Option String)
    (newEntitlements : Entitlements) : Option String :=
  if isWildcardAppId mobileProfileAppID then
    some (formatString appIDPrefix ++ "." ++ formatString oldBundleID)
  else
    match newEntitlements.objectForKey applicationIdentifierKey with
    | some (.string appID) => some appID
    | _ => none

/-- `writeToFile:` of entitlements: there has to be a dictionary. -/
def writeEntitlements (app : AppDir) (e : Entitlements) :
    Except NSException (NSDictionary EntitlementValue) :=
  match e.dictionary with
  | some dictionary => .ok dictionary
  | none => .error (.cbx ("Unable to write app entitlements to " ++ app.entitlementsFile))

/-- `resignAppDir:baseDir:provisioningProfile:codesignIdentity:resourcesToInject:` with all file
operations and the signing succeeding: the app directory with its new signature and map of app
groups, or the exception. -/
def resignAppDir (app : AppDir) (profile : MobileProfile)
    (codesignIdentity : Option CodesignIdentity) : Except NSException AppDir := do
  let prefix0 ← appIDPrefix profile
  let _ ← chooseIdentity env profile codesignIdentity
  let oldEntitlements := Entitlements.entitlementsWithBundlePath app
  let mobileProfileAppID ← applicationIdentifierWithoutPrefix env profile.entitlements
  let infoPlist ← readInfoPlist app
  let oldBundleID ← getOldBundleId env oldEntitlements infoPlist
  let finalID := finalAppIdentifier mobileProfileAppID prefix0 oldBundleID profile.entitlements
  let entitlementsMap ← mapAppGroups profile.name oldEntitlements profile.entitlements
  -- the message goes on with the whole plist
  cbxThrowExceptionIf infoPlist.bundleIdentifier.isSome "Bundle identifier is nil! Plist: "
  let bundleExec ← bundleExecutable infoPlist
  cbxThrowExceptionIf app.bundleExecutableExists
    ("Bundle executable " ++ app.path ++ "/" ++ bundleExec ++ " does not exist!")
  let signature ← writeEntitlements app
    (profile.entitlements.entitlementsByReplacingApplicationIdentifier finalID)
  .ok { app with signature := signature, entitlementsMeta := some entitlementsMap }

end

/-! ## What a successful resigning does -/

/-- A sequence succeeds exactly when both of its parts do. -/
theorem bind_eq_ok_iff {ε α β : Type} {x : Except ε α} {f : α → Except ε β} {b : β} :
    (x >>= f) = .ok b ↔ ∃ a, x = .ok a ∧ f a = .ok b := by
  cases x <;> simp [bind, Except.bind]

@[simp] theorem cbxThrowExceptionIf_eq_ok_iff {condition : Bool} {reason : String} {u : Unit} :
    cbxThrowExceptionIf condition reason = .ok u ↔ condition = true := by
  cases condition <;> simp [cbxThrowExceptionIf]

/-! ### Reading the old entitlements -/

/-- Looking a key up in the entitlements read from an app directory. -/
theorem objectForKey_entitlementsWithBundlePath (app : AppDir) (key : String) :
    ((Entitlements.entitlementsWithBundlePath app).bind fun e => e.objectForKey key) =
      app.signature.objectForKey key := by
  unfold Entitlements.entitlementsWithBundlePath
  split
  · rename_i hcount
    have hnil : app.signature.entries = [] := List.length_eq_zero_iff.mp hcount
    simp [NSDictionary.objectForKey, hnil]
  · rfl

/-- App groups are read from an array, or there is no such key and no group. -/
theorem appGroups_eq_ok_iff {e : Option Entitlements} {groups : List String} :
    appGroups e = .ok groups ↔
      (e.bind fun e => e.objectForKey appGroupKey) = some (.array groups) ∨
        (e.bind fun e => e.objectForKey appGroupKey) = none ∧ groups = [] := by
  unfold appGroups
  generalize (e.bind fun e => e.objectForKey appGroupKey) = found
  rcases found with _ | value
  · simp [eq_comm]
  · cases value <;> simp [eq_comm]

/-- The old bundle identifier can be read where the signed application identifier is a string. -/
theorem exists_getOldBundleId (env : SigningEnvironment) (app : AppDir) (infoPlist : InfoPlist)
    (h : ∀ value, app.signature.objectForKey applicationIdentifierKey = some value →
      ∃ s, value = .string s) :
    ∃ bundleID, getOldBundleId env (Entitlements.entitlementsWithBundlePath app) infoPlist =
      .ok bundleID := by
  have hkey := objectForKey_entitlementsWithBundlePath app applicationIdentifierKey
  unfold getOldBundleId
  split
  · rename_i e he
    rw [he, Option.bind_some] at hkey
    split
    · unfold applicationIdentifierWithoutPrefix
      cases hvalue : e.objectForKey applicationIdentifierKey with
      | none => exact ⟨none, rfl⟩
      | some value =>
        obtain ⟨s, rfl⟩ := h value (hkey.symm.trans hvalue)
        exact ⟨_, rfl⟩
    · exact ⟨_, rfl⟩
  · exact ⟨_, rfl⟩

/-! ### The parts of a resigning -/

/-- The app groups fit those of the profile, and each is assigned the profile's group at the
position where it first occurs. -/
theorem mapAppGroups_eq_ok_iff {profileName : Option String} {oldEntitlements : Option Entitlements}
    {newEntitlements : Entitlements} {entitlementsMap : EntitlementsMeta} :
    mapAppGroups profileName oldEntitlements newEntitlements = .ok entitlementsMap ↔
      ∃ old new, appGroups oldEntitlements = .ok old ∧ appGroups (some newEntitlements) = .ok new ∧
        old.length ≤ new.length ∧
        entitlementsMap = ⟨NSDictionary.dictionaryWithObjects (new.take old.length) old,
          new.take old.length⟩ := by
  unfold mapAppGroups
  simp only [bind_eq_ok_iff]
  refine exists_congr fun old => ?_
  simp only [← exists_and_left]
  refine exists_congr fun new => ?_
  by_cases hle : old.length ≤ new.length <;> simp [hle, eq_comm]

/-- What a profile needs to resign an app directory, whatever the signature of that is. -/
structure Usable (env : SigningEnvironment) (app : AppDir) (profile : MobileProfile) : Prop where
  appIDPrefix : profile.applicationIdentifierPrefix ≠ some []
  identity : (profile.findValidIdentity env.validIOSDeveloperIdentities).isSome
  appID : ∀ value, profile.entitlements.objectForKey applicationIdentifierKey = some value →
    ∃ s, value = .string s
  dictionary : profile.entitlements.dictionary.isSome
  infoPlist : ∃ infoPlist, app.infoPlist = some infoPlist ∧
    infoPlist.bundleIdentifier.isSome ∧ infoPlist.bundleExecutable.isSome
  executable : app.bundleExecutableExists = true

/-- `mobileProfileAppID`, where the profile's identifier is a string. -/
def mobileProfileAppID (env : SigningEnvironment) (profile : MobileProfile) : Option String :=
  (applicationIdentifierWithoutPrefix env profile.entitlements).toOption.join

/-- The old bundle identifier of an app directory. -/
def oldBundleID (env : SigningEnvironment) (app : AppDir) : Except NSException (Option String) := do
  let infoPlist ← readInfoPlist app
  getOldBundleId env (Entitlements.entitlementsWithBundlePath app) infoPlist

/-- `finalEntitlements`, for an old bundle identifier. -/
def finalEntitlements (env : SigningEnvironment) (profile : MobileProfile)
    (oldBundleID : Option String) : Entitlements :=
  profile.entitlements.entitlementsByReplacingApplicationIdentifier
    (finalAppIdentifier (mobileProfileAppID env profile)
      (profile.applicationIdentifierPrefix.bind List.head?) oldBundleID profile.entitlements)

theorem appIDPrefix_eq_ok_iff {profile : MobileProfile} {prefix0 : Option String} :
    appIDPrefix profile = .ok prefix0 ↔ profile.applicationIdentifierPrefix ≠ some [] ∧
      prefix0 = profile.applicationIdentifierPrefix.bind List.head? := by
  unfold appIDPrefix
  rcases profile.applicationIdentifierPrefix with _ | _ | ⟨first, rest⟩ <;> simp [eq_comm]

theorem exists_chooseIdentity_iff (env : SigningEnvironment) (profile : MobileProfile) :
    (∃ identity, chooseIdentity env profile none = .ok identity) ↔
      (profile.findValidIdentity env.validIOSDeveloperIdentities).isSome := by
  unfold chooseIdentity
  cases h : profile.findValidIdentity env.validIOSDeveloperIdentities <;> simp

/-- The identifier without its prefix can be taken of a string, or of nothing. -/
theorem applicationIdentifierWithoutPrefix_eq_ok_iff (env : SigningEnvironment)
    (profile : MobileProfile) {appID : Option String} :
    applicationIdentifierWithoutPrefix env profile.entitlements = .ok appID ↔
      (∀ value, profile.entitlements.objectForKey applicationIdentifierKey = some value →
        ∃ s, value = .string s) ∧ appID = mobileProfileAppID env profile := by
  unfold mobileProfileAppID applicationIdentifierWithoutPrefix
  rcases profile.entitlements.objectForKey applicationIdentifierKey with _ | value
  · simp [Except.toOption, eq_comm]
  · cases value <;> simp [Except.toOption, eq_comm]

theorem readInfoPlist_eq_ok_iff {app : AppDir} {infoPlist : InfoPlist} :
    readInfoPlist app = .ok infoPlist ↔ app.infoPlist = some infoPlist := by
  unfold readInfoPlist
  cases app.infoPlist <;> simp

theorem exists_bundleExecutable_iff (infoPlist : InfoPlist) :
    (∃ bundleExec, bundleExecutable infoPlist = .ok bundleExec) ↔
      infoPlist.bundleExecutable.isSome := by
  unfold bundleExecutable
  cases infoPlist.bundleExecutable <;> simp

theorem bundleExecutable_eq_ok_iff {infoPlist : InfoPlist} {bundleExec : String} :
    bundleExecutable infoPlist = .ok bundleExec ↔ infoPlist.bundleExecutable = some bundleExec := by
  unfold bundleExecutable
  cases infoPlist.bundleExecutable <;> simp

theorem writeEntitlements_eq_ok_iff {app : AppDir} {e : Entitlements}
    {signature : NSDictionary EntitlementValue} :
    writeEntitlements app e = .ok signature ↔ e.dictionary = some signature := by
  unfold writeEntitlements
  cases e.dictionary <;> simp

/-- **What a resigning does.** It succeeds exactly when the profile is usable for the app directory,
the old bundle identifier can be read and the app groups can be mapped; then the final entitlements
are the new signature. -/
theorem resignAppDir_eq_ok_iff {env : SigningEnvironment} {app app' : AppDir}
    {profile : MobileProfile} :
    resignAppDir env app profile none = .ok app' ↔ Usable env app profile ∧
      ∃ bundleID entitlementsMap signature, oldBundleID env app = .ok bundleID ∧
        mapAppGroups profile.name (Entitlements.entitlementsWithBundlePath app)
          profile.entitlements = .ok entitlementsMap ∧
        (finalEntitlements env profile bundleID).dictionary = some signature ∧
        app' = { app with signature := signature, entitlementsMeta := some entitlementsMap } := by
  unfold resignAppDir oldBundleID
  simp only [bind_eq_ok_iff, appIDPrefix_eq_ok_iff, applicationIdentifierWithoutPrefix_eq_ok_iff,
    readInfoPlist_eq_ok_iff, writeEntitlements_eq_ok_iff, cbxThrowExceptionIf_eq_ok_iff]
  constructor
  · rintro ⟨_, ⟨hpre, rfl⟩, identity, hidentity, _, ⟨happID, rfl⟩, infoPlist, hinfo, bundleID,
      hbundle, entitlementsMap, hmap, -, hbundleID, bundleExec, hexec, -, hexists, signature,
      hsignature, happ⟩
    refine ⟨⟨hpre, (exists_chooseIdentity_iff env profile).mp ⟨identity, hidentity⟩, happID, ?_,
      ⟨infoPlist, hinfo, hbundleID, (exists_bundleExecutable_iff infoPlist).mp ⟨bundleExec, hexec⟩⟩,
      hexists⟩, bundleID, entitlementsMap, signature, ⟨infoPlist, hinfo, hbundle⟩, hmap, hsignature,
      (Except.ok.inj happ).symm⟩
    rw [← Entitlements.isSome_dictionary_replacing, hsignature]
    rfl
  · rintro ⟨husable, bundleID, entitlementsMap, signature, ⟨infoPlist, hinfo, hbundle⟩, hmap,
      hsignature, rfl⟩
    obtain ⟨identity, hidentity⟩ := (exists_chooseIdentity_iff env profile).mpr husable.identity
    obtain ⟨infoPlist', hinfo', hbundleID, hexec⟩ := husable.infoPlist
    obtain rfl : infoPlist' = infoPlist := by simpa [hinfo] using hinfo'.symm
    obtain ⟨bundleExec, hbundleExec⟩ := (exists_bundleExecutable_iff infoPlist').mpr hexec
    exact ⟨_, ⟨husable.appIDPrefix, rfl⟩, identity, hidentity, _, ⟨husable.appID, rfl⟩, infoPlist',
      hinfo, bundleID, hbundle, entitlementsMap, hmap, (), hbundleID, bundleExec, hbundleExec, (),
      husable.executable, signature, hsignature, rfl⟩

/-- Whatever the identity, what a successful resigning signs into the app are the final
entitlements. -/
theorem signature_of_resignAppDir_eq_ok {env : SigningEnvironment} {app app' : AppDir}
    {profile : MobileProfile} {codesignIdentity : Option CodesignIdentity}
    (h : resignAppDir env app profile codesignIdentity = .ok app') :
    ∃ bundleID, oldBundleID env app = .ok bundleID ∧
      (finalEntitlements env profile bundleID).dictionary = some app'.signature := by
  unfold resignAppDir at h
  simp only [bind_eq_ok_iff, appIDPrefix_eq_ok_iff, applicationIdentifierWithoutPrefix_eq_ok_iff,
    readInfoPlist_eq_ok_iff, writeEntitlements_eq_ok_iff] at h
  obtain ⟨_, ⟨-, rfl⟩, _, -, _, ⟨-, rfl⟩, infoPlist, hinfo, bundleID, hbundle, _, -, _, -, _, -, _,
    -, signature, hsignature, happ⟩ := h
  obtain rfl := Except.ok.inj happ
  refine ⟨bundleID, ?_, hsignature⟩
  unfold oldBundleID
  exact bind_eq_ok_iff.mpr ⟨infoPlist, readInfoPlist_eq_ok_iff.mpr hinfo, hbundle⟩

/-! ### A development set-up -/

/-- Surroundings in which the certificate of the development profiles is valid. -/
def developerEnvironment : SigningEnvironment where
  validIOSDeveloperIdentities := [⟨"A0B1", "iPhone Developer: A"⟩]
  description
    | .string s => s
    | _ => ""
  description_string _ := rfl

/-- An app directory signed by another team. -/
def otherTeamApp : AppDir where
  baseDir := "/tmp/Payload"
  name := "My.app"
  infoPlist := some ⟨some "com.my.app", some "My"⟩
  bundleExecutableExists := true
  signature := ⟨[("application-identifier", .string "OLDTEAM123.com.my.app"),
    ("com.apple.developer.team-identifier", .string "OLDTEAM123")], by decide⟩
  entitlementsMeta := none

/-- A profile with the given application identifier. -/
def profileWithAppID (appID : String) : MobileProfile :=
  .development ⟨some ⟨[("application-identifier", .string appID),
    ("com.apple.developer.team-identifier", .string "ABCDE12345")], by simp⟩⟩ (by
      simp only [Entitlements.weight, Entitlements.entries, Option.elim, List.map_cons,
        List.map_nil, EntitlementValue.weight, List.sum_cons, List.sum_nil]
      omega)

end Codesigner

end IOSDeviceManager
