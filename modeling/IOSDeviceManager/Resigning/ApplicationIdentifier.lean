import IOSDeviceManager.Foundation.NSStringReplace
import IOSDeviceManager.Resigning.Codesigner

/-! # The application identifier of a resigned app

A profile allows a pattern of bundle identifiers under its prefix, and the resigned app must get a
concrete identifier that the pattern allows. The code tells wildcards by stripping the team
identifier (not the prefix) from the profile's identifier and comparing with `*`, and finds the old
bundle identifier by stripping the old team identifier wherever it occurs. Here is when this gives
the identifier that is required. -/

namespace IOSDeviceManager

open Codesigner

/-! ## What a profile allows -/

/-- An identifier, or a part of one, that has no wildcard. -/
structure ConcreteID where
  text : String
  noWildcard : '*' ∉ text.toList

/-- The patterns of bundle identifiers in the application identifier of a profile. -/
inductive AppIDPattern where
  /-- One bundle identifier. -/
  | explicit (bundleID : ConcreteID)
  /-- `*`. -/
  | any
  /-- An identifier prefix followed by `.*`. -/
  | within (stem : ConcreteID)

namespace AppIDPattern

/-- The pattern as it is written in the profile. -/
def text : AppIDPattern → String
  | explicit bundleID => bundleID.text
  | any => "*"
  | within stem => stem.text ++ ".*"

/-- The pattern is not one bundle identifier. -/
def IsWildcard : AppIDPattern → Prop
  | explicit _ => False
  | any => True
  | within _ => True

instance : DecidablePred IsWildcard
  | explicit _ => instDecidableFalse
  | any => instDecidableTrue
  | within _ => instDecidableTrue

/-- The bundle identifiers the pattern allows. -/
def Matches (b : ConcreteID) : AppIDPattern → Prop
  | explicit bundleID => b = bundleID
  | any => True
  | within stem => (stem.text ++ ".").toList <+: b.text.toList

/-- The identifier that an app with bundle identifier `b` is to be signed with. -/
def requiredID (pattern : AppIDPattern) (appIDPrefix b : ConcreteID) : String :=
  appIDPrefix.text ++ "." ++ if pattern.IsWildcard then b.text else pattern.text

/-- A required identifier has no wildcard. -/
theorem notMem_requiredID (pattern : AppIDPattern) (appIDPrefix b : ConcreteID) :
    '*' ∉ (pattern.requiredID appIDPrefix b).toList := by
  have hpre := appIDPrefix.noWildcard
  unfold requiredID
  cases pattern with
  | explicit bundleID => simp [IsWildcard, text, hpre, bundleID.noWildcard, String.toList_append]
  | any => simp [IsWildcard, hpre, b.noWildcard, String.toList_append]
  | within stem => simp [IsWildcard, hpre, b.noWildcard, String.toList_append]

end AppIDPattern

/-! ## The hypotheses and the condition -/

/-- The old bundle identifier of an app is `b`: behind the old team identifier `Q` in the signature,
or in the `Info.plist` when the signature names no team. -/
def HasOldBundleID (app : AppDir) (b : String) : Option String → Prop
  | some Q => app.signature.objectForKey applicationIdentifierKey = some (.string (Q ++ "." ++ b)) ∧
      app.signature.objectForKey teamIdentifierKey = some (.string Q)
  | none => app.signature.objectForKey teamIdentifierKey = none ∧
      app.infoPlist.bind InfoPlist.bundleIdentifier = some b

/-- A signature is the profile's entitlements with the application identifier replaced. -/
structure SignedWith (profile : MobileProfile) (signature : NSDictionary EntitlementValue)
    (appID : String) : Prop where
  /-- The new identifier. -/
  identifier : signature.objectForKey applicationIdentifierKey = some (.string appID)
  /-- Every other key is the profile's. -/
  others : ∀ key ≠ applicationIdentifierKey,
    signature.objectForKey key = profile.entitlements.objectForKey key
  /-- The new identifier names one app. -/
  concrete : '*' ∉ appID.toList

/-- The identifier `appID` of a profile is `*` behind nothing but copies of the team identifier. -/
def IsTeamWildcard (teamID appID : String) : Prop :=
  ∃ k, appID.toList = (List.replicate k (teamID ++ ".").toList).flatten ++ ['*']

/-- The old team identifier does not occur inside the bundle identifier, if one was stripped. -/
def ReadsBack (b : String) (oldTeamID : Option String) : Prop :=
  ∀ Q, oldTeamID = some Q → ¬ (Q ++ ".").toList <:+: b.toList

/-! ## Stripping a team identifier -/

/-- A team identifier is stripped off the front, and out of the rest. -/
theorem replace_append_self (teamID s : String) :
    NSString.replace (teamID ++ "." ++ s) (teamID ++ ".") "" =
      NSString.replace s (teamID ++ ".") "" := by
  have htarget : (teamID ++ ".").toList ≠ [] := by simp [String.toList_append]
  have hsplit : (teamID ++ "." ++ s).toList = (teamID ++ ".").toList ++ s.toList :=
    String.toList_append
  unfold NSString.replace
  rw [hsplit, NSString.replaceFrom_append_self htarget]
  rfl

/-- What is read back is the bundle identifier exactly when the team identifier is not in it. -/
theorem replace_eq_self_iff (teamID s : String) :
    NSString.replace s (teamID ++ ".") "" = s ↔ ¬ (teamID ++ ".").toList <:+: s.toList := by
  have htarget : (teamID ++ ".").toList ≠ [] := by simp [String.toList_append]
  rw [← NSString.replaceFrom_nil_eq_self_iff htarget, ← String.toList_inj]
  unfold NSString.replace
  rw [String.toList_ofList]
  rfl

/-- An identifier that ends in its only wildcard is taken for a wildcard exactly when nothing but
copies of the team identifier come before it. -/
theorem replace_eq_star_iff (teamID : String) {appID : String} (front : List Char)
    (happID : appID.toList = front ++ ['*']) (hfront : '*' ∉ front) :
    NSString.replace appID (teamID ++ ".") "" = "*" ↔ IsTeamWildcard teamID appID := by
  have htarget : (teamID ++ ".").toList ≠ [] := by simp [String.toList_append]
  have hend : ¬ ['*'] <:+ (teamID ++ ".").toList := by
    rw [String.toList_append]
    intro hsuffix
    have hlast := List.suffix_iff_eq_append.mp hsuffix
    have := congrArg List.getLast? hlast
    simp at this
  unfold IsTeamWildcard
  rw [← String.toList_inj]
  unfold NSString.replace
  rw [String.toList_ofList, happID]
  simp only [List.append_left_inj]
  exact NSString.replaceFrom_nil_eq_singleton_iff htarget hend hfront

/-! ## The identifier that is written -/

section

variable {env : SigningEnvironment} {app app' : AppDir} {profile : MobileProfile}
  {appIDPrefix b : ConcreteID} {teamID : String} {pattern : AppIDPattern}
  {oldTeamID : Option String}

/-- The old bundle identifier is read back right exactly when the condition says so. -/
theorem oldBundleID_eq_iff (hold : HasOldBundleID app b.text oldTeamID) {bundleID : Option String}
    (hbundle : oldBundleID env app = .ok bundleID) :
    ∃ s, bundleID = some s ∧ (s = b.text ↔ ReadsBack b.text oldTeamID) := by
  unfold oldBundleID at hbundle
  obtain ⟨infoPlist, hinfo, hread⟩ := bind_eq_ok_iff.mp hbundle
  rw [readInfoPlist_eq_ok_iff] at hinfo
  have happIDKey := objectForKey_entitlementsWithBundlePath app applicationIdentifierKey
  have hteamKey := objectForKey_entitlementsWithBundlePath app teamIdentifierKey
  unfold getOldBundleId at hread
  cases oldTeamID with
  | some Q =>
    -- both keys are in the signature, so the team identifier is stripped
    obtain ⟨happID, hteam⟩ := hold
    rw [happID] at happIDKey
    rw [hteam] at hteamKey
    cases hentitlements : Entitlements.entitlementsWithBundlePath app with
    | none => simp [hentitlements] at happIDKey
    | some e =>
      rw [hentitlements, Option.bind_some] at happIDKey hteamKey
      simp only [hentitlements, happIDKey, hteamKey, Option.isSome_some, and_self, if_true,
        applicationIdentifierWithoutPrefix, Option.elim, env.description_string,
        replace_append_self, Except.ok.injEq] at hread
      refine ⟨_, hread.symm, ?_⟩
      rw [replace_eq_self_iff]
      simp [ReadsBack]
  | none =>
    obtain ⟨hteam, hplist⟩ := hold
    rw [hinfo, Option.bind_some] at hplist
    rw [hteam] at hteamKey
    have hplain : bundleID = infoPlist.bundleIdentifier := by
      cases hentitlements : Entitlements.entitlementsWithBundlePath app with
      | none => simpa [hentitlements] using hread.symm
      | some e =>
        rw [hentitlements, Option.bind_some] at hteamKey
        simpa [hentitlements, hteamKey] using hread.symm
    exact ⟨b.text, hplain.trans hplist, by simp [ReadsBack]⟩

/-- What the wildcard test makes of the identifier of a profile. -/
theorem replace_eq_star_iff_pattern (appIDPrefix : ConcreteID) (pattern : AppIDPattern)
    (teamID : String) :
    NSString.replace (appIDPrefix.text ++ "." ++ pattern.text) (teamID ++ ".") "" = "*" ↔
      pattern.IsWildcard ∧ IsTeamWildcard teamID (appIDPrefix.text ++ "." ++ pattern.text) := by
  have hpre := appIDPrefix.noWildcard
  cases pattern with
  | explicit bundleID =>
    -- removing cannot leave a wildcard that was not there
    refine iff_of_false (fun hstar => ?_) (fun h => h.1)
    have hleft : '*' ∈ (NSString.replace (appIDPrefix.text ++ "." ++ bundleID.text)
        (teamID ++ ".") "").toList := by
      rw [AppIDPattern.text] at hstar
      rw [hstar]
      decide
    unfold NSString.replace at hleft
    rw [String.toList_ofList] at hleft
    have hmem := NSString.mem_of_mem_replaceFrom_nil hleft
    simp [String.toList_append, hpre, bundleID.noWildcard] at hmem
  | any =>
    rw [replace_eq_star_iff teamID (appIDPrefix.text ++ ".").toList]
    · simp [AppIDPattern.IsWildcard]
    · simp [AppIDPattern.text, String.toList_append]
    · simp [String.toList_append, hpre]
  | within stem =>
    rw [replace_eq_star_iff teamID (appIDPrefix.text ++ "." ++ stem.text ++ ".").toList]
    · simp [AppIDPattern.IsWildcard]
    · simp [AppIDPattern.text, String.toList_append]
    · simp [String.toList_append, hpre, stem.noWildcard]

/-- A wildcard pattern is no required identifier. -/
theorem pattern_ne_requiredID (hwild : pattern.IsWildcard) (appIDPrefix b : ConcreteID) :
    appIDPrefix.text ++ "." ++ pattern.text ≠ pattern.requiredID appIDPrefix b := by
  intro heq
  have hstar : '*' ∈ (appIDPrefix.text ++ "." ++ pattern.text).toList := by
    cases pattern with
    | explicit bundleID => exact absurd hwild id
    | any => simp [AppIDPattern.text, String.toList_append]
    | within stem => simp [AppIDPattern.text, String.toList_append]
  rw [heq] at hstar
  exact pattern.notMem_requiredID appIDPrefix b hstar

/-- A signature that replaces the application identifier by `s` is the one required exactly when `s`
is the identifier required. -/
theorem signedWith_iff {signature : NSDictionary EntitlementValue} {s appID : String}
    (hsignature : (profile.entitlements.entitlementsByReplacingApplicationIdentifier
      (some s)).dictionary = some signature) (hconcrete : '*' ∉ appID.toList) :
    SignedWith profile signature appID ↔ s = appID := by
  have hlookup : ∀ key, signature.objectForKey key =
      (profile.entitlements.entitlementsByReplacingApplicationIdentifier
        (some s)).objectForKey key := by
    intro key
    rw [Entitlements.objectForKey, hsignature, Option.bind_some]
  have hself : signature.objectForKey applicationIdentifierKey = some (.string s) := by
    rw [hlookup]
    exact Entitlements.objectForKey_replacing_self hsignature
  constructor
  · intro h
    simpa [hself] using h.identifier
  · rintro rfl
    refine ⟨hself, fun key hne => ?_, hconcrete⟩
    rw [hlookup, Entitlements.objectForKey_replacing_of_ne _ _ hne]

/-- **When the resigned application identifier is the required one.** For a profile with prefix `P`
and identifier `P.pattern`, and an app whose old bundle identifier is `b` and is matched by a
wildcard pattern: the signature is the profile's entitlements with the identifier `P.b` for a
wildcard pattern, and `P.pattern` otherwise, exactly if for a wildcard pattern only copies of the
team identifier come before the `*`, and the old team identifier does not occur inside `b`. -/
theorem resignAppDir_signedWith_iff {codesignIdentity : Option CodesignIdentity}
    (hteamPrefixes : profile.applicationIdentifierPrefix = some [appIDPrefix.text])
    (happID : profile.entitlements.objectForKey applicationIdentifierKey =
      some (.string (appIDPrefix.text ++ "." ++ pattern.text)))
    (hteam : profile.entitlements.objectForKey teamIdentifierKey = some (.string teamID))
    (hold : HasOldBundleID app b.text oldTeamID)
    (hresign : resignAppDir env app profile codesignIdentity = .ok app') :
    SignedWith profile app'.signature (pattern.requiredID appIDPrefix b) ↔
      (pattern.IsWildcard →
        IsTeamWildcard teamID (appIDPrefix.text ++ "." ++ pattern.text) ∧
          ReadsBack b.text oldTeamID) := by
  obtain ⟨bundleID, hbundle, hsignature⟩ := signature_of_resignAppDir_eq_ok hresign
  obtain ⟨s, rfl, hreads⟩ := oldBundleID_eq_iff hold hbundle
  have hconcrete := pattern.notMem_requiredID appIDPrefix b
  have htest := replace_eq_star_iff_pattern appIDPrefix pattern teamID
  have hstripped : mobileProfileAppID env profile =
      some (NSString.replace (appIDPrefix.text ++ "." ++ pattern.text) (teamID ++ ".") "") := by
    simp [mobileProfileAppID, applicationIdentifierWithoutPrefix, happID, hteam,
      env.description_string, Except.toOption]
  rw [finalEntitlements, hstripped, hteamPrefixes] at hsignature
  by_cases hstar :
      NSString.replace (appIDPrefix.text ++ "." ++ pattern.text) (teamID ++ ".") "" = "*"
  · -- taken for a wildcard: the prefix with what was read back
    obtain ⟨hwild, hteamWild⟩ := htest.mp hstar
    simp only [finalAppIdentifier, isWildcardAppId, hstar, BEq.rfl, if_true, formatString,
      Option.bind_some, List.head?_cons, Option.getD_some] at hsignature
    rw [signedWith_iff hsignature hconcrete, AppIDPattern.requiredID, if_pos hwild]
    simp only [hwild, hteamWild, true_and, forall_const, ← hreads]
    rw [← String.toList_inj, ← String.toList_inj]
    simp only [String.toList_append, List.append_cancel_left_eq]
  · -- not taken for one: the identifier of the profile
    have hno : isWildcardAppId (some (NSString.replace
        (appIDPrefix.text ++ "." ++ pattern.text) (teamID ++ ".") "")) = false := by
      simpa [isWildcardAppId] using hstar
    simp only [finalAppIdentifier, hno, happID, Bool.false_eq_true, if_false] at hsignature
    rw [signedWith_iff hsignature hconcrete]
    by_cases hwild : pattern.IsWildcard
    · refine iff_of_false (pattern_ne_requiredID hwild appIDPrefix b) fun h => ?_
      exact hstar (htest.mpr ⟨hwild, (h hwild).1⟩)
    · refine iff_of_true ?_ fun h => absurd h hwild
      rw [AppIDPattern.requiredID, if_neg hwild]

end

/-- For a prefix without a dot, `P.*` is taken for a wildcard exactly when the team identifier is
the prefix. -/
theorem isTeamWildcard_any_iff {P teamID : String} (hdot : '.' ∉ P.toList) :
    IsTeamWildcard teamID (P ++ "." ++ AppIDPattern.any.text) ↔ teamID = P := by
  have hfront : (P ++ "." ++ AppIDPattern.any.text).toList = (P ++ ".").toList ++ ['*'] := by
    simp [AppIDPattern.text, String.toList_append]
  unfold IsTeamWildcard
  simp only [hfront, List.append_left_inj]
  constructor
  · rintro ⟨k, hk⟩
    -- the prefix has one dot, and so one copy of the team identifier with its dot
    have hcount : (P ++ ".").toList.count '.' = 1 := by
      simp [String.toList_append, List.count_append, List.count_eq_zero.mpr hdot]
    rw [hk, List.count_flatten, List.map_replicate, List.sum_replicate, smul_eq_mul] at hcount
    rw [Nat.eq_one_of_mul_eq_one_right hcount] at hk
    simp only [List.replicate_one, List.flatten_cons, List.flatten_nil, List.append_nil,
      String.toList_append, List.append_left_inj] at hk
    exact String.toList_inj.mp hk.symm
  · rintro rfl
    exact ⟨1, by simp⟩

/-! ### An app of another team -/

/-- The prefix of the development profiles. -/
def developmentPrefix : ConcreteID := ⟨"ABCDE12345", by decide⟩

/-- The bundle identifier of the app of another team. -/
def otherTeamBundleID : ConcreteID := ⟨"com.my.app", by decide⟩

/-- The identifier of the app lies within this one. -/
def otherTeamStem : ConcreteID := ⟨"com.my", by decide⟩

/-- Under a profile for all apps of a team, the app gets its own identifier. -/
theorem resignAppDir_signedWith_iff_any :
    ∃ app', resignAppDir developerEnvironment otherTeamApp (profileWithAppID "ABCDE12345.*") none =
        .ok app' ∧
      SignedWith (profileWithAppID "ABCDE12345.*") app'.signature "ABCDE12345.com.my.app" := by
  obtain ⟨app', hresign⟩ : ∃ app', resignAppDir developerEnvironment otherTeamApp
      (profileWithAppID "ABCDE12345.*") none = .ok app' := ⟨_, rfl⟩
  refine ⟨app', hresign, ?_⟩
  have hold : HasOldBundleID otherTeamApp otherTeamBundleID.text (some "OLDTEAM123") := ⟨rfl, rfl⟩
  have happID : (profileWithAppID "ABCDE12345.*").entitlements.objectForKey
      applicationIdentifierKey =
        some (.string (developmentPrefix.text ++ "." ++ AppIDPattern.any.text)) := rfl
  refine (resignAppDir_signedWith_iff rfl happID rfl hold hresign).mpr fun _ => ⟨?_, ?_⟩
  · exact (isTeamWildcard_any_iff (by decide)).mpr rfl
  · rintro _ ⟨⟩
    decide

/-- **A pattern that is signed into an app.** Under a profile for the identifiers within `com.my`,
which match the app's, the app is signed with the pattern itself. -/
theorem resignAppDir_signs_pattern :
    (profileWithAppID "ABCDE12345.com.my.*").applicationIdentifierPrefix =
        some [developmentPrefix.text] ∧
      (profileWithAppID "ABCDE12345.com.my.*").entitlements.objectForKey applicationIdentifierKey =
        some (.string (developmentPrefix.text ++ "." ++
          (AppIDPattern.within otherTeamStem).text)) ∧
      (profileWithAppID "ABCDE12345.com.my.*").entitlements.objectForKey teamIdentifierKey =
        some (.string developmentPrefix.text) ∧
      HasOldBundleID otherTeamApp otherTeamBundleID.text (some "OLDTEAM123") ∧
      (AppIDPattern.within otherTeamStem).Matches otherTeamBundleID ∧
      ∃ app', resignAppDir developerEnvironment otherTeamApp
          (profileWithAppID "ABCDE12345.com.my.*") none = .ok app' ∧
        app'.signature.objectForKey applicationIdentifierKey =
          some (.string "ABCDE12345.com.my.*") ∧
        ¬ SignedWith (profileWithAppID "ABCDE12345.com.my.*") app'.signature
          ((AppIDPattern.within otherTeamStem).requiredID developmentPrefix otherTeamBundleID) := by
  refine ⟨rfl, rfl, rfl, ⟨rfl, rfl⟩, by unfold AppIDPattern.Matches; decide, _, rfl, rfl, ?_⟩
  intro h
  exact absurd h.identifier (by decide +kernel)

end IOSDeviceManager
