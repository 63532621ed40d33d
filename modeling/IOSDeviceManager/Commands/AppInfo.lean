import IOSDeviceManager.Foundation.NSDictionary
import IOSDeviceManager.Foundation.NSString
import IOSDeviceManager.General.Json

/-! # `AppInfoCommand`

The details of an application are printed as JSON over several lines. To print `/` without the
backslash that escapes it, `execute:` removes every backslash of the text. -/

namespace IOSDeviceManager

open General

/-- What `app-info` reads of an `Application`. -/
structure ApplicationDetails where
  bundleID : String
  executableName : Option String
  displayName : Option String
  bundleVersion : Option String
  bundleShortVersion : Option String
  /-- The entitlements, of the property list classes that JSON has. -/
  entitlements : Option (NSDictionary Json.Value)
  /-- `allObjects` of the `arches`. -/
  arches : List String
  path : Option String

/-- `pretty` of `JSONUtils`: `dataWithJSONObject:` with `NSJSONWritingPrettyPrinted`. -/
def NSDictionary.pretty (d : NSDictionary Json.Value) : String :=
  String.ofList (Json.print Json.escape 0 (.object d.entries))

namespace AppInfoCommand

/-- `? : @""` for a string. -/
def stringOrEmpty (s : Option String) : Json.Value :=
  .string (s.getD "")

/-- `app.entitlements ? : @""`. -/
def entitlementsOrEmpty (entitlements : Option (NSDictionary Json.Value)) : Json.Value :=
  match entitlements with
  | none => .string ""
  | some entitlements => .object entitlements.entries

/-- The entries of the details. -/
def appInfoEntries (app : ApplicationDetails) : List (String × Json.Value) :=
  [("BUNDLE_ID", .string app.bundleID),
    ("EXECUTABLE_NAME", stringOrEmpty app.executableName),
    ("DISPLAY_NAME", stringOrEmpty app.displayName),
    ("BUNDLE_VERSION", stringOrEmpty app.bundleVersion),
    ("BUNDLE_SHORT_VERSION", stringOrEmpty app.bundleShortVersion),
    ("ENTITLEMENTS", entitlementsOrEmpty app.entitlements),
    ("ARCHES", .array (app.arches.map .string)),
    ("APP_PATH", stringOrEmpty app.path)]

theorem nodup_appInfoEntries (app : ApplicationDetails) :
    ((appInfoEntries app).map Prod.fst).Nodup := by
  show ["BUNDLE_ID", "EXECUTABLE_NAME", "DISPLAY_NAME", "BUNDLE_VERSION", "BUNDLE_SHORT_VERSION",
    "ENTITLEMENTS", "ARCHES", "APP_PATH"].Nodup
  decide

/-- `appInfoDetails`. -/
def appInfoDetails (app : ApplicationDetails) : NSDictionary Json.Value where
  entries := appInfoEntries app
  keysNodup := nodup_appInfoEntries app

/-- The text that `execute:` prints for the details of an application. -/
def json (appInfoDetails : NSDictionary Json.Value) : String :=
  NSString.replace appInfoDetails.pretty "\\" ""

/-- Before the backslashes are removed, the text decodes to the details. -/
theorem read_pretty (details : NSDictionary Json.Value) :
    Json.read details.pretty.toList = some (.object details.entries) := by
  rw [NSDictionary.pretty, String.toList_ofList, Json.read_print_escape]

/-! ## What the post-processing does -/

/-- Removing one character is filtering. -/
theorem replaceFrom_singleton (c : Char) (s : List Char) :
    NSString.replaceFrom [c] [] 0 s = s.filter (· != c) := by
  induction s with
  | nil => rfl
  | cons d s ih =>
    rw [NSString.replaceFrom]
    by_cases h : d = c
    · subst h
      simp [ih]
    · have hne : c ≠ d := fun heq => h heq.symm
      simp [h, hne, ih]

/-- Every backslash is removed. -/
theorem toList_json (details : NSDictionary Json.Value) :
    (json details).toList =
      Json.dropBackslashes (Json.print Json.escape 0 (.object details.entries)) := by
  rw [json, NSString.replace, NSDictionary.pretty, String.toList_ofList, String.toList_ofList]
  have hempty : "".toList = [] := rfl
  rw [hempty, String.toList_ofList]
  exact replaceFrom_singleton '\\' _

/-! ## Plain details -/

/-- A string without a quote, a backslash or a control character. -/
def IsPlainText (s : String) : Prop :=
  ∀ c ∈ s.toList, Json.isPlain c = true

instance : DecidablePred IsPlainText := fun s =>
  decidable_of_iff (s.toList.all Json.isPlain = true) List.all_eq_true

/-- None of the texts of an application has a quote, a backslash or a control character in it. -/
structure HasPlainTexts (app : ApplicationDetails) : Prop where
  bundleID : IsPlainText app.bundleID
  executableName : ∀ s ∈ app.executableName, IsPlainText s
  displayName : ∀ s ∈ app.displayName, IsPlainText s
  bundleVersion : ∀ s ∈ app.bundleVersion, IsPlainText s
  bundleShortVersion : ∀ s ∈ app.bundleShortVersion, IsPlainText s
  /-- The keys and strings at every depth of the entitlements. -/
  entitlements : ∀ d ∈ app.entitlements, Json.IsPlain (.object d.entries)
  arches : ∀ s ∈ app.arches, IsPlainText s
  path : ∀ s ∈ app.path, IsPlainText s

attribute [local simp] Json.strings

theorem isPlain_string_iff {s : String} : Json.IsPlain (.string s) ↔ IsPlainText s := by
  simp [Json.IsPlain, IsPlainText]

theorem isPlain_stringOrEmpty_iff {s : Option String} :
    Json.IsPlain (stringOrEmpty s) ↔ ∀ t ∈ s, IsPlainText t := by
  rw [stringOrEmpty, isPlain_string_iff]
  cases s with
  | none => simp [IsPlainText]
  | some s => simp

/-- An object is plain if its keys and values are, in whatever order. -/
theorem isPlain_object_iff {entries : List (String × Json.Value)} :
    Json.IsPlain (.object entries) ↔
      ∀ entry ∈ entries, IsPlainText entry.1 ∧ Json.IsPlain entry.2 := by
  induction entries with
  | nil => simp [Json.IsPlain, Json.stringsOfEntries]
  | cons entry entries ih =>
    obtain ⟨key, value⟩ := entry
    rw [List.forall_mem_cons, ← ih]
    simp only [Json.IsPlain, Json.strings, Json.stringsOfEntries, List.mem_cons, List.mem_append,
      or_imp, forall_and, forall_eq, IsPlainText, and_assoc]

/-- An array of strings. -/
theorem isPlain_array_iff {texts : List String} :
    Json.IsPlain (.array (texts.map .string)) ↔ ∀ s ∈ texts, IsPlainText s := by
  induction texts with
  | nil => simp [Json.IsPlain, Json.stringsOfItems]
  | cons s texts ih =>
    rw [List.forall_mem_cons, ← ih]
    simp only [Json.IsPlain, Json.strings, Json.stringsOfItems, List.map_cons, List.mem_append,
      List.mem_singleton, or_imp, forall_and, forall_eq, IsPlainText]

theorem isPlain_entitlementsOrEmpty_iff {entitlements : Option (NSDictionary Json.Value)} :
    Json.IsPlain (entitlementsOrEmpty entitlements) ↔
      ∀ d ∈ entitlements, Json.IsPlain (.object d.entries) := by
  cases entitlements with
  | none => simp [entitlementsOrEmpty, Json.IsPlain]
  | some d => simp [entitlementsOrEmpty]

/-- The details are plain if the texts of the application are; the keys of the details are. -/
theorem isPlain_appInfoDetails_iff (app : ApplicationDetails) :
    Json.IsPlain (.object (appInfoDetails app).entries) ↔ HasPlainTexts app := by
  have hkeys : ∀ key ∈ ["BUNDLE_ID", "EXECUTABLE_NAME", "DISPLAY_NAME", "BUNDLE_VERSION",
    "BUNDLE_SHORT_VERSION", "ENTITLEMENTS", "ARCHES", "APP_PATH"], IsPlainText key := by decide +kernel
  simp only [List.forall_mem_cons] at hkeys
  rw [isPlain_object_iff]
  simp only [appInfoDetails, appInfoEntries, List.forall_mem_cons, hkeys,
    true_and, isPlain_string_iff, isPlain_stringOrEmpty_iff, isPlain_entitlementsOrEmpty_iff,
    isPlain_array_iff]
  constructor
  · rintro ⟨hid, hexecutable, hname, hversion, hshort, hentitlements, harches, hpath, -⟩
    exact ⟨hid, hexecutable, hname, hversion, hshort, hentitlements, harches, hpath⟩
  · rintro ⟨hid, hexecutable, hname, hversion, hshort, hentitlements, harches, hpath⟩
    exact ⟨hid, hexecutable, hname, hversion, hshort, hentitlements, harches, hpath, by simp⟩

/-- **When the printed text decodes to the details.** In whatever order the dictionary is printed:
exactly if no text of the application has a quote, a backslash or a control character in it. -/
theorem json_decodes_iff (app : ApplicationDetails) (details : NSDictionary Json.Value)
    (hdetails : details.entries.Perm (appInfoDetails app).entries) :
    Json.read (json details).toList = some (.object details.entries) ↔ HasPlainTexts app := by
  rw [toList_json, Json.read_dropBackslashes_iff, isPlain_object_iff,
    ← isPlain_appInfoDetails_iff, isPlain_object_iff]
  exact ⟨fun h entry hmem => h entry (hdetails.mem_iff.mpr hmem),
    fun h entry hmem => h entry (hdetails.mem_iff.mp hmem)⟩

/-- An application without a display name, and with nothing else to escape than the path. -/
def plainApplication : ApplicationDetails where
  bundleID := "com.my.app"
  executableName := some "My"
  displayName := none
  bundleVersion := some "1"
  bundleShortVersion := some "1.0"
  entitlements := none
  arches := ["arm64"]
  path := some "/My.app"

/-- Its text decodes to its details. -/
theorem json_decodes_plainApplication :
    Json.read (json (appInfoDetails plainApplication)).toList =
      some (.object (appInfoDetails plainApplication).entries) :=
  (json_decodes_iff plainApplication (appInfoDetails plainApplication) (List.Perm.refl _)).mpr
    ⟨by decide +kernel, by decide +kernel, nofun, by decide +kernel, by decide +kernel, nofun,
      by decide +kernel, by decide +kernel⟩

/-- An application with a quoted word in its display name. -/
def quotedApplication : ApplicationDetails :=
  { plainApplication with displayName := some "My \"App\"" }

/-- **A quote in a display name.** The text that is printed for the details of the application does
not decode to them. -/
theorem json_loses_quotes :
    Json.read (json (appInfoDetails quotedApplication)).toList ≠
      some (.object (appInfoDetails quotedApplication).entries) := by
  rw [ne_eq, toList_json, Json.read_dropBackslashes_iff, isPlain_appInfoDetails_iff]
  intro h
  exact absurd (h.displayName _ rfl) (by decide +kernel)

end AppInfoCommand

end IOSDeviceManager
