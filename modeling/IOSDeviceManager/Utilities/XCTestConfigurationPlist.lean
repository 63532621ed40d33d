import IOSDeviceManager.Foundation.NSStringReplace
import IOSDeviceManager.General.XmlCost

/-! # Generated test configurations

`plistWithXCTestInstallPath:…` puts its arguments into a template of an XML property list, one
placeholder after the other, as they are. So what is read at the place of an argument is what the
argument stands for as XML, after the later placeholders in it have been replaced too. -/

namespace IOSDeviceManager

open General

namespace NSString

/-- `-[NSString lastPathComponent]`. -/
def lastPathComponent (s : String) : String :=
  match (s.toList.splitOn '/').filter (· ≠ []) |>.getLast? with
  | some component => String.ofList component
  | none => if s.toList.head? = some '/' then "/" else ""

/-- The first of `componentsSeparatedByString:` for a separator of one character. -/
def firstComponent (s : String) (separator : Char) : String :=
  String.ofList ((s.toList.splitOn separator).headD [])

end NSString

namespace NSUUID

/-- The sixteen bytes of `initWithUUIDString:`, if the string is that of a UUID. -/
def getUUIDBytes (string : String) : Option (List UInt8) :=
  let groups := string.toList.splitOn '-'
  if groups.map List.length = [8, 4, 4, 4, 12] then Hexadecimal.decode groups.flatten else none

end NSUUID

namespace XCTestConfigurationPlist

/-! ## The template -/

/-- The lines of `template` up to the objects, each with the number of its indentations by four
spaces. -/
def openingLines : List (Nat × String) :=
  [(0, "<?xml version=\"1.0\" encoding=\"UTF-8\"?>"),
   (0, "<!DOCTYPE plist PUBLIC \"-//Apple//DTD PLIST 1.0//EN\" " ++
    "\"http://www.apple.com/DTDs/PropertyList-1.0.dtd\">"),
   (0, "<plist version=\"1.0\">"),
   (0, "<dict>"),
   (1, "<key>$archiver</key>"),
   (1, "<string>NSKeyedArchiver</string>"),
   (1, "<key>$objects</key>"),
   (1, "<array>")]

/-- The lines of `template` of the first objects: the null object and the configuration. -/
def configurationLines : List (Nat × String) :=
  [(2, "<string>$null</string>"),
   (2, "<dict>"),
   (3, "<key>$class</key>"),
   (3, "<dict>"),
   (4, "<key>CF$UID</key>"),
   (4, "<integer>24</integer>"),
   (3, "</dict>"),
   (3, "<key>aggregateStatisticsBeforeCrash</key>"),
   (3, "<dict>"),
   (4, "<key>CF$UID</key>"),
   (4, "<integer>19</integer>"),
   (3, "</dict>"),
   (3, "<key>automationFrameworkPath</key>"),
   (3, "<dict>"),
   (4, "<key>CF$UID</key>"),
   (4, "<integer>23</integer>"),
   (3, "</dict>"),
   (3, "<key>baselineFileRelativePath</key>"),
   (3, "<dict>"),
   (4, "<key>CF$UID</key>"),
   (4, "<integer>0</integer>"),
   (3, "</dict>"),
   (3, "<key>baselineFileURL</key>"),
   (3, "<dict>"),
   (4, "<key>CF$UID</key>"),
   (4, "<integer>0</integer>"),
   (3, "</dict>"),
   (3, "<key>bridgedProcessAutomationFrameworkPath</key>"),
   (3, "<dict>"),
   (4, "<key>CF$UID</key>"),
   (4, "<integer>0</integer>"),
   (3, "</dict>"),
   (3, "<key>disablePerformanceMetrics</key>"),
   (3, "<true/>"),
   (3, "<key>emitOSLogs</key>"),
   (3, "<true/>"),
   (3, "<key>formatVersion</key>"),
   (3, "<dict>"),
   (4, "<key>CF$UID</key>"),
   (4, "<integer>2</integer>"),
   (3, "</dict>"),
   (3, "<key>gatherLocalizableStringsData</key>"),
   (3, "<false/>"),
   (3, "<key>initializeForUITesting</key>"),
   (3, "<true/>"),
   (3, "<key>productModuleName</key>"),
   (3, "<dict>"),
   (4, "<key>CF$UID</key>"),
   (4, "<integer>18</integer>"),
   (3, "</dict>"),
   (3, "<key>randomExecutionOrderingSeed</key>"),
   (3, "<dict>"),
   (4, "<key>CF$UID</key>"),
   (4, "<integer>0</integer>"),
   (3, "</dict>")]

/-- The lines of `template` that end the configuration. -/
def configurationEndLines : List (Nat × String) :=
  [(3, "<key>reportActivities</key>"),
   (3, "<true/>"),
   (3, "<key>reportResultsToIDE</key>"),
   (3, "<true/>"),
   (3, "<key>sessionIdentifier</key>"),
   (3, "<dict>"),
   (4, "<key>CF$UID</key>"),
   (4, "<integer>8</integer>"),
   (3, "</dict>"),
   (3, "<key>systemAttachmentLifetime</key>"),
   (3, "<integer>0</integer>"),
   (3, "<key>targetApplicationArguments</key>"),
   (3, "<dict>"),
   (4, "<key>CF$UID</key>"),
   (4, "<integer>6</integer>"),
   (3, "</dict>"),
   (3, "<key>targetApplicationBundleID</key>"),
   (3, "<dict>"),
   (4, "<key>CF$UID</key>"),
   (4, "<integer>11</integer>"),
   (3, "</dict>"),
   (3, "<key>targetApplicationEnvironment</key>"),
   (3, "<dict>"),
   (4, "<key>CF$UID</key>"),
   (4, "<integer>0</integer>"),
   (3, "</dict>"),
   (3, "<key>targetApplicationPath</key>"),
   (3, "<dict>"),
   (4, "<key>CF$UID</key>"),
   (4, "<integer>10</integer>"),
   (3, "</dict>"),
   (3, "<key>testApplicationDependencies</key>"),
   (3, "<dict>"),
   (4, "<key>CF$UID</key>"),
   (4, "<integer>12</integer>"),
   (3, "</dict>"),
   (3, "<key>testApplicationUserOverrides</key>"),
   (3, "<dict>"),
   (4, "<key>CF$UID</key>"),
   (4, "<integer>0</integer>"),
   (3, "</dict>"),
   (3, "<key>testBundleRelativePath</key>"),
   (3, "<dict>"),
   (4, "<key>CF$UID</key>"),
   (4, "<integer>0</integer>"),
   (3, "</dict>"),
   (3, "<key>testBundleURL</key>"),
   (3, "<dict>"),
   (4, "<key>CF$UID</key>"),
   (4, "<integer>3</integer>"),
   (3, "</dict>"),
   (3, "<key>testExecutionOrdering</key>"),
   (3, "<integer>0</integer>"),
   (3, "<key>testsDrivenByIDE</key>"),
   (3, "<false/>"),
   (3, "<key>testsMustRunOnMainThread</key>"),
   (3, "<true/>"),
   (3, "<key>testsToRun</key>"),
   (3, "<dict>"),
   (4, "<key>CF$UID</key>"),
   (4, "<integer>0</integer>"),
   (3, "</dict>"),
   (3, "<key>testsToSkip</key>"),
   (3, "<dict>"),
   (4, "<key>CF$UID</key>"),
   (4, "<integer>0</integer>"),
   (3, "</dict>"),
   (3, "<key>treatMissingBaselinesAsFailures</key>"),
   (3, "<false/>"),
   (3, "<key>userAttachmentLifetime</key>"),
   (3, "<integer>0</integer>"),
   (2, "</dict>")]

/-- The lines of `template` of the objects for the test bundle and the session. -/
def urlLines : List (Nat × String) :=
  [(2, "<integer>2</integer>"),
   (2, "<dict>"),
   (3, "<key>$class</key>"),
   (3, "<dict>"),
   (4, "<key>CF$UID</key>"),
   (4, "<integer>5</integer>"),
   (3, "</dict>"),
   (3, "<key>NS.base</key>"),
   (3, "<dict>"),
   (4, "<key>CF$UID</key>"),
   (4, "<integer>0</integer>"),
   (3, "</dict>"),
   (3, "<key>NS.relative</key>"),
   (3, "<dict>"),
   (4, "<key>CF$UID</key>"),
   (4, "<integer>4</integer>"),
   (3, "</dict>"),
   (2, "</dict>"),
   (2, "<string>TEST_BUNDLE_URL</string>"),
   (2, "<dict>"),
   (3, "<key>$classes</key>"),
   (3, "<array>"),
   (4, "<string>NSURL</string>"),
   (4, "<string>NSObject</string>"),
   (3, "</array>"),
   (3, "<key>$classname</key>"),
   (3, "<string>NSURL</string>"),
   (2, "</dict>"),
   (2, "<dict>"),
   (3, "<key>$class</key>"),
   (3, "<dict>"),
   (4, "<key>CF$UID</key>"),
   (4, "<integer>7</integer>"),
   (3, "</dict>"),
   (3, "<key>NS.objects</key>"),
   (3, "<array/>"),
   (2, "</dict>"),
   (2, "<dict>"),
   (3, "<key>$classes</key>"),
   (3, "<array>"),
   (4, "<string>NSArray</string>"),
   (4, "<string>NSObject</string>"),
   (3, "</array>"),
   (3, "<key>$classname</key>"),
   (3, "<string>NSArray</string>"),
   (2, "</dict>"),
   (2, "<dict>"),
   (3, "<key>$class</key>"),
   (3, "<dict>"),
   (4, "<key>CF$UID</key>"),
   (4, "<integer>9</integer>"),
   (3, "</dict>"),
   (3, "<key>NS.uuidbytes</key>"),
   (3, "<data>"),
   (3, "SESSION_IDENTIFIER"),
   (3, "</data>"),
   (2, "</dict>"),
   (2, "<dict>"),
   (3, "<key>$classes</key>"),
   (3, "<array>"),
   (4, "<string>NSUUID</string>"),
   (4, "<string>NSObject</string>"),
   (3, "</array>"),
   (3, "<key>$classname</key>"),
   (3, "<string>NSUUID</string>"),
   (2, "</dict>")]

/-- The lines of `template` of the objects for the two applications. -/
def pathLines : List (Nat × String) :=
  [(2, "<string>AUT_INSTALLED_PATH</string>"),
   (2, "<string>AUT_BUNDLE_IDENTIFIER</string>"),
   (2, "<dict>"),
   (3, "<key>$class</key>"),
   (3, "<dict>"),
   (4, "<key>CF$UID</key>"),
   (4, "<integer>17</integer>"),
   (3, "</dict>"),
   (3, "<key>NS.keys</key>"),
   (3, "<array>"),
   (4, "<dict>"),
   (5, "<key>CF$UID</key>"),
   (5, "<integer>13</integer>"),
   (4, "</dict>"),
   (4, "<dict>"),
   (5, "<key>CF$UID</key>"),
   (5, "<integer>14</integer>"),
   (4, "</dict>"),
   (3, "</array>"),
   (3, "<key>NS.objects</key>"),
   (3, "<array>"),
   (4, "<dict>"),
   (5, "<key>CF$UID</key>"),
   (5, "<integer>15</integer>"),
   (4, "</dict>"),
   (4, "<dict>"),
   (5, "<key>CF$UID</key>"),
   (5, "<integer>16</integer>"),
   (4, "</dict>"),
   (3, "</array>"),
   (2, "</dict>"),
   (2, "<string>RUNNER_BUNDLE_IDENTIFIER</string>"),
   (2, "<string>AUT_BUNDLE_IDENTIFIER</string>"),
   (2, "<string>RUNNER_INSTALLED_PATH</string>"),
   (2, "<string>AUT_INSTALLED_PATH</string>")]

/-- The lines of `template` of the last objects. -/
def classLines : List (Nat × String) :=
  [(2, "<dict>"),
   (3, "<key>$classes</key>"),
   (3, "<array>"),
   (4, "<string>NSDictionary</string>"),
   (4, "<string>NSObject</string>"),
   (3, "</array>"),
   (3, "<key>$classname</key>"),
   (3, "<string>NSDictionary</string>"),
   (2, "</dict>"),
   (2, "<string>RUNNER_PRODUCT_NAME</string>"),
   (2, "<dict>"),
   (3, "<key>$class</key>"),
   (3, "<dict>"),
   (4, "<key>CF$UID</key>"),
   (4, "<integer>22</integer>"),
   (3, "</dict>"),
   (3, "<key>NS.keys</key>"),
   (3, "<array>"),
   (4, "<dict>"),
   (5, "<key>CF$UID</key>"),
   (5, "<integer>20</integer>"),
   (4, "</dict>"),
   (3, "</array>"),
   (3, "<key>NS.objects</key>"),
   (3, "<array>"),
   (4, "<dict>"),
   (5, "<key>CF$UID</key>"),
   (5, "<integer>21</integer>"),
   (4, "</dict>"),
   (3, "</array>"),
   (2, "</dict>"),
   (2, "<string>XCSuiteRecordsKey</string>"),
   (2, "<dict>"),
   (3, "<key>$class</key>"),
   (3, "<dict>"),
   (4, "<key>CF$UID</key>"),
   (4, "<integer>22</integer>"),
   (3, "</dict>"),
   (3, "<key>NS.keys</key>"),
   (3, "<array/>"),
   (3, "<key>NS.objects</key>"),
   (3, "<array/>"),
   (2, "</dict>"),
   (2, "<dict>"),
   (3, "<key>$classes</key>"),
   (3, "<array>"),
   (4, "<string>NSMutableDictionary</string>"),
   (4, "<string>NSDictionary</string>"),
   (4, "<string>NSObject</string>"),
   (3, "</array>"),
   (3, "<key>$classname</key>"),
   (3, "<string>NSMutableDictionary</string>"),
   (2, "</dict>"),
   (2, "<string>/Developer/Library/PrivateFrameworks/XCTAutomationSupport.framework</string>"),
   (2, "<dict>"),
   (3, "<key>$classes</key>"),
   (3, "<array>"),
   (4, "<string>XCTestConfiguration</string>"),
   (4, "<string>NSObject</string>"),
   (3, "</array>"),
   (3, "<key>$classname</key>"),
   (3, "<string>XCTestConfiguration</string>"),
   (2, "</dict>")]

/-- The lines of `template` behind the objects. -/
def closingLines : List (Nat × String) :=
  [(1, "</array>"),
   (1, "<key>$top</key>"),
   (1, "<dict>"),
   (2, "<key>root</key>"),
   (2, "<dict>"),
   (3, "<key>CF$UID</key>"),
   (3, "<integer>1</integer>"),
   (2, "</dict>"),
   (1, "</dict>"),
   (1, "<key>$version</key>"),
   (1, "<integer>100000</integer>"),
   (0, "</dict>"),
   (0, "</plist>")]

/-- The lines of `template`. -/
def templateLines : List (Nat × String) :=
  openingLines ++ (configurationLines ++ (configurationEndLines ++ (urlLines ++ (pathLines ++
    (classLines ++ closingLines)))))

/-- `template`. -/
def template : String :=
  String.join (templateLines.map fun line =>
    String.ofList (List.replicate (4 * line.1) ' ') ++ line.2 ++ "\n")

/-- The arguments of `plistWithXCTestInstallPath:AUTHostPath:AUTBundleIdentifier:…`. -/
structure Arguments where
  testInstallPath : String
  autHostPath : String
  autBundleIdentifier : String
  runnerHostPath : String
  runnerBundleIdentifier : String
  uuid : String

/-- The string that takes the place of `RUNNER_PRODUCT_NAME`. -/
def runnerProductName (runnerHostPath : String) : String :=
  NSString.firstComponent (NSString.lastPathComponent runnerHostPath) '-'

/-- `plistWithXCTestInstallPath:AUTHostPath:AUTBundleIdentifier:…`. For a string that is not that of
a UUID the bytes are not set, and nothing is known of the result. -/
def plistWithXCTestInstallPath (args : Arguments) : Option String :=
  let template := NSString.replace template "TEST_BUNDLE_URL" ("file://" ++ args.testInstallPath)
  let template := NSString.replace template "AUT_INSTALLED_PATH" args.autHostPath
  let template := NSString.replace template "AUT_BUNDLE_IDENTIFIER" args.autBundleIdentifier
  let template := NSString.replace template "RUNNER_INSTALLED_PATH" args.runnerHostPath
  let template := NSString.replace template "RUNNER_BUNDLE_IDENTIFIER" args.runnerBundleIdentifier
  (NSUUID.getUUIDBytes args.uuid).map fun bytes =>
    let base64EncodedSessionIdentifier := String.ofList (Base64.encode bytes)
    let template := NSString.replace template "SESSION_IDENTIFIER" base64EncodedSessionIdentifier
    NSString.replace template "RUNNER_PRODUCT_NAME" (runnerProductName args.runnerHostPath)

/-! ## The template as a property list -/

/-- A reference to another object of the archive. -/
def uid (n : Nat) : PropertyList (List Char) :=
  .dict [("CF$UID".toList, .integer n)]

/-- A string. -/
def text (s : String) : PropertyList (List Char) :=
  .string s.toList

/-- The object of a class: its superclasses, itself first, and its name. -/
def classObject (name : String) (superclasses : List String) : PropertyList (List Char) :=
  .dict [("$classes".toList, .array ((name :: superclasses).map text)),
    ("$classname".toList, text name)]

/-- The object of a dictionary. -/
def dictionaryObject (objectClass : Nat) (keys objects : List Nat) : PropertyList (List Char) :=
  .dict [("$class".toList, uid objectClass), ("NS.keys".toList, .array (keys.map uid)),
    ("NS.objects".toList, .array (objects.map uid))]

/-- The entries of the configuration object, up to its name. -/
def configurationEntries : List (List Char × PropertyList (List Char)) :=
  [("$class".toList, uid 24),
    ("aggregateStatisticsBeforeCrash".toList, uid 19),
    ("automationFrameworkPath".toList, uid 23),
    ("baselineFileRelativePath".toList, uid 0),
    ("baselineFileURL".toList, uid 0),
    ("bridgedProcessAutomationFrameworkPath".toList, uid 0),
    ("disablePerformanceMetrics".toList, .bool true),
    ("emitOSLogs".toList, .bool true),
    ("formatVersion".toList, uid 2),
    ("gatherLocalizableStringsData".toList, .bool false),
    ("initializeForUITesting".toList, .bool true),
    ("productModuleName".toList, uid 18),
    ("randomExecutionOrderingSeed".toList, uid 0)]

/-- The other entries of the configuration object. -/
def configurationEndEntries : List (List Char × PropertyList (List Char)) :=
  [("reportActivities".toList, .bool true),
    ("reportResultsToIDE".toList, .bool true),
    ("sessionIdentifier".toList, uid 8),
    ("systemAttachmentLifetime".toList, .integer 0),
    ("targetApplicationArguments".toList, uid 6),
    ("targetApplicationBundleID".toList, uid 11),
    ("targetApplicationEnvironment".toList, uid 0),
    ("targetApplicationPath".toList, uid 10),
    ("testApplicationDependencies".toList, uid 12),
    ("testApplicationUserOverrides".toList, uid 0),
    ("testBundleRelativePath".toList, uid 0),
    ("testBundleURL".toList, uid 3),
    ("testExecutionOrdering".toList, .integer 0),
    ("testsDrivenByIDE".toList, .bool false),
    ("testsMustRunOnMainThread".toList, .bool true),
    ("testsToRun".toList, uid 0),
    ("testsToSkip".toList, uid 0),
    ("treatMissingBaselinesAsFailures".toList, .bool false),
    ("userAttachmentLifetime".toList, .integer 0)]

/-- The objects for the test bundle and the session. -/
def urlObjects : List (PropertyList (List Char)) :=
  [.integer 2,
    .dict [("$class".toList, uid 5), ("NS.base".toList, uid 0), ("NS.relative".toList, uid 4)],
    text "TEST_BUNDLE_URL",
    classObject "NSURL" ["NSObject"],
    .dict [("$class".toList, uid 7), ("NS.objects".toList, .array [])],
    classObject "NSArray" ["NSObject"],
    .dict [("$class".toList, uid 9), ("NS.uuidbytes".toList,
      .data "\n            SESSION_IDENTIFIER\n            ".toList)],
    classObject "NSUUID" ["NSObject"]]

/-- The objects for the two applications. -/
def pathObjects : List (PropertyList (List Char)) :=
  [text "AUT_INSTALLED_PATH", text "AUT_BUNDLE_IDENTIFIER",
    dictionaryObject 17 [13, 14] [15, 16],
    text "RUNNER_BUNDLE_IDENTIFIER", text "AUT_BUNDLE_IDENTIFIER",
    text "RUNNER_INSTALLED_PATH", text "AUT_INSTALLED_PATH"]

/-- The last objects. -/
def classObjects : List (PropertyList (List Char)) :=
  [classObject "NSDictionary" ["NSObject"],
    text "RUNNER_PRODUCT_NAME",
    dictionaryObject 22 [20] [21],
    text "XCSuiteRecordsKey",
    dictionaryObject 22 [] [],
    classObject "NSMutableDictionary" ["NSDictionary", "NSObject"],
    text "/Developer/Library/PrivateFrameworks/XCTAutomationSupport.framework",
    classObject "XCTestConfiguration" ["NSObject"]]

/-- The objects of the archive: the null object, the configuration and what it refers to. -/
def objects : List (PropertyList (List Char)) :=
  text "$null" :: .dict (configurationEntries ++ configurationEndEntries) ::
    (urlObjects ++ (pathObjects ++ classObjects))

/-- What stands behind the objects in the archive. -/
def lastEntries : List (List Char × PropertyList (List Char)) :=
  [("$top".toList, .dict [("root".toList, uid 1)]), ("$version".toList, .integer 100000)]

/-- The template as a property list, with its placeholders. -/
def configuration : PropertyList (List Char) :=
  .dict (("$archiver".toList, text "NSKeyedArchiver") :: ("$objects".toList, .array objects) ::
    lastEntries)

/-- Whether a string has the characters, told by its bytes. -/
def hasCharacters (s : String) (cs : List Char) : Bool :=
  s.toByteArray.data.toList == cs.flatMap String.utf8EncodeChar

/-- Bytes tell the characters of a string. -/
theorem toList_of_hasCharacters {s : String} {cs : List Char} (h : hasCharacters s cs = true) :
    s.toList = cs := by
  have hdata : s.toByteArray.data = cs.utf8Encode.data := by
    rw [← Array.toList_inj, List.utf8Encode, List.toList_data_toByteArray]
    exact eq_of_beq h
  have hbytes : s.toByteArray = (String.ofList cs).toByteArray := by
    rw [String.toByteArray_ofList]
    exact ByteArray.ext hdata
  rw [String.toByteArray_inj.mp hbytes, String.toList_ofList]

/-- What a text goes on with after lines. -/
def dropLines : List (Nat × String) → List Char → Option (List Char)
  | [], cs => some cs
  | line :: lines, cs =>
      let content := (cs.drop (4 * line.1)).takeWhile (· != '\n')
      if hasCharacters line.2 content then
        (List.dropPrefix? cs (PropertyList.line line.1 content)).bind (dropLines lines)
      else none

/-- The text of lines. -/
def textOfLines (lines : List (Nat × String)) : List Char :=
  lines.flatMap fun line => PropertyList.line line.1 line.2.toList

/-- Lines are told by what is left of a text. -/
theorem textOfLines_of_dropLines {lines : List (Nat × String)} {cs rest : List Char}
    (h : dropLines lines cs = some rest) : cs = textOfLines lines ++ rest := by
  induction lines generalizing cs with
  | nil => exact Option.some.inj h
  | cons line lines ih =>
    rw [dropLines, Option.ite_none_right_eq_some] at h
    obtain ⟨hcontent, hdrop⟩ := h
    obtain ⟨later, hline, hlater⟩ := Option.bind_eq_some_iff.mp hdrop
    obtain ⟨before, hcs, hbefore⟩ := List.dropPrefix?_eq_some_iff.mp hline
    rw [textOfLines, List.flatMap_cons, List.append_assoc, ← textOfLines, ← ih hlater,
      toList_of_hasCharacters hcontent, ← eq_of_beq hbefore]
    exact hcs

/-- Lines that leave nothing of a text are the text. -/
theorem textOfLines_eq {lines : List (Nat × String)} {cs : List Char}
    (h : dropLines lines cs = some []) : textOfLines lines = cs := by
  rw [textOfLines_of_dropLines h, List.append_nil]

section Template

open PropertyList

/-- The lines, part by part. -/
theorem textOfLines_parts :
    textOfLines openingLines =
      header ++ (line 0 (opening "dict".toList) ++
        (line 1 (element "key".toList "$archiver".toList) ++
          (render 1 (text "NSKeyedArchiver") ++
            (line 1 (element "key".toList "$objects".toList) ++
              line 1 (opening "array".toList))))) ∧
    textOfLines configurationLines =
      render 2 (text "$null") ++ (line 2 (opening "dict".toList) ++
        renderEntries 3 configurationEntries) ∧
    textOfLines configurationEndLines =
      renderEntries 3 configurationEndEntries ++ line 2 (closing "dict".toList) ∧
    textOfLines urlLines = renderItems 2 urlObjects ∧
    textOfLines pathLines = renderItems 2 pathObjects ∧
    textOfLines classLines = renderItems 2 classObjects ∧
    textOfLines closingLines =
      line 1 (closing "array".toList) ++
        (renderEntries 1 lastEntries ++ (line 0 (closing "dict".toList) ++ footer)) :=
  -- one part at a time, so that no text is long
  ⟨textOfLines_eq (by decide +kernel), textOfLines_eq (by decide +kernel),
    textOfLines_eq (by decide +kernel), textOfLines_eq (by decide +kernel),
    textOfLines_eq (by decide +kernel), textOfLines_eq (by decide +kernel),
    textOfLines_eq (by decide +kernel)⟩

/-- **The template is the document of the property list.** -/
theorem toList_template : template.toList = document configuration := by
  have hlines : template.toList = textOfLines templateLines := by
    rw [template, String.toList_join, List.flatMap_map, textOfLines]
    simp [line, String.toList_append]
  have hentries : (configurationEntries ++ configurationEndEntries).isEmpty = false := rfl
  have hrest : textOfLines templateLines = textOfLines openingLines ++
      (textOfLines configurationLines ++ (textOfLines configurationEndLines ++
        (textOfLines urlLines ++ (textOfLines pathLines ++ (textOfLines classLines ++
          textOfLines closingLines))))) := by
    simp [templateLines, textOfLines]
  obtain ⟨hopening, hconfiguration, hend, hurl, hpath, hclass, hclosing⟩ := textOfLines_parts
  rw [hlines, hrest, hopening, hconfiguration, hend, hurl, hpath, hclass, hclosing]
  simp only [document, configuration, objects, render, renderEntries, renderItems, block,
    hentries, List.isEmpty_cons, Bool.false_eq_true, if_false, renderItems_append,
    renderEntries_append, List.append_assoc]

end Template

end XCTestConfigurationPlist

end IOSDeviceManager
