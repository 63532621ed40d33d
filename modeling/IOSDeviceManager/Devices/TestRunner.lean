import IOSDeviceManager.Foundation.NSStringComponents
import IOSDeviceManager.General.LexicalPath
import IOSDeviceManager.Utilities.XCTestConfigurationPlist

/-! # The test bundle of a test runner

The name of a test runner is split in two places: at `-Runner.app` for the path of the test bundle,
and at the first hyphen for the product name in the test configuration. The two agree for names
without a hyphen only. -/

namespace IOSDeviceManager

open General

namespace Device

/-- What ends the name of a test runner. -/
def runnerSuffix : String := "-Runner.app"

/-- What is written to the console for a path that is not that of a test runner. -/
def notATestRunner (testRunnerPath : String) : List String :=
  ["Expected test runner '" ++ NSString.lastPathComponent testRunnerPath ++
      "' to end with -Runner.app",
    "Cannot detect xctestBundlePath from test runner path:", "  " ++ testRunnerPath]

/-- `xctestBundlePathForTestRunnerAtPath:`: the path, or what is written to the console. -/
def xctestBundlePathForTestRunnerAtPath (testRunnerPath : String) : Except (List String) String :=
  if !NSString.hasSuffix testRunnerPath runnerSuffix then .error (notATestRunner testRunnerPath)
  else
    let tokens := NSString.componentsSeparatedByString
      (NSString.lastPathComponent testRunnerPath) runnerSuffix
    if tokens.length ≠ 2 then .error (notATestRunner testRunnerPath)
    else
      let bundleName := tokens.headD "" ++ ".xctest"
      let bundlePath := NSString.stringByAppendingPathComponent "PlugIns" bundleName
      .ok (NSString.stringByAppendingPathComponent testRunnerPath bundlePath)

/-! ## The name of a test runner -/

/-- The last component of a path that ends with a name has a name that ends so. -/
theorem exists_getLast?_components (path name : List Char) (hslash : '/' ∉ name)
    (hne : name ≠ []) :
    ∃ front, (LexicalPath.components (path ++ name)).getLast? = some (front ++ name) := by
  induction path using List.reverseRecOn generalizing name with
  | nil => exact ⟨[], by rw [List.nil_append, LexicalPath.components_of_not_mem hslash hne]; rfl⟩
  | append_singleton path c ih =>
    rw [List.append_assoc, List.singleton_append]
    by_cases hc : c = '/'
    · refine ⟨[], ?_⟩
      rw [hc, LexicalPath.components_append_slash, LexicalPath.components_of_not_mem hslash hne,
        List.getLast?_concat]
      rfl
    · obtain ⟨front, hfront⟩ :=
        ih (c :: name) (by simp [hslash, Ne.symm hc]) (List.cons_ne_nil c name)
      exact ⟨front ++ [c], by rw [hfront, List.append_assoc]; rfl⟩

/-- The name of a test runner: the last component of its path, up to the suffix. -/
def IsRunnerName (testRunnerPath name : String) : Prop :=
  NSString.lastPathComponent testRunnerPath = name ++ runnerSuffix

/-- A path with the suffix is one of a test runner with a name. -/
theorem exists_isRunnerName {testRunnerPath : String}
    (h : NSString.hasSuffix testRunnerPath runnerSuffix = true) :
    ∃ name, IsRunnerName testRunnerPath name := by
  obtain ⟨dir, hdir⟩ := List.isSuffixOf_iff_suffix.mp h
  obtain ⟨front, hfront⟩ :=
    exists_getLast?_components dir runnerSuffix.toList (by decide) (by decide)
  refine ⟨String.ofList front, ?_⟩
  have hcomponents : ((testRunnerPath.toList.splitOn '/').filter (· ≠ [])).getLast? =
      some (front ++ runnerSuffix.toList) := by
    rw [← hdir]
    exact hfront
  rw [IsRunnerName, NSString.lastPathComponent, hcomponents]
  simp [String.ofList_append]

/-- A test runner has one name. -/
theorem IsRunnerName.unique {testRunnerPath name other : String}
    (h : IsRunnerName testRunnerPath name) (h' : IsRunnerName testRunnerPath other) :
    other = name := by
  have heq := congrArg String.toList (h'.symm.trans h)
  rw [String.toList_append, String.toList_append] at heq
  exact String.toList_inj.mp (List.append_cancel_right heq)

/-- The suffix is a hyphen and text without one. -/
theorem toList_runnerSuffix : runnerSuffix.toList = '-' :: "Runner.app".toList := rfl

/-- The components of the name with the suffix. -/
theorem IsRunnerName.components {testRunnerPath name : String}
    (h : IsRunnerName testRunnerPath name) :
    NSString.componentsSeparatedByString (NSString.lastPathComponent testRunnerPath) runnerSuffix =
      (NSString.componentsFrom runnerSuffix.toList 0
        (name.toList ++ runnerSuffix.toList)).map String.ofList := by
  rw [h, NSString.componentsSeparatedByString, String.toList_append]

/-- The name is split off where the suffix does not occur in it. -/
theorem IsRunnerName.components_eq {testRunnerPath name : String}
    (h : IsRunnerName testRunnerPath name)
    (hname : NSString.containsString name runnerSuffix = false) :
    NSString.componentsSeparatedByString (NSString.lastPathComponent testRunnerPath) runnerSuffix =
      [name, ""] := by
  have hfree : ¬ runnerSuffix.toList <:+: name.toList := of_decide_eq_false hname
  rw [toList_runnerSuffix] at hfree
  rw [h.components, toList_runnerSuffix,
    NSString.componentsFrom_append_of_not_infix (by decide) hfree]
  simp

/-- Elsewhere there are more than two components. -/
theorem IsRunnerName.length_components_ne {testRunnerPath name : String}
    (h : IsRunnerName testRunnerPath name)
    (hname : NSString.containsString name runnerSuffix = true) :
    (NSString.componentsSeparatedByString (NSString.lastPathComponent testRunnerPath)
      runnerSuffix).length ≠ 2 := by
  have hinfix : runnerSuffix.toList <:+: name.toList := of_decide_eq_true hname
  have hlong := NSString.two_lt_length_componentsFrom (by decide) hinfix
  rw [h.components, List.length_map]
  omega

/-- The path of the bundle is appended after a slash. -/
theorem appendPathComponent_bundle {testRunnerPath : String}
    (h : NSString.hasSuffix testRunnerPath runnerSuffix = true) (name : String) :
    NSString.stringByAppendingPathComponent testRunnerPath
        (NSString.stringByAppendingPathComponent "PlugIns" (name ++ ".xctest")) =
      testRunnerPath ++ "/PlugIns/" ++ name ++ ".xctest" := by
  have hsuffix := List.isSuffixOf_iff_suffix.mp h
  have hne : testRunnerPath ≠ "" := by
    rintro rfl
    exact absurd (List.suffix_nil.mp hsuffix) (by decide)
  have hslash : NSString.hasSuffix testRunnerPath "/" = false := by
    rw [NSString.hasSuffix, Bool.eq_false_iff, Ne, List.isSuffixOf_iff_suffix]
    intro hend
    have hwithin := List.suffix_of_suffix_length_le hend hsuffix (by decide)
    exact absurd hwithin (by decide)
  have hplugIns : NSString.hasSuffix "PlugIns" "/" = false := by decide
  rw [NSString.stringByAppendingPathComponent, NSString.stringByAppendingPathComponent]
  have hplugInsPath : "/PlugIns/" = "/" ++ ("PlugIns" ++ "/") := rfl
  simp only [hne, hslash, hplugIns, hplugInsPath, decide_false, Bool.or_self, Bool.false_eq_true,
    if_false, String.reduceEq, String.append_assoc]

/-- **When a path is that of a test runner.** It ends with the suffix, which does not occur in the
name before. -/
theorem xctestBundlePathForTestRunnerAtPath_eq_ok_iff {testRunnerPath bundlePath : String} :
    xctestBundlePathForTestRunnerAtPath testRunnerPath = .ok bundlePath ↔
      NSString.hasSuffix testRunnerPath runnerSuffix = true ∧ ∃ name,
        IsRunnerName testRunnerPath name ∧ NSString.containsString name runnerSuffix = false ∧
          bundlePath = testRunnerPath ++ "/PlugIns/" ++ name ++ ".xctest" := by
  unfold xctestBundlePathForTestRunnerAtPath
  by_cases hsuffix : NSString.hasSuffix testRunnerPath runnerSuffix = true
  · obtain ⟨name, hname⟩ := exists_isRunnerName hsuffix
    rw [if_neg (by simp [hsuffix])]
    -- the suffix splits the name in two unless it is in there once more
    cases hfree : NSString.containsString name runnerSuffix with
    | true =>
      rw [if_pos (hname.length_components_ne hfree)]
      refine iff_of_false nofun ?_
      rintro ⟨-, other, hother, hotherFree, -⟩
      rw [hname.unique hother, hfree] at hotherFree
      cases hotherFree
    | false =>
      rw [hname.components_eq hfree, if_neg (by simp)]
      have hbundle : NSString.stringByAppendingPathComponent testRunnerPath
          (NSString.stringByAppendingPathComponent "PlugIns" (name ++ ".xctest")) =
            testRunnerPath ++ "/PlugIns/" ++ name ++ ".xctest" :=
        appendPathComponent_bundle hsuffix name
      simp only [List.headD_cons, hbundle, Except.ok.injEq, hsuffix, true_and]
      constructor
      · rintro rfl
        exact ⟨name, hname, hfree, rfl⟩
      · rintro ⟨other, hother, -, rfl⟩
        rw [hname.unique hother]
  · rw [if_pos (by simpa using hsuffix)]
    exact iff_of_false nofun fun h => hsuffix h.1

/-- The product name is the name of the runner exactly if that has no hyphen. -/
theorem IsRunnerName.runnerProductName_eq_iff {testRunnerPath name : String}
    (h : IsRunnerName testRunnerPath name) :
    XCTestConfigurationPlist.runnerProductName testRunnerPath = name ↔ '-' ∉ name.toList := by
  have htext : (name ++ runnerSuffix).toList = name.toList ++ '-' :: "Runner.app".toList := by
    rw [String.toList_append, toList_runnerSuffix]
  rw [XCTestConfigurationPlist.runnerProductName, h, NSString.firstComponent, htext]
  constructor
  · intro heq hmem
    -- the first component ends at the first hyphen
    obtain ⟨front, rest, hname, hfront⟩ := List.eq_append_cons_of_mem hmem
    rw [hname, List.append_assoc, List.cons_append, List.splitOn_append_cons_self,
      List.splitOn_eq_singleton hfront] at heq
    have hlength := congrArg (fun s => s.toList.length) heq
    simp [hname] at hlength
  · intro hfree
    rw [List.splitOn_append_cons_self, List.splitOn_eq_singleton hfree]
    simp

/-! ## One name in two places -/

/-- The path of the bundle and the product name are both those of the name of the test runner. -/
def NamesTestBundle (testRunnerPath bundlePath : String) : Prop :=
  ∃ name, IsRunnerName testRunnerPath name ∧
    NSString.hasSuffix bundlePath ("/PlugIns/" ++ name ++ ".xctest") = true ∧
    XCTestConfigurationPlist.runnerProductName testRunnerPath = name

/-- **The product name is that of the test bundle for names without a hyphen.** For every path for
which there is a test bundle: both names are that of the test runner exactly if it has no hyphen. -/
theorem namesTestBundle_iff {testRunnerPath bundlePath : String}
    (h : xctestBundlePathForTestRunnerAtPath testRunnerPath = .ok bundlePath) :
    NamesTestBundle testRunnerPath bundlePath ↔
      ∀ name, IsRunnerName testRunnerPath name → '-' ∉ name.toList := by
  obtain ⟨-, name, hname, -, rfl⟩ := xctestBundlePathForTestRunnerAtPath_eq_ok_iff.mp h
  constructor
  · rintro ⟨found, hfound, -, hproduct⟩ other hother
    rw [hfound.unique hother]
    exact hfound.runnerProductName_eq_iff.mp hproduct
  · intro hfree
    refine ⟨name, hname, ?_, hname.runnerProductName_eq_iff.mpr (hfree name hname)⟩
    have hend := NSString.hasSuffix_append testRunnerPath ("/PlugIns/" ++ name ++ ".xctest")
    simpa only [String.append_assoc] using hend

/-- The runner of the unit tests has no hyphen in its name. -/
theorem namesTestBundle_iff_test :
    NamesTestBundle "some/Test-Runner.app" "some/Test-Runner.app/PlugIns/Test.xctest" ↔
      ∀ name, IsRunnerName "some/Test-Runner.app" name → '-' ∉ name.toList :=
  namesTestBundle_iff (by decide +kernel)

/-- For `My-App-Runner.app` the product name is `My`, and the bundle `My-App.xctest`. -/
theorem not_namesTestBundle_hyphen :
    xctestBundlePathForTestRunnerAtPath "some/My-App-Runner.app" =
        .ok "some/My-App-Runner.app/PlugIns/My-App.xctest" ∧
      XCTestConfigurationPlist.runnerProductName "some/My-App-Runner.app" = "My" ∧
      ¬ NamesTestBundle "some/My-App-Runner.app"
        "some/My-App-Runner.app/PlugIns/My-App.xctest" := by
  have hproduct : XCTestConfigurationPlist.runnerProductName "some/My-App-Runner.app" = "My" := by
    decide +kernel
  refine ⟨by decide +kernel, hproduct, ?_⟩
  rintro ⟨name, -, hbundle, hname⟩
  rw [← hname, hproduct] at hbundle
  exact absurd hbundle (by decide +kernel)

end Device

end IOSDeviceManager
