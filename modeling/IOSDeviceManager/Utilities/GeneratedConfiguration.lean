import IOSDeviceManager.Utilities.Placeholders
import IOSDeviceManager.Utilities.XCTestConfigurationPlist

/-! # Reading a generated test configuration

The text is read as the template with the arguments in their places if every argument survives: if,
with the later placeholders in it replaced, it stands for itself as character data. Of texts that
are read so in spite of an argument that does not survive, each has a `<` in an argument and a
placeholder's name in one. -/

namespace IOSDeviceManager

open General PropertyList Xml

namespace XCTestConfigurationPlist

variable {args : Arguments} {bytes : List UInt8}

/-- The placeholders of the template and what takes their places. -/
def substitution (args : Arguments) (bytes : List UInt8) : Substitution :=
  [("TEST_BUNDLE_URL".toList, "file://".toList ++ args.testInstallPath.toList),
    ("AUT_INSTALLED_PATH".toList, args.autHostPath.toList),
    ("AUT_BUNDLE_IDENTIFIER".toList, args.autBundleIdentifier.toList),
    ("RUNNER_INSTALLED_PATH".toList, args.runnerHostPath.toList),
    ("RUNNER_BUNDLE_IDENTIFIER".toList, args.runnerBundleIdentifier.toList),
    ("SESSION_IDENTIFIER".toList, Base64.encode bytes),
    ("RUNNER_PRODUCT_NAME".toList, (runnerProductName args.runnerHostPath).toList)]

/-- The property list that the template is with the values in the places of the placeholders. -/
def expected (values : Substitution) (bytes : List UInt8) : PropertyList (List UInt8) :=
  configuration.map values.carried fun _ => bytes

/-- The names of the placeholders. -/
def placeholders : List (List Char) :=
  ["TEST_BUNDLE_URL".toList, "AUT_INSTALLED_PATH".toList, "AUT_BUNDLE_IDENTIFIER".toList,
    "RUNNER_INSTALLED_PATH".toList, "RUNNER_BUNDLE_IDENTIFIER".toList,
    "SESSION_IDENTIFIER".toList, "RUNNER_PRODUCT_NAME".toList]

/-- The text is the template with its placeholders replaced. -/
theorem exists_plist (huuid : NSUUID.getUUIDBytes args.uuid = some bytes) :
    ∃ text, plistWithXCTestInstallPath args = some text ∧
      text.toList = (substitution args bytes).replaced (document configuration) := by
  refine ⟨_, by rw [plistWithXCTestInstallPath, huuid]; rfl, ?_⟩
  simp only [substitution, Substitution.replaced, NSString.replace, String.toList_ofList,
    String.toList_append, toList_template]

/-- The white space around the data of the template. -/
def sessionSpace : List Char :=
  '\n' :: List.replicate 12 ' '

/-- What it consists of. -/
theorem forall_mem_sessionSpace {p : Char → Prop} (hnewline : p '\n') (hblank : p ' ') :
    ∀ c ∈ sessionSpace, p c := by
  intro c hc
  rcases List.mem_cons.mp hc with rfl | hc
  · exact hnewline
  · rwa [List.eq_of_mem_replicate hc]

/-- The placeholders and the texts of the template, gone through one by one: every placeholder but
that of the session is a text, and all other texts are plain. -/
theorem placeholders_checked :
    (∀ name ∈ placeholders, '_' ∈ name) ∧
    placeholders.all (fun name => name.all fun c => !isMarkupChar c) = true ∧
    (placeholders.Pairwise fun earlier later => ¬ earlier <:+: later) ∧
    (texts configuration).all (fun s => placeholders.contains s ||
      s.all fun c => isPlain c && c != '_') = true ∧
    (∀ name ∈ placeholders,
      name ∈ texts configuration ∨ name = "SESSION_IDENTIFIER".toList) ∧
    dataOf configuration = [sessionSpace ++ ("SESSION_IDENTIFIER".toList ++ sessionSpace)] ∧
    header = header.dropLast ++ ['\n'] ∧ '_' ∉ header.dropLast :=
  ⟨by decide +kernel, by decide +kernel, by decide +kernel, by decide +kernel, by decide +kernel,
    by decide +kernel, by decide +kernel, by decide +kernel⟩

/-- The names of the placeholders are told apart from markup. -/
theorem isPlaceholder_of_mem : ∀ name ∈ placeholders, Substitution.IsPlaceholder name := by
  obtain ⟨hunderscore, hmarkup, -⟩ := placeholders_checked
  intro name hname
  refine ⟨hunderscore name hname, fun c hc => ?_⟩
  have hchars := List.all_eq_true.mp hmarkup name hname
  exact Bool.not_eq_true' _ ▸ List.all_eq_true.mp hchars c hc

/-- The texts of the template are placeholders or plain. -/
theorem texts_configuration {s : List Char} (hs : s ∈ texts configuration) :
    s ∈ placeholders ∨ ('_' ∉ s ∧ ∀ c ∈ s, isPlain c = true) := by
  obtain ⟨-, -, -, hall, -⟩ := placeholders_checked
  have hs := List.all_eq_true.mp hall s hs
  rw [Bool.or_eq_true, List.contains_iff_mem, List.all_eq_true] at hs
  refine hs.imp id fun hchars => ⟨fun hmem => ?_, fun c hc => ?_⟩
  · exact absurd (hchars '_' hmem) (by decide)
  · exact (Bool.and_eq_true_iff.mp (hchars c hc)).1

section Read

variable {values : Substitution}

/-- The names in the substitution. -/
theorem isPlaceholder_of_names (hnames : values.map Prod.fst = placeholders) :
    ∀ entry ∈ values, Substitution.IsPlaceholder entry.1 :=
  fun _ hentry => isPlaceholder_of_mem _ (hnames ▸ List.mem_map_of_mem hentry)

/-- No name in the substitution contains an earlier one. -/
theorem apart_of_names (hnames : values.map Prod.fst = placeholders) : values.Apart := by
  obtain ⟨-, -, hapart, -⟩ := placeholders_checked
  rw [← hnames, List.pairwise_map] at hapart
  exact hapart

/-- Text by text, the document of the template is rewritten. -/
theorem replaced_document (hnames : values.map Prod.fst = placeholders) :
    values.replaced (document configuration) =
      document (configuration.map values.replaced values.replaced) := by
  have hplaceholders := isPlaceholder_of_names hnames
  have hpasses := Substitution.passesMarkup_replaced hplaceholders
  obtain ⟨-, -, -, -, -, -, hsplit, hunderscore⟩ := placeholders_checked
  have hnil : values.replaced [] = [] :=
    Substitution.replaced_of_not_mem hplaceholders List.not_mem_nil
  refine hpasses.document (fun s => ?_) hnil configuration
  have hnewline : values.replaced ('\n' :: s) = '\n' :: values.replaced s :=
    hpasses.markup ['\n'] s (List.forall_mem_singleton.mpr (by decide))
  rw [hsplit, List.append_assoc, List.append_assoc, List.singleton_append,
    hpasses.text _ '\n' s (by decide), hnewline,
    Substitution.replaced_of_not_mem hplaceholders hunderscore, List.singleton_append]

/-- What takes the place of the data of the template is the text of the bytes. -/
theorem replaced_data (hnames : values.map Prod.fst = placeholders)
    (hsession : values.replaced "SESSION_IDENTIFIER".toList = Base64.encode bytes) :
    ∀ d ∈ dataOf configuration,
      values.replaced d = sessionSpace ++ (Base64.encode bytes ++ sessionSpace) := by
  have hpasses := Substitution.passesMarkup_replaced (isPlaceholder_of_names hnames)
  have hspace : ∀ c ∈ sessionSpace, isMarkupChar c = true :=
    forall_mem_sessionSpace (by decide) (by decide)
  have hnil : values.replaced [] = [] :=
    Substitution.replaced_of_not_mem (isPlaceholder_of_names hnames) List.not_mem_nil
  have hafter : values.replaced sessionSpace = sessionSpace := by
    have hmarkup := hpasses.markup sessionSpace [] hspace
    rwa [hnil, List.append_nil] at hmarkup
  obtain ⟨-, -, -, -, -, hdata, -⟩ := placeholders_checked
  rw [hdata]
  intro d hd
  rw [List.mem_singleton.mp hd, hpasses.markup _ _ hspace]
  congr 1
  rw [sessionSpace, hpasses.text _ '\n' _ (by decide), ← sessionSpace, hafter, hsession]

/-- The characters of data are plain. -/
theorem isPlain_data : ∀ c ∈ sessionSpace ++ (Base64.encode bytes ++ sessionSpace),
    isPlain c = true := by
  have hspace : ∀ c ∈ sessionSpace, isPlain c = true :=
    forall_mem_sessionSpace (by decide) (by decide)
  have hbytes : ∀ c ∈ Base64.encode bytes, isPlain c = true := by
    intro c hc
    refine isPlain_iff.mpr ⟨?_, ?_⟩
    · rintro rfl
      exact Base64.not_mem_encode (by decide) bytes hc
    · rintro rfl
      exact Base64.not_mem_encode (by decide) bytes hc
  exact List.forall_mem_append.mpr ⟨hspace, List.forall_mem_append.mpr ⟨hbytes, hspace⟩⟩

/-- What is left of data without white space. -/
theorem filter_data : (sessionSpace ++ (Base64.encode bytes ++ sessionSpace)).filter
    (fun c => !isSpace c) = Base64.encode bytes := by
  have hspace : sessionSpace.filter (fun c => !isSpace c) = [] :=
    List.filter_eq_nil_iff.mpr (forall_mem_sessionSpace (by decide) (by decide))
  have hbytes : ∀ c ∈ Base64.encode bytes, (!isSpace c) = true := by
    intro c hc
    rw [Bool.not_eq_true', isSpace]
    by_contra hspace
    simp only [Bool.not_eq_false, Bool.or_eq_true, beq_iff_eq] at hspace
    rcases hspace with ((rfl | rfl) | rfl) | rfl <;>
      exact Base64.not_mem_encode (by decide) bytes hc
  rw [List.filter_append, List.filter_append, hspace, List.filter_eq_self.mpr hbytes,
    List.nil_append, List.append_nil]

/-- The bytes are read from data. -/
theorem bytesOf_data : (characterData (sessionSpace ++ (Base64.encode bytes ++ sessionSpace))).bind
    bytesOf = some bytes := by
  rw [characterData_plain isPlain_data, Option.bind_some, bytesOf, filter_data]
  exact Base64.decode_eq_some_iff.mpr rfl

/-- **Where no value contains a tag, the values are read exactly if they survive.** -/
theorem read_eq_expected_iff (hnames : values.map Prod.fst = placeholders)
    (hsession : values.replaced "SESSION_IDENTIFIER".toList = Base64.encode bytes)
    (hcarried : values.carried "SESSION_IDENTIFIER".toList = Base64.encode bytes)
    (htags : ∀ entry ∈ values, '<' ∉ entry.2) :
    read (values.replaced (document configuration)) = some (expected values bytes) ↔
      values.Survives := by
  have hplaceholders := isPlaceholder_of_names hnames
  -- no tag comes in with a value, so each text stays in its element
  have htexts : ∀ s ∈ texts configuration, '<' ∉ values.replaced s := by
    intro s hs
    refine Substitution.not_mem_replaced htags ?_
    rcases texts_configuration hs with hplaceholder | ⟨-, hplain⟩
    · exact (isPlaceholder_of_mem s hplaceholder).not_mem (by decide)
    · exact fun hmem => absurd (hplain '<' hmem) (by decide)
  have hdata : ∀ d ∈ dataOf configuration, '<' ∉ values.replaced d := by
    intro d hd
    rw [replaced_data hnames hsession d hd]
    exact fun hmem => absurd (isPlain_data '<' hmem) (by decide)
  have hbytes : ∀ d ∈ dataOf configuration,
      (characterData (values.replaced d)).bind bytesOf = some bytes := by
    intro d hd
    rw [replaced_data hnames hsession d hd]
    exact bytesOf_data
  rw [replaced_document hnames, expected, read_document_map_iff htexts hdata,
    and_iff_left hbytes, Substitution.survives_iff hplaceholders (apart_of_names hnames)]
  constructor
  · obtain ⟨-, -, -, -, hintexts, -⟩ := placeholders_checked
    intro hread entry hentry
    have hname : entry.1 ∈ placeholders := hnames ▸ List.mem_map_of_mem hentry
    rcases hintexts entry.1 hname with htext | heq
    · exact hread entry.1 htext
    · rw [heq, hsession, hcarried]
      exact characterData_plain fun c hc =>
        isPlain_data c (List.mem_append_right _ (List.mem_append_left _ hc))
  · intro hsurvives s hs
    rcases texts_configuration hs with hplaceholder | ⟨hunderscore, hplain⟩
    · rw [← hnames] at hplaceholder
      obtain ⟨entry, hentry, rfl⟩ := List.mem_map.mp hplaceholder
      exact hsurvives entry hentry
    · rw [Substitution.replaced_of_not_mem hplaceholders hunderscore,
        Substitution.carried_of_not_mem hplaceholders hunderscore]
      exact characterData_plain hplain

/-- **Where no value contains a later placeholder, the values are not read unless they are
plain.** -/
theorem survives_of_read (hnames : values.map Prod.fst = placeholders)
    (hsession : values.replaced "SESSION_IDENTIFIER".toList = Base64.encode bytes)
    (hcarried : values.carried "SESSION_IDENTIFIER".toList = Base64.encode bytes)
    (hunnested : values.Unnested)
    (hread : read (values.replaced (document configuration)) = some (expected values bytes)) :
    values.Survives := by
  have hplaceholders := isPlaceholder_of_names hnames
  have hapart := apart_of_names hnames
  have hreplaced := Substitution.replaced_eq_carried hplaceholders hapart hunnested
  -- no value is replaced in again, so the texts cost what the carried ones cost
  have htexts : ∀ s ∈ texts configuration, textMeasure markupCost (values.replaced s) =
      textMeasure markupCost (values.carried s) := by
    intro s hs
    rcases texts_configuration hs with hplaceholder | ⟨hunderscore, -⟩
    · rw [← hnames] at hplaceholder
      obtain ⟨entry, hentry, rfl⟩ := List.mem_map.mp hplaceholder
      rw [hreplaced entry hentry]
    · rw [Substitution.replaced_of_not_mem hplaceholders hunderscore,
        Substitution.carried_of_not_mem hplaceholders hunderscore]
  have hdata : ∀ d ∈ dataOf configuration,
      textMeasure markupCost (values.replaced d) = bytesMeasure markupCost bytes := by
    intro d hd
    rw [replaced_data hnames hsession d hd, ← textMeasure_filter ofMarkup_markupCost, filter_data,
      bytesMeasure]
  rw [replaced_document hnames, expected] at hread
  -- what is read costs what was written: no markup is left for the values
  have hplain := isPlain_of_read_document hread htexts hdata
  rw [Substitution.survives_iff hplaceholders hapart]
  obtain ⟨-, -, -, -, hintexts, -⟩ := placeholders_checked
  intro entry hentry
  have hname : entry.1 ∈ placeholders := hnames ▸ List.mem_map_of_mem hentry
  rw [hreplaced entry hentry]
  rcases hintexts entry.1 hname with htext | heq
  · exact characterData_plain (hplain entry.1 htext)
  · rw [heq, hcarried]
    exact characterData_plain fun c hc =>
      isPlain_data c (List.mem_append_right _ (List.mem_append_left _ hc))

end Read

/-- The names in the substitution are the placeholders. -/
theorem map_substitution (args : Arguments) (bytes : List UInt8) :
    (substitution args bytes).map Prod.fst = placeholders := rfl

/-- The text of the session is put in as it is, and stays. -/
theorem substitution_session (args : Arguments) (bytes : List UInt8) :
    (substitution args bytes).replaced "SESSION_IDENTIFIER".toList = Base64.encode bytes ∧
      (substitution args bytes).carried "SESSION_IDENTIFIER".toList = Base64.encode bytes := by
  have hplaceholders := isPlaceholder_of_names (map_substitution args bytes)
  have hapart := apart_of_names (map_substitution args bytes)
  have hsplit : substitution args bytes = (substitution args bytes).take 5 ++
      ("SESSION_IDENTIFIER".toList, Base64.encode bytes) :: (substitution args bytes).drop 6 := rfl
  have hlater : ∀ entry ∈ (substitution args bytes).drop 6,
      Substitution.IsPlaceholder entry.1 :=
    fun entry hentry => hplaceholders entry (List.mem_of_mem_drop hentry)
  have hunderscore : '_' ∉ Base64.encode bytes := Base64.not_mem_encode (by decide) bytes
  rw [hsplit] at hplaceholders hapart
  obtain ⟨hreplaced, hcarried⟩ := Substitution.replaced_of_split hplaceholders hapart
  rw [← hsplit] at hreplaced hcarried
  exact ⟨hreplaced.trans (Substitution.replaced_of_not_mem hlater hunderscore), hcarried⟩

/-- **The generated property list carries its values** if they survive, and does not otherwise,
unless one value contains a tag and one the name of a later placeholder. -/
theorem plist_carries_values (args : Arguments) (bytes : List UInt8)
    (huuid : NSUUID.getUUIDBytes args.uuid = some bytes) :
    ∃ text, plistWithXCTestInstallPath args = some text ∧
      ((substitution args bytes).Survives →
        read text.toList = some (expected (substitution args bytes) bytes)) ∧
      (read text.toList = some (expected (substitution args bytes) bytes) →
        (substitution args bytes).Survives ∨
          ((∃ entry ∈ substitution args bytes, '<' ∈ entry.2) ∧
            ¬ (substitution args bytes).Unnested)) := by
  obtain ⟨text, hplist, htext⟩ := exists_plist huuid
  have hnames := map_substitution args bytes
  obtain ⟨hsession, hcarried⟩ := substitution_session args bytes
  refine ⟨text, hplist, fun hsurvives => ?_, fun hread => ?_⟩
  · rw [htext]
    have htags := hsurvives.not_mem (isPlaceholder_of_names hnames)
    exact (read_eq_expected_iff hnames hsession hcarried htags).mpr hsurvives
  · rw [htext] at hread
    by_cases htags : ∀ entry ∈ substitution args bytes, '<' ∉ entry.2
    · exact .inl ((read_eq_expected_iff hnames hsession hcarried htags).mp hread)
    · by_cases hunnested : (substitution args bytes).Unnested
      · exact .inl (survives_of_read hnames hsession hcarried hunnested hread)
      · rw [not_forall₂] at htags
        obtain ⟨entry, hentry, htag⟩ := htags
        exact .inr ⟨⟨entry, hentry, not_not.mp htag⟩, hunnested⟩

/-- The arguments of a test run. -/
def sampleArguments (autHostPath : String) : Arguments where
  testInstallPath := "/t/My.xctest"
  autHostPath := autHostPath
  autBundleIdentifier := "com.example.AUT"
  runnerHostPath := "/t/AUT-Runner.app"
  runnerBundleIdentifier := "com.apple.test.AUT-Runner"
  uuid := "aaaaaaaa-bbbb-cccc-dddd-eeeeeeeeeeee"

/-- The bytes of its session. -/
def sampleBytes : List UInt8 :=
  [0xaa, 0xaa, 0xaa, 0xaa, 0xbb, 0xbb, 0xcc, 0xcc, 0xdd, 0xdd, 0xee, 0xee, 0xee, 0xee, 0xee, 0xee]

/-- Paths without special characters are carried. -/
theorem plist_carries_plain_path : ∃ text,
    plistWithXCTestInstallPath (sampleArguments "/t/AUT.app") = some text ∧
      read text.toList =
        some (expected (substitution (sampleArguments "/t/AUT.app") sampleBytes) sampleBytes) := by
  obtain ⟨text, hplist, hsurvives, -⟩ :=
    plist_carries_values (sampleArguments "/t/AUT.app") sampleBytes (by decide +kernel)
  exact ⟨text, hplist, hsurvives (by decide +kernel)⟩

/-- A path with an ampersand is lost, and the property list with it. -/
theorem plist_loses_ampersand : ∃ text,
    plistWithXCTestInstallPath (sampleArguments "/t/R&D.app") = some text ∧
      read text.toList ≠
        some (expected (substitution (sampleArguments "/t/R&D.app") sampleBytes) sampleBytes) := by
  have huuid : NSUUID.getUUIDBytes (sampleArguments "/t/R&D.app").uuid = some sampleBytes := by
    decide +kernel
  obtain ⟨text, hplist, htext⟩ := exists_plist huuid
  have hnames := map_substitution (sampleArguments "/t/R&D.app") sampleBytes
  obtain ⟨hsession, hcarried⟩ := substitution_session (sampleArguments "/t/R&D.app") sampleBytes
  have htags : ∀ entry ∈ substitution (sampleArguments "/t/R&D.app") sampleBytes,
      '<' ∉ entry.2 := by
    decide +kernel
  have hlost : ¬ (substitution (sampleArguments "/t/R&D.app") sampleBytes).Survives := by
    decide +kernel
  refine ⟨text, hplist, fun hread => hlost ?_⟩
  rw [htext] at hread
  exact (read_eq_expected_iff hnames hsession hcarried htags).mp hread

end XCTestConfigurationPlist

end IOSDeviceManager
