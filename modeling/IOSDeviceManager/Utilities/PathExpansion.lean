import IOSDeviceManager.General.LexicalPath
import IOSDeviceManager.Utilities.FileUtils

/-! # What `expandPath:` makes of a path

A path is resolved against the current directory, unless it begins with a dot and a name: then the
dot is replaced, and the name is glued to that of the current directory. -/

namespace IOSDeviceManager

open General

namespace NSString

/-- A prefix of one character is the first character. -/
theorem hasPrefix_eq_head? {s str : String} {c : Char} (hstr : str.toList = [c]) :
    hasPrefix s str = (s.toList.head? == some c) := by
  rw [hasPrefix, hstr]
  cases s.toList with
  | nil => rfl
  | cons d cs => simp [List.isPrefixOf, Bool.beq_comm]

/-- Whatever is appended, an absolute path stays one. -/
theorem toList_stringByAppendingPathComponent {s : String} {cs : List Char}
    (hs : s.toList = '/' :: cs) (component : String) :
    ∃ more, (stringByAppendingPathComponent s component).toList = '/' :: more := by
  unfold stringByAppendingPathComponent
  split <;> simp [String.toList_append, hs]

end NSString

namespace FileUtils

open LexicalPath NSString

/-- The lexical normal form of an absolute path. -/
def lexical (path : String) : String :=
  String.ofList (normalize path.toList)

/-- `stringByStandardizingPath`: a leading `~` is expanded to an absolute path, and the absolute
path is brought to its normal form. -/
structure StandardizesLexically
    (stringByStandardizingPath stringByExpandingTildeInPath : String → String) : Prop where
  absolute : ∀ path, hasPrefix path "/" = true → stringByStandardizingPath path = lexical path
  home : ∀ path, hasPrefix path "~" = true →
    hasPrefix (stringByExpandingTildeInPath path) "/" = true ∧
      stringByStandardizingPath path = lexical (stringByExpandingTildeInPath path)

/-- The path begins with a dot and a name: after the dot there is neither another one nor a
slash. -/
def IsDotName (path : String) : Prop :=
  ∃ c cs, path.toList = '.' :: c :: cs ∧ c ≠ '.' ∧ c ≠ '/'

/-- The path is resolved against the current directory, and once is enough. -/
structure Resolves (currentDirectory : String) (stringByStandardizingPath : String → String)
    (path : String) : Prop where
  result : expandPath currentDirectory stringByStandardizingPath path =
    if hasPrefix path "/" || hasPrefix path "~" then stringByStandardizingPath path
    else stringByStandardizingPath (currentDirectory ++ "/" ++ path)
  again : expandPath currentDirectory stringByStandardizingPath
      (expandPath currentDirectory stringByStandardizingPath path) =
    expandPath currentDirectory stringByStandardizingPath path

variable {currentDirectory path : String}
  {stringByStandardizingPath stringByExpandingTildeInPath : String → String}

theorem hasPrefix_dots {path : String} :
    hasPrefix path ".." = true ↔ ∃ cs, path.toList = '.' :: '.' :: cs := by
  rw [hasPrefix, show "..".toList = ['.', '.'] by decide]
  constructor
  · intro h
    obtain ⟨cs, hcs⟩ := List.isPrefixOf_iff_prefix.mp h
    exact ⟨cs, hcs.symm⟩
  · rintro ⟨cs, hcs⟩
    exact List.isPrefixOf_iff_prefix.mpr ⟨cs, hcs.symm⟩

theorem hasPrefix_dot : hasPrefix path "." = (path.toList.head? == some '.') :=
  hasPrefix_eq_head? (by decide)

theorem hasPrefix_slash : hasPrefix path "/" = (path.toList.head? == some '/') :=
  hasPrefix_eq_head? (by decide)

theorem hasPrefix_tilde : hasPrefix path "~" = (path.toList.head? == some '~') :=
  hasPrefix_eq_head? (by decide)

/-- What is appended to a directory has the components of the two with a slash between them. -/
theorem components_stringByAppendingPathComponent (directory : String)
    (hdirectory : hasPrefix directory "/" = true) (path : String) :
    components (stringByAppendingPathComponent directory path).toList =
      components (directory ++ "/" ++ path).toList := by
  have hslash : "/".toList = ['/'] := by decide
  unfold stringByAppendingPathComponent
  split
  · rename_i hends
    have hsuffix : hasSuffix directory "/" = true := by
      rcases Bool.or_eq_true_iff.mp hends with hempty | hsuffix
      · rw [of_decide_eq_true hempty] at hdirectory
        cases hdirectory
      · exact hsuffix
    rw [hasSuffix, hslash, List.isSuffixOf_iff_suffix] at hsuffix
    obtain ⟨above, habove⟩ := hsuffix
    -- The directory ends in a slash: there are two of them on the right.
    rw [String.toList_append, String.toList_append, String.toList_append, hslash, ← habove]
    simp only [List.append_assoc, List.cons_append, List.nil_append]
    rw [components_append_slash, components_append_slash, components_slash_cons]
  · rfl

theorem head?_of_absolute {directory : String} (h : hasPrefix directory "/" = true) :
    ∃ cs, directory.toList = '/' :: cs := by
  rw [hasPrefix_slash, beq_iff_eq, List.head?_eq_some_iff] at h
  exact h

/-- A path that begins with a slash or a tilde goes to `stringByStandardizingPath` as it is. -/
theorem expandPath_of_absolute (h : (hasPrefix path "/" || hasPrefix path "~") = true) :
    expandPath currentDirectory stringByStandardizingPath path = stringByStandardizingPath path := by
  have hhead : path.toList.head? = some '/' ∨ path.toList.head? = some '~' := by
    simpa [hasPrefix_slash, hasPrefix_tilde] using h
  have hdot : hasPrefix path "." = false := by
    rw [hasPrefix_dot]
    rcases hhead with hhead | hhead <;> rw [hhead] <;> decide
  have hdots : ¬ hasPrefix path ".." = true := by
    intro hdots
    obtain ⟨cs, hcs⟩ := hasPrefix_dots.mp hdots
    rw [hcs] at hhead
    simp at hhead
  have hthird : (!hasPrefix path "/" && !hasPrefix path "~") = false := by
    rw [← Bool.not_or, h]
    rfl
  simp only [expandPath, if_neg hdots, hdot, Bool.false_eq_true, if_false, hthird]

/-- Below an absolute current directory, nothing more is done to the path. -/
theorem expandPath_of_dots (hdirectory : hasPrefix currentDirectory "/" = true)
    (hdots : hasPrefix path ".." = true) :
    expandPath currentDirectory stringByStandardizingPath path =
      stringByStandardizingPath (stringByAppendingPathComponent currentDirectory path) := by
  obtain ⟨cs, hcs⟩ := head?_of_absolute hdirectory
  obtain ⟨more, hmore⟩ := toList_stringByAppendingPathComponent hcs path
  have hdot : hasPrefix (stringByAppendingPathComponent currentDirectory path) "." = false := by
    rw [hasPrefix_dot, hmore]
    rfl
  have hslash : hasPrefix (stringByAppendingPathComponent currentDirectory path) "/" = true := by
    rw [hasPrefix_slash, hmore]
    rfl
  simp only [expandPath, if_pos hdots, hdot, Bool.false_eq_true, if_false, hslash, Bool.not_true,
    Bool.false_and]

/-- After one dot, what follows it is put after the current directory as it stands. -/
theorem expandPath_of_dot {cs : List Char} (hdirectory : hasPrefix currentDirectory "/" = true)
    (hpath : path.toList = '.' :: cs) (hone : ¬ hasPrefix path ".." = true) :
    expandPath currentDirectory stringByStandardizingPath path =
      stringByStandardizingPath (currentDirectory ++ String.ofList cs) := by
  obtain ⟨above, habove⟩ := head?_of_absolute hdirectory
  have hdot : hasPrefix path "." = true := by
    rw [hasPrefix_dot, hpath]
    rfl
  have hslash : hasPrefix (currentDirectory ++ String.ofList cs) "/" = true := by
    rw [hasPrefix_slash, String.toList_append, habove]
    rfl
  simp only [expandPath, if_neg hone, hdot, if_true, hpath, List.drop_one, List.tail_cons, hslash,
    Bool.not_true, Bool.false_and, Bool.false_eq_true, if_false]

/-- Any other relative path is appended to the current directory. -/
theorem expandPath_of_plain (hone : hasPrefix path "." = false)
    (h : (hasPrefix path "/" || hasPrefix path "~") = false) :
    expandPath currentDirectory stringByStandardizingPath path =
      stringByStandardizingPath (stringByAppendingPathComponent currentDirectory path) := by
  have hdots : ¬ hasPrefix path ".." = true := by
    intro hdots
    obtain ⟨cs, hcs⟩ := hasPrefix_dots.mp hdots
    rw [hasPrefix_dot, hcs] at hone
    simp at hone
  have hthird : (!hasPrefix path "/" && !hasPrefix path "~") = true := by
    rw [← Bool.not_or, h]
    rfl
  simp only [expandPath, if_neg hdots, hone, Bool.false_eq_true, if_false, if_pos hthird]

/-- The result of `expandPath:` is in normal form. -/
theorem exists_lexical (hstd : StandardizesLexically stringByStandardizingPath
    stringByExpandingTildeInPath) (hdirectory : hasPrefix currentDirectory "/" = true)
    (path : String) :
    ∃ text, expandPath currentDirectory stringByStandardizingPath path = lexical text := by
  obtain ⟨cs, hcs⟩ := head?_of_absolute hdirectory
  have happended : ∀ more, hasPrefix (currentDirectory ++ more) "/" = true := by
    intro more
    rw [hasPrefix_slash, String.toList_append, hcs]
    rfl
  obtain ⟨below, hbelow⟩ := toList_stringByAppendingPathComponent hcs path
  have hcomponent : hasPrefix (stringByAppendingPathComponent currentDirectory path) "/" = true := by
    rw [hasPrefix_slash, hbelow]
    rfl
  by_cases habsolute : (hasPrefix path "/" || hasPrefix path "~") = true
  · rw [expandPath_of_absolute habsolute]
    rcases Bool.or_eq_true_iff.mp habsolute with hslash | htilde
    · exact ⟨_, hstd.absolute path hslash⟩
    · exact ⟨_, (hstd.home path htilde).2⟩
  · by_cases hdots : hasPrefix path ".." = true
    · exact ⟨_, (expandPath_of_dots hdirectory hdots).trans (hstd.absolute _ hcomponent)⟩
    · cases hdot : hasPrefix path "." with
      | true =>
        rw [hasPrefix_dot, beq_iff_eq, List.head?_eq_some_iff] at hdot
        obtain ⟨more, hmore⟩ := hdot
        exact ⟨_, (expandPath_of_dot hdirectory hmore hdots).trans
          (hstd.absolute _ (happended _))⟩
      | false =>
        exact ⟨_, (expandPath_of_plain hdot (Bool.eq_false_iff.mpr habsolute)).trans
          (hstd.absolute _ hcomponent)⟩

/-- **Expanding twice.** An expanded path is absolute and in normal form. -/
theorem expandPath_expandPath (hstd : StandardizesLexically stringByStandardizingPath
    stringByExpandingTildeInPath) (hdirectory : hasPrefix currentDirectory "/" = true)
    (path : String) :
    expandPath currentDirectory stringByStandardizingPath
        (expandPath currentDirectory stringByStandardizingPath path) =
      expandPath currentDirectory stringByStandardizingPath path := by
  obtain ⟨text, htext⟩ := exists_lexical hstd hdirectory path
  have hslash : hasPrefix (lexical text) "/" = true := by
    rw [hasPrefix_slash, lexical, String.toList_ofList]
    rfl
  rw [htext, expandPath_of_absolute (by rw [hslash]; rfl), hstd.absolute _ hslash, lexical,
    lexical, String.toList_ofList, normalize_normalize]

/-! ## Where paths are resolved -/

/-- A path that is not glued to the current directory is resolved against it. -/
theorem result_of_not_isDotName (hstd : StandardizesLexically stringByStandardizingPath
    stringByExpandingTildeInPath) (hdirectory : hasPrefix currentDirectory "/" = true)
    (hpath : ¬ IsDotName path) :
    expandPath currentDirectory stringByStandardizingPath path =
      if hasPrefix path "/" || hasPrefix path "~" then stringByStandardizingPath path
      else stringByStandardizingPath (currentDirectory ++ "/" ++ path) := by
  obtain ⟨above, habove⟩ := head?_of_absolute hdirectory
  have hstandard : ∀ text, hasPrefix text "/" = true →
      LexicalPath.normalize text.toList =
        LexicalPath.normalize (currentDirectory ++ "/" ++ path).toList →
      stringByStandardizingPath text =
        stringByStandardizingPath (currentDirectory ++ "/" ++ path) := by
    intro text htext hsame
    have hjoined : hasPrefix (currentDirectory ++ "/" ++ path) "/" = true := by
      rw [hasPrefix_slash, String.toList_append, String.toList_append, habove]
      rfl
    rw [hstd.absolute _ htext, hstd.absolute _ hjoined, lexical, lexical, hsame]
  have happend : stringByStandardizingPath (stringByAppendingPathComponent currentDirectory path) =
      stringByStandardizingPath (currentDirectory ++ "/" ++ path) := by
    obtain ⟨more, hmore⟩ := toList_stringByAppendingPathComponent habove path
    refine hstandard _ ?_
      (normalize_congr (components_stringByAppendingPathComponent _ hdirectory path))
    rw [hasPrefix_slash, hmore]
    rfl
  by_cases habsolute : (hasPrefix path "/" || hasPrefix path "~") = true
  · rw [if_pos habsolute, expandPath_of_absolute habsolute]
  · rw [if_neg habsolute]
    by_cases hdots : hasPrefix path ".." = true
    · rw [expandPath_of_dots hdirectory hdots, happend]
    · cases hdot : hasPrefix path "." with
      | false => rw [expandPath_of_plain hdot (Bool.eq_false_iff.mpr habsolute), happend]
      | true =>
        rw [hasPrefix_dot, beq_iff_eq, List.head?_eq_some_iff] at hdot
        obtain ⟨cs, hcs⟩ := hdot
        rw [expandPath_of_dot hdirectory hcs hdots]
        refine hstandard _ ?_ ?_
        · rw [hasPrefix_slash, String.toList_append, habove]
          rfl
        · -- The dot is alone, or a slash follows it: it is a component that stands for nothing.
          have hslash : "/".toList = ['/'] := by decide
          rw [String.toList_append, String.toList_append, String.toList_append,
            String.toList_ofList, hslash, hcs, List.append_assoc, List.singleton_append]
          cases cs with
          | nil => rw [List.append_nil, normalize_append_dot]
          | cons c cs =>
            have hnotDots : c ≠ '.' := fun h => hdots (hasPrefix_dots.mpr ⟨cs, h ▸ hcs⟩)
            obtain rfl : c = '/' := by
              by_contra hc
              exact hpath ⟨c, cs, hcs, hnotDots, hc⟩
            rw [normalize_append_dot_slash]

/-- In a deep directory, a name after a dot is not where it is looked for. -/
theorem result_ne_of_isDotName (hstd : StandardizesLexically stringByStandardizingPath
    stringByExpandingTildeInPath) (hpath : IsDotName path) :
    ∃ currentDirectory, hasPrefix currentDirectory "/" = true ∧
      expandPath currentDirectory stringByStandardizingPath path ≠
        stringByStandardizingPath (currentDirectory ++ "/" ++ path) := by
  obtain ⟨c, cs, hcs, hdot, hslash⟩ := hpath
  have hslashText : "/".toList = ['/'] := by decide
  have hone : ¬ hasPrefix path ".." = true := by
    intro hdots
    obtain ⟨more, hmore⟩ := hasPrefix_dots.mp hdots
    rw [hmore] at hcs
    simp only [List.cons.injEq, true_and] at hcs
    exact hdot hcs.1.symm
  obtain ⟨first, rest, hcomponents⟩ := exists_components_append hslash cs
  -- Deep enough for all the `..` that may come.
  let n := rest.length
  have habsolute : ∀ more, hasPrefix (String.ofList (deep (n + 1)) ++ more) "/" = true := by
    intro more
    rw [hasPrefix_slash, String.toList_append, String.toList_ofList]
    rfl
  have hdirectory : hasPrefix (String.ofList (deep (n + 1))) "/" = true := by
    rw [hasPrefix_slash, String.toList_ofList]
    rfl
  refine ⟨String.ofList (deep (n + 1)), hdirectory, fun hsame => ?_⟩
  rw [expandPath_of_dot hdirectory hcs hone, hstd.absolute _ (habsolute _),
    String.append_assoc, hstd.absolute _ (habsolute _), lexical, lexical,
    String.ofList_inj, normalize_eq_iff] at hsame
  rw [String.toList_append, String.toList_append, String.toList_append, String.toList_ofList,
    String.toList_ofList, hslashText, hcs] at hsame
  have hglue : deep (n + 1) ++ c :: cs = deep n ++ '/' :: (['a'] ++ c :: cs) := by
    rw [deep_succ]
    simp
  have hglued := hcomponents ['a'] (by decide)
  have hapart := hcomponents ['.'] (by decide)
  have hgluedPlain : IsPlain (['a'] ++ c :: first) := by
    obtain ⟨hne, hnoSlash⟩ := of_mem_components (hglued ▸ List.mem_cons_self)
    exact ⟨hne, hnoSlash, by simp, by simp⟩
  have hapartPlain : IsPlain (['.'] ++ c :: first) := by
    obtain ⟨hne, hnoSlash⟩ := of_mem_components (hapart ▸ List.mem_cons_self)
    exact ⟨hne, hnoSlash, by simp, by simp [hdot]⟩
  -- There is a name more on the right, and not enough `..` to get rid of it.
  have hlength := length_foldl_resolve rest
    (show (List.replicate (n + 1) ['a'] ++ [['.'] ++ c :: first]).length =
      (List.replicate n ['a'] ++ [['a'] ++ c :: first]).length + 1 by simp) (by simp [n])
  rw [← normalComponents_deep_append n hglued hgluedPlain,
    ← normalComponents_deep_append (n + 1) hapart hapartPlain] at hlength
  rw [hglue] at hsame
  have hsameLength := congrArg List.length hsame
  simp only [List.cons_append, List.nil_append] at hsameLength hlength
  omega

/-- **Every path but a name after a dot.** A path is resolved against every current directory
exactly if it does not begin with a dot and a name. -/
theorem expandPath_resolves_iff (hstd : StandardizesLexically stringByStandardizingPath
    stringByExpandingTildeInPath) (path : String) :
    (∀ currentDirectory, hasPrefix currentDirectory "/" = true →
        Resolves currentDirectory stringByStandardizingPath path) ↔ ¬ IsDotName path := by
  constructor
  · intro h hname
    obtain ⟨currentDirectory, hdirectory, hne⟩ := result_ne_of_isDotName hstd hname
    obtain ⟨c, cs, hcs, -, -⟩ := hname
    have hrelative : ¬ (hasPrefix path "/" || hasPrefix path "~") = true := by
      rw [hasPrefix_slash, hasPrefix_tilde, hcs]
      exact Bool.false_ne_true
    have hresult := (h currentDirectory hdirectory).result
    rw [if_neg hrelative] at hresult
    exact hne hresult
  · intro hname currentDirectory hdirectory
    exact ⟨result_of_not_isDotName hstd hdirectory hname,
      expandPath_expandPath hstd hdirectory path⟩

/-- The home directory in place of the tilde. -/
def sampleHome (path : String) : String :=
  "/Users/calabash" ++ String.ofList (path.toList.drop 1)

/-- The normal form, after the home directory has been put in. -/
def sampleStandard (path : String) : String :=
  if hasPrefix path "~" then lexical (sampleHome path) else lexical path

theorem sampleStandard_lexically : StandardizesLexically sampleStandard sampleHome := by
  refine ⟨fun path hslash => ?_, fun path htilde => ⟨?_, if_pos htilde⟩⟩
  · refine if_neg fun htilde => ?_
    rw [hasPrefix_slash, beq_iff_eq] at hslash
    rw [hasPrefix_tilde, hslash] at htilde
    exact Bool.false_ne_true htilde
  · have hhome : "/Users/calabash".toList.head? = some '/' := by decide
    rw [hasPrefix_slash, sampleHome, String.toList_append, List.head?_append, hhome]
    rfl

theorem expandPath_resolves_parent : Resolves "/tmp" sampleStandard "../a" := by
  have hname : ¬ IsDotName "../a" := by
    rintro ⟨c, cs, hcs, hdot, -⟩
    rw [show "../a".toList = ['.', '.', '/', 'a'] by decide] at hcs
    simp only [List.cons.injEq, true_and] at hcs
    exact hdot hcs.1.symm
  exact (expandPath_resolves_iff sampleStandard_lexically "../a").mpr hname "/tmp" (by decide)

/-- `.hidden` in `/tmp` is taken for `/tmphidden`. -/
theorem expandPath_misses_hidden :
    StandardizesLexically sampleStandard sampleHome ∧ hasPrefix "/tmp" "/" = true ∧
      expandPath "/tmp" sampleStandard ".hidden" = "/tmphidden" ∧
      ¬ Resolves "/tmp" sampleStandard ".hidden" := by
  have htext : expandPath "/tmp" sampleStandard ".hidden" = "/tmphidden" := by decide +kernel
  refine ⟨sampleStandard_lexically, by decide, htext, fun h => ?_⟩
  have hresult := h.result
  rw [htext] at hresult
  revert hresult
  decide +kernel

end FileUtils

end IOSDeviceManager
