import Mathlib

/-! # The lexical normal form of an absolute path

The components of a text between slashes are resolved from left to right: empty components and `.`
stand for nothing, and `..` takes the component before it away, if there is one. -/

namespace IOSDeviceManager.General.LexicalPath

/-- What stands between slashes. -/
def components (path : List Char) : List (List Char) :=
  (path.splitOn '/').filter (· ≠ [])

/-- A component after those that are resolved. -/
def resolve (resolved : List (List Char)) (component : List Char) : List (List Char) :=
  if component = ['.'] then resolved
  else if component = ['.', '.'] then resolved.dropLast
  else resolved ++ [component]

/-- The components that are left of a path. -/
def normalComponents (path : List Char) : List (List Char) :=
  (components path).foldl resolve []

/-- The path with nothing left to resolve. -/
def normalize (path : List Char) : List Char :=
  '/' :: ['/'].intercalate (normalComponents path)

/-! ## Components -/

/-- A component has a name that is not one of the two special ones, and no slash. -/
def IsPlain (component : List Char) : Prop :=
  component ≠ [] ∧ '/' ∉ component ∧ component ≠ ['.'] ∧ component ≠ ['.', '.']

@[simp] theorem components_nil : components [] = [] := rfl

theorem components_append_slash (path below : List Char) :
    components (path ++ '/' :: below) = components path ++ components below := by
  rw [components, List.splitOn_append_cons_self, List.filter_append]
  rfl

theorem components_slash_cons (path : List Char) :
    components ('/' :: path) = components path :=
  components_append_slash [] path

/-- A text without a slash is one component. -/
theorem components_of_not_mem {name : List Char} (h : '/' ∉ name) (hne : name ≠ []) :
    components name = [name] := by
  rw [components, List.splitOn_eq_singleton h]
  simp [hne]

theorem not_mem_of_mem_splitOn {path group : List Char} (h : group ∈ path.splitOn '/') :
    '/' ∉ group := by
  induction path generalizing group with
  | nil =>
    obtain rfl := List.mem_singleton.mp h
    exact List.not_mem_nil
  | cons c path ih =>
    rw [List.splitOn_cons_eq_if_modifyHead] at h
    split at h
    · rcases List.mem_cons.mp h with rfl | h
      · exact List.not_mem_nil
      · exact ih h
    · rename_i hc
      obtain ⟨first, rest, hsplit⟩ := List.exists_cons_of_ne_nil (List.splitOn_ne_nil '/' path)
      rw [hsplit] at h ih
      rcases List.mem_cons.mp h with rfl | h
      · have hfirst := ih List.mem_cons_self
        rw [List.mem_cons, not_or]
        exact ⟨fun heq => hc (by simp [← heq]), hfirst⟩
      · exact ih (List.mem_cons_of_mem _ h)

/-- A component is not empty, and has no slash. -/
theorem of_mem_components {path component : List Char} (h : component ∈ components path) :
    component ≠ [] ∧ '/' ∉ component := by
  obtain ⟨hmem, hne⟩ := List.mem_filter.mp h
  exact ⟨by simpa using hne, not_mem_of_mem_splitOn hmem⟩

/-- What stands before a path without a slash between them becomes part of the first component. -/
theorem exists_components_append {c : Char} (hc : c ≠ '/') (path : List Char) :
    ∃ first rest, ∀ name, '/' ∉ name →
      components (name ++ c :: path) = (name ++ c :: first) :: rest := by
  by_cases hslash : '/' ∈ path
  · obtain ⟨first, below, rfl, hfirst⟩ := List.eq_append_cons_of_mem hslash
    refine ⟨first, components below, fun name hname => ?_⟩
    have hone : '/' ∉ name ++ c :: first := by simp [hname, hfirst, hc.symm]
    rw [← List.cons_append, ← List.append_assoc, components_append_slash,
      components_of_not_mem hone (by simp), List.singleton_append]
  · refine ⟨path, [], fun name hname => ?_⟩
    exact components_of_not_mem (by simp [hname, hslash, hc.symm]) (by simp)

/-! ## Resolving -/

/-- A name is appended. -/
theorem resolve_of_isPlain {name : List Char} (h : IsPlain name) (resolved : List (List Char)) :
    resolve resolved name = resolved ++ [name] := by
  rw [resolve, if_neg h.2.2.1, if_neg h.2.2.2]

/-- Names are not resolved any further. -/
theorem foldl_resolve_of_isPlain {names : List (List Char)} (h : ∀ name ∈ names, IsPlain name)
    (resolved : List (List Char)) : names.foldl resolve resolved = resolved ++ names := by
  induction names generalizing resolved with
  | nil => simp
  | cons name names ih =>
    rw [List.forall_mem_cons] at h
    rw [List.foldl_cons, resolve_of_isPlain h.1, ih h.2, List.append_assoc, List.singleton_append]

/-- What is left of components are names. -/
theorem isPlain_foldl_resolve {cs resolved : List (List Char)}
    (hcs : ∀ component ∈ cs, component ≠ [] ∧ '/' ∉ component)
    (hresolved : ∀ name ∈ resolved, IsPlain name) :
    ∀ name ∈ cs.foldl resolve resolved, IsPlain name := by
  induction cs generalizing resolved with
  | nil => exact hresolved
  | cons component cs ih =>
    rw [List.forall_mem_cons] at hcs
    refine ih hcs.2 fun name hname => ?_
    unfold resolve at hname
    split at hname
    · exact hresolved name hname
    · rename_i hdot
      split at hname
      · exact hresolved name (List.mem_of_mem_dropLast hname)
      · rename_i hup
        rcases List.mem_append.mp hname with hname | hname
        · exact hresolved name hname
        · obtain rfl := List.mem_singleton.mp hname
          exact ⟨hcs.1.1, hcs.1.2, hdot, hup⟩

theorem isPlain_of_mem_normalComponents {path name : List Char}
    (h : name ∈ normalComponents path) : IsPlain name :=
  isPlain_foldl_resolve (fun _ hc => of_mem_components hc) (by simp) name h

/-- The components of the normal form. -/
theorem components_normalize (path : List Char) :
    components (normalize path) = normalComponents path := by
  rw [normalize, components_slash_cons]
  by_cases hnone : normalComponents path = []
  · rw [hnone]
    rfl
  · rw [components, List.splitOn_intercalate '/'
      (fun name hname => (isPlain_of_mem_normalComponents hname).2.1) hnone]
    refine List.filter_eq_self.mpr fun name hname => ?_
    simpa using (isPlain_of_mem_normalComponents hname).1

/-- Paths have the same normal form exactly if the same components are left of them. -/
theorem normalize_eq_iff {path other : List Char} :
    normalize path = normalize other ↔ normalComponents path = normalComponents other := by
  constructor
  · intro h
    rw [← components_normalize, h, components_normalize]
  · intro h
    rw [normalize, normalize, h]

theorem normalize_congr {path other : List Char} (h : components path = components other) :
    normalize path = normalize other := by
  rw [normalize_eq_iff, normalComponents, normalComponents, h]

theorem components_dot : components ['.'] = [['.']] :=
  components_of_not_mem (by decide) (by decide)

/-- A dot at the end stands for nothing. -/
theorem normalize_append_dot (path : List Char) :
    normalize (path ++ ['/', '.']) = normalize path := by
  rw [normalize_eq_iff, normalComponents, normalComponents, components_append_slash,
    components_dot, List.foldl_append]
  rfl

/-- A dot between slashes stands for nothing. -/
theorem normalize_append_dot_slash (path below : List Char) :
    normalize (path ++ '/' :: '.' :: '/' :: below) = normalize (path ++ '/' :: below) := by
  have hdot : '.' :: '/' :: below = ['.'] ++ '/' :: below := rfl
  rw [normalize_eq_iff, normalComponents, normalComponents, components_append_slash,
    components_append_slash, hdot, components_append_slash, components_dot, List.foldl_append, List.foldl_append,
    List.foldl_append]
  rfl

/-- **Normalizing twice.** -/
theorem normalize_normalize (path : List Char) : normalize (normalize path) = normalize path := by
  rw [normalize_eq_iff, normalComponents, components_normalize,
    foldl_resolve_of_isPlain fun name hname => isPlain_of_mem_normalComponents hname,
    List.nil_append]

/-- As long as there is something to take away, one name more at the start is one name more at the
end. -/
theorem length_foldl_resolve (cs : List (List Char)) {resolved more : List (List Char)}
    (hmore : more.length = resolved.length + 1) (hdeep : cs.length ≤ resolved.length) :
    (cs.foldl resolve more).length = (cs.foldl resolve resolved).length + 1 := by
  induction cs generalizing resolved more with
  | nil => exact hmore
  | cons component cs ih =>
    rw [List.length_cons] at hdeep
    rw [List.foldl_cons, List.foldl_cons]
    apply ih
    · unfold resolve
      split
      · exact hmore
      · split
        · rw [List.length_dropLast, List.length_dropLast]
          omega
        · rw [List.length_append, List.length_append]
          omega
    · unfold resolve
      split
      · omega
      · split
        · rw [List.length_dropLast]
          omega
        · rw [List.length_append]
          omega

/-! ## Deep directories -/

/-- The directory `/a/a/…/a`. -/
def deep (n : Nat) : List Char :=
  (List.replicate n ['/', 'a']).flatten

theorem deep_succ (n : Nat) : deep (n + 1) = deep n ++ ['/', 'a'] := by
  rw [deep, List.replicate_succ', List.flatten_append]
  simp [deep]

theorem components_deep (n : Nat) : components (deep n) = List.replicate n ['a'] := by
  induction n with
  | zero => rfl
  | succ n ih =>
    rw [deep_succ, components_append_slash, ih, List.replicate_succ',
      components_of_not_mem (by decide) (by decide)]

/-- The components in a deep directory are resolved after its names. -/
theorem normalComponents_deep_append (n : Nat) {below name : List Char} {rest : List (List Char)}
    (hbelow : components below = name :: rest) (hname : IsPlain name) :
    normalComponents (deep n ++ '/' :: below) =
      rest.foldl resolve (List.replicate n ['a'] ++ [name]) := by
  have hplain : ∀ c ∈ List.replicate n ['a'], IsPlain c := by
    intro c hc
    rw [List.eq_of_mem_replicate hc]
    exact ⟨by decide, by decide, by decide, by decide⟩
  rw [normalComponents, components_append_slash, components_deep, hbelow, List.foldl_append,
    foldl_resolve_of_isPlain hplain, List.nil_append, List.foldl_cons, resolve_of_isPlain hname]

end IOSDeviceManager.General.LexicalPath
