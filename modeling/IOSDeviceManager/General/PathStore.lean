import Mathlib

/-! # A tree of entries addressed by paths

A store maps paths, lists of names from the root down, to entries. Whatever exists lies in a
directory. Removing takes a whole subtree away; copying puts a subtree of equal content at a new
path. Both leave every path outside the subtree they act on as it was. -/

namespace IOSDeviceManager.General

/-- What is at a path. -/
inductive Entry (γ : Type*) where
  | file (content : γ)
  | directory
  deriving DecidableEq, Repr

/-- A store of entries in which everything lies in directories. -/
@[ext] structure PathStore (ν γ : Type*) where
  entry : List ν → Option (Entry γ)
  /-- The parent of what exists is a directory. -/
  parent : ∀ path name, (entry (path ++ [name])).isSome → entry path = some .directory

namespace PathStore

variable {ν γ : Type*}

/-- The subtree at a path. -/
def subtree (s : PathStore ν γ) (path : List ν) : List ν → Option (Entry γ) :=
  fun below => s.entry (path ++ below)

/-- There is something at the path. -/
def Exists (s : PathStore ν γ) (path : List ν) : Prop :=
  (s.entry path).isSome

/-- There is a directory at the path. -/
def IsDirectory (s : PathStore ν γ) (path : List ν) : Prop :=
  s.entry path = some .directory

instance (s : PathStore ν γ) (path : List ν) : Decidable (s.Exists path) :=
  inferInstanceAs (Decidable ((s.entry path).isSome = true))

instance [DecidableEq γ] (s : PathStore ν γ) (path : List ν) : Decidable (s.IsDirectory path) :=
  inferInstanceAs (Decidable (s.entry path = some .directory))

/-- There is something where there is a directory. -/
theorem IsDirectory.exists {s : PathStore ν γ} {path : List ν} (h : s.IsDirectory path) :
    s.Exists path := by
  rw [Exists, h]
  rfl

/-- What lies above something that exists is a directory. -/
theorem isDirectory_of_exists_append (s : PathStore ν γ) {path : List ν} (below : List ν) {name : ν}
    (h : s.Exists (path ++ below ++ [name])) : s.IsDirectory path := by
  induction below using List.reverseRecOn generalizing name with
  | nil => exact s.parent path name (by simpa [Exists] using h)
  | append_singleton below last ih =>
    have hdir := s.parent _ name h
    have hexists : s.Exists (path ++ below ++ [last]) := by
      rw [List.append_assoc, Exists, hdir]
      rfl
    exact ih hexists

/-- What lies above a directory is a directory. -/
theorem IsDirectory.of_prefix {s : PathStore ν γ} {path q : List ν} (h : s.IsDirectory path)
    (hq : q <+: path) : s.IsDirectory q := by
  obtain ⟨below, rfl⟩ := hq
  induction below using List.reverseRecOn with
  | nil => simpa using h
  | append_singleton below name _ =>
    rw [← List.append_assoc] at h
    exact s.isDirectory_of_exists_append below h.exists

/-- Where there is no directory, nothing lies below. -/
theorem not_exists_append {s : PathStore ν γ} {path below : List ν} (h : ¬ s.IsDirectory path)
    (hne : below ≠ []) : ¬ s.Exists (path ++ below) := by
  obtain ⟨above, name, rfl⟩ := (List.eq_nil_or_concat' below).resolve_left hne
  rw [← List.append_assoc]
  exact fun hexists => h (s.isDirectory_of_exists_append above hexists)

/-- Where there is nothing, nothing lies within. -/
theorem not_exists_of_prefix {s : PathStore ν γ} {path q : List ν} (h : ¬ s.Exists path)
    (hq : path <+: q) : ¬ s.Exists q := by
  obtain ⟨below, rfl⟩ := hq
  by_cases hne : below = []
  · rwa [hne, List.append_nil]
  · exact not_exists_append (fun hdir => h hdir.exists) hne

/-- Everything in the first store is in the second, with the same content. -/
def Keeps (s t : PathStore ν γ) : Prop :=
  ∀ q e, s.entry q = some e → t.entry q = some e

/-- A store keeps what it holds. -/
theorem Keeps.refl (s : PathStore ν γ) : Keeps s s :=
  fun _ _ h => h

/-- What is kept twice is kept. -/
theorem Keeps.trans {s t u : PathStore ν γ} (h : Keeps s t) (h' : Keeps t u) : Keeps s u :=
  fun q e he => h' q e (h q e he)

/-- The subtree at a path consists of directories only, at the paths `made`. -/
structure HoldsExactly (s : PathStore ν γ) (path : List ν) (made : List (List ν)) : Prop where
  directory : ∀ below ∈ made, s.IsDirectory (path ++ below)
  nothing : ∀ below, below ∉ made → ¬ s.Exists (path ++ below)

/-- The store in which there is nothing. -/
def empty : PathStore ν γ where
  entry _ := none
  parent _ _ h := by cases h

/-- Directories can be made along a path: whatever lies on it is a directory. -/
def CanCreate (s : PathStore ν γ) (path : List ν) : Prop :=
  ∀ q, q <+: path → s.Exists q → s.IsDirectory q

/-- Directories can be made below a directory that is the last thing on the path. -/
theorem canCreate_append {s : PathStore ν γ} {path below : List ν} (h : s.IsDirectory path)
    (hbelow : ∀ q, q <+: below → s.Exists (path ++ q) → s.IsDirectory (path ++ q)) :
    s.CanCreate (path ++ below) := by
  intro q hq hexists
  rcases List.prefix_or_prefix_of_prefix hq (List.prefix_append path below) with
    habove | ⟨rest, rfl⟩
  · exact h.of_prefix habove
  · exact hbelow rest ((List.prefix_append_right_inj path).mp hq) hexists

/-! ## Apart and outside -/

/-- Two paths neither of which lies within the other. -/
def Apart (p q : List ν) : Prop :=
  ¬ p <+: q ∧ ¬ q <+: p

/-- What lies below paths that are apart is apart. -/
theorem Apart.append {p q : List ν} (h : Apart p q) (below below' : List ν) :
    Apart (p ++ below) (q ++ below') := by
  constructor <;> intro hpre
  · have hp := (List.prefix_append p below).trans hpre
    exact (List.prefix_or_prefix_of_prefix hp (List.prefix_append q below')).elim h.1 h.2
  · have hq := (List.prefix_append q below').trans hpre
    exact (List.prefix_or_prefix_of_prefix hq (List.prefix_append p below)).elim h.2 h.1

/-- Different names in one directory are apart. -/
theorem apart_of_ne (path : List ν) {name other : ν} (h : name ≠ other) :
    Apart (path ++ [name]) (path ++ [other]) := by
  simp [Apart, List.prefix_append_right_inj, List.cons_prefix_cons, h, h.symm]

/-- A directory does not lie within anything it holds. -/
theorem not_prefix_of_append_singleton (path : List ν) (name : ν) : ¬ path ++ [name] <+: path := by
  intro hpre
  have hle := hpre.length_le
  rw [List.length_append, List.length_singleton] at hle
  omega

/-- The two stores agree outside the subtree at a path. -/
def AgreeOutside (path : List ν) (s t : PathStore ν γ) : Prop :=
  ∀ q, ¬ path <+: q → t.entry q = s.entry q

/-- Two changes within one subtree are one. -/
theorem AgreeOutside.trans {path : List ν} {s t u : PathStore ν γ} (h : AgreeOutside path s t)
    (h' : AgreeOutside path t u) : AgreeOutside path s u :=
  fun q hq => (h' q hq).trans (h q hq)

/-- Stores that agree outside a path agree on the subtrees apart from it. -/
theorem AgreeOutside.subtree_eq {path q : List ν} {s t : PathStore ν γ}
    (h : AgreeOutside path s t) (hapart : Apart path q) : t.subtree q = s.subtree q := by
  funext below
  exact h (q ++ below) fun hpre =>
    (List.prefix_or_prefix_of_prefix hpre (List.prefix_append q below)).elim hapart.1 hapart.2

/-- Everything in the first store that is not in the subtree at a path is in the second. -/
def KeepsOutside (path : List ν) (s t : PathStore ν γ) : Prop :=
  ∀ q e, ¬ path <+: q → s.entry q = some e → t.entry q = some e

/-- A store keeps what it holds outside a path. -/
theorem KeepsOutside.refl (path : List ν) (s : PathStore ν γ) : KeepsOutside path s s :=
  fun _ _ _ h => h

/-- What is kept twice outside a path is kept there. -/
theorem KeepsOutside.trans {path : List ν} {s t u : PathStore ν γ} (h : KeepsOutside path s t)
    (h' : KeepsOutside path t u) : KeepsOutside path s u :=
  fun q e hq he => h' q e hq (h q e hq he)

/-- What is kept is kept outside a path. -/
theorem Keeps.keepsOutside {s t : PathStore ν γ} (h : Keeps s t) (path : List ν) :
    KeepsOutside path s t :=
  fun q e _ he => h q e he

/-- A change within a subtree keeps what is outside. -/
theorem AgreeOutside.keepsOutside {path : List ν} {s t : PathStore ν γ}
    (h : AgreeOutside path s t) : KeepsOutside path s t :=
  fun q _ hq he => (h q hq).trans he

/-- What changes only where there was nothing keeps everything. -/
theorem AgreeOutside.keeps {path : List ν} {s t : PathStore ν γ} (h : AgreeOutside path s t)
    (hfresh : ¬ s.Exists path) : Keeps s t := by
  intro q e he
  have hq : ¬ path <+: q := fun hpre =>
    not_exists_of_prefix hfresh hpre (by rw [Exists, he]; rfl)
  exact (h q hq).trans he

/-! ## Removing and copying -/

variable [DecidableEq ν]

/-- The store without the subtree at a path. -/
def remove (s : PathStore ν γ) (path : List ν) : PathStore ν γ where
  entry q := if path <+: q then none else s.entry q
  parent q name h := by
    by_cases hname : path <+: q ++ [name]
    · simp [hname] at h
    · have hq : ¬ path <+: q := fun hq => hname (hq.trans (List.prefix_append q [name]))
      simp only [hname, hq, if_false] at h ⊢
      exact s.parent q name h

/-- A copy of the subtree at `source` can be put at `target`: the source exists, the target does
not, it lies in a directory and not within the source. -/
structure CanCopy (s : PathStore ν γ) (source target : List ν) : Prop where
  exists_source : s.Exists source
  not_exists_target : ¬ s.Exists target
  parent : target ≠ [] ∧ s.IsDirectory target.dropLast
  outside : ¬ source <+: target

instance [DecidableEq γ] (s : PathStore ν γ) (source target : List ν) :
    Decidable (s.CanCopy source target) :=
  decidable_of_iff (s.Exists source ∧ ¬ s.Exists target ∧
      (target ≠ [] ∧ s.IsDirectory target.dropLast) ∧ ¬ source <+: target)
    ⟨fun h => ⟨h.1, h.2.1, h.2.2.1, h.2.2.2⟩,
      fun h => ⟨h.exists_source, h.not_exists_target, h.parent, h.outside⟩⟩

/-- The store with a copy of the subtree at `source` put at `target`. -/
def copy (s : PathStore ν γ) (source target : List ν) (h : s.CanCopy source target) :
    PathStore ν γ where
  entry q := if target <+: q then s.entry (source ++ q.drop target.length) else s.entry q
  parent q name hsome := by
    by_cases hq : target <+: q
    · obtain ⟨below, rfl⟩ := hq
      have hname : target <+: target ++ below ++ [name] := by simp
      simp only [if_true, List.append_assoc, List.drop_left, List.prefix_append] at hsome ⊢
      exact s.parent (source ++ below) name (by simpa using hsome)
    · by_cases hname : target <+: q ++ [name]
      · -- `q` is the parent of the target
        obtain rfl : target = q ++ [name] := by
          rcases List.prefix_concat_iff.mp hname with heq | hpre
          · exact heq
          · exact absurd hpre hq
        simpa [IsDirectory, hq] using h.parent.2
      · simp only [hq, hname, if_false] at hsome ⊢
        exact s.parent q name hsome

instance [DecidableEq γ] (s : PathStore ν γ) (path : List ν) : Decidable (s.CanCreate path) :=
  decidable_of_iff (∀ q ∈ path.inits, s.Exists q → s.IsDirectory q)
    (forall_congr' fun _ => by rw [List.mem_inits])

/-- The store with a directory at a path and at all paths above it. -/
def create (s : PathStore ν γ) (path : List ν) : PathStore ν γ where
  entry q := if q <+: path then some .directory else s.entry q
  parent q name h := by
    by_cases hq : q <+: path
    · simp [hq]
    · have hname : ¬ q ++ [name] <+: path := fun hname =>
        hq ((List.prefix_append q [name]).trans hname)
      simp only [hq, hname, if_false] at h ⊢
      exact s.parent q name h

/-- The store with a file in a directory. -/
def write (s : PathStore ν γ) (path : List ν) (name : ν) (content : γ) (hdir : s.IsDirectory path)
    (hfree : ¬ s.IsDirectory (path ++ [name])) : PathStore ν γ where
  entry q := if q = path ++ [name] then some (.file content) else s.entry q
  parent q other h := by
    by_cases heq : q ++ [other] = path ++ [name]
    · obtain ⟨rfl, -⟩ := List.append_inj' heq rfl
      simpa [IsDirectory] using hdir
    · rw [if_neg heq] at h
      have hq := s.parent q other h
      have hne : q ≠ path ++ [name] := by
        rintro rfl
        exact hfree hq
      rwa [if_neg hne]

@[simp] theorem entry_remove (s : PathStore ν γ) (path q : List ν) :
    (s.remove path).entry q = if path <+: q then none else s.entry q := rfl

/-- What was at a path is not what is there after its removal. -/
theorem subtree_remove_ne {s : PathStore ν γ} {path : List ν} (h : s.Exists path) :
    (s.remove path).subtree path ≠ s.subtree path := by
  intro heq
  have hself := congrFun heq []
  rw [subtree, subtree, List.append_nil, entry_remove, if_pos (List.prefix_refl path)] at hself
  rw [Exists, ← hself] at h
  cases h

/-- What is at a path once a subtree is copied. -/
theorem entry_copy (s : PathStore ν γ) {source target : List ν} (h : s.CanCopy source target)
    (q : List ν) :
    (s.copy source target h).entry q =
      if target <+: q then s.entry (source ++ q.drop target.length) else s.entry q := rfl

/-- Where the entry at a path comes from when a copy of what is at `source` is put at `target`. -/
def redirect (source target q : List ν) : List ν :=
  if target <+: q then source ++ q.drop target.length else q

/-- It is what was where the path is led back to. -/
theorem entry_copy_eq_redirect (s : PathStore ν γ) {source target : List ν}
    (h : s.CanCopy source target) (q : List ν) :
    (s.copy source target h).entry q = s.entry (redirect source target q) := by
  rw [entry_copy, redirect]
  split <;> rfl

/-- So also when what was at the target is removed before. -/
theorem entry_copy_remove_eq_redirect (s : PathStore ν γ) {source target : List ν}
    (h : (s.remove target).CanCopy source target) (q : List ν) :
    ((s.remove target).copy source target h).entry q = s.entry (redirect source target q) := by
  rw [entry_copy_eq_redirect, entry_remove, redirect]
  split
  · refine if_neg fun hwithin => ?_
    -- neither path lies in the other: the source exists after the removal
    rcases List.prefix_or_prefix_of_prefix hwithin (List.prefix_append source _) with hpre | hpre
    · have hsource := h.exists_source
      rw [Exists, entry_remove, if_pos hpre] at hsource
      cases hsource
    · exact h.outside hpre
  · rfl

/-- The copy equals the source. -/
theorem subtree_copy_self (s : PathStore ν γ) {source target : List ν}
    (h : s.CanCopy source target) : (s.copy source target h).subtree target = s.subtree source := by
  funext below
  simp [subtree, entry_copy]

/-- A removal changes nothing outside its path. -/
theorem agreeOutside_remove (s : PathStore ν γ) (path : List ν) :
    AgreeOutside path s (s.remove path) :=
  fun q hq => by simp [hq]

/-- A copy changes nothing outside its target. -/
theorem agreeOutside_copy (s : PathStore ν γ) {source target : List ν}
    (h : s.CanCopy source target) : AgreeOutside target s (s.copy source target h) :=
  fun q hq => by simp [entry_copy, hq]

omit [DecidableEq ν] in
/-- A copy can be put at a name that has been freed exactly if the name is in a directory and
neither path lies in the other. -/
theorem canCopy_iff_apart {s cleared : PathStore ν γ} {dir source : List ν} {name : ν}
    (hsource : s.Exists source) (hagree : AgreeOutside (dir ++ [name]) s cleared)
    (hfree : ¬ cleared.Exists (dir ++ [name])) :
    cleared.CanCopy source (dir ++ [name]) ↔
      s.IsDirectory dir ∧ Apart (dir ++ [name]) source := by
  have hdirectory : cleared.IsDirectory dir ↔ s.IsDirectory dir := by
    rw [IsDirectory, IsDirectory, hagree dir (not_prefix_of_append_singleton dir name)]
  constructor
  · intro hcan
    have hparent := hcan.parent.2
    rw [List.dropLast_concat] at hparent
    exact ⟨hdirectory.mp hparent,
      fun hpre => not_exists_of_prefix hfree hpre hcan.exists_source, hcan.outside⟩
  · rintro ⟨hdir, hapart⟩
    refine ⟨?_, hfree, ⟨by simp, ?_⟩, hapart.2⟩
    · rwa [Exists, hagree source hapart.1]
    · rw [List.dropLast_concat]
      exact hdirectory.mpr hdir

/-- What is at a path once directories are made. -/
theorem entry_create (s : PathStore ν γ) (path q : List ν) :
    (s.create path).entry q = if q <+: path then some .directory else s.entry q := rfl

/-- Making directories below a directory changes nothing outside the first of them. -/
theorem agreeOutside_create {s : PathStore ν γ} {dir : List ν} (h : s.IsDirectory dir) (name : ν)
    (below : List ν) :
    AgreeOutside (dir ++ [name]) s (s.create (dir ++ [name] ++ below)) := by
  intro q hq
  rw [entry_create]
  split
  · rename_i hpre
    -- the paths above the first directory are directories already
    rcases List.prefix_or_prefix_of_prefix hpre (List.prefix_append _ below) with habove | hin
    · rcases List.prefix_concat_iff.mp habove with rfl | habove
      · exact absurd (List.prefix_refl _) hq
      · exact (h.of_prefix habove).symm
    · exact absurd hin hq
  · rfl

/-- What is at a path once a file is written. -/
theorem entry_write (s : PathStore ν γ) {path : List ν} {name : ν} {content : γ}
    (hdir : s.IsDirectory path) (hfree : ¬ s.IsDirectory (path ++ [name])) (q : List ν) :
    (s.write path name content hdir hfree).entry q =
      if q = path ++ [name] then some (.file content) else s.entry q := rfl

/-- The store with another one put under a name in a directory. -/
def graft (s : PathStore ν γ) (path : List ν) (name : ν) (t : PathStore ν γ)
    (hdir : s.IsDirectory path) : PathStore ν γ where
  entry q := if path ++ [name] <+: q then t.entry (q.drop (path ++ [name]).length) else s.entry q
  parent q other h := by
    by_cases hq : path ++ [name] <+: q
    · obtain ⟨below, rfl⟩ := hq
      have hother : path ++ [name] <+: path ++ [name] ++ below ++ [other] := by simp
      rw [if_pos hother, List.append_assoc, List.drop_left] at h
      rw [if_pos (List.prefix_append _ _), List.drop_left]
      exact t.parent below other h
    · rw [if_neg hq]
      by_cases hother : path ++ [name] <+: q ++ [other]
      · -- `q` is the directory
        rcases List.prefix_concat_iff.mp hother with heq | hpre
        · obtain ⟨rfl, -⟩ := List.append_inj' heq rfl
          exact hdir
        · exact absurd hpre hq
      · rw [if_neg hother] at h
        exact s.parent q other h

/-- Nothing changes outside what is put there. -/
theorem agreeOutside_graft {s : PathStore ν γ} {path : List ν} (hdir : s.IsDirectory path)
    (name : ν) (t : PathStore ν γ) : AgreeOutside (path ++ [name]) s (s.graft path name t hdir) :=
  fun _ hq => if_neg hq

/-- What is put there is the other store. -/
theorem subtree_graft {s : PathStore ν γ} {path : List ν} (hdir : s.IsDirectory path) (name : ν)
    (t : PathStore ν γ) : (s.graft path name t hdir).subtree (path ++ [name]) = t.entry := by
  funext below
  exact (if_pos (List.prefix_append _ below)).trans (congrArg t.entry List.drop_left)

/-- Making directories keeps what there is. -/
theorem keeps_create {s : PathStore ν γ} {path : List ν} (h : s.CanCreate path) :
    Keeps s (s.create path) := by
  intro q e he
  rw [entry_create]
  split
  · rename_i hq
    have hdir := h q hq (by rw [Exists, he]; rfl)
    rw [← he, hdir]
  · exact he

end PathStore

end IOSDeviceManager.General
