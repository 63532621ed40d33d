import Mathlib

/-! # Finite trees of named files and directories

A directory lists its children in some order, and looking a name up takes the first child of that
name. The depth-first walk keeps a stack of what is still to be visited: it lists a directory
before everything in it. -/

namespace IOSDeviceManager.General

/-- A file or a directory, with its name. -/
inductive DirectoryTree (ν : Type*) where
  | file (name : ν)
  | directory (name : ν) (children : List (DirectoryTree ν))

namespace DirectoryTree

variable {ν : Type*}

/-- The name. -/
def name : DirectoryTree ν → ν
  | file name => name
  | directory name _ => name

/-- What is in a directory; a file has nothing in it. -/
def children : DirectoryTree ν → List (DirectoryTree ν)
  | file _ => []
  | directory _ children => children

/-- It is a directory. -/
def isDirectory : DirectoryTree ν → Bool
  | file _ => false
  | directory _ _ => true

@[simp] theorem name_file (name : ν) : (file name).name = name := rfl

@[simp] theorem name_directory (name : ν) (cs : List (DirectoryTree ν)) :
    (directory name cs).name = name := rfl

@[simp] theorem children_file (name : ν) : (file name).children = [] := rfl

@[simp] theorem children_directory (name : ν) (cs : List (DirectoryTree ν)) :
    (directory name cs).children = cs := rfl

@[simp] theorem isDirectory_file (name : ν) : (file name).isDirectory = false := rfl

@[simp] theorem isDirectory_directory (name : ν) (cs : List (DirectoryTree ν)) :
    (directory name cs).isDirectory = true := rfl

/-! ## All entries -/

mutual

/-- The paths of everything below a tree that stands at `path`, each directory before what is in
it. -/
def entries (path : List ν) : DirectoryTree ν → List (List ν)
  | file _ => []
  | directory _ cs => entriesOfChildren path cs

/-- The paths of the children and of everything below them. -/
def entriesOfChildren (path : List ν) : List (DirectoryTree ν) → List (List ν)
  | [] => []
  | c :: cs => (path ++ [c.name]) :: entries (path ++ [c.name]) c ++ entriesOfChildren path cs

/-- How deep directories lie in directories. -/
def depth : DirectoryTree ν → Nat
  | file _ => 0
  | directory _ cs => 1 + depthOfChildren cs

/-- The depth of the deepest of a list of trees. -/
def depthOfChildren : List (DirectoryTree ν) → Nat
  | [] => 0
  | c :: cs => max (depth c) (depthOfChildren cs)

/-- The number of files and directories. -/
def size : DirectoryTree ν → Nat
  | file _ => 1
  | directory _ cs => 1 + sizeOfChildren cs

/-- The number of files and directories in a list of trees. -/
def sizeOfChildren : List (DirectoryTree ν) → Nat
  | [] => 0
  | c :: cs => size c + sizeOfChildren cs

end

mutual

/-- The entries lie below the path. -/
theorem prefix_of_mem_entries {path p : List ν} (t : DirectoryTree ν) (h : p ∈ t.entries path) :
    path <+: p := by
  cases t with
  | file name => cases h
  | directory name cs => exact prefix_of_mem_entriesOfChildren cs h

theorem prefix_of_mem_entriesOfChildren {path p : List ν} (cs : List (DirectoryTree ν))
    (h : p ∈ entriesOfChildren path cs) : path <+: p := by
  cases cs with
  | nil => cases h
  | cons c cs =>
    simp only [entriesOfChildren, List.cons_append, List.mem_cons, List.mem_append] at h
    rcases h with rfl | h | h
    · exact List.prefix_append _ _
    · exact (List.prefix_append _ _).trans (prefix_of_mem_entries c h)
    · exact prefix_of_mem_entriesOfChildren cs h

end

theorem depthOfChildren_le_iff {cs : List (DirectoryTree ν)} {n : Nat} :
    depthOfChildren cs ≤ n ↔ ∀ c ∈ cs, c.depth ≤ n := by
  induction cs with
  | nil => simp [depthOfChildren]
  | cons c cs ih => rw [depthOfChildren, Nat.max_le, ih, List.forall_mem_cons]

theorem depth_le_of_mem {c : DirectoryTree ν} {cs : List (DirectoryTree ν)} (h : c ∈ cs) :
    c.depth ≤ depthOfChildren cs :=
  depthOfChildren_le_iff.mp le_rfl c h

/-! ## Looking up a path -/

section Find

variable [DecidableEq ν]

/-- The first tree of a name. -/
def named (name : ν) (cs : List (DirectoryTree ν)) : Option (DirectoryTree ν) :=
  cs.find? fun c => c.name = name

/-- What is at a path below a tree. -/
def find (t : DirectoryTree ν) : List ν → Option (DirectoryTree ν)
  | [] => some t
  | name :: below => (named name t.children).bind fun c => c.find below

/-- There is a directory at the path. -/
def isDirectoryAt (t : DirectoryTree ν) (path : List ν) : Bool :=
  (t.find path).any isDirectory

@[simp] theorem find_nil (t : DirectoryTree ν) : t.find [] = some t := rfl

theorem find_cons (t : DirectoryTree ν) (name : ν) (below : List ν) :
    t.find (name :: below) = (named name t.children).bind fun c => c.find below := rfl

/-- A path is followed in two parts. -/
theorem find_append (t : DirectoryTree ν) (path below : List ν) :
    t.find (path ++ below) = (t.find path).bind fun sub => sub.find below := by
  induction path generalizing t with
  | nil => rfl
  | cons name path ih =>
    rw [List.cons_append, find_cons, find_cons]
    cases named name t.children with
    | none => rfl
    | some c => exact ih c

/-- A tree found under a name is one of the list and has that name. -/
theorem named_eq_some {name : ν} {cs : List (DirectoryTree ν)} {c : DirectoryTree ν}
    (h : named name cs = some c) : c ∈ cs ∧ c.name = name :=
  ⟨List.mem_of_find?_eq_some h, by simpa using List.find?_some h⟩

@[simp] theorem isDirectoryAt_nil (t : DirectoryTree ν) :
    t.isDirectoryAt [] = t.isDirectory := rfl

/-- At a path through a name there is a directory exactly when there is one in the child. -/
theorem isDirectoryAt_cons {t : DirectoryTree ν} {name : ν} {below : List ν} :
    t.isDirectoryAt (name :: below) = true ↔
      ∃ c, named name t.children = some c ∧ c.isDirectoryAt below = true := by
  rw [isDirectoryAt, find_cons]
  cases named name t.children <;> simp [isDirectoryAt]

/-- A directory is found in directories only. -/
theorem isDirectory_of_isDirectoryAt {t : DirectoryTree ν} {path : List ν}
    (h : t.isDirectoryAt path = true) : t.isDirectory = true := by
  cases path with
  | nil => exact h
  | cons name below =>
    obtain ⟨c, hc, -⟩ := isDirectoryAt_cons.mp h
    cases t with
    | file name => simp [named] at hc
    | directory name cs => rfl

/-- What is found at a path is as much less deep as the path is long. -/
theorem length_add_depth_le {t sub : DirectoryTree ν} {path : List ν}
    (h : t.find path = some sub) : path.length + sub.depth ≤ t.depth := by
  induction path generalizing t with
  | nil =>
    obtain rfl := Option.some.inj h
    simp
  | cons name below ih =>
    rw [find_cons] at h
    obtain ⟨c, hc, hbelow⟩ := Option.bind_eq_some_iff.mp h
    have hle := ih hbelow
    have hchild := depth_le_of_mem (named_eq_some hc).1
    cases t with
    | file name => simp [named] at hc
    | directory name cs =>
      simp only [children_directory] at hchild
      simp only [List.length_cons, depth]
      omega

/-! ## Changing a directory -/

/-- The tree with the children of the directory at a path changed. -/
def update (f : List (DirectoryTree ν) → List (DirectoryTree ν)) :
    List ν → DirectoryTree ν → DirectoryTree ν
  | _, file name => file name
  | [], directory name cs => directory name (f cs)
  | step :: path, directory name cs =>
      directory name (cs.map fun c => if c.name = step then update f path c else c)

/-- The children without those of a name. -/
def erase (name : ν) (cs : List (DirectoryTree ν)) : List (DirectoryTree ν) :=
  cs.filter fun c => c.name ≠ name

/-- The children with one put in place of those of its name. -/
def put (c : DirectoryTree ν) (cs : List (DirectoryTree ν)) : List (DirectoryTree ν) :=
  erase c.name cs ++ [c]

@[simp] theorem name_update (f : List (DirectoryTree ν) → List (DirectoryTree ν))
    (path : List ν) (t : DirectoryTree ν) : (update f path t).name = t.name := by
  cases t <;> cases path <;> rfl

/-- No other name is affected by erasing one. -/
theorem named_erase (name other : ν) (cs : List (DirectoryTree ν)) :
    named other (erase name cs) = if other = name then none else named other cs := by
  induction cs with
  | nil => simp [named, erase]
  | cons c cs ih =>
    simp only [named, erase] at ih ⊢
    by_cases hc : c.name = name
    · rw [List.filter_cons_of_neg (by simpa using hc), ih]
      by_cases hother : other = name
      · rw [if_pos hother, if_pos hother]
      · rw [if_neg hother, if_neg hother,
          List.find?_cons_of_neg (by simpa [hc] using Ne.symm hother)]
    · rw [List.filter_cons_of_pos (by simpa using hc), List.find?_cons, List.find?_cons, ih]
      by_cases hother : other = name
      · subst hother
        simp [hc]
      · simp [hother]

/-- What is put is found, and no other name is affected. -/
theorem named_put (c : DirectoryTree ν) (other : ν) (cs : List (DirectoryTree ν)) :
    named other (put c cs) = if other = c.name then some c else named other cs := by
  have happend : named other (put c cs) =
      (named other (erase c.name cs)).or (named other [c]) := List.find?_append
  rw [happend, named_erase]
  by_cases hother : other = c.name
  · subst hother
    simp [named]
  · simp [named, hother, Ne.symm hother]

/-- A lookup after changing what is deeper in one child. -/
theorem named_map_update (f : List (DirectoryTree ν) → List (DirectoryTree ν)) (step name : ν)
    (path : List ν) (cs : List (DirectoryTree ν)) :
    named name (cs.map fun c => if c.name = step then update f path c else c) =
      (named name cs).map fun c => if name = step then update f path c else c := by
  induction cs with
  | nil => rfl
  | cons c cs ih =>
    simp only [named, List.map_cons, List.find?_cons] at ih ⊢
    have hname : (if c.name = step then update f path c else c).name = c.name := by
      split <;> simp
    by_cases hc : c.name = name
    · subst hc
      simp [hname]
    · simp [hname, hc, ih]

/-- **Changes that add no directory.** If every directory found among the changed children was
found among the old ones, no path leads to a new directory. -/
theorem isDirectoryAt_of_update {f : List (DirectoryTree ν) → List (DirectoryTree ν)}
    (hf : ∀ cs name c, named name (f cs) = some c → c.isDirectory = true →
      named name cs = some c)
    {t : DirectoryTree ν} {path q : List ν} (h : (update f path t).isDirectoryAt q = true) :
    t.isDirectoryAt q = true := by
  induction path generalizing t q with
  | nil =>
    cases t with
    | file name => exact h
    | directory name cs =>
      cases q with
      | nil => rfl
      | cons step below =>
        obtain ⟨c, hc, hbelow⟩ := isDirectoryAt_cons.mp h
        exact isDirectoryAt_cons.mpr
          ⟨c, hf cs step c hc (isDirectory_of_isDirectoryAt hbelow), hbelow⟩
  | cons step path ih =>
    cases t with
    | file name => exact h
    | directory name cs =>
      cases q with
      | nil => rfl
      | cons first below =>
        obtain ⟨c', hc', hbelow⟩ := isDirectoryAt_cons.mp h
        rw [update, children_directory, named_map_update, Option.map_eq_some_iff] at hc'
        -- the child keeps its name, changed or not
        obtain ⟨c, hc, rfl⟩ := hc'
        refine isDirectoryAt_cons.mpr ⟨c, hc, ?_⟩
        split at hbelow
        · exact ih hbelow
        · exact hbelow

/-- Erasing adds no directory. -/
theorem isDirectoryAt_of_update_erase {name : ν} {t : DirectoryTree ν} {path q : List ν}
    (h : (update (erase name) path t).isDirectoryAt q = true) : t.isDirectoryAt q = true := by
  refine isDirectoryAt_of_update (fun cs other c hc _ => ?_) h
  rw [named_erase] at hc
  exact (Option.ite_none_left_eq_some.mp hc).2

/-- Putting a file adds no directory. -/
theorem isDirectoryAt_of_update_put {name : ν} {t : DirectoryTree ν} {path q : List ν}
    (h : (update (put (file name)) path t).isDirectoryAt q = true) :
    t.isDirectoryAt q = true := by
  refine isDirectoryAt_of_update (fun cs other c hc hdir => ?_) h
  rw [named_put] at hc
  split at hc
  · cases hc
    cases hdir
  · exact hc

/-- A change of children that makes none deeper makes the tree no deeper. -/
theorem depth_update_le {f : List (DirectoryTree ν) → List (DirectoryTree ν)}
    (hf : ∀ cs, depthOfChildren (f cs) ≤ depthOfChildren cs) (path : List ν)
    (t : DirectoryTree ν) : (update f path t).depth ≤ t.depth := by
  induction path generalizing t with
  | nil =>
    cases t with
    | file name => exact le_rfl
    | directory name cs =>
      have hle := hf cs
      simp only [update, depth]
      omega
  | cons step path ih =>
    cases t with
    | file name => exact le_rfl
    | directory name cs =>
      have hle : depthOfChildren (cs.map fun c => if c.name = step then update f path c else c) ≤
          depthOfChildren cs := by
        refine depthOfChildren_le_iff.mpr fun c' hc' => ?_
        obtain ⟨c, hc, rfl⟩ := List.mem_map.mp hc'
        refine le_trans ?_ (depth_le_of_mem hc)
        split
        · exact ih c
        · exact le_rfl
      simp only [update, depth]
      omega

/-- Erasing makes nothing deeper. -/
theorem depthOfChildren_erase_le (name : ν) (cs : List (DirectoryTree ν)) :
    depthOfChildren (erase name cs) ≤ depthOfChildren cs :=
  depthOfChildren_le_iff.mpr fun _ hc => depth_le_of_mem ((List.mem_filter.mp hc).1)

/-- Putting a file makes nothing deeper. -/
theorem depthOfChildren_put_file_le (name : ν) (cs : List (DirectoryTree ν)) :
    depthOfChildren (put (file name) cs) ≤ depthOfChildren cs := by
  refine depthOfChildren_le_iff.mpr fun c hc => ?_
  rcases List.mem_append.mp hc with hc | hc
  · exact depth_le_of_mem ((List.mem_filter.mp hc).1)
  · rw [List.mem_singleton.mp hc]
    exact Nat.zero_le _

end Find

/-! ## The depth-first walk -/

/-- The children of a node of the walk, with their paths. -/
def childNodes (path : List ν) (t : DirectoryTree ν) : List (List ν × DirectoryTree ν) :=
  t.children.map fun c => (path ++ [c.name], c)

/-- The size of what is on a stack. -/
def stackSize (stack : List (List ν × DirectoryTree ν)) : Nat :=
  (stack.map fun node => node.2.size).sum

theorem stackSize_childNodes (path : List ν) (cs : List (DirectoryTree ν)) :
    stackSize (cs.map fun c => (path ++ [c.name], c)) = sizeOfChildren cs := by
  induction cs with
  | nil => rfl
  | cons c cs ih =>
    rw [List.map_cons, stackSize, List.map_cons, List.sum_cons, sizeOfChildren, ← ih]
    rfl

/-- Putting the children of the popped node on the stack makes what is left smaller. -/
theorem stackSize_push_lt (path : List ν) (t : DirectoryTree ν)
    (stack : List (List ν × DirectoryTree ν)) :
    stackSize ((childNodes path t).reverse ++ stack) < stackSize ((path, t) :: stack) := by
  have hchildren : stackSize (childNodes path t) < t.size := by
    rw [childNodes, stackSize_childNodes]
    cases t with
    | file name => simp [sizeOfChildren, size]
    | directory name cs => simp [size]
  simp only [stackSize, List.map_append, List.map_reverse, List.sum_append, List.sum_reverse,
    List.map_cons, List.sum_cons] at hchildren ⊢
  omega

/-- The paths in the order in which they are popped from the stack, whose top is the head of the
list. -/
def walk : List (List ν × DirectoryTree ν) → List (List ν)
  | [] => []
  | (path, t) :: stack => path :: walk ((childNodes path t).reverse ++ stack)
termination_by stack => stackSize stack
decreasing_by exact stackSize_push_lt path t stack

@[simp] theorem walk_nil : walk ([] : List (List ν × DirectoryTree ν)) = [] := by
  rw [walk]

theorem walk_cons (path : List ν) (t : DirectoryTree ν)
    (stack : List (List ν × DirectoryTree ν)) :
    walk ((path, t) :: stack) = path :: walk ((childNodes path t).reverse ++ stack) := by
  rw [walk]

/-- What a node pushes lies in its directory. -/
theorem mem_push {path : List ν} {t : DirectoryTree ν} {stack : List (List ν × DirectoryTree ν)}
    {node : List ν × DirectoryTree ν} (h : node ∈ (childNodes path t).reverse ++ stack) :
    (∃ c ∈ t.children, node = (path ++ [c.name], c)) ∨ node ∈ stack := by
  simpa [childNodes, eq_comm] using h

/-- The walk lists what is on the stack and what lies below that. -/
theorem exists_prefix_of_mem_walk {stack : List (List ν × DirectoryTree ν)} {p : List ν}
    (h : p ∈ walk stack) : ∃ node ∈ stack, node.1 <+: p := by
  induction stack using walk.induct with
  | case1 => simp at h
  | case2 path t stack ih =>
    rw [walk_cons, List.mem_cons] at h
    rcases h with rfl | h
    · exact ⟨_, List.mem_cons_self, List.prefix_refl _⟩
    · obtain ⟨node, hnode, hpre⟩ := ih h
      rcases mem_push hnode with ⟨c, -, rfl⟩ | hstack
      · exact ⟨_, List.mem_cons_self, (List.prefix_append _ _).trans hpre⟩
      · exact ⟨node, List.mem_cons_of_mem _ hstack, hpre⟩

/-- What is listed lies no deeper than what is on the stack. -/
theorem exists_length_le_of_mem_walk {stack : List (List ν × DirectoryTree ν)} {p : List ν}
    (h : p ∈ walk stack) : ∃ node ∈ stack, p.length ≤ node.1.length + node.2.depth := by
  induction stack using walk.induct with
  | case1 => simp at h
  | case2 path t stack ih =>
    rw [walk_cons, List.mem_cons] at h
    rcases h with rfl | h
    · exact ⟨_, List.mem_cons_self, Nat.le_add_right _ _⟩
    · obtain ⟨node, hnode, hle⟩ := ih h
      rcases mem_push hnode with ⟨c, hc, rfl⟩ | hstack
      · refine ⟨_, List.mem_cons_self, hle.trans ?_⟩
        have hchild := depth_le_of_mem hc
        cases t with
        | file name => cases hc
        | directory name cs =>
          simp only [children_directory] at hchild
          simp only [List.length_append, List.length_singleton, depth]
          omega
      · exact ⟨node, List.mem_cons_of_mem _ hstack, hle⟩

/-- Everything that a path leads to below a node of the stack is listed. -/
theorem mem_walk_of_find [DecidableEq ν] {stack : List (List ν × DirectoryTree ν)}
    {node : List ν × DirectoryTree ν} (hnode : node ∈ stack) {below : List ν}
    (h : (node.2.find below).isSome) : node.1 ++ below ∈ walk stack := by
  induction stack using walk.induct generalizing node below with
  | case1 => simp at hnode
  | case2 path t stack ih =>
    rw [walk_cons, List.mem_cons]
    rcases List.mem_cons.mp hnode with rfl | hstack
    · cases below with
      | nil => exact .inl (List.append_nil _)
      | cons name below =>
        rw [find_cons] at h
        cases hc : named name t.children with
        | none => simp [hc] at h
        | some c =>
          rw [hc, Option.bind_some] at h
          obtain ⟨hmem, rfl⟩ := named_eq_some hc
          have hpush : (path ++ [c.name], c) ∈ (childNodes path t).reverse ++ stack :=
            List.mem_append_left _ (List.mem_reverse.mpr (List.mem_map_of_mem hmem))
          right
          simpa using ih hpush h
    · exact .inr (ih (List.mem_append_right _ hstack) h)

/-- Whatever the walk lists was on the stack, or its directory is listed before it. -/
theorem parent_of_walk_eq_append {stack : List (List ν × DirectoryTree ν)} {l₁ l₂ : List (List ν)}
    {p : List ν} (h : walk stack = l₁ ++ p :: l₂) :
    (∃ node ∈ stack, node.1 = p) ∨ ∃ q ∈ l₁, ∃ name, p = q ++ [name] := by
  induction stack using walk.induct generalizing l₁ with
  | case1 => simp at h
  | case2 path t stack ih =>
    rw [walk_cons] at h
    cases l₁ with
    | nil =>
      obtain ⟨rfl, -⟩ := List.cons.inj h
      exact .inl ⟨_, List.mem_cons_self, rfl⟩
    | cons first l₁ =>
      obtain ⟨rfl, hrest⟩ := List.cons.inj h
      rcases ih hrest with ⟨node, hnode, rfl⟩ | ⟨q, hq, name, hp⟩
      · rcases mem_push hnode with ⟨c, -, rfl⟩ | hstack
        · exact .inr ⟨path, List.mem_cons_self, c.name, rfl⟩
        · exact .inl ⟨node, List.mem_cons_of_mem _ hstack, rfl⟩
      · exact .inr ⟨q, List.mem_cons_of_mem _ hq, name, hp⟩

/-- **Ancestors first.** In the walk from one node, everything between the node and a listed path is
listed before that path. -/
theorem mem_before_of_walk_eq_append {path : List ν} {t : DirectoryTree ν}
    {l₁ l₂ : List (List ν)} {p q : List ν} (h : walk [(path, t)] = l₁ ++ p :: l₂)
    (hq : path <+: q) (hp : q <+: p) (hne : q ≠ p) : q ∈ l₁ := by
  induction p using List.reverseRecOn generalizing l₁ l₂ with
  | nil => exact absurd (List.prefix_nil.mp hp) hne
  | append_singleton below name ih =>
    rcases parent_of_walk_eq_append h with ⟨node, hnode, hpath⟩ | ⟨q', hq', name', hsame⟩
    · obtain rfl := List.mem_singleton.mp hnode
      rw [← hpath] at hp hne
      exact absurd (hp.eq_of_length_le hq.length_le) hne
    · obtain ⟨rfl, -⟩ := List.append_inj' hsame rfl
      by_cases hbelow : q = below
      · exact hbelow ▸ hq'
      · obtain ⟨a, b, rfl⟩ := List.append_of_mem hq'
        have hpre : q <+: below := (List.prefix_concat_iff.mp hp).resolve_left hne
        have hsplit : walk [(path, t)] = a ++ below :: (b ++ (below ++ [name]) :: l₂) := by
          rw [h]
          simp
        exact List.mem_append_left _ (ih hsplit hpre hbelow)

end DirectoryTree

end IOSDeviceManager.General
