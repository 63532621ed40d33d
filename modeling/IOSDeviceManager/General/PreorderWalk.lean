import IOSDeviceManager.General.DirectoryTree

/-! # The depth-first walk as a pre-order

The walk with a stack lists a tree in pre-order, the children of a directory last first. Where the
names in every directory are distinct, each path is listed once, and what lies below a directory
follows it without a gap. -/

namespace IOSDeviceManager.General.DirectoryTree

variable {ν : Type*}

/-! ## Pre-order -/

mutual

/-- The path of a tree and of everything below it: a directory stands before what is in it, and its
children are visited from the last to the first. -/
def preorder (path : List ν) : DirectoryTree ν → List (List ν)
  | file _ => [path]
  | directory _ cs => path :: preorderOfChildren path cs

/-- The children with what is below them, the last child first. -/
def preorderOfChildren (path : List ν) : List (DirectoryTree ν) → List (List ν)
  | [] => []
  | c :: cs => preorderOfChildren path cs ++ preorder (path ++ [c.name]) c

end

theorem preorder_eq_cons (path : List ν) (t : DirectoryTree ν) :
    t.preorder path = path :: preorderOfChildren path t.children := by
  cases t <;> rfl

/-- The children on the stack, from the top down. -/
theorem flatMap_reverse_childNodes (path : List ν) (cs : List (DirectoryTree ν)) :
    (cs.map fun c => (path ++ [c.name], c)).reverse.flatMap (fun node => node.2.preorder node.1) =
      preorderOfChildren path cs := by
  induction cs with
  | nil => rfl
  | cons c cs ih =>
    rw [List.map_cons, List.reverse_cons, List.flatMap_append, ih, preorderOfChildren]
    simp

/-- **The stack holds a forest.** The walk lists what is on the stack in pre-order, from the top
down. -/
theorem walk_eq_flatMap (stack : List (List ν × DirectoryTree ν)) :
    walk stack = stack.flatMap fun node => node.2.preorder node.1 := by
  induction stack using walk.induct with
  | case1 => simp
  | case2 path t stack ih =>
    rw [walk_cons, ih, List.flatMap_append, childNodes, flatMap_reverse_childNodes,
      List.flatMap_cons, preorder_eq_cons]
    rfl

/-- The walk from one node. -/
theorem walk_singleton (path : List ν) (t : DirectoryTree ν) :
    walk [(path, t)] = t.preorder path := by
  rw [walk_eq_flatMap]
  simp

mutual

/-- Pre-order lists the root and all entries, in some order. -/
theorem preorder_perm (path : List ν) (t : DirectoryTree ν) :
    (t.preorder path).Perm (path :: t.entries path) := by
  cases t with
  | file name => exact List.Perm.refl _
  | directory name cs =>
    rw [preorder, entries]
    exact (preorderOfChildren_perm path cs).cons path

theorem preorderOfChildren_perm (path : List ν) (cs : List (DirectoryTree ν)) :
    (preorderOfChildren path cs).Perm (entriesOfChildren path cs) := by
  cases cs with
  | nil => exact List.Perm.refl _
  | cons c cs =>
    rw [preorderOfChildren, entriesOfChildren]
    exact ((preorderOfChildren_perm path cs).append (preorder_perm _ c)).trans
      List.perm_append_comm

end

/-- What is listed lies at the path or below it. -/
theorem prefix_of_mem_preorder {path p : List ν} {t : DirectoryTree ν}
    (h : p ∈ t.preorder path) : path <+: p := by
  rcases List.mem_cons.mp ((preorder_perm path t).mem_iff.mp h) with rfl | hentry
  · exact List.prefix_refl _
  · exact prefix_of_mem_entries t hentry

/-- What is listed for a child goes through its name. -/
theorem exists_of_mem_preorderOfChildren {path p : List ν} {cs : List (DirectoryTree ν)}
    (h : p ∈ preorderOfChildren path cs) : ∃ c ∈ cs, p ∈ c.preorder (path ++ [c.name]) := by
  induction cs with
  | nil => cases h
  | cons c cs ih =>
    rcases List.mem_append.mp h with h | h
    · obtain ⟨c', hc', hp⟩ := ih h
      exact ⟨c', List.mem_cons_of_mem _ hc', hp⟩
    · exact ⟨c, List.mem_cons_self, h⟩

/-- What is listed for a child stands in one piece. -/
theorem exists_preorderOfChildren_eq (path : List ν) {cs : List (DirectoryTree ν)}
    {c : DirectoryTree ν} (h : c ∈ cs) :
    ∃ before after, preorderOfChildren path cs =
      before ++ c.preorder (path ++ [c.name]) ++ after := by
  induction cs with
  | nil => cases h
  | cons d cs ih =>
    rcases List.mem_cons.mp h with rfl | hmem
    · exact ⟨preorderOfChildren path cs, [], by simp [preorderOfChildren]⟩
    · obtain ⟨before, after, heq⟩ := ih hmem
      exact ⟨before, after ++ d.preorder (path ++ [d.name]), by simp [preorderOfChildren, heq]⟩

/-! ## Distinct names -/

/-- No directory has two entries of one name. -/
inductive DistinctNames : DirectoryTree ν → Prop where
  | file (name : ν) : DistinctNames (file name)
  | directory (name : ν) {cs : List (DirectoryTree ν)} (names : (cs.map DirectoryTree.name).Nodup)
      (children : ∀ c ∈ cs, DistinctNames c) : DistinctNames (directory name cs)

theorem DistinctNames.nodup_names {t : DirectoryTree ν} (h : t.DistinctNames) :
    (t.children.map name).Nodup := by
  cases h with
  | file name => exact List.nodup_nil
  | directory name names children => exact names

theorem DistinctNames.of_mem {t c : DirectoryTree ν} (h : t.DistinctNames) (hc : c ∈ t.children) :
    c.DistinctNames := by
  cases h with
  | file name => cases hc
  | directory name names children => exact children c hc

/-- No child lies in what is listed for another one. -/
theorem pairwise_preorderOfChildren {path : List ν} {cs : List (DirectoryTree ν)}
    (hnames : (cs.map name).Nodup)
    (hcs : ∀ c ∈ cs, (c.preorder (path ++ [c.name])).Pairwise fun earlier p => ¬ p <+: earlier) :
    (preorderOfChildren path cs).Pairwise fun earlier p => ¬ p <+: earlier := by
  induction cs with
  | nil => exact .nil
  | cons c cs ih =>
    rw [List.map_cons, List.nodup_cons] at hnames
    have htail := ih hnames.2 fun d hd => hcs d (List.mem_cons_of_mem _ hd)
    refine List.pairwise_append.mpr
      ⟨htail, hcs c List.mem_cons_self, fun earlier hearlier p hp hpre => ?_⟩
    obtain ⟨d, hd, hlisted⟩ := exists_of_mem_preorderOfChildren hearlier
    -- One path cannot go through both names.
    have hpath : path ++ [d.name] = path ++ [c.name] := by
      have hone := prefix_of_mem_preorder hlisted
      have hother := (prefix_of_mem_preorder hp).trans hpre
      exact (List.prefix_of_prefix_length_le hone hother (by simp)).eq_of_length (by simp)
    have hname : d.name = c.name := by simpa using hpath
    exact hnames.1 (hname ▸ List.mem_map_of_mem hd)

/-- **Containers first.** Nothing is listed after what lies in it, or after itself. -/
theorem DistinctNames.pairwise_preorder {t : DirectoryTree ν} (h : t.DistinctNames)
    (path : List ν) : (t.preorder path).Pairwise fun earlier p => ¬ p <+: earlier := by
  induction h generalizing path with
  | file name => exact List.pairwise_singleton _ path
  | @directory name cs names children ih =>
    rw [preorder, List.pairwise_cons]
    refine ⟨fun p hp hpre => ?_, pairwise_preorderOfChildren names fun c hc => ih c hc _⟩
    obtain ⟨c, -, hlisted⟩ := exists_of_mem_preorderOfChildren hp
    have hle := ((prefix_of_mem_preorder hlisted).trans hpre).length_le
    simp at hle

/-- **Each path once.** -/
theorem DistinctNames.nodup_preorder {t : DirectoryTree ν} (h : t.DistinctNames) (path : List ν) :
    (t.preorder path).Nodup := by
  refine List.Pairwise.imp (fun hnot heq => ?_) (h.pairwise_preorder path)
  rw [heq] at hnot
  exact hnot (List.prefix_refl _)

section Find

variable [DecidableEq ν]

/-- Among distinct names, every child is found under its own. -/
theorem named_of_mem {cs : List (DirectoryTree ν)} (hnames : (cs.map name).Nodup)
    {c : DirectoryTree ν} (hc : c ∈ cs) : named c.name cs = some c := by
  induction cs with
  | nil => cases hc
  | cons d cs ih =>
    rw [List.map_cons, List.nodup_cons] at hnames
    rcases List.mem_cons.mp hc with rfl | hmem
    · simp [named]
    · have hne : d.name ≠ c.name := fun heq => hnames.1 (heq ▸ List.mem_map_of_mem hmem)
      rw [named, List.find?_cons_of_neg (by simpa using hne)]
      exact ih hnames.2 hmem

theorem find_child {t c : DirectoryTree ν} (h : t.DistinctNames) (hc : c ∈ t.children) :
    t.find [c.name] = some c := by
  rw [find_cons, named_of_mem h.nodup_names hc]
  rfl

/-- What is found in a tree of distinct names has distinct names. -/
theorem DistinctNames.of_find {t sub : DirectoryTree ν} {below : List ν} (h : t.DistinctNames)
    (hfind : t.find below = some sub) : sub.DistinctNames := by
  induction below generalizing t with
  | nil => exact Option.some.inj hfind ▸ h
  | cons name below ih =>
    rw [find_cons] at hfind
    obtain ⟨c, hc, hbelow⟩ := Option.bind_eq_some_iff.mp hfind
    exact ih (h.of_mem (named_eq_some hc).1) hbelow

/-- **Every path.** Listed is what can be found. -/
theorem mem_preorder_iff {t : DirectoryTree ν} (h : t.DistinctNames) {path p : List ν} :
    p ∈ t.preorder path ↔ ∃ below, p = path ++ below ∧ (t.find below).isSome := by
  constructor
  · intro hp
    induction h generalizing path with
    | file name => exact ⟨[], by simpa [preorder] using hp, rfl⟩
    | @directory name cs names children ih =>
      rcases List.mem_cons.mp hp with rfl | hp
      · exact ⟨[], (List.append_nil _).symm, rfl⟩
      · obtain ⟨c, hc, hlisted⟩ := exists_of_mem_preorderOfChildren hp
        obtain ⟨below, rfl, hfind⟩ := ih c hc hlisted
        refine ⟨c.name :: below, by simp, ?_⟩
        rw [find_cons, children_directory, named_of_mem names hc]
        exact hfind
  · rintro ⟨below, rfl, hfind⟩
    rw [← walk_singleton]
    exact mem_walk_of_find (List.mem_singleton_self (path, t)) hfind

/-- What is found at a path is listed in one piece. -/
theorem exists_preorder_eq {t sub : DirectoryTree ν} (path : List ν) {below : List ν}
    (hfind : t.find below = some sub) :
    ∃ before after, t.preorder path = before ++ sub.preorder (path ++ below) ++ after := by
  induction below generalizing t path with
  | nil =>
    obtain rfl := Option.some.inj hfind
    exact ⟨[], [], by simp⟩
  | cons name below ih =>
    rw [find_cons] at hfind
    obtain ⟨c, hc, hbelow⟩ := Option.bind_eq_some_iff.mp hfind
    obtain ⟨hmem, rfl⟩ := named_eq_some hc
    obtain ⟨before, after, hchildren⟩ := exists_preorderOfChildren_eq path hmem
    obtain ⟨inner, outer, hchild⟩ := ih (path ++ [c.name]) hbelow
    refine ⟨path :: (before ++ inner), outer ++ after, ?_⟩
    rw [preorder_eq_cons, hchildren, hchild]
    simp

/-- **Descendants follow at once.** After a listed path comes exactly what lies below it, and
nothing of that stands elsewhere. -/
theorem exists_descendants_after {t : DirectoryTree ν} (h : t.DistinctNames) {path p : List ν}
    (hp : p ∈ t.preorder path) :
    ∃ before inside after, t.preorder path = before ++ p :: inside ++ after ∧
      ∀ q, q ∈ inside ↔ q ∈ t.preorder path ∧ p <+: q ∧ q ≠ p := by
  obtain ⟨below, rfl, hsome⟩ := (mem_preorder_iff h).mp hp
  obtain ⟨sub, hsub⟩ := Option.isSome_iff_exists.mp hsome
  obtain ⟨before, after, heq⟩ := exists_preorder_eq path hsub
  have hdistinct := h.of_find hsub
  have hcons := preorder_eq_cons (path ++ below) sub
  have hnodup := hdistinct.nodup_preorder (path ++ below)
  rw [hcons, List.nodup_cons] at hnodup
  refine ⟨before, preorderOfChildren (path ++ below) sub.children, after, by rw [heq, hcons],
    fun q => ⟨fun hq => ?_, fun ⟨hq, hpre, hne⟩ => ?_⟩⟩
  · have hlisted : q ∈ sub.preorder (path ++ below) := hcons ▸ List.mem_cons_of_mem _ hq
    refine ⟨heq ▸ by simp [hlisted], prefix_of_mem_preorder hlisted, fun hsame => ?_⟩
    exact hnodup.1 (hsame ▸ hq)
  · obtain ⟨rest, rfl⟩ := hpre
    obtain ⟨whole, hwhole, hfind⟩ := (mem_preorder_iff h).mp hq
    rw [List.append_assoc, List.append_cancel_left_eq] at hwhole
    rw [← hwhole, find_append, hsub] at hfind
    have hlisted : path ++ below ++ rest ∈ sub.preorder (path ++ below) :=
      (mem_preorder_iff hdistinct).mpr ⟨rest, rfl, hfind⟩
    rw [hcons] at hlisted
    exact (List.mem_cons.mp hlisted).resolve_left hne

/-! ## Changes that keep the names distinct -/

/-- What a change of children must keep. -/
theorem DistinctNames.update {f : List (DirectoryTree ν) → List (DirectoryTree ν)}
    (hf : ∀ cs, (cs.map name).Nodup → (∀ c ∈ cs, DistinctNames c) →
      ((f cs).map name).Nodup ∧ ∀ c ∈ f cs, DistinctNames c)
    {t : DirectoryTree ν} (h : t.DistinctNames) (path : List ν) :
    (update f path t).DistinctNames := by
  induction path generalizing t with
  | nil =>
    cases h with
    | file name => exact .file name
    | directory name names children =>
      obtain ⟨hnames, hchildren⟩ := hf _ names children
      exact .directory name hnames hchildren
  | cons step path ih =>
    cases h with
    | file name => exact .file name
    | @directory name cs names children =>
      refine .directory name ?_ fun c hc => ?_
      · -- the change below leaves the names here
        have hsame : (cs.map fun c => if c.name = step then DirectoryTree.update f path c else c).map
            DirectoryTree.name = cs.map DirectoryTree.name := by
          rw [List.map_map]
          refine List.map_congr_left fun c _ => ?_
          rw [Function.comp_apply]
          split <;> simp
        rwa [hsame]
      · obtain ⟨d, hd, rfl⟩ := List.mem_map.mp hc
        split
        · exact ih (children d hd)
        · exact children d hd

theorem DistinctNames.update_erase {t : DirectoryTree ν} (h : t.DistinctNames) (name : ν)
    (path : List ν) : (DirectoryTree.update (erase name) path t).DistinctNames := by
  refine h.update (fun cs names children => ⟨?_, fun c hc => ?_⟩) path
  · exact names.sublist (List.filter_sublist.map _)
  · exact children c (List.mem_filter.mp hc).1

theorem DistinctNames.update_put_file {t : DirectoryTree ν} (h : t.DistinctNames) (name : ν)
    (path : List ν) : (DirectoryTree.update (put (DirectoryTree.file name)) path t).DistinctNames := by
  refine h.update (fun cs names children => ⟨?_, fun c hc => ?_⟩) path
  · rw [put, List.map_append, List.nodup_append]
    refine ⟨names.sublist (List.filter_sublist.map _), List.nodup_singleton _, ?_⟩
    rintro a ha b hb rfl
    obtain ⟨c, hc, rfl⟩ := List.mem_map.mp ha
    exact of_decide_eq_true (List.mem_filter.mp hc).2 (List.mem_singleton.mp hb)
  · rcases List.mem_append.mp hc with hc | hc
    · exact children c (List.mem_filter.mp hc).1
    · rw [List.mem_singleton.mp hc]
      exact .file name

/-- What is found after a change was found before, or is the file that the change puts there. -/
theorem isSome_find_of_update {f : List (DirectoryTree ν) → List (DirectoryTree ν)} {name : ν}
    (hf : ∀ cs step c, named step (f cs) = some c →
      named step cs = some c ∨ step = name ∧ c = file name)
    {t : DirectoryTree ν} {path q : List ν}
    (h : ((DirectoryTree.update f path t).find q).isSome) :
    q = path ++ [name] ∨ (t.find q).isSome := by
  induction path generalizing t q with
  | nil =>
    cases t with
    | file name => exact .inr h
    | directory name cs =>
      cases q with
      | nil => exact .inr rfl
      | cons step below =>
        obtain ⟨found, hfound⟩ := Option.isSome_iff_exists.mp h
        obtain ⟨c, hc, hbelow⟩ := Option.bind_eq_some_iff.mp hfound
        rcases hf cs step c hc with hold | ⟨rfl, rfl⟩
        · right
          rw [find_cons, children_directory, hold, Option.bind_some, hbelow]
          rfl
        · -- Nothing lies in a file.
          cases below with
          | nil => exact .inl rfl
          | cons _ _ => simp [find_cons, named] at hbelow
  | cons step path ih =>
    cases t with
    | file name => exact .inr h
    | directory name cs =>
      cases q with
      | nil => exact .inr rfl
      | cons first below =>
        rw [DirectoryTree.update, find_cons, children_directory, named_map_update] at h
        rw [find_cons, children_directory]
        cases hc : named first cs with
        | none => simp [hc] at h
        | some c =>
          simp only [hc, Option.map_some, Option.bind_some] at h ⊢
          split at h
          · rename_i hsame
            exact (ih h).imp_left fun heq => by rw [heq, hsame, List.cons_append]
          · exact .inr h

theorem isSome_find_of_update_put_file {name : ν} {t : DirectoryTree ν} {path q : List ν}
    (h : ((DirectoryTree.update (put (DirectoryTree.file name)) path t).find q).isSome) :
    q = path ++ [name] ∨ (t.find q).isSome := by
  refine isSome_find_of_update (fun cs step c hc => ?_) h
  rw [named_put] at hc
  split at hc
  · rename_i hname
    exact .inr ⟨hname, (Option.some.inj hc).symm⟩
  · exact .inl hc

theorem isSome_find_of_update_erase {name : ν} {t : DirectoryTree ν} {path q : List ν}
    (h : ((DirectoryTree.update (erase name) path t).find q).isSome) :
    q = path ++ [name] ∨ (t.find q).isSome := by
  refine isSome_find_of_update (fun cs step c hc => ?_) h
  rw [named_erase] at hc
  exact .inl (Option.ite_none_left_eq_some.mp hc).2

end Find

/-- **Backwards, contents first.** -/
theorem mem_before_of_reverse_eq_append {t : DirectoryTree ν} (h : t.DistinctNames)
    {path p q : List ν} {l₁ l₂ : List (List ν)} (hsplit : (t.preorder path).reverse = l₁ ++ p :: l₂)
    (hq : q ∈ t.preorder path) (hpre : p <+: q) (hne : q ≠ p) : q ∈ l₁ := by
  have hpairwise := List.pairwise_reverse.mpr (h.pairwise_preorder path)
  rw [hsplit, List.pairwise_append, List.pairwise_cons] at hpairwise
  rw [← List.mem_reverse, hsplit, List.mem_append, List.mem_cons] at hq
  rcases hq with hq | hq | hq
  · exact hq
  · exact absurd hq hne
  · exact absurd hpre (hpairwise.2.1.1 q hq)

/-! ## Directories that are not entered -/

mutual

/-- The tree that is left when some directories are taken for empty. -/
def prune (blocked : List ν → Bool) (path : List ν) : DirectoryTree ν → DirectoryTree ν
  | file name => file name
  | directory name cs =>
      directory name (if blocked path then [] else pruneChildren blocked path cs)

/-- The children that are left. -/
def pruneChildren (blocked : List ν → Bool) (path : List ν) :
    List (DirectoryTree ν) → List (DirectoryTree ν)
  | [] => []
  | c :: cs => prune blocked (path ++ [c.name]) c :: pruneChildren blocked path cs

end

variable {blocked : List ν → Bool}

@[simp] theorem name_prune (path : List ν) (t : DirectoryTree ν) :
    (t.prune blocked path).name = t.name := by
  cases t <;> rfl

theorem pruneChildren_eq_map (path : List ν) (cs : List (DirectoryTree ν)) :
    pruneChildren blocked path cs = cs.map fun c => c.prune blocked (path ++ [c.name]) := by
  induction cs with
  | nil => rfl
  | cons c cs ih => rw [pruneChildren, ih, List.map_cons]

theorem children_prune (path : List ν) (t : DirectoryTree ν) :
    (t.prune blocked path).children =
      if blocked path then [] else t.children.map fun c => c.prune blocked (path ++ [c.name]) := by
  cases t with
  | file name => simp [prune]
  | directory name cs => rw [prune, children_directory, pruneChildren_eq_map, children_directory]

/-- Nothing is missing where no directory is blocked. -/
theorem prune_eq_self [DecidableEq ν] {t : DirectoryTree ν} (h : t.DistinctNames) (path : List ν)
    (hopen : ∀ below, t.isDirectoryAt below = true → blocked (path ++ below) = false) :
    t.prune blocked path = t := by
  induction h generalizing path with
  | file name => rfl
  | @directory name cs names children ih =>
    have hhere : blocked path = false := by simpa using hopen [] rfl
    rw [prune, hhere, if_neg Bool.false_ne_true, pruneChildren_eq_map]
    congr 1
    refine (List.map_congr_left fun c hc => ih c hc _ fun below hbelow => ?_).trans
      (List.map_id' cs)
    rw [List.append_assoc]
    exact hopen (c.name :: below) (isDirectoryAt_cons.mpr ⟨c, named_of_mem names hc, hbelow⟩)

end IOSDeviceManager.General.DirectoryTree
