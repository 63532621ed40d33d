import IOSDeviceManager.General.PreorderWalk
import IOSDeviceManager.Utilities.FileUtils

/-! # The loop of `depthFirstPathsStartingAtDirectory:error:`

The loop keeps a stack of paths and asks the file manager about each. On a volume whose directories
can all be listed, it lists the tree in pre-order. A listing that fails makes it return `nil` only
if the caller has passed an error pointer: without one, the contents of the directory are left
out. -/

namespace IOSDeviceManager

open General

/-! ## `Stack` -/

/-- `Stack.m`: the top is the last object. -/
structure Stack (α : Type*) where
  objects : List α

namespace Stack

variable {α : Type*}

/-- `pushObjects:`. -/
def pushObjects (s : Stack α) (objects : List α) : Stack α :=
  ⟨s.objects ++ objects⟩

/-- `popObject`, with the stack that is left; `none` when the count is zero. -/
def popObject (s : Stack α) : Option (α × Stack α) :=
  s.objects.getLast?.map fun object => (object, ⟨s.objects.dropLast⟩)

/-- The stack with the objects, from the top down. -/
def ofTop (objects : List α) : Stack α :=
  ⟨objects.reverse⟩

@[simp] theorem popObject_ofTop_nil : (ofTop ([] : List α)).popObject = none := rfl

@[simp] theorem popObject_ofTop_cons (object : α) (objects : List α) :
    (ofTop (object :: objects)).popObject = some (object, ofTop objects) := by
  simp [ofTop, popObject]

@[simp] theorem pushObjects_ofTop (objects pushed : List α) :
    (ofTop objects).pushObjects pushed = ofTop (pushed.reverse ++ objects) := by
  simp [ofTop, pushObjects]

end Stack

/-! ## The file manager's side -/

/-- What is on a disk: a tree, some of whose directories cannot be listed. -/
structure Volume where
  tree : FileTree
  unreadable : Path → Bool
  distinctNames : tree.DistinctNames

namespace Volume

/-- `fileExistsAtPath:isDirectory:`: whether what exists is a directory. -/
def fileExistsAtPath (v : Volume) (path : Path) : Option Bool :=
  (v.tree.find path).map DirectoryTree.isDirectory

/-- `contentsOfDirectoryAtPath:error:`, `nil` with an error for what cannot be listed. -/
def contentsOfDirectoryAtPath (v : Volume) (path : Path) : Option (List String) :=
  if v.unreadable path then none
  else (v.tree.find path).map fun t => t.children.map DirectoryTree.name

/-- Every directory can be listed. -/
def Readable (v : Volume) : Prop :=
  ∀ path, v.unreadable path = false

/-- There is a directory at the path, and listing it fails. -/
def Blocked (v : Volume) (path : Path) : Prop :=
  v.tree.isDirectoryAt path = true ∧ v.unreadable path = true

/-- Listing some directory at or below the path fails. -/
def ListingFails (v : Volume) (dir : Path) : Prop :=
  ∃ path, dir <+: path ∧ v.Blocked path

end Volume

/-- The `error:` argument: `NULL`, or the address of a variable, in which there may be an error. -/
inductive ErrorPointer where
  | null
  | address (isSet : Bool)
  deriving DecidableEq

namespace ErrorPointer

/-- `error != nil && *error != nil`. -/
def isSet : ErrorPointer → Bool
  | null => false
  | address isSet => isSet

/-- The argument after an error has been reported through it. -/
def report : ErrorPointer → ErrorPointer
  | null => null
  | address _ => address true

end ErrorPointer

/-! ## The loop -/

/-- The variables of the loop. -/
structure Traversal where
  files : List Path
  filesToCheck : Stack Path
  error : ErrorPointer

/-- The loop goes on, or the method has returned. -/
inductive Progress where
  | going (t : Traversal)
  | returned (files : Option (List Path)) (error : ErrorPointer)

namespace Traversal

/-- One pass of `while (filesToCheck.count != 0)`. -/
def onePass (v : Volume) (t : Traversal) : Progress :=
  match t.filesToCheck.popObject with
  | none => .returned (some t.files) t.error
  | some (currentFile, filesToCheck) =>
      match v.fileExistsAtPath currentFile with
      | none => .returned none t.error.report
      | some isDir =>
          let files := t.files ++ [currentFile]
          if isDir then
            let contents := v.contentsOfDirectoryAtPath currentFile
            let error := if contents.isSome then t.error else t.error.report
            if error.isSet then .returned none error
            else
              let fullPathChildren := (contents.getD []).map fun file => currentFile ++ [file]
              .going ⟨files, filesToCheck.pushObjects fullPathChildren, error⟩
          else .going ⟨files, filesToCheck, t.error⟩

/-- At most so many passes. -/
def passes (v : Volume) : Nat → Traversal → Progress
  | 0, t => .going t
  | n + 1, t =>
      match onePass v t with
      | .going t' => passes v n t'
      | .returned files error => .returned files error

/-- The loop ends after some number of passes, and the method returns. -/
def Returns (v : Volume) (t : Traversal) (files : Option (List Path)) (error : ErrorPointer) :
    Prop :=
  ∃ n, passes v n t = .returned files error

end Traversal

namespace Volume

open Traversal

/-- `depthFirstPathsStartingAtDirectory:error:`, with at most so many passes of the loop. -/
def depthFirstPathsStartingAtDirectory (v : Volume) (dir : Path) (error : ErrorPointer) (n : Nat) :
    Progress :=
  if (v.fileExistsAtPath dir).isNone then .returned none error.report
  else passes v n ⟨[], ⟨[dir]⟩, error⟩

/-- What `depthFirstPathsStartingAtDirectory:error:` returns, the loop being run to its end. -/
def Lists (v : Volume) (dir : Path) (error : ErrorPointer) (files : Option (List Path)) : Prop :=
  ∃ n after, v.depthFirstPathsStartingAtDirectory dir error n = .returned files after

variable {v : Volume} {dir : Path} {error : ErrorPointer}

/-- What can be seen at a path and below it. -/
def Sees (v : Volume) (path : Path) (t : FileTree) : Prop :=
  ∃ whole, v.tree.find path = some whole ∧ t = whole.prune v.unreadable path

/-- What is seen in a directory is seen at the paths that are pushed. -/
theorem Sees.push {path : Path} {t : FileTree} {stack : List (Path × FileTree)}
    (hstack : ∀ node ∈ (path, t) :: stack, v.Sees node.1 node.2) :
    ∀ node ∈ (DirectoryTree.childNodes path t).reverse ++ stack, v.Sees node.1 node.2 := by
  intro node hnode
  have hsees : v.Sees path t := hstack _ List.mem_cons_self
  obtain ⟨whole, hfind, rfl⟩ := hsees
  rcases DirectoryTree.mem_push hnode with ⟨c, hc, rfl⟩ | hin
  · rw [DirectoryTree.children_prune] at hc
    split at hc
    · cases hc
    · obtain ⟨d, hd, rfl⟩ := List.mem_map.mp hc
      refine ⟨d, ?_, by simp⟩
      have hchild := DirectoryTree.find_child (v.distinctNames.of_find hfind) hd
      rw [DirectoryTree.name_prune, DirectoryTree.find_append, hfind]
      exact hchild
  · exact hstack node (List.mem_cons_of_mem _ hin)

/-- A pass on a path at which nothing is reported pushes what is seen there. -/
theorem pass_of_sees {path : Path} {t : FileTree} {stack : List (Path × FileTree)}
    {files : List Path} (hsees : v.Sees path t) (hclear : error.isSet = false)
    (hsafe : error = .null ∨ ¬ v.Blocked path) :
    onePass v ⟨files, .ofTop (path :: stack.map Prod.fst), error⟩ =
      .going ⟨files ++ [path],
        .ofTop (((DirectoryTree.childNodes path t).reverse ++ stack).map Prod.fst), error⟩ := by
  obtain ⟨whole, hfind, rfl⟩ := hsees
  cases whole with
  | file name =>
    simp [onePass, fileExistsAtPath, hfind, DirectoryTree.childNodes, DirectoryTree.prune]
  | directory name cs =>
    cases hunreadable : v.unreadable path with
    | false =>
      simp [onePass, fileExistsAtPath, contentsOfDirectoryAtPath, hfind, hunreadable, hclear,
        DirectoryTree.childNodes, DirectoryTree.children_prune, Function.comp_def]
    | true =>
      -- The failure is not noticed, since there is nowhere to report it.
      rcases hsafe with rfl | hsafe
      · simp [onePass, fileExistsAtPath, contentsOfDirectoryAtPath, hfind, hunreadable,
          ErrorPointer.report, ErrorPointer.isSet, DirectoryTree.childNodes,
          DirectoryTree.children_prune]
      · exact absurd ⟨by simp [DirectoryTree.isDirectoryAt, hfind], hunreadable⟩ hsafe

/-- A pass that goes on leaves the rest to the passes after it. -/
theorem returns_of_pass {t t' : Traversal} {files : Option (List Path)} {after : ErrorPointer}
    (hpass : onePass v t = .going t') (h : Returns v t' files after) : Returns v t files after := by
  obtain ⟨n, hn⟩ := h
  exact ⟨n + 1, by rw [passes, hpass]; exact hn⟩

/-- **A run that reports nothing.** The loop ends, and what it has collected is the walk of what
can be seen. -/
theorem returns_walk (stack : List (Path × FileTree))
    (hstack : ∀ node ∈ stack, v.Sees node.1 node.2) (hclear : error.isSet = false)
    (hsafe : error = .null ∨ ∀ node ∈ stack, ¬ v.ListingFails node.1) (files : List Path) :
    Returns v ⟨files, .ofTop (stack.map Prod.fst), error⟩
      (some (files ++ DirectoryTree.walk stack)) error := by
  induction stack using DirectoryTree.walk.induct generalizing files with
  | case1 => exact ⟨1, by simp [passes, onePass]⟩
  | case2 path t stack ih =>
    have hhere : error = .null ∨ ¬ v.Blocked path :=
      hsafe.imp_right fun h hblocked =>
        h _ List.mem_cons_self ⟨path, List.prefix_refl _, hblocked⟩
    have hlater : error = .null ∨
        ∀ node ∈ (DirectoryTree.childNodes path t).reverse ++ stack, ¬ v.ListingFails node.1 := by
      refine hsafe.imp_right fun h node hnode hfailing => ?_
      obtain ⟨q, hq, hfails⟩ := hfailing
      rcases DirectoryTree.mem_push hnode with ⟨c, -, rfl⟩ | hin
      · exact h _ List.mem_cons_self ⟨q, (List.prefix_append _ _).trans hq, hfails⟩
      · exact h node (List.mem_cons_of_mem _ hin) ⟨q, hq, hfails⟩
    refine returns_of_pass (pass_of_sees (hstack _ List.mem_cons_self) hclear hhere) ?_
    have hrest := ih (Sees.push hstack) hlater (files ++ [path])
    rwa [List.append_assoc, List.singleton_append, ← DirectoryTree.walk_cons] at hrest

/-- What lies below a path at which the listing succeeds is pushed, and the failures with it. -/
theorem listingFails_push {path : Path} {t : FileTree} {stack : List (Path × FileTree)}
    (hsees : v.Sees path t) (hopen : ¬ v.Blocked path) (hfails : v.ListingFails path) :
    ∃ node ∈ (DirectoryTree.childNodes path t).reverse ++ stack, v.ListingFails node.1 := by
  obtain ⟨whole, hfind, rfl⟩ := hsees
  obtain ⟨q, ⟨below, rfl⟩, hdir, hunreadable⟩ := hfails
  cases below with
  | nil => exact absurd ⟨by simpa using hdir, by simpa using hunreadable⟩ hopen
  | cons name below =>
    rw [DirectoryTree.isDirectoryAt, DirectoryTree.find_append, hfind] at hdir
    have hwhole : v.tree.isDirectoryAt path = true := by
      rw [DirectoryTree.isDirectoryAt, hfind]
      exact DirectoryTree.isDirectory_of_isDirectoryAt hdir
    have hreadable : v.unreadable path = false :=
      Bool.eq_false_iff.mpr fun h => hopen ⟨hwhole, h⟩
    obtain ⟨c, hc, -⟩ := DirectoryTree.isDirectoryAt_cons.mp hdir
    obtain ⟨hmem, rfl⟩ := DirectoryTree.named_eq_some hc
    refine ⟨(path ++ [c.name], c.prune v.unreadable (path ++ [c.name])),
      List.mem_append_left _ (List.mem_reverse.mpr ?_),
      path ++ c.name :: below, by simp, ?_, hunreadable⟩
    · rw [DirectoryTree.childNodes, DirectoryTree.children_prune, hreadable]
      simpa using ⟨c, hmem, by simp⟩
    · rw [DirectoryTree.isDirectoryAt, DirectoryTree.find_append, hfind]
      exact hdir

/-- A pass over a directory that cannot be listed returns `nil` if there is a variable for the
error. -/
theorem pass_of_blocked {path : Path} {stack : List Path} {files : List Path}
    (hblocked : v.Blocked path) :
    onePass v ⟨files, .ofTop (path :: stack), .address false⟩ =
      .returned none (.address true) := by
  obtain ⟨hdir, hunreadable⟩ := hblocked
  rw [DirectoryTree.isDirectoryAt, Option.any_eq_true] at hdir
  obtain ⟨whole, hfind, hwhole⟩ := hdir
  simp [onePass, fileExistsAtPath, contentsOfDirectoryAtPath, hfind, hwhole, hunreadable,
    ErrorPointer.report, ErrorPointer.isSet]

/-- **A run that reports an error.** The loop ends with `nil`, whatever it has collected. -/
theorem returns_none (stack : List (Path × FileTree))
    (hstack : ∀ node ∈ stack, v.Sees node.1 node.2)
    (hfails : ∃ node ∈ stack, v.ListingFails node.1) (files : List Path) :
    Returns v ⟨files, .ofTop (stack.map Prod.fst), .address false⟩ none (.address true) := by
  induction stack using DirectoryTree.walk.induct generalizing files with
  | case1 => simp at hfails
  | case2 path t stack ih =>
    have hsees : v.Sees path t := hstack _ List.mem_cons_self
    by_cases hblocked : v.Blocked path
    · exact ⟨1, by rw [List.map_cons, passes, pass_of_blocked hblocked]⟩
    · refine returns_of_pass (pass_of_sees hsees rfl (.inr hblocked)) (ih (Sees.push hstack) ?_ _)
      obtain ⟨node, hnode, hnodeFails⟩ := hfails
      rcases List.mem_cons.mp hnode with rfl | hin
      · exact listingFails_push hsees hblocked hnodeFails
      · exact ⟨node, List.mem_append_right _ hin, hnodeFails⟩

/-! ## Which list is returned -/

/-- A run that has ended stays as it is. -/
theorem passes_of_returned {t : Traversal} {files : Option (List Path)} {after : ErrorPointer}
    {n : Nat} (h : passes v n t = .returned files after) (more : Nat) :
    passes v (n + more) t = .returned files after := by
  induction n generalizing t with
  | zero => cases h
  | succ n ih =>
    rw [Nat.succ_add]
    simp only [passes] at h ⊢
    cases hpass : onePass v t with
    | going t' =>
      rw [hpass] at h
      exact ih h
    | returned files' after' =>
      rw [hpass] at h
      exact h

/-- There is one result. -/
theorem Lists.unique {files files' : Option (List Path)} (h : v.Lists dir error files)
    (h' : v.Lists dir error files') : files = files' := by
  obtain ⟨n, after, hn⟩ := h
  obtain ⟨m, after', hm⟩ := h'
  unfold depthFirstPathsStartingAtDirectory at hn hm
  by_cases hnothing : (v.fileExistsAtPath dir).isNone = true
  · rw [if_pos hnothing] at hn hm
    cases hn
    cases hm
    rfl
  · rw [if_neg hnothing] at hn hm
    have hmore := passes_of_returned hn m
    rw [Nat.add_comm, passes_of_returned hm n] at hmore
    cases hmore
    rfl

/-- Where nothing is, nothing is listed. -/
theorem lists_of_find_eq_none (h : v.tree.find dir = none) : v.Lists dir error none :=
  ⟨0, error.report, by simp [depthFirstPathsStartingAtDirectory, fileExistsAtPath, h]⟩

/-- The method ends with what its loop ends with. -/
theorem lists_of_returns {t : FileTree} {files : Option (List Path)} {after : ErrorPointer}
    (hfind : v.tree.find dir = some t)
    (h : Returns v ⟨[], .ofTop [dir], error⟩ files after) : v.Lists dir error files := by
  obtain ⟨n, hn⟩ := h
  refine ⟨n, after, ?_⟩
  rw [depthFirstPathsStartingAtDirectory, fileExistsAtPath, hfind]
  exact hn

/-- Unless an error is noticed, the list is the walk of what can be seen. -/
theorem lists_walk {t : FileTree} (hfind : v.tree.find dir = some t) (hclear : error.isSet = false)
    (hsafe : error = .null ∨ ¬ v.ListingFails dir) :
    v.Lists dir error (some ((t.prune v.unreadable dir).preorder dir)) := by
  have hreturns := returns_walk [(dir, t.prune v.unreadable dir)]
    (by simpa using ⟨t, hfind, rfl⟩) hclear (by simpa using hsafe) []
  rw [DirectoryTree.walk_singleton] at hreturns
  exact lists_of_returns hfind hreturns

/-- If no listing fails, everything can be seen. -/
theorem prune_of_not_listingFails {t : FileTree} (hfind : v.tree.find dir = some t)
    (h : ¬ v.ListingFails dir) : t.prune v.unreadable dir = t := by
  refine DirectoryTree.prune_eq_self (v.distinctNames.of_find hfind) dir fun below hbelow => ?_
  refine Bool.eq_false_iff.mpr fun hunreadable => h ⟨dir ++ below, ?_, ?_, hunreadable⟩
  · exact List.prefix_append dir below
  · rw [DirectoryTree.isDirectoryAt, DirectoryTree.find_append, hfind]
    exact hbelow

theorem Readable.not_listingFails (h : v.Readable) (dir : Path) : ¬ v.ListingFails dir := by
  rintro ⟨path, -, -, hunreadable⟩
  rw [h path] at hunreadable
  cases hunreadable

/-- On a readable volume the loop agrees with the walk of the tree. -/
theorem lists_of_readable (hreadable : v.Readable) (dir : Path) (hclear : error.isSet = false) :
    v.Lists dir error (FileUtils.depthFirstPathsStartingAtDirectory v.tree dir) := by
  rw [FileUtils.depthFirstPathsStartingAtDirectory]
  cases hfind : v.tree.find dir with
  | none => exact lists_of_find_eq_none hfind
  | some t =>
    have hseen := prune_of_not_listingFails hfind (hreadable.not_listingFails dir)
    rw [Option.map_some, DirectoryTree.walk_singleton]
    simpa only [hseen] using lists_walk hfind hclear (.inr (hreadable.not_listingFails dir))

/-! ## Every path once, parents first -/

/-- A list of everything at a path and below it, each directory right before what lies in it. -/
structure ListsOnce (t : FileTree) (dir : Path) (files : List Path) : Prop where
  /-- Root, then the children from the last to the first. -/
  order : files = t.preorder dir
  every : ∀ path, path ∈ files ↔ ∃ below, path = dir ++ below ∧ (t.find below).isSome
  once : files.Nodup
  /-- The descendants of a path follow it, and nothing else stands among them. -/
  adjacent : ∀ path ∈ files, ∃ before inside after, files = before ++ path :: inside ++ after ∧
    ∀ q, q ∈ inside ↔ q ∈ files ∧ path <+: q ∧ q ≠ path
  /-- The same paths as those that `fileSeq:handler:` hands to its handler. -/
  handled : t.isDirectory = true →
    files.Perm (dir :: FileUtils.fileSeq (fun path seen => seen ++ [path]) dir t [])
  /-- Reversed, what lies in a directory comes before it. -/
  contentsFirst : ∀ path q l₁ l₂, files.reverse = l₁ ++ path :: l₂ → q ∈ files → path <+: q →
    q ≠ path → q ∈ l₁

/-- The handler is called on the entries. -/
theorem fileSeq_collects (dir : Path) (t : FileTree) :
    FileUtils.fileSeq (fun path seen => seen ++ [path]) dir t [] = t.entries dir := by
  rw [FileUtils.fileSeq_eq_foldl, List.foldl_append_eq_append, List.nil_append,
    ← List.flatMap_def, List.flatMap_singleton']

/-- **Depth first.** On a readable volume the loop ends, and the list that is returned has every
path once, parents first. -/
theorem depthFirstPaths_listsOnce {t : FileTree} (hreadable : v.Readable)
    (hfind : v.tree.find dir = some t) (hclear : error.isSet = false) :
    ∃ files, v.Lists dir error (some files) ∧ ListsOnce t dir files := by
  have hdistinct := v.distinctNames.of_find hfind
  have hlists := lists_of_readable hreadable dir hclear
  rw [FileUtils.depthFirstPathsStartingAtDirectory, hfind, Option.map_some,
    DirectoryTree.walk_singleton] at hlists
  refine ⟨_, hlists, ?_⟩
  constructor
  case order => rfl
  case every => exact fun path => DirectoryTree.mem_preorder_iff hdistinct
  case once => exact hdistinct.nodup_preorder dir
  case adjacent => exact fun path hpath => DirectoryTree.exists_descendants_after hdistinct hpath
  case handled =>
    intro _
    rw [fileSeq_collects]
    exact DirectoryTree.preorder_perm dir t
  case contentsFirst =>
    intro path q l₁ l₂ hsplit hq hpre hne
    exact DirectoryTree.mem_before_of_reverse_eq_append hdistinct hsplit hq hpre hne

/-- An app with a library in a directory. -/
def appVolume (unreadable : Path → Bool) : Volume where
  tree := .directory "/" [.directory "A.app"
    [.directory "Frameworks" [.file "F.dylib"], .file "Info.plist"]]
  unreadable := unreadable
  distinctNames := by
    refine .directory _ (by decide) fun c hc => ?_
    obtain rfl := List.mem_singleton.mp hc
    refine .directory _ (by decide) fun c hc => ?_
    rcases List.mem_pair.mp hc with rfl | rfl
    · refine .directory _ (by decide) fun c hc => ?_
      obtain rfl := List.mem_singleton.mp hc
      exact .file _
    · exact .file _

theorem depthFirstPaths_listsOnce_app :
    ∃ files, (appVolume fun _ => false).Lists ["A.app"] .null (some files) ∧
      ListsOnce (.directory "A.app" [.directory "Frameworks" [.file "F.dylib"],
        .file "Info.plist"]) ["A.app"] files :=
  depthFirstPaths_listsOnce (fun _ => rfl) rfl rfl

/-! ## Failed listings -/

/-- A listing that fails is not passed over. -/
structure FailsClosed (v : Volume) (dir : Path) : Prop where
  withPointer : v.ListingFails dir → v.Lists dir (.address false) none
  withoutPointer : v.ListingFails dir → v.Lists dir .null none
  agree : ∀ files, v.Lists dir (.address false) files ↔ v.Lists dir .null files
  /-- What `resignAppDir` goes through lacks nothing that is in the directory. -/
  complete : ∀ files, v.Lists dir .null (some files) →
    ∀ below, (v.tree.find (dir ++ below)).isSome → dir ++ below ∈ files

/-- A directory in which something cannot be listed is there. -/
theorem ListingFails.exists_find (h : v.ListingFails dir) : ∃ t, v.tree.find dir = some t := by
  obtain ⟨q, ⟨below, rfl⟩, hdir, -⟩ := h
  rw [DirectoryTree.isDirectoryAt, DirectoryTree.find_append] at hdir
  cases hfind : v.tree.find dir with
  | none => simp [hfind] at hdir
  | some t => exact ⟨t, rfl⟩

/-- With a variable for the error, a failure is returned. -/
theorem ListingFails.lists_none (h : v.ListingFails dir) : v.Lists dir (.address false) none := by
  obtain ⟨t, hfind⟩ := h.exists_find
  exact lists_of_returns hfind (returns_none [(dir, t.prune v.unreadable dir)]
    (by simpa using ⟨t, hfind, rfl⟩) (by simpa using h) [])

/-- **Only with an error pointer.** Called with `NULL`, as `resignAppDir` does, the method passes
over every directory whose listing fails. -/
theorem failsClosed_iff (v : Volume) (dir : Path) : v.FailsClosed dir ↔ ¬ v.ListingFails dir := by
  constructor
  · intro h hfails
    obtain ⟨t, hfind⟩ := hfails.exists_find
    cases (h.withoutPointer hfails).unique (lists_walk hfind rfl (.inl rfl))
  · intro hfine
    cases hfind : v.tree.find dir with
    | none =>
      have hnothing : ∀ error, v.Lists dir error none := fun _ => lists_of_find_eq_none hfind
      refine ⟨ListingFails.lists_none, fun h => absurd h hfine, fun files => ?_, ?_⟩
      · exact ⟨fun h => (hnothing _).unique h ▸ hnothing _,
          fun h => (hnothing _).unique h ▸ hnothing _⟩
      · intro files hlists
        cases (hnothing _).unique hlists
    | some t =>
      have hwalk : ∀ error : ErrorPointer, error.isSet = false →
          v.Lists dir error (some (t.preorder dir)) := by
        intro error hclear
        have hlists := lists_walk hfind hclear (.inr hfine)
        rwa [prune_of_not_listingFails hfind hfine] at hlists
      have hnull := hwalk .null rfl
      have haddress := hwalk (.address false) rfl
      refine ⟨ListingFails.lists_none, fun h => absurd h hfine, fun files => ?_, ?_⟩
      · exact ⟨fun h => haddress.unique h ▸ hnull, fun h => hnull.unique h ▸ haddress⟩
      · intro files hlists below hbelow
        cases hnull.unique hlists
        rw [DirectoryTree.find_append, hfind] at hbelow
        exact (DirectoryTree.mem_preorder_iff (v.distinctNames.of_find hfind)).mpr
          ⟨below, rfl, hbelow⟩

/-- The library in a directory that cannot be listed is not found. -/
theorem not_failsClosed_app :
    (appVolume fun path => path = ["A.app", "Frameworks"]).Lists ["A.app"] .null
        (some [["A.app"], ["A.app", "Info.plist"], ["A.app", "Frameworks"]]) ∧
      ¬ (appVolume fun path => path = ["A.app", "Frameworks"]).FailsClosed ["A.app"] := by
  have hlists : (appVolume fun path => path = ["A.app", "Frameworks"]).Lists ["A.app"] .null
      (some [["A.app"], ["A.app", "Info.plist"], ["A.app", "Frameworks"]]) :=
    ⟨4, .null, rfl⟩
  refine ⟨hlists, fun h => ?_⟩
  have hmissing := h.complete _ hlists ["Frameworks", "F.dylib"] (by decide)
  simp at hmissing

end Volume

end IOSDeviceManager
