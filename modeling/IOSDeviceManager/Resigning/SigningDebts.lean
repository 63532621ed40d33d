import IOSDeviceManager.General.Obligations
import IOSDeviceManager.Resigning.SigningRun

/-! # What a change calls for, and the loops

After a change the containers around it have to be signed. A call ends with signing its app
directory; the containers that its loops still come to are signed or rejected, since the reversed
depth-first listing names a directory after everything in it. These are the debts of an event, and
the two loops of a call pay those for the containers within the app directory. -/

namespace IOSDeviceManager

open General

namespace SigningRun

/-- A framework. -/
def isFramework (path : Path) : Bool :=
  Path.hasSuffix path ".framework"

/-- A directory with a signature of its own. -/
def isContainer (path : Path) : Bool :=
  isFramework path || isResignableBundle path || Path.hasSuffix path ".app"

instance (container path : Path) : Decidable (Contains container path) :=
  inferInstanceAs (Decidable (container <+: path ∧ container ≠ path))

/-- The innermost open app directory around a path. -/
def enclosing (calls : List Path) (path : Path) : Option Path :=
  calls.find? fun appDir => Contains appDir path

/-- The call of the innermost open app directory around the container still comes to the container:
a framework if no call inside it is open, a plugin bundle if it lies in the plugins directory. -/
def Ahead (calls : List Path) (container : Path) : Prop :=
  ∃ appDir, enclosing calls container = some appDir ∧
    (isFramework container = true ∧ calls.head? = some appDir ∨
      isResignableBundle container = true ∧ pluginsPath appDir <+: container)

/-- What a change calls for. -/
inductive Debt where
  /-- The container has to be signed. -/
  | signature (container : Path)
  /-- The container has to be signed or to be rejected. -/
  | verdict (container : Path)

/-- The container. -/
def Debt.container : Debt → Path
  | signature container => container
  | verdict container => container

@[simp] theorem Debt.container_signature (container : Path) :
    (Debt.signature container).container = container := rfl

@[simp] theorem Debt.container_verdict (container : Path) :
    (Debt.verdict container).container = container := rfl

/-- What is called for at an event, for each container around the changed path: a signature for the
app directories of open calls, a verdict for the containers ahead, as far as they ship. -/
def owes (ships : Path → Prop) (e : Event) (d : Debt) : Prop :=
  ∃ path, e.action.changed = some path ∧ Contains d.container path ∧
    match d with
    | .signature container => container ∈ e.calls
    | .verdict container => ships container ∧ Ahead e.calls container

/-- An event that signs pays every debt of the container, a rejection pays a verdict. -/
def pays (e : Event) : Debt → Prop
  | .signature container => e.action = .sign container
  | .verdict container => e.action = .sign container ∨ e.action = .pass container

theorem pays_of_sign {e : Event} {d : Debt} (h : e.action = .sign d.container) : pays e d := by
  cases d with
  | signature container => exact h
  | verdict container => exact .inl h

/-! ## The debts of a call -/

/-- The debts that the loops of a call pay. -/
def OwnDebt (ships : Path → Prop) (appDir : Path) (d : Debt) : Prop :=
  ∃ container, d = .verdict container ∧ ships container ∧ Contains appDir container ∧
    (isFramework container = true ∨
      isResignableBundle container = true ∧ pluginsPath appDir <+: container)

/-- The debts that are left when the loops of a call are done. -/
def LeftDebt (appDir : Path) (d : Debt) : Prop :=
  ¬ appDir <+: d.container ∨ d.container = appDir

section Debts

variable {ships : Path → Prop} {outer : List Path} {appDir : Path} {e : Event} {d : Debt}

/-- A container in an app directory is none of the directories around that. -/
theorem not_mem_outer (houter : ∀ dir ∈ outer, Contains dir appDir) {container : Path}
    (h : appDir <+: container) : container ∉ outer := by
  intro hmem
  have hle := h.length_le
  have hlt := (houter container hmem).length_lt
  omega

/-- The innermost call is the enclosing one of what it contains. -/
theorem enclosing_cons_self {container : Path} (h : Contains appDir container) :
    enclosing (appDir :: outer) container = some appDir :=
  List.find?_cons_of_pos (by simpa using h)

/-- Calls at least as deep as the container do not enclose it. -/
theorem enclosing_append {inner : List Path} {container : Path}
    (h : ∀ dir ∈ inner, container.length ≤ dir.length) :
    enclosing (inner ++ outer) container = enclosing outer container := by
  have hnone : inner.find? (fun dir => Contains dir container) = none := by
    refine List.find?_eq_none.mpr fun dir hdir hcontains => ?_
    have hle := h dir hdir
    have hlt := (of_decide_eq_true hcontains).length_lt
    omega
  rw [enclosing, List.find?_append, hnone, Option.none_or]
  rfl

/-- An event of a call itself owes what its loops pay, or what is left after them. -/
theorem owes_own (houter : ∀ dir ∈ outer, Contains dir appDir) (hcalls : e.calls = appDir :: outer)
    (h : owes ships e d) : OwnDebt ships appDir d ∨ LeftDebt appDir d := by
  obtain ⟨path, -, -, hdebt⟩ := h
  by_cases hpre : appDir <+: d.container
  · by_cases hself : d.container = appDir
    · exact .inr (.inr hself)
    · have hcontains : Contains appDir d.container := ⟨hpre, Ne.symm hself⟩
      rw [hcalls] at hdebt
      cases d with
      | signature container =>
        rcases List.mem_cons.mp hdebt with heq | hmem
        · exact absurd heq hself
        · exact absurd hmem (not_mem_outer houter hpre)
      | verdict container =>
        obtain ⟨hships, dir, hdir, hkind⟩ := hdebt
        obtain rfl : appDir = dir :=
          Option.some.inj ((enclosing_cons_self hcontains).symm.trans hdir)
        exact .inl ⟨container, rfl, hships, hcontains, hkind.imp And.left id⟩
  · exact .inr (.inl hpre)

/-- The calls of an event that happens in the call of a bundle, and where it changes something. -/
structure Within (outer : List Path) (file : Path) (e : Event) : Prop where
  calls : ∃ inner, e.calls = inner ++ file :: outer ∧ ∀ dir ∈ inner, Contains file dir
  changed : ∀ path, e.action.changed = some path → file <+: path

/-- The open calls of such an event end with the calls around the bundle, and those before are at
least as deep as the bundle. -/
theorem Within.exists_inner {file : Path} (h : Within outer file e) :
    ∃ inner, e.calls = inner ++ outer ∧ inner ≠ [] ∧ ∀ dir ∈ inner, file.length ≤ dir.length := by
  obtain ⟨inner, hcalls, hinner⟩ := h.calls
  refine ⟨inner ++ [file], by simp [hcalls], by simp, fun dir hdir => ?_⟩
  rcases List.mem_append.mp hdir with hdir | hdir
  · exact (hinner dir hdir).length_lt.le
  · rw [List.mem_singleton.mp hdir]

/-- The debts of an event in the call of a plugin bundle to the containers around that bundle that
the loop over the plugins pays. -/
def PluginDebt (ships : Path → Prop) (appDir file : Path) (d : Debt) : Prop :=
  ∃ container, d = .verdict container ∧ ships container ∧ Contains container file ∧
    isResignableBundle container = true ∧ pluginsPath appDir <+: container

/-- An event in the call of a plugin bundle owes to the containers outside of that bundle what the
loop over the plugins pays, or what is left after it. -/
theorem owes_within {file : Path} (houter : ∀ dir ∈ outer, Contains dir appDir)
    (hwithin : Within (appDir :: outer) file e) (h : owes ships e d)
    (houtside : ¬ file <+: d.container) : PluginDebt ships appDir file d ∨ LeftDebt appDir d := by
  obtain ⟨path, hchanged, hcontains, hdebt⟩ := h
  have hpre : d.container <+: file :=
    (List.prefix_or_prefix_of_prefix hcontains.1 (hwithin.changed path hchanged)).resolve_right
      houtside
  have haround : Contains d.container file :=
    ⟨hpre, fun heq => houtside (heq ▸ List.prefix_refl _)⟩
  have hlt := haround.length_lt
  by_cases happ : appDir <+: d.container
  · by_cases hself : d.container = appDir
    · exact .inr (.inr hself)
    · have hin : Contains appDir d.container := ⟨happ, Ne.symm hself⟩
      obtain ⟨inner, hcalls, hne, hdeep⟩ := hwithin.exists_inner
      rw [hcalls] at hdebt
      cases d with
      | signature container =>
        simp only [Debt.container_signature] at hlt
        rcases List.mem_append.mp hdebt with hmem | hmem
        · have hle := hdeep container hmem
          omega
        · rcases List.mem_cons.mp hmem with heq | hmem
          · exact absurd heq hself
          · exact absurd hmem (not_mem_outer houter happ)
      | verdict container =>
        simp only [Debt.container_verdict] at hlt hin
        obtain ⟨hships, dir, hdir, hkind⟩ := hdebt
        -- the open calls inside the container do not enclose it
        rw [enclosing_append fun dir hdir => hlt.le.trans (hdeep dir hdir),
          enclosing_cons_self hin] at hdir
        obtain rfl := Option.some.inj hdir
        rcases hkind with ⟨-, hhead⟩ | ⟨hbundle, hplugins⟩
        · -- a framework would have to lie in the innermost call
          rw [List.head?_append_of_ne_nil _ hne] at hhead
          have hle := hdeep appDir (List.mem_of_mem_head? hhead)
          have hinlt := hin.length_lt
          omega
        · exact .inl ⟨container, rfl, hships, haround, hbundle, hplugins⟩
  · exact .inr (.inl happ)

end Debts

/-! ## The loops -/

section Loops

variable {tools : SigningTools} {identity : CodesignIdentity} {ships : Path → Prop}
  {outer : List Path} {appDir : Path}

/-- Everything in `root` around a listed path is listed after it. -/
def AncestorsLater (root : Path) (files : List Path) : Prop :=
  ∀ before path later, files = before ++ path :: later →
    ∀ container, root <+: container → Contains container path → container ∈ later

theorem AncestorsLater.tail {root file : Path} {files : List Path}
    (h : AncestorsLater root (file :: files)) : AncestorsLater root files :=
  fun before path later hsplit => h (file :: before) path later (by rw [hsplit]; rfl)

/-- The reversed listing of a directory. -/
theorem ancestorsLater_reverse {tree : FileTree} {root : Path} {files : List Path}
    (h : FileUtils.depthFirstPathsStartingAtDirectory tree root = some files) :
    AncestorsLater root files.reverse := by
  intro before path later hsplit container hroot hcontains
  obtain ⟨sub, -, rfl⟩ := Option.map_eq_some_iff.mp h
  have hwalk : DirectoryTree.walk [(root, sub)] =
      later.reverse ++ path :: before.reverse := by
    rw [← List.reverse_reverse (DirectoryTree.walk [(root, sub)]), hsplit]
    simp
  exact List.mem_reverse.mp
    (DirectoryTree.mem_before_of_walk_eq_append hwalk hroot hcontains.1 hcontains.2)

/-- What is listed lies in the directory. -/
theorem prefix_of_mem_files {tree : FileTree} {root path : Path} {files : List Path}
    (h : FileUtils.depthFirstPathsStartingAtDirectory tree root = some files)
    (hpath : path ∈ files) : root <+: path := by
  obtain ⟨sub, -, rfl⟩ := Option.map_eq_some_iff.mp h
  obtain ⟨node, hnode, hpre⟩ := DirectoryTree.exists_prefix_of_mem_walk hpath
  rwa [List.mem_singleton.mp hnode] at hpre

/-- Every directory inside is listed. -/
theorem exists_files_of_isDirectoryAt {tree : FileTree} {root container : Path}
    (hroot : root <+: container) (hdir : tree.isDirectoryAt container = true) :
    ∃ files, FileUtils.depthFirstPathsStartingAtDirectory tree root = some files ∧
      container ∈ files := by
  obtain ⟨below, rfl⟩ := hroot
  rw [DirectoryTree.isDirectoryAt, DirectoryTree.find_append] at hdir
  cases hsub : tree.find root with
  | none => simp [hsub] at hdir
  | some sub =>
    rw [hsub, Option.bind_some] at hdir
    have hfind : (sub.find below).isSome := by
      cases hbelow : sub.find below with
      | none => simp [hbelow] at hdir
      | some _ => rfl
    refine ⟨_, by rw [FileUtils.depthFirstPathsStartingAtDirectory, hsub]; rfl, ?_⟩
    have hnode : (root, sub) ∈ [(root, sub)] := List.mem_singleton_self _
    exact DirectoryTree.mem_walk_of_find hnode hfind

/-! ### The objects -/

/-- A framework is an object. -/
theorem isDylibOrFramework_of_isFramework {path : Path} (h : isFramework path = true) :
    FileUtils.isDylibOrFramework path = true := by
  rw [FileUtils.isDylibOrFramework]
  rw [isFramework] at h
  rw [h, Bool.true_or]

/-- Every object that is listed is signed or rejected. -/
theorem paidIn_signObjects {calls files : List Path} {path : Path} (hpath : path ∈ files)
    (hobject : FileUtils.isDylibOrFramework path = true) (s : SigningState) :
    PaidIn pays (signObjects tools identity calls appDir files s).1 (.verdict path) := by
  induction files generalizing s with
  | nil => cases hpath
  | cons file files ih =>
    unfold signObjects
    rcases List.mem_cons.mp hpath with rfl | hmem
    · rw [if_pos hobject]
      split
      · exact ⟨_, List.mem_cons_self, .inl rfl⟩
      · exact ⟨_, List.mem_cons_self, .inr rfl⟩
    · split
      · split
        · exact (ih hmem _).cons
        · exact (ih hmem _).cons
      · exact ih hmem s

/-- What is done to the objects is done by the call, to listed paths. -/
theorem mem_signObjects {calls files : List Path} {s : SigningState} {e : Event}
    (h : e ∈ (signObjects tools identity calls appDir files s).1) :
    e.calls = calls ∧ ∃ path ∈ files, e.action = .sign path ∨ e.action = .pass path := by
  induction files generalizing s with
  | nil => cases h
  | cons file files ih =>
    have hlater : ∀ {s}, e ∈ (signObjects tools identity calls appDir files s).1 →
        e.calls = calls ∧
          ∃ path ∈ file :: files, e.action = .sign path ∨ e.action = .pass path := by
      intro s hmem
      obtain ⟨hcalls, path, hpath, haction⟩ := ih hmem
      exact ⟨hcalls, path, List.mem_cons_of_mem _ hpath, haction⟩
    unfold signObjects at h
    split at h
    · split at h
      · rcases List.mem_cons.mp h with rfl | hmem
        · exact ⟨rfl, file, List.mem_cons_self, .inl rfl⟩
        · exact hlater hmem
      · rcases List.mem_cons.mp h with rfl | hmem
        · exact ⟨rfl, file, List.mem_cons_self, .inr rfl⟩
        · exact hlater hmem
    · exact hlater h

/-- The debts that the loop over the plugins still has to pay for the call itself. -/
def BundleDebt (ships : Path → Prop) (appDir : Path) (d : Debt) : Prop :=
  ∃ container, d = .verdict container ∧ ships container ∧
    isResignableBundle container = true ∧ pluginsPath appDir <+: container

/-- **The loop over the objects** pays for all frameworks around what it signs. -/
theorem settled_signObjects (houter : ∀ dir ∈ outer, Contains dir appDir) {files : List Path}
    (horder : AncestorsLater appDir files) (s : SigningState) :
    Settled (owes ships) pays (fun d => BundleDebt ships appDir d ∨ LeftDebt appDir d)
      (signObjects tools identity (appDir :: outer) appDir files s).1 := by
  induction files generalizing s with
  | nil => trivial
  | cons file files ih =>
    have hpaid : ∀ (s : SigningState) (action : Action), action.changed = some file ∨
        action.changed = none → ∀ d, owes ships ⟨appDir :: outer, action⟩ d →
        PaidIn pays (signObjects tools identity (appDir :: outer) appDir files s).1 d ∨
          BundleDebt ships appDir d ∨ LeftDebt appDir d := by
      intro s action haction d howes
      obtain ⟨container, rfl, hships, hin, hframework | ⟨hbundle, hplugins⟩⟩ | hleft :=
        owes_own houter rfl howes
      · obtain ⟨path, hchanged, hcontains, -⟩ := howes
        obtain rfl : file = path := by
          rcases haction with hfile | hnone
          · exact Option.some.inj (hfile.symm.trans hchanged)
          · exact absurd (hnone.symm.trans hchanged) (by simp)
        have hlater := horder [] file files rfl container hin.1 hcontains
        exact .inl (paidIn_signObjects hlater (isDylibOrFramework_of_isFramework hframework) s)
      · exact .inr (.inl ⟨container, rfl, hships, hbundle, hplugins⟩)
      · exact .inr (.inr hleft)
    unfold signObjects
    split
    · split
      · exact ⟨hpaid _ _ (.inl rfl), ih horder.tail _⟩
      · exact ⟨hpaid _ _ (.inr rfl), ih horder.tail _⟩
    · exact ih horder.tail s

/-! ### The plugin bundles -/

/-- What a call does. -/
structure CallSpec (outer : List Path) (appDir : Path) (r : List Event × SigningState) : Prop where
  /-- The app directory is signed last. -/
  signed : ∃ before, r.1 = before ++ [⟨appDir :: outer, .sign appDir⟩]
  within : ∀ e ∈ r.1, Within outer appDir e
  /-- Every debt within the app directory is paid. -/
  settled : ∀ ships : Path → Prop, (∀ q, ships q → r.2.tree.isDirectoryAt q = true) →
    Settled (owes ships) pays (fun d => ¬ appDir <+: d.container) r.1

/-- A call pays what is owed to its app directory. -/
theorem CallSpec.paidIn {file : Path} {r : List Event × SigningState} (h : CallSpec outer file r)
    {d : Debt} (hd : d.container = file) : PaidIn pays r.1 d := by
  obtain ⟨before, hr⟩ := h.signed
  refine ⟨_, ?_, pays_of_sign (e := ⟨file :: outer, .sign file⟩) (by rw [hd])⟩
  simp [hr]

/-- One round of the loop over the files of the plugins directory. -/
theorem resignBundles_cons_eq_ok {resign : Path → SigningState → Result} {calls : List Path}
    {file : Path} {files : List Path} {s : SigningState} {r : List Event × SigningState}
    (h : resignBundles resign calls appDir (file :: files) s = .ok r) :
    (∃ bundle rest, resign file s = .ok bundle ∧
        resignBundles resign calls appDir files bundle.2 = .ok rest ∧
        r = (bundle.1 ++ rest.1, rest.2)) ∨
      (∃ rest, resignBundles resign calls appDir files s = .ok rest ∧
        r = (⟨calls, .pass file⟩ :: rest.1, rest.2)) ∨
      (isResignableBundle file = false ∧ resignBundles resign calls appDir files s = .ok r) := by
  rw [resignBundles] at h
  split at h
  · split at h
    · obtain ⟨bundle, hbundle, h⟩ := Codesigner.bind_eq_ok_iff.mp h
      obtain ⟨rest, hrest, h⟩ := Codesigner.bind_eq_ok_iff.mp h
      exact .inl ⟨bundle, rest, hbundle, hrest, (Except.ok.inj h).symm⟩
    · obtain ⟨rest, hrest, h⟩ := Codesigner.bind_eq_ok_iff.mp h
      exact .inr (.inl ⟨rest, hrest, (Except.ok.inj h).symm⟩)
  · rename_i hnot
    exact .inr (.inr ⟨by simpa using hnot, h⟩)

/-- The calls that the loop makes do what they should, and add no directory. -/
def CallsSpec (outer : List Path) (resign : Path → SigningState → Result) (files : List Path) :
    Prop :=
  ∀ file ∈ files, ∀ s r, resign file s = .ok r → CallSpec outer file r ∧
    ∀ q, r.2.tree.isDirectoryAt q = true → s.tree.isDirectoryAt q = true

theorem CallsSpec.tail {resign : Path → SigningState → Result} {file : Path} {files : List Path}
    (h : CallsSpec outer resign (file :: files)) : CallsSpec outer resign files :=
  fun other hother => h other (List.mem_cons_of_mem _ hother)

/-- The loop adds no directory. -/
theorem isDirectoryAt_of_resignBundles {resign : Path → SigningState → Result}
    {files : List Path} (hresign : CallsSpec (appDir :: outer) resign files) {s : SigningState}
    {r : List Event × SigningState}
    (h : resignBundles resign (appDir :: outer) appDir files s = .ok r) {q : Path}
    (hq : r.2.tree.isDirectoryAt q = true) : s.tree.isDirectoryAt q = true := by
  induction files generalizing s r with
  | nil =>
    obtain rfl := Except.ok.inj h
    exact hq
  | cons file files ih =>
    obtain ⟨bundle, rest, hbundle, hrest, rfl⟩ | ⟨rest, hrest, rfl⟩ | ⟨-, hrest⟩ :=
      resignBundles_cons_eq_ok h
    · exact (hresign file List.mem_cons_self s bundle hbundle).2 q (ih hresign.tail hrest hq)
    · exact ih hresign.tail hrest hq
    · exact ih hresign.tail hrest hq

/-- Every plugin bundle that is listed is signed or rejected. -/
theorem paidIn_resignBundles {resign : Path → SigningState → Result} {files : List Path}
    (hresign : CallsSpec (appDir :: outer) resign files) {s : SigningState}
    {r : List Event × SigningState}
    (h : resignBundles resign (appDir :: outer) appDir files s = .ok r) {path : Path}
    (hpath : path ∈ files) (hbundle : isResignableBundle path = true) :
    PaidIn pays r.1 (.verdict path) := by
  induction files generalizing s r with
  | nil => cases hpath
  | cons file files ih =>
    obtain ⟨bundle, rest, hcall, hrest, rfl⟩ | ⟨rest, hrest, rfl⟩ | ⟨hnot, hrest⟩ :=
      resignBundles_cons_eq_ok h
    · rw [paidIn_append]
      rcases List.mem_cons.mp hpath with rfl | hmem
      · exact .inl ((hresign path List.mem_cons_self s bundle hcall).1.paidIn rfl)
      · exact .inr (ih hresign.tail hrest hmem)
    · rcases List.mem_cons.mp hpath with rfl | hmem
      · exact ⟨_, List.mem_cons_self, .inr rfl⟩
      · exact (ih hresign.tail hrest hmem).cons
    · rcases List.mem_cons.mp hpath with rfl | hmem
      · rw [hbundle] at hnot
        cases hnot
      · exact ih hresign.tail hrest hmem

/-- What happens in the loop is a rejection or happens in the call of a listed file. -/
theorem mem_resignBundles {resign : Path → SigningState → Result} {files : List Path}
    (hresign : CallsSpec (appDir :: outer) resign files) {s : SigningState}
    {r : List Event × SigningState}
    (h : resignBundles resign (appDir :: outer) appDir files s = .ok r) {e : Event}
    (he : e ∈ r.1) :
    (∃ path, e = ⟨appDir :: outer, .pass path⟩) ∨
      ∃ file ∈ files, Within (appDir :: outer) file e := by
  induction files generalizing s r with
  | nil =>
    obtain rfl := Except.ok.inj h
    cases he
  | cons file files ih =>
    have hlater : ∀ {s rest}, resignBundles resign (appDir :: outer) appDir files s = .ok rest →
        e ∈ rest.1 → (∃ path, e = ⟨appDir :: outer, .pass path⟩) ∨
          ∃ other ∈ file :: files, Within (appDir :: outer) other e := by
      intro s rest hrest hmem
      rcases ih hresign.tail hrest hmem with hpass | ⟨other, hother, hwithin⟩
      · exact .inl hpass
      · exact .inr ⟨other, List.mem_cons_of_mem _ hother, hwithin⟩
    obtain ⟨bundle, rest, hcall, hrest, rfl⟩ | ⟨rest, hrest, rfl⟩ | ⟨-, hrest⟩ :=
      resignBundles_cons_eq_ok h
    · rcases List.mem_append.mp he with hmem | hmem
      · exact .inr ⟨file, List.mem_cons_self,
          (hresign file List.mem_cons_self s bundle hcall).1.within e hmem⟩
      · exact hlater hrest hmem
    · rcases List.mem_cons.mp he with rfl | hmem
      · exact .inl ⟨file, rfl⟩
      · exact hlater hrest hmem
    · exact hlater hrest he

/-- **The loop over the plugin bundles** pays for all plugin bundles around those that it
resigns. -/
theorem settled_resignBundles (houter : ∀ dir ∈ outer, Contains dir appDir)
    {resign : Path → SigningState → Result} {files : List Path}
    (hresign : CallsSpec (appDir :: outer) resign files)
    (horder : AncestorsLater (pluginsPath appDir) files) {s : SigningState}
    {r : List Event × SigningState}
    (h : resignBundles resign (appDir :: outer) appDir files s = .ok r)
    (hships : ∀ q, ships q → r.2.tree.isDirectoryAt q = true) :
    Settled (owes ships) pays (LeftDebt appDir) r.1 := by
  induction files generalizing s r with
  | nil =>
    obtain rfl := Except.ok.inj h
    trivial
  | cons file files ih =>
    obtain ⟨bundle, rest, hcall, hrest, rfl⟩ | ⟨rest, hrest, rfl⟩ | ⟨-, hrest⟩ :=
      resignBundles_cons_eq_ok h
    · have hspec := (hresign file List.mem_cons_self s bundle hcall).1
      -- what is there in the end is there after this bundle: the others add no directory
      have hbundleShips : ∀ q, ships q → bundle.2.tree.isDirectoryAt q = true := fun q hq =>
        isDirectoryAt_of_resignBundles hresign.tail hrest (hships q hq)
      refine settled_append.mpr ⟨(hspec.settled ships hbundleShips).imp ?_,
        ih hresign.tail horder.tail hrest hships⟩
      intro e he d howes houtside
      obtain ⟨container, rfl, -, haround, hbundle, hplugins⟩ | hleft :=
        owes_within houter (hspec.within e he) howes houtside
      · -- a bundle around this one comes later
        have hlater := horder [] file files rfl container hplugins haround
        exact .inl (paidIn_resignBundles hresign.tail hrest hlater hbundle)
      · exact .inr hleft
    · refine ⟨fun d howes => ?_, ih hresign.tail horder.tail hrest hships⟩
      obtain ⟨path, hchanged, -⟩ := howes
      cases hchanged
    · exact ih hresign.tail horder.tail hrest hships

end Loops

end SigningRun

end IOSDeviceManager
