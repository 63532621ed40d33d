import IOSDeviceManager.Resigning.SigningDebts

/-! # Signing from the inside out

By induction on the calls, every run pays all its debts: the bundles whose calls are open are signed
after every change in them, and so are the containers ahead, unless `shouldResign:inAppDir:` rejects
them. The remaining containers are left behind: plugin bundles outside the plugins directory, apps
inside the app, and frameworks around a plugin bundle. -/

namespace IOSDeviceManager

open General

namespace SigningRun

/-! ## The run -/

section Run

variable {tools : SigningTools}

/-- A change in a directory happens within it. -/
theorem ChangesIn.within {outer : List Path} {appDir : Path} {e : Event}
    (h : ChangesIn (appDir :: outer) appDir e) : Within outer appDir e := by
  obtain ⟨hcalls, path, hchanged, hcontains⟩ := h
  refine ⟨⟨[], hcalls, fun dir hdir => absurd hdir List.not_mem_nil⟩, fun other hother => ?_⟩
  obtain rfl := Option.some.inj (hchanged.symm.trans hother)
  exact hcontains.1

/-- What happens within a plugin bundle happens within the app directory. -/
theorem Within.of_file {outer : List Path} {appDir file : Path} {e : Event}
    (h : Within (appDir :: outer) file e) (hfile : Contains appDir file) :
    Within outer appDir e := by
  obtain ⟨inner, hcalls, hinner⟩ := h.calls
  refine ⟨⟨inner ++ [file], by simp [hcalls], fun dir hdir => ?_⟩,
    fun path hpath => hfile.1.trans (h.changed path hpath)⟩
  rcases List.mem_append.mp hdir with hdir | hdir
  · have hlt := (hinner dir hdir).length_lt
    have hfilelt := hfile.length_lt
    refine ⟨hfile.1.trans (hinner dir hdir).1, fun heq => ?_⟩
    rw [heq] at hfilelt
    omega
  · rw [List.mem_singleton.mp hdir]
    exact hfile

/-- What the part of a call that goes through the plugins directory does. -/
structure PluginsSpec (outer : List Path) (appDir : Path) (s : SigningState)
    (r : List Event × SigningState) : Prop where
  within : ∀ e ∈ r.1, Within outer appDir e
  directories : ∀ q, r.2.tree.isDirectoryAt q = true → s.tree.isDirectoryAt q = true
  settled : ∀ ships : Path → Prop, (∀ q, ships q → r.2.tree.isDirectoryAt q = true) →
    Settled (owes ships) pays (LeftDebt appDir) r.1
  paid : ∀ container, isResignableBundle container = true → pluginsPath appDir <+: container →
    s.tree.isDirectoryAt container = true → PaidIn pays r.1 (.verdict container)

/-- What lies in the plugins directory lies in the app directory. -/
theorem contains_of_pluginsPath {appDir file : Path} (h : pluginsPath appDir <+: file) :
    Contains appDir file := by
  obtain ⟨below, rfl⟩ := h
  simpa [pluginsPath] using contains_append_cons appDir "Plugins" below

/-- The plugins, if the calls that the loop makes do what they should. -/
theorem pluginsSpec {outer : List Path} {appDir : Path}
    (houter : ∀ dir ∈ outer, Contains dir appDir) {resign : Path → SigningState → Result}
    (hresign : ∀ files : List Path, (∀ file ∈ files, Contains appDir file) →
      CallsSpec (appDir :: outer) resign files)
    {s : SigningState} {r : List Event × SigningState}
    (h : resignPlugins resign (appDir :: outer) appDir s = .ok r) :
    PluginsSpec outer appDir s r := by
  unfold resignPlugins at h
  split at h
  -- No plugins directory: nothing is done, and no bundle lies under a path that is not there.
  · rename_i hnone
    obtain rfl := Except.ok.inj h
    refine ⟨fun e he => absurd he List.not_mem_nil, fun q hq => hq, fun ships _ => trivial, ?_⟩
    intro container _ hplugins hdir
    obtain ⟨files, hfiles, -⟩ := exists_files_of_isDirectoryAt hplugins hdir
    rw [hnone] at hfiles
    cases hfiles
  · rename_i pluginFiles hfiles
    have hcontains : ∀ file ∈ pluginFiles.reverse, Contains appDir file := fun file hfile =>
      contains_of_pluginsPath (prefix_of_mem_files hfiles (List.mem_reverse.mp hfile))
    have hcalls := hresign pluginFiles.reverse hcontains
    -- The paths are gone through from the last to the first, so a bundle comes after what is in it.
    refine ⟨fun e he => ?_, fun q hq => isDirectoryAt_of_resignBundles hcalls h hq,
      fun ships hships => settled_resignBundles houter hcalls (ancestorsLater_reverse hfiles) h
        hships, fun container hbundle hplugins hdir => ?_⟩
    · rcases mem_resignBundles hcalls h he with ⟨path, rfl⟩ | ⟨file, hfile, hwithin⟩
      · exact ⟨⟨[], rfl, fun dir hdir => absurd hdir List.not_mem_nil⟩,
          fun _ hpath => by cases hpath⟩
      · exact hwithin.of_file (hcontains file hfile)
    · obtain ⟨files, hlisted, hmem⟩ := exists_files_of_isDirectoryAt hplugins hdir
      obtain rfl : pluginFiles = files := Option.some.inj (hfiles.symm.trans hlisted)
      exact paidIn_resignBundles hcalls h (List.mem_reverse.mpr hmem) hbundle

/-- The signing of the executable and of the app directory pays what is left in the call. -/
theorem paidIn_resignBundle {identity : CodesignIdentity} {outer : List Path} {appDir : Path}
    {bundleExec : String} {s : SigningState} {d : Debt} (h : LeftDebt appDir d) :
    PaidIn pays (resignBundle tools identity (appDir :: outer) appDir bundleExec s).1 d ∨
      ¬ appDir <+: d.container := by
  rcases h with hout | hself
  · exact .inr hout
  · refine .inl ⟨⟨appDir :: outer, .sign appDir⟩, by simp [resignBundle], pays_of_sign ?_⟩
    rw [hself]

/-- The signing of the executable and of the app directory. -/
theorem settled_resignBundle {ships : Path → Prop} {identity : CodesignIdentity}
    {outer : List Path} {appDir : Path} (bundleExec : String) (s : SigningState) :
    Settled (owes ships) pays (fun d => ¬ appDir <+: d.container)
      (resignBundle tools identity (appDir :: outer) appDir bundleExec s).1 := by
  refine ⟨fun d howes => ?_, fun d howes => ?_, trivial⟩
  · obtain ⟨path, hchanged, hcontains, -⟩ := howes
    obtain rfl := Option.some.inj hchanged
    by_cases hself : d.container = appDir
    · refine .inl ⟨⟨appDir :: outer, .sign appDir⟩, List.mem_cons_self, pays_of_sign ?_⟩
      rw [hself]
    · right
      intro hpre
      have hlt := hcontains.length_lt
      -- What was changed lies directly in `appDir`, so no container lies between the two.
      have happlt := (show Contains appDir d.container from ⟨hpre, Ne.symm hself⟩).length_lt
      simp only [List.length_append, List.length_singleton] at hlt
      omega
  · obtain ⟨path, hchanged, hcontains, -⟩ := howes
    obtain rfl := Option.some.inj hchanged
    right
    intro hpre
    have hlt := hcontains.length_lt
    have hle := hpre.length_le
    omega

/-- The signing happens within the app directory. -/
theorem within_resignBundle {identity : CodesignIdentity} {outer : List Path} {appDir : Path}
    {bundleExec : String} {s : SigningState} {e : Event}
    (h : e ∈ (resignBundle tools identity (appDir :: outer) appDir bundleExec s).1) :
    Within outer appDir e := by
  obtain rfl | rfl : e = ⟨appDir :: outer, .sign (appDir ++ [bundleExec])⟩ ∨
      e = ⟨appDir :: outer, .sign appDir⟩ := by simpa [resignBundle] using h
  · exact ChangesIn.within ⟨rfl, _, rfl, contains_append_cons appDir bundleExec []⟩
  · refine ⟨⟨[], rfl, fun dir hdir => absurd hdir List.not_mem_nil⟩, fun path hpath => ?_⟩
    obtain rfl := Option.some.inj hpath
    exact List.prefix_refl _

/-- What is done to the objects happens within the app directory. -/
theorem within_signObjects {identity : CodesignIdentity} {outer : List Path} {appDir : Path}
    {files : List Path} (hfiles : ∀ path ∈ files, appDir <+: path) {s : SigningState} {e : Event}
    (h : e ∈ (signObjects tools identity (appDir :: outer) appDir files s).1) :
    Within outer appDir e := by
  obtain ⟨hcalls, path, hpath, haction⟩ := mem_signObjects h
  refine ⟨⟨[], hcalls, fun dir hdir => absurd hdir List.not_mem_nil⟩, fun other hother => ?_⟩
  rcases haction with haction | haction
  · rw [haction] at hother
    obtain rfl := Option.some.inj hother
    exact hfiles _ hpath
  · rw [haction] at hother
    cases hother

/-- **The debts of a call.** A debt of one part is paid by a later one: a framework's by the
objects, a bundle's by the plugins, and that of the app directory by its own signing at the end. -/
theorem settled_parts {identity : CodesignIdentity} {outer : List Path} {appDir : Path}
    {bundleExec : String} {written plugins : List Event × SigningState} {files : List Path}
    (houter : ∀ dir ∈ outer, Contains dir appDir)
    (hwrites : ∀ e ∈ written.1, ChangesIn (appDir :: outer) appDir e)
    (hlisted : FileUtils.depthFirstPathsStartingAtDirectory written.2.tree appDir = some files)
    (hplugins : PluginsSpec outer appDir
      (signObjects tools identity (appDir :: outer) appDir files.reverse written.2).2 plugins)
    {ships : Path → Prop} (hships : ∀ q, ships q → plugins.2.tree.isDirectoryAt q = true) :
    Settled (owes ships) pays (fun d => ¬ appDir <+: d.container)
      (written.1 ++ (signObjects tools identity (appDir :: outer) appDir files.reverse
        written.2).1 ++ plugins.1 ++
          (resignBundle tools identity (appDir :: outer) appDir bundleExec plugins.2).1) := by
  have hobjectsTree := hplugins.directories
  have hpaid := hplugins.paid
  simp only [tree_signObjects] at hobjectsTree hpaid
  -- the walk lists every framework around a change, and the loop passes its verdict on it
  have hframework : ∀ container, ships container → Contains appDir container →
      isFramework container = true → PaidIn pays (signObjects tools identity
        (appDir :: outer) appDir files.reverse written.2).1 (.verdict container) := by
    intro container hship hin hkind
    obtain ⟨names, hnames, hmem⟩ :=
      exists_files_of_isDirectoryAt hin.1 (hobjectsTree container (hships container hship))
    obtain rfl : files = names := Option.some.inj (hlisted.symm.trans hnames)
    exact paidIn_signObjects (List.mem_reverse.mpr hmem)
      (isDylibOrFramework_of_isFramework hkind) written.2
  have hbundle : ∀ container, ships container → isResignableBundle container = true →
      pluginsPath appDir <+: container → PaidIn pays plugins.1 (.verdict container) :=
    fun container hship hkind hpre => hpaid container hkind hpre
      (hobjectsTree container (hships container hship))
  refine settled_append.mpr ⟨settled_append.mpr ⟨settled_append.mpr ⟨?_, ?_⟩, ?_⟩,
    settled_resignBundle bundleExec plugins.2⟩
  · -- what the writes owe
    refine settled_of_forall fun e he d howes => ?_
    obtain ⟨container, rfl, hship, hin, hkind | ⟨hkind, hpre⟩⟩ | hleft :=
      owes_own houter (hwrites e he).1 howes
    · exact .inl (hframework container hship hin hkind)
    · exact .inr (.inl (hbundle container hship hkind hpre))
    · exact .inr (.inr (paidIn_resignBundle hleft))
  · -- what the objects owe
    apply (settled_signObjects houter (ancestorsLater_reverse hlisted) written.2).imp
    intro e _ d _ hafter
    rcases hafter with ⟨container, rfl, hship, hkind, hpre⟩ | hleft
    · exact .inl (hbundle container hship hkind hpre)
    · exact .inr (paidIn_resignBundle hleft)
  · -- what the plugins owe outside is paid by the app directory
    exact (hplugins.settled ships hships).imp fun e _ d _ hleft => paidIn_resignBundle hleft

/-- **Every call** signs its app directory last, stays within it, pays every debt within it, and
without resources adds no directory. -/
theorem callSpec {fuel : Nat} {outer : List Path} {appDir : Path}
    {codesignIdentity : Option CodesignIdentity}
    {resourcesToInject : List (String × Option Resource)} {s : SigningState}
    {r : List Event × SigningState} (houter : ∀ dir ∈ outer, Contains dir appDir)
    (h : resignAppDir tools fuel outer appDir codesignIdentity resourcesToInject s = .ok r) :
    CallSpec outer appDir r ∧ (resourcesToInject = [] →
      ∀ q, r.2.tree.isDirectoryAt q = true → s.tree.isDirectoryAt q = true) := by
  induction fuel generalizing outer appDir codesignIdentity resourcesToInject s r with
  | zero => cases h
  | succ fuel ih =>
    obtain ⟨identity, -, bundleExec, written, files, plugins, -, -, -, hwritten, hfiles, hplugins,
      rfl⟩ := resignAppDir_eq_ok h
    obtain ⟨hwrites, hwrittenDirs⟩ := writeAppDir_eq_ok hwritten
    have hlisted : FileUtils.depthFirstPathsStartingAtDirectory written.2.tree appDir =
        some files := by
      unfold filesForResigning at hfiles
      split at hfiles
      · cases hfiles
      · rename_i found hfound
        rw [hfound, Except.ok.inj hfiles]
    -- The recursive calls are for bundles in the plugins directory, with one more call open.
    have hpluginsSpec := pluginsSpec houter (fun names hnames file hfile s r hr => by
      have hfileOuter : ∀ dir ∈ appDir :: outer, Contains dir file := by
        intro dir hdir
        rcases List.mem_cons.mp hdir with rfl | hdir
        · exact hnames file hfile
        · exact (houter dir hdir).trans (hnames file hfile)
      obtain ⟨hspec, hdirs⟩ := ih hfileOuter hr
      exact ⟨hspec, hdirs rfl⟩) hplugins
    have hobjectsTree := hpluginsSpec.directories
    simp only [tree_signObjects] at hobjectsTree
    -- The events are those of four parts: the writes, the objects, the plugins and the bundle.
    refine ⟨⟨?_, ?_, fun ships => settled_parts houter hwrites hlisted hpluginsSpec⟩,
      fun hnil q hq => hwrittenDirs hnil q (hobjectsTree q hq)⟩
    · exact ⟨written.1 ++ (signObjects tools identity (appDir :: outer) appDir files.reverse
        written.2).1 ++ plugins.1 ++ [⟨appDir :: outer, .sign (appDir ++ [bundleExec])⟩],
        by simp [resignBundle]⟩
    · intro e he
      simp only [List.mem_append] at he
      rcases he with ((he | he) | he) | he
      · exact (hwrites e he).within
      · exact within_signObjects (fun path hpath =>
          prefix_of_mem_files hlisted (List.mem_reverse.mp hpath)) he
      · exact hpluginsSpec.within e he
      · exact within_resignBundle he

/-- What holds of the trace of a run, with the tree that it leaves. -/
structure SignedInsideOut (appDir : Path) (events : List Event) (tree : FileTree) : Prop where
  /-- The main bundle is signed last. -/
  main : ∃ before, events = before ++ [⟨[appDir], .sign appDir⟩]
  /-- The bundles whose calls are open, the main bundle among them, are signed after every change in
  them. -/
  opened : ∀ before e later path container, events = before ++ e :: later →
    e.action.changed = some path → Contains container path → container ∈ e.calls →
      ∃ e' ∈ later, e'.action = .sign container
  /-- The containers ahead are signed or rejected after every change in them. -/
  ahead : ∀ before e later path container, events = before ++ e :: later →
    e.action.changed = some path → Contains container path → Ahead e.calls container →
      tree.isDirectoryAt container = true →
        ∃ e' ∈ later, e'.action = .sign container ∨ e'.action = .pass container

/-- **From the inside out.** In every run that ends, for any tree, any signatures and any effect of
`codesign` on them: the main bundle is signed last, and after each change every open bundle around
it is signed and every container ahead around it is signed or rejected. -/
theorem signedInsideOut {fuel : Nat} {appDir : Path} {codesignIdentity : Option CodesignIdentity}
    {resourcesToInject : List (String × Option Resource)} {s : SigningState}
    {r : List Event × SigningState}
    (h : resignAppDir tools fuel [] appDir codesignIdentity resourcesToInject s = .ok r) :
    SignedInsideOut appDir r.1 r.2.tree := by
  obtain ⟨hspec, -⟩ := callSpec (fun dir hdir => absurd hdir List.not_mem_nil) h
  have hwithin : ∀ e ∈ r.1, ∀ dir ∈ e.calls, appDir <+: dir := by
    intro e he dir hdir
    obtain ⟨inner, hcalls, hinner⟩ := (hspec.within e he).calls
    rw [hcalls] at hdir
    rcases List.mem_append.mp hdir with hdir | hdir
    · exact (hinner dir hdir).1
    · obtain rfl := List.mem_singleton.mp hdir
      exact List.prefix_refl _
  -- Every container with a debt lies within the main bundle, so nothing is left to pay outside it.
  have hpaid : ∀ before e later d, r.1 = before ++ e :: later →
      owes (fun q => r.2.tree.isDirectoryAt q = true) e d → appDir <+: d.container →
      PaidIn pays later d := fun before e later d hsplit howes hpre =>
    ((hspec.settled _ fun _ hq => hq).paidIn hsplit howes).resolve_right fun hnot => hnot hpre
  refine ⟨hspec.signed, ?_, ?_⟩
  · intro before e later path container hsplit hchanged hcontains hopen
    have he : e ∈ r.1 := by simp [hsplit]
    exact hpaid before e later (.signature container) hsplit ⟨path, hchanged, hcontains, hopen⟩
      (hwithin e he container hopen)
  · intro before e later path container hsplit hchanged hcontains hahead hdir
    have he : e ∈ r.1 := by simp [hsplit]
    have hpre : appDir <+: container := by
      obtain ⟨dir, henclosing, -⟩ := hahead
      have hdircontains : Contains dir container := by
        simpa using List.find?_some henclosing
      exact (hwithin e he dir (List.mem_of_find?_eq_some henclosing)).trans hdircontains.1
    exact hpaid before e later (.verdict container) hsplit
      ⟨path, hchanged, hcontains, hdir, hahead⟩ hpre

end Run

/-! ### Containers that are left behind -/

/-- Every container around a change that is in the result is signed later. -/
def AllSignedLater (r : Result) : Prop :=
  ∀ events s', r = .ok (events, s') → ∀ before e later path container,
    events = before ++ e :: later → e.action.changed = some path → Contains container path →
      isContainer container = true → s'.tree.isDirectoryAt container = true →
        ∃ e' ∈ later, e'.action = .sign container

/-- One event, at some position, with a container in the result that no later event signs. -/
theorem not_allSignedLater {r : Result} (position : Nat) (path container : Path)
    (hrun : r.toOption.map (fun r => (r.1[position]?.bind fun e => e.action.changed,
      (r.1.drop (position + 1)).any (fun e => e.action = .sign container),
      r.2.tree.isDirectoryAt container)) = some (some path, false, true))
    (hcontains : Contains container path) (hcontainer : isContainer container = true) :
    ¬ AllSignedLater r := by
  intro h
  obtain ⟨⟨events, s'⟩, hr, hrun⟩ := Option.map_eq_some_iff.mp hrun
  obtain ⟨hchanged, hlater, hdir⟩ : _ ∧ _ ∧ _ := by simpa only [Prod.mk.injEq] using hrun
  obtain ⟨e, he, hchanged⟩ := Option.bind_eq_some_iff.mp hchanged
  have hok : r = .ok (events, s') := by
    cases r with
    | error stop => cases hr
    | ok r => rw [Option.some.inj hr]
  obtain ⟨hposition, rfl⟩ := List.getElem?_eq_some_iff.mp he
  have hsplit : events =
      events.take position ++ events[position] :: events.drop (position + 1) := by
    rw [← List.drop_eq_getElem_cons hposition, List.take_append_drop]
  obtain ⟨e', he', hsign⟩ := h events s' hok _ _ _ path container hsplit hchanged hcontains
    hcontainer hdir
  have hnot := List.any_eq_false.mp hlater e' he'
  exact hnot (by simpa using hsign)

/-- Tools with a development profile, whose `codesign` signs what is inside an object as well. -/
def developmentTools : SigningTools where
  environment := Codesigner.developerEnvironment
  profile := Codesigner.profileWithAppID "ABCDE12345.com.my.app"
  bundle _ _ := Codesigner.otherTeamApp
  codesign _ path info q :=
    if q = path ∨ FileUtils.isDylibOrFramework path = true ∧ path <+: q then
      ⟨true, some "ABCDE12345"⟩
    else info q

/-- The run for `My.app` with the given contents, signed by a team, except for what is in `vendors`,
which is signed by another team. -/
def resignMyApp (team : String) (contents : List FileTree) (vendors : List Path) : Result :=
  resignAppDir developmentTools 3 [] ["My.app"] none []
    ⟨.directory "Payload" [.directory "My.app" contents], fun path =>
      if path ∈ vendors then ⟨true, some "VENDOR1234"⟩ else ⟨true, some team⟩⟩

/-- An object of the app's team inside a framework of another team. -/
def vendorFrameworkRun : Result :=
  resignMyApp "OLDTEAM123" [.directory "Vendor.framework" [.file "own.dylib"]]
    [["My.app", "Vendor.framework"]]

/-- An object inside a directory of the app. -/
def nestedRun (container : String) : Result :=
  resignMyApp "OLDTEAM123" [.directory container [.file "own.dylib"]] []

/-- A plugin bundle inside a framework, all of the new team already. -/
def pluginFrameworkRun : Result :=
  resignMyApp "ABCDE12345"
    [.directory "Plugins" [.directory "F.framework" [.directory "T.xctest" []]]] []

/-- **Containers that are left behind.** A framework of another team is rejected after an object in
it was signed; an app inside the app and a plugin bundle outside the plugins directory are not come
to; and a framework is signed before the plugin bundle in it. -/
theorem not_allSignedLater_samples :
    ¬ AllSignedLater vendorFrameworkRun ∧ ¬ AllSignedLater (nestedRun "Watch.app") ∧
      ¬ AllSignedLater (nestedRun "Tests.xctest") ∧ ¬ AllSignedLater pluginFrameworkRun := by
  refine ⟨?_, ?_, ?_, ?_⟩
  · exact not_allSignedLater 2 ["My.app", "Vendor.framework", "own.dylib"]
      ["My.app", "Vendor.framework"] (by decide +kernel) (by decide) (by decide +kernel)
  · exact not_allSignedLater 2 ["My.app", "Watch.app", "own.dylib"] ["My.app", "Watch.app"]
      (by decide +kernel) (by decide) (by decide +kernel)
  · exact not_allSignedLater 2 ["My.app", "Tests.xctest", "own.dylib"] ["My.app", "Tests.xctest"]
      (by decide +kernel) (by decide) (by decide +kernel)
  · exact not_allSignedLater 6 ["My.app", "Plugins", "F.framework", "T.xctest"]
      ["My.app", "Plugins", "F.framework"] (by decide +kernel) (by decide) (by decide +kernel)

/-- In the run with the framework of another team the rest is in order. -/
theorem signedInsideOut_vendorFramework :
    ∃ r, vendorFrameworkRun = .ok r ∧ SignedInsideOut ["My.app"] r.1 r.2.tree := by
  have hok : vendorFrameworkRun.isOk = true := by decide +kernel
  cases hrun : vendorFrameworkRun with
  | error stop => simp [hrun, Except.isOk, Except.toBool] at hok
  | ok r => exact ⟨r, rfl, signedInsideOut hrun⟩

end SigningRun

end IOSDeviceManager
