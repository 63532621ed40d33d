import IOSDeviceManager.Devices.PhysicalDeviceInstall

/-! # What an installation is to bring about

An installation takes an application, the copy of it on the device, if there is one, and resources
to inject. Whether the application is signed and installed is decided by the versions of the two
copies before the resources are looked at. This module says what is on the device after a success,
without the way there, and when that is what was asked for. -/

namespace IOSDeviceManager

open General ResourceInjection

/-- The contents of an app directory, by the paths below it. Contents are meant up to the code
signatures in them. -/
abbrev BundleContents : Type :=
  Path → Option (Entry (List UInt8))

/-- The files in an app directory that signing is about: it writes them or removes them. -/
def IsSigningFile (below : Path) : Prop :=
  below.lastPathComponent = "XTCEntitlementsMeta.plist" ∨
    below.lastPathComponent = "embedded.mobileprovision" ∨
    Path.hasSuffix below ".xcent" = true ∨ "_CodeSignature" ∈ below

instance (below : Path) : Decidable (IsSigningFile below) :=
  inferInstanceAs (Decidable (_ ∨ _ ∨ _ ∨ _))

/-- The plist without keys. -/
def ApplicationPlist.empty : ApplicationPlist :=
  ⟨none, none, none, none, none, none⟩

/-- The version pair. -/
def ApplicationPlist.versions (plist : ApplicationPlist) : Option String × Option String :=
  (plist.bundleShortVersion, plist.bundleVersion)

/-- The plist in an app directory, without keys if it cannot be read. -/
def BundleContents.infoPlist (readPlist : List UInt8 → ApplicationPlist)
    (contents : BundleContents) : ApplicationPlist :=
  match contents ["Info.plist"] with
  | some (.file content) => readPlist content
  | _ => .empty

/-- The plist of a file that can be read. -/
theorem BundleContents.infoPlist_of_file (readPlist : List UInt8 → ApplicationPlist)
    (contents : BundleContents) {content : List UInt8}
    (h : contents ["Info.plist"] = some (.file content)) :
    contents.infoPlist readPlist = readPlist content := by
  rw [infoPlist, h]

/-- An installation: the arguments, and the files and the device it begins with. -/
structure Installation where
  host : InjectionHost
  /-- `dictionaryWithContentsOfFile:` of the contents of an `Info.plist`. -/
  readPlist : List UInt8 → ApplicationPlist
  app : TypedApplication
  /-- The application was read from its bundle. -/
  infoPlist_app : app.infoPlist = BundleContents.infoPlist readPlist fun below =>
    host.fs.entry (Path.ofText app.bundlePath ++ below)
  /-- The copy on the device. -/
  installed : Option BundleContents
  resourcePaths : List String
  forceReinstall : Bool

namespace Installation

variable (i : Installation)

/-- The app directory. -/
def appDir : Path :=
  Path.ofText i.app.bundlePath

/-- The resources. -/
def sources : List Path :=
  i.resourcePaths.map Path.ofText

/-- The contents of the app directory before it is signed. -/
def bundle : BundleContents :=
  fun below => i.host.fs.entry (i.appDir ++ below)

/-- The contents of the app directory after the resources are injected: each is led back through the
copies to where it came from. -/
def injected : BundleContents :=
  fun below => i.host.fs.entry (origin i.appDir i.sources (i.appDir ++ below))

/-- The plist in an app directory. -/
def plistOf (contents : BundleContents) : ApplicationPlist :=
  contents.infoPlist i.readPlist

/-- The injection of the resources succeeds. -/
def Injects : Prop :=
  ∃ result, injectResources i.host i.appDir i.resourcePaths i.host.fs = .ok result

/-- What a signing may leave in the app directory: the resources are injected, and the files that
signing is about are anything. -/
def IsSigned (contents : BundleContents) : Prop :=
  ∀ below, ¬ IsSigningFile below → contents below = i.injected below

/-- Whether the application is installed, by the copy on the device. -/
def decision : Except NSException Bool :=
  match i.installed with
  | none => .ok true
  | some contents =>
      if i.forceReinstall then .ok true
      else AppUtils.appVersionIsDifferent (i.plistOf contents) i.app.infoPlist

/-- What is on the device after a success: the copy that was there, or a signed one. -/
inductive Result : Option BundleContents → Prop
  | kept (hdecision : i.decision = .ok false) : Result i.installed
  | replaced {contents : BundleContents} (hdecision : i.decision = .ok true)
      (hinjects : i.Injects) (hsigned : i.IsSigned contents) : Result (some contents)

/-- The contents have a resource, as far as signing leaves it alone. -/
def Holds (contents : BundleContents) (source : Path) : Prop :=
  ∀ below, ¬ IsSigningFile (source.getLast?.toList ++ below) →
    contents (source.getLast?.toList ++ below) = i.host.fs.entry (source ++ below)

/-- What was asked for: a copy with the version pair of the application and every resource. -/
def Delivered (after : Option BundleContents) : Prop :=
  ∃ contents, after = some contents ∧ (i.plistOf contents).versions = i.app.infoPlist.versions ∧
    ∀ source ∈ i.sources, i.Holds contents source

/-- The resource is the last one of its name: those before it and those after it in the list. -/
structure IsLast (before : List Path) (source : Path) (after : List Path) : Prop where
  split : i.sources = before ++ source :: after
  last : ∀ later ∈ after, later.getLast? ≠ source.getLast?

/-- The resources fit into the app directory: the last one of each name has the content of all
resources of that name, and one named `Info.plist` has the version pair of the application. The
content is that before the call; if the resource lies in the app directory, where a resource before
it may have been put, it is what it is when it is its turn. -/
structure ResourcesFit : Prop where
  content : ∀ before source after, i.IsLast before source after → ∀ other ∈ i.sources,
    other.getLast? = source.getLast? → ∀ below, ¬ IsSigningFile (source.getLast?.toList ++ below) →
      i.host.fs.entry (origin i.appDir before (source ++ below)) = i.host.fs.entry (other ++ below)
  versions : ∀ before source after, i.IsLast before source after →
    source.getLast? = some "Info.plist" →
      (BundleContents.infoPlist i.readPlist fun _ =>
        i.host.fs.entry (origin i.appDir before source)).versions = i.app.infoPlist.versions

/-- A copy that is kept has the resources already, and resources that can be injected fit. -/
structure DeliversWhen : Prop where
  kept : i.decision = .ok false →
    ∀ contents, i.installed = some contents → ∀ source ∈ i.sources, i.Holds contents source
  replaced : i.decision = .ok true → Injectable i.host.fs i.appDir i.sources → i.ResourcesFit

variable {i}

/-- Plists that do not differ have one version pair. -/
theorem versions_eq_of_not_different {old new : ApplicationPlist}
    (h : AppUtils.appVersionIsDifferent old new = .ok false) : old.versions = new.versions := by
  unfold AppUtils.appVersionIsDifferent at h
  simp only [Codesigner.bind_eq_ok_iff] at h
  obtain ⟨oldShort, holdShort, oldVersion, holdVersion, newShort, hnewShort, newVersion,
    hnewVersion, heq⟩ := h
  -- a comparison that does not throw has found all four values
  have hvalue : ∀ {value : Option String} {key s : String},
      AppUtils.valueForKeyOrThrow value key = .ok s → value = some s := by
    intro value key s hs
    cases value with
    | none => cases hs
    | some value => exact congrArg some (Except.ok.inj hs)
  have hsame : oldShort = newShort ∧ oldVersion = newVersion := by
    simpa using Except.ok.inj heq
  rw [ApplicationPlist.versions, ApplicationPlist.versions, hvalue holdShort, hvalue holdVersion,
    hvalue hnewShort, hvalue hnewVersion, hsame.1, hsame.2]

/-- A copy is kept only if there is one, of the version of the application. -/
theorem exists_installed_of_kept (h : i.decision = .ok false) : ∃ contents,
    i.installed = some contents ∧ (i.plistOf contents).versions = i.app.infoPlist.versions := by
  unfold decision at h
  split at h
  · cases h
  · rename_i contents hinstalled
    split at h
    · cases h
    · exact ⟨contents, hinstalled, versions_eq_of_not_different h⟩

/-- Signing leaves the `Info.plist` alone. -/
theorem plistOf_of_isSigned {contents : BundleContents} (h : i.IsSigned contents) :
    i.plistOf contents = i.plistOf i.injected := by
  unfold plistOf BundleContents.infoPlist
  rw [h ["Info.plist"] (by decide)]

/-- It leaves a resource alone. -/
theorem holds_iff_of_isSigned {contents : BundleContents} (h : i.IsSigned contents)
    (source : Path) : i.Holds contents source ↔ i.Holds i.injected source := by
  refine forall_congr' fun below => forall_congr' fun hbelow => ?_
  rw [h _ hbelow]

theorem injects_iff : i.Injects ↔ Injectable i.host.fs i.appDir i.sources :=
  injectResources_isOk_iff

/-- The last element with a property. -/
theorem exists_last {α : Type} {p : α → Prop} {l : List α} (h : ∃ x ∈ l, p x) :
    ∃ before last after, l = before ++ last :: after ∧ p last ∧ ∀ later ∈ after, ¬ p later := by
  induction l using List.reverseRecOn with
  | nil => simp at h
  | append_singleton l x ih =>
    by_cases hx : p x
    · exact ⟨l, x, [], rfl, hx, by simp⟩
    · obtain ⟨y, hy, hpy⟩ := h
      have hmem : y ∈ l := by
        rcases List.mem_append.mp hy with hl | hlast
        · exact hl
        · exact absurd (List.mem_singleton.mp hlast ▸ hpy) hx
      obtain ⟨before, last, after, rfl, hlast, hafter⟩ := ih ⟨y, hmem, hpy⟩
      refine ⟨before, last, after ++ [x], by simp, hlast, fun later hlater => ?_⟩
      rcases List.mem_append.mp hlater with hin | heq
      · exact hafter later hin
      · rwa [List.mem_singleton.mp heq]

/-- Every resource has a last one of its name. -/
theorem exists_isLast {source : Path} (h : source ∈ i.sources) :
    ∃ before last after, i.IsLast before last after ∧ last.getLast? = source.getLast? := by
  obtain ⟨before, last, after, hsplit, hname, hlast⟩ :=
    exists_last (p := fun other : Path => other.getLast? = source.getLast?) ⟨source, h, rfl⟩
  exact ⟨before, last, after, ⟨hsplit, fun later hlater => hname ▸ hlast later hlater⟩, hname⟩

/-- What is at the target of the last resource of a name, led back through the copies. -/
theorem origin_isLast (hinjectable : Injectable i.host.fs i.appDir i.sources)
    {before after : List Path} {source : Path} (h : i.IsLast before source after) (below : Path) :
    origin i.appDir i.sources (i.appDir ++ (source.getLast?.toList ++ below)) =
      origin i.appDir before (source ++ below) := by
  have hname : ∀ other ∈ i.sources, other ≠ [] := by
    rintro _ hother rfl
    exact (hinjectable.apart [] hother).2 List.nil_prefix
  have hmem : source ∈ i.sources := by simp [h.split]
  have hafter : origin i.appDir after (targetFile i.appDir source ++ below) =
      targetFile i.appDir source ++ below := by
    refine origin_eq_self fun later hlater hpre => h.last later hlater ?_
    have hlisted : later ∈ i.sources := by simp [h.split, hlater]
    exact getLast?_eq_of_targetFile_prefix (hname later hlisted) (hname source hmem) hpre
  rw [← List.append_assoc, ← targetFile, h.split, origin, List.foldr_append, List.foldr_cons,
    ← origin, ← origin, hafter, PathStore.redirect, if_pos (List.prefix_append _ _),
    List.drop_left]

/-- The plist after the injection is that of the last resource named `Info.plist`, or that of the
application. -/
theorem versions_injected_iff (hinjectable : Injectable i.host.fs i.appDir i.sources) :
    (i.plistOf i.injected).versions = i.app.infoPlist.versions ↔
      ∀ before source after, i.IsLast before source after →
        source.getLast? = some "Info.plist" →
          (BundleContents.infoPlist i.readPlist fun _ =>
            i.host.fs.entry (origin i.appDir before source)).versions =
              i.app.infoPlist.versions := by
  have hread : ∀ before source after, i.IsLast before source after →
      source.getLast? = some "Info.plist" → i.plistOf i.injected =
        BundleContents.infoPlist i.readPlist fun _ =>
          i.host.fs.entry (origin i.appDir before source) := by
    intro before source after hlast hname
    have hentry : i.injected ["Info.plist"] =
        i.host.fs.entry (origin i.appDir before source) := by
      have hled := origin_isLast hinjectable hlast []
      rw [hname, List.append_nil, List.append_nil] at hled
      exact congrArg i.host.fs.entry hled
    unfold plistOf BundleContents.infoPlist
    rw [hentry]
  constructor
  · intro h before source after hlast hname
    rw [← hread before source after hlast hname]
    exact h
  · intro h
    by_cases hplist : ∃ source ∈ i.sources, source.getLast? = some "Info.plist"
    · obtain ⟨source, hsource, hname⟩ := hplist
      obtain ⟨before, last, after, hlast, hsame⟩ := exists_isLast hsource
      rw [hread before last after hlast (hsame.trans hname)]
      exact h before last after hlast (hsame.trans hname)
    · -- no resource is put at the `Info.plist`
      have hsame : i.injected ["Info.plist"] = i.bundle ["Info.plist"] := by
        unfold injected bundle
        rw [origin_eq_self]
        intro source hsource hpre
        obtain ⟨name, hname, htarget⟩ := targetFile_of_apart (hinjectable.apart source hsource)
        rw [htarget, List.prefix_append_right_inj] at hpre
        obtain ⟨rfl, -⟩ := List.cons_prefix_cons.mp hpre
        exact hplist ⟨source, hsource, hname⟩
      rw [i.infoPlist_app]
      unfold plistOf BundleContents.infoPlist
      rw [hsame]
      rfl

/-- The resources are in the app directory after the injection exactly if they fit. -/
theorem resourcesFit_iff (hinjectable : Injectable i.host.fs i.appDir i.sources) :
    i.ResourcesFit ↔ (i.plistOf i.injected).versions = i.app.infoPlist.versions ∧
      ∀ source ∈ i.sources, i.Holds i.injected source := by
  rw [versions_injected_iff hinjectable]
  constructor
  · intro h
    refine ⟨h.versions, fun source hsource below hbelow => ?_⟩
    obtain ⟨before, last, after, hlast, hname⟩ := exists_isLast hsource
    rw [← hname] at hbelow ⊢
    rw [injected, origin_isLast hinjectable hlast]
    exact h.content before last after hlast source hsource hname.symm below hbelow
  · rintro ⟨hversions, hholds⟩
    refine ⟨fun before source after hlast other hother hname below hbelow => ?_, hversions⟩
    rw [← origin_isLast hinjectable hlast, ← hname]
    exact hholds other hother below (hname ▸ hbelow)

/-- A signed copy is what was asked for exactly if the resources fit. -/
theorem delivered_iff_of_isSigned (hinjectable : Injectable i.host.fs i.appDir i.sources)
    {contents : BundleContents} (h : i.IsSigned contents) :
    i.Delivered (some contents) ↔ i.ResourcesFit := by
  rw [resourcesFit_iff hinjectable]
  constructor
  · rintro ⟨other, heq, hversions, hholds⟩
    obtain rfl := Option.some.inj heq
    rw [plistOf_of_isSigned h] at hversions
    exact ⟨hversions, fun source hsource => (holds_iff_of_isSigned h source).mp
      (hholds source hsource)⟩
  · rintro ⟨hversions, hholds⟩
    refine ⟨contents, rfl, ?_, fun source hsource => (holds_iff_of_isSigned h source).mpr
      (hholds source hsource)⟩
    rw [plistOf_of_isSigned h]
    exact hversions

/-- The injection alone is a signing. -/
theorem isSigned_injected : i.IsSigned i.injected :=
  fun _ _ => rfl

/-- **When every success delivers what was asked for.** -/
theorem delivered_of_result_iff :
    (∀ after, i.Result after → i.Delivered after) ↔ i.DeliversWhen := by
  constructor
  · intro h
    refine ⟨fun hkept contents hinstalled => ?_, fun hreplaced hinjectable => ?_⟩
    · obtain ⟨other, heq, -, hholds⟩ := h _ (.kept hkept)
      rw [hinstalled] at heq
      rw [Option.some.inj heq]
      exact hholds
    · exact (delivered_iff_of_isSigned hinjectable isSigned_injected).mp
        (h _ (.replaced hreplaced (injects_iff.mpr hinjectable) isSigned_injected))
  · intro h after hresult
    cases hresult with
    | kept hkept =>
      obtain ⟨contents, hinstalled, hversions⟩ := exists_installed_of_kept hkept
      exact ⟨contents, hinstalled, hversions, h.kept hkept contents hinstalled⟩
    | replaced hreplaced hinjects hsigned =>
      have hinjectable := injects_iff.mp hinjects
      exact (delivered_iff_of_isSigned hinjectable hsigned).mpr (h.replaced hreplaced hinjectable)

/-- For resources outside the app directory it is a matter of their names and files alone. -/
theorem resourcesFit_iff_of_apart (hapart : ∀ source ∈ i.sources, PathStore.Apart i.appDir source) :
    i.ResourcesFit ↔
      (∀ before source after, i.IsLast before source after → ∀ other ∈ i.sources,
        other.getLast? = source.getLast? → ∀ below,
          ¬ IsSigningFile (source.getLast?.toList ++ below) →
            i.host.fs.entry (source ++ below) = i.host.fs.entry (other ++ below)) ∧
      ∀ before source after, i.IsLast before source after → source.getLast? = some "Info.plist" →
        (BundleContents.infoPlist i.readPlist fun _ => i.host.fs.entry source).versions =
          i.app.infoPlist.versions := by
  -- no copy is put into a resource outside the app directory
  have horigin : ∀ before source after, i.IsLast before source after → ∀ below,
      origin i.appDir before (source ++ below) = source ++ below := by
    intro before source after hlast below
    exact origin_of_apart (hapart source (by simp [hlast.split])) before below
  have hself : ∀ before source after, i.IsLast before source after →
      origin i.appDir before source = source := by
    intro before source after hlast
    simpa using horigin before source after hlast []
  constructor
  · intro h
    refine ⟨fun before source after hlast other hother hname below hbelow => ?_,
      fun before source after hlast hname => ?_⟩
    · rw [← horigin before source after hlast]
      exact h.content before source after hlast other hother hname below hbelow
    · have hversions := h.versions before source after hlast hname
      rwa [hself before source after hlast] at hversions
  · rintro ⟨hcontent, hversions⟩
    refine ⟨fun before source after hlast other hother hname below hbelow => ?_,
      fun before source after hlast hname => ?_⟩
    · rw [horigin before source after hlast]
      exact hcontent before source after hlast other hother hname below hbelow
    · rw [hself before source after hlast]
      exact hversions before source after hlast hname

/-- Resources outside the app directory with different last components fit, unless one of them is an
`Info.plist`. -/
theorem resourcesFit_of_apart (hnames : (i.sources.map fun path => path.getLast?).Nodup)
    (hapart : ∀ source ∈ i.sources, PathStore.Apart i.appDir source)
    (hplist : ∀ source ∈ i.sources, source.getLast? ≠ some "Info.plist") : i.ResourcesFit := by
  refine (resourcesFit_iff_of_apart hapart).mpr ⟨?_, ?_⟩
  · intro before source after hlast other hother hname below _
    have hmem : source ∈ i.sources := by simp [hlast.split]
    rw [List.inj_on_of_nodup_map hnames hother hmem hname]
  · intro before source after hlast hname
    exact absurd hname (hplist source (by simp [hlast.split]))

/-- For such resources the versions alone are in the way. -/
theorem deliversWhen_iff_of_apart (hnames : (i.sources.map fun path => path.getLast?).Nodup)
    (hapart : ∀ source ∈ i.sources, PathStore.Apart i.appDir source)
    (hplist : ∀ source ∈ i.sources, source.getLast? ≠ some "Info.plist") :
    i.DeliversWhen ↔ (i.decision = .ok false → ∀ contents, i.installed = some contents →
      ∀ source ∈ i.sources, i.Holds contents source) :=
  ⟨fun h => h.kept, fun h => ⟨h, fun _ _ => resourcesFit_of_apart hnames hapart hplist⟩⟩

end Installation

end IOSDeviceManager
