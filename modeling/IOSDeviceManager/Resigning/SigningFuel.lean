import IOSDeviceManager.Resigning.SigningRun

/-! # Every run ends

A call on a plugin bundle works on a longer path than the call it is made from, and the plugin
bundles are listed in a tree that no call makes deeper. So some fuel is enough for every run. -/

namespace IOSDeviceManager

open General

namespace SigningRun

/-- Out of fuel: neither a result nor an exception. -/
def IsOutOfFuel {α : Type} (x : Except Stop α) : Prop :=
  x = .error .outOfFuel

section Parts

variable {tools : SigningTools} {identity : CodesignIdentity} {calls : List Path} {appDir : Path}

/-- A sequence runs out of fuel in one of its parts. -/
theorem isOutOfFuel_bind {α β : Type} {x : Except Stop α} {f : α → Except Stop β}
    (h : IsOutOfFuel (x >>= f)) : IsOutOfFuel x ∨ ∃ a, x = .ok a ∧ IsOutOfFuel (f a) := by
  cases x with
  | error stop => exact .inl (congrArg Except.error (Except.error.inj h))
  | ok a => exact .inr ⟨a, rfl, h⟩

/-- An exception is no lack of fuel. -/
theorem not_isOutOfFuel_throwing {α : Type} (x : Except NSException α) :
    ¬ IsOutOfFuel (throwing x) := by
  cases x <;> simp [throwing, IsOutOfFuel]

/-- Writing a file takes no fuel. -/
theorem not_isOutOfFuel_writeToFile (name reason : String) (s : SigningState) :
    ¬ IsOutOfFuel (writeToFile calls appDir name reason s) := by
  unfold writeToFile
  split <;> simp [IsOutOfFuel]

/-- Nor does an injection. -/
theorem not_isOutOfFuel_injectResources (resourcePaths : List (String × Option Resource))
    (s : SigningState) :
    ¬ IsOutOfFuel (injectResources tools identity calls appDir resourcePaths s) := by
  induction resourcePaths generalizing s with
  | nil => simp [injectResources, IsOutOfFuel]
  | cons resource resourcePaths ih =>
    obtain ⟨resourcePath, _ | resource⟩ := resource
    · simp [injectResources, IsOutOfFuel]
    · intro h
      rcases isOutOfFuel_bind h with h | ⟨rest, -, h⟩
      · exact ih _ h
      · cases h

/-- Nor do the writes of a call. -/
theorem not_isOutOfFuel_writeAppDir (resourcesToInject : List (String × Option Resource))
    (s : SigningState) :
    ¬ IsOutOfFuel (writeAppDir tools identity calls appDir resourcesToInject s) := by
  intro h
  rcases isOutOfFuel_bind h with h | ⟨entitlementsMap, -, h⟩
  · exact not_isOutOfFuel_writeToFile _ _ _ h
  · rcases isOutOfFuel_bind h with h | ⟨injected, -, h⟩
    · exact not_isOutOfFuel_injectResources _ _ h
    · rcases isOutOfFuel_bind h with h | ⟨entitlements, -, h⟩
      · exact not_isOutOfFuel_writeToFile _ _ _ h
      · cases h

/-- Nor does listing the files. -/
theorem not_isOutOfFuel_filesForResigning (s : SigningState) :
    ¬ IsOutOfFuel (filesForResigning s appDir) := by
  unfold filesForResigning
  split <;> simp [IsOutOfFuel]

/-! ## The depth of the tree -/

/-- A file that is written makes no tree deeper. -/
theorem depth_writeToFile {name reason : String} {s : SigningState}
    {r : List Event × SigningState} (h : writeToFile calls appDir name reason s = .ok r) :
    r.2.tree.depth ≤ s.tree.depth := by
  unfold writeToFile at h
  split at h
  · obtain rfl := Except.ok.inj h
    exact DirectoryTree.depth_update_le (DirectoryTree.depthOfChildren_put_file_le name) _ _
  · cases h

/-- Nor does a file that is removed. -/
theorem depth_removeIfExists (name : String) (s : SigningState) :
    (removeIfExists calls appDir name s).2.tree.depth ≤ s.tree.depth := by
  unfold removeIfExists
  split
  · exact DirectoryTree.depth_update_le (DirectoryTree.depthOfChildren_erase_le name) _ _
  · exact le_rfl

/-- Without resources the writes make the tree no deeper. -/
theorem depth_writeAppDir {s : SigningState} {r : List Event × SigningState}
    (h : writeAppDir tools identity calls appDir [] s = .ok r) :
    r.2.tree.depth ≤ s.tree.depth := by
  obtain ⟨entitlementsMap, hmap, h⟩ := Codesigner.bind_eq_ok_iff.mp h
  obtain ⟨injected, hinject, h⟩ := Codesigner.bind_eq_ok_iff.mp h
  obtain ⟨entitlements, hentitlements, h⟩ := Codesigner.bind_eq_ok_iff.mp h
  obtain rfl := Except.ok.inj h
  obtain rfl := Except.ok.inj hinject
  calc entitlements.2.tree.depth
      ≤ _ := depth_writeToFile hentitlements
    _ ≤ entitlementsMap.2.tree.depth := depth_removeIfExists _ _
    _ ≤ s.tree.depth := depth_writeToFile hmap

/-! ## The run -/

/-- A call that neither runs out of fuel nor makes the tree deeper than `limit`. -/
def Ends (limit : Nat) (x : Result) : Prop :=
  ¬ IsOutOfFuel x ∧ ∀ r, x = .ok r → r.2.tree.depth ≤ limit

/-- The loop over the plugin bundles ends if its calls do. -/
theorem ends_resignBundles {resign : Path → SigningState → Result} {limit : Nat}
    {files : List Path}
    (hresign : ∀ file ∈ files, ∀ s, s.tree.depth ≤ limit → Ends limit (resign file s))
    {s : SigningState} (hs : s.tree.depth ≤ limit) :
    Ends limit (resignBundles resign calls appDir files s) := by
  induction files generalizing s with
  | nil =>
    refine ⟨by simp [resignBundles, IsOutOfFuel], fun r hr => ?_⟩
    obtain rfl := Except.ok.inj hr
    exact hs
  | cons file files ih =>
    have hrest : ∀ {s}, s.tree.depth ≤ limit →
        Ends limit (resignBundles resign calls appDir files s) := fun hs =>
      ih (fun other hother => hresign other (List.mem_cons_of_mem _ hother)) hs
    have hfile := hresign file List.mem_cons_self s hs
    rw [resignBundles]
    split
    -- A bundle that should be resigned costs a call, the others are passed over.
    · split
      · refine ⟨fun h => ?_, fun r hr => ?_⟩
        · rcases isOutOfFuel_bind h with h | ⟨bundle, hbundle, h⟩
          · exact hfile.1 h
          · rcases isOutOfFuel_bind h with h | ⟨rest, -, h⟩
            · exact (hrest (hfile.2 bundle hbundle)).1 h
            · cases h
        · obtain ⟨bundle, hbundle, hr⟩ := Codesigner.bind_eq_ok_iff.mp hr
          obtain ⟨rest, hrestOk, hr⟩ := Codesigner.bind_eq_ok_iff.mp hr
          obtain rfl := Except.ok.inj hr
          exact (hrest (hfile.2 bundle hbundle)).2 rest hrestOk
      · refine ⟨fun h => ?_, fun r hr => ?_⟩
        · rcases isOutOfFuel_bind h with h | ⟨rest, -, h⟩
          · exact (hrest hs).1 h
          · cases h
        · obtain ⟨rest, hrestOk, hr⟩ := Codesigner.bind_eq_ok_iff.mp hr
          obtain rfl := Except.ok.inj hr
          exact (hrest hs).2 rest hrestOk
    · exact hrest hs

/-- The part of a call that goes through the plugins directory ends if the calls on what lies in
that directory, no deeper than the tree, do. -/
theorem ends_resignPlugins {resign : Path → SigningState → Result} {limit : Nat}
    (hresign : ∀ file : Path, appDir.length < file.length → file.length ≤ limit →
      ∀ s, s.tree.depth ≤ limit → Ends limit (resign file s))
    {s : SigningState} (hs : s.tree.depth ≤ limit) :
    Ends limit (resignPlugins resign calls appDir s) := by
  unfold resignPlugins
  split
  · refine ⟨by simp [IsOutOfFuel], fun r hr => ?_⟩
    obtain rfl := Except.ok.inj hr
    exact hs
  · rename_i pluginFiles hfiles
    obtain ⟨sub, hsub, rfl⟩ := Option.map_eq_some_iff.mp hfiles
    refine ends_resignBundles (fun file hfile s hs => ?_) hs
    rw [List.mem_reverse] at hfile
    -- A path that the walk lists is no shorter than that of the plugins directory, and no longer
    -- than the tree is deep.
    have hdepth := DirectoryTree.length_add_depth_le hsub
    have hlength : (pluginsPath appDir).length = appDir.length + 1 := by simp [pluginsPath]
    obtain ⟨node, hnode, hbelow⟩ := DirectoryTree.exists_prefix_of_mem_walk hfile
    obtain ⟨node', hnode', hle⟩ := DirectoryTree.exists_length_le_of_mem_walk hfile
    obtain rfl := List.mem_singleton.mp hnode
    obtain rfl := List.mem_singleton.mp hnode'
    have hge := hbelow.length_le
    simp only at hge hle
    exact hresign file (by omega) (by omega) s hs

/-- A call ends when the fuel makes up for what its path is shorter than the limit. -/
theorem ends_resignAppDir {fuel limit : Nat} {outer : List Path} {appDir : Path}
    {codesignIdentity : Option CodesignIdentity}
    {resourcesToInject : List (String × Option Resource)} {s : SigningState}
    (hlimit : appDir.length ≤ limit) (hfuel : limit < appDir.length + fuel)
    (hwritten : ∀ identity written,
      throwing (Codesigner.chooseIdentity tools.environment tools.profile codesignIdentity) =
        .ok identity →
      writeAppDir tools identity (appDir :: outer) appDir resourcesToInject s = .ok written →
      written.2.tree.depth ≤ limit) :
    Ends limit (resignAppDir tools fuel outer appDir codesignIdentity resourcesToInject s) := by
  induction fuel generalizing outer appDir codesignIdentity resourcesToInject s with
  | zero => omega
  | succ fuel ih =>
    -- A call on a plugin has less fuel but a longer path, and no resources to write deeper.
    have hplugins : ∀ s : SigningState, s.tree.depth ≤ limit → Ends limit (resignPlugins
        (fun file s => resignAppDir tools fuel (appDir :: outer) file none [] s)
        (appDir :: outer) appDir s) := by
      refine fun s hs => ends_resignPlugins (fun file hlt hle s hs => ?_) hs
      exact ih hle (by omega) fun identity written _ hw => (depth_writeAppDir hw).trans hs
    constructor
    -- None of the steps but the plugins runs out of fuel by itself.
    · intro h
      rw [resignAppDir] at h
      rcases isOutOfFuel_bind h with h | ⟨identity, hidentity, h⟩
      · exact not_isOutOfFuel_throwing _ h
      rcases isOutOfFuel_bind h with h | ⟨infoPlist, -, h⟩
      · exact not_isOutOfFuel_throwing _ h
      rcases isOutOfFuel_bind h with h | ⟨bundleExec, -, h⟩
      · exact not_isOutOfFuel_throwing _ h
      rcases isOutOfFuel_bind h with h | ⟨-, -, h⟩
      · exact not_isOutOfFuel_throwing _ h
      rcases isOutOfFuel_bind h with h | ⟨written, hw, h⟩
      · exact not_isOutOfFuel_writeAppDir _ _ h
      rcases isOutOfFuel_bind h with h | ⟨files, -, h⟩
      · exact not_isOutOfFuel_filesForResigning _ h
      rcases isOutOfFuel_bind h with h | ⟨plugins, -, h⟩
      · refine (hplugins _ ?_).1 h
        rw [tree_signObjects]
        exact hwritten identity written hidentity hw
      · cases h
    · intro r hr
      rw [resignAppDir] at hr
      obtain ⟨identity, hidentity, hr⟩ := Codesigner.bind_eq_ok_iff.mp hr
      obtain ⟨infoPlist, -, hr⟩ := Codesigner.bind_eq_ok_iff.mp hr
      obtain ⟨bundleExec, -, hr⟩ := Codesigner.bind_eq_ok_iff.mp hr
      obtain ⟨-, -, hr⟩ := Codesigner.bind_eq_ok_iff.mp hr
      obtain ⟨written, hw, hr⟩ := Codesigner.bind_eq_ok_iff.mp hr
      obtain ⟨files, -, hr⟩ := Codesigner.bind_eq_ok_iff.mp hr
      obtain ⟨plugins, hp, hr⟩ := Codesigner.bind_eq_ok_iff.mp hr
      obtain rfl := Except.ok.inj hr
      refine (hplugins _ ?_).2 plugins hp
      rw [tree_signObjects]
      exact hwritten identity written hidentity hw

/-- **Every run ends.** For every tree, all resources and any effect of `codesign` there is an
amount of fuel from which on the run never runs out of it. -/
theorem exists_fuel (tools : SigningTools) (appDir : Path)
    (codesignIdentity : Option CodesignIdentity)
    (resourcesToInject : List (String × Option Resource)) (s : SigningState) :
    ∃ enough, ∀ fuel, enough ≤ fuel →
      ¬ IsOutOfFuel (resignAppDir tools fuel [] appDir codesignIdentity resourcesToInject s) := by
  -- Only the call for the main bundle injects resources, so what it has written bounds the depth.
  obtain ⟨limit, hlimit⟩ : ∃ limit, ∀ identity written,
      throwing (Codesigner.chooseIdentity tools.environment tools.profile codesignIdentity) =
        .ok identity →
      writeAppDir tools identity [appDir] appDir resourcesToInject s = .ok written →
      written.2.tree.depth ≤ limit := by
    cases hidentity : throwing
        (Codesigner.chooseIdentity tools.environment tools.profile codesignIdentity) with
    | error stop => exact ⟨0, fun identity written h => by cases h⟩
    | ok identity =>
      cases hwritten : writeAppDir tools identity [appDir] appDir resourcesToInject s with
      | error stop =>
        refine ⟨0, fun other written h hw => ?_⟩
        obtain rfl := Except.ok.inj h
        rw [hwritten] at hw
        cases hw
      | ok written =>
        refine ⟨written.2.tree.depth, fun other written' h hw => ?_⟩
        obtain rfl := Except.ok.inj h
        rw [hwritten] at hw
        rw [Except.ok.inj hw]
  refine ⟨limit + appDir.length + 1, fun fuel hfuel => ?_⟩
  refine (ends_resignAppDir (Nat.le_add_left appDir.length limit) (by omega) ?_).1
  exact fun identity written h hw => (hlimit identity written h hw).trans (Nat.le_add_right _ _)

end Parts

end SigningRun

end IOSDeviceManager
