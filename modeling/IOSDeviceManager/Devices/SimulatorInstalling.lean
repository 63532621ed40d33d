import IOSDeviceManager.Devices.SimulatorLifecycle

/-! # Installing and uninstalling on a simulator

`uninstallApp:` reports success from a list of the installed applications that it reads last, and a
read that fails looks to it like a list without the application. The loop of `installApp:` attempts
the install once less often than its bound says. -/

namespace IOSDeviceManager

open General

namespace Simulator

variable {env : Environment SimulatorRequest.Answer} {history : History SimulatorRequest.Answer}
  {udid bundleID : String}

/-! ## The list that is read last -/

/-- The outcome of an exchange that reads the installed applications of the simulator: the list, or
`none` if the read failed. -/
def readOf (udid : String) : Sigma SimulatorRequest.Answer → Option (Option (List String))
  | ⟨.installedApps other, installedApps⟩ => if other = udid then some installedApps else none
  | _ => none

/-- The outcome of the last read of the installed applications of the simulator. -/
def lastRead (udid : String) (history : History SimulatorRequest.Answer) :
    Option (Option (List String)) :=
  (history.filterMap (readOf udid)).getLast?

/-- The last read of the installed applications succeeded, and the application is not in the
list. -/
def LastReadWithout (udid bundleID : String) (history : History SimulatorRequest.Answer) : Prop :=
  ∃ installedApps, lastRead udid history = some (some installedApps) ∧ bundleID ∉ installedApps

/-- A history that ends with a read. -/
@[simp] theorem lastRead_append_installedApps (installedApps : Option (List String)) :
    lastRead udid (history ++ [⟨.installedApps udid, installedApps⟩]) = some installedApps := by
  simp [lastRead, readOf]

/-- The last read, if it failed or not. -/
theorem lastReadWithout_append_iff (installedApps : Option (List String)) :
    LastReadWithout udid bundleID (history ++ [⟨.installedApps udid, installedApps⟩]) ↔
      installedApps.any (List.contains · bundleID) = false ∧ installedApps ≠ none := by
  unfold LastReadWithout
  rw [lastRead_append_installedApps]
  cases installedApps with
  | none => simp
  | some installedApps => simp

/-! ## `uninstallApp:` -/

/-- `uninstallApp:` up to the request to uninstall, `none` if that succeeds. -/
def uninstallUntilRequested (udid bundleID : String) :
    SimulatorProgram (Option IOSReturnStatusCode) := do
  let _ ← killSimulatorApp
  let booted ← boot udid
  if booted then
    let installed ← isInstalledWithError udid bundleID
    if installed then
      let uninstalled ← request (.uninstallApplication udid bundleID)
      return if uninstalled then none else some .internalError
    else return some .genericFailure
  else return some .genericFailure

/-- `uninstallApp:` after the request to uninstall succeeded. -/
def checkUninstalled (udid bundleID : String) : SimulatorProgram IOSReturnStatusCode := do
  let installed ← isInstalledWithError udid bundleID
  if installed then rebootAndCheck udid bundleID else return .everythingOkay

/-- The two parts of `uninstallApp:`. -/
theorem uninstallApp_eq : uninstallApp udid bundleID = (do
    let code ← uninstallUntilRequested udid bundleID
    match code with
    | some code => return code
    | none => checkUninstalled udid bundleID) := by
  unfold uninstallApp uninstallUntilReboot uninstallUntilRequested
  simp only [bind_assoc]
  refine congrArg _ (funext fun _ => congrArg _ (funext fun booted => ?_))
  cases booted with
  | false => simp
  | true =>
    simp only [if_true, uninstallBooted, bind_assoc]
    refine congrArg _ (funext fun installed => ?_)
    cases installed with
    | false => simp
    | true =>
      simp only [if_true, bind_assoc]
      refine congrArg _ (funext fun uninstalled => ?_)
      cases uninstalled with
      | false => simp
      | true =>
        simp only [if_true, bind_assoc, pure_bind, checkUninstalled]
        refine congrArg _ (funext fun installed => ?_)
        cases installed <;> simp

/-- Nothing is reported as a success before the request to uninstall. -/
theorem uninstallUntilRequested_ne_everythingOkay :
    ((uninstallUntilRequested udid bundleID).run env history).1 ≠ some .everythingOkay := by
  simp only [uninstallUntilRequested, Interaction.run_bind]
  split
  · simp only [Interaction.run_bind]
    split
    · simp only [Interaction.run_bind, Interaction.run_pure]
      split <;> simp
    · simp
  · simp

variable (env history udid) in
/-- The history after a list of the installed applications is read and the simulator is rebooted. -/
def rebootedAfter (installedApps : List String) : History SimulatorRequest.Answer :=
  ((boot udid).run env ((shutdown udid).run env
    (history ++ [⟨.installedApps udid, some installedApps⟩])).2).2

variable (env history udid bundleID) in
/-- A read of the installed applications does not fail, nor, if the application is still listed, one
after a reboot. -/
def ReadsAnswered : Prop :=
  ∃ installedApps, env history (.installedApps udid) = some installedApps ∧
    (bundleID ∈ installedApps →
      env (rebootedAfter env history udid installedApps) (.installedApps udid) ≠ none)

variable (env history udid bundleID) in
/-- The reads that `uninstallApp:` makes after its request to uninstall do not fail. -/
def ReadsAnsweredAfterRequest : Prop :=
  ∀ later, (uninstallUntilRequested udid bundleID).run env history = (none, later) →
    ReadsAnswered env later udid bundleID

/-- The check is right about the list read last exactly if the reads it makes do not fail. -/
theorem checkUninstalled_iff :
    (((checkUninstalled udid bundleID).run env history).1 = .everythingOkay →
      LastReadWithout udid bundleID ((checkUninstalled udid bundleID).run env history).2) ↔
    ReadsAnswered env history udid bundleID := by
  unfold checkUninstalled isInstalledWithError ReadsAnswered
  simp only [Interaction.run_bind, Interaction.run_request, Interaction.run_pure]
  cases hread : env history (.installedApps udid) with
  | none => simp [lastReadWithout_append_iff]
  | some installedApps =>
    by_cases hlisted : bundleID ∈ installedApps
    · -- the reboot, and the read after it
      simp only [Option.any_some, List.contains_eq_mem, hlisted, decide_true, if_true,
        rebootAndCheck, isInstalledWithError, Interaction.run_bind, Interaction.run_request,
        Interaction.run_pure, lastReadWithout_append_iff, Option.some.injEq, forall_const,
        exists_eq_left', rebootedAfter]
      cases env _ (.installedApps udid) with
      | none => simp
      | some installedApps => by_cases hstill : bundleID ∈ installedApps <;> simp [hstill]
    · simp [hlisted, lastReadWithout_append_iff]

/-- **When a success of `uninstallApp:` is one.** In every environment and after every history: a
run that returns `iOSReturnStatusCodeEverythingOkay` has last read a list without the application,
exactly if the reads after the request to uninstall do not fail. -/
theorem uninstallApp_removed_iff (env : Environment SimulatorRequest.Answer)
    (history : History SimulatorRequest.Answer) (udid bundleID : String) :
    (((uninstallApp udid bundleID).run env history).1 = .everythingOkay →
      LastReadWithout udid bundleID ((uninstallApp udid bundleID).run env history).2) ↔
    ReadsAnsweredAfterRequest env history udid bundleID := by
  have hearly : ((uninstallUntilRequested udid bundleID).run env history).1 ≠
    some .everythingOkay := uninstallUntilRequested_ne_everythingOkay
  unfold ReadsAnsweredAfterRequest
  rw [uninstallApp_eq, Interaction.run_bind]
  generalize (uninstallUntilRequested udid bundleID).run env history = result at *
  obtain ⟨code, later⟩ := result
  cases code with
  | some code =>
    have hcode : code ≠ .everythingOkay := fun h => hearly (congrArg some h)
    simp [hcode]
  | none => simpa using checkUninstalled_iff

/-- An environment in which a booted simulator has one application, and fails to list what is
installed after a request to uninstall. -/
def failingReads : Environment SimulatorRequest.Answer := fun history r =>
  match r with
  | .state _ => .booted
  | .installApplication .. => .installed
  | .installedApps _ =>
      if history.any fun exchange => exchange.1 matches .uninstallApplication .. then none
      else some ["com.my.app"]
  | .installedApplication .. => none
  | .allSimulators => []
  | .runningApplications => []
  | .terminate _ => ()
  | .forceTerminate _ => ()
  | .applicationWithBundlePath _ => .ok none
  | .appVersionIsDifferent .. => .ok false
  | .resignApplication .. => .ok ()
  | .boot _ => true
  | .focus _ => true
  | .shutdown _ => true
  | .erase _ => true
  | .resolveState .. => true
  | .uninstallApplication .. => true
  | .launchApplication .. => true
  | .simulatorWithUDID _ => true
  | .spinUntilTerminated _ => true

/-- **A success that nothing confirms.** The one read after the request to uninstall fails, and the
uninstalling is reported as a success. -/
theorem uninstallApp_hides_failed_read :
    ((uninstallApp "A" "com.my.app").run failingReads []).1 = .everythingOkay ∧
      lastRead "A" ((uninstallApp "A" "com.my.app").run failingReads []).2 = some none ∧
      ¬ LastReadWithout "A" "com.my.app" ((uninstallApp "A" "com.my.app").run failingReads []).2 := by
  have hlast : lastRead "A" ((uninstallApp "A" "com.my.app").run failingReads []).2 =
      some none := by decide
  refine ⟨by decide, hlast, fun h => ?_⟩
  obtain ⟨installedApps, hread, _⟩ := h
  rw [hlast] at hread
  cases hread

/-! ## The attempts to install -/

/-- The loop of `installApp:`, `try < tries`, from the given try on. -/
def installLoop (udid path : String) (tries : Nat) (try_ : Nat) : SimulatorProgram Bool :=
  if try_ < tries then do
    let attempt ← request (.installApplication udid path)
    match attempt with
    | .installed => return true
    | .notAtThisTime => installLoop udid path tries (try_ + 1)
    | .failed => return false
  else return false
termination_by tries - try_

/-- The attempts that are left in the loop. -/
theorem installLoop_eq (path : String) (tries try_ : Nat) :
    installLoop udid path tries try_ = installAttempts udid path (tries - try_) := by
  induction hleft : tries - try_ generalizing try_ with
  | zero =>
    have hend : ¬ try_ < tries := by omega
    rw [installLoop, if_neg hend]
    rfl
  | succ attempts ih =>
    have hnext : tries - (try_ + 1) = attempts := by omega
    have hgo : try_ < tries := by omega
    rw [installLoop, if_pos hgo, ih _ hnext]
    rfl

/-- `installApp:` reinstalls an application with the loop, from the first try on. -/
theorem reinstall_eq (app : AppBundle) (resourcePaths : List String) :
    reinstall udid app resourcePaths = (do
      let _ ← uninstallApp udid app.bundleID
      let resigned ← request (.resignApplication app resourcePaths)
      match resigned with
      | .error e => return .error e
      | .ok () =>
          let success ← installLoop udid app.path tries 1
          return .ok (if success then .everythingOkay else .genericFailure)) := by
  simp only [installLoop_eq]
  rfl

/-- The end of an exchange that is an attempt to install. -/
def attemptOf : Sigma SimulatorRequest.Answer → Option InstallAttempt
  | ⟨.installApplication .., attempt⟩ => some attempt
  | _ => none

/-- The attempts made so far. -/
def attemptsMade (history : History SimulatorRequest.Answer) : List InstallAttempt :=
  history.filterMap attemptOf

@[simp] theorem attemptsMade_append_installApplication (path : String) (attempt : InstallAttempt) :
    attemptsMade (history ++ [⟨.installApplication udid path, attempt⟩]) =
      attemptsMade history ++ [attempt] := by
  simp [attemptsMade, attemptOf]

/-- The attempts end as the sequence says, counted from `1`; other requests are answered in any
way. -/
def attemptsEnvironment (outcomes : Nat → InstallAttempt)
    (others : Environment SimulatorRequest.Answer) : Environment SimulatorRequest.Answer :=
  fun history r =>
    match r with
    | .installApplication .. => outcomes ((attemptsMade history).length + 1)
    | r => others history r

/-- The first `n` attempts of a sequence fail with the error after which an install is retried. -/
def AllRetried (outcomes : Nat → InstallAttempt) (n : Nat) : Prop :=
  ∀ k, 1 ≤ k → k ≤ n → outcomes k = .notAtThisTime

/-- One of the first `n` attempts of a sequence succeeds, and those before it are retried. -/
def SucceedsWithin (outcomes : Nat → InstallAttempt) (n : Nat) : Prop :=
  ∃ k, 1 ≤ k ∧ k ≤ n ∧ outcomes k = .installed ∧ AllRetried outcomes (k - 1)

/-- A loop that was left with this result, after these attempts, used all its tries. -/
structure UsesAllTries (outcomes : Nat → InstallAttempt) (tries : Nat) (success : Bool)
    (made : List InstallAttempt) : Prop where
  success_iff : success = true ↔ SucceedsWithin outcomes tries
  stops : ∀ attempt ∈ made.dropLast, attempt = .notAtThisTime
  bounded : made.length ≤ tries

section Loop

variable {outcomes : Nat → InstallAttempt} {n : Nat}

/-- No attempt succeeds if all are retried. -/
theorem AllRetried.not_succeedsWithin (h : AllRetried outcomes n) : ¬ SucceedsWithin outcomes n := by
  rintro ⟨k, hk, hkn, hinstalled, -⟩
  rw [h k hk hkn] at hinstalled
  cases hinstalled

/-- One more attempt that is retried. -/
theorem allRetried_succ_iff :
    AllRetried outcomes (n + 1) ↔ AllRetried outcomes n ∧ outcomes (n + 1) = .notAtThisTime := by
  constructor
  · intro h
    exact ⟨fun k hk hkn => h k hk (by omega), h (n + 1) (by omega) le_rfl⟩
  · rintro ⟨h, hlast⟩ k hk hkn
    rcases Nat.lt_or_ge n k with hlt | hge
    · obtain rfl : k = n + 1 := by omega
      exact hlast
    · exact h k hk hge

/-- One more attempt that may succeed. -/
theorem succeedsWithin_succ_iff : SucceedsWithin outcomes (n + 1) ↔
    SucceedsWithin outcomes n ∨ (AllRetried outcomes n ∧ outcomes (n + 1) = .installed) := by
  constructor
  · rintro ⟨k, hk, hkn, hinstalled, hretried⟩
    rcases Nat.lt_or_ge n k with hlt | hge
    · obtain rfl : k = n + 1 := by omega
      exact .inr ⟨hretried, hinstalled⟩
    · exact .inl ⟨k, hk, hge, hinstalled, hretried⟩
  · rintro (⟨k, hk, hkn, hinstalled, hretried⟩ | ⟨hretried, hinstalled⟩)
    · exact ⟨k, hk, by omega, hinstalled, hretried⟩
    · exact ⟨n + 1, by omega, le_rfl, hinstalled, hretried⟩

/-- An attempt after retried ones decides, unless it is retried as well. -/
theorem AllRetried.succeedsWithin_iff (h : AllRetried outcomes n) {m : Nat} (hm : n + 1 ≤ m)
    (hnext : outcomes (n + 1) ≠ .notAtThisTime) :
    SucceedsWithin outcomes m ↔ outcomes (n + 1) = .installed := by
  constructor
  · rintro ⟨k, hk, -, hinstalled, hretried⟩
    rcases Nat.lt_trichotomy k (n + 1) with hlt | rfl | hgt
    · rw [h k hk (by omega)] at hinstalled
      cases hinstalled
    · exact hinstalled
    · exact absurd (hretried (n + 1) (by omega) (by omega)) hnext
  · intro hinstalled
    exact ⟨n + 1, by omega, hm, hinstalled, h⟩

/-- **The attempts that are left** are made until one is not retried. The attempts before them were
all retried; this is what each further try keeps. -/
theorem usesAllTries_installAttempts (others : Environment SimulatorRequest.Answer)
    (udid path : String) (n : Nat)
    (hmade : ∀ attempt ∈ attemptsMade history, attempt = .notAtThisTime)
    (hretried : AllRetried outcomes (attemptsMade history).length) :
    UsesAllTries outcomes ((attemptsMade history).length + n)
      ((installAttempts udid path n).run (attemptsEnvironment outcomes others) history).1
      (attemptsMade
        ((installAttempts udid path n).run (attemptsEnvironment outcomes others) history).2) := by
  induction n generalizing history with
  | zero =>
    refine ⟨?_, fun attempt h => hmade attempt (List.mem_of_mem_dropLast h), le_rfl⟩
    exact iff_of_false Bool.false_ne_true hretried.not_succeedsWithin
  | succ n ih =>
    rw [installAttempts, Interaction.run_bind, Interaction.run_request]
    have hanswer : attemptsEnvironment outcomes others history (.installApplication udid path) =
      outcomes ((attemptsMade history).length + 1) := rfl
    rw [hanswer]
    cases hnext : outcomes ((attemptsMade history).length + 1) with
    | notAtThisTime =>
      -- retried, so the next try starts from the same situation
      have hlength : (attemptsMade (history ++
          [⟨.installApplication udid path, .notAtThisTime⟩])).length =
            (attemptsMade history).length + 1 := by simp
      have hmade' : ∀ attempt ∈ attemptsMade (history ++
          [⟨.installApplication udid path, .notAtThisTime⟩]), attempt = .notAtThisTime := by
        simpa [or_imp, forall_and] using hmade
      have hlater := ih hmade' (hlength ▸ allRetried_succ_iff.mpr ⟨hretried, hnext⟩)
      rw [hlength, Nat.add_assoc, Nat.add_comm 1] at hlater
      exact hlater
    | installed =>
      refine ⟨?_, by simpa using hmade, by simp⟩
      have hdecides := hretried.succeedsWithin_iff (m := (attemptsMade history).length + (n + 1))
        (by omega) (by simp [hnext])
      exact iff_of_true rfl (hdecides.mpr hnext)
    | failed =>
      refine ⟨?_, by simpa using hmade, by simp⟩
      have hdecides := hretried.succeedsWithin_iff (m := (attemptsMade history).length + (n + 1))
        (by omega) (by simp [hnext])
      simp [hdecides, hnext]

/-- **The tries of the loop**: it makes all but the last one of its bound. -/
theorem usesAllTries_installLoop (others : Environment SimulatorRequest.Answer)
    (udid path : String) (tries : Nat) :
    UsesAllTries outcomes (tries - 1)
      ((installLoop udid path tries 1).run (attemptsEnvironment outcomes others) []).1
      (attemptsMade
        ((installLoop udid path tries 1).run (attemptsEnvironment outcomes others) []).2) := by
  have hmade : ∀ attempt ∈ attemptsMade [], attempt = .notAtThisTime := by simp [attemptsMade]
  have hretried : AllRetried outcomes (attemptsMade []).length := by
    intro k hk hk0
    exact absurd (hk.trans hk0) (by simp [attemptsMade])
  have hrun := usesAllTries_installAttempts others udid path (tries - 1) hmade hretried
  rw [installLoop_eq]
  simpa [attemptsMade] using hrun

/-- **When the loop uses all its tries.** For every bound and every sequence of attempts: unless all
attempts before the last one of the bound are retried and that one would succeed. -/
theorem installLoop_usesAllTries_iff (outcomes : Nat → InstallAttempt)
    (others : Environment SimulatorRequest.Answer) (udid path : String) (tries : Nat)
    (htries : 1 ≤ tries) :
    UsesAllTries outcomes tries
        ((installLoop udid path tries 1).run (attemptsEnvironment outcomes others) []).1
        (attemptsMade
          ((installLoop udid path tries 1).run (attemptsEnvironment outcomes others) []).2) ↔
      ¬ (AllRetried outcomes (tries - 1) ∧ outcomes tries = .installed) := by
  have hloop : UsesAllTries outcomes (tries - 1) _ _ :=
    usesAllTries_installLoop others udid path tries
  generalize (installLoop udid path tries 1).run (attemptsEnvironment outcomes others) [] =
    result at hloop ⊢
  obtain ⟨attempts, rfl⟩ : ∃ attempts, tries = attempts + 1 := ⟨tries - 1, by omega⟩
  rw [Nat.add_sub_cancel] at hloop ⊢
  constructor
  · rintro huses ⟨hretried, hinstalled⟩
    -- the attempt that is not made would succeed
    have hsucceeds := succeedsWithin_succ_iff.mpr (.inr ⟨hretried, hinstalled⟩)
    exact hretried.not_succeedsWithin (hloop.success_iff.mp (huses.success_iff.mpr hsucceeds))
  · intro hlast
    refine ⟨?_, hloop.stops, hloop.bounded.trans (Nat.le_succ attempts)⟩
    rw [succeedsWithin_succ_iff, or_iff_left hlast]
    exact hloop.success_iff

/-- Five tries, with the first attempt a success. -/
theorem installLoop_usesAllTries_first :
    UsesAllTries (fun _ => .installed) 5
      ((installLoop "A" "/My.app" 5 1).run
        (attemptsEnvironment (fun _ => .installed) failingReads) []).1
      (attemptsMade ((installLoop "A" "/My.app" 5 1).run
        (attemptsEnvironment (fun _ => .installed) failingReads) []).2) :=
  (installLoop_usesAllTries_iff (fun _ => .installed) failingReads "A" "/My.app" 5
    (by decide)).mpr fun h => nomatch h.1 1 le_rfl (by decide)

/-- Attempts that fail four times, and then succeed. -/
def fifthSucceeds (k : Nat) : InstallAttempt :=
  if k = 5 then .installed else .notAtThisTime

/-- **The last try is not made.** The fifth attempt would succeed, and the loop ends after four. -/
theorem installLoop_stops_before_last :
    SucceedsWithin fifthSucceeds 5 ∧
      ((installLoop "A" "/My.app" 5 1).run
        (attemptsEnvironment fifthSucceeds failingReads) []).1 = false ∧
      ¬ UsesAllTries fifthSucceeds 5
        ((installLoop "A" "/My.app" 5 1).run
          (attemptsEnvironment fifthSucceeds failingReads) []).1
        (attemptsMade ((installLoop "A" "/My.app" 5 1).run
          (attemptsEnvironment fifthSucceeds failingReads) []).2) := by
  have hretried : AllRetried fifthSucceeds 4 := by
    intro k _ hk
    exact if_neg (by omega)
  have hsucceeds : SucceedsWithin fifthSucceeds 5 := succeedsWithin_succ_iff.mpr
    (.inr ⟨hretried, rfl⟩)
  have hfalse : ((installLoop "A" "/My.app" 5 1).run
      (attemptsEnvironment fifthSucceeds failingReads) []).1 = false := by
    rw [installLoop_eq]
    decide
  refine ⟨hsucceeds, hfalse, fun h => ?_⟩
  rw [h.success_iff.mpr hsucceeds] at hfalse
  cases hfalse

end Loop

end Simulator

end IOSDeviceManager
