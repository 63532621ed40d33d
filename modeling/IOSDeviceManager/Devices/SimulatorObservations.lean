import IOSDeviceManager.Devices.SimulatorLifecycle
import IOSDeviceManager.General.LabelledRun

/-! # The states in which a simulator is asked

The state of a simulator is observed when it is read, and after a boot, a shutdown or a wait that
succeeded. A boot or an erasure may be requested of a simulator last observed to be shut down,
installing, uninstalling, launching and listing applications of one last observed to be booted. Five
operations keep to that whatever the environment answers; for `launchApp:`, `uninstallApp:` and
`installApp:` it depends on the state before and on a boot whose result they drop. -/

namespace IOSDeviceManager

open General

namespace Simulator

open FBiOSTargetState

/-- The last observed state of each simulator, if there is one. -/
abbrev Observations : Type :=
  String → Option FBiOSTargetState

/-- What is observed in an exchange. -/
def observe (seen : Observations) : Sigma SimulatorRequest.Answer → Observations
  | ⟨.state udid, state⟩ => Function.update seen udid (some state)
  | ⟨.resolveState udid state _, success⟩ =>
      if success then Function.update seen udid (some state) else seen
  | ⟨.boot udid, success⟩ => if success then Function.update seen udid (some booted) else seen
  | ⟨.shutdown udid, success⟩ =>
      if success then Function.update seen udid (some FBiOSTargetState.shutdown) else seen
  | _ => seen

/-- The requests that the last observed states allow. -/
def Allows (seen : Observations) : SimulatorRequest → Prop
  | .boot udid | .erase udid => seen udid = some FBiOSTargetState.shutdown
  | .installApplication udid _ | .uninstallApplication udid _ | .launchApplication udid _
  | .installedApps udid | .installedApplication udid _ => seen udid = some booted
  | _ => True

/-- The monitor of the requests. -/
def lifecycle : Monitor SimulatorRequest.Answer Observations where
  observe := observe
  Allows := Allows

/-- What was observed last, in a history that starts without observations. -/
def lastObserved (history : History SimulatorRequest.Answer) : Observations :=
  lifecycle.stateAfter (fun _ => none) history

/-- Every request of the history was made in a state that allows it. -/
def RequestsAllowed (history : History SimulatorRequest.Answer) : Prop :=
  lifecycle.Respected (fun _ => none) history

/-! ## What the operations observe -/

section Operations

variable {udid bundleID : String} {seen : Observations}

@[simp] theorem wp_request (r : SimulatorRequest) (post : r.Answer → Observations → Prop) :
    lifecycle.wp (request r) post seen ↔
      Allows seen r ∧ ∀ answer, post answer (observe seen ⟨r, answer⟩) :=
  Iff.rfl

/-- Booting a simulator that is shut down. -/
theorem wp_performBoot (hseen : seen udid = some FBiOSTargetState.shutdown) :
    lifecycle.wp (performBoot udid)
      (fun success later => success = true → later udid = some booted) seen := by
  refine (Monitor.wp_bind _ _ _).mpr ⟨hseen, fun success => ?_⟩
  cases success with
  | false => exact fun h => Bool.noConfusion h
  | true => exact ⟨trivial, fun focused _ => Function.update_self ..⟩

/-- **`boot`** asks for a boot only of a simulator that it has observed to be shut down, and leaves
a booted one if it succeeds. -/
theorem wp_boot : lifecycle.wp (boot udid)
    (fun success later => success = true → later udid = some booted) seen := by
  refine (Monitor.wp_bind _ _ _).mpr ⟨trivial, fun state => ?_⟩
  have hstate : observe seen ⟨.state udid, state⟩ udid = some state := Function.update_self ..
  -- one case for each state that is read; the boot is requested after a read or a wait for shutdown
  cases state with
  | booted => exact fun _ => hstate
  | booting =>
    refine ⟨trivial, fun success => ?_⟩
    rintro rfl
    exact Function.update_self ..
  | shuttingDown =>
    refine (Monitor.wp_bind _ _ _).mpr ⟨trivial, fun resolved => ?_⟩
    cases resolved with
    | false => exact fun h => Bool.noConfusion h
    | true => exact wp_performBoot (Function.update_self ..)
  | creating =>
    refine (Monitor.wp_bind _ _ _).mpr ⟨trivial, fun resolved => ?_⟩
    cases resolved with
    | true => exact fun _ => Function.update_self ..
    | false =>
      -- not booted, so perhaps shut down
      refine (Monitor.wp_bind _ _ _).mpr ⟨trivial, fun resolved => ?_⟩
      cases resolved with
      | false => exact fun h => Bool.noConfusion h
      | true => exact wp_performBoot (Function.update_self ..)
  | shutdown => exact wp_performBoot hstate
  | unknown => exact fun h => Bool.noConfusion h
  | dfu => exact fun h => Bool.noConfusion h
  | recovery => exact fun h => Bool.noConfusion h
  | restoreOS => exact fun h => Bool.noConfusion h

/-- `shutdown` asks for nothing that needs a state. -/
theorem wp_shutdown : lifecycle.wp (shutdown udid) (fun _ _ => True) seen := by
  rw [shutdown, Monitor.wp_bind, wp_request]
  refine ⟨trivial, fun state => ?_⟩
  split
  · trivial
  · rw [Monitor.wp_bind, wp_request]
    refine ⟨trivial, fun state => ?_⟩
    split
    · exact ⟨trivial, fun _ => trivial⟩
    · exact ⟨trivial, fun _ => trivial⟩

theorem wp_terminateAll (applications : List Nat) :
    lifecycle.wp (terminateAll applications) (fun _ _ => True) seen := by
  induction applications generalizing seen with
  | nil => trivial
  | cons application applications ih =>
    refine (Monitor.wp_bind _ _ _).mpr ⟨trivial, fun _ => ?_⟩
    refine (Monitor.wp_bind _ _ _).mpr ⟨trivial, fun termed => ?_⟩
    -- the second wait is the same whether or not the application had to be forced
    have hrest : ∀ later, lifecycle.wp (do
        let termed ← request (.spinUntilTerminated application)
        if termed then terminateAll applications else return false)
          (fun _ _ => True) later := by
      intro later
      refine (Monitor.wp_bind _ _ _).mpr ⟨trivial, fun termed => ?_⟩
      cases termed with
      | false => trivial
      | true => exact ih
    cases termed with
    | false => exact (Monitor.wp_bind _ _ _).mpr ⟨trivial, fun _ => hrest _⟩
    | true => exact hrest _

theorem wp_shutdownAll (results : List String) :
    lifecycle.wp (shutdownAll results) (fun _ _ => True) seen := by
  induction results generalizing seen with
  | nil => trivial
  | cons other results ih =>
    refine (Monitor.wp_bind _ _ _).mpr ⟨trivial, fun found => ?_⟩
    cases found with
    | false => trivial
    | true =>
      refine (Monitor.wp_bind _ _ _).mpr (wp_shutdown.mono fun success later _ => ?_)
      cases success with
      | false => trivial
      | true => exact ih

/-- `killSimulatorApp` asks for nothing that needs a state. -/
theorem wp_killSimulatorApp : lifecycle.wp killSimulatorApp (fun _ _ => True) seen := by
  refine (Monitor.wp_bind _ _ _).mpr ⟨trivial, fun applications => ?_⟩
  refine (Monitor.wp_bind _ _ _).mpr
    ((wp_terminateAll applications).mono fun terminated later _ => ?_)
  cases terminated with
  | false => trivial
  | true =>
    refine (Monitor.wp_bind _ _ _).mpr ⟨trivial, fun results => ?_⟩
    exact wp_shutdownAll results

/-- `eraseSimulator:` erases a simulator only after it has waited for the shutdown. -/
theorem wp_eraseSimulator : lifecycle.wp (eraseSimulator udid) (fun _ _ => True) seen := by
  refine (Monitor.wp_bind _ _ _).mpr (wp_killSimulatorApp.mono fun _ later _ => ?_)
  refine (Monitor.wp_bind _ _ _).mpr ⟨trivial, fun resolved => ?_⟩
  cases resolved with
  | false => trivial
  | true =>
    exact (Monitor.wp_bind _ _ _).mpr ⟨Function.update_self .., fun _ => trivial⟩

/-- The installed applications of a booted simulator may be listed. -/
theorem wp_isInstalledWithError (hseen : seen udid = some booted) :
    lifecycle.wp (isInstalledWithError udid bundleID) (fun _ later => later = seen) seen :=
  (Monitor.wp_bind _ _ _).mpr ⟨hseen, fun _ => rfl⟩

/-- `isInstalled:` boots the simulator first. -/
theorem wp_isInstalled : lifecycle.wp (isInstalled udid bundleID) (fun _ _ => True) seen := by
  refine (Monitor.wp_bind _ _ _).mpr (wp_boot.mono fun success later hbooted => ?_)
  cases success with
  | false => trivial
  | true =>
    exact (Monitor.wp_bind _ _ _).mpr
      ((wp_isInstalledWithError (hbooted rfl)).mono fun _ _ _ => trivial)

/-- **`launchApp:`** lists the installed applications first of all. -/
theorem wp_launchApp_iff :
    lifecycle.wp (launchApp udid bundleID) (fun _ _ => True) seen ↔ seen udid = some booted := by
  constructor
  · exact fun h => h.1
  · intro hseen
    refine (Monitor.wp_bind _ _ _).mpr
      ((wp_isInstalledWithError hseen).mono fun installed later _ => ?_)
    cases installed with
    | false => trivial
    | true =>
      -- what was observed before plays no part any more: the boot observes the state anew
      refine (Monitor.wp_bind _ _ _).mpr (wp_boot.mono fun success later hbooted => ?_)
      cases success with
      | false => trivial
      | true => exact (Monitor.wp_bind _ _ _).mpr ⟨hbooted rfl, fun _ => trivial⟩

/-- A booted simulator stays observed as booted while an application is uninstalled. -/
theorem wp_uninstallBooted (hseen : seen udid = some booted) :
    lifecycle.wp (uninstallBooted udid bundleID) (fun _ later => later udid = some booted)
      seen := by
  refine (Monitor.wp_bind _ _ _).mpr
    ((wp_isInstalledWithError hseen).mono fun installed later hlater => ?_)
  subst hlater
  cases installed with
  | false => exact hseen
  | true =>
    refine (Monitor.wp_bind _ _ _).mpr ⟨hseen, fun uninstalled => ?_⟩
    cases uninstalled with
    | false => exact hseen
    | true =>
      exact (Monitor.wp_bind _ _ _).mpr
        ((wp_isInstalledWithError hseen).mono fun _ _ hlater => hlater ▸ hseen)

/-- The first part of `uninstallApp:` keeps to the states. -/
theorem wp_uninstallUntilReboot :
    lifecycle.wp (uninstallUntilReboot udid bundleID) (fun _ _ => True) seen := by
  refine (Monitor.wp_bind _ _ _).mpr (wp_killSimulatorApp.mono fun _ later _ => ?_)
  refine (Monitor.wp_bind _ _ _).mpr (wp_boot.mono fun success later hbooted => ?_)
  cases success with
  | false => trivial
  | true => exact (wp_uninstallBooted (hbooted rfl)).mono fun _ _ _ => trivial

/-- The installed application of a booted simulator may be asked for. -/
theorem wp_installedApp (hseen : seen udid = some booted) :
    lifecycle.wp (installedApp udid bundleID) (fun _ _ => True) seen := by
  refine (Monitor.wp_bind _ _ _).mpr ⟨hseen, fun path => ?_⟩
  cases path with
  | none => trivial
  | some path => exact ⟨trivial, fun _ => trivial⟩

/-- The first part of `installApp:` keeps to the states. -/
theorem wp_installUntilUninstall (app : AppBundle) (forceReinstall : Bool) :
    lifecycle.wp (installUntilUninstall udid app forceReinstall) (fun _ _ => True) seen := by
  refine (Monitor.wp_bind _ _ _).mpr (wp_boot.mono fun success later hbooted => ?_)
  cases success with
  | false => trivial
  | true =>
    refine (Monitor.wp_bind _ _ _).mpr
      ((wp_installedApp (hbooted rfl)).mono fun installedApp later _ => ?_)
    match installedApp with
    | .error e => trivial
    | .ok none => trivial
    | .ok (some installedApp) =>
      cases forceReinstall with
      | true => trivial
      | false =>
        refine (Monitor.wp_bind _ _ _).mpr ⟨trivial, fun needsToInstall => ?_⟩
        cases needsToInstall with
        | error e => trivial
        | ok needsToInstall => trivial

/-- Any number of attempts to install an application on a booted simulator. -/
theorem wp_installAttempts (hseen : seen udid = some booted) (path : String) (attempts : Nat) :
    lifecycle.wp (installAttempts udid path attempts) (fun _ _ => True) seen := by
  induction attempts with
  | zero => trivial
  | succ attempts ih =>
    refine (Monitor.wp_bind _ _ _).mpr ⟨hseen, fun attempt => ?_⟩
    cases attempt with
    | installed => trivial
    | notAtThisTime => exact ih
    | failed => trivial

end Operations

/-! ## The boots whose result is dropped -/

section Runs

variable (env : Environment SimulatorRequest.Answer) (udid : String)

/-- The environment lets a simulator come up that is asked to boot after the history: it is booted,
or a wait for that succeeds, or it is or comes to be shut down and the boot succeeds. -/
def ComesUp (history : History SimulatorRequest.Answer) : Prop :=
  let read := history ++ [⟨.state udid, env history (.state udid)⟩]
  match (env history (.state udid) : FBiOSTargetState) with
  | .booted => True
  | .booting => env read (.resolveState udid booted 30) = true
  | .shuttingDown =>
      env read (.resolveState udid .shutdown 30) = true ∧
        env (read ++ [⟨.resolveState udid .shutdown 30, true⟩]) (.boot udid) = true
  | .creating =>
      env read (.resolveState udid booted 120) = true ∨
        let waited := read ++ [⟨.resolveState udid booted 120, false⟩]
        env waited (.resolveState udid .shutdown 120) = true ∧
          env (waited ++ [⟨.resolveState udid .shutdown 120, true⟩]) (.boot udid) = true
  | .shutdown => env read (.boot udid) = true
  | .unknown | .dfu | .recovery | .restoreOS => False

variable {env udid} {history : History SimulatorRequest.Answer}

theorem lastObserved_append (exchange : Sigma SimulatorRequest.Answer) :
    lastObserved (history ++ [exchange]) = observe (lastObserved history) exchange :=
  Monitor.stateAfter_append_singleton exchange

/-- A boot that fails leaves the state observed before. -/
theorem lastObserved_performBoot_iff
    (hseen : lastObserved history udid = some FBiOSTargetState.shutdown) :
    lastObserved ((performBoot udid).run env history).2 udid = some booted ↔
      env history (.boot udid) = true := by
  cases hboot : env history (.boot udid) with
  | false =>
    have hrun : ((performBoot udid).run env history).2 = history ++ [⟨.boot udid, false⟩] := by
      simp [performBoot, hboot]
    rw [hrun, lastObserved_append]
    simp [observe, hseen]
  | true =>
    have hrun : ((performBoot udid).run env history).2 = history ++ [⟨.boot udid, true⟩] ++
        [⟨.focus udid, env (history ++ [⟨.boot udid, true⟩]) (.focus udid)⟩] := by
      simp [performBoot, hboot]
    rw [hrun, lastObserved_append, lastObserved_append]
    simp [observe]

/-- So does a wait that fails. -/
theorem lastObserved_wait_iff {state : FBiOSTargetState} (timeout : Nat)
    (hseen : lastObserved history udid ≠ some state) :
    lastObserved ((waitForSimulatorState udid state timeout).run env history).2 udid =
        some state ↔ env history (.resolveState udid state timeout) = true := by
  rw [waitForSimulatorState, Interaction.run_request, lastObserved_append]
  cases hwait : env history (.resolveState udid state timeout) with
  | false => simp [observe, hseen]
  | true => simp [observe]

/-- A boot after a wait for the shutdown. -/
theorem lastObserved_waitAndBoot_iff (timeout : Nat)
    (hseen : lastObserved history udid ≠ some booted) :
    lastObserved ((do
        let resolved ← waitForSimulatorState udid .shutdown timeout
        if resolved then performBoot udid else return false :
          SimulatorProgram Bool).run env history).2 udid = some booted ↔
      env history (.resolveState udid .shutdown timeout) = true ∧
        env (history ++ [⟨.resolveState udid .shutdown timeout, true⟩]) (.boot udid) = true := by
  rw [Interaction.run_bind, waitForSimulatorState, Interaction.run_request]
  cases hwait : env history (.resolveState udid .shutdown timeout) with
  | false =>
    simp [lastObserved_append, observe, hseen]
  | true =>
    have hshutdown : lastObserved
        (history ++ [⟨.resolveState udid .shutdown timeout, true⟩]) udid =
          some FBiOSTargetState.shutdown := by
      simp [lastObserved_append, observe]
    simpa using lastObserved_performBoot_iff hshutdown

/-- **A boot** leaves the simulator observed as booted exactly if the environment lets it come
up. -/
theorem lastObserved_boot_iff :
    lastObserved ((boot udid).run env history).2 udid = some booted ↔
      ComesUp env udid history := by
  have hread : lastObserved (history ++ [⟨.state udid, env history (.state udid)⟩]) udid =
      some (env history (.state udid)) := by
    rw [lastObserved_append]
    exact Function.update_self ..
  rw [boot, Interaction.run_bind, Interaction.run_request, ComesUp]
  generalize hstate : (env history (.state udid) : FBiOSTargetState) = state at hread ⊢
  cases state with
  | booted => simpa using hread
  | booting => exact lastObserved_wait_iff 30 (by simp [hread])
  | shuttingDown => exact lastObserved_waitAndBoot_iff 30 (by simp [hread])
  | creating =>
    -- A simulator in creation is waited for before the boot is tried.
    generalize history ++ [⟨.state udid, creating⟩] = read at hread ⊢
    dsimp only
    rw [Interaction.run_bind, waitForSimulatorState, Interaction.run_request]
    cases hwait : env read (.resolveState udid booted 120) with
    | true => simp [lastObserved_append, observe]
    | false =>
      have hcreating : lastObserved (read ++ [⟨.resolveState udid booted 120, false⟩]) udid ≠
          some booted := by
        simp [lastObserved_append, observe, hread]
      simpa using lastObserved_waitAndBoot_iff 120 hcreating
  | shutdown => exact lastObserved_performBoot_iff hread
  | unknown => simp [hread]
  | dfu => simp [hread]
  | recovery => simp [hread]
  | restoreOS => simp [hread]

/-! ## What a run adds -/

/-- An operation that needs no state adds nothing that is not allowed. -/
theorem requestsAllowed_run_iff {α : Type} {p : SimulatorProgram α}
    (h : ∀ seen, lifecycle.wp p (fun _ _ => True) seen) :
    RequestsAllowed (p.run env history).2 ↔ RequestsAllowed history :=
  Monitor.respected_run_iff (h _) env

variable {bundleID : String}

/-- `launchApp:` needs a booted simulator. -/
theorem requestsAllowed_launchApp_iff :
    RequestsAllowed ((launchApp udid bundleID).run env history).2 ↔
      RequestsAllowed history ∧ lastObserved history udid = some booted := by
  constructor
  · intro h
    -- the list of the installed applications is asked for at once
    have hfirst : RequestsAllowed
        (history ++ [⟨.installedApps udid, env history (.installedApps udid)⟩]) :=
      Monitor.Respected.of_run h
    exact Monitor.respected_append_singleton.mp hfirst
  · rintro ⟨hallowed, hseen⟩
    exact Monitor.respected_of_wp (wp_launchApp_iff.mpr hseen) hallowed env

variable (env udid bundleID history) in
/-- The end of `uninstallApp:` is a shutdown, a boot and a look at the installed applications. -/
theorem history_rebootAndCheck :
    ∃ installedApps, ((rebootAndCheck udid bundleID).run env history).2 =
      ((boot udid).run env ((shutdown udid).run env history).2).2 ++
        [⟨.installedApps udid, installedApps⟩] :=
  ⟨env ((boot udid).run env ((shutdown udid).run env history).2).2 (.installedApps udid),
    by simp [rebootAndCheck, isInstalledWithError]⟩

/-- Listing the installed applications after a reboot needs the boot to have come to an end. -/
theorem requestsAllowed_rebootAndCheck_iff :
    RequestsAllowed ((rebootAndCheck udid bundleID).run env history).2 ↔
      RequestsAllowed history ∧ ComesUp env udid ((shutdown udid).run env history).2 := by
  have hshutdown : RequestsAllowed ((shutdown udid).run env history).2 ↔
      RequestsAllowed history := requestsAllowed_run_iff fun _ => wp_shutdown
  have hboot : RequestsAllowed ((boot udid).run env ((shutdown udid).run env history).2).2 ↔
      RequestsAllowed history :=
    (requestsAllowed_run_iff fun _ => wp_boot.mono fun _ _ _ => trivial).trans hshutdown
  obtain ⟨installedApps, hrun⟩ := history_rebootAndCheck env udid history bundleID
  rw [← hboot, ← lastObserved_boot_iff, hrun]
  exact Monitor.respected_append_singleton

/-- The reboot of `uninstallApp:`, if it gets there, lets the simulator come up. -/
def RebootComesUp (env : Environment SimulatorRequest.Answer) (udid bundleID : String)
    (history : History SimulatorRequest.Answer) : Prop :=
  ∀ later, (uninstallUntilReboot udid bundleID).run env history = (none, later) →
    ComesUp env udid ((shutdown udid).run env later).2

/-- `uninstallApp:` needs its reboot to come to an end. -/
theorem requestsAllowed_uninstallApp_iff :
    RequestsAllowed ((uninstallApp udid bundleID).run env history).2 ↔
      RequestsAllowed history ∧ RebootComesUp env udid bundleID history := by
  have hfirst : RequestsAllowed ((uninstallUntilReboot udid bundleID).run env history).2 ↔
      RequestsAllowed history := requestsAllowed_run_iff fun _ => wp_uninstallUntilReboot
  unfold RebootComesUp
  rw [uninstallApp, Interaction.run_bind, ← hfirst]
  rcases (uninstallUntilReboot udid bundleID).run env history with ⟨code, later⟩
  cases code with
  | some code => simp
  | none => simpa using requestsAllowed_rebootAndCheck_iff

/-- **After `uninstallApp:`** the simulator is observed as booted exactly if its first boot lets it
come up. -/
theorem lastObserved_uninstallApp_iff (hreboot : RebootComesUp env udid bundleID history) :
    lastObserved ((uninstallApp udid bundleID).run env history).2 udid = some booted ↔
      ComesUp env udid (killSimulatorApp.run env history).2 := by
  rw [← lastObserved_boot_iff]
  unfold RebootComesUp uninstallUntilReboot at hreboot
  unfold uninstallApp uninstallUntilReboot
  simp only [Interaction.run_bind] at hreboot ⊢
  generalize hkilled : (killSimulatorApp.run env history).2 = killed at hreboot ⊢
  have hpost : ((boot udid).run env killed).1 = true →
      lastObserved ((boot udid).run env killed).2 udid = some booted :=
    Monitor.post_of_wp wp_boot env
  generalize (boot udid).run env killed = result at hreboot hpost ⊢
  obtain ⟨success, later⟩ := result
  cases success with
  | false => simp
  | true =>
    -- the simulator came up, and nothing up to the reboot changes that
    have hbooted := hpost rfl
    refine iff_of_true ?_ hbooted
    have hstill : lastObserved ((uninstallBooted udid bundleID).run env later).2 udid =
        some booted := Monitor.post_of_wp (wp_uninstallBooted hbooted) env
    simp only [if_true] at hreboot ⊢
    generalize (uninstallBooted udid bundleID).run env later = result at hreboot hstill ⊢
    obtain ⟨code, uninstalled⟩ := result
    cases code with
    | some code => simpa using hstill
    | none =>
      -- the reboot is reached
      obtain ⟨installedApps, hrun⟩ := history_rebootAndCheck env udid uninstalled bundleID
      have hup := lastObserved_boot_iff.mpr (hreboot uninstalled rfl)
      rw [hrun, lastObserved_append]
      exact hup

/-- The attempts to install an application need a booted simulator. -/
theorem requestsAllowed_installAttempts_iff (path : String) (attempts : Nat) :
    RequestsAllowed ((installAttempts udid path (attempts + 1)).run env history).2 ↔
      RequestsAllowed history ∧ lastObserved history udid = some booted := by
  constructor
  · intro h
    have hfirst : RequestsAllowed (history ++ [⟨.installApplication udid path,
        env history (.installApplication udid path)⟩]) := Monitor.Respected.of_run h
    exact Monitor.respected_append_singleton.mp hfirst
  · rintro ⟨hallowed, hseen⟩
    exact Monitor.respected_of_wp (wp_installAttempts hseen path (attempts + 1)) hallowed env

variable {app : AppBundle} {resourcePaths : List String}

variable (env udid app resourcePaths history) in
/-- Reinstalling an application lets the simulator come up after it was shut down to uninstall the
old one, unless the resigning ends the operation with an exception. -/
def ReinstallComesUp : Prop :=
  RebootComesUp env udid app.bundleID history ∧
    (ComesUp env udid (killSimulatorApp.run env history).2 ∨
      ∃ e, env ((uninstallApp udid app.bundleID).run env history).2
        (.resignApplication app resourcePaths) = .error e)

/-- The end of `installApp:` needs the boots of `uninstallApp:` to come to an end. -/
theorem requestsAllowed_reinstall_iff :
    RequestsAllowed ((reinstall udid app resourcePaths).run env history).2 ↔
      RequestsAllowed history ∧ ReinstallComesUp env udid history app resourcePaths := by
  have huninstall : RequestsAllowed ((uninstallApp udid app.bundleID).run env history).2 ↔ _ :=
    requestsAllowed_uninstallApp_iff
  have hbooted : RebootComesUp env udid app.bundleID history →
      (lastObserved ((uninstallApp udid app.bundleID).run env history).2 udid = some booted ↔ _) :=
    lastObserved_uninstallApp_iff
  unfold ReinstallComesUp
  rw [reinstall, Interaction.run_bind, Interaction.run_bind, Interaction.run_request]
  generalize ((uninstallApp udid app.bundleID).run env history).2 = uninstalled at *
  cases hresigned : env uninstalled (.resignApplication app resourcePaths) with
  | error e =>
    -- the exception ends the operation before it asks for the install
    have hend : RequestsAllowed
        (uninstalled ++ [⟨.resignApplication app resourcePaths, .error e⟩]) ↔
          RequestsAllowed uninstalled := by
      simp [RequestsAllowed, lifecycle, Allows]
    simpa [and_assoc] using hend.trans huninstall
  | ok _ =>
    -- the first attempt follows, whatever came of the uninstalling
    have hseen : lastObserved
        (uninstalled ++ [⟨.resignApplication app resourcePaths, .ok ()⟩]) =
          lastObserved uninstalled := lastObserved_append _
    have hattempts : RequestsAllowed ((installAttempts udid app.path (3 + 1)).run env
        (uninstalled ++ [⟨.resignApplication app resourcePaths, .ok ()⟩])).2 ↔
          (RequestsAllowed history ∧ RebootComesUp env udid app.bundleID history) ∧
            lastObserved uninstalled udid = some booted := by
      rw [requestsAllowed_installAttempts_iff, hseen, ← huninstall]
      simp [RequestsAllowed, lifecycle, Allows]
    have hraises : ¬ ∃ e, (Except.ok () : Except NSException Unit) = .error e := by simp
    rw [or_iff_left hraises, ← and_assoc]
    refine Iff.trans ?_ (and_congr_right fun h => hbooted h.2)
    rw [← hattempts]
    simp [tries]

variable (env udid app resourcePaths history) in
/-- `installApp:`, if it comes to reinstall the application, lets the simulator come up again. -/
def InstallComesUp (forceReinstall : Bool) : Prop :=
  ∀ later, (installUntilUninstall udid app forceReinstall).run env history = (.ok none, later) →
    ReinstallComesUp env udid later app resourcePaths

/-- `installApp:` needs the boots of `uninstallApp:` to come to an end. -/
theorem requestsAllowed_installApp_iff {forceReinstall : Bool} :
    RequestsAllowed ((installApp udid app resourcePaths forceReinstall).run env history).2 ↔
      RequestsAllowed history ∧
        InstallComesUp env udid history app resourcePaths forceReinstall := by
  have hfirst : RequestsAllowed
      ((installUntilUninstall udid app forceReinstall).run env history).2 ↔
        RequestsAllowed history :=
    requestsAllowed_run_iff fun _ => wp_installUntilUninstall app forceReinstall
  unfold InstallComesUp
  rw [installApp, Interaction.run_bind, ← hfirst]
  rcases (installUntilUninstall udid app forceReinstall).run env history with ⟨code, later⟩
  match code with
  | .error e => simp
  | .ok (some code) => simp
  | .ok none => simpa using requestsAllowed_reinstall_iff

end Runs

end Simulator

namespace SimulatorOperation

open Simulator

/-- The condition under which an operation keeps to the states: on the state observed before it, or
on how the environment answers the boots that `uninstallApp:` makes. -/
def KeepsToStates (env : Environment SimulatorRequest.Answer)
    (history : History SimulatorRequest.Answer) : SimulatorOperation → Prop
  | launchApp udid _ => lastObserved history udid = some .booted
  | uninstallApp udid bundleID => RebootComesUp env udid bundleID history
  | installApp udid app resourcePaths forceReinstall =>
      InstallComesUp env udid history app resourcePaths forceReinstall
  | boot _ | shutdown _ | killSimulatorApp | eraseSimulator _ | isInstalled .. => True

/-- The step of a run: an operation is performed to its end. -/
def step (env : Environment SimulatorRequest.Answer) (history : History SimulatorRequest.Answer)
    (operation : SimulatorOperation) : Option (History SimulatorRequest.Answer) :=
  some (operation.perform env history)

/-- The history of a run of operations, which starts without observations. -/
def performAll (env : Environment SimulatorRequest.Answer)
    (operations : List SimulatorOperation) : History SimulatorRequest.Answer :=
  operations.foldl (perform env) []

variable {env : Environment SimulatorRequest.Answer} {history : History SimulatorRequest.Answer}

/-- **One operation** makes allowed requests only exactly under its condition. -/
theorem requestsAllowed_perform_iff (operation : SimulatorOperation) :
    RequestsAllowed (operation.perform env history) ↔
      RequestsAllowed history ∧ operation.KeepsToStates env history := by
  cases operation with
  | boot udid =>
    rw [KeepsToStates, and_true]
    exact requestsAllowed_run_iff fun _ => wp_boot.mono fun _ _ _ => trivial
  | shutdown udid =>
    rw [KeepsToStates, and_true]
    exact requestsAllowed_run_iff fun _ => wp_shutdown
  | killSimulatorApp =>
    rw [KeepsToStates, and_true]
    exact requestsAllowed_run_iff fun _ => wp_killSimulatorApp
  | eraseSimulator udid =>
    rw [KeepsToStates, and_true]
    exact requestsAllowed_run_iff fun _ => wp_eraseSimulator
  | isInstalled udid bundleID =>
    rw [KeepsToStates, and_true]
    exact requestsAllowed_run_iff fun _ => wp_isInstalled
  | installApp udid app resourcePaths forceReinstall => exact requestsAllowed_installApp_iff
  | uninstallApp udid bundleID => exact requestsAllowed_uninstallApp_iff
  | launchApp udid bundleID => exact requestsAllowed_launchApp_iff

/-- A run is never stuck. -/
theorem run_step (operations : List SimulatorOperation) :
    General.run (step env) history operations = some (operations.foldl (perform env) history) := by
  induction operations generalizing history with
  | nil => rfl
  | cons operation operations ih => exact ih

/-- **When requests are made in allowed states only.** For every environment and every run of
operations: exactly if every operation of the run meets its condition. -/
theorem requestsAllowed_performAll_iff (env : Environment SimulatorRequest.Answer)
    (operations : List SimulatorOperation) :
    RequestsAllowed (performAll env operations) ↔
      Along (step env) (fun history operation => operation.KeepsToStates env history) []
        operations := by
  -- one step keeps the requests allowed exactly under its condition, and none makes up for another
  have hstep : ∀ (history : History SimulatorRequest.Answer) (operation : SimulatorOperation)
      (later : History SimulatorRequest.Answer), True → step env history operation = some later →
        (RequestsAllowed later ↔
          RequestsAllowed history ∧ operation.KeepsToStates env history) := by
    intro history operation later _ hlater
    obtain rfl := Option.some.inj hlater
    exact requestsAllowed_perform_iff operation
  have hstart : RequestsAllowed [] := trivial
  rw [performAll, run_iff_along (fun _ _ _ _ _ => trivial) hstep trivial (run_step operations),
    and_iff_right hstart]

/-! ### A simulator that is shut down -/

/-- An environment in which every simulator stays as it was last observed, booted at first; requests
succeed, and no application is installed. -/
def steadyEnvironment : Environment SimulatorRequest.Answer := fun history r =>
  match r with
  | .state udid => (lastObserved history udid).getD .booted
  | .resolveState udid state _ => decide ((lastObserved history udid).getD .booted = state)
  | .installApplication .. => .installed
  | .installedApps _ => some []
  | .installedApplication .. => none
  | .allSimulators => []
  | .runningApplications => []
  | .terminate _ => ()
  | .forceTerminate _ => ()
  | .applicationWithBundlePath _ => .ok none
  | .appVersionIsDifferent .. => .ok false
  | .resignApplication .. => .ok ()
  | .boot _ => true
  | .focus _ => true
  | .shutdown _ => true
  | .erase _ => true
  | .uninstallApplication .. => true
  | .launchApplication .. => true
  | .simulatorWithUDID _ => true
  | .spinUntilTerminated _ => true

/-- **The list of a simulator that is shut down.** A simulator is shut down, and launching an
application on it asks for its installed applications before it is booted. -/
theorem launchApp_lists_shutdown :
    lastObserved (performAll steadyEnvironment [.shutdown "A"]) "A" = some .shutdown ∧
      (performAll steadyEnvironment [.shutdown "A", .launchApp "A" "com.my.app"]).map Sigma.fst =
        (performAll steadyEnvironment [.shutdown "A"]).map Sigma.fst ++ [.installedApps "A"] ∧
      ¬ RequestsAllowed
        (performAll steadyEnvironment [.shutdown "A", .launchApp "A" "com.my.app"]) := by
  have hshutdown : lastObserved (performAll steadyEnvironment [.shutdown "A"]) "A" =
      some .shutdown := by decide
  refine ⟨hshutdown, rfl, fun h => ?_⟩
  have hbooted : lastObserved (performAll steadyEnvironment [.shutdown "A"]) "A" = some .booted :=
    (requestsAllowed_launchApp_iff.mp h).2
  rw [hshutdown] at hbooted
  cases hbooted

end SimulatorOperation

end IOSDeviceManager
