import IOSDeviceManager.Devices.SimulatorObservations
import IOSDeviceManager.General.Recall

/-! # What a success of a simulator operation stands for

The operations on a simulator drop results, repeat requests and go on in loops. A success is still
backed by what the operation itself was answered: every operation that reports one has last observed
what it is for, whatever the environment answers and whatever was observed before. The exception is
an uninstall that cannot read the list of the installed applications, for it takes a reading that
fails for one that does not name the application. -/

namespace IOSDeviceManager

open General Interaction

deriving instance DecidableEq for SimulatorRequest

namespace Simulator

open FBiOSTargetState

/-- What is learned from exchanges: the last answers, and the last observed states. -/
abbrev Evidence : Type :=
  Answers SimulatorRequest.Answer × Observations

/-- The monitor of what is learned. -/
def evidence : Monitor SimulatorRequest.Answer Evidence :=
  Monitor.lastAnswers.prod lifecycle.allowAll

/-- What the exchanges alone show. -/
def evidenceOf (exchanges : History SimulatorRequest.Answer) : Evidence :=
  evidence.stateAfter (fun _ => none, fun _ => none) exchanges

end Simulator

namespace SimulatorOperation

open Simulator FBiOSTargetState

/-- What each operation is for, as far as the evidence shows. -/
def Achieved (e : Evidence) : SimulatorOperation → Prop
  | boot udid => e.2 udid = some booted
  | shutdown udid => e.2 udid = some FBiOSTargetState.shutdown
  | killSimulatorApp =>
      ∃ applications simulators, e.1 .runningApplications = some applications ∧
        e.1 .allSimulators = some simulators ∧
        (∀ application ∈ applications, e.1 (.spinUntilTerminated application) = some true) ∧
        ∀ udid ∈ simulators, e.2 udid = some FBiOSTargetState.shutdown
  | eraseSimulator udid =>
      e.1 (.erase udid) = some true ∧ e.2 udid = some FBiOSTargetState.shutdown
  | installApp udid app _ forceReinstall =>
      e.1 (.installApplication udid app.path) = some .installed ∨
        forceReinstall = false ∧ ∃ path installedApp,
          e.1 (.installedApplication udid app.bundleID) = some (some path) ∧
          e.1 (.applicationWithBundlePath path) = some (.ok (some installedApp)) ∧
          e.1 (.appVersionIsDifferent installedApp app) = some (.ok false)
  | uninstallApp udid bundleID =>
      ∃ apps, e.1 (.installedApps udid) = some (some apps) ∧ bundleID ∉ apps
  | launchApp udid bundleID =>
      e.1 (.launchApplication udid bundleID) = some true ∧ e.2 udid = some booted
  | isInstalled udid bundleID =>
      e.2 udid = some booted ∧
        ∃ apps, e.1 (.installedApps udid) = some (some apps) ∧ bundleID ∈ apps

/-- An uninstall has not failed to read the installed applications the last time. -/
def ReadsInstalledApps (e : Evidence) : SimulatorOperation → Prop
  | uninstallApp udid _ => e.1 (.installedApps udid) ≠ some none
  | _ => True

/-- The operation reports a success. -/
def Succeeds (env : Environment SimulatorRequest.Answer)
    (history : History SimulatorRequest.Answer) : SimulatorOperation → Prop
  | boot udid => ((Simulator.boot udid).run env history).1 = true
  | shutdown udid => ((Simulator.shutdown udid).run env history).1 = true
  | killSimulatorApp => (Simulator.killSimulatorApp.run env history).1 = .everythingOkay
  | eraseSimulator udid => ((Simulator.eraseSimulator udid).run env history).1 = .everythingOkay
  | installApp udid app resourcePaths forceReinstall =>
      ((Simulator.installApp udid app resourcePaths forceReinstall).run env history).1 =
        .ok .everythingOkay
  | uninstallApp udid bundleID =>
      ((Simulator.uninstallApp udid bundleID).run env history).1 = .everythingOkay
  | launchApp udid bundleID =>
      ((Simulator.launchApp udid bundleID).run env history).1 = .everythingOkay
  | isInstalled udid bundleID =>
      ((Simulator.isInstalled udid bundleID).run env history).1 = .everythingOkay

end SimulatorOperation

namespace Simulator

open FBiOSTargetState

section Rules

variable {α β : Type} {p : SimulatorProgram α} {f : α → SimulatorProgram β} {e : Evidence}
  {r : SimulatorRequest}

/-- A request is answered, and the answer is learned. -/
theorem evidence_ask {f : r.Answer → SimulatorProgram β} {post : β → Evidence → Prop}
    (h : ∀ answer, evidence.wp (f answer) post (evidence.observe e ⟨r, answer⟩)) :
    evidence.wp (request r >>= f) post e :=
  (Monitor.wp_bind _ _ _).mpr ⟨⟨trivial, trivial⟩, h⟩

/-- Sequencing. -/
theorem evidence_bind {mid : α → Evidence → Prop} {post : β → Evidence → Prop}
    (hp : evidence.wp p mid e)
    (hf : ∀ result later, mid result later → evidence.wp (f result) post later) :
    evidence.wp (p >>= f) post e :=
  (Monitor.wp_bind _ _ _).mpr (hp.mono hf)

/-- Sequencing after a program whose result and evidence do not matter. -/
theorem evidence_bind_any {post : β → Evidence → Prop}
    (hf : ∀ result later, evidence.wp (f result) post later) :
    evidence.wp (p >>= f) post e := by
  have hany : evidence.wp p (fun _ _ => True) e :=
    Monitor.wp_of_forall p (fun _ _ => ⟨trivial, trivial⟩) fun _ _ => trivial
  exact evidence_bind hany fun result later _ => hf result later

/-- What the monitor of the states ensures. -/
theorem evidence_of_lifecycle {post : α → Observations → Prop} (h : lifecycle.wp p post e.2) :
    evidence.wp p (fun result later => post result later.2) e := by
  have hrecall : Monitor.lastAnswers.wp p (fun _ _ => True) e.1 :=
    Monitor.wp_of_forall p (fun _ _ => trivial) fun _ _ => trivial
  exact (hrecall.prod h.allowAll).mono fun _ _ hpost => hpost.2

/-- The answers to other requests stay. -/
theorem evidence_frame {P : SimulatorRequest → Prop} (hp : AsksOnly P p) :
    evidence.wp p (fun _ later => ∀ r, ¬ P r → later.1 r = e.1 r) e := by
  have hstates : lifecycle.allowAll.wp p (fun _ _ => True) e.2 :=
    Monitor.wp_of_forall p (fun _ _ => trivial) fun _ _ => trivial
  exact ((Monitor.lastAnswers_frame hp e.1).prod hstates).mono fun _ _ hpost => hpost.1

@[simp] theorem answer_observe_self (answer : r.Answer) :
    (evidence.observe e ⟨r, answer⟩).1 r = some answer :=
  Function.update_self ..

theorem answer_observe_of_ne {other : SimulatorRequest} (h : other ≠ r) (answer : r.Answer) :
    (evidence.observe e ⟨r, answer⟩).1 other = e.1 other :=
  Function.update_of_ne h ..

end Rules

/-! ## Shutting down -/

section Operations

variable {udid bundleID : String} {e : Evidence}

/-- The requests about states, with the one to shut down. -/
def AsksForStates : SimulatorRequest → Prop
  | .state _ | .resolveState .. | .shutdown _ | .simulatorWithUDID _ => True
  | _ => False

/-- The requests to terminate the instances of `Simulator.app`. -/
def AsksForTermination : SimulatorRequest → Prop
  | .terminate _ | .forceTerminate _ | .spinUntilTerminated _ => True
  | _ => False

theorem asksOnly_shutdown : AsksOnly AsksForStates (shutdown udid) := by
  refine .bind (asksUnder_request.mpr trivial) fun state => ?_
  refine (asksUnder_pure _).ite (.bind (asksUnder_request.mpr trivial) fun state => ?_)
  exact AsksUnder.ite (asksUnder_request.mpr trivial) (asksUnder_request.mpr trivial)

theorem asksOnly_shutdownAll (results : List String) :
    AsksOnly AsksForStates (shutdownAll results) := by
  induction results with
  | nil => exact asksUnder_pure _
  | cons udid results ih =>
    refine .bind (asksUnder_request.mpr trivial) fun found => ?_
    cases found with
    | false => exact asksUnder_pure _
    | true => exact .bind asksOnly_shutdown fun success => ih.ite (asksUnder_pure _)

theorem asksOnly_terminateAll (applications : List Nat) :
    AsksOnly AsksForTermination (terminateAll applications) := by
  induction applications with
  | nil => exact asksUnder_pure _
  | cons application applications ih =>
    refine .bind (asksUnder_request.mpr trivial) fun _ => ?_
    refine .bind (asksUnder_request.mpr trivial) fun termed => ?_
    have hrest : AsksOnly AsksForTermination (do
        let termed ← request (.spinUntilTerminated application)
        if termed then terminateAll applications else return false) :=
      .bind (asksUnder_request.mpr trivial) fun _ => ih.ite (asksUnder_pure _)
    cases termed with
    | false => exact .bind (asksUnder_request.mpr trivial) fun _ => hrest
    | true => exact hrest

/-- **`shutdown`** has observed the shutdown if it succeeds, and observes nothing of other
simulators. -/
theorem evidence_shutdown : evidence.wp (shutdown udid) (fun success later =>
    (success = true → later.2 udid = some FBiOSTargetState.shutdown) ∧
      ∀ other, other ≠ udid → later.2 other = e.2 other) e := by
  refine evidence_ask fun state => ?_
  have hself : (evidence.observe e ⟨.state udid, state⟩).2 udid = some state :=
    Function.update_self ..
  have hother : ∀ other, other ≠ udid →
      (evidence.observe e ⟨.state udid, state⟩).2 other = e.2 other :=
    fun other hne => Function.update_of_ne hne ..
  split
  · rename_i hstate
    exact ⟨fun _ => hstate ▸ hself, hother⟩
  · -- what is read now plays no part if the wait or the request succeeds
    refine evidence_ask fun state' => ?_
    have hread : ∀ other, other ≠ udid → (evidence.observe (evidence.observe e
        ⟨.state udid, state⟩) ⟨.state udid, state'⟩).2 other = e.2 other :=
      fun other hne => (Function.update_of_ne hne ..).trans (hother other hne)
    split
    · refine ⟨⟨trivial, trivial⟩, fun success => ?_⟩
      cases success with
      | false => exact ⟨fun h => Bool.noConfusion h, hread⟩
      | true =>
        exact ⟨fun _ => Function.update_self ..,
          fun other hne => (Function.update_of_ne hne ..).trans (hread other hne)⟩
    · refine ⟨⟨trivial, trivial⟩, fun success => ?_⟩
      cases success with
      | false => exact ⟨fun h => Bool.noConfusion h, hread⟩
      | true =>
        exact ⟨fun _ => Function.update_self ..,
          fun other hne => (Function.update_of_ne hne ..).trans (hread other hne)⟩

/-- **The second loop** has observed the shutdown of every simulator if it succeeds. -/
theorem evidence_shutdownAll (results : List String) :
    evidence.wp (shutdownAll results) (fun code later =>
      (code = .everythingOkay → ∀ udid ∈ results, later.2 udid = some FBiOSTargetState.shutdown) ∧
        ∀ udid, udid ∉ results → later.2 udid = e.2 udid) e := by
  induction results generalizing e with
  | nil => exact ⟨fun _ _ h => absurd h List.not_mem_nil, fun _ _ => rfl⟩
  | cons udid results ih =>
    refine evidence_ask fun found => ?_
    have hfound : (evidence.observe e ⟨.simulatorWithUDID udid, found⟩).2 = e.2 := rfl
    cases found with
    | false => exact ⟨fun h => (nomatch h), fun _ _ => rfl⟩
    | true =>
      refine evidence_bind evidence_shutdown fun success later hlater => ?_
      rw [hfound] at hlater
      cases success with
      | false =>
        refine ⟨fun h => (nomatch h), fun other hother => hlater.2 other ?_⟩
        exact fun heq => hother (heq ▸ List.mem_cons_self)
      | true =>
        refine ih.mono fun code last hlast => ⟨fun hcode other hother => ?_, fun other hother => ?_⟩
        · -- the last simulator of the name counts
          by_cases hmem : other ∈ results
          · exact hlast.1 hcode other hmem
          · obtain rfl : other = udid := (List.mem_cons.mp hother).resolve_right hmem
            rw [hlast.2 other hmem]
            exact hlater.1 rfl
        · obtain ⟨hne, hnot⟩ := not_or.mp (mt List.mem_cons.mpr hother)
          rw [hlast.2 other hnot]
          exact hlater.2 other hne

/-- **The first loop** has waited for the end of every application if it succeeds. -/
theorem evidence_terminateAll (applications : List Nat) :
    evidence.wp (terminateAll applications) (fun success later =>
      (success = true → ∀ application ∈ applications,
        later.1 (.spinUntilTerminated application) = some true) ∧
      ∀ application, application ∉ applications →
        later.1 (.spinUntilTerminated application) = e.1 (.spinUntilTerminated application)) e := by
  induction applications generalizing e with
  | nil => exact ⟨fun _ _ h => absurd h List.not_mem_nil, fun _ _ => rfl⟩
  | cons application applications ih =>
    -- the second wait decides, whether or not the application had to be forced
    have hrest : ∀ before : Evidence,
        (∀ other, other ≠ application →
          before.1 (.spinUntilTerminated other) = e.1 (.spinUntilTerminated other)) →
        evidence.wp (do
            let termed ← request (.spinUntilTerminated application)
            if termed then terminateAll applications else return false)
          (fun success later =>
            (success = true → ∀ other ∈ application :: applications,
              later.1 (.spinUntilTerminated other) = some true) ∧
            ∀ other, other ∉ application :: applications →
              later.1 (.spinUntilTerminated other) = e.1 (.spinUntilTerminated other)) before := by
      intro before hbefore
      refine evidence_ask fun termed => ?_
      have hother : ∀ other, other ≠ application →
          (evidence.observe before ⟨.spinUntilTerminated application, termed⟩).1
            (.spinUntilTerminated other) = e.1 (.spinUntilTerminated other) :=
        fun other hne => (answer_observe_of_ne (by simpa using hne) termed).trans
          (hbefore other hne)
      cases termed with
      | false =>
        exact ⟨fun h => Bool.noConfusion h,
          fun other hnot => hother other fun heq => hnot (heq ▸ List.mem_cons_self)⟩
      | true =>
        refine ih.mono fun success later hlater => ⟨fun hsuccess other hmem => ?_, fun other hnot => ?_⟩
        · by_cases hin : other ∈ applications
          · exact hlater.1 hsuccess other hin
          · obtain rfl : other = application := (List.mem_cons.mp hmem).resolve_right hin
            rw [hlater.2 other hin]
            exact answer_observe_self _
        · obtain ⟨hne, hnot⟩ := not_or.mp (mt List.mem_cons.mpr hnot)
          rw [hlater.2 other hnot]
          exact hother other hne
    refine evidence_ask fun answer => evidence_ask fun termed => ?_
    have hspun : ∀ other, other ≠ application →
        (evidence.observe (evidence.observe e ⟨.terminate application, answer⟩)
          ⟨.spinUntilTerminated application, termed⟩).1 (.spinUntilTerminated other) =
            e.1 (.spinUntilTerminated other) := by
      intro other hne
      rw [answer_observe_of_ne (by simpa using hne), answer_observe_of_ne (by simp)]
    cases termed with
    | false =>
      refine evidence_ask fun forced => hrest _ fun other hne => ?_
      rw [answer_observe_of_ne (by simp)]
      exact hspun other hne
    | true => exact hrest _ hspun

/-- **`killSimulatorApp`**: every running instance has ended, every simulator is shut down. -/
theorem evidence_killSimulatorApp : evidence.wp killSimulatorApp (fun code later =>
    code = .everythingOkay → SimulatorOperation.Achieved later .killSimulatorApp) e := by
  refine evidence_ask fun applications => ?_
  refine evidence_bind ((evidence_terminateAll applications).and
    (evidence_frame (asksOnly_terminateAll applications))) fun terminated later hlater => ?_
  obtain ⟨⟨hended, -⟩, hframe⟩ := hlater
  cases terminated with
  | false => exact fun h => nomatch h
  | true =>
    refine evidence_ask fun simulators => ?_
    refine ((evidence_shutdownAll simulators).and
      (evidence_frame (asksOnly_shutdownAll simulators))).mono fun code last hlast hcode => ?_
    obtain ⟨⟨hdown, -⟩, hlastframe⟩ := hlast
    refine ⟨applications, simulators, ?_, ?_, fun application hmem => ?_, hdown hcode⟩
    · rw [hlastframe _ id, answer_observe_of_ne (by simp), hframe _ id]
      exact answer_observe_self _
    · rw [hlastframe _ id]
      exact answer_observe_self _
    · rw [hlastframe _ id, answer_observe_of_ne (by simp)]
      exact hended rfl application hmem

/-- **`eraseSimulator:`** erases after the shutdown that it has waited for. -/
theorem evidence_eraseSimulator : evidence.wp (eraseSimulator udid) (fun code later =>
    code = .everythingOkay → SimulatorOperation.Achieved later (.eraseSimulator udid)) e := by
  refine evidence_bind_any fun _ before => evidence_ask fun resolved => ?_
  cases resolved with
  | false => exact fun h => nomatch h
  | true =>
    refine evidence_ask fun erased => ?_
    cases erased with
    | false => exact fun h => nomatch h
    | true => exact fun _ => ⟨answer_observe_self _, Function.update_self ..⟩

/-! ## Applications -/

/-- The list of the installed applications is answered, and nothing else learned. -/
theorem evidence_isInstalledWithError :
    evidence.wp (isInstalledWithError udid bundleID) (fun installed later => ∃ listing,
      later.1 (.installedApps udid) = some listing ∧ later.2 = e.2 ∧
        installed = listing.any (List.contains · bundleID)) e :=
  evidence_ask fun listing => ⟨listing, answer_observe_self _, rfl, rfl⟩

/-- An application that is not found is not in the list, if there is one. -/
theorem achieved_uninstallApp {listing : Option (List String)}
    (hlisting : e.1 (.installedApps udid) = some listing)
    (hfound : false = listing.any (List.contains · bundleID))
    (hreads : SimulatorOperation.ReadsInstalledApps e (.uninstallApp udid bundleID)) :
    SimulatorOperation.Achieved e (.uninstallApp udid bundleID) := by
  cases listing with
  | none => exact absurd hlisting hreads
  | some apps => exact ⟨apps, hlisting, by simpa using hfound.symm⟩

theorem evidence_boot : evidence.wp (boot udid)
    (fun success later => success = true → later.2 udid = some booted) e :=
  evidence_of_lifecycle wp_boot

/-- **`isInstalled:`** finds the application in the list, on a booted simulator. -/
theorem evidence_isInstalled : evidence.wp (isInstalled udid bundleID) (fun code later =>
    code = .everythingOkay → SimulatorOperation.Achieved later (.isInstalled udid bundleID)) e := by
  refine evidence_bind evidence_boot fun booted later hbooted => ?_
  cases booted with
  | false => exact fun h => nomatch h
  | true =>
    refine evidence_bind evidence_isInstalledWithError fun installed last hlast => ?_
    obtain ⟨listing, hlisting, hstates, hinstalled⟩ := hlast
    cases installed with
    | false => exact fun h => nomatch h
    | true =>
      refine fun _ => ⟨hstates ▸ hbooted rfl, ?_⟩
      obtain ⟨apps, rfl, hcontains⟩ := (Option.any_eq_true _ _).mp hinstalled.symm
      exact ⟨apps, hlisting, List.contains_iff_mem.mp hcontains⟩

/-- **`launchApp:`** launches on a booted simulator. -/
theorem evidence_launchApp : evidence.wp (launchApp udid bundleID) (fun code later =>
    code = .everythingOkay → SimulatorOperation.Achieved later (.launchApp udid bundleID)) e := by
  refine evidence_bind_any fun installed before => ?_
  cases installed with
  | false => exact fun h => nomatch h
  | true =>
    refine evidence_bind evidence_boot fun booted later hbooted => ?_
    cases booted with
    | false => exact fun h => nomatch h
    | true =>
      refine evidence_ask fun launched => ?_
      cases launched with
      | false => exact fun h => nomatch h
      | true => exact fun _ => ⟨answer_observe_self _, hbooted rfl⟩

/-- **`uninstallApp:`** has last seen a list without the application, if it has seen a list. -/
theorem evidence_uninstallApp : evidence.wp (uninstallApp udid bundleID) (fun code later =>
    code = .everythingOkay →
      SimulatorOperation.ReadsInstalledApps later (.uninstallApp udid bundleID) →
        SimulatorOperation.Achieved later (.uninstallApp udid bundleID)) e := by
  -- on a booted simulator the list is read again after the removal
  have hbooted : ∀ e : Evidence, evidence.wp (uninstallBooted udid bundleID) (fun code later =>
      code = some .everythingOkay →
        SimulatorOperation.ReadsInstalledApps later (.uninstallApp udid bundleID) →
          SimulatorOperation.Achieved later (.uninstallApp udid bundleID)) e := by
    intro e
    refine evidence_bind_any fun installed before => ?_
    cases installed with
    | false => exact fun h => nomatch h
    | true =>
      refine evidence_ask fun uninstalled => ?_
      cases uninstalled with
      | false => exact fun h => nomatch h
      | true =>
        refine evidence_bind evidence_isInstalledWithError fun installed later hlater => ?_
        obtain ⟨listing, hlisting, -, hinstalled⟩ := hlater
        cases installed with
        | true => exact fun h => nomatch h
        | false => exact fun _ => achieved_uninstallApp hlisting hinstalled
  have hfirst : evidence.wp (uninstallUntilReboot udid bundleID) (fun code later =>
      code = some .everythingOkay →
        SimulatorOperation.ReadsInstalledApps later (.uninstallApp udid bundleID) →
          SimulatorOperation.Achieved later (.uninstallApp udid bundleID)) e := by
    refine evidence_bind_any fun _ before => evidence_bind_any fun booted later => ?_
    cases booted with
    | false => exact fun h => nomatch h
    | true => exact hbooted later
  refine evidence_bind hfirst fun code later hlater => ?_
  cases code with
  | some code => exact fun h => hlater (congrArg some h)
  | none =>
    -- the simulator is booted again, and the list is read once more
    refine evidence_bind_any fun _ before => evidence_bind_any fun _ before' => ?_
    refine evidence_bind evidence_isInstalledWithError fun installed last hlast => ?_
    obtain ⟨listing, hlisting, -, hinstalled⟩ := hlast
    cases installed with
    | true => exact fun h => nomatch h
    | false => exact fun _ => achieved_uninstallApp hlisting hinstalled

/-- **The attempts to install.** The last one has installed the application if they succeed. -/
theorem evidence_installAttempts (path : String) (attempts : Nat) :
    evidence.wp (installAttempts udid path attempts) (fun success later =>
      success = true → later.1 (.installApplication udid path) = some .installed) e := by
  induction attempts generalizing e with
  | zero => exact fun h => Bool.noConfusion h
  | succ attempts ih =>
    refine evidence_ask fun attempt => ?_
    cases attempt with
    | installed => exact fun _ => answer_observe_self _
    | notAtThisTime => exact ih
    | failed => exact fun h => Bool.noConfusion h

/-- **`installApp:`** has installed the application, or found the same version and was not to force
anything. -/
theorem evidence_installApp (app : AppBundle) (resourcePaths : List String)
    (forceReinstall : Bool) :
    evidence.wp (installApp udid app resourcePaths forceReinstall) (fun code later =>
      code = .ok .everythingOkay →
        SimulatorOperation.Achieved later (.installApp udid app resourcePaths forceReinstall)) e := by
  -- a success before the installation: the same version is there, and nothing is forced
  have hfirst : evidence.wp (installUntilUninstall udid app forceReinstall) (fun code later =>
      code = .ok (some .everythingOkay) → SimulatorOperation.Achieved later
        (.installApp udid app resourcePaths forceReinstall)) e := by
    refine evidence_bind_any fun booted before => ?_
    cases booted with
    | false => exact fun h => nomatch h
    | true =>
      -- the installed copy is known by two exchanges
      have hinstalled : evidence.wp (installedApp udid app.bundleID) (fun installedApp later =>
          ∀ installed, installedApp = .ok (some installed) → ∃ path,
            later.1 (.installedApplication udid app.bundleID) = some (some path) ∧
            later.1 (.applicationWithBundlePath path) = some (.ok (some installed))) before := by
        refine evidence_ask fun path => ?_
        cases path with
        | none => exact fun _ h => nomatch h
        | some path =>
          refine ⟨⟨trivial, trivial⟩, fun installedApp installed h => ⟨path, ?_, ?_⟩⟩
          · rw [answer_observe_of_ne (by simp)]
            exact answer_observe_self _
          · rw [answer_observe_self, h]
      refine evidence_bind hinstalled fun installedApp later hlater => ?_
      match installedApp with
      | .error e => exact fun h => nomatch h
      | .ok none => exact fun h => nomatch h
      | .ok (some installed) =>
        obtain ⟨path, hpath, happ⟩ := hlater installed rfl
        cases forceReinstall with
        | true => exact fun h => nomatch h
        | false =>
          refine evidence_ask fun needsToInstall => ?_
          match needsToInstall with
          | .error e => exact fun h => nomatch h
          | .ok true => exact fun h => nomatch h
          | .ok false =>
            refine fun _ => .inr ⟨rfl, path, installed, ?_, ?_, answer_observe_self _⟩
            · rw [answer_observe_of_ne (by simp)]
              exact hpath
            · rw [answer_observe_of_ne (by simp)]
              exact happ
  -- a success after it is that of the last attempt
  refine evidence_bind hfirst fun code later hlater => ?_
  match code with
  | .error e => exact fun h => nomatch h
  | .ok (some code) => exact fun h => hlater (congrArg (Except.ok ∘ some) (Except.ok.inj h))
  | .ok none =>
    refine evidence_bind_any fun _ before => evidence_ask fun resigned => ?_
    match resigned with
    | .error e => exact fun h => nomatch h
    | .ok () =>
      refine evidence_bind (evidence_installAttempts app.path (tries - 1))
        fun success last hlast => ?_
      cases success with
      | false => exact fun h => nomatch h
      | true => exact fun _ => .inl (hlast rfl)

end Operations

end Simulator

namespace SimulatorOperation

open Simulator

/-- What holds after an operation from the start holds of what the operation adds to a history. -/
theorem exists_exchanges {α : Type} {p : SimulatorProgram α} {post : α → Evidence → Prop}
    (h : ∀ e, evidence.wp p post e) (env : Environment SimulatorRequest.Answer)
    (history : History SimulatorRequest.Answer) :
    ∃ exchanges, (p.run env history).2 = history ++ exchanges ∧
      post (p.run env history).1 (evidenceOf exchanges) := by
  have hrun := run_eq_append p env history
  refine ⟨_, congrArg Prod.snd hrun, ?_⟩
  rw [congrArg Prod.fst hrun]
  have hstart : evidence.wp p post (evidenceOf []) := h _
  exact Monitor.post_of_wp hstart _

/-- **A success is backed.** In every environment and after every history: an operation that reports
a success has itself been answered, in the exchanges it adds, what shows that it did what it is for;
an uninstall, unless its last reading of the installed applications failed. -/
theorem achieved_of_succeeds (env : Environment SimulatorRequest.Answer)
    (history : History SimulatorRequest.Answer) (operation : SimulatorOperation)
    (hsucceeds : operation.Succeeds env history) :
    ∃ exchanges, operation.perform env history = history ++ exchanges ∧
      (operation.ReadsInstalledApps (evidenceOf exchanges) →
        operation.Achieved (evidenceOf exchanges)) := by
  -- by what each method has been answered; only the uninstall goes by a reading that can fail
  cases operation with
  | boot udid =>
    obtain ⟨exchanges, hadds, hpost⟩ := exists_exchanges (fun _ => evidence_boot) env history
    exact ⟨exchanges, hadds, fun _ => hpost hsucceeds⟩
  | shutdown udid =>
    obtain ⟨exchanges, hadds, hpost⟩ := exists_exchanges
      (fun _ => evidence_shutdown.mono fun _ _ h => h.1) env history
    exact ⟨exchanges, hadds, fun _ => hpost hsucceeds⟩
  | killSimulatorApp =>
    obtain ⟨exchanges, hadds, hpost⟩ := exists_exchanges (fun _ => evidence_killSimulatorApp) env
      history
    exact ⟨exchanges, hadds, fun _ => hpost hsucceeds⟩
  | eraseSimulator udid =>
    obtain ⟨exchanges, hadds, hpost⟩ := exists_exchanges (fun _ => evidence_eraseSimulator) env
      history
    exact ⟨exchanges, hadds, fun _ => hpost hsucceeds⟩
  | installApp udid app resourcePaths forceReinstall =>
    obtain ⟨exchanges, hadds, hpost⟩ := exists_exchanges
      (fun _ => evidence_installApp app resourcePaths forceReinstall) env history
    exact ⟨exchanges, hadds, fun _ => hpost hsucceeds⟩
  | uninstallApp udid bundleID =>
    obtain ⟨exchanges, hadds, hpost⟩ := exists_exchanges (fun _ => evidence_uninstallApp) env history
    exact ⟨exchanges, hadds, hpost hsucceeds⟩
  | launchApp udid bundleID =>
    obtain ⟨exchanges, hadds, hpost⟩ := exists_exchanges (fun _ => evidence_launchApp) env history
    exact ⟨exchanges, hadds, fun _ => hpost hsucceeds⟩
  | isInstalled udid bundleID =>
    obtain ⟨exchanges, hadds, hpost⟩ := exists_exchanges (fun _ => evidence_isInstalled) env history
    exact ⟨exchanges, hadds, fun _ => hpost hsucceeds⟩

/-- The steady environment with an instance of `Simulator.app` and two simulators. -/
def crowdedEnvironment : Environment SimulatorRequest.Answer := fun history r =>
  match r with
  | .runningApplications => [1]
  | .allSimulators => ["A", "B"]
  | r => steadyEnvironment history r

/-- Both simulators are booted, and shut down in the end. -/
theorem achieved_of_succeeds_crowded : ∃ exchanges,
    killSimulatorApp.perform crowdedEnvironment [] = exchanges ∧
      (evidenceOf exchanges).1 .allSimulators = some ["A", "B"] ∧
      killSimulatorApp.Achieved (evidenceOf exchanges) := by
  have hsucceeds : killSimulatorApp.Succeeds crowdedEnvironment [] := by
    rw [Succeeds]
    decide +kernel
  obtain ⟨exchanges, rfl, hachieved⟩ :=
    achieved_of_succeeds crowdedEnvironment [] killSimulatorApp hsucceeds
  exact ⟨_, rfl, by decide +kernel, hachieved trivial⟩

end SimulatorOperation

end IOSDeviceManager
