import IOSDeviceManager.General.LabelledRun
import IOSDeviceManager.General.SortedInsertion
import IOSDeviceManager.Resigning.EntitlementRank
import IOSDeviceManager.Resigning.MobileProfile
import Mathlib.Data.List.FinRange

/-! # `rankedProfiles:withIdentity:deviceUDID:appBundlePath:`

The profiles are enumerated concurrently. A worker of an accepted profile stores the rank and
searches for the insertion index in the list as it is then; the insertion happens later, under the
lock. The workers' steps interleave freely. The result is always a permutation of the accepted
profiles; it is sorted exactly when every insertion used an index that was still good. -/

namespace IOSDeviceManager

open General

namespace RankedProfiles

/-- The profiles, with the answers a worker gets about its profile: whether it is valid for the
device and the identity, and how it scores against the app. -/
structure Blocks where
  mobileProfiles : List MobileProfile
  isValid : MobileProfile → Bool
  score : MobileProfile → Int

/-- The blocks of a call of `rankedProfiles:withIdentity:deviceUDID:appBundlePath:` for an app with
the entitlements `appEntitlements`. -/
def blocks (mobileProfiles : List MobileProfile) (identity : CodesignIdentity)
    (deviceUDID : String) (appEntitlements : Entitlements) : Blocks where
  mobileProfiles := mobileProfiles
  isValid profile := profile.isValidForDeviceUDID deviceUDID identity
  score profile := profile.entitlements.rankByComparingProfileEntitlements appEntitlements

/-- Valid and not scored `ProfileDoesNotHaveRequiredKey`. -/
def Blocks.accepts (b : Blocks) (profile : MobileProfile) : Bool :=
  b.isValid profile && b.score profile != profileDoesNotHaveRequiredKey

/-- A worker: the position of its profile. -/
abbrev Blocks.Worker (b : Blocks) : Type :=
  Fin b.mobileProfiles.length

/-- The profile of a worker. -/
def Blocks.profile (b : Blocks) (w : b.Worker) : MobileProfile :=
  b.mobileProfiles.get w

/-- How far a worker has come. -/
inductive Phase where
  /-- The block has not run yet. -/
  | notStarted
  /-- The index is computed and the lock not yet taken. -/
  | searched (insertIndex : Nat)
  /-- The block has returned. -/
  | finished
  deriving DecidableEq, Repr

/-- The memory the workers share, and their phases. -/
structure State (b : Blocks) where
  /-- The `rank` property of each profile. -/
  rank : b.Worker → Int
  phase : b.Worker → Phase
  satisfyingProfiles : List b.Worker

/-- The atomic steps. -/
inductive Step (b : Blocks) where
  /-- The block of a rejected profile returns. -/
  | skip (w : b.Worker)
  /-- The block stores its rank, and its search ends at an index. -/
  | search (w : b.Worker) (insertIndex : Nat)
  /-- The block inserts its profile. -/
  | insert (w : b.Worker)
  deriving DecidableEq

variable {b : Blocks}

/-- No rank is stored, nothing inserted. -/
def initial (b : Blocks) : State b where
  rank _ := 0
  phase _ := .notStarted
  satisfyingProfiles := []

/-- What a binary search over the list may answer: an index of the list, and in a sorted list an
insertion index. -/
def IsSearchResult (rank : b.Worker → Int) (l : List b.Worker) (insertIndex : Nat)
    (w : b.Worker) : Prop :=
  insertIndex ≤ l.length ∧ (SortedBy rank l → IsInsertionIndex rank l insertIndex w)

instance (rank : b.Worker → Int) (l : List b.Worker) (insertIndex : Nat) (w : b.Worker) :
    Decidable (IsSearchResult rank l insertIndex w) :=
  inferInstanceAs (Decidable (_ ∧ _))

/-- One atomic step. -/
def step (s : State b) : Step b → Option (State b)
  | .skip w =>
      if s.phase w = .notStarted ∧ b.accepts (b.profile w) = false then
        some { s with phase := Function.update s.phase w .finished }
      else none
  | .search w insertIndex =>
      let rank := Function.update s.rank w (b.score (b.profile w))
      if s.phase w = .notStarted ∧ b.accepts (b.profile w) = true ∧
          IsSearchResult rank s.satisfyingProfiles insertIndex w then
        some { s with rank := rank
                      phase := Function.update s.phase w (.searched insertIndex) }
      else none
  | .insert w =>
      match s.phase w with
      | .searched insertIndex =>
          some { s with phase := Function.update s.phase w .finished
                        satisfyingProfiles := s.satisfyingProfiles.insertIdx insertIndex w }
      | _ => none

/-- Every block has returned. -/
def State.Finished (s : State b) : Prop :=
  ∀ w, s.phase w = .finished

/-- The returned array. -/
def State.result (s : State b) : List MobileProfile :=
  s.satisfyingProfiles.map b.profile

/-- A ranking of the accepted profiles: exactly these, by ascending score, so that the first has the
least score. -/
structure IsRanking (b : Blocks) (ranked : List MobileProfile) : Prop where
  perm : ranked.Perm (b.mobileProfiles.filter b.accepts)
  sorted : SortedBy b.score ranked
  head_le : ∀ profile ∈ ranked.head?, ∀ other ∈ b.mobileProfiles,
    b.accepts other = true → b.score profile ≤ b.score other

/-- The step is an insertion only if its index is still an insertion index of the list. -/
def Fresh (s : State b) : Step b → Prop
  | .insert w => ∀ insertIndex, s.phase w = .searched insertIndex →
      IsInsertionIndex s.rank s.satisfyingProfiles insertIndex w
  | _ => True

/-! ## The invariant -/

/-- What holds between the steps: the list holds the finished workers of accepted profiles, each
once; a started worker has stored its score; a computed index is one of the list. -/
structure Consistent (s : State b) : Prop where
  nodup : s.satisfyingProfiles.Nodup
  mem_iff : ∀ w, w ∈ s.satisfyingProfiles ↔
    s.phase w = .finished ∧ b.accepts (b.profile w) = true
  rank_eq : ∀ w, s.phase w ≠ .notStarted → b.accepts (b.profile w) = true →
    s.rank w = b.score (b.profile w)
  searched : ∀ w insertIndex, s.phase w = .searched insertIndex →
    b.accepts (b.profile w) = true ∧ insertIndex ≤ s.satisfyingProfiles.length

/-- What a step can do. -/
theorem step_cases {s t : State b} {a : Step b} (h : step s a = some t) :
    (∃ w, a = .skip w ∧ s.phase w = .notStarted ∧ b.accepts (b.profile w) = false ∧
      t = { s with phase := Function.update s.phase w .finished }) ∨
    (∃ w i, a = .search w i ∧ s.phase w = .notStarted ∧ b.accepts (b.profile w) = true ∧
      IsSearchResult t.rank s.satisfyingProfiles i w ∧
      t = { s with rank := Function.update s.rank w (b.score (b.profile w))
                   phase := Function.update s.phase w (.searched i) }) ∨
    (∃ w i, a = .insert w ∧ s.phase w = .searched i ∧
      t = { s with phase := Function.update s.phase w .finished
                   satisfyingProfiles := s.satisfyingProfiles.insertIdx i w }) := by
  cases a with
  | skip w =>
    simp only [step, Option.ite_none_right_eq_some, Option.some.injEq] at h
    obtain ⟨⟨hphase, hrej⟩, rfl⟩ := h
    exact .inl ⟨w, rfl, hphase, hrej, rfl⟩
  | search w i =>
    simp only [step, Option.ite_none_right_eq_some, Option.some.injEq] at h
    obtain ⟨⟨hphase, hacc, hsearch⟩, rfl⟩ := h
    exact .inr (.inl ⟨w, i, rfl, hphase, hacc, hsearch, rfl⟩)
  | insert w =>
    simp only [step] at h
    split at h
    · rename_i i hphase
      obtain rfl := Option.some.inj h
      exact .inr (.inr ⟨w, i, rfl, hphase, rfl⟩)
    · cases h

theorem consistent_initial (b : Blocks) : Consistent (initial b) where
  nodup := List.nodup_nil
  mem_iff := by simp [initial]
  rank_eq := by simp [initial]
  searched := by simp [initial]

/-- Every step keeps the invariant. -/
theorem consistent_step {s t : State b} {a : Step b} (hs : Consistent s)
    (h : step s a = some t) : Consistent t := by
  obtain ⟨w, rfl, hphase, hrej, rfl⟩ | ⟨w, i, rfl, hphase, hacc, hsearch, rfl⟩ |
    ⟨w, i, rfl, hphase, rfl⟩ := step_cases h
  · -- a rejected worker finishes: it is neither in the list nor accepted
    refine ⟨hs.nodup, fun v => ?_, fun v hv hv' => ?_, fun v j hv => ?_⟩
    · by_cases hvw : v = w
      · subst hvw
        simp [hs.mem_iff, hphase, hrej]
      · simp [hs.mem_iff, hvw]
    · by_cases hvw : v = w
      · simp [hvw, hrej] at hv'
      · exact hs.rank_eq v (by simpa [hvw] using hv) hv'
    · by_cases hvw : v = w
      · simp [hvw] at hv
      · exact hs.searched v j (by simpa [hvw] using hv)
  · -- a search stores the worker's score and leaves the list alone
    refine ⟨hs.nodup, fun v => ?_, fun v hv hv' => ?_, fun v j hv => ?_⟩
    · by_cases hvw : v = w
      · subst hvw
        simp [hs.mem_iff, hphase]
      · simp [hs.mem_iff, hvw]
    · by_cases hvw : v = w
      · simp [hvw]
      · simpa [hvw] using hs.rank_eq v (by simpa [hvw] using hv) hv'
    · by_cases hvw : v = w
      · subst hvw
        obtain rfl : i = j := by simpa using hv
        exact ⟨hacc, hsearch.1⟩
      · exact hs.searched v j (by simpa [hvw] using hv)
  · -- an insertion adds its worker, which was not listed before
    obtain ⟨hacc, hi⟩ := hs.searched w i hphase
    have hnotin : w ∉ s.satisfyingProfiles := by simp [hs.mem_iff, hphase]
    have hperm := List.perm_insertIdx w s.satisfyingProfiles hi
    refine ⟨hperm.nodup_iff.mpr (List.nodup_cons.mpr ⟨hnotin, hs.nodup⟩), fun v => ?_,
      fun v hv hv' => ?_, fun v j hv => ?_⟩
    · rw [hperm.mem_iff, List.mem_cons, hs.mem_iff]
      by_cases hvw : v = w
      · simp [hvw, hacc]
      · simp [hvw]
    · by_cases hvw : v = w
      · subst hvw
        exact hs.rank_eq v (by simp [hphase]) hv'
      · exact hs.rank_eq v (by simpa [hvw] using hv) hv'
    · by_cases hvw : v = w
      · simp [hvw] at hv
      · obtain ⟨hacc', hj⟩ := hs.searched v j (by simpa [hvw] using hv)
        exact ⟨hacc', hj.trans (by simp [List.length_insertIdx_of_le_length hi])⟩

/-- A step keeps the list sorted exactly when it is fresh, and no step sorts an unsorted list. -/
theorem sortedBy_step_iff {s t : State b} {a : Step b} (hs : Consistent s)
    (h : step s a = some t) :
    SortedBy t.rank t.satisfyingProfiles ↔ SortedBy s.rank s.satisfyingProfiles ∧ Fresh s a := by
  obtain ⟨w, rfl, -, -, rfl⟩ | ⟨w, i, rfl, hphase, -, -, rfl⟩ | ⟨w, i, rfl, hphase, rfl⟩ :=
    step_cases h
  · simp [Fresh]
  · -- the stored rank is that of a profile outside the list
    have hnotin : w ∉ s.satisfyingProfiles := by simp [hs.mem_iff, hphase]
    have hsame : ∀ v ∈ s.satisfyingProfiles,
        Function.update s.rank w (b.score (b.profile w)) v = s.rank v := fun v hv =>
      Function.update_of_ne (ne_of_mem_of_not_mem hv hnotin) _ _
    simpa [Fresh] using SortedBy.congr hsame
  · -- the stored ranks stay, so only the place of the insertion counts
    rw [sortedBy_insertIdx_iff s.rank (hs.searched w i hphase).2]
    simp [Fresh, hphase]

/-! ## Whole runs -/

section Run

variable {labels : List (Step b)} {s : State b}

/-- The invariant holds after every run. -/
theorem consistent_run (hrun : run step (initial b) labels = some s) : Consistent s :=
  run_invariant (fun _ _ _ => consistent_step) (consistent_initial b) hrun

/-- In every state reached the list is sorted exactly when every insertion so far was fresh. -/
theorem sortedBy_rank_iff_along (hrun : run step (initial b) labels = some s) :
    SortedBy s.rank s.satisfyingProfiles ↔ Along step Fresh (initial b) labels := by
  have hsorted : SortedBy (initial b).rank (initial b).satisfyingProfiles := sortedBy_nil _
  rw [run_iff_along (I := Consistent) (G := fun s => SortedBy s.rank s.satisfyingProfiles)
    (fun _ _ _ => consistent_step) (fun _ _ _ => sortedBy_step_iff) (consistent_initial b) hrun]
  simp [hsorted]

/-- The ranks of the listed profiles are their scores. -/
theorem sortedBy_score_result_iff (hs : Consistent s) :
    SortedBy b.score s.result ↔ SortedBy s.rank s.satisfyingProfiles := by
  have hscore : ∀ w ∈ s.satisfyingProfiles, b.score (b.profile w) = s.rank w := by
    intro w hw
    obtain ⟨hphase, hacc⟩ := (hs.mem_iff w).mp hw
    exact (hs.rank_eq w (by simp [hphase]) hacc).symm
  rw [← SortedBy.congr hscore]
  exact List.pairwise_map

/-- The profiles of all workers are the given ones. -/
theorem map_profile_finRange (b : Blocks) :
    (List.finRange b.mobileProfiles.length).map b.profile = b.mobileProfiles :=
  List.map_get_finRange b.mobileProfiles

/-- Once all blocks have returned, the result is a permutation of the accepted profiles. -/
theorem result_perm (hs : Consistent s) (hdone : s.Finished) :
    s.result.Perm (b.mobileProfiles.filter b.accepts) := by
  have hworkers : s.satisfyingProfiles.Perm
      ((List.finRange b.mobileProfiles.length).filter fun w => b.accepts (b.profile w)) := by
    refine (List.perm_ext_iff_of_nodup hs.nodup ((List.nodup_finRange _).filter _)).mpr fun w => ?_
    simp [hs.mem_iff, hdone w]
  have hfilter : b.mobileProfiles.filter b.accepts =
      ((List.finRange b.mobileProfiles.length).filter fun w => b.accepts (b.profile w)).map
        b.profile := by
    conv_lhs => rw [← map_profile_finRange b, List.filter_map]
    rfl
  rw [hfilter]
  exact hworkers.map b.profile

/-- A sorted permutation of the accepted profiles is a ranking. -/
theorem isRanking_iff_of_perm {ranked : List MobileProfile}
    (hperm : ranked.Perm (b.mobileProfiles.filter b.accepts)) :
    IsRanking b ranked ↔ SortedBy b.score ranked := by
  refine ⟨IsRanking.sorted, fun hsorted => ⟨hperm, hsorted, ?_⟩⟩
  intro profile hhead other hother hacc
  have hmem : other ∈ ranked := hperm.mem_iff.mpr (List.mem_filter.mpr ⟨hother, hacc⟩)
  cases ranked with
  | nil => simp at hhead
  | cons first rest =>
    obtain rfl : first = profile := by simpa using hhead
    exact hsorted.head_le other hmem

/-- **Ranked profiles.** For all profiles, all scores and every interleaving of the blocks, the
returned list is a permutation of exactly the accepted profiles; it is their ranking, sorted with
the least score first, exactly when every insertion of the run used an index that was still an
insertion index of the list. -/
theorem isRanking_result_iff_fresh (hrun : run step (initial b) labels = some s)
    (hdone : s.Finished) :
    s.result.Perm (b.mobileProfiles.filter b.accepts) ∧
      (IsRanking b s.result ↔ Along step Fresh (initial b) labels) := by
  have hs := consistent_run hrun
  have hperm := result_perm hs hdone
  exact ⟨hperm, by
    rw [isRanking_iff_of_perm hperm, sortedBy_score_result_iff hs, sortedBy_rank_iff_along hrun]⟩

end Run

/-! ### A stale index

Two workers search the empty list, and both insert at its front. -/

/-- A profile that matches an app exactly, and a wildcard profile, made for the same certificate. -/
def sampleProfiles : List MobileProfile :=
  [MobileProfile.development Entitlements.debugApp (by decide),
    MobileProfile.development Entitlements.wildcardProfile (by decide)]

/-- The blocks for the two profiles. -/
def sampleBlocks : Blocks :=
  blocks sampleProfiles ⟨"A0B1", "iPhone Developer: A"⟩ "e60ef9ae" Entitlements.debugApp

/-- The worker of the exact profile. -/
def exactWorker : sampleBlocks.Worker :=
  ⟨0, by decide⟩

/-- The worker of the wildcard profile. -/
def wildcardWorker : sampleBlocks.Worker :=
  ⟨1, by decide⟩

/-- The interleaving in which both searches come before the insertions. -/
def staleSteps : List (Step sampleBlocks) :=
  [.search exactWorker 0, .search wildcardWorker 0, .insert exactWorker, .insert wildcardWorker]

/-- The schedule in which the blocks run one after the other. -/
def serialSteps : List (Step sampleBlocks) :=
  [.search wildcardWorker 0, .insert wildcardWorker, .search exactWorker 0, .insert exactWorker]

/-- On the serial schedule the insertions are fresh, and the two profiles come back ranked. -/
theorem isRanking_result_serialSteps :
    Along step Fresh (initial sampleBlocks) serialSteps ∧
      ∃ s, run step (initial sampleBlocks) serialSteps = some s ∧
        IsRanking sampleBlocks s.result := by
  obtain ⟨s, hrun⟩ := Option.isSome_iff_exists.mp
    (show (run step (initial sampleBlocks) serialSteps).isSome by decide +kernel)
  have hfinal : ∀ t ∈ run step (initial sampleBlocks) serialSteps,
      (∀ w, t.phase w = .finished) ∧ SortedBy t.rank t.satisfyingProfiles := by decide +kernel
  obtain ⟨hdone, hsorted⟩ := hfinal s hrun
  have hfresh := (sortedBy_rank_iff_along hrun).mp hsorted
  exact ⟨hfresh, s, hrun, (isRanking_result_iff_fresh hrun hdone).2.mpr hfresh⟩

/-- **A ranking out of order.** With both searches before the insertions the wildcard profile, of
score `101`, comes back ahead of the exact profile, of score `2`. -/
theorem not_isRanking_result_staleSteps :
    ∃ s, run step (initial sampleBlocks) staleSteps = some s ∧ s.Finished ∧
      s.result.map sampleBlocks.score = [101, 2] ∧ ¬ IsRanking sampleBlocks s.result := by
  obtain ⟨s, hrun⟩ := Option.isSome_iff_exists.mp
    (show (run step (initial sampleBlocks) staleSteps).isSome by decide +kernel)
  have hfinal : ∀ t ∈ run step (initial sampleBlocks) staleSteps,
      (∀ w, t.phase w = .finished) ∧ t.result.map sampleBlocks.score = [101, 2] ∧
        ¬ SortedBy sampleBlocks.score t.result := by decide +kernel
  obtain ⟨hdone, hscores, hunsorted⟩ := hfinal s hrun
  exact ⟨s, hrun, hdone, hscores, fun h => hunsorted h.sorted⟩

/-! ## Blocks that run one at a time -/

/-- The steps of blocks that run one at a time, in the order of the workers: the block of a rejected
profile returns, the block of an accepted one inserts right after its search. -/
inductive Serial : List b.Worker → List (Step b) → Prop
  | nil : Serial [] []
  | skip (w : b.Worker) {order : List b.Worker} {labels : List (Step b)} :
      Serial order labels → Serial (w :: order) (.skip w :: labels)
  | insert (w : b.Worker) (insertIndex : Nat) {order : List b.Worker} {labels : List (Step b)} :
      Serial order labels → Serial (w :: order) (.search w insertIndex :: .insert w :: labels)

/-- Right after the search in a sorted list the insertion is fresh. -/
theorem fresh_insert_of_search {s t : State b} {w : b.Worker} {i : Nat} (hs : Consistent s)
    (hsorted : SortedBy s.rank s.satisfyingProfiles) (h : step s (.search w i) = some t) :
    Fresh t (.insert w) := by
  have hsorted' := (sortedBy_step_iff hs h).mpr ⟨hsorted, trivial⟩
  rcases step_cases h with ⟨_, hlabel, -⟩ | ⟨v, j, hlabel, -, -, hsearch, rfl⟩ | ⟨_, _, hlabel, -⟩
  · cases hlabel
  · obtain ⟨rfl, rfl⟩ : w = v ∧ i = j := by simpa using hlabel
    intro k hk
    obtain rfl : i = k := by simpa using hk
    exact hsearch.2 hsorted'
  · cases hlabel

/-- From a sorted list all insertions of blocks that run one at a time are fresh. -/
theorem Serial.along_fresh {order : List b.Worker} {labels : List (Step b)}
    (hserial : Serial order labels) {s : State b} (hs : Consistent s)
    (hsorted : SortedBy s.rank s.satisfyingProfiles) : Along step Fresh s labels := by
  induction hserial generalizing s with
  | nil => trivial
  | skip w _ ih =>
    refine ⟨trivial, fun t ht => ih (consistent_step hs ht) ?_⟩
    exact (sortedBy_step_iff hs ht).mpr ⟨hsorted, trivial⟩
  | insert w i _ ih =>
    refine ⟨trivial, fun t ht => ?_⟩
    have hcons := consistent_step hs ht
    have hfresh := fresh_insert_of_search hs hsorted ht
    refine ⟨hfresh, fun u hu => ih (consistent_step hcons hu) ?_⟩
    exact (sortedBy_step_iff hcons hu).mpr
      ⟨(sortedBy_step_iff hs ht).mpr ⟨hsorted, trivial⟩, hfresh⟩

/-- A finished worker stays finished. -/
theorem finished_step {s t : State b} {a : Step b} (h : step s a = some t) {v : b.Worker}
    (hv : s.phase v = .finished) : t.phase v = .finished := by
  obtain ⟨w, -, hphase, -, rfl⟩ | ⟨w, i, -, hphase, -, -, rfl⟩ | ⟨w, i, -, hphase, rfl⟩ :=
    step_cases h
  all_goals
    by_cases hvw : v = w
    · simp [← hvw, hv] at hphase
    · simpa [hvw] using hv

/-- The step that ends a block leaves its worker finished. -/
theorem finished_of_last {s t : State b} {w : b.Worker}
    (h : step s (.skip w) = some t ∨ step s (.insert w) = some t) : t.phase w = .finished := by
  rcases h with h | h <;>
  · obtain ⟨v, hlabel, -, -, rfl⟩ | ⟨_, _, hlabel, -⟩ | ⟨v, _, hlabel, -, rfl⟩ := step_cases h <;>
      cases hlabel
    simp

/-- After the run of some blocks all of them have returned. -/
theorem Serial.finished {order : List b.Worker} {labels : List (Step b)}
    (hserial : Serial order labels) {s t : State b} (hrun : run step s labels = some t) :
    ∀ w ∈ order, t.phase w = .finished := by
  have hkeep : ∀ {labels : List (Step b)} {s t : State b} {w : b.Worker},
      s.phase w = .finished → run step s labels = some t → t.phase w = .finished :=
    fun {labels s t w} => run_invariant (I := fun s => s.phase w = .finished)
      fun _ _ _ hw h => finished_step h hw
  induction hserial generalizing s with
  | nil => simp
  | skip w _ ih =>
    obtain ⟨u, hu, hrest⟩ := run_cons_eq_some_iff.mp hrun
    refine List.forall_mem_cons.mpr ⟨hkeep (finished_of_last (.inl hu)) hrest, ih hrest⟩
  | insert w i _ ih =>
    obtain ⟨u, -, hrest⟩ := run_cons_eq_some_iff.mp hrun
    obtain ⟨v, hv, hrest⟩ := run_cons_eq_some_iff.mp hrest
    refine List.forall_mem_cons.mpr ⟨hkeep (finished_of_last (.inr hv)) hrest, ih hrest⟩

/-- A binary search always has an answer. -/
theorem exists_isSearchResult (rank : b.Worker → Int) (l : List b.Worker) (w : b.Worker) :
    ∃ i, IsSearchResult rank l i w := by
  by_cases h : SortedBy rank l
  · obtain ⟨i, hi⟩ := h.exists_isInsertionIndex w
    exact ⟨i, hi.le_length, fun _ => hi⟩
  · exact ⟨0, Nat.zero_le _, fun h' => absurd h' h⟩

/-- Blocks that have not started can run one at a time in any order. -/
theorem exists_serial_run {order : List b.Worker} (hnd : order.Nodup) {s : State b}
    (hs : ∀ w ∈ order, s.phase w = .notStarted) :
    ∃ labels t, Serial order labels ∧ run step s labels = some t := by
  induction order generalizing s with
  | nil => exact ⟨[], s, .nil, rfl⟩
  | cons w order ih =>
    obtain ⟨hnotin, hnd⟩ := List.nodup_cons.mp hnd
    have hw := hs w List.mem_cons_self
    have hrest : ∀ v ∈ order, v ≠ w ∧ s.phase v = .notStarted := fun v hv =>
      ⟨ne_of_mem_of_not_mem hv hnotin, hs v (List.mem_cons_of_mem w hv)⟩
    cases hacc : b.accepts (b.profile w) with
    | false =>
      have hstep : step s (.skip w) =
          some { s with phase := Function.update s.phase w .finished } := by
        simp [step, hw, hacc]
      obtain ⟨labels, t, hserial, hrun⟩ := ih hnd
        (s := { s with phase := Function.update s.phase w .finished })
        fun v hv => by simp [(hrest v hv).1, (hrest v hv).2]
      exact ⟨_, t, hserial.skip w, run_cons_eq_some_iff.mpr ⟨_, hstep, hrun⟩⟩
    | true =>
      obtain ⟨i, hi⟩ := exists_isSearchResult
        (Function.update s.rank w (b.score (b.profile w))) s.satisfyingProfiles w
      -- `u` is the state after the search, `v` the one after the insertion that follows it.
      let u : State b := { s with
        rank := Function.update s.rank w (b.score (b.profile w))
        phase := Function.update s.phase w (.searched i) }
      let v : State b := { u with
        phase := Function.update u.phase w .finished
        satisfyingProfiles := u.satisfyingProfiles.insertIdx i w }
      have hsearch : step s (.search w i) = some u := by simp [step, hw, hacc, hi, u]
      have hinsert : step u (.insert w) = some v := by simp [step, u, v]
      obtain ⟨labels, t, hserial, hrun⟩ := ih hnd (s := v) fun x hx => by
        simp [u, v, (hrest x hx).1, (hrest x hx).2]
      exact ⟨_, t, hserial.insert w i, run_cons_eq_some_iff.mpr
        ⟨u, hsearch, run_cons_eq_some_iff.mpr ⟨v, hinsert, hrun⟩⟩⟩

/-- **Serial blocks rank.** Blocks that run one at a time, in any order of all workers, return a
ranking of the accepted profiles. -/
theorem Serial.isRanking_result {order : List b.Worker} {labels : List (Step b)}
    (hserial : Serial order labels)
    (horder : order.Perm (List.finRange b.mobileProfiles.length)) {s : State b}
    (hrun : run step (initial b) labels = some s) : IsRanking b s.result := by
  have hs := consistent_run hrun
  have hdone : s.Finished := fun w =>
    hserial.finished hrun w (horder.mem_iff.mpr (List.mem_finRange w))
  have hfresh := hserial.along_fresh (consistent_initial b) (sortedBy_nil (initial b).rank)
  rw [isRanking_iff_of_perm (result_perm hs hdone), sortedBy_score_result_iff hs,
    sortedBy_rank_iff_along hrun]
  exact hfresh

end RankedProfiles

end IOSDeviceManager
