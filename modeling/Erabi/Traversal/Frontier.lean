/-
# The units that recovery takes up

A job that goes on with a crawl reads the logical work of its run and queues the units
that are pending; a retry queues the ones it selected.  Between the discovery delta of
a page and its execution the unit is running, and then it is neither pending nor open
to a selection.
-/
import Mathlib
import Erabi.Traversal.Control
import Erabi.Traversal.Recovery

namespace Erabi.Traversal

open Relational Transaction Queue Transition

/-! ## The recovery state -/

/-- One entry of the queue of a traversal, as the store has it. -/
structure SemanticTraversalQueueEntry where
  requestedUrl : String
  canonicalUrl : String
  depth : ℕ
  seedIds : List String
  targetPageTypeId : Option String
  transitionId : Option String
  parentCanonicalUrl : Option String
  pagination : Bool
  discoveredUrlId : Option String
  order : ℕ
  deriving DecidableEq, Repr

/-- The logical work of a run in the order of recovery; `none` without a control row
and when a row does not pass its validation. -/
def reconstructRecoveryState (s : TraversalStore) (runId : CrawlRunId) :
    Option (List CrawlUrlStateRow) :=
  let work := (s.urlStates.rows.filter fun row => row.crawlRunId = runId).insertionSort
    fun a b => recoveryKey a ≤ recoveryKey b
  if (s.controls.find? runId).isSome ∧ ∀ row ∈ work, row.validateState = true then some work
  else none

/-- The entry of a unit, which has a place in the queue. -/
def queueEntry (s : TraversalStore) (work : List CrawlUrlStateRow) (unit : CrawlUrlStateRow) :
    Option SemanticTraversalQueueEntry := do
  let depth ← unit.depth
  let order ← unit.admissionSequence
  return {
    requestedUrl := unit.requestedUrl
    canonicalUrl := unit.canonicalUrl
    depth
    seedIds := readSeedProvenance s unit.id
    targetPageTypeId := unit.targetPageTypeId
    transitionId := unit.transitionId
    parentCanonicalUrl := (unit.parentUrlStateId.bind fun parent =>
      work.find? fun candidate => candidate.id = parent).map CrawlUrlStateRow.canonicalUrl
    pagination := unit.pagination
    discoveredUrlId := unit.firstDiscoveredUrlId
    order }

/-- A pending unit, of the selected ones if there is a selection. -/
def awaits (selectedStateIds : Option (List UrlStateId)) (unit : CrawlUrlStateRow) : Bool :=
  unit.currentWorkState = some .pending && selectedStateIds.all (·.contains unit.id)

/-- A selected unit that has not been completed. -/
def reopens (selectedStateIds : List UrlStateId) (unit : CrawlUrlStateRow) : Bool :=
  selectedStateIds.contains unit.id && unit.currentWorkState ≠ some .completed

/-- The entries of the units of a run that `picks`. -/
def reconstructEntries (s : TraversalStore) (runId : CrawlRunId) (picks : CrawlUrlStateRow → Bool) :
    Option (List SemanticTraversalQueueEntry) := do
  let work ← reconstructRecoveryState s runId
  (work.filter picks).mapM (queueEntry s work)

/-- The frontier of the checkpoint a recovering job restores its traversal from. -/
def reconstructPending (s : TraversalStore) (runId : CrawlRunId)
    (selectedStateIds : Option (List UrlStateId)) : Option (List SemanticTraversalQueueEntry) :=
  reconstructEntries s runId (awaits selectedStateIds)

/-- The entries that replace the frontier in the job of a retry. -/
def reconstructRecoveryEntries (s : TraversalStore) (runId : CrawlRunId)
    (selectedStateIds : List UrlStateId) : Option (List SemanticTraversalQueueEntry) :=
  reconstructEntries s runId (reopens selectedStateIds)

/-- The unit has an entry. -/
def Queued (entries : Option (List SemanticTraversalQueueEntry)) (unit : CrawlUrlStateRow) : Prop :=
  ∃ queue ∈ entries, ∃ entry ∈ queue, entry.canonicalUrl = unit.canonicalUrl

/-! ## Entries of a run -/

section Entries

variable {s : TraversalStore} {runId : CrawlRunId} {picks : CrawlUrlStateRow → Bool}
  {work : List CrawlUrlStateRow} {unit : CrawlUrlStateRow} {α β : Type}

/-- A traversal of a list in `Option` succeeds when every element does. -/
theorem mapM_eq_some {f : α → Option β} {l : List α} (h : ∀ a ∈ l, (f a).isSome) :
    l.mapM f = some (l.filterMap f) := by
  induction l with
  | nil => rfl
  | cons a rest ih =>
    obtain ⟨b, hb⟩ := Option.isSome_iff_exists.mp (h a List.mem_cons_self)
    have hrest := ih fun x hx => h x (List.mem_cons_of_mem a hx)
    rw [List.mapM_cons, hb, hrest, List.filterMap_cons_some hb]
    rfl

/-- Each element of a list that is mapped has an image. -/
theorem isSome_of_mapM {f : α → Option β} {l : List α} {bs : List β} (h : l.mapM f = some bs) :
    ∀ a ∈ l, (f a).isSome := by
  induction l generalizing bs with
  | nil =>
    intro a ha
    cases ha
  | cons first rest ih =>
    rw [List.mapM_cons] at h
    obtain ⟨b, hb, hbs⟩ := Option.bind_eq_some_iff.mp h
    obtain ⟨bs', hbs', _⟩ := Option.bind_eq_some_iff.mp hbs
    intro a ha
    rcases List.mem_cons.mp ha with rfl | hmem
    · rw [hb]
      rfl
    · exact ih hbs' a hmem

/-- An entry keeps the canonical URL of its unit. -/
theorem queueEntry_canonicalUrl {entry : SemanticTraversalQueueEntry}
    (h : queueEntry s work unit = some entry) : entry.canonicalUrl = unit.canonicalUrl := by
  unfold queueEntry at h
  obtain ⟨depth, _, hrest⟩ := Option.bind_eq_some_iff.mp h
  obtain ⟨order, _, hentry⟩ := Option.bind_eq_some_iff.mp hrest
  cases hentry
  rfl

/-- Only admitted units have a place in the queue. -/
theorem queueEntry_isSome (hunit : unit ∈ s.urlStates.rows) :
    (queueEntry s work unit).isSome ↔ unit.admissionState = .admitted := by
  have hshape := shape_of_mem hunit
  unfold queueEntry
  rcases hstate : unit.admissionState with _ | _ | _
  · simp only [CrawlUrlStateRow.shape, hstate, Bool.and_eq_true] at hshape
    obtain ⟨⟨⟨_, horder⟩, hdepth⟩, _⟩ := hshape
    obtain ⟨depth, hd⟩ := Option.isSome_iff_exists.mp hdepth
    obtain ⟨order, ho⟩ := Option.isSome_iff_exists.mp horder
    rw [hd, ho]
    simp
  all_goals
    have hdepth : unit.depth = none := by
      simp only [CrawlUrlStateRow.shape, hstate, Bool.and_eq_true, Option.isNone_iff_eq_none]
        at hshape
      simp_all
    rw [hdepth]
    simp

/-- The logical work of a run with a control row is read as it is stored. -/
theorem reconstructRecoveryState_eq_some (hs : Resolvable s)
    (hcontrol : (s.controls.find? runId).isSome) :
    ∃ work, reconstructRecoveryState s runId = some work ∧
      ∀ row, row ∈ work ↔ row ∈ s.urlStates.rows ∧ row.crawlRunId = runId := by
  have hmem : ∀ row, row ∈ (s.urlStates.rows.filter fun row => row.crawlRunId = runId).insertionSort
      (fun a b => recoveryKey a ≤ recoveryKey b) ↔
        row ∈ s.urlStates.rows ∧ row.crawlRunId = runId := by
    intro row
    rw [List.mem_insertionSort, List.mem_filter, decide_eq_true_eq]
  refine ⟨_, if_pos ⟨hcontrol, fun row hrow => ?_⟩, hmem⟩
  have hunit := ((hmem row).mp hrow).1
  exact validateState_of_identified hunit (hs.identified row hunit)

/-- A unit has an entry exactly if it is picked together with admitted units only. -/
theorem queued_iff (hs : Resolvable s) (hcontrol : (s.controls.find? unit.crawlRunId).isSome)
    (hunit : unit ∈ s.urlStates.rows) :
    Queued (reconstructEntries s unit.crawlRunId picks) unit ↔ picks unit = true ∧
      ∀ row ∈ s.urlStates.rows, row.crawlRunId = unit.crawlRunId → picks row = true →
        row.admissionState = .admitted := by
  obtain ⟨work, hwork, hmem⟩ := reconstructRecoveryState_eq_some hs hcontrol
  have hentries : reconstructEntries s unit.crawlRunId picks =
      (work.filter picks).mapM (queueEntry s work) := by
    unfold reconstructEntries
    rw [hwork]
    rfl
  rw [hentries]
  constructor
  · rintro ⟨queue, hqueue, entry, hentry, hurl⟩
    have hsome := isSome_of_mapM hqueue
    rw [Option.mem_def, mapM_eq_some hsome] at hqueue
    cases hqueue
    refine ⟨?_, fun row hrow hrun hpicks => ?_⟩
    · obtain ⟨row, hrow, hbuilt⟩ := List.mem_filterMap.mp hentry
      obtain ⟨hin, hpicks⟩ := List.mem_filter.mp hrow
      obtain ⟨hrowMem, hrun⟩ := (hmem row).mp hin
      -- the entry carries the unit's URL, which no other unit of the run has
      have hsame : row = unit := eq_of_distinct hrowMem hunit hrun fun hdistinct =>
        hdistinct.1 ((queueEntry_canonicalUrl hbuilt).symm.trans hurl)
      rw [← hsame]
      exact hpicks
    -- one unit that cannot be queued makes the whole reconstruction fail
    · have hin : row ∈ work.filter picks :=
        List.mem_filter.mpr ⟨(hmem row).mpr ⟨hrow, hrun⟩, hpicks⟩
      exact (queueEntry_isSome hrow).mp (hsome row hin)
  · rintro ⟨hpicks, hadmitted⟩
    have hsome : ∀ row ∈ work.filter picks, (queueEntry s work row).isSome := by
      intro row hrow
      obtain ⟨hin, hp⟩ := List.mem_filter.mp hrow
      obtain ⟨hrowMem, hrun⟩ := (hmem row).mp hin
      exact (queueEntry_isSome hrowMem).mpr (hadmitted row hrowMem hrun hp)
    have hin : unit ∈ work.filter picks :=
      List.mem_filter.mpr ⟨(hmem unit).mpr ⟨hunit, rfl⟩, hpicks⟩
    obtain ⟨entry, hentry⟩ := Option.isSome_iff_exists.mp (hsome unit hin)
    exact ⟨_, mapM_eq_some hsome, entry, List.mem_filterMap.mpr ⟨unit, hin, hentry⟩,
      queueEntry_canonicalUrl hentry⟩

/-- The frontier without a selection holds the pending units. -/
theorem pending_iff (hs : Resolvable s) (hcontrol : (s.controls.find? unit.crawlRunId).isSome)
    (hunit : unit ∈ s.urlStates.rows) :
    Queued (reconstructPending s unit.crawlRunId none) unit ↔
      unit.currentWorkState = some .pending := by
  have hawaits : ∀ row, awaits none row = true ↔ row.currentWorkState = some .pending := by
    intro row
    simp [awaits]
  rw [reconstructPending, queued_iff hs hcontrol hunit, hawaits, and_iff_left]
  intro row hrow _ hpending
  refine admitted_of_work hrow ?_
  rw [(hawaits row).mp hpending]
  rfl

/-- A selected unit is reconstructed unless it is completed, while all selected ones are
admitted. -/
theorem recoveryEntries_iff {stateIds : List UrlStateId} (hs : Resolvable s)
    (hcontrol : (s.controls.find? unit.crawlRunId).isSome) (hunit : unit ∈ s.urlStates.rows) :
    Queued (reconstructRecoveryEntries s unit.crawlRunId stateIds) unit ↔
      (unit.id ∈ stateIds ∧ unit.currentWorkState ≠ some .completed) ∧
        ∀ row ∈ s.urlStates.rows, row.crawlRunId = unit.crawlRunId →
          row.id ∈ stateIds → row.admissionState = .admitted := by
  have hreopens : ∀ row, reopens stateIds row = true ↔
      row.id ∈ stateIds ∧ row.currentWorkState ≠ some .completed := by
    intro row
    simp [reopens]
  rw [reconstructRecoveryEntries, queued_iff hs hcontrol hunit, hreopens]
  refine and_congr_right fun _ => ⟨fun h row hrow hrun hid => ?_, fun h row hrow hrun hpicks => ?_⟩
  · by_cases hcompleted : row.currentWorkState = some .completed
    · refine admitted_of_work hrow ?_
      rw [hcompleted]
      rfl
    · exact h row hrow hrun ((hreopens row).mpr ⟨hid, hcompleted⟩)
  · exact h row hrow hrun ((hreopens row).mp hpicks).1

end Entries

/-! ## Taken up -/

/-- The job of a retry may be executed again, with the selection it recorded. -/
structure Reattempts (s : TraversalStore) (runId : CrawlRunId) (actionJobId : JobId)
    (stateIds : List UrlStateId) : Prop where
  action : ∃ action ∈ s.recoveryActions.rows, action.actionJobId = actionJobId ∧
    action.crawlRunId = runId ∧ action.actionKind ≠ .restartFromBeginning
  job : ∃ job ∈ s.queue.jobs.find? actionJobId, job.state.active = true
  selection : readRecoveryActionItems actionJobId runId s = .ok (stateIds, s)

/-- Some job executes the unit again: one that goes on with the whole frontier of the
run, the next attempt of a retry, or a new retry. -/
inductive TakenUp (s : TraversalStore) (unit : CrawlUrlStateRow) : Prop
  | resumed (hqueued : Queued (reconstructPending s unit.crawlRunId none) unit)
  | reattempted {actionJobId : JobId} {stateIds : List UrlStateId}
      (hreattempts : Reattempts s unit.crawlRunId actionJobId stateIds)
      (hqueued : Queued (reconstructRecoveryEntries s unit.crawlRunId stateIds) unit)
  | retried (hcandidate : unit ∈ candidates s unit.crawlRunId .retry)

/-- A retry that is still to be executed again has selected the unit, and all units of
its selection are still admitted. -/
def Reselected (s : TraversalStore) (unit : CrawlUrlStateRow) : Prop :=
  ∃ actionJobId stateIds, Reattempts s unit.crawlRunId actionJobId stateIds ∧
    unit.id ∈ stateIds ∧ ∀ row ∈ s.urlStates.rows, row.crawlRunId = unit.crawlRunId →
      row.id ∈ stateIds → row.admissionState = .admitted

section Retries

variable {s s' : TraversalStore} {unit : CrawlUrlStateRow} {actionJobId sourceJobId : JobId}
  {now : ℤ} {stateIds : List UrlStateId}

/-- A new retry queues the units that it selects. -/
theorem queued_of_candidate (hs : Resolvable s') (hcontrolled : Controlled s')
    (hcandidate : unit ∈ candidates s unit.crawlRunId .retry)
    (h : firstPreparation actionJobId sourceJobId unit.crawlRunId .retry now s =
      .ok (stateIds, s')) :
    Queued (reconstructRecoveryEntries s' unit.crawlRunId stateIds) (advanced unit) := by
  obtain ⟨rows, hperm, rfl, hunits, _⟩ := firstPreparation_eq_ok h
  have hunit : advanced unit ∈ s'.urlStates.rows := by
    rw [hunits]
    exact List.mem_map.mpr ⟨unit, (mem_of_candidates hcandidate).1, if_pos hcandidate⟩
  have hrun : (advanced unit).crawlRunId = unit.crawlRunId := rfl
  rw [← hrun]
  refine (recoveryEntries_iff hs (hcontrolled _ hunit) hunit).mpr ⟨⟨?_, ?_⟩, ?_⟩
  · exact List.mem_map.mpr ⟨unit, hperm.mem_iff.mpr hcandidate, rfl⟩
  · intro hcompleted
    cases hcompleted
  · intro row hrow _ hid
    obtain ⟨picked, hpicked, heq⟩ := List.mem_map.mp hid
    have hadvanced : advanced picked ∈ s'.urlStates.rows := by
      rw [hunits]
      have hmem := hperm.mem_iff.mp hpicked
      exact List.mem_map.mpr ⟨picked, (mem_of_candidates hmem).1, if_pos hmem⟩
    have hsame : advanced picked = row := s'.urlStates.table.eq_of_key_eq hadvanced hrow heq
    rw [← hsame]
    exact admitted_of_work hadvanced rfl

/-- Units that are running are left to the retries that have selected them. -/
theorem takenUp_iff (hs : Resolvable s) (hcontrolled : Controlled s)
    (hunit : unit ∈ s.urlStates.rows) (hadmitted : unit.admissionState = .admitted)
    (hunfinished : unit.currentWorkState.any CrawlWorkState.finished = false) :
    TakenUp s unit ↔ unit.currentWorkState ≠ some .running ∨ Reselected s unit := by
  have hcontrol := hcontrolled unit hunit
  constructor
  · intro htaken
    cases htaken with
    | resumed hqueued =>
      left
      rw [(pending_iff hs hcontrol hunit).mp hqueued]
      decide
    | @reattempted actionJobId stateIds hreattempts hqueued =>
      right
      obtain ⟨⟨hid, _⟩, hall⟩ := (recoveryEntries_iff hs hcontrol hunit).mp hqueued
      exact ⟨actionJobId, stateIds, hreattempts, hid, hall⟩
    | retried hcandidate =>
      left
      unfold candidates at hcandidate
      split at hcandidate
      · cases hcandidate
      · intro hrunning
        have hselected := (List.mem_filter.mp hcandidate).2
        rw [selected, hrunning] at hselected
        simp [selects] at hselected
  · rintro (hidle | ⟨actionJobId, stateIds, hreattempts, hid, hall⟩)
    · refine .resumed ((pending_iff hs hcontrol hunit).mpr ?_)
      have hshape := shape_of_mem hunit
      simp only [CrawlUrlStateRow.shape, hadmitted, Bool.and_eq_true] at hshape
      obtain ⟨state, hstate⟩ := Option.isSome_iff_exists.mp hshape.2
      rw [hstate] at hunfinished hidle ⊢
      -- Work that has not ended is pending or running.
      cases state with
      | pending => rfl
      | running => exact absurd rfl hidle
      | completed => cases hunfinished
      | partialResult => cases hunfinished
      | failed => cases hunfinished
      | cancelled => cases hunfinished
    · refine .reattempted hreattempts
        ((recoveryEntries_iff hs hcontrol hunit).mpr ⟨⟨hid, fun hcompleted => ?_⟩, hall⟩)
      rw [hcompleted] at hunfinished
      cases hunfinished

end Retries

/-! ## Every crash point -/

/-- A store of any run keeps a control row for initialized runs. -/
theorem after_controlled (inputs : List Input) : Controlled (after step .empty inputs) :=
  after_invariant step_controlled (fun _ h => by cases h) inputs

/-- Wherever a run of new units is cut off, an admitted unit without an execution is
taken up again exactly if it is not running, or a retry that is still to be executed
again has selected it. -/
theorem crashed_takenUp_iff (inputs : List Input)
    (hfresh : Meets step (fun s input => input.fresh s) .empty inputs) :
    let s := after step .empty inputs
    ∀ unit ∈ s.urlStates.rows, unit.admissionState = .admitted → unit.currentExecutionId = none →
      (TakenUp s unit ↔ unit.currentWorkState ≠ some .running ∨ Reselected s unit) := by
  intro s unit hunit hadmitted hnone
  have hcoherent : Coherent s := (throughout_of_meets (I := fun _ => True) (fun _ _ _ => trivial)
    (fun s i _ hs hi => step_coherent s i hs hi) trivial Coherent.empty hfresh).atEnd
  have hresolvable : Resolvable s := after_invariant step_resolvable .empty inputs
  refine takenUp_iff hresolvable (after_controlled inputs) hunit hadmitted ?_
  have hfinished := (hcoherent unit hunit).finished
  rw [hnone] at hfinished
  exact hfinished.symm

/-- A unit of the sample run is taken up. -/
theorem crashed_takenUp_iff_sample : ∃ unit ∈ (after step .empty sampleRun).urlStates.rows,
    unit.id = "other" ∧ TakenUp (after step .empty sampleRun) unit := by
  have hfound : ∃ unit ∈ (after step .empty sampleRun).urlStates.rows, unit.id = "other" ∧
      unit.admissionState = .admitted ∧ unit.currentExecutionId = none ∧
        unit.currentWorkState ≠ some .running := by
    decide +kernel
  obtain ⟨unit, hunit, hid, hadmitted, hnone, hidle⟩ := hfound
  exact ⟨unit, hunit, hid, (crashed_takenUp_iff sampleRun (by decide +kernel) unit hunit hadmitted
    hnone).mpr (Or.inl hidle)⟩

/-- The discovery delta of the first seed is committed, then the worker is gone and its
job, which has no checkpoint, fails. -/
def crashedRoot : List Input :=
  sampleRun ++ [.operation sampleEnvironment lateDelta,
    .queue (.operation (.recoverStaleJobs 100))]

/-- The first seed is admitted, has no execution and is taken up by nobody. -/
theorem crashedRoot_lost : Meets step (fun s input => input.fresh s) .empty crashedRoot ∧
    ∃ unit ∈ (after step .empty crashedRoot).urlStates.rows, unit.id = "root" ∧
      unit.admissionState = .admitted ∧ unit.currentExecutionId = none ∧
        ¬ TakenUp (after step .empty crashedRoot) unit := by
  refine ⟨by decide +kernel, ?_⟩
  have hfound : ∃ unit ∈ (after step .empty crashedRoot).urlStates.rows, unit.id = "root" ∧
      unit.admissionState = .admitted ∧ unit.currentExecutionId = none ∧
        unit.currentWorkState = some .running := by
    decide +kernel
  have hactions : (after step .empty crashedRoot).recoveryActions.rows = [] := by
    decide +kernel
  obtain ⟨unit, hunit, hid, hadmitted, hnone, hrunning⟩ := hfound
  refine ⟨unit, hunit, hid, hadmitted, hnone, fun htaken => ?_⟩
  have hresolvable : Resolvable (after step .empty crashedRoot) :=
    after_invariant step_resolvable .empty crashedRoot
  have hiff := takenUp_iff hresolvable (after_controlled crashedRoot) hunit hadmitted (by
    rw [hrunning]
    rfl)
  rcases hiff.mp htaken with hidle | ⟨actionJobId, stateIds, hreattempts, _⟩
  · exact hidle hrunning
  · obtain ⟨action, haction, _⟩ := hreattempts.action
    rw [hactions] at haction
    cases haction

end Erabi.Traversal
