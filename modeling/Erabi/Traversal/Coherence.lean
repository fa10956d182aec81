/-
# Current executions

A unit links an execution exactly when its work has ended, and the linked execution
was made for this unit at its present generation.  Operations that name an attempt
check its lease before they write; operations that name none move no generation and
unlink nothing from a unit that stays admitted.
-/
import Mathlib
import Erabi.Traversal.Resolution

namespace Erabi.Traversal

open Relational Transaction Queue Transition

/-! ## Coherent units -/

/-- The execution was made for the unit, at its generation, and ended as its work did. -/
def ends (row : CrawlUrlStateRow) (execution : CrawlExecutionRow) : Bool :=
  executionMatches row.crawlRunId row.id row.workGeneration execution &&
    row.currentWorkState.any (outcomeMatchesWorkState execution.outcome)

/-- The work of a unit has ended exactly when the unit links an execution, and the
linked execution is the one that ended it. -/
structure UnitCoherent (s : TraversalStore) (row : CrawlUrlStateRow) : Prop where
  finished : row.currentExecutionId.isSome = row.currentWorkState.any CrawlWorkState.finished
  linked : ∀ executionId ∈ row.currentExecutionId, ∃ execution ∈ s.executions.rows,
    execution.id = executionId ∧ ends row execution = true

/-- Every unit agrees with its executions. -/
def Coherent (s : TraversalStore) : Prop := ∀ row ∈ s.urlStates.rows, UnitCoherent s row

/-- A unit enters the queue before any execution of it. -/
def fresh (state : CrawlUrlStateRecord) : Prop :=
  state.admissionState = .admitted →
    state.currentWorkState = some .pending ∧ state.currentExecutionId = none

instance (state : CrawlUrlStateRecord) : Decidable (fresh state) :=
  inferInstanceAs (Decidable (state.admissionState = .admitted →
    state.currentWorkState = some .pending ∧ state.currentExecutionId = none))

variable {recorded : JobId → Prop} {s s' : TraversalStore} {row : CrawlUrlStateRow}

/-- A unit that names no execution and is not finished. -/
theorem UnitCoherent.unlinked (hwork : row.currentWorkState.any CrawlWorkState.finished = false)
    (hexecution : row.currentExecutionId = none) : UnitCoherent s row where
  finished := by rw [hwork, hexecution, Option.isSome_none]
  linked _ h := by
    rw [hexecution] at h
    cases h

/-- Executions are never removed, so a link stays good. -/
theorem UnitCoherent.of_executions (hrow : UnitCoherent s row)
    (h : ∀ execution ∈ s.executions.rows, execution ∈ s'.executions.rows) :
    UnitCoherent s' row where
  finished := hrow.finished
  linked executionId hid := by
    obtain ⟨execution, hexecution, hends⟩ := hrow.linked executionId hid
    exact ⟨execution, h execution hexecution, hends⟩

/-- A unit whose work is unchanged. -/
theorem UnitCoherent.of_sameWork {row' : CrawlUrlStateRow} (hrow : UnitCoherent s row)
    (hsame : SameWork row row') : UnitCoherent s row' := by
  constructor
  · rw [hsame.currentExecutionId, hsame.currentWorkState]
    exact hrow.finished
  · intro executionId hid
    rw [hsame.currentExecutionId] at hid
    obtain ⟨execution, hexecution, heq, hends⟩ := hrow.linked executionId hid
    refine ⟨execution, hexecution, heq, ?_⟩
    rw [ends, hsame.crawlRunId, hsame.id, hsame.workGeneration, hsame.currentWorkState]
    exact hends

/-- A unit that still has work links nothing. -/
theorem UnitCoherent.none_of_unfinished (hrow : UnitCoherent s row)
    (h : unfinished row = true) : row.currentExecutionId = none := by
  have hfinished : row.currentWorkState.any CrawlWorkState.finished = false := by
    simp only [unfinished, Bool.or_eq_true, decide_eq_true_eq] at h
    rcases h with hwork | hwork <;> rw [hwork] <;> rfl
  rw [← Option.isNone_iff_eq_none, ← Option.not_isSome, hrow.finished, hfinished]
  rfl

/-- Of the six revisions only the last links an execution. -/
theorem UnitCoherent.revises {row' : CrawlUrlStateRow} (hrow : UnitCoherent s row)
    (h : Revises s row row') : UnitCoherent s row' := by
  cases h with
  | annotates hsame _ => exact hrow.of_sameWork hsame
  | resolves => exact .unlinked rfl rfl
  | marks _ hunfinished => exact .unlinked rfl (hrow.none_of_unfinished hunfinished)
  | activates => exact .unlinked rfl rfl
  | advances => exact .unlinked rfl rfl
  | @finishes execution state _ hmem hmatches houtcome =>
    constructor
    · show true = state.finished
      revert houtcome
      cases execution.outcome <;> cases state <;> decide
    · intro executionId hid
      cases hid
      refine ⟨execution, hmem, rfl, ?_⟩
      show (executionMatches _ _ _ execution && outcomeMatchesWorkState _ state) = true
      rw [hmatches, houtcome]
      rfl

/-- A unit that is not admitted has neither work nor an execution. -/
theorem unlinked_of_not_admitted (hshape : row.shape = true)
    (h : row.admissionState ≠ .admitted) :
    row.currentWorkState = none ∧ row.currentExecutionId = none := by
  rcases hstate : row.admissionState with _ | _ | _
  · exact absurd hstate h
  all_goals
    simp only [CrawlUrlStateRow.shape, hstate, Bool.and_eq_true, Option.isNone_iff_eq_none]
      at hshape
  · exact ⟨hshape.1.1.1.2, hshape.1.1.2⟩
  · exact ⟨hshape.1.2, hshape.2⟩

/-- A fresh unit. -/
theorem UnitCoherent.inserted {state : CrawlUrlStateRecord} (hvalid : state.validateState = true)
    (hfresh : fresh state) : UnitCoherent s state.row := by
  rw [row_of_validateState hvalid]
  by_cases hadmitted : state.admissionState = .admitted
  · obtain ⟨hwork, hexecution⟩ := hfresh hadmitted
    exact .unlinked (by rw [hwork]; rfl) hexecution
  · have hshape : state.toCrawlUrlStateRow.shape = true := by
      simp only [CrawlUrlStateRow.validateState, Bool.and_eq_true] at hvalid
      exact hvalid.2
    obtain ⟨hwork, hexecution⟩ := unlinked_of_not_admitted hshape hadmitted
    exact .unlinked (by rw [hwork]; rfl) hexecution

/-! ## Coherent stores -/

theorem Coherent.empty : Coherent .empty := fun _ h => by cases h

/-- Writes that insert fresh units alone. -/
theorem Coherent.writes (hs : Coherent s) (h : Writes fresh recorded s s') : Coherent s' := by
  cases h with
  | elsewhere hstates hexecutions =>
    intro row hrow
    rw [hstates] at hrow
    refine (hs row hrow).of_executions fun execution hexecution => ?_
    rw [hexecutions]
    exact hexecution
  | inserts hfresh hvalid _ _ hinsert =>
    intro row hrow
    rcases (Table.mem_insert hinsert).mp hrow with hold | rfl
    · exact (hs row hold).of_executions fun _ hexecution => hexecution
    · exact .inserted hvalid hfresh
  | revises htable _ hrevises =>
    intro row' hrow'
    have hmem := hrow'
    rw [Constrained.rows, htable] at hmem
    obtain ⟨row, hrow, rfl⟩ := List.mem_map.mp hmem
    split
    · rename_i hp
      exact ((hs row hrow).revises (hrevises row hrow hp)).of_executions
        fun _ hexecution => hexecution
    · exact (hs row hrow).of_executions fun _ hexecution => hexecution
  | appends hinsert =>
    intro row hrow
    exact (hs row hrow).of_executions fun _ hexecution =>
      (Table.mem_insert hinsert).mpr (Or.inl hexecution)

/-- Every unit of an input is new to the queue, as every caller builds it. -/
def Input.fresh (_ : TraversalStore) (input : Input) : Prop :=
  ∀ state ∈ input.work, Traversal.fresh state

instance (s : TraversalStore) (input : Input) : Decidable (input.fresh s) :=
  inferInstanceAs (Decidable (∀ state ∈ input.work, Traversal.fresh state))

/-- A step that inserts fresh units alone keeps the store coherent. -/
theorem step_coherent (s : TraversalStore) (input : Input) (hs : Coherent s)
    (hfresh : input.fresh s) : Coherent (step s input) :=
  keeps_of_reflTransGen (fun _ _ hw ha => ha.writes hw) (step_performs s input hfresh) hs

/-! ## Undisturbed units -/

/-- A unit kept its generation and, unless it was resolved, its execution; its work
was at most marked as running. -/
structure Undisturbed (row row' : CrawlUrlStateRow) : Prop where
  workGeneration : row'.workGeneration = row.workGeneration
  currentWork : row'.admissionState ≠ .resolved → row.admissionState ≠ .resolved ∧
    row'.currentExecutionId = row.currentExecutionId ∧
    (row'.currentWorkState = row.currentWorkState ∨
      unfinished row = true ∧ row'.currentWorkState = some .running)

/-- Every unit is still there, undisturbed. -/
def Undisturbing (s s' : TraversalStore) : Prop :=
  ∀ id row, s.urlStates.find? id = some row →
    ∃ row', s'.urlStates.find? id = some row' ∧ Undisturbed row row'

theorem Undisturbed.refl (row : CrawlUrlStateRow) : Undisturbed row row where
  workGeneration := rfl
  currentWork h := ⟨h, rfl, Or.inl rfl⟩

theorem Undisturbed.trans {row₁ row₂ row₃ : CrawlUrlStateRow} (h₁ : Undisturbed row₁ row₂)
    (h₂ : Undisturbed row₂ row₃) : Undisturbed row₁ row₃ where
  workGeneration := h₂.workGeneration.trans h₁.workGeneration
  currentWork h := by
    obtain ⟨hresolved₂, hexecution₂, hwork₂⟩ := h₂.currentWork h
    obtain ⟨hresolved₁, hexecution₁, hwork₁⟩ := h₁.currentWork hresolved₂
    refine ⟨hresolved₁, hexecution₂.trans hexecution₁, ?_⟩
    rcases hwork₂ with hsame | ⟨hunfinished, hrunning⟩
    · rw [hsame]
      exact hwork₁
    · rcases hwork₁ with hsame | ⟨hbefore, _⟩
      · rw [unfinished, hsame] at hunfinished
        exact Or.inr ⟨hunfinished, hrunning⟩
      · exact Or.inr ⟨hbefore, hrunning⟩

theorem Undisturbing.of_urlStates (h : s'.urlStates = s.urlStates) : Undisturbing s s' := by
  intro id row hrow
  rw [← h] at hrow
  exact ⟨row, hrow, .refl row⟩

/-- Statements that disturb no unit, one after another. -/
theorem Undisturbing.of_reflTransGen (h : Relation.ReflTransGen Undisturbing s s') :
    Undisturbing s s' := by
  induction h with
  | refl => exact .of_urlStates rfl
  | tail _ hstep ih =>
    intro id row hrow
    obtain ⟨row₁, hrow₁, h₁⟩ := ih id row hrow
    obtain ⟨row₂, hrow₂, h₂⟩ := hstep id row₁ hrow₁
    exact ⟨row₂, hrow₂, h₁.trans h₂⟩

section Undisturbing

variable {env : Environment} {runId : CrawlRunId} {ε α : Type}

theorem undisturbing_of_beside {x : Transaction TraversalStore ε α} (hx : Performs Beside x) :
    Performs Undisturbing x := hx.mono fun _ _ h => .of_urlStates h.urlStates

theorem updateUrlStates_undisturbing {refused : ε} {p : CrawlUrlStateRow → Bool}
    {f : CrawlUrlStateRow → CrawlUrlStateRow} {hf : ∀ row, (f row).id = row.id}
    (h : ∀ row, p row = true → Undisturbed row (f row)) :
    Performs Undisturbing (updateUrlStates refused p f hf) := by
  refine .of_statement fun s n s' hupdate => ?_
  obtain ⟨_, urlStates, htable, rfl⟩ := updateUrlStates_eq_ok.mp hupdate
  intro id row hrow
  refine ⟨if p row then f row else row, ?_, ?_⟩
  · have hfind : s.urlStates.table.find? id = some row := hrow
    show urlStates.table.find? id = _
    rw [htable, Table.find?_update, hfind, Option.map_some]
  · split
    · rename_i hp
      exact h row hp
    · exact .refl row

theorem validateStateOwnership_undisturbing {state : CrawlUrlStateRecord} :
    Performs Undisturbing (validateStateOwnership env state runId) :=
  .of_reads fun _ _ _ h => (validateStateOwnership_eq_ok h).1

theorem insertState_undisturbing {state : CrawlUrlStateRecord} :
    Performs Undisturbing (insertState env state) := by
  refine .of_statement fun s u s' h => ?_
  have hinsert := insertState_inserts h
  intro id row hrow
  refine ⟨row, ?_, .refl row⟩
  have hfind : s.urlStates.table.find? id = some row := hrow
  show s'.urlStates.table.find? id = some row
  rw [Table.find?_insert hinsert, if_neg, hfind]
  rintro rfl
  rw [(Table.insert?_eq_some.mp hinsert).1] at hfind
  cases hfind

theorem mergedState_undisturbed (state : CrawlUrlStateRecord) (row : CrawlUrlStateRow) :
    Undisturbed row (mergedState state row) := by
  unfold mergedState
  split <;> exact ⟨rfl, fun h => ⟨h, rfl, Or.inl rfl⟩⟩

theorem upsertWork_undisturbing {work : List CrawlUrlStateRecord} :
    Performs Undisturbing (upsertWork env runId work) := by
  refine .foldEach (fun _ state => .bind validateStateOwnership_undisturbing fun _ =>
    .bind (.require _ _) fun _ => .bind validateStateOwnership_undisturbing fun _ =>
      .bind .read fun s => ?_) _ _
  split
  · exact insertState_undisturbing
  · exact .bind (.require _ _) fun _ => .bind (.require _ _) fun _ => .bind (.require _ _) fun _ =>
      .bind (.require _ _) fun _ => .bind (updateUrlStates_undisturbing fun row _ =>
        mergedState_undisturbed state row) fun _ =>
          undisturbing_of_beside insertSeedProvenance_beside

theorem insertRoots_undisturbing {roots : List CrawlUrlStateRecord} :
    Performs Undisturbing (insertRoots env runId roots) :=
  .foldEach (fun _ _ => .bind validateStateOwnership_undisturbing fun _ =>
    insertState_undisturbing) _ _

theorem reconcileRedirect_undisturbing {redirect : CrawlRedirectReconciliation} :
    Performs Undisturbing (reconcileRedirect env runId redirect) := by
  refine .bind (.require _ _) fun _ => .bind .read fun s => .bind (.orFail _ _) fun aliasState =>
    .bind (.require _ _) fun _ => .bind (.require _ _) fun _ => ?_
  split
  · exact .require _ _
  · exact .fail _
  · refine .bind (.bind .read fun s => ?_) fun _ => .bind (updateUrlStates_undisturbing
      fun row _ => ⟨rfl, fun h => absurd rfl h⟩) fun _ => .require _ _
    dsimp only
    split
    · exact .bind (.require _ _) fun _ => .bind (.require _ _) fun _ =>
        undisturbing_of_beside appendSeedProvenance_beside
    · exact insertState_undisturbing

theorem applySemanticProjection_undisturbing {projection : CrawlTraversalSemanticProjection} :
    Performs Undisturbing (applySemanticProjection env runId projection) := by
  unfold applySemanticProjection
  split
  · exact .pure _
  · refine .bind (.foldEach (fun _ value => ?_) _ _) fun _ => .bind .read fun _ =>
      .bind (.require _ _) fun _ => .bind (.write fun _ => .of_urlStates rfl) fun _ =>
        .bind (.foldEach (fun _ _ => ?_) _ _) fun _ => .pure _
    · exact .bind (.require _ _) fun _ => .bind (.require _ _) fun _ => .bind (.require _ _)
        fun _ => .bind (updateUrlStates_undisturbing fun row _ =>
          ⟨rfl, fun h => ⟨h, rfl, Or.inl rfl⟩⟩) fun _ => .bind (.require _ _) fun _ => .pure _
    · exact .bind (.require _ _) fun _ => .bind (.require _ _) fun _ => .bind (.require _ _)
        fun _ => .bind .read fun _ => .bind (.orFail _ _) fun _ =>
          .bind (.write fun _ => .of_urlStates rfl) fun _ => .pure _

theorem markInFlightUnit_undisturbing {stateIds : List UrlStateId} {work : CrawlInFlightWork} :
    Performs Undisturbing (markInFlightUnit runId stateIds work) := by
  refine .bind (.require _ _) fun _ => .bind .read fun _ => .bind (.orFail _ _) fun row =>
    .bind (.require _ _) fun _ => ?_
  split
  · exact .pure _
  · refine .bind (.require _ _) fun _ => .bind (updateUrlStates_undisturbing fun row hp => ?_)
      fun _ => .bind (.require _ _) fun _ => .pure _
    simp only [Bool.and_eq_true, decide_eq_true_eq] at hp
    exact ⟨rfl, fun h => ⟨h, rfl, Or.inr ⟨hp.2, rfl⟩⟩⟩

theorem requireRoots_undisturbing {roots : List CrawlUrlStateRecord} :
    Performs Undisturbing (requireRoots runId roots) :=
  .foldEach (fun _ _ => .bind .read fun _ => .bind (.orFail _ _) fun _ =>
    .bind (.require _ _) fun _ => .require _ _) _ _

theorem ensureRun_undisturbing : Performs Undisturbing (ensureRun runId) :=
  .bind .read fun _ => .require _ _

/-- Every mark names the generation its unit has. -/
theorem markInFlightUnits_expected {inFlightWork : List CrawlInFlightWork}
    {stateIds stateIds' : List UrlStateId}
    (h : foldEach (markInFlightUnit runId) stateIds inFlightWork s = .ok (stateIds', s')) :
    ∀ work ∈ inFlightWork, ∀ expected ∈ work.expectedWorkGeneration, ∀ row,
      s.urlStates.find? work.stateId = some row → row.workGeneration = expected := by
  induction inFlightWork generalizing s stateIds with
  | nil =>
    intro work hwork
    cases hwork
  | cons first rest ih =>
    obtain ⟨stateIds₁, s₁, hfirst, hrest⟩ := bind_eq_ok.mp h
    intro work hwork expected hexpected row hrow
    rcases List.mem_cons.mp hwork with rfl | hlater
    · unfold markInFlightUnit at hfirst
      obtain ⟨_, hrest₁⟩ := require_bind_eq_ok.mp hfirst
      rw [read_bind] at hrest₁
      obtain ⟨found, hfound, hrest₂⟩ := orFail_bind_eq_ok.mp hrest₁
      obtain ⟨⟨_, hgeneration⟩, _⟩ := require_bind_eq_ok.mp hrest₂
      rw [(selectById_eq_some.mp hfound).1] at hrow
      cases hrow
      exact (hgeneration expected hexpected).symm
    · -- The rounds before this mark moved no generation.
      obtain ⟨row₁, hrow₁, hsame⟩ := Undisturbing.of_reflTransGen
        (markInFlightUnit_undisturbing s stateIds₁ s₁ hfirst) work.stateId row hrow
      rw [← hsame.workGeneration]
      exact ih hrest work hlater expected hexpected row₁ hrow₁

/-- A delta that returns has marked units at the generations it expected. -/
theorem applyDiscoveryDelta_expected {delta : DiscoveryDelta} {u : Unit}
    (h : applyDiscoveryDeltaWithProjection env runId delta s = .ok (u, s')) :
    ∀ work ∈ delta.inFlightWork, ∀ expected ∈ work.expectedWorkGeneration, ∀ row,
      s.urlStates.find? work.stateId = some row → row.workGeneration = expected := by
  unfold applyDiscoveryDeltaWithProjection markInFlightWork at h
  obtain ⟨_, hrest₁⟩ := require_bind_eq_ok.mp h
  obtain ⟨_, s₁, hrun, hrest₂⟩ := bind_eq_ok.mp hrest₁
  obtain ⟨_, s₂, hevidence, hrest₃⟩ := bind_eq_ok.mp hrest₂
  obtain ⟨_, s₃, hwork, hrest₄⟩ := bind_eq_ok.mp hrest₃
  obtain ⟨_, s₄, hredirects, hrest₅⟩ := bind_eq_ok.mp hrest₄
  obtain ⟨_, s₅, hprojection, hrest₆⟩ := bind_eq_ok.mp hrest₅
  obtain ⟨_, s₆, hmarks, _⟩ := bind_eq_ok.mp hrest₆
  obtain ⟨_, s₇, hmarked, _⟩ := bind_eq_ok.mp hmarks
  have hkept : Undisturbing s s₅ := by
    apply Undisturbing.of_reflTransGen
    refine (ensureRun_undisturbing _ _ _ hrun).trans ?_
    refine (undisturbing_of_beside recordEvidence_beside _ _ _ hevidence).trans ?_
    refine (upsertWork_undisturbing _ _ _ hwork).trans ?_
    refine Relation.ReflTransGen.trans ?_ (applySemanticProjection_undisturbing _ _ _ hprojection)
    exact Performs.foldEach (fun _ _ => reconcileRedirect_undisturbing) _ _ _ _ _ hredirects
  intro work hmem expected hexpected row hrow
  obtain ⟨row', hrow', hsame⟩ := hkept work.stateId row hrow
  rw [← hsame.workGeneration]
  exact markInFlightUnits_expected hmarked work hmem expected hexpected row' hrow'

theorem applyDiscoveryDelta_undisturbing {delta : DiscoveryDelta} :
    Performs Undisturbing (applyDiscoveryDeltaWithProjection env runId delta) :=
  .bind (.require _ _) fun _ => .bind ensureRun_undisturbing fun _ =>
    .bind (undisturbing_of_beside recordEvidence_beside) fun _ =>
      .bind upsertWork_undisturbing fun _ =>
        .bind (.foldEach (fun _ _ => reconcileRedirect_undisturbing) _ _) fun _ =>
          .bind applySemanticProjection_undisturbing fun _ =>
            .bind (.bind (.foldEach (fun _ _ => markInFlightUnit_undisturbing) _ _)
              fun _ => .pure _) fun _ =>
                .bind (undisturbing_of_beside updateControl_beside) fun _ =>
                  undisturbing_of_beside replaceTransitionCounts_beside

end Undisturbing

/-! ## Attempts and generations -/

/-- The attempt an operation is issued by, at the time it arrives. -/
structure Owner where
  crawlRunId : CrawlRunId
  jobId : JobId
  attemptId : AttemptId
  now : ℤ
  deriving DecidableEq, Repr

/-- The attempt still runs its job of the run, under an unexpired lease. -/
def Owner.active (s : TraversalStore) (owner : Owner) : Prop :=
  ∃ job ∈ s.queue.jobs.rows, ∃ attempt ∈ s.queue.attempts.rows, job.id = owner.jobId ∧
    attempt.id = owner.attemptId ∧ job.crawlRunId = some owner.crawlRunId ∧
    activeAttempt job attempt owner.now = true

instance (s : TraversalStore) (owner : Owner) : Decidable (owner.active s) :=
  inferInstanceAs (Decidable (∃ job ∈ s.queue.jobs.rows, ∃ attempt ∈ s.queue.attempts.rows,
    job.id = owner.jobId ∧ attempt.id = owner.attemptId ∧
      job.crawlRunId = some owner.crawlRunId ∧ activeAttempt job attempt owner.now = true))

/-- The attempt an operation names. -/
def Operation.owner : Operation → Option Owner
  | .prepareRecoveryAction actionJobId actionAttemptId runId _ now =>
    some ⟨runId, actionJobId, actionAttemptId, now⟩
  | .persistCurrentWork record _ jobId attemptId _ _ now =>
    some ⟨record.crawlRunId, jobId, attemptId, now⟩
  | .activateCurrentWork runId _ jobId attemptId _ now => some ⟨runId, jobId, attemptId, now⟩
  | .persistHistoricalWork record _ jobId attemptId _ now =>
    some ⟨record.crawlRunId, jobId, attemptId, now⟩
  | _ => none

/-- The generations at which an operation expects its units. -/
def Operation.expected : Operation → List (UrlStateId × ℕ)
  | .persistCurrentWork _ crawlUrlStateId _ _ _ expectedWorkGeneration _ =>
    [(crawlUrlStateId, expectedWorkGeneration)]
  | .activateCurrentWork _ crawlUrlStateId _ _ expectedWorkGeneration _ =>
    [(crawlUrlStateId, expectedWorkGeneration)]
  | .persistHistoricalWork _ crawlUrlStateId _ _ expectedWorkGeneration _ =>
    [(crawlUrlStateId, expectedWorkGeneration)]
  | .applyDiscoveryDeltaWithProjection _ delta => delta.inFlightWork.filterMap fun work =>
    work.expectedWorkGeneration.map fun expected => (work.stateId, expected)
  | _ => []

section Attempts

variable {env : Environment} {runId : CrawlRunId} {jobId : JobId} {attemptId : AttemptId}
  {stateId : UrlStateId} {record : CrawlExecutionRecord} {generation : ℕ} {now : ℤ} {u : Unit}

/-- An owner that passes the check is active. -/
theorem validateActiveAttemptOwner_active
    (h : validateActiveAttemptOwner runId jobId attemptId now s = .ok (u, s')) :
    Owner.active s ⟨runId, jobId, attemptId, now⟩ := by
  unfold validateActiveAttemptOwner at h
  rw [read_bind] at h
  obtain ⟨job, hjob, hrest₁⟩ := orFail_bind_eq_ok.mp h
  obtain ⟨attempt, hattempt, hrest₂⟩ := orFail_bind_eq_ok.mp hrest₁
  obtain ⟨⟨hrun, hactive, _⟩, _⟩ := require_eq_ok.mp hrest₂
  obtain ⟨hjobMem, hjobId⟩ := Table.find?_eq_some.mp hjob
  obtain ⟨hattemptMem, hattemptId⟩ := Table.find?_eq_some.mp hattempt
  exact ⟨job, hjobMem, attempt, hattemptMem, hjobId, hattemptId, hrun, hactive⟩

/-- A worker that passes the check is active and at the unit's generation. -/
theorem validateWorkOwner_active {workReady : CrawlUrlStateRow → Bool}
    (h : validateWorkOwner workReady record stateId jobId attemptId generation now s =
      .ok (u, s')) : Owner.active s ⟨record.crawlRunId, jobId, attemptId, now⟩ ∧
      ∀ row, s.urlStates.find? stateId = some row → row.workGeneration = generation := by
  unfold validateWorkOwner at h
  rw [read_bind] at h
  obtain ⟨found, hfound, hrest₁⟩ := orFail_bind_eq_ok.mp h
  obtain ⟨⟨_, _, _, hgeneration, _⟩, hrest₂⟩ := require_bind_eq_ok.mp hrest₁
  refine ⟨validateActiveAttemptOwner_active hrest₂, fun row hrow => ?_⟩
  rw [(selectById_eq_some.mp hfound).1] at hrow
  cases hrow
  exact hgeneration

/-- What an operation that returns has found: its attempt active, and the units at
the generations it expected. -/
structure Admits (s : TraversalStore) (owner : Option Owner)
    (expected : List (UrlStateId × ℕ)) : Prop where
  active : ∀ o ∈ owner, o.active s
  generations : ∀ unit ∈ expected, ∀ row, s.urlStates.find? unit.1 = some row →
    row.workGeneration = unit.2

/-- An active owner at the unit's generation is admitted. -/
theorem Admits.of_owner {owner : Owner} (hactive : owner.active s)
    (hgeneration : ∀ row, s.urlStates.find? stateId = some row →
      row.workGeneration = generation) : Admits s (some owner) [(stateId, generation)] where
  active o ho := by
    cases ho
    exact hactive
  generations unit hunit := by
    rw [List.mem_singleton.mp hunit]
    exact hgeneration

/-- Current work is persisted for an admitted owner. -/
theorem persistCurrentWork_admits {state : CrawlWorkState}
    (h : persistCurrentWork env record stateId jobId attemptId state generation now s =
      .ok (u, s')) :
    Admits s (some ⟨record.crawlRunId, jobId, attemptId, now⟩) [(stateId, generation)] := by
  unfold persistCurrentWork at h
  obtain ⟨_, s₁, hinput, hrest₁⟩ := bind_eq_ok.mp h
  obtain ⟨_, rfl⟩ := require_eq_ok.mp hinput
  obtain ⟨_, hrest₂⟩ := require_bind_eq_ok.mp hrest₁
  obtain ⟨_, s₂, howner, _⟩ := bind_eq_ok.mp hrest₂
  obtain ⟨hactive, hgeneration⟩ := validateWorkOwner_active howner
  exact .of_owner hactive hgeneration

/-- Historical work is persisted for an admitted owner. -/
theorem persistHistoricalWork_admits
    (h : persistHistoricalWork env record stateId jobId attemptId generation now s =
      .ok (u, s')) :
    Admits s (some ⟨record.crawlRunId, jobId, attemptId, now⟩) [(stateId, generation)] := by
  unfold persistHistoricalWork at h
  obtain ⟨_, s₁, hinput, hrest₁⟩ := bind_eq_ok.mp h
  obtain ⟨_, rfl⟩ := require_eq_ok.mp hinput
  obtain ⟨_, hrest₂⟩ := require_bind_eq_ok.mp hrest₁
  obtain ⟨_, s₂, howner, _⟩ := bind_eq_ok.mp hrest₂
  obtain ⟨hactive, hgeneration⟩ := validateWorkOwner_active howner
  exact .of_owner hactive hgeneration

/-- Work is activated for an admitted owner. -/
theorem activateCurrentWork_admits
    (h : activateCurrentWork runId stateId jobId attemptId generation now s = .ok (u, s')) :
    Admits s (some ⟨runId, jobId, attemptId, now⟩) [(stateId, generation)] := by
  unfold activateCurrentWork at h
  obtain ⟨_, hrest₁⟩ := require_bind_eq_ok.mp h
  obtain ⟨_, s₁, howner, hrest₂⟩ := bind_eq_ok.mp hrest₁
  obtain rfl := validateActiveAttemptOwner_reads howner
  refine .of_owner (validateActiveAttemptOwner_active howner) fun row hrow => ?_
  obtain ⟨_, hrest₃⟩ := require_bind_eq_ok.mp hrest₂
  obtain ⟨n, s₂, hupdate, hrest₄⟩ := bind_eq_ok.mp hrest₃
  obtain ⟨hchanged, _⟩ := require_eq_ok.mp hrest₄
  rw [(updateUrlStates_eq_ok.mp hupdate).1] at hchanged
  -- The one row that the statement selected is the unit.
  have hpositive : 0 < s₁.urlStates.table.changed _ := hchanged ▸ Nat.one_pos
  obtain ⟨other, hother, hp⟩ := List.countP_pos_iff.mp hpositive
  simp only [Bool.and_eq_true, decide_eq_true_eq] at hp
  obtain ⟨hrowMem, hrowId⟩ := Table.find?_eq_some.mp hrow
  rw [s₁.urlStates.table.eq_of_key_eq hrowMem hother (hrowId.trans hp.1.1.1.1.symm)]
  exact hp.1.2

/-- A preparation needs an active owner. -/
theorem prepareRecoveryAction_admits {kind : CrawlRecoveryActionKind}
    {selection : CrawlRecoveryActionSelection}
    (h : prepareRecoveryAction jobId attemptId runId kind now s = .ok (selection, s')) :
    Admits s (some ⟨runId, jobId, attemptId, now⟩) [] := by
  unfold prepareRecoveryAction at h
  obtain ⟨_, hrest₁⟩ := require_bind_eq_ok.mp h
  rw [read_bind] at hrest₁
  obtain ⟨job, hjob, hrest₂⟩ := orFail_bind_eq_ok.mp hrest₁
  obtain ⟨attempt, hattempt, hrest₃⟩ := orFail_bind_eq_ok.mp hrest₂
  obtain ⟨_, _, hrest₄⟩ := orFail_bind_eq_ok.mp hrest₃
  obtain ⟨⟨hrun, _, hactive⟩, _⟩ := require_bind_eq_ok.mp hrest₄
  obtain ⟨hjobMem, hjobId⟩ := Table.find?_eq_some.mp hjob
  obtain ⟨hattemptMem, hattemptId⟩ := Table.find?_eq_some.mp hattempt
  constructor
  · intro o ho
    cases ho
    exact ⟨job, hjobMem, attempt, hattemptMem, hjobId, hattemptId, hrun, hactive⟩
  · intro unit hunit
    cases hunit

theorem persist_undisturbing : Performs Undisturbing (persist env record) := by
  refine .bind (.require _ _) fun _ => .of_statement fun s u s' h => ?_
  obtain ⟨executions, _, _, rfl⟩ := persistInTransaction_eq_ok h
  exact .of_urlStates rfl

/-- A transaction was rolled back and changed nothing, or it has returned. -/
theorem commit_eq_or {ε α : Type} {x : Transaction TraversalStore ε α} {P : Prop}
    (h : ∀ a s', x s = .ok (a, s') → P) : (x.commit s).2 = s ∨ P := by
  rcases hx : x s with e | ⟨a, s'⟩
  · rw [commit_of_error hx]
    exact Or.inl rfl
  · exact Or.inr (h a s' hx)

/-- An operation changes nothing, or it has found what it names. -/
theorem apply_admits (env : Environment) (s : TraversalStore) (op : Operation) :
    apply env s op = s ∨ Admits s op.owner op.expected := by
  have hnone : Admits s none [] := by
    constructor
    · intro o ho
      cases ho
    · intro unit hunit
      cases hunit
  cases op with
  | prepareRecoveryAction actionJobId actionAttemptId runId kind now =>
    exact commit_eq_or fun _ _ h => prepareRecoveryAction_admits h
  | persistCurrentWork record stateId jobId attemptId state generation now =>
    exact commit_eq_or fun _ _ h => persistCurrentWork_admits h
  | activateCurrentWork runId stateId jobId attemptId generation now =>
    exact commit_eq_or fun _ _ h => activateCurrentWork_admits h
  | persistHistoricalWork record stateId jobId attemptId generation now =>
    exact commit_eq_or fun _ _ h => persistHistoricalWork_admits h
  | applyDiscoveryDeltaWithProjection runId delta =>
    refine commit_eq_or fun _ _ h => ⟨fun o ho => absurd ho (Option.not_mem_none o), ?_⟩
    intro unit hunit row hrow
    obtain ⟨work, hwork, hexpected⟩ := List.mem_filterMap.mp hunit
    obtain ⟨expected, hmem, rfl⟩ := Option.map_eq_some_iff.mp hexpected
    exact applyDiscoveryDelta_expected h work hwork expected hmem row hrow
  | initializeRunState runId roots control => exact Or.inr hnone
  | initializeRunStateWithCheckpoint runId roots control checkpoint => exact Or.inr hnone
  | initializeRunStateWithCheckpointAndEvidence runId roots evidence control projection checkpoint =>
    exact Or.inr hnone
  | applyDiscoveryDelta runId work control counts => exact Or.inr hnone
  | applyDiscoveryDeltaWithEvidence runId evidence work control counts => exact Or.inr hnone
  | replaceTransitionSourceCounts runId counts => exact Or.inr hnone
  | persist record => exact Or.inr hnone

/-- An operation that names no attempt disturbs no unit. -/
theorem apply_undisturbing (env : Environment) (s : TraversalStore) (op : Operation)
    (h : op.owner = none) : Undisturbing s (apply env s op) := by
  apply Undisturbing.of_reflTransGen
  -- no operation without an owner touches an execution or what points to one
  cases op with
  | initializeRunState runId roots control =>
    refine Performs.commit (x := initializeRunState env runId roots control) ?_ s
    refine .bind (.require _ _) fun _ => .bind ensureRun_undisturbing fun _ => .bind .read fun s => ?_
    split
    · exact .bind (.require _ _) fun _ => requireRoots_undisturbing
    · exact .bind (undisturbing_of_beside insertControl_beside) fun _ => insertRoots_undisturbing
  | initializeRunStateWithCheckpoint runId roots control checkpoint =>
    refine Performs.commit (x := initializeRunStateWithCheckpoint env runId roots control
      checkpoint) ?_ s
    exact .bind (.require _ _) fun _ => .bind ensureRun_undisturbing fun _ =>
      .bind (undisturbing_of_beside insertControl_beside) fun _ => .bind insertRoots_undisturbing
        fun _ => undisturbing_of_beside appendCheckpointInTransaction_beside
  | initializeRunStateWithCheckpointAndEvidence runId roots evidence control projection checkpoint =>
    refine Performs.commit (x := initializeRunStateWithCheckpointAndEvidence env runId roots
      evidence control projection checkpoint) ?_ s
    refine .bind (.require _ _) fun _ => .bind ensureRun_undisturbing fun _ => .bind .read fun s => ?_
    split
    · exact .bind (.require _ _) fun _ => .bind (undisturbing_of_beside recordEvidence_beside)
        fun _ => requireRoots_undisturbing
    · exact .bind (undisturbing_of_beside recordEvidence_beside) fun _ =>
        .bind (undisturbing_of_beside insertControl_beside) fun _ => .bind insertRoots_undisturbing
          fun _ => .bind applySemanticProjection_undisturbing fun _ =>
            undisturbing_of_beside appendCheckpointInTransaction_beside
  | applyDiscoveryDelta runId work control counts =>
    exact applyDiscoveryDelta_undisturbing.commit s
  | applyDiscoveryDeltaWithEvidence runId evidence work control counts =>
    exact applyDiscoveryDelta_undisturbing.commit s
  | applyDiscoveryDeltaWithProjection runId delta =>
    exact applyDiscoveryDelta_undisturbing.commit s
  | replaceTransitionSourceCounts runId counts =>
    refine Performs.commit (x := replaceTransitionSourceCounts env runId counts) ?_ s
    exact .bind ensureRun_undisturbing fun _ =>
      undisturbing_of_beside replaceTransitionCounts_beside
  | persist record => exact persist_undisturbing.commit s
  | prepareRecoveryAction actionJobId actionAttemptId runId kind now => cases h
  | persistCurrentWork record stateId jobId attemptId state generation now => cases h
  | activateCurrentWork runId stateId jobId attemptId generation now => cases h
  | persistHistoricalWork record stateId jobId attemptId generation now => cases h

end Attempts

/-! ## Every run -/

/-- In every state a run of new units leads to, an admitted unit links an execution
exactly when its work has ended, made for it at its generation and ending as its work
did.  An operation whose attempt has lost its lease, or that expects a unit at
another generation than it has, changes nothing; an operation that names no attempt
disturbs no unit. -/
theorem executions_coherent (inputs : List Input)
    (hfresh : Meets step (fun s input => input.fresh s) .empty inputs) :
    let s := after step .empty inputs
    (∀ row ∈ s.urlStates.rows, row.admissionState = .admitted →
      (row.currentExecutionId.isSome ↔ ∃ state ∈ row.currentWorkState, state.finished = true) ∧
        ∀ executionId ∈ row.currentExecutionId, ∃ execution ∈ s.executions.rows,
          execution.id = executionId ∧ execution.crawlRunId = row.crawlRunId ∧
            (∃ lineage ∈ execution.lineage, lineage.crawlUrlStateId = row.id ∧
              lineage.workGeneration = row.workGeneration) ∧
            ∃ state ∈ row.currentWorkState,
              outcomeMatchesWorkState execution.outcome state = true) ∧
      (∀ env op, ∀ owner ∈ op.owner, ¬ owner.active s → apply env s op = s) ∧
      (∀ env op, ∀ unit ∈ op.expected, ∀ row ∈ s.urlStates.rows, row.id = unit.1 →
        row.workGeneration ≠ unit.2 → apply env s op = s) ∧
      ∀ env op, op.owner = none → Undisturbing s (apply env s op) := by
  intro s
  have hs : Coherent s := (throughout_of_meets (I := fun _ => True) (fun _ _ _ => trivial)
    (fun s i _ hs hi => step_coherent s i hs hi) trivial Coherent.empty hfresh).atEnd
  refine ⟨fun row hrow _ => ⟨?_, fun executionId hid => ?_⟩, ?_, ?_, ?_⟩
  · rw [(hs row hrow).finished, Option.any_eq_true]
    rfl
  · obtain ⟨execution, hexecution, heq, hends⟩ := (hs row hrow).linked executionId hid
    rw [ends, executionMatches, Bool.and_eq_true, Bool.and_eq_true, decide_eq_true_eq] at hends
    obtain ⟨lineage, hlineage, hmatches⟩ := (Option.any_eq_true _ _).mp hends.1.2
    rw [Bool.and_eq_true, decide_eq_true_eq, decide_eq_true_eq] at hmatches
    exact ⟨execution, hexecution, heq, hends.1.1, ⟨lineage, hlineage, hmatches⟩,
      (Option.any_eq_true _ _).mp hends.2⟩
  · intro env op owner howner hlost
    exact (apply_admits env s op).resolve_right fun hadmits => hlost (hadmits.active owner howner)
  · intro env op unit hunit row hrow hid hgeneration
    refine (apply_admits env s op).resolve_right fun hadmits => hgeneration ?_
    refine hadmits.generations unit hunit row ?_
    rw [← hid]
    exact Table.find?_key hrow
  · exact fun env op h => apply_undisturbing env s op h

/-- The execution of the first seed by attempt 200. -/
def rootExecution : CrawlExecutionRecord where
  id := 7
  crawlRunId := 1
  requestedUrl := "https://e.test/"
  canonicalUrl := "https://e.test/"
  observedFinalUrl := none
  sourceId := none
  pageTypeId := none
  transitionId := none
  discoveredUrlId := none
  outcome := .completed
  errorCode := none
  httpStatus := some 200
  mediaType := none
  contentLengthBytes := none
  providerElapsedMs := none

/-- The first seed of the sample run is crawled. -/
def crawledRoot : List Input :=
  sampleRun ++ [.operation sampleEnvironment (.activateCurrentWork 1 "root" 10 200 0 1),
    .operation sampleEnvironment (.persistCurrentWork rootExecution "root" 10 200 .completed 0 2)]

/-- The sample crawl links the execution that ended its root. -/
theorem executions_coherent_crawled : ∃ row ∈ (after step .empty crawledRoot).urlStates.rows,
    row.id = "root" ∧ row.currentExecutionId = some 7 ∧
      ∃ state ∈ row.currentWorkState, state.finished = true := by
  have hfound : ∃ row ∈ (after step .empty crawledRoot).urlStates.rows, row.id = "root" ∧
      row.admissionState = .admitted ∧ row.currentExecutionId = some 7 := by
    decide +kernel
  obtain ⟨row, hrow, hid, hadmitted, hexecution⟩ := hfound
  refine ⟨row, hrow, hid, hexecution, ?_⟩
  refine ((executions_coherent crawledRoot (by decide +kernel)).1 row hrow hadmitted).1.mp ?_
  rw [hexecution]
  rfl

/-! ## A discovery delta of a lost attempt -/

/-- The lease of attempt 200 expires and its job, which has no checkpoint, fails. -/
def lostLease : List Input := sampleRun ++ [.queue (.operation (.recoverStaleJobs 100))]

/-- The delta attempt 200 commits after its provider call. -/
def lateDelta : Operation := .applyDiscoveryDeltaWithProjection 1
  { workDelta [] [] sampleControl [] with inFlightWork := [⟨"root", some 0⟩] }

/-- No attempt holds a lease any more, and still the delta marks the unit. -/
theorem lateDelta_marks : Owner.active (after step .empty sampleRun) ⟨1, 10, 200, 0⟩ ∧
    (∀ owner, ¬ Owner.active (after step .empty lostLease) owner) ∧
    ∃ row ∈ (after step .empty lostLease).urlStates.rows, row.id = "root" ∧
      row ∉ (apply sampleEnvironment (after step .empty lostLease) lateDelta).urlStates.rows := by
  refine ⟨by decide +kernel, fun owner howner => ?_, by decide +kernel⟩
  have hqueued : ∀ job ∈ (after step .empty lostLease).queue.jobs.rows, job.state ≠ .running := by
    decide +kernel
  obtain ⟨job, hjob, attempt, _, _, _, _, hactive⟩ := howner
  simp only [activeAttempt, Bool.and_eq_true, decide_eq_true_eq] at hactive
  exact hqueued job hjob hactive.1.1.1.1.2

end Erabi.Traversal
