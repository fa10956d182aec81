/-
# Recovery actions and their replays

The first preparation of an action advances every unit its kind selects by one
generation and records each advance.  A replay answers from the record: it writes
nothing, and returns the recorded selection as long as its units are still at the
generations they were advanced to.
-/
import Mathlib
import Erabi.Traversal.Coherence

namespace Erabi.Traversal

open Relational Transaction Queue Transition

variable {recorded : JobId → Prop} {s s' t t' : TraversalStore} {runId : CrawlRunId}
  {kind : CrawlRecoveryActionKind} {actionJobId sourceJobId : JobId} {attemptId : AttemptId}
  {now : ℤ} {stateIds stateIds' : List UrlStateId} {selection : CrawlRecoveryActionSelection}

/-! ## Advancing units -/

/-- A unit one generation later, with its work to be done again. -/
def advanced (row : CrawlUrlStateRow) : CrawlUrlStateRow :=
  { row with
    workGeneration := row.workGeneration + 1
    currentWorkState := some .pending
    currentExecutionId := none }

/-- The record of one advance. -/
def advanceItem (actionJobId : JobId) (runId : CrawlRunId) (row : CrawlUrlStateRow) :
    CrawlRecoveryActionItem :=
  ⟨actionJobId, runId, row.id, row.workGeneration, row.workGeneration + 1⟩

/-- The units of the list are advanced and recorded, and nothing else is written. -/
structure Advances (s s' : TraversalStore) (actionJobId : JobId) (runId : CrawlRunId)
    (rows : List CrawlUrlStateRow) : Prop where
  urlStates : s'.urlStates.rows =
    s.urlStates.rows.map fun row => if row ∈ rows then advanced row else row
  items : s'.recoveryActionItems.rows =
    s.recoveryActionItems.rows ++ rows.map (advanceItem actionJobId runId)
  actions : s'.recoveryActions = s.recoveryActions

/-- Preparing a unit advances it and names it. -/
theorem advanceUnit_advances {row : CrawlUrlStateRow} (hrow : row ∈ s.urlStates.rows)
    (h : advanceUnit actionJobId runId stateIds row s = .ok (stateIds', s')) :
    Advances s s' actionJobId runId [row] ∧ stateIds' = stateIds ++ [row.id] := by
  have hcheck : advanceUnit actionJobId runId stateIds row =
      (require (fitsI64 (row.workGeneration + 1)) .invalidState >>= _) := rfl
  obtain ⟨_, hrest₁⟩ := of_require_bind hcheck h
  obtain ⟨n, s₁, hupdate, hrest₂⟩ := bind_eq_ok.mp hrest₁
  obtain ⟨hn, urlStates, htable, rfl⟩ := updateUrlStates_eq_ok.mp hupdate
  obtain ⟨hchanged, hrest₃⟩ := require_bind_eq_ok.mp hrest₂
  rw [read_bind] at hrest₃
  obtain ⟨items, hinsert, hwrite⟩ := orFail_bind_eq_ok.mp hrest₃
  cases hwrite
  refine ⟨⟨?_, ?_, rfl⟩, rfl⟩
  · have hpositive : 0 < s.urlStates.table.changed _ := (hn.symm.trans hchanged) ▸ Nat.one_pos
    obtain ⟨other, hother, hp⟩ := List.countP_pos_iff.mp hpositive
    simp only [Bool.and_eq_true, decide_eq_true_eq] at hp
    obtain rfl := s.urlStates.table.eq_of_key_eq hother hrow hp.1.1.2
    show urlStates.table.rows = _
    rw [htable]
    refine List.map_congr_left fun r hr => ?_
    by_cases hsame : r = other
    · subst hsame
      have hselected : (decide (r.crawlRunId = runId) && decide (r.id = r.id) &&
          decide (r.admissionState = .admitted) &&
          decide (r.workGeneration = r.workGeneration)) = true := by
        simp only [Bool.and_eq_true, decide_eq_true_eq]
        exact ⟨⟨⟨hp.1.1.1, trivial⟩, hp.1.2⟩, trivial⟩
      rw [if_pos (List.mem_singleton.mpr rfl), if_pos hselected]
      rfl
    · rw [if_neg fun hmem => hsame (List.mem_singleton.mp hmem), if_neg]
      simp only [Bool.and_eq_true, decide_eq_true_eq]
      exact fun hr' => hsame (s.urlStates.table.eq_of_key_eq hr hrow hr'.1.1.2)
  · exact (Table.insert?_eq_some.mp hinsert).2

/-- Preparing units advances and names them in turn. -/
theorem foldEach_advances {rows : List CrawlUrlStateRow}
    (hrows : ∀ row ∈ rows, row ∈ s.urlStates.rows) (hnodup : rows.Nodup)
    (h : foldEach (advanceUnit actionJobId runId) stateIds rows s = .ok (stateIds', s')) :
    Advances s s' actionJobId runId rows ∧
      stateIds' = stateIds ++ rows.map fun row => row.id := by
  induction rows generalizing s stateIds with
  | nil =>
    cases h
    refine ⟨⟨?_, ?_, rfl⟩, ?_⟩
    · simp
    · simp
    · simp
  | cons first rest ih =>
    obtain ⟨hnotMem, hrestNodup⟩ := List.nodup_cons.mp hnodup
    rw [foldEach] at h
    obtain ⟨stateIds₁, s₁, hfirst, hrest⟩ := bind_eq_ok.mp h
    have hfirstMem := hrows first List.mem_cons_self
    obtain ⟨hadvances, rfl⟩ := advanceUnit_advances hfirstMem hfirst
    -- The units that are still to come have not been touched.
    have huntouched : ∀ row ∈ rest, row ∈ s₁.urlStates.rows := by
      intro row hrow
      rw [hadvances.urlStates]
      refine List.mem_map.mpr ⟨row, hrows row (List.mem_cons_of_mem first hrow), if_neg ?_⟩
      intro hmem
      rw [List.mem_singleton.mp hmem] at hrow
      exact hnotMem hrow
    obtain ⟨hlater, rfl⟩ := ih huntouched hrestNodup hrest
    refine ⟨⟨?_, ?_, hlater.actions.trans hadvances.actions⟩, ?_⟩
    · rw [hlater.urlStates, hadvances.urlStates, List.map_map]
      refine List.map_congr_left fun row hrow => ?_
      rw [Function.comp_apply]
      by_cases hsame : row = first
      · subst hsame
        rw [if_pos (List.mem_singleton.mpr rfl), if_pos List.mem_cons_self, if_neg]
        intro hmem
        have hold := hrows _ (List.mem_cons_of_mem row hmem)
        have heq : advanced row = row := s.urlStates.table.eq_of_key_eq hold hfirstMem rfl
        exact hnotMem (heq ▸ hmem)
      · rw [if_neg fun hmem => hsame (List.mem_singleton.mp hmem)]
        simp only [List.mem_cons, hsame, false_or]
    · rw [hlater.items, hadvances.items, List.append_assoc]
      rfl
    · rw [List.append_assoc]
      rfl

/-! ## First preparations -/

/-- The units a first preparation takes up. -/
def candidates (s : TraversalStore) (runId : CrawlRunId) (kind : CrawlRecoveryActionKind) :
    List CrawlUrlStateRow :=
  if (s.controls.find? runId).isNone then [] else s.urlStates.rows.filter (selected runId kind)

/-- The candidates of an action are units of its run. -/
theorem mem_of_candidates {row : CrawlUrlStateRow} (h : row ∈ candidates s runId kind) :
    row ∈ s.urlStates.rows ∧ row.crawlRunId = runId := by
  unfold candidates at h
  split at h
  · cases h
  · obtain ⟨hrow, hselected⟩ := List.mem_filter.mp h
    simp only [selected, Bool.and_eq_true, decide_eq_true_eq] at hselected
    exact ⟨hrow, hselected.1.1⟩

/-- No candidate is listed twice. -/
theorem candidates_nodup : (candidates s runId kind).Nodup := by
  unfold candidates
  split
  · exact List.nodup_nil
  · exact (List.Nodup.of_map _ s.urlStates.table.keysNodup).filter _

/-- A first preparation records its action and advances the candidates, in the order
of recovery. -/
theorem firstPreparation_eq_ok
    (h : firstPreparation actionJobId sourceJobId runId kind now s = .ok (stateIds, s')) :
    ∃ rows : List CrawlUrlStateRow, rows.Perm (candidates s runId kind) ∧
      stateIds = rows.map (fun row => row.id) ∧
      s'.urlStates.rows = s.urlStates.rows.map (fun row =>
        if row ∈ candidates s runId kind then advanced row else row) ∧
      s'.recoveryActionItems.rows =
        s.recoveryActionItems.rows ++ rows.map (advanceItem actionJobId runId) ∧
      s'.recoveryActions.find? actionJobId = some ⟨actionJobId, sourceJobId, runId, kind, now⟩ := by
  unfold firstPreparation at h
  rw [read_bind] at h
  obtain ⟨recoveryActions, hinsert, hrest⟩ := orFail_bind_eq_ok.mp h
  rw [write_bind] at hrest
  have haction := Table.find?_insert hinsert actionJobId
  rw [if_pos rfl] at haction
  split at hrest
  · rename_i hcontrol
    cases hrest
    have hnone : candidates s runId kind = [] := if_pos hcontrol
    refine ⟨[], ?_, rfl, ?_, ?_, haction⟩
    · rw [hnone]
    · simp [hnone]
    · simp
  · rename_i hcontrol
    have hsome : candidates s runId kind = s.urlStates.rows.filter (selected runId kind) :=
      if_neg hcontrol
    have hperm := List.perm_insertionSort
      (fun a b => recoveryKey a ≤ recoveryKey b) (candidates s runId kind)
    rw [← hsome] at hrest
    obtain ⟨hadvances, rfl⟩ := foldEach_advances (s := { s with recoveryActions })
      (fun row hrow => (mem_of_candidates (hperm.mem_iff.mp hrow)).1)
      (hperm.nodup_iff.mpr candidates_nodup) hrest
    refine ⟨_, hperm, rfl, ?_, hadvances.items, ?_⟩
    · rw [hadvances.urlStates]
      refine List.map_congr_left fun row _ => ?_
      simp only [hperm.mem_iff]
    · rw [hadvances.actions]
      exact haction

/-! ## Preparations -/

/-- The checks in front of a preparation: the attempt runs the job of the action,
which is a child of the source job, for the run. -/
structure MayPrepare (s : TraversalStore) (actionJobId : JobId) (attemptId : AttemptId)
    (runId : CrawlRunId) (kind : CrawlRecoveryActionKind) (now : ℤ) (sourceJobId : JobId) :
    Prop where
  clock : 0 ≤ now
  job : ∃ job attempt, s.queue.jobs.find? actionJobId = some job ∧
    s.queue.attempts.find? attemptId = some attempt ∧ job.parentJobId = some sourceJobId ∧
    job.crawlRunId = some runId ∧ job.kind = kind.jobKind ∧ activeAttempt job attempt now = true
  source : ∃ source, s.queue.jobs.find? sourceJobId = some source ∧ source.crawlRunId = some runId

/-- What a preparation demands and does. -/
theorem prepareRecoveryAction_eq_ok :
    prepareRecoveryAction actionJobId attemptId runId kind now s = .ok (selection, s') ↔
      ∃ sourceJobId, MayPrepare s actionJobId attemptId runId kind now sourceJobId ∧
        ∃ stateIds, selection = ⟨actionJobId, runId, kind, stateIds⟩ ∧
          ((∃ existing, s.recoveryActions.find? actionJobId = some existing ∧
              existing.sourceJobId = sourceJobId ∧ existing.crawlRunId = runId ∧
              existing.actionKind = kind ∧
              readRecoveryActionItems actionJobId runId s = .ok (stateIds, s')) ∨
            s.recoveryActions.find? actionJobId = none ∧
              firstPreparation actionJobId sourceJobId runId kind now s =
                .ok (stateIds, s')) := by
  unfold prepareRecoveryAction
  rw [require_bind_eq_ok, read_bind]
  simp only [orFail_bind_eq_ok, require_bind_eq_ok]
  constructor
  · rintro ⟨hnow, job, hjob, attempt, hattempt, source, hparent, ⟨hrun, hkind, hactive⟩, sourceJob,
      hsource, hsourceRun, h⟩
    refine ⟨source, ⟨hnow, ⟨job, attempt, hjob, hattempt, hparent, hrun, hkind, hactive⟩,
      ⟨sourceJob, hsource, hsourceRun⟩⟩, ?_⟩
    rcases hfind : s.recoveryActions.find? actionJobId with _ | existing
    · rw [hfind] at h
      obtain ⟨stateIds, s₁, hfirst, hreturn⟩ := bind_eq_ok.mp h
      cases hreturn
      exact ⟨stateIds, rfl, Or.inr ⟨rfl, hfirst⟩⟩
    · rw [hfind] at h
      obtain ⟨⟨hsame, hsameRun, hsameKind⟩, hread⟩ := require_bind_eq_ok.mp h
      obtain ⟨stateIds, s₁, hitems, hreturn⟩ := bind_eq_ok.mp hread
      cases hreturn
      exact ⟨stateIds, rfl, Or.inl ⟨existing, rfl, hsame, hsameRun, hsameKind, hitems⟩⟩
  · rintro ⟨sourceJobId, ⟨hnow, ⟨job, attempt, hjob, hattempt, hparent, hrun, hkind, hactive⟩,
      ⟨source, hsource, hsourceRun⟩⟩, stateIds, rfl, hprepared⟩
    refine ⟨hnow, job, hjob, attempt, hattempt, sourceJobId, hparent, ⟨hrun, hkind, hactive⟩,
      source, hsource, hsourceRun, ?_⟩
    rcases hprepared with ⟨existing, hfind, hsame, hsameRun, hsameKind, hitems⟩ | ⟨hfind, hfirst⟩
    · rw [hfind]
      exact require_bind_eq_ok.mpr ⟨⟨hsame, hsameRun, hsameKind⟩,
        bind_eq_ok.mpr ⟨stateIds, s', hitems, rfl⟩⟩
    · rw [hfind]
      exact bind_eq_ok.mpr ⟨stateIds, s', hfirst, rfl⟩

/-! ## Records -/

/-- What the store keeps of a prepared action: its row, its items and the units that
they name. -/
structure Recorded (s : TraversalStore) (action : CrawlRecoveryAction)
    (items : List CrawlRecoveryActionItem) : Prop where
  recordedAction : s.recoveryActions.find? action.actionJobId = some action
  recordedItems : itemsOf s action.actionJobId = items
  units : ∀ item ∈ items, item.crawlRunId = action.crawlRunId ∧
    ∃ row, selectById s item.crawlRunId item.crawlUrlStateId = some row

variable {action : CrawlRecoveryAction} {items : List CrawlRecoveryActionItem}

/-- A revision keeps the run. -/
theorem Revises.crawlRunId {row row' : CrawlUrlStateRow} (h : Revises s row row') :
    row'.crawlRunId = row.crawlRunId := by
  cases h with
  | annotates hsame => exact hsame.crawlRunId
  | resolves => rfl
  | marks => rfl
  | activates => rfl
  | advances => rfl
  | finishes => rfl

/-- A unit stays in its table, under its identity and its run. -/
theorem Writes.selectById {new : CrawlUrlStateRecord → Prop} (h : Writes new recorded s s')
    {id : UrlStateId} {row : CrawlUrlStateRow} (hrow : selectById s runId id = some row) :
    ∃ row', Traversal.selectById s' runId id = some row' := by
  obtain ⟨hfind, hrun⟩ := selectById_eq_some.mp hrow
  cases h with
  | elsewhere hstates =>
    refine ⟨row, selectById_eq_some.mpr ⟨?_, hrun⟩⟩
    rw [hstates]
    exact hfind
  | @inserts state urlStates _ _ _ _ hinsert =>
    refine ⟨row, selectById_eq_some.mpr ⟨?_, hrun⟩⟩
    have hold : s.urlStates.table.find? id = some row := hfind
    show urlStates.table.find? id = some row
    rw [Table.find?_insert hinsert, if_neg, hold]
    rintro rfl
    rw [(Table.insert?_eq_some.mp hinsert).1] at hold
    cases hold
  | @revises p f hf urlStates htable _ hrevises =>
    have hold : s.urlStates.table.find? id = some row := hfind
    refine ⟨if p row then f row else row, selectById_eq_some.mpr ⟨?_, ?_⟩⟩
    · show urlStates.table.find? id = _
      rw [htable, Table.find?_update, hold, Option.map_some]
    · split
      · rename_i hp
        exact (hrevises row (Table.mem_of_find? hold) hp).crawlRunId.trans hrun
      · exact hrun
  | appends => exact ⟨row, hrow⟩

/-- A statement of other actions leaves the record of this one alone. -/
theorem Writes.record {new : CrawlUrlStateRecord → Prop} (h : Writes new recorded s s')
    (hother : ¬ recorded actionJobId) :
    s'.recoveryActions.find? actionJobId = s.recoveryActions.find? actionJobId ∧
      itemsOf s' actionJobId = itemsOf s actionJobId := by
  cases h with
  | elsewhere _ _ hactions => exact hactions _ hother
  | inserts => exact ⟨rfl, rfl⟩
  | revises => exact ⟨rfl, rfl⟩
  | appends => exact ⟨rfl, rfl⟩

/-- The record of an action outlives everything but its own preparation. -/
theorem Recorded.writes {new : CrawlUrlStateRecord → Prop} (hs : Recorded s action items)
    (h : Writes new recorded s s') (hother : ¬ recorded action.actionJobId) :
    Recorded s' action items := by
  obtain ⟨haction, hitems⟩ := h.record hother
  refine ⟨haction.trans hs.recordedAction, hitems.trans hs.recordedItems, fun item hitem => ?_⟩
  obtain ⟨hrun, row, hrow⟩ := hs.units item hitem
  exact ⟨hrun, h.selectById hrow⟩

/-- A replay only reads. -/
theorem readRecoveryActionItems_reads
    (h : readRecoveryActionItems actionJobId runId s = .ok (stateIds, s')) : s' = s := by
  unfold readRecoveryActionItems at h
  rw [read_bind] at h
  obtain ⟨_, hrest⟩ := require_bind_eq_ok.mp h
  obtain ⟨_, hreturn⟩ := require_bind_eq_ok.mp hrest
  cases hreturn
  rfl

/-- A recorded action is read back without a change. -/
theorem Recorded.replay_reads (hs : Recorded s action items)
    (h : prepareRecoveryAction action.actionJobId attemptId runId kind now s =
      .ok (selection, s')) : s' = s := by
  obtain ⟨_, _, stateIds, _, hprepared⟩ := prepareRecoveryAction_eq_ok.mp h
  rcases hprepared with ⟨_, _, _, _, _, hitems⟩ | ⟨hnone, _⟩
  · exact readRecoveryActionItems_reads hitems
  · rw [hs.recordedAction] at hnone
    cases hnone

/-- A repeated preparation changes nothing, refused or not. -/
theorem Recorded.replay_unchanged (hs : Recorded s action items) :
    ((prepareRecoveryAction action.actionJobId attemptId runId kind now).commit s).2 = s := by
  rcases h : prepareRecoveryAction action.actionJobId attemptId runId kind now s with e | ⟨a, s'⟩
  · rw [commit_of_error h]
  · rw [commit_of_ok h]
    exact hs.replay_reads h

/-- A recorded action stays recorded. -/
theorem step_recorded (s : TraversalStore) (input : Input) (hs : Recorded s action items) :
    Recorded (step s input) action items := by
  by_cases hown : input.action = some action.actionJobId
  · -- The action is prepared again.
    rcases input with input | ⟨env, op⟩
    · cases hown
    · cases op <;> cases hown
      show Recorded ((prepareRecoveryAction _ _ _ _ _).commit s).2 action items
      rw [hs.replay_unchanged]
      exact hs
  · have hwrites : Relation.ReflTransGen (Writes (fun _ => True) fun a => input.action = some a) s
        (step s input) := step_performs s input fun _ _ => trivial
    exact keeps_of_reflTransGen (Q := fun t => Recorded t action items)
      (fun _ _ hw ha => ha.writes hw hown) hwrites hs

/-- An action that is not recorded has no items. -/
def Unrecorded (actionJobId : JobId) (s : TraversalStore) : Prop :=
  s.recoveryActions.find? actionJobId = none → itemsOf s actionJobId = []

/-- A step of others does not record the action. -/
theorem step_unrecorded (s : TraversalStore) (input : Input) (hs : Unrecorded actionJobId s) :
    Unrecorded actionJobId (step s input) := by
  by_cases hown : input.action = some actionJobId
  · rcases input with input | ⟨env, op⟩
    · cases hown
    · cases op <;> cases hown
      rename_i attemptId runId kind now
      show Unrecorded actionJobId
        ((prepareRecoveryAction actionJobId attemptId runId kind now).commit s).2
      rcases h : prepareRecoveryAction actionJobId attemptId runId kind now s with e | ⟨a, s'⟩
      · rw [commit_of_error h]
        exact hs
      · rw [commit_of_ok h]
        obtain ⟨_, _, stateIds, _, hprepared⟩ := prepareRecoveryAction_eq_ok.mp h
        rcases hprepared with ⟨_, _, _, _, _, hitems⟩ | ⟨_, hfirst⟩
        · rw [readRecoveryActionItems_reads hitems]
          exact hs
        · obtain ⟨_, _, _, _, _, haction⟩ := firstPreparation_eq_ok hfirst
          intro hnone
          dsimp only at hnone
          rw [haction] at hnone
          cases hnone
  · have hwrites : Relation.ReflTransGen (Writes (fun _ => True) fun a => input.action = some a) s
        (step s input) := step_performs s input fun _ _ => trivial
    refine keeps_of_reflTransGen (fun _ _ hw ha => ?_) hwrites hs
    obtain ⟨haction, hitems⟩ := hw.record hown
    rw [Unrecorded, haction, hitems]
    exact ha

/-! ## Replays -/

/-- No unit is recorded twice for an action. -/
theorem itemsOf_nodup (s : TraversalStore) (actionJobId : JobId) :
    ((itemsOf s actionJobId).map fun item => item.crawlUrlStateId).Nodup := by
  have hkeys : ((itemsOf s actionJobId).map fun item =>
      (item.actionJobId, item.crawlUrlStateId)).Nodup :=
    (List.filter_sublist.map _).nodup s.recoveryActionItems.keysNodup
  have hpairs : ((itemsOf s actionJobId).map fun item => (item.actionJobId, item.crawlUrlStateId)) =
      ((itemsOf s actionJobId).map fun item => item.crawlUrlStateId).map (Prod.mk actionJobId) := by
    rw [List.map_map]
    refine List.map_congr_left fun item hitem => ?_
    rw [(of_decide_eq_true (List.mem_filter.mp hitem).2 : item.actionJobId = actionJobId)]
    rfl
  rw [hpairs] at hkeys
  exact hkeys.of_map _

/-- The units of the recorded items are where they were recorded. -/
def AtPrepared (s : TraversalStore) (items : List CrawlRecoveryActionItem) : Prop :=
  ∀ item ∈ items, ∀ row, selectById s item.crawlRunId item.crawlUrlStateId = some row →
    item.preparedWorkGeneration = row.workGeneration

/-- Every recorded item is joined with its unit. -/
theorem Recorded.joined (hs : Recorded s action items) :
    (items.filterMap (itemState s)).map Prod.fst = items := by
  have hitem : ∀ item ∈ items, ∃ row, itemState s item = some (item, row) := by
    intro item hitem
    obtain ⟨_, row, hrow⟩ := hs.units item hitem
    exact ⟨row, by rw [itemState, hrow, Option.map_some]⟩
  clear hs
  induction items with
  | nil => rfl
  | cons first rest ih =>
    obtain ⟨row, hrow⟩ := hitem first List.mem_cons_self
    rw [List.filterMap_cons_some hrow, List.map_cons,
      ih fun item hmem => hitem item (List.mem_cons_of_mem first hmem)]

/-- The read of a recorded selection. -/
theorem Recorded.readRecoveryActionItems_eq_ok (hs : Recorded s action items) :
    readRecoveryActionItems action.actionJobId action.crawlRunId s = .ok (stateIds, s') ↔
      s' = s ∧ AtPrepared s items ∧ stateIds = ((items.filterMap (itemState s)).insertionSort
        fun a b => recoveryKey a.2 ≤ recoveryKey b.2).map fun pair => pair.1.crawlUrlStateId := by
  have hitems : s.recoveryActionItems.select (fun item =>
      item.actionJobId = action.actionJobId && item.crawlRunId = action.crawlRunId) = items := by
    have hfilter : s.recoveryActionItems.select (fun item =>
        item.actionJobId = action.actionJobId && item.crawlRunId = action.crawlRunId) =
        (itemsOf s action.actionJobId).filter fun item => item.crawlRunId = action.crawlRunId := by
      rw [itemsOf, Table.select, Table.select, List.filter_filter]
      exact List.filter_congr fun item _ => Bool.and_comm _ _
    rw [hfilter, hs.recordedItems, List.filter_eq_self]
    exact fun item hitem => decide_eq_true (hs.units item hitem).1
  have hperm := List.perm_insertionSort
    (fun a b : CrawlRecoveryActionItem × CrawlUrlStateRow => recoveryKey a.2 ≤ recoveryKey b.2)
    (items.filterMap (itemState s))
  have hprepared : (∀ pair ∈ (items.filterMap (itemState s)).insertionSort
      (fun a b => recoveryKey a.2 ≤ recoveryKey b.2),
      pair.1.preparedWorkGeneration = pair.2.workGeneration) ↔ AtPrepared s items := by
    constructor
    · intro h item hitem row hrow
      refine h (item, row) (hperm.mem_iff.mpr (List.mem_filterMap.mpr ⟨item, hitem, ?_⟩))
      rw [itemState, hrow, Option.map_some]
    · intro h pair hpair
      obtain ⟨item, hitem, hstate⟩ := List.mem_filterMap.mp (hperm.mem_iff.mp hpair)
      obtain ⟨row, hrow, rfl⟩ := Option.map_eq_some_iff.mp hstate
      exact h item hitem row hrow
  -- Items are keyed by their unit, so no unit is named twice.
  have hchain : (((items.filterMap (itemState s)).insertionSort
      (fun a b => recoveryKey a.2 ≤ recoveryKey b.2)).map
        fun pair => pair.1.crawlUrlStateId).IsChain (· ≠ ·) := by
    have hids := hperm.map fun pair => pair.1.crawlUrlStateId
    refine (hids.nodup_iff.mpr ?_).isChain
    have hmap : (items.filterMap (itemState s)).map (fun pair => pair.1.crawlUrlStateId) =
        items.map fun item => item.crawlUrlStateId := by
      conv_rhs => rw [← hs.joined, List.map_map]
      rfl
    rw [hmap, ← hs.recordedItems]
    exact itemsOf_nodup s action.actionJobId
  unfold readRecoveryActionItems
  rw [read_bind, hitems, require_bind_eq_ok, hprepared, require_bind_eq_ok]
  constructor
  · rintro ⟨hat, _, hreturn⟩
    cases hreturn
    exact ⟨rfl, hat, rfl⟩
  · rintro ⟨rfl, hat, rfl⟩
    exact ⟨hat, hchain, rfl⟩

/-- A replay that may prepare the action returns exactly when its units are where it
left them, and then returns the recorded selection. -/
theorem Recorded.replay_eq_ok (hs : Recorded s action items) :
    prepareRecoveryAction action.actionJobId attemptId runId kind now s = .ok (selection, s') ↔
      s' = s ∧ MayPrepare s action.actionJobId attemptId runId kind now action.sourceJobId ∧
        action.crawlRunId = runId ∧ action.actionKind = kind ∧ AtPrepared s items ∧
        selection = ⟨action.actionJobId, runId, kind, ((items.filterMap (itemState s)).insertionSort
          fun a b => recoveryKey a.2 ≤ recoveryKey b.2).map fun pair => pair.1.crawlUrlStateId⟩ := by
  rw [prepareRecoveryAction_eq_ok]
  constructor
  · rintro ⟨sourceJobId, hmay, stateIds, rfl, hprepared⟩
    rcases hprepared with ⟨existing, hfind, hsource, hrun, hkind, hitems⟩ | ⟨hnone, _⟩
    · rw [hs.recordedAction] at hfind
      cases hfind
      subst hsource hrun hkind
      obtain ⟨rfl, hat, rfl⟩ := hs.readRecoveryActionItems_eq_ok.mp hitems
      exact ⟨rfl, hmay, rfl, rfl, hat, rfl⟩
    · rw [hs.recordedAction] at hnone
      cases hnone
  · rintro ⟨rfl, hmay, rfl, rfl, hat, rfl⟩
    exact ⟨action.sourceJobId, hmay, _, rfl, Or.inl ⟨action, hs.recordedAction, rfl, rfl, rfl,
      hs.readRecoveryActionItems_eq_ok.mpr ⟨rfl, hat, rfl⟩⟩⟩

/-- What is read back are the recorded units. -/
theorem Recorded.selection_perm (hs : Recorded s action items) :
    (((items.filterMap (itemState s)).insertionSort
      fun a b => recoveryKey a.2 ≤ recoveryKey b.2).map fun pair => pair.1.crawlUrlStateId).Perm
        (items.map fun item => item.crawlUrlStateId) := by
  have hids := (List.perm_insertionSort
    (fun a b : CrawlRecoveryActionItem × CrawlUrlStateRow => recoveryKey a.2 ≤ recoveryKey b.2)
    (items.filterMap (itemState s))).map fun pair => pair.1.crawlUrlStateId
  refine hids.trans (.of_eq ?_)
  conv_rhs => rw [← hs.joined, List.map_map]
  rfl

/-- The first preparation leaves the record behind that its replays answer from. -/
theorem recorded_of_first (hunrecorded : itemsOf s actionJobId = [])
    {rows : List CrawlUrlStateRow} (hrows : rows.Perm (candidates s runId kind))
    (hunits : s'.urlStates.rows = s.urlStates.rows.map fun row =>
      if row ∈ candidates s runId kind then advanced row else row)
    (hitems : s'.recoveryActionItems.rows =
      s.recoveryActionItems.rows ++ rows.map (advanceItem actionJobId runId))
    (haction : s'.recoveryActions.find? actionJobId =
      some ⟨actionJobId, sourceJobId, runId, kind, now⟩) :
    Recorded s' ⟨actionJobId, sourceJobId, runId, kind, now⟩
      (rows.map (advanceItem actionJobId runId)) := by
  refine ⟨haction, ?_, ?_⟩
  · have hown : (rows.map (advanceItem actionJobId runId)).filter
        (fun item => item.actionJobId = actionJobId) = rows.map (advanceItem actionJobId runId) := by
      rw [List.filter_eq_self]
      intro item hitem
      obtain ⟨row, _, rfl⟩ := List.mem_map.mp hitem
      exact decide_eq_true rfl
    show List.filter _ s'.recoveryActionItems.rows = _
    rw [hitems, List.filter_append, hown]
    have hbefore : List.filter (fun item => decide (item.actionJobId = actionJobId))
        s.recoveryActionItems.rows = [] := hunrecorded
    rw [hbefore, List.nil_append]
  · intro item hitem
    obtain ⟨row, hrow, rfl⟩ := List.mem_map.mp hitem
    obtain ⟨hmem, hrun⟩ := mem_of_candidates (hrows.mem_iff.mp hrow)
    have hrow' : advanced row ∈ s'.urlStates.rows := by
      rw [hunits]
      exact List.mem_map.mpr ⟨row, hmem, if_pos (hrows.mem_iff.mp hrow)⟩
    have hfind : s'.urlStates.find? row.id = some (advanced row) := Table.find?_key hrow'
    exact ⟨rfl, advanced row, selectById_eq_some.mpr ⟨hfind, hrun⟩⟩

/-! ## Generations -/

/-- Every unit is still there, at its generation. -/
def KeepsGenerations (s s' : TraversalStore) : Prop :=
  ∀ id row, s.urlStates.find? id = some row →
    ∃ row', s'.urlStates.find? id = some row' ∧ row'.workGeneration = row.workGeneration

theorem KeepsGenerations.refl (s : TraversalStore) : KeepsGenerations s s :=
  fun _ row hrow => ⟨row, hrow, rfl⟩

theorem KeepsGenerations.trans {s₁ s₂ s₃ : TraversalStore} (h₁ : KeepsGenerations s₁ s₂)
    (h₂ : KeepsGenerations s₂ s₃) : KeepsGenerations s₁ s₃ := by
  intro id row hrow
  obtain ⟨row₂, hrow₂, hsame₂⟩ := h₁ id row hrow
  obtain ⟨row₃, hrow₃, hsame₃⟩ := h₂ id row₂ hrow₂
  exact ⟨row₃, hrow₃, hsame₃.trans hsame₂⟩

/-- Units that are not disturbed keep their generation. -/
theorem Undisturbing.keepsGenerations (h : Undisturbing s s') : KeepsGenerations s s' := by
  intro id row hrow
  obtain ⟨row', hrow', hsame⟩ := h id row hrow
  exact ⟨row', hrow', hsame.workGeneration⟩

/-- An update may keep generations. -/
theorem updateUrlStates_keepsGenerations {ε : Type} {refused : ε} {p : CrawlUrlStateRow → Bool}
    {f : CrawlUrlStateRow → CrawlUrlStateRow} {hf : ∀ row, (f row).id = row.id}
    (h : ∀ row, (f row).workGeneration = row.workGeneration) :
    Performs KeepsGenerations (updateUrlStates refused p f hf) := by
  refine .of_statement fun s n s' hupdate => ?_
  obtain ⟨_, urlStates, htable, rfl⟩ := updateUrlStates_eq_ok.mp hupdate
  intro id row hrow
  have hold : s.urlStates.table.find? id = some row := hrow
  refine ⟨if p row then f row else row, ?_, ?_⟩
  · show urlStates.table.find? id = _
    rw [htable, Table.find?_update, hold, Option.map_some]
  · split
    · exact h row
    · rfl

/-- Persisting an execution keeps generations. -/
theorem persistInTransaction_keepsGenerations {env : Environment} {record : CrawlExecutionRecord}
    {lineage : Option ExecutionLineage} :
    Performs KeepsGenerations (persistInTransaction env record lineage) := by
  refine .of_statement fun s u s' h => ?_
  obtain ⟨executions, _, _, rfl⟩ := persistInTransaction_eq_ok h
  exact fun _ row hrow => ⟨row, hrow, rfl⟩

/-- Only preparations move generations. -/
theorem apply_keepsGenerations (env : Environment) (s : TraversalStore) (op : Operation)
    (h : op.action = none) : KeepsGenerations s (apply env s op) := by
  by_cases howner : op.owner = none
  · exact (apply_undisturbing env s op howner).keepsGenerations
  have hrun : Relation.ReflTransGen KeepsGenerations s (apply env s op) := by
    cases op with
    | persistCurrentWork record stateId jobId attemptId state generation now =>
      refine Performs.commit (x := persistCurrentWork env record stateId jobId attemptId state
        generation now) ?_ s
      exact .bind (.require _ _) fun _ => .bind (.require _ _) fun _ =>
        .bind (.of_reads fun _ _ _ h => validateWorkOwner_reads h) fun _ =>
          .bind persistInTransaction_keepsGenerations fun _ => .bind .read fun _ =>
            .bind (.require _ _) fun _ => .bind (updateUrlStates_keepsGenerations fun _ => rfl)
              fun _ => .require _ _
    | activateCurrentWork runId stateId jobId attemptId generation now =>
      refine Performs.commit (x := activateCurrentWork runId stateId jobId attemptId generation
        now) ?_ s
      exact .bind (.require _ _) fun _ =>
        .bind (.of_reads fun _ _ _ h => validateActiveAttemptOwner_reads h) fun _ =>
          .bind (.require _ _) fun _ => .bind (updateUrlStates_keepsGenerations fun _ => rfl)
            fun _ => .require _ _
    | persistHistoricalWork record stateId jobId attemptId generation now =>
      refine Performs.commit (x := persistHistoricalWork env record stateId jobId attemptId
        generation now) ?_ s
      exact .bind (.require _ _) fun _ => .bind (.require _ _) fun _ =>
        .bind (.of_reads fun _ _ _ h => validateWorkOwner_reads h) fun _ =>
          persistInTransaction_keepsGenerations
    | prepareRecoveryAction actionJobId attemptId runId kind now => cases h
    | initializeRunState => exact absurd rfl howner
    | initializeRunStateWithCheckpoint => exact absurd rfl howner
    | initializeRunStateWithCheckpointAndEvidence => exact absurd rfl howner
    | applyDiscoveryDelta => exact absurd rfl howner
    | applyDiscoveryDeltaWithEvidence => exact absurd rfl howner
    | applyDiscoveryDeltaWithProjection => exact absurd rfl howner
    | replaceTransitionSourceCounts => exact absurd rfl howner
    | persist => exact absurd rfl howner
  exact keeps_of_reflTransGen (fun _ _ hstep hkept => hkept.trans hstep) hrun (.refl s)

/-- While no other action is prepared, the units of this one stay at their generations. -/
theorem run_keepsGenerations {inputs : List Input} (hs : Recorded s action items)
    (hown : ∀ input ∈ inputs, ∀ a ∈ input.action, a = action.actionJobId) :
    KeepsGenerations s (after step s inputs) := by
  induction inputs generalizing s with
  | nil => exact .refl s
  | cons input inputs ih =>
    refine KeepsGenerations.trans ?_ (ih (step_recorded s input hs)
      fun other hother => hown other (List.mem_cons_of_mem input hother))
    rcases input with input | ⟨env, op⟩
    · exact .refl _
    · rcases haction : op.action with _ | a
      · exact apply_keepsGenerations env s op haction
      · have ha : a = action.actionJobId := hown _ List.mem_cons_self a haction
        subst ha
        cases op <;> cases haction
        show KeepsGenerations s ((prepareRecoveryAction _ _ _ _ _).commit s).2
        rw [hs.replay_unchanged]
        exact .refl s

/-! ## Every run -/

/-- Every selected unit is at the generation the first preparation gave it. -/
def AtAdvanced (t : TraversalStore) (units : List CrawlUrlStateRow) : Prop :=
  ∀ unit ∈ units, ∀ row ∈ t.urlStates.rows, row.id = unit.id →
    row.workGeneration = unit.workGeneration + 1

instance (t : TraversalStore) (units : List CrawlUrlStateRow) : Decidable (AtAdvanced t units) :=
  inferInstanceAs (Decidable (∀ unit ∈ units, ∀ row ∈ t.urlStates.rows, row.id = unit.id →
    row.workGeneration = unit.workGeneration + 1))

/-- The recorded units are at the generation of the preparation when the rows are. -/
theorem atPrepared_iff {rows units : List CrawlUrlStateRow} (hrows : rows.Perm units)
    (hs : Recorded s action (rows.map (advanceItem actionJobId runId))) :
    AtPrepared s (rows.map (advanceItem actionJobId runId)) ↔ AtAdvanced s units := by
  constructor
  · intro h unit hunit row hrow hid
    have hitem := List.mem_map_of_mem (f := advanceItem actionJobId runId) (hrows.mem_iff.mpr hunit)
    obtain ⟨_, found, hfound⟩ := hs.units _ hitem
    have hsame : found = row := by
      obtain ⟨hmem, hkey⟩ := Table.find?_eq_some.mp (selectById_eq_some.mp hfound).1
      exact s.urlStates.table.eq_of_key_eq hmem hrow (hkey.trans hid.symm)
    subst hsame
    exact (h _ hitem found hfound).symm
  · intro h item hitem row hrow
    obtain ⟨unit, hunit, rfl⟩ := List.mem_map.mp hitem
    obtain ⟨hmem, hkey⟩ := Table.find?_eq_some.mp (selectById_eq_some.mp hrow).1
    exact (h unit (hrows.mem_iff.mp hunit) row hmem hkey).symm

/-- In every reachable state a failed preparation changes nothing, and the first
preparation of an action advances each candidate once and nothing else.  After any
further run a replay writes nothing and returns the same selection or none: it
returns exactly when the units are still where the preparation left them, as they are
while no other action is prepared. -/
theorem preparations_replay (before : List Input) (actionJobId : JobId) (attemptId : AttemptId)
    (runId : CrawlRunId) (kind : CrawlRecoveryActionKind) (now : ℤ) :
    let s := after step .empty before
    let prepare := prepareRecoveryAction actionJobId attemptId runId kind now
    (∀ e, (prepare.commit s).1 = .error e → (prepare.commit s).2 = s) ∧
      (s.recoveryActions.find? actionJobId = none →
        ∀ selection s', prepare s = .ok (selection, s') →
          selection.stateIds.Perm ((candidates s runId kind).map fun unit => unit.id) ∧
          s'.urlStates.rows = s.urlStates.rows.map (fun row =>
            if row ∈ candidates s runId kind then advanced row else row) ∧
          ∀ (inputs : List Input) (attemptId₁ : AttemptId) (now₁ : ℤ),
            let t := after step s' inputs
            let replay := (prepareRecoveryAction actionJobId attemptId₁ runId kind now₁).commit t
            replay.2 = t ∧
              (∀ selection₁, replay.1 = .ok selection₁ →
                selection₁.stateIds.Perm selection.stateIds) ∧
              ∀ sourceJobId, MayPrepare s actionJobId attemptId runId kind now sourceJobId →
                MayPrepare t actionJobId attemptId₁ runId kind now₁ sourceJobId →
                ((∃ selection₁, replay.1 = .ok selection₁) ↔
                    AtAdvanced t (candidates s runId kind)) ∧
                  ((∀ input ∈ inputs, ∀ a ∈ input.action, a = actionJobId) →
                    ∃ selection₁, replay.1 = .ok selection₁)) := by
  intro s prepare
  refine ⟨fun e he => ?_, fun hnone selection s' hprepare => ?_⟩
  · rcases h : prepare s with e' | ⟨a, s'⟩
    · rw [commit_of_error h]
    · rw [commit_of_ok h] at he
      cases he
  -- The call was a first preparation, and its record is kept from here on.
  obtain ⟨sourceJobId, hmay, stateIds, rfl, hprepared⟩ := prepareRecoveryAction_eq_ok.mp hprepare
  have hfirst : firstPreparation actionJobId sourceJobId runId kind now s = .ok (stateIds, s') := by
    rcases hprepared with ⟨_, hfind, _⟩ | ⟨_, hfirst⟩
    · rw [hnone] at hfind
      cases hfind
    · exact hfirst
  obtain ⟨rows, hrows, rfl, hunits, hitems, haction⟩ := firstPreparation_eq_ok hfirst
  have hunrecorded : Unrecorded actionJobId s :=
    after_invariant step_unrecorded (fun _ => rfl) before
  have hrecorded := recorded_of_first (hunrecorded hnone) hrows hunits hitems haction
  refine ⟨hrows.map _, hunits, fun inputs attemptId₁ now₁ => ?_⟩
  intro t replay
  have ht : Recorded t ⟨actionJobId, sourceJobId, runId, kind, now⟩
      (rows.map (advanceItem actionJobId runId)) :=
    after_invariant step_recorded hrecorded inputs
  have hreturns : MayPrepare t actionJobId attemptId₁ runId kind now₁ sourceJobId →
      ((∃ selection₁, replay.1 = .ok selection₁) ↔ AtAdvanced t (candidates s runId kind)) := by
    intro hmay₁
    rw [← atPrepared_iff hrows ht]
    constructor
    · rintro ⟨selection₁, hok⟩
      rcases h : prepareRecoveryAction actionJobId attemptId₁ runId kind now₁ t with e | ⟨a, t'⟩
      · rw [show replay = (.error e, t) from commit_of_error h] at hok
        cases hok
      · exact (ht.replay_eq_ok.mp h).2.2.2.2.1
    · intro hat
      have h := ht.replay_eq_ok.mpr ⟨rfl, hmay₁, rfl, rfl, hat, rfl⟩
      exact ⟨_, by rw [show replay = _ from commit_of_ok h]⟩
  refine ⟨ht.replay_unchanged, fun selection₁ hok => ?_, fun sourceJobId₁ hmay₀ hmay₁ => ?_⟩
  · rcases h : prepareRecoveryAction actionJobId attemptId₁ runId kind now₁ t with e | ⟨a, t'⟩
    · rw [show replay = (.error e, t) from commit_of_error h] at hok
      cases hok
    · rw [show replay = (.ok a, t') from commit_of_ok h] at hok
      cases hok
      obtain ⟨_, _, _, _, _, rfl⟩ := ht.replay_eq_ok.mp h
      refine ht.selection_perm.trans (.of_eq ?_)
      rw [List.map_map]
      rfl
  · -- The source of the action is the parent of its job.
    have hsource : sourceJobId₁ = sourceJobId := by
      obtain ⟨job₀, _, hjob₀, _, hparent₀, _⟩ := hmay₀.job
      obtain ⟨job, _, hjob, _, hparent, _⟩ := hmay.job
      rw [hjob] at hjob₀
      cases hjob₀
      rw [hparent] at hparent₀
      exact (Option.some.inj hparent₀).symm
    subst hsource
    refine ⟨hreturns hmay₁, fun hown => (hreturns hmay₁).mpr ?_⟩
    intro unit hunit row hrow hid
    have hmem : advanced unit ∈ s'.urlStates.rows := by
      rw [hunits]
      exact List.mem_map.mpr ⟨unit, (mem_of_candidates hunit).1, if_pos hunit⟩
    have hfind : s'.urlStates.find? unit.id = some (advanced unit) := Table.find?_key hmem
    obtain ⟨row', hrow', hkept⟩ := run_keepsGenerations hrecorded hown unit.id _ hfind
    obtain ⟨hmem', hkey'⟩ := Table.find?_eq_some.mp hrow'
    rw [t.urlStates.table.eq_of_key_eq hrow hmem' (hid.trans hkey'.symm)]
    exact hkept

/-! ## Two live actions -/

/-- The lease of a worker at time 0. -/
def retryLease (id : LeaseId) : JobLease := ⟨id, "a", 1, 0, 60, 0⟩

/-- The job of the run fails, and so does its retry 11; then both are retried, as
jobs 12 and 13, which run at the same time. -/
def competingRetries : List Input :=
  sampleRun ++ [
    .queue (.operation (.failTerminalProduction 10 (retryLease 100) 0 .handlerFailed)),
    .queue (.action (.retry fun _ => .ok 1) 10 11 0),
    .queue (.operation (.acquireNext "a" 0 60 true ⟨101, 201⟩)),
    .queue (.operation (.failTerminalProduction 11 (retryLease 101) 0 .handlerFailed)),
    .queue (.action (.retry fun _ => .ok 1) 11 12 0),
    .queue (.action (.retry fun _ => .ok 1) 10 13 0),
    .queue (.operation (.acquireNext "a" 0 60 true ⟨102, 202⟩)),
    .queue (.operation (.acquireNext "a" 0 60 true ⟨103, 203⟩))]

/-- A delta of the prepared retry 12, which marks the first seed at its new generation. -/
def retriedDelta : Operation := .applyDiscoveryDeltaWithProjection 1
  { workDelta [] [] sampleControl [] with inFlightWork := [⟨"root", some 1⟩] }

/-- After the delta the attempt of job 12 still gets the selection it prepared. -/
theorem preparations_replay_marked :
    let s' := ((prepareRecoveryAction 12 202 1 .retry 1).commit
      (after step .empty competingRetries)).2
    ∃ selection₁, ((prepareRecoveryAction 12 202 1 .retry 2).commit
      (after step s' [.operation sampleEnvironment retriedDelta])).1 = .ok selection₁ := by
  intro s'
  have hprepared : ((prepareRecoveryAction 12 202 1 .retry 1).commit
      (after step .empty competingRetries)).1 = .ok ⟨12, 1, .retry, ["root", "other"]⟩ := by
    decide +kernel
  have hmay : ∀ (t : TraversalStore) (now : ℤ), 0 ≤ now →
      (∃ job ∈ t.queue.jobs.rows, job.id = 12 ∧ ∃ attempt ∈ t.queue.attempts.rows,
        attempt.id = 202 ∧ job.parentJobId = some 11 ∧ job.crawlRunId = some 1 ∧
          job.kind = CrawlRecoveryActionKind.retry.jobKind ∧ activeAttempt job attempt now = true) →
      (∃ source ∈ t.queue.jobs.rows, source.id = 11 ∧ source.crawlRunId = some 1) →
      MayPrepare t 12 202 1 .retry now 11 := by
    rintro t now hnow ⟨job, hjob, hid, attempt, hattempt, hattemptId, h⟩ ⟨source, hsource, hkey, hrun⟩
    exact ⟨hnow, ⟨job, attempt, hid ▸ Table.find?_key hjob, hattemptId ▸ Table.find?_key hattempt,
      h⟩, ⟨source, hkey ▸ Table.find?_key hsource, hrun⟩⟩
  rcases h : prepareRecoveryAction 12 202 1 .retry 1 (after step .empty competingRetries) with
    e | ⟨selection, s₁⟩
  · rw [commit_of_error h] at hprepared
    cases hprepared
  · have hs' : s' = s₁ := by
      show ((prepareRecoveryAction 12 202 1 .retry 1).commit _).2 = s₁
      rw [commit_of_ok h]
    rw [hs']
    obtain ⟨_, hfirst⟩ := preparations_replay competingRetries 12 202 1 .retry 1
    obtain ⟨_, _, hreplays⟩ := hfirst (by decide +kernel) selection s₁ h
    obtain ⟨_, _, hreturns⟩ := hreplays [.operation sampleEnvironment retriedDelta] 202 2
    refine (hreturns 11 (hmay _ _ (by decide) (by decide +kernel) (by decide +kernel)) ?_).2 ?_
    · rw [← hs']
      exact hmay _ _ (by decide) (by decide +kernel) (by decide +kernel)
    · intro input hinput a ha
      rw [List.mem_singleton.mp hinput] at ha
      cases ha

/-- Both retries are prepared, job 12 first. -/
def competingPreparations : List Input :=
  [.operation sampleEnvironment (.prepareRecoveryAction 12 202 1 .retry 1),
    .operation sampleEnvironment (.prepareRecoveryAction 13 203 1 .retry 1)]

/-- The second preparation advances the units of the first, whose live attempt is
refused when it asks for its selection again. -/
theorem competingPreparations_refuse :
    ((prepareRecoveryAction 12 202 1 .retry 1).commit (after step .empty competingRetries)).1 =
        .ok ⟨12, 1, .retry, ["root", "other"]⟩ ∧
      ((prepareRecoveryAction 12 202 1 .retry 2).commit
        (after step .empty (competingRetries ++ competingPreparations))).1 =
          .error .invalidState ∧
      Owner.active (after step .empty (competingRetries ++ competingPreparations))
        ⟨1, 12, 202, 2⟩ := by
  refine ⟨by decide +kernel, by decide +kernel, by decide +kernel⟩

end Erabi.Traversal
