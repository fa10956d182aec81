/-
# Control rows

The run of every unit has a control row: the initialization inserts it before the
first units, a discovery delta fails without it, and nothing removes it.  Of the
queue, an operation on the logical work changes nothing but that an initialization
may append its checkpoint.
-/
import Mathlib
import Erabi.Traversal.Coherence

namespace Erabi.Traversal

open Relational Transaction Queue Transition

/-! ## Units within runs -/

/-- The statement keeps the queue and the control rows, and its new units belong to
`runs`. -/
structure Within (runs : CrawlRunId → Prop) (s s' : TraversalStore) : Prop where
  queue : s'.queue = s.queue
  controls : ∀ runId, (s.controls.find? runId).isSome → (s'.controls.find? runId).isSome
  units : ∀ unit ∈ s'.urlStates.rows, runs unit.crawlRunId ∨
    ∃ before ∈ s.urlStates.rows, before.crawlRunId = unit.crawlRunId

/-- The run of every unit has a control row. -/
def Controlled (s : TraversalStore) : Prop :=
  ∀ unit ∈ s.urlStates.rows, (s.controls.find? unit.crawlRunId).isSome

variable {runs : CrawlRunId → Prop} {s s' : TraversalStore} {env : Environment}
  {runId : CrawlRunId} {ε α : Type}

/-- A statement on the other tables. -/
theorem Within.of_same (hqueue : s'.queue = s.queue) (hcontrols : s'.controls = s.controls)
    (hunits : s'.urlStates = s.urlStates) : Within runs s s' where
  queue := hqueue
  controls runId h := by
    rw [hcontrols]
    exact h
  units unit hunit := by
    rw [hunits] at hunit
    exact Or.inr ⟨unit, hunit, rfl⟩

/-- What a sequence of statements does, it does as one. -/
theorem Within.of_reflTransGen (h : Relation.ReflTransGen (Within runs) s s') :
    Within runs s s' := by
  induction h with
  | refl => exact .of_same rfl rfl rfl
  | tail _ hstep ih =>
    refine ⟨hstep.queue.trans ih.queue, fun runId hrun => hstep.controls runId
      (ih.controls runId hrun), fun unit hunit => ?_⟩
    rcases hstep.units unit hunit with hruns | ⟨between, hbetween, hsame⟩
    · exact Or.inl hruns
    · rw [← hsame]
      exact ih.units between hbetween

theorem Within.trans {s₁ : TraversalStore} (h : Within runs s s₁) (h' : Within runs s₁ s') :
    Within runs s s' := .of_reflTransGen (.tail (.single h) h')

/-- Work within some runs is work within more of them. -/
theorem Within.mono {runs' : CrawlRunId → Prop} (h : Within runs s s')
    (hruns : ∀ runId, runs runId → runs' runId) : Within runs' s s' where
  queue := h.queue
  controls := h.controls
  units unit hunit := (h.units unit hunit).imp_left (hruns _)

/-- The new units belong to runs that have their control row by then. -/
def Supplies (s s' : TraversalStore) : Prop :=
  Within (fun runId => (s'.controls.find? runId).isSome) s s'

/-- Units stay controlled as long as the new ones are. -/
theorem Supplies.controlled (h : Supplies s s') (hs : Controlled s) : Controlled s' := by
  intro unit hunit
  rcases h.units unit hunit with hrun | ⟨before, hbefore, hsame⟩
  · exact hrun
  · rw [← hsame]
    exact h.controls _ (hs before hbefore)

theorem Supplies.refl (s : TraversalStore) : Supplies s s := .of_same rfl rfl rfl

/-! ## Statements within runs -/

/-- A write beside queue, controls and units is work within any runs. -/
theorem write_within {f : TraversalStore → TraversalStore} (hqueue : ∀ s, (f s).queue = s.queue)
    (hcontrols : ∀ s, (f s).controls = s.controls) (hunits : ∀ s, (f s).urlStates = s.urlStates) :
    Performs (Within runs) (write f : Transaction TraversalStore ε Unit) :=
  .write fun s => .of_same (hqueue s) (hcontrols s) (hunits s)

/-- An update moves no unit to another run. -/
theorem updateUrlStates_within {refused : ε} {p : CrawlUrlStateRow → Bool}
    {f : CrawlUrlStateRow → CrawlUrlStateRow} {hf : ∀ row, (f row).id = row.id}
    (hrun : ∀ row, (f row).crawlRunId = row.crawlRunId) :
    Performs (Within runs) (updateUrlStates refused p f hf) := by
  refine .of_statement fun s n s' h => ?_
  obtain ⟨_, urlStates, htable, rfl⟩ := updateUrlStates_eq_ok.mp h
  refine ⟨rfl, fun _ hrun => hrun, fun unit hunit => Or.inr ?_⟩
  have hmem : unit ∈ urlStates.table.rows := hunit
  rw [htable] at hmem
  obtain ⟨before, hbefore, rfl⟩ := List.mem_map.mp hmem
  refine ⟨before, hbefore, ?_⟩
  split
  · exact (hrun before).symm
  · rfl

/-- Provenance is written beside the units. -/
theorem insertSeedProvenance_within {id : UrlStateId} {seedIds : List String} :
    Performs (Within runs) (insertSeedProvenance env runId id seedIds) := by
  refine .foldEach (fun _ seedId => .bind (.require _ _) fun _ => .bind .read fun s => ?_) _ _
  split
  · exact .pure _
  · exact .bind (.orFail _ _) fun _ => write_within (fun _ => rfl) (fun _ => rfl) fun _ => rfl

/-- The one statement that adds a unit. -/
theorem insertState_within {state : CrawlUrlStateRecord} (hrun : runs state.crawlRunId) :
    Performs (Within runs) (insertState env state) := by
  intro s u s' h
  unfold insertState at h
  obtain ⟨_, hrest₁⟩ := require_bind_eq_ok.mp h
  obtain ⟨_, s₁, howner, hrest₂⟩ := bind_eq_ok.mp hrest₁
  obtain ⟨rfl, _⟩ := validateStateOwnership_eq_ok howner
  obtain ⟨_, hrest₃⟩ := require_bind_eq_ok.mp hrest₂
  obtain ⟨_, hrest₄⟩ := require_bind_eq_ok.mp hrest₃
  rw [read_bind] at hrest₄
  obtain ⟨table, hinsert, hrest₅⟩ := orFail_bind_eq_ok.mp hrest₄
  obtain ⟨_, s₂, hset, hseeds⟩ := bind_eq_ok.mp hrest₅
  obtain ⟨urlStates, rfl, rfl⟩ := setUrlStates_eq_ok.mp hset
  have hinserted : Within runs s₁ { s₁ with urlStates } := by
    refine ⟨rfl, fun _ hcontrol => hcontrol, fun unit hunit => ?_⟩
    rcases (Table.mem_insert hinsert).mp hunit with hold | rfl
    · exact Or.inr ⟨unit, hold, rfl⟩
    · exact Or.inl hrun
  exact .head hinserted (insertSeedProvenance_within _ _ _ hseeds)

/-- A record that is validated for a run belongs to it. -/
theorem validateStateOwnership_run {state : CrawlUrlStateRecord} {u : Unit}
    (h : validateStateOwnership env state runId s = .ok (u, s')) :
    s' = s ∧ state.crawlRunId = runId := by
  refine ⟨(validateStateOwnership_eq_ok h).1, ?_⟩
  unfold validateStateOwnership at h
  exact (require_bind_eq_ok.mp h).1

/-- A unit that is discovered again stays with its run. -/
theorem mergedState_crawlRunId (state : CrawlUrlStateRecord) (row : CrawlUrlStateRow) :
    (mergedState state row).crawlRunId = row.crawlRunId := by
  unfold mergedState
  split
  · rfl
  · rfl

/-- A unit is inserted into its run, or merged into the one there. -/
theorem upsertDiscoveryState_within {state : CrawlUrlStateRecord} (hrun : runs state.crawlRunId) :
    Performs (Within runs) (upsertDiscoveryState env state) := by
  refine .bind (.require _ _) fun _ => .bind (.of_reads fun _ _ _ h =>
    (validateStateOwnership_eq_ok h).1) fun _ => .bind .read fun s => ?_
  split
  · exact insertState_within hrun
  · exact .bind (.require _ _) fun _ => .bind (.require _ _) fun _ => .bind (.require _ _) fun _ =>
      .bind (.require _ _) fun _ => .bind (updateUrlStates_within (mergedState_crawlRunId state))
        fun _ => insertSeedProvenance_within

/-- New work that is accepted belongs to the run. -/
theorem validated_within {x : CrawlUrlStateRecord → TraversalTx Unit} {state : CrawlUrlStateRecord}
    (hx : state.crawlRunId = runId → Performs (Within (· = runId)) (x state)) :
    Performs (Within (· = runId)) (do validateStateOwnership env state runId; x state) := by
  intro s u s' h
  obtain ⟨_, s₁, hvalid, hrest⟩ := bind_eq_ok.mp h
  obtain ⟨rfl, hrun⟩ := validateStateOwnership_run hvalid
  exact hx hrun _ _ _ hrest

/-- All the work of a delta is of its run. -/
theorem upsertWork_within {work : List CrawlUrlStateRecord} :
    Performs (Within (· = runId)) (upsertWork env runId work) :=
  .foldEach (fun _ _ => validated_within fun hrun => upsertDiscoveryState_within hrun) _ _

/-- The roots of a run are its own units. -/
theorem insertRoots_within {roots : List CrawlUrlStateRecord} :
    Performs (Within (· = runId)) (insertRoots env runId roots) :=
  .foldEach (fun _ _ => validated_within fun hrun => insertState_within hrun) _ _

/-- The target of a redirect is a unit of the run. -/
theorem provideFinalState_within {redirect : CrawlRedirectReconciliation}
    {aliasState : CrawlUrlStateRow} (hrun : aliasState.crawlRunId = runId) :
    Performs (Within (· = runId)) (provideFinalState env runId redirect aliasState) := by
  refine .bind .read fun s => ?_
  dsimp only
  split
  · exact .bind (.require _ _) fun _ => .bind (.require _ _) fun _ => .bind .read fun _ =>
      insertSeedProvenance_within
  · exact insertState_within hrun

/-- A redirect changes units of its run. -/
theorem reconcileRedirect_within {redirect : CrawlRedirectReconciliation} :
    Performs (Within (· = runId)) (reconcileRedirect env runId redirect) := by
  intro s u s' h
  unfold reconcileRedirect at h
  obtain ⟨_, hrest₁⟩ := require_bind_eq_ok.mp h
  rw [read_bind] at hrest₁
  obtain ⟨aliasState, hselect, hrest₂⟩ := orFail_bind_eq_ok.mp hrest₁
  have hrun : aliasState.crawlRunId = runId := (selectByCanonical_eq_some hselect).2.1
  revert hrest₂
  refine Performs.bind (.require _ _) (fun _ => .bind (.require _ _) fun _ => ?_) s u s'
  split
  · exact .require _ _
  · exact .fail _
  · exact .bind (provideFinalState_within hrun) fun _ => .bind (updateUrlStates_within
      fun _ => rfl) fun _ => .require _ _

/-- The projection is written beside the units. -/
theorem applySemanticProjection_within {projection : CrawlTraversalSemanticProjection} :
    Performs (Within runs) (applySemanticProjection env runId projection) := by
  unfold applySemanticProjection
  split
  · exact .pure _
  · refine .bind (.foldEach (fun _ value => ?_) _ _) fun _ => .bind .read fun _ =>
      .bind (.require _ _) fun _ => .bind (write_within (fun _ => rfl) (fun _ => rfl) fun _ => rfl) fun _ =>
        .bind (.foldEach (fun _ _ => ?_) _ _) fun _ => .pure _
    · exact .bind (.require _ _) fun _ => .bind (.require _ _) fun _ => .bind (.require _ _)
        fun _ => .bind (updateUrlStates_within fun _ => rfl) fun _ => .bind (.require _ _)
          fun _ => .pure _
    · exact .bind (.require _ _) fun _ => .bind (.require _ _) fun _ => .bind (.require _ _)
        fun _ => .bind .read fun _ => .bind (.orFail _ _) fun _ =>
          .bind (write_within (fun _ => rfl) (fun _ => rfl) fun _ => rfl) fun _ => .pure _

/-- Work in flight is marked on units of the run. -/
theorem markInFlightWork_within {inFlightWork : List CrawlInFlightWork} :
    Performs (Within runs) (markInFlightWork runId inFlightWork) := by
  refine .bind (.foldEach (fun _ work => .bind (.require _ _) fun _ => .bind .read fun _ =>
    .bind (.orFail _ _) fun row => .bind (.require _ _) fun _ => ?_) _ _) fun _ => .pure _
  split
  · exact .pure _
  · exact .bind (.require _ _) fun _ => .bind (updateUrlStates_within fun _ => rfl) fun _ =>
      .bind (.require _ _) fun _ => .pure _

/-- Discoveries are recorded beside the units. -/
theorem recordEvidence_within {evidence : List DiscoveredUrlRecord} :
    Performs (Within runs) (recordEvidence env evidence) := by
  refine .foldEach (fun _ record => .bind (.require _ _) fun _ => .bind .read fun s => ?_) _ _
  split
  · exact .require _ _
  · exact .bind (.require _ _) fun _ => .bind (.orFail _ _) fun _ =>
      write_within (fun _ => rfl) (fun _ => rfl) fun _ => rfl

/-- Counts are replaced beside the units. -/
theorem replaceTransitionCounts_within {counts : List CrawlTransitionSourceCount} :
    Performs (Within runs) (replaceTransitionCounts env runId counts) := by
  refine .bind .read fun _ => .bind (.require _ _) fun _ =>
    .bind (write_within (fun _ => rfl) (fun _ => rfl) fun _ => rfl) fun _ => .foldEach (fun _ value => ?_) _ _
  exact .bind (.require _ _) fun _ => .bind .read fun _ => .bind (.orFail _ _) fun _ =>
    write_within (fun _ => rfl) (fun _ => rfl) fun _ => rfl

theorem requireRoots_within {roots : List CrawlUrlStateRecord} :
    Performs (Within runs) (requireRoots runId roots) :=
  .foldEach (fun _ _ => .bind .read fun _ => .bind (.orFail _ _) fun _ => .bind (.require _ _)
    fun _ => .require _ _) _ _

/-! ## Control rows and checkpoints -/

/-- The control row is new, and the others stay. -/
theorem insertControl_spec {control : CrawlTraversalControl} {u : Unit}
    (h : insertControl control s = .ok (u, s')) :
    Within runs s s' ∧ (s'.controls.find? control.crawlRunId).isSome := by
  unfold insertControl at h
  obtain ⟨_, hrest⟩ := require_bind_eq_ok.mp h
  rw [read_bind] at hrest
  obtain ⟨controls, hinsert, hwrite⟩ := orFail_bind_eq_ok.mp hrest
  cases hwrite
  refine ⟨⟨rfl, fun runId hcontrol => ?_, fun unit hunit => Or.inr ⟨unit, hunit, rfl⟩⟩, ?_⟩
  · show (controls.find? runId).isSome
    rw [Table.find?_insert hinsert]
    split
    · rfl
    · exact hcontrol
  · show (controls.find? control.crawlRunId).isSome
    rw [Table.find?_insert hinsert, if_pos rfl]
    rfl

/-- An update finds its control row. -/
theorem updateControl_spec {control : CrawlTraversalControl} {u : Unit}
    (h : updateControl control s = .ok (u, s')) :
    Within runs s s' ∧ (s'.controls.find? control.crawlRunId).isSome := by
  unfold updateControl at h
  obtain ⟨_, hrest⟩ := require_bind_eq_ok.mp h
  rw [read_bind] at hrest
  obtain ⟨hcontrol, hwrite⟩ := require_bind_eq_ok.mp hrest
  cases hwrite
  have hkept : ∀ runId, (s.controls.find? runId).isSome → ((s.controls.update (fun row =>
      row.crawlRunId = control.crawlRunId) fun row => { control with crawlRunId := row.crawlRunId
        }).find? runId).isSome := by
    intro runId hrun
    rw [Table.find?_update, Option.isSome_map]
    exact hrun
  exact ⟨⟨rfl, hkept, fun unit hunit => Or.inr ⟨unit, hunit, rfl⟩⟩, hkept _ hcontrol⟩

/-- New units after the control row of their run. -/
theorem supplies_of_inserted {x : TraversalTx Unit} {control : CrawlTraversalControl} {u : Unit}
    (hrun : control.crawlRunId = runId) (hx : Performs (Within (· = runId)) x)
    (h : (insertControl control >>= fun _ => x) s = .ok (u, s')) :
    Supplies s s' ∧ (s'.controls.find? runId).isSome := by
  obtain ⟨_, s₁, hinsert, hrest⟩ := bind_eq_ok.mp h
  obtain ⟨hinserted, hcontrol⟩ := insertControl_spec hinsert
  have hwithin : Within (· = runId) s₁ s' := .of_reflTransGen (hx _ _ _ hrest)
  have hkept : (s'.controls.find? runId).isSome := hwithin.controls _ (hrun ▸ hcontrol)
  refine ⟨(hinserted.trans hwithin).mono fun other hother => ?_, hkept⟩
  rw [hother]
  exact hkept

/-- A transaction without new units. -/
theorem supplies_of_within {x : Transaction TraversalStore ε α}
    (hx : Performs (Within fun _ => False) x) {a : α} (h : x s = .ok (a, s')) : Supplies s s' :=
  (Within.of_reflTransGen (hx _ _ _ h)).mono fun _ hrun => hrun.elim

theorem Supplies.trans {s₁ : TraversalStore} (h : Supplies s s₁) (h' : Supplies s₁ s') :
    Supplies s s' :=
  Within.trans (Within.mono h fun _ hrun => h'.controls _ hrun) h'

/-- A transaction that fails supplies nothing. -/
theorem commit_supplies {x : Transaction TraversalStore ε α}
    (h : ∀ a s', x s = .ok (a, s') → Supplies s s') : Supplies s (x.commit s).2 := by
  rcases hx : x s with e | ⟨a, s'⟩
  · rw [commit_of_error hx]
    exact .refl s
  · rw [commit_of_ok hx]
    exact h a s' hx

/-- A store after an initialization that had appended its checkpoint last. -/
structure Initialized (s s' : TraversalStore) (runId : CrawlRunId) (checkpoint : CheckpointAppend) :
    Prop where
  supplies : ∃ s₁, Supplies s s₁ ∧ s' = { s₁ with queue := s'.queue }
  control : (s'.controls.find? runId).isSome
  append : ∃ record, appendCheckpoint checkpoint.jobId checkpoint.attemptId checkpoint.lease
    checkpoint.identity checkpoint.createdAt s.queue = .ok (record, s'.queue)

/-- The checkpoint follows the control row and the first units. -/
theorem initialized_of_appended {s₁ : TraversalStore} {checkpoint : CheckpointAppend} {u : Unit}
    (hsupplies : Supplies s s₁) (hcontrol : (s₁.controls.find? runId).isSome)
    (h : appendCheckpointInTransaction checkpoint s₁ = .ok (u, s')) :
    Initialized s s' runId checkpoint := by
  unfold appendCheckpointInTransaction onQueue at h
  obtain ⟨record, s₂, honQueue, hreturn⟩ := bind_eq_ok.mp h
  cases hreturn
  rw [read_bind] at honQueue
  rcases happend : appendCheckpoint checkpoint.jobId checkpoint.attemptId checkpoint.lease
    checkpoint.identity checkpoint.createdAt s₁.queue with e | ⟨appended, queue⟩
  · rw [happend] at honQueue
    cases honQueue
  · rw [happend] at honQueue
    cases honQueue
    exact ⟨⟨s₁, hsupplies, rfl⟩, hcontrol, record, hsupplies.queue ▸ happend⟩

theorem ensureRun_within : Performs (Within runs) (ensureRun runId) :=
  .bind .read fun _ => .require _ _

/-! ## Initializations and deltas -/

/-- An initialization inserts the control row with the first units, or finds both. -/
theorem initializeRunState_supplies {roots : List CrawlUrlStateRecord}
    {control : CrawlTraversalControl} {u : Unit}
    (h : initializeRunState env runId roots control s = .ok (u, s')) : Supplies s s' := by
  unfold initializeRunState at h
  obtain ⟨⟨hrunId, _⟩, hrest₁⟩ := require_bind_eq_ok.mp h
  obtain ⟨_, s₁, hrun, hrest₂⟩ := bind_eq_ok.mp hrest₁
  have hs₁ : Supplies s s₁ := supplies_of_within ensureRun_within hrun
  rw [read_bind] at hrest₂
  rcases hfind : s₁.controls.find? runId with _ | persisted
  · rw [hfind] at hrest₂
    exact hs₁.trans (supplies_of_inserted hrunId insertRoots_within hrest₂).1
  · rw [hfind] at hrest₂
    exact hs₁.trans
      (supplies_of_within (.bind (.require _ _) fun _ => requireRoots_within) hrest₂)

/-- Work, then a checkpoint: the work is what a sequence of statements does. -/
theorem initialized_of_inserted {x : TraversalTx Unit} {control : CrawlTraversalControl}
    {checkpoint : CheckpointAppend} {u : Unit} (hrun : control.crawlRunId = runId)
    (hx : Performs (Within (· = runId)) x)
    (h : (do insertControl control; x; appendCheckpointInTransaction checkpoint) s =
      .ok (u, s')) : Initialized s s' runId checkpoint := by
  obtain ⟨_, s₁, hinsert, hrest⟩ := bind_eq_ok.mp h
  obtain ⟨_, s₂, hwork, happend⟩ := bind_eq_ok.mp hrest
  have hinserted : (insertControl control >>= fun _ => x) s = .ok ((), s₂) :=
    bind_eq_ok.mpr ⟨_, s₁, hinsert, hwork⟩
  obtain ⟨hsupplies, hcontrol⟩ := supplies_of_inserted hrun hx hinserted
  exact initialized_of_appended hsupplies hcontrol happend

/-- An initialization after other work is one of the whole. -/
theorem Initialized.after {s₁ : TraversalStore} {checkpoint : CheckpointAppend}
    (h : Initialized s₁ s' runId checkpoint) (hs : Supplies s s₁) :
    Initialized s s' runId checkpoint := by
  obtain ⟨s₂, hsupplies, hrest⟩ := h.supplies
  exact ⟨⟨s₂, hs.trans hsupplies, hrest⟩, h.control, hs.queue ▸ h.append⟩

/-- An initialization writes the control row of its run together with the first checkpoint. -/
theorem initializeRunStateWithCheckpoint_initialized {roots : List CrawlUrlStateRecord}
    {control : CrawlTraversalControl} {checkpoint : CheckpointAppend} {u : Unit}
    (h : initializeRunStateWithCheckpoint env runId roots control checkpoint s = .ok (u, s')) :
    Initialized s s' runId checkpoint := by
  unfold initializeRunStateWithCheckpoint at h
  obtain ⟨⟨hrunId, _⟩, hrest₁⟩ := require_bind_eq_ok.mp h
  obtain ⟨_, s₁, hrun, hrest₂⟩ := bind_eq_ok.mp hrest₁
  exact (initialized_of_inserted hrunId insertRoots_within hrest₂).after
    (supplies_of_within ensureRun_within hrun)

/-- With evidence, an initialization that finds its control row appends nothing. -/
theorem initializeRunStateWithCheckpointAndEvidence_initialized {roots : List CrawlUrlStateRecord}
    {evidence : List DiscoveredUrlRecord} {control : CrawlTraversalControl}
    {projection : CrawlTraversalSemanticProjection} {checkpoint : CheckpointAppend} {u : Unit}
    (h : initializeRunStateWithCheckpointAndEvidence env runId roots evidence control projection
      checkpoint s = .ok (u, s')) : Supplies s s' ∨ Initialized s s' runId checkpoint := by
  unfold initializeRunStateWithCheckpointAndEvidence at h
  obtain ⟨⟨hrunId, _⟩, hrest₁⟩ := require_bind_eq_ok.mp h
  obtain ⟨_, s₁, hrun, hrest₂⟩ := bind_eq_ok.mp hrest₁
  have hs₁ : Supplies s s₁ := supplies_of_within ensureRun_within hrun
  rw [read_bind] at hrest₂
  rcases hfind : s₁.controls.find? runId with _ | persisted
  · rw [hfind] at hrest₂
    obtain ⟨_, s₂, hevidence, hrest₃⟩ := bind_eq_ok.mp hrest₂
    obtain ⟨_, s₃, hcontrol, hrest₄⟩ := bind_eq_ok.mp hrest₃
    obtain ⟨_, s₄, hroots, hrest₅⟩ := bind_eq_ok.mp hrest₄
    have hwork : (do insertControl control
                     (do insertRoots env runId roots; applySemanticProjection env runId projection)
                     appendCheckpointInTransaction checkpoint) s₂ = .ok (u, s') := by
      refine bind_eq_ok.mpr ⟨_, s₃, hcontrol, ?_⟩
      obtain ⟨_, s₅, hprojection, happend⟩ := bind_eq_ok.mp hrest₅
      exact bind_eq_ok.mpr ⟨_, s₅, bind_eq_ok.mpr ⟨_, s₄, hroots, hprojection⟩, happend⟩
    exact Or.inr ((initialized_of_inserted hrunId (.bind insertRoots_within fun _ =>
      applySemanticProjection_within) hwork).after
        (hs₁.trans (supplies_of_within recordEvidence_within hevidence)))
  · rw [hfind] at hrest₂
    exact Or.inl (hs₁.trans (supplies_of_within (.bind (.require _ _) fun _ =>
      .bind recordEvidence_within fun _ => requireRoots_within) hrest₂))

/-- A delta that is accepted has found the control row of its run. -/
theorem applyDiscoveryDelta_supplies {delta : DiscoveryDelta} {u : Unit}
    (h : applyDiscoveryDeltaWithProjection env runId delta s = .ok (u, s')) : Supplies s s' := by
  unfold applyDiscoveryDeltaWithProjection at h
  obtain ⟨⟨hrunId, _⟩, hrest₁⟩ := require_bind_eq_ok.mp h
  obtain ⟨_, s₁, hrun, hrest₂⟩ := bind_eq_ok.mp hrest₁
  obtain ⟨_, s₂, hevidence, hrest₃⟩ := bind_eq_ok.mp hrest₂
  obtain ⟨_, s₃, hwork, hrest₄⟩ := bind_eq_ok.mp hrest₃
  obtain ⟨_, s₄, hredirects, hrest₅⟩ := bind_eq_ok.mp hrest₄
  obtain ⟨_, s₅, hprojection, hrest₆⟩ := bind_eq_ok.mp hrest₅
  obtain ⟨_, s₆, hmarks, hrest₇⟩ := bind_eq_ok.mp hrest₆
  obtain ⟨_, s₇, hupdate, hcounts⟩ := bind_eq_ok.mp hrest₇
  obtain ⟨hupdated, hcontrol⟩ := updateControl_spec hupdate
  have hbefore : Within (· = runId) s s₆ := by
    apply Within.of_reflTransGen
    refine (ensureRun_within _ _ _ hrun).trans ?_
    refine (recordEvidence_within _ _ _ hevidence).trans ?_
    refine (upsertWork_within _ _ _ hwork).trans ?_
    refine Relation.ReflTransGen.trans
      (Performs.foldEach (fun _ _ => reconcileRedirect_within) _ _ _ _ _ hredirects) ?_
    exact (applySemanticProjection_within _ _ _ hprojection).trans
      (markInFlightWork_within _ _ _ hmarks)
  have hs₇ : Supplies s s₇ := (hbefore.trans hupdated).mono fun other hother => by
    rw [hother, ← hrunId]
    exact hcontrol
  exact hs₇.trans (supplies_of_within replaceTransitionCounts_within hcounts)

/-! ## Executions and recovery actions -/

theorem validateWorkOwner_within {workReady : CrawlUrlStateRow → Bool}
    {record : CrawlExecutionRecord} {stateId : UrlStateId} {jobId : JobId} {attemptId : AttemptId}
    {generation : ℕ} {now : ℤ} : Performs (Within runs)
      (validateWorkOwner workReady record stateId jobId attemptId generation now) :=
  .of_reads fun _ _ _ h => validateWorkOwner_reads h

/-- Executions are recorded beside the units. -/
theorem persistInTransaction_within {record : CrawlExecutionRecord}
    {lineage : Option ExecutionLineage} :
    Performs (Within runs) (persistInTransaction env record lineage) := by
  refine .of_statement fun s u s' h => ?_
  obtain ⟨executions, _, _, rfl⟩ := persistInTransaction_eq_ok h
  exact .of_same rfl rfl rfl

/-- A unit is advanced within its run. -/
theorem advanceUnit_within {actionJobId : JobId} {stateIds : List UrlStateId}
    {row : CrawlUrlStateRow} :
    Performs (Within runs) (advanceUnit actionJobId runId stateIds row) :=
  .bind (.require _ _) fun _ => .bind (updateUrlStates_within fun _ => rfl) fun _ =>
    .bind (.require _ _) fun _ => .bind .read fun _ => .bind (.orFail _ _) fun _ =>
      .bind (write_within (fun _ => rfl) (fun _ => rfl) fun _ => rfl) fun _ => .pure _

/-- A preparation advances units of its run and records them. -/
theorem prepareRecoveryAction_within {actionJobId : JobId} {attemptId : AttemptId}
    {kind : CrawlRecoveryActionKind} {now : ℤ} : Performs (Within runs)
      (prepareRecoveryAction actionJobId attemptId runId kind now) := by
  refine .bind (.require _ _) fun _ => .bind .read fun s => .bind (.orFail _ _) fun job =>
    .bind (.orFail _ _) fun attempt => .bind (.orFail _ _) fun source => .bind (.require _ _)
      fun _ => .bind (.orFail _ _) fun _ => .bind (.require _ _) fun _ => ?_
  split
  · exact .bind (.require _ _) fun _ => .bind (.bind .read fun _ => .bind (.require _ _)
      fun _ => .bind (.require _ _) fun _ => .pure _) fun _ => .pure _
  · refine .bind (.bind .read fun s => .bind (.orFail _ _) fun _ =>
      .bind (write_within (fun _ => rfl) (fun _ => rfl) fun _ => rfl) fun _ => ?_) fun _ => .pure _
    split
    · exact .pure _
    · exact .foldEach (fun _ _ => advanceUnit_within) _ _

/-- An execution is recorded. -/
theorem persist_within {record : CrawlExecutionRecord} :
    Performs (Within runs) (persist env record) :=
  .bind (.require _ _) fun _ => persistInTransaction_within

/-- The execution of a unit is recorded for the generation it was started in. -/
theorem persistHistoricalWork_within {record : CrawlExecutionRecord} {stateId : UrlStateId}
    {jobId : JobId} {attemptId : AttemptId} {generation : ℕ} {now : ℤ} : Performs (Within runs)
      (persistHistoricalWork env record stateId jobId attemptId generation now) :=
  .bind (.require _ _) fun _ => .bind (.require _ _) fun _ => .bind validateWorkOwner_within
    fun _ => persistInTransaction_within

/-- A unit is activated within its run. -/
theorem activateCurrentWork_within {stateId : UrlStateId} {jobId : JobId} {attemptId : AttemptId}
    {generation : ℕ} {now : ℤ} : Performs (Within runs)
      (activateCurrentWork runId stateId jobId attemptId generation now) :=
  .bind (.require _ _) fun _ =>
    .bind (.of_reads fun _ _ _ h => validateActiveAttemptOwner_reads h) fun _ =>
      .bind (.require _ _) fun _ => .bind (updateUrlStates_within fun _ => rfl) fun _ =>
        .require _ _

/-- The outcome of a unit is stored with its execution. -/
theorem persistCurrentWork_within {record : CrawlExecutionRecord} {stateId : UrlStateId}
    {jobId : JobId} {attemptId : AttemptId} {state : CrawlWorkState} {generation : ℕ} {now : ℤ} :
    Performs (Within runs)
      (persistCurrentWork env record stateId jobId attemptId state generation now) :=
  .bind (.require _ _) fun _ => .bind (.require _ _) fun _ => .bind validateWorkOwner_within
    fun _ => .bind persistInTransaction_within fun _ => .bind .read fun _ =>
      .bind (.require _ _) fun _ => .bind (updateUrlStates_within fun _ => rfl) fun _ =>
        .require _ _

/-! ## Every input -/

/-- The run that an operation initializes, with its checkpoint. -/
def Operation.checkpoint : Operation → Option (CrawlRunId × CheckpointAppend)
  | .initializeRunStateWithCheckpoint runId _ _ checkpoint => some (runId, checkpoint)
  | .initializeRunStateWithCheckpointAndEvidence runId _ _ _ _ checkpoint => some (runId, checkpoint)
  | _ => none

/-- What an operation does outside the units: it supplies control rows, and then it may
append the checkpoint of its initialization. -/
theorem apply_supplies (env : Environment) (s : TraversalStore) (op : Operation) :
    Supplies s (apply env s op) ∨ ∃ runId checkpoint, op.checkpoint = some (runId, checkpoint) ∧
      Initialized s (apply env s op) runId checkpoint := by
  -- only two of the operations append a checkpoint
  cases op with
  | initializeRunState runId roots control =>
    exact Or.inl (commit_supplies fun _ _ h => initializeRunState_supplies h)
  | initializeRunStateWithCheckpoint runId roots control checkpoint =>
    rcases h : initializeRunStateWithCheckpoint env runId roots control checkpoint s with
      e | ⟨u, s'⟩
    · exact Or.inl (commit_supplies fun _ _ h' => by rw [h] at h'; cases h')
    · refine Or.inr ⟨runId, checkpoint, rfl, ?_⟩
      rw [show apply env s (.initializeRunStateWithCheckpoint runId roots control checkpoint) = s'
        from congrArg Prod.snd (commit_of_ok h)]
      exact initializeRunStateWithCheckpoint_initialized h
  | initializeRunStateWithCheckpointAndEvidence runId roots evidence control projection checkpoint =>
    rcases h : initializeRunStateWithCheckpointAndEvidence env runId roots evidence control
      projection checkpoint s with e | ⟨u, s'⟩
    · exact Or.inl (commit_supplies fun _ _ h' => by rw [h] at h'; cases h')
    · rw [show apply env s (.initializeRunStateWithCheckpointAndEvidence runId roots evidence control
        projection checkpoint) = s' from congrArg Prod.snd (commit_of_ok h)]
      exact (initializeRunStateWithCheckpointAndEvidence_initialized h).imp_right
        fun hinitialized => ⟨runId, checkpoint, rfl, hinitialized⟩
  | applyDiscoveryDelta runId work control counts =>
    exact Or.inl (commit_supplies fun _ _ h => applyDiscoveryDelta_supplies h)
  | applyDiscoveryDeltaWithEvidence runId evidence work control counts =>
    exact Or.inl (commit_supplies fun _ _ h => applyDiscoveryDelta_supplies h)
  | applyDiscoveryDeltaWithProjection runId delta =>
    exact Or.inl (commit_supplies fun _ _ h => applyDiscoveryDelta_supplies h)
  | replaceTransitionSourceCounts runId counts =>
    exact Or.inl (commit_supplies fun _ _ h => supplies_of_within
      (.bind ensureRun_within fun _ => replaceTransitionCounts_within) h)
  | prepareRecoveryAction actionJobId actionAttemptId runId kind now =>
    exact Or.inl (commit_supplies fun _ _ h => supplies_of_within prepareRecoveryAction_within h)
  | persist record =>
    exact Or.inl (commit_supplies fun _ _ h => supplies_of_within persist_within h)
  | persistCurrentWork record stateId jobId attemptId state generation now =>
    exact Or.inl (commit_supplies fun _ _ h => supplies_of_within persistCurrentWork_within h)
  | activateCurrentWork runId stateId jobId attemptId generation now =>
    exact Or.inl (commit_supplies fun _ _ h => supplies_of_within activateCurrentWork_within h)
  | persistHistoricalWork record stateId jobId attemptId generation now =>
    exact Or.inl (commit_supplies fun _ _ h => supplies_of_within persistHistoricalWork_within h)

/-- The control rows and the controlled units survive an initialization as well. -/
theorem Initialized.kept {checkpoint : CheckpointAppend} (h : Initialized s s' runId checkpoint) :
    (∀ other, (s.controls.find? other).isSome → (s'.controls.find? other).isSome) ∧
      (Controlled s → Controlled s') := by
  obtain ⟨s₁, hsupplies, hrest⟩ := h.supplies
  rw [hrest]
  exact ⟨hsupplies.controls, fun hs => hsupplies.controlled hs⟩

theorem step_controls (s : TraversalStore) (input : Input) (runId : CrawlRunId)
    (h : (s.controls.find? runId).isSome) : ((step s input).controls.find? runId).isSome := by
  cases input with
  | queue input => exact h
  | operation env op =>
    rcases apply_supplies env s op with hsupplies | ⟨_, _, _, hinitialized⟩
    · exact hsupplies.controls runId h
    · exact hinitialized.kept.1 runId h

/-- **Every step** keeps a control row for every run with units. -/
theorem step_controlled (s : TraversalStore) (input : Input) (hs : Controlled s) :
    Controlled (step s input) := by
  cases input with
  | queue input => exact hs
  | operation env op =>
    rcases apply_supplies env s op with hsupplies | ⟨_, _, _, hinitialized⟩
    · exact hsupplies.controlled hs
    · exact hinitialized.kept.2 hs

end Erabi.Traversal
