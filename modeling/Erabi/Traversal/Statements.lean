/-
# What one statement does to the logical work

Every transaction of the two repositories is a sequence of statements.  Apart from
writes elsewhere, a statement inserts a unit, revises units in one of six ways, or
appends an execution; the invariants of runs only look at these.
-/
import Mathlib
import Erabi.Traversal.Execution

namespace Erabi.Traversal

open Relational Transaction Queue

/-! ## Revisions and statements -/

/-- The items an action has recorded. -/
def itemsOf (s : TraversalStore) (a : JobId) : List CrawlRecoveryActionItem :=
  s.recoveryActionItems.select fun item => item.actionJobId = a

/-- The columns that say who a unit is, where it resolves to and how far it got. -/
structure SameWork (row row' : CrawlUrlStateRow) : Prop where
  id : row'.id = row.id
  crawlRunId : row'.crawlRunId = row.crawlRunId
  canonicalUrl : row'.canonicalUrl = row.canonicalUrl
  admissionState : row'.admissionState = row.admissionState
  resolvedToUrlStateId : row'.resolvedToUrlStateId = row.resolvedToUrlStateId
  currentWorkState : row'.currentWorkState = row.currentWorkState
  workGeneration : row'.workGeneration = row.workGeneration
  currentExecutionId : row'.currentExecutionId = row.currentExecutionId
  seen : row'.seen = row.seen

/-- A requested URL that passed the validation of its record. -/
def validRequest (url : String) : Bool := !url.isEmpty && url.utf8ByteSize ≤ maxUrlChars

/-- What a statement makes of one unit. -/
inductive Revises (s : TraversalStore) (row : CrawlUrlStateRow) : CrawlUrlStateRow → Prop
  /-- Provenance, the place in the queue and the semantic columns. -/
  | annotates {row'} : SameWork row row' →
      row'.requestedUrl = row.requestedUrl ∨ validRequest row'.requestedUrl = true →
      Revises s row row'
  | resolves {redirect : CrawlRedirectReconciliation} {target : CrawlUrlStateRow} :
      row.admissionState = .admitted → target ∈ s.urlStates.rows →
      target.admissionState = .admitted → target.id = redirect.finalUrlStateId →
      target.id ≠ row.id → Revises s row (resolvedTo redirect row)
  | marks : row.admissionState = .admitted → unfinished row = true →
      Revises s row { row with currentWorkState := some .running }
  | activates : row.admissionState = .admitted →
      Revises s row { row with currentWorkState := some .running, currentExecutionId := none }
  | advances : row.admissionState = .admitted →
      Revises s row { row with
        workGeneration := row.workGeneration + 1
        currentWorkState := some .pending
        currentExecutionId := none }
  | finishes {execution : CrawlExecutionRow} {state : CrawlWorkState} :
      row.admissionState = .admitted → execution ∈ s.executions.rows →
      executionMatches row.crawlRunId row.id row.workGeneration execution = true →
      outcomeMatchesWorkState execution.outcome state = true →
      Revises s row { row with
        currentWorkState := some state, currentExecutionId := some execution.id }

/-- The predicate of a statement selects one unit at most. -/
def PinsOne (s : TraversalStore) (p : CrawlUrlStateRow → Bool) : Prop :=
  ∀ a ∈ s.urlStates.rows, ∀ b ∈ s.urlStates.rows, p a = true → p b = true → a = b

/-- A condition on the identifier pins one row. -/
theorem PinsOne.of_id {s : TraversalStore} {p : CrawlUrlStateRow → Bool}
    (h : ∀ a b, p a = true → p b = true → a.id = b.id) : PinsOne s p :=
  fun a ha b hb hpa hpb => s.urlStates.table.eq_of_key_eq ha hb (h a b hpa hpb)

theorem eq_of_distinct {s : TraversalStore} {a b : CrawlUrlStateRow} (ha : a ∈ s.urlStates.rows)
    (hb : b ∈ s.urlStates.rows) (hrun : a.crawlRunId = b.crawlRunId)
    (hclash : ¬ (a.canonicalUrl ≠ b.canonicalUrl ∧
      ∀ sequence ∈ a.admissionSequence, b.admissionSequence ≠ some sequence)) : a = b := by
  by_contra hne
  have hsymm : ∀ x y : CrawlUrlStateRow, x.distinct y → y.distinct x := by
    intro x y hxy hyx
    obtain ⟨hcanonical, hsequence⟩ := hxy hyx.symm
    refine ⟨fun h => hcanonical h.symm, fun sequence hy hx => ?_⟩
    exact hsequence sequence hx (Option.mem_def.mp hy)
  have : Std.Symm CrawlUrlStateRow.distinct := ⟨hsymm⟩
  exact hclash (s.urlStates.holds.distinct.forall ha hb hne hrun)

/-- A condition on run and canonical URL pins one row. -/
theorem PinsOne.of_canonicalUrl {s : TraversalStore} {p : CrawlUrlStateRow → Bool}
    (h : ∀ a b, p a = true → p b = true →
      a.crawlRunId = b.crawlRunId ∧ a.canonicalUrl = b.canonicalUrl) : PinsOne s p :=
  fun a ha b hb hpa hpb => eq_of_distinct ha hb (h a b hpa hpb).1 fun hdistinct =>
    hdistinct.1 (h a b hpa hpb).2

/-- One statement.  New units satisfy `new`, and only the actions in `recorded` are
recorded. -/
inductive Writes (new : CrawlUrlStateRecord → Prop) (recorded : JobId → Prop) :
    TraversalStore → TraversalStore → Prop
  | elsewhere {s s' : TraversalStore} : s'.urlStates = s.urlStates →
      s'.executions = s.executions →
      (∀ a, ¬ recorded a → s'.recoveryActions.find? a = s.recoveryActions.find? a ∧
        itemsOf s' a = itemsOf s a) →
      Writes new recorded s s'
  | inserts {s : TraversalStore} {state : CrawlUrlStateRecord}
      {urlStates : Constrained CrawlUrlStateRow UrlStateId CrawlUrlStateRow.id UrlStateSchema} :
      new state → state.validateState = true →
      (∀ target ∈ state.resolvedToUrlStateId, target ≠ state.id) →
      (∀ executionId ∈ state.currentExecutionId, ∃ execution ∈ s.executions.rows,
        execution.id = executionId ∧
          executionMatches state.crawlRunId state.id state.workGeneration execution = true) →
      s.urlStates.table.insert? state.row = some urlStates.table →
      Writes new recorded s { s with urlStates }
  | revises {s : TraversalStore} {p : CrawlUrlStateRow → Bool}
      {f : CrawlUrlStateRow → CrawlUrlStateRow} {hf : ∀ row, (f row).id = row.id}
      {urlStates : Constrained CrawlUrlStateRow UrlStateId CrawlUrlStateRow.id UrlStateSchema} :
      urlStates.table = s.urlStates.table.update p f hf → PinsOne s p →
      (∀ row ∈ s.urlStates.rows, p row = true → Revises s row (f row)) →
      Writes new recorded s { s with urlStates }
  | appends {s : TraversalStore} {execution : CrawlExecutionRow}
      {executions : Table CrawlExecutionRow CrawlExecutionId fun row => row.id} :
      s.executions.insert? execution = some executions →
      (∀ lineage ∈ execution.lineage,
        (selectById s execution.crawlRunId lineage.crawlUrlStateId).any
          (fun row => row.workGeneration = lineage.workGeneration) = true) →
      Writes new recorded s { s with executions }

section Statements

variable {new : CrawlUrlStateRecord → Prop} {recorded : JobId → Prop}
  {s s' : TraversalStore} {env : Environment} {runId : CrawlRunId} {α : Type} {ε : Type}

/-- A statement that leaves the logical work, the executions and the actions alone. -/
structure Beside (s s' : TraversalStore) : Prop where
  urlStates : s'.urlStates = s.urlStates
  executions : s'.executions = s.executions
  recoveryActions : s'.recoveryActions = s.recoveryActions
  recoveryActionItems : s'.recoveryActionItems = s.recoveryActionItems

/-- What happens beside the units writes none. -/
theorem Beside.writes (h : Beside s s') : Writes new recorded s s' :=
  .elsewhere h.urlStates h.executions fun a _ => by
    rw [h.recoveryActions, itemsOf, itemsOf, h.recoveryActionItems]
    exact ⟨rfl, rfl⟩

/-- Statements beside the units, one after another. -/
theorem Beside.of_reflTransGen (h : Relation.ReflTransGen Beside s s') : Beside s s' := by
  induction h with
  | refl => exact ⟨rfl, rfl, rfl, rfl⟩
  | tail _ hstep ih =>
    exact ⟨hstep.urlStates.trans ih.urlStates, hstep.executions.trans ih.executions,
      hstep.recoveryActions.trans ih.recoveryActions,
      hstep.recoveryActionItems.trans ih.recoveryActionItems⟩

/-- What performs statements beside the units writes none. -/
theorem performs_of_beside {x : Transaction TraversalStore ε α} (hx : Performs Beside x) :
    Performs (Writes new recorded) x := hx.mono fun _ _ h => h.writes

/-- Fewer restrictions on what is recorded. -/
theorem Writes.mono {recorded' : JobId → Prop} (h : Writes new recorded s s')
    (hmono : ∀ a, recorded a → recorded' a) : Writes new recorded' s s' := by
  cases h with
  | elsewhere hstates hexecutions hactions =>
    exact .elsewhere hstates hexecutions fun a ha => hactions a fun hr => ha (hmono a hr)
  | inserts hnew hvalid htarget hexecution hinsert =>
    exact .inserts hnew hvalid htarget hexecution hinsert
  | revises htable hone hrevises => exact .revises htable hone hrevises
  | appends hinsert hlineage => exact .appends hinsert hlineage

/-! ## Setting and updating units -/

/-- A table of units is stored when it is well formed. -/
theorem setUrlStates_eq_ok {refused : ε} {u : Unit}
    {table : Table CrawlUrlStateRow UrlStateId CrawlUrlStateRow.id} :
    setUrlStates refused table s = .ok (u, s') ↔
      ∃ urlStates, urlStates.table = table ∧ s' = { s with urlStates } := by
  unfold setUrlStates
  rw [orFail_bind_eq_ok]
  constructor
  · rintro ⟨urlStates, hcommit, h⟩
    cases h
    exact ⟨urlStates, Constrained.commit?_eq_some.mp hcommit, rfl⟩
  · rintro ⟨urlStates, htable, rfl⟩
    exact ⟨urlStates, Constrained.commit?_eq_some.mpr htable, rfl⟩

/-- An update is stored when the table stays well formed. -/
theorem updateUrlStates_eq_ok {refused : ε} {p : CrawlUrlStateRow → Bool}
    {f : CrawlUrlStateRow → CrawlUrlStateRow} {hf : ∀ row, (f row).id = row.id} {n : ℕ} :
    updateUrlStates refused p f hf s = .ok (n, s') ↔ n = s.urlStates.table.changed p ∧
      ∃ urlStates, urlStates.table = s.urlStates.table.update p f hf ∧
        s' = { s with urlStates } := by
  unfold updateUrlStates
  rw [read_bind, bind_eq_ok]
  constructor
  · rintro ⟨_, s₁, hset, h⟩
    cases h
    exact ⟨rfl, setUrlStates_eq_ok.mp hset⟩
  · rintro ⟨rfl, hset⟩
    exact ⟨(), s', setUrlStates_eq_ok.mpr hset, rfl⟩

theorem updateUrlStates_performs {refused : ε} {p : CrawlUrlStateRow → Bool}
    {f : CrawlUrlStateRow → CrawlUrlStateRow} {hf : ∀ row, (f row).id = row.id}
    (hone : ∀ s, PinsOne s p) (hrevises : ∀ s row, p row = true → Revises s row (f row)) :
    Performs (Writes new recorded) (updateUrlStates refused p f hf) := by
  refine .of_statement fun s n s' h => ?_
  obtain ⟨_, urlStates, htable, rfl⟩ := updateUrlStates_eq_ok.mp h
  exact .revises htable (hone s) fun row _ hp => hrevises s row hp

/-! ## Validation and provenance -/

/-- A named unit is another one of the run. -/
theorem requireSameRunState_eq_ok {self : UrlStateId} {id : Option UrlStateId} {u : Unit} :
    requireSameRunState runId self id s = .ok (u, s') ↔
      (∀ other ∈ id, other ≠ self ∧ (selectById s runId other).isSome) ∧ s' = s := by
  unfold requireSameRunState
  rw [read_bind, require_eq_ok]

/-- What the validation of a record against the store has checked. -/
theorem validateStateOwnership_eq_ok {state : CrawlUrlStateRecord} {u : Unit}
    (h : validateStateOwnership env state runId s = .ok (u, s')) :
    s' = s ∧ (∀ target ∈ state.resolvedToUrlStateId, target ≠ state.id) ∧
      ∀ executionId ∈ state.currentExecutionId, ∃ execution ∈ s.executions.rows,
        execution.id = executionId ∧
          executionMatches runId state.id state.workGeneration execution = true := by
  unfold validateStateOwnership at h
  simp only [require_bind_eq_ok, read_bind] at h
  obtain ⟨_, _, _, _, _, _, h⟩ := h
  unfold validateStateRelationships requireSameRunDiscovery at h
  obtain ⟨_, s₁, hfirst, hrest₁⟩ := bind_eq_ok.mp h
  rw [read_bind, require_eq_ok] at hfirst
  obtain ⟨_, rfl⟩ := hfirst
  obtain ⟨_, s₂, hparent, hrest₂⟩ := bind_eq_ok.mp hrest₁
  rw [read_bind, require_eq_ok] at hparent
  obtain ⟨_, rfl⟩ := hparent
  obtain ⟨_, s₃, hstate, hrest₃⟩ := bind_eq_ok.mp hrest₂
  obtain ⟨_, rfl⟩ := requireSameRunState_eq_ok.mp hstate
  obtain ⟨_, s₄, htarget, hrest₄⟩ := bind_eq_ok.mp hrest₃
  obtain ⟨htarget, rfl⟩ := requireSameRunState_eq_ok.mp htarget
  rw [read_bind, require_eq_ok] at hrest₄
  refine ⟨hrest₄.2, fun target ht => (htarget target ht).1, fun executionId he => ?_⟩
  obtain ⟨execution, hfind, hmatches⟩ := (Option.any_eq_true _ _).mp (hrest₄.1 executionId he).2
  obtain ⟨hmem, hid⟩ := Table.find?_eq_some.mp hfind
  exact ⟨execution, hmem, hid, hmatches⟩

/-- The checks on a record write nothing. -/
theorem validateStateOwnership_performs {state : CrawlUrlStateRecord} :
    Performs (Writes new recorded) (validateStateOwnership env state runId) :=
  .of_reads fun _ _ _ h => (validateStateOwnership_eq_ok h).1

theorem insertSeedProvenance_beside {id : UrlStateId} {seedIds : List String} :
    Performs Beside (insertSeedProvenance env runId id seedIds) := by
  refine .foldEach (fun _ seedId => .bind (.require _ _) fun _ => .bind .read fun s => ?_) _ _
  split
  · exact .pure _
  · exact .bind (.orFail _ _) fun _ => .write fun _ => ⟨rfl, rfl, rfl, rfl⟩

theorem appendSeedProvenance_beside {row : CrawlUrlStateRow} {seedIds : List String} :
    Performs Beside (appendSeedProvenance env row seedIds) :=
  .bind .read fun _ => insertSeedProvenance_beside

/-- Provenance is kept in a table of its own. -/
theorem insertSeedProvenance_urlStates {id : UrlStateId} {seedIds : List String} {u : Unit}
    (h : insertSeedProvenance env runId id seedIds s = .ok (u, s')) :
    s'.urlStates = s.urlStates :=
  (Beside.of_reflTransGen (insertSeedProvenance_beside s u s' h)).urlStates

/-- Provenance leaves the units. -/
theorem appendSeedProvenance_urlStates {row : CrawlUrlStateRow} {seedIds : List String} {u : Unit}
    (h : appendSeedProvenance env row seedIds s = .ok (u, s')) : s'.urlStates = s.urlStates :=
  (Beside.of_reflTransGen (appendSeedProvenance_beside s u s' h)).urlStates

/-! ## Inserting and merging units -/

theorem insertState_performs {state : CrawlUrlStateRecord} (hnew : new state) :
    Performs (Writes new recorded) (insertState env state) := by
  intro s _ s' h
  unfold insertState at h
  obtain ⟨hvalid, hrest₁⟩ := require_bind_eq_ok.mp h
  obtain ⟨_, s₁, howner, hrest₂⟩ := bind_eq_ok.mp hrest₁
  obtain ⟨rfl, htarget, hexecution⟩ := validateStateOwnership_eq_ok howner
  obtain ⟨_, hrest₃⟩ := require_bind_eq_ok.mp hrest₂
  obtain ⟨_, hrest₄⟩ := require_bind_eq_ok.mp hrest₃
  rw [read_bind] at hrest₄
  obtain ⟨table, hinsert, hrest₅⟩ := orFail_bind_eq_ok.mp hrest₄
  obtain ⟨_, s₂, hset, hseeds⟩ := bind_eq_ok.mp hrest₅
  obtain ⟨urlStates, htable, rfl⟩ := setUrlStates_eq_ok.mp hset
  refine .head (.inserts hnew hvalid htarget hexecution ?_)
    (performs_of_beside insertSeedProvenance_beside _ _ _ hseeds)
  rw [htable]
  exact hinsert

/-- A merge revises its unit. -/
theorem mergedState_revises (state : CrawlUrlStateRecord) (hvalid : state.validateState = true)
    (s : TraversalStore) (row : CrawlUrlStateRow) : Revises s row (mergedState state row) := by
  unfold mergedState
  split
  · refine .annotates ⟨rfl, rfl, rfl, rfl, rfl, rfl, rfl, rfl, rfl⟩ (Or.inr ?_)
    simp only [CrawlUrlStateRow.validateState, Bool.and_eq_true, decide_eq_true_eq] at hvalid
    simp only [validRequest, Bool.and_eq_true, decide_eq_true_eq]
    exact ⟨hvalid.1.1.1.1.1.2, hvalid.1.1.1.1.2⟩
  · exact .annotates ⟨rfl, rfl, rfl, rfl, rfl, rfl, rfl, rfl, rfl⟩ (Or.inl rfl)

theorem upsertDiscoveryState_performs {state : CrawlUrlStateRecord} (hnew : new state) :
    Performs (Writes new recorded) (upsertDiscoveryState env state) := by
  intro s u s' h
  unfold upsertDiscoveryState at h
  obtain ⟨hvalid, h⟩ := require_bind_eq_ok.mp h
  revert h
  refine Performs.bind validateStateOwnership_performs (fun _ => .bind .read fun s => ?_) s u s'
  split
  · exact insertState_performs hnew
  · refine .bind (.require _ _) fun _ => .bind (.require _ _) fun _ => .bind (.require _ _) fun _ =>
      .bind (.require _ _) fun _ => .bind (updateUrlStates_performs
        (fun s => .of_id fun a b ha hb => ?_) fun s row _ => mergedState_revises state hvalid s row)
          fun _ => performs_of_beside insertSeedProvenance_beside
    simp only [Bool.and_eq_true, decide_eq_true_eq] at ha hb
    exact ha.1.trans hb.1.symm

/-- Work is written unit by unit. -/
theorem upsertWork_performs {work : List CrawlUrlStateRecord} (hnew : ∀ state ∈ work, new state) :
    Performs (Writes new recorded) (upsertWork env runId work) := by
  unfold upsertWork
  induction work with
  | nil => exact .pure _
  | cons state work ih =>
    refine .bind (.bind validateStateOwnership_performs fun _ => upsertDiscoveryState_performs
      (hnew state List.mem_cons_self)) fun _ => ih fun other hother => ?_
    exact hnew other (List.mem_cons_of_mem state hother)

/-- Roots are written unit by unit. -/
theorem insertRoots_performs {roots : List CrawlUrlStateRecord} (hnew : ∀ root ∈ roots, new root) :
    Performs (Writes new recorded) (insertRoots env runId roots) := by
  unfold insertRoots
  induction roots with
  | nil => exact .pure _
  | cons root roots ih =>
    refine .bind (.bind validateStateOwnership_performs fun _ => insertState_performs
      (hnew root List.mem_cons_self)) fun _ => ih fun other hother => ?_
    exact hnew other (List.mem_cons_of_mem root hother)

/-! ## Redirects -/

/-- A unit found by its canonical URL. -/
theorem selectByCanonical_eq_some {url : String} {row : CrawlUrlStateRow}
    (h : selectByCanonical s runId url = some row) :
    row ∈ s.urlStates.rows ∧ row.crawlRunId = runId ∧ row.canonicalUrl = url := by
  have hfound := List.find?_some h
  rw [Bool.and_eq_true, decide_eq_true_eq, decide_eq_true_eq] at hfound
  exact ⟨List.mem_of_find?_eq_some h, hfound⟩

/-- A unit found by its identifier. -/
theorem selectById_eq_some {id : UrlStateId} {row : CrawlUrlStateRow} :
    selectById s runId id = some row ↔ s.urlStates.find? id = some row ∧ row.crawlRunId = runId := by
  rw [selectById, Option.filter_eq_some_iff, decide_eq_true_eq]

/-- An update is one statement. -/
theorem revises_of_update {p : CrawlUrlStateRow → Bool} {f : CrawlUrlStateRow → CrawlUrlStateRow}
    {hf : ∀ row, (f row).id = row.id} {refused : ε} {n : ℕ}
    (h : updateUrlStates refused p f hf s = .ok (n, s')) (hone : PinsOne s p)
    (hrevises : ∀ row ∈ s.urlStates.rows, p row = true → Revises s row (f row)) :
    Writes new recorded s s' := by
  obtain ⟨_, urlStates, htable, rfl⟩ := updateUrlStates_eq_ok.mp h
  exact .revises htable hone hrevises

/-- The insertion of a unit, without the provenance that follows it. -/
theorem insertState_inserts {state : CrawlUrlStateRecord} {u : Unit}
    (h : insertState env state s = .ok (u, s')) :
    s.urlStates.table.insert? state.row = some s'.urlStates.table := by
  unfold insertState at h
  obtain ⟨_, hrest₁⟩ := require_bind_eq_ok.mp h
  obtain ⟨_, s₁, howner, hrest₂⟩ := bind_eq_ok.mp hrest₁
  obtain ⟨rfl, _⟩ := validateStateOwnership_eq_ok howner
  obtain ⟨_, hrest₃⟩ := require_bind_eq_ok.mp hrest₂
  obtain ⟨_, hrest₄⟩ := require_bind_eq_ok.mp hrest₃
  rw [read_bind] at hrest₄
  obtain ⟨table, hinsert, hrest₅⟩ := orFail_bind_eq_ok.mp hrest₄
  obtain ⟨_, s₂, hset, hseeds⟩ := bind_eq_ok.mp hrest₅
  obtain ⟨urlStates, htable, rfl⟩ := setUrlStates_eq_ok.mp hset
  rw [insertSeedProvenance_urlStates hseeds, htable]
  exact hinsert

/-- The unit of a final URL that was never seen is refused: it would take the
admission sequence that its alias still has. -/
theorem finalStateOf_refused {redirect : CrawlRedirectReconciliation}
    {aliasState : CrawlUrlStateRow} {seeds : List String}
    (hmem : aliasState ∈ s.urlStates.rows) (hadmitted : aliasState.admissionState = .admitted) :
    insertState env (finalStateOf redirect aliasState seeds) s ≠ .ok ((), s') := by
  intro h
  have hinsert := insertState_inserts h
  have hfresh := Table.find?_eq_none.mp (Table.insert?_eq_some.mp hinsert).1 aliasState hmem
  have hchecked := s.urlStates.holds.checked aliasState hmem
  simp only [CrawlUrlStateRow.checked, CrawlUrlStateRow.shape, hadmitted, Bool.and_eq_true]
    at hchecked
  obtain ⟨sequence, hsequence⟩ := Option.isSome_iff_exists.mp hchecked.2.1.1.2
  refine hfresh (congrArg CrawlUrlStateRow.id (eq_of_distinct (s := s') ?_ ?_ rfl fun hdistinct => ?_))
  · exact (Table.mem_insert hinsert).mpr (Or.inl hmem)
  · exact (Table.mem_insert hinsert).mpr (Or.inr rfl)
  · exact hdistinct.2 sequence hsequence hsequence

/-- A redirect is reconciled with an admitted unit that exists already. -/
theorem provideFinalState_spec {redirect : CrawlRedirectReconciliation}
    {aliasState : CrawlUrlStateRow} {u : Unit} (hmem : aliasState ∈ s.urlStates.rows)
    (hadmitted : aliasState.admissionState = .admitted)
    (hurl : aliasState.canonicalUrl ≠ redirect.finalCanonicalUrl)
    (h : provideFinalState env runId redirect aliasState s = .ok (u, s')) :
    Relation.ReflTransGen (Writes new recorded) s s' ∧ s'.urlStates = s.urlStates ∧
      ∃ target ∈ s.urlStates.rows, target.admissionState = .admitted ∧
        target.id = redirect.finalUrlStateId ∧ target.id ≠ aliasState.id := by
  unfold provideFinalState at h
  rw [read_bind] at h
  rcases hfind : selectByCanonical s runId redirect.finalCanonicalUrl with _ | finalState
  · rw [hfind] at h
    exact absurd h (finalStateOf_refused hmem hadmitted)
  · rw [hfind] at h
    obtain ⟨_, hrest₁⟩ := require_bind_eq_ok.mp h
    obtain ⟨⟨hid, hfinal⟩, hseeds⟩ := require_bind_eq_ok.mp hrest₁
    obtain ⟨hfinalMem, _, hfinalUrl⟩ := selectByCanonical_eq_some hfind
    refine ⟨performs_of_beside appendSeedProvenance_beside _ _ _ hseeds,
      appendSeedProvenance_urlStates hseeds,
      finalState, hfinalMem, hfinal, hid, fun hsame => ?_⟩
    rw [s.urlStates.table.eq_of_key_eq hfinalMem hmem hsame] at hfinalUrl
    exact hurl hfinalUrl

theorem reconcileRedirect_performs {redirect : CrawlRedirectReconciliation} :
    Performs (Writes new recorded) (reconcileRedirect env runId redirect) := by
  intro s u s' h
  unfold reconcileRedirect at h
  obtain ⟨⟨_, _, hurls, _, _⟩, hrest₁⟩ := require_bind_eq_ok.mp h
  rw [read_bind] at hrest₁
  obtain ⟨aliasState, hfind, hrest₂⟩ := orFail_bind_eq_ok.mp hrest₁
  obtain ⟨_, hrest₃⟩ := require_bind_eq_ok.mp hrest₂
  obtain ⟨_, hrest₄⟩ := require_bind_eq_ok.mp hrest₃
  obtain ⟨hmem, _, hurl⟩ := selectByCanonical_eq_some hfind
  rcases hadmitted : aliasState.admissionState with _ | _ | _
  · rw [hadmitted] at hrest₄
    obtain ⟨_, s₁, hprovide, hrest₅⟩ := bind_eq_ok.mp hrest₄
    obtain ⟨hwrites, hkept, target, htarget, hfinal, hid, hne⟩ :=
      provideFinalState_spec hmem hadmitted (hurl ▸ hurls) hprovide
    rw [← hkept] at htarget
    obtain ⟨n, s₂, hupdate, hrest₆⟩ := bind_eq_ok.mp hrest₅
    obtain ⟨_, rfl⟩ := require_eq_ok.mp hrest₆
    refine hwrites.tail (revises_of_update hupdate (.of_id fun a b ha hb => ?_) fun row _ hp => ?_)
    · simp only [Bool.and_eq_true, decide_eq_true_eq] at ha hb
      exact ha.1.1.trans hb.1.1.symm
    simp only [Bool.and_eq_true, decide_eq_true_eq] at hp
    exact .resolves hp.2 htarget hfinal hid (hp.1.1 ▸ hne)
  · rw [hadmitted] at hrest₄
    cases hrest₄
  · rw [hadmitted] at hrest₄
    obtain ⟨_, rfl⟩ := require_eq_ok.mp hrest₄
    exact .refl

/-! ## Projection, marks, control and evidence -/

/-- A projection is written unit by unit. -/
theorem applySemanticProjection_performs {projection : CrawlTraversalSemanticProjection} :
    Performs (Writes new recorded) (applySemanticProjection env runId projection) := by
  unfold applySemanticProjection
  split
  · exact .pure _
  · refine .bind (.foldEach (fun _ value => ?_) _ _) fun _ => .bind .read fun _ =>
      .bind (.require _ _) fun _ => .bind (.write fun _ => Beside.writes ⟨rfl, rfl, rfl, rfl⟩)
        fun _ => .bind (.foldEach (fun _ _ => ?_) _ _) fun _ => .pure _
    · refine .bind (.require _ _) fun _ => .bind (.require _ _) fun _ => .bind (.require _ _)
        fun _ => .bind (updateUrlStates_performs (fun s => .of_canonicalUrl fun a b ha hb => ?_)
          fun s row _ => .annotates ⟨rfl, rfl, rfl, rfl, rfl, rfl, rfl, rfl, rfl⟩ (Or.inl rfl))
            fun _ => .bind (.require _ _) fun _ => .pure _
      simp only [Bool.and_eq_true, decide_eq_true_eq] at ha hb
      exact ⟨ha.1.1.trans hb.1.1.symm, ha.1.2.trans hb.1.2.symm⟩
    · exact .bind (.require _ _) fun _ => .bind (.require _ _) fun _ => .bind (.require _ _)
        fun _ => .bind .read fun _ => .bind (.orFail _ _) fun _ =>
          .bind (.write fun _ => Beside.writes ⟨rfl, rfl, rfl, rfl⟩) fun _ => .pure _

/-- Work in flight is marked unit by unit. -/
theorem markInFlightWork_performs {inFlightWork : List CrawlInFlightWork} :
    Performs (Writes new recorded) (markInFlightWork runId inFlightWork) := by
  refine .bind (.foldEach (fun stateIds work => ?_) _ _) fun _ => .pure _
  refine .bind (.require _ _) fun _ => .bind .read fun _ => .bind (.orFail _ _) fun row =>
    .bind (.require _ _) fun _ => ?_
  split
  · exact .pure _
  · refine .bind (.require _ _) fun _ => .bind (updateUrlStates_performs
      (fun s => .of_id fun a b ha hb => ?_) fun s row hp => ?_) fun _ => .bind (.require _ _)
        fun _ => .pure _
    · simp only [Bool.and_eq_true, decide_eq_true_eq] at ha hb
      exact ha.1.1.1.2.trans hb.1.1.1.2.symm
    · simp only [Bool.and_eq_true, decide_eq_true_eq] at hp
      exact .marks hp.1.1.2 hp.2

theorem insertControl_beside {control : CrawlTraversalControl} :
    Performs Beside (insertControl control) :=
  .bind (.require _ _) fun _ => .bind .read fun _ => .bind (.orFail _ _) fun _ =>
    .write fun _ => ⟨rfl, rfl, rfl, rfl⟩

theorem updateControl_beside {control : CrawlTraversalControl} :
    Performs Beside (updateControl control) :=
  .bind (.require _ _) fun _ => .bind .read fun _ => .bind (.require _ _) fun _ =>
    .write fun _ => ⟨rfl, rfl, rfl, rfl⟩

theorem replaceTransitionCounts_beside {counts : List CrawlTransitionSourceCount} :
    Performs Beside (replaceTransitionCounts env runId counts) :=
  .bind .read fun _ => .bind (.require _ _) fun _ =>
    .bind (.write fun _ => ⟨rfl, rfl, rfl, rfl⟩) fun _ => .foldEach (fun _ _ =>
      .bind (.require _ _) fun _ => .bind .read fun _ => .bind (.orFail _ _) fun _ =>
        .write fun _ => ⟨rfl, rfl, rfl, rfl⟩) _ _

theorem recordEvidence_beside {evidence : List DiscoveredUrlRecord} :
    Performs Beside (recordEvidence env evidence) := by
  refine .foldEach (fun _ record => .bind (.require _ _) fun _ => .bind .read fun s => ?_) _ _
  split
  · exact .require _ _
  · exact .bind (.require _ _) fun _ => .bind (.orFail _ _) fun _ =>
      .write fun _ => ⟨rfl, rfl, rfl, rfl⟩

theorem appendCheckpointInTransaction_beside {checkpoint : CheckpointAppend} :
    Performs Beside (appendCheckpointInTransaction checkpoint) := by
  refine .bind (.bind .read fun s => ?_) fun _ => .pure _
  split
  · exact .bind (.write fun _ => ⟨rfl, rfl, rfl, rfl⟩) fun _ => .pure _
  · exact .fail _

theorem requireRoots_performs {roots : List CrawlUrlStateRecord} :
    Performs (Writes new recorded) (requireRoots runId roots) :=
  .foldEach (fun _ _ => .bind .read fun _ => .bind (.orFail _ _) fun _ =>
    .bind (.require _ _) fun _ => .require _ _) _ _

theorem ensureRun_performs : Performs (Writes new recorded) (ensureRun runId) :=
  .bind .read fun _ => .require _ _

/-! ## Initialization and discovery deltas -/

/-- Initialization writes the roots. -/
theorem initializeRunState_performs {roots : List CrawlUrlStateRecord}
    {control : CrawlTraversalControl} (hnew : ∀ root ∈ roots, new root) :
    Performs (Writes new recorded) (initializeRunState env runId roots control) := by
  refine .bind (.require _ _) fun _ => .bind ensureRun_performs fun _ => .bind .read fun s => ?_
  split
  · exact .bind (.require _ _) fun _ => requireRoots_performs
  · exact .bind (performs_of_beside insertControl_beside) fun _ => insertRoots_performs hnew

theorem initializeRunStateWithCheckpoint_performs {roots : List CrawlUrlStateRecord}
    {control : CrawlTraversalControl} {checkpoint : CheckpointAppend}
    (hnew : ∀ root ∈ roots, new root) : Performs (Writes new recorded)
      (initializeRunStateWithCheckpoint env runId roots control checkpoint) :=
  .bind (.require _ _) fun _ => .bind ensureRun_performs fun _ =>
    .bind (performs_of_beside insertControl_beside) fun _ => .bind (insertRoots_performs hnew)
      fun _ => performs_of_beside appendCheckpointInTransaction_beside

theorem initializeRunStateWithCheckpointAndEvidence_performs {roots : List CrawlUrlStateRecord}
    {evidence : List DiscoveredUrlRecord} {control : CrawlTraversalControl}
    {projection : CrawlTraversalSemanticProjection} {checkpoint : CheckpointAppend}
    (hnew : ∀ root ∈ roots, new root) : Performs (Writes new recorded)
      (initializeRunStateWithCheckpointAndEvidence env runId roots evidence control projection
        checkpoint) := by
  refine .bind (.require _ _) fun _ => .bind ensureRun_performs fun _ => .bind .read fun s => ?_
  split
  · exact .bind (.require _ _) fun _ => .bind (performs_of_beside recordEvidence_beside) fun _ =>
      requireRoots_performs
  · exact .bind (performs_of_beside recordEvidence_beside) fun _ =>
      .bind (performs_of_beside insertControl_beside) fun _ => .bind (insertRoots_performs hnew)
        fun _ => .bind applySemanticProjection_performs fun _ =>
          performs_of_beside appendCheckpointInTransaction_beside

/-- A delta writes its units. -/
theorem applyDiscoveryDeltaWithProjection_performs {delta : DiscoveryDelta}
    (hwork : ∀ state ∈ delta.newOrMergedWork, new state) :
    Performs (Writes new recorded) (applyDiscoveryDeltaWithProjection env runId delta) :=
  .bind (.require _ _) fun _ => .bind ensureRun_performs fun _ =>
    .bind (performs_of_beside recordEvidence_beside) fun _ => .bind (upsertWork_performs hwork)
      fun _ => .bind (.foldEach (fun _ _ => reconcileRedirect_performs) _ _) fun _ =>
        .bind applySemanticProjection_performs fun _ => .bind markInFlightWork_performs fun _ =>
          .bind (performs_of_beside updateControl_beside) fun _ =>
            performs_of_beside replaceTransitionCounts_beside

/-- The counts are replaced beside the units. -/
theorem replaceTransitionSourceCounts_performs {counts : List CrawlTransitionSourceCount} :
    Performs (Writes new recorded) (replaceTransitionSourceCounts env runId counts) :=
  .bind ensureRun_performs fun _ => performs_of_beside replaceTransitionCounts_beside

end Statements

end Erabi.Traversal
