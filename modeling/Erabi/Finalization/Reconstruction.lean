/-
# What the structural facts of a crawl depend on

For a run with logical work the order of the rows never matters, completed units
are planned ones, and a complete decision means that everything was crawled.
Executions count their URLs as planned, though: the facts ignore an attempt exactly
when its URL is planned without it.
-/
import Mathlib
import Erabi.Finalization.Facts
import Erabi.Relational.Transaction

namespace Erabi.Finalization

open Relational Transaction Queue Traversal

variable {parses : String → Bool} {snapshot : CrawlRunSnapshot} {status : CrawlRunStatus}
  {e e' : DurableEvidence} {work : List CrawlUrlStateRecord} {facts facts' : CrawlStructuralFacts}

/-! ## The reconstruction, without its error paths -/

/-- Every number the reconstruction computes is a 64-bit integer. -/
structure Countable (e : DurableEvidence) : Prop where
  planned : (plannedUrls e).card ≤ u64Max
  completed : (completedUrls e).card ≤ u64Max
  coherent : ¬ (plannedUrls e).card < (completedUrls e).card
  unresolved : (unresolvedUrls e).card ≤ u64Max
  notExpanded : (unresolvedUrls e).card +
    (if e.control.any CrawlTraversalControl.durationWorkNotExpanded then 1 else 0) ≤ u64Max
  ambiguous : (ambiguousUrls e).card ≤ u64Max

/-- The facts that coherent, countable evidence describes. -/
def factsOf (snapshot : CrawlRunSnapshot) (status : CrawlRunStatus) (e : DurableEvidence) :
    CrawlStructuralFacts :=
  let truncations := e.control.elim 0 CrawlTraversalControl.paginationTruncationCount
  let unresolved := (unresolvedUrls e).card +
    (if e.control.any CrawlTraversalControl.durationWorkNotExpanded then 1 else 0)
  let incomplete := (completedUrls e).card < (plannedUrls e).card || 0 < unresolved ||
    0 < truncations || 0 < (ambiguousUrls e).card
  { status := terminalStatus snapshot.runType e.work incomplete status
    inScopePagesPlanned := (plannedUrls e).card
    inScopePagesCompleted := (completedUrls e).card
    paginationTruncationCount := truncations
    unresolvedPartialWorkCount := unresolved
    pageTypeAmbiguityCount := (ambiguousUrls e).card }

/-- A count is taken when it is representable. -/
theorem count_eq_ok {value n : ℕ} : count value = .ok n ↔ value ≤ u64Max ∧ n = value := by
  unfold count
  rw [except_bind_eq_ok]
  constructor
  · rintro ⟨_, h, hn⟩
    cases hn
    exact ⟨ensure_eq_ok.mp h, rfl⟩
  · rintro ⟨h, rfl⟩
    exact ⟨(), ensure_eq_ok.mpr h, rfl⟩

/-- The facts are known when the evidence is valid and its counts representable. -/
theorem reconstruct_eq_ok : reconstructCrawlStructuralFacts parses snapshot status e = .ok facts ↔
    validateEvidence parses e = .ok () ∧ Countable e ∧ facts = factsOf snapshot status e := by
  unfold reconstructCrawlStructuralFacts
  simp only [except_bind_eq_ok, count_eq_ok]
  constructor
  · rintro ⟨_, hvalid, _, ⟨hplanned, rfl⟩, _, ⟨hcompleted, rfl⟩, _, hcoherent, _,
      ⟨hunresolved, rfl⟩, _, ⟨hexpanded, rfl⟩, _, ⟨hambiguous, rfl⟩, hfacts⟩
    have hvalue : factsOf snapshot status e = facts := Except.ok.inj hfacts
    exact ⟨hvalid, ⟨hplanned, hcompleted, ensure_eq_ok.mp hcoherent, hunresolved, hexpanded,
      hambiguous⟩, hvalue.symm⟩
  · rintro ⟨hvalid, hcount, rfl⟩
    exact ⟨(), hvalid, _, ⟨hcount.planned, rfl⟩, _, ⟨hcount.completed, rfl⟩, (),
      ensure_eq_ok.mpr hcount.coherent, _, ⟨hcount.unresolved, rfl⟩, _,
      ⟨hcount.notExpanded, rfl⟩, _, ⟨hcount.ambiguous, rfl⟩, rfl⟩

/-- The evidence is well formed and all of the run. -/
structure OfRun (parses : String → Bool) (runId : CrawlRunId) (e : DurableEvidence) : Prop where
  executions : ∀ execution ∈ e.executions,
    validateExecution parses execution = true ∧ execution.crawlRunId = runId
  discovered : ∀ discovered ∈ e.discoveredUrls, discovered.crawlRunId = runId ∧
    validateFragmentFree parses discovered.originalUrl = true ∧
    validateFragmentFree parses discovered.canonicalUrl = true
  control : ∀ control ∈ e.control, control.crawlRunId = runId
  work : ∀ work ∈ e.work, ∀ state ∈ work, state.crawlRunId = runId

/-- With logical work the first unit says which run the evidence must be of. -/
theorem validateEvidence_eq_ok {first : CrawlUrlStateRecord} {rest : List CrawlUrlStateRecord}
    (hwork : e.work = some (first :: rest)) :
    validateEvidence parses e = .ok () ↔ OfRun parses first.crawlRunId e := by
  have hexpected : expectedRunId e = some first.crawlRunId := by
    simp [expectedRunId, hwork]
  have hrun : ∀ actual, ensureRunId (some first.crawlRunId) actual = true ↔
      actual = first.crawlRunId := by
    intro actual
    simp [ensureRunId, eq_comm]
  unfold validateEvidence
  simp only [except_bind_eq_ok, ensure_eq_ok, hexpected, hrun]
  constructor
  · rintro ⟨_, hexecutions, _, hdiscovered, _, hcontrol, hstates⟩
    exact ⟨hexecutions, hdiscovered, hcontrol, hstates⟩
  · intro h
    exact ⟨(), h.executions, (), h.discovered, (), h.control, h.work⟩

/-! ## Permuted rows -/

/-- The same rows, in another order. -/
structure DurableEvidence.Permutes (e' e : DurableEvidence) : Prop where
  executions : e'.executions.Perm e.executions
  discoveredUrls : e'.discoveredUrls.Perm e.discoveredUrls
  control : e'.control = e.control
  work : Option.Rel List.Perm e'.work e.work

theorem DurableEvidence.Permutes.refl (e : DurableEvidence) : e.Permutes e where
  executions := List.Perm.refl _
  discoveredUrls := List.Perm.refl _
  control := rfl
  work := by
    cases e.work with
    | none => exact .none
    | some work => exact .some (List.Perm.refl work)

/-- Permuted evidence has permuted work. -/
theorem DurableEvidence.Permutes.work_some (h : e'.Permutes e) (hwork : e.work = some work) :
    ∃ work', e'.work = some work' ∧ work'.Perm work := by
  have hrel := h.work
  rw [hwork] at hrel
  obtain ⟨work', hwork'⟩ : ∃ work', e'.work = some work' := by
    cases hother : e'.work with
    | none =>
      rw [hother] at hrel
      cases hrel
    | some work' => exact ⟨work', rfl⟩
  rw [hwork'] at hrel
  cases hrel with
  | some hperm => exact ⟨work', hwork', hperm⟩

/-- The order of the work does not matter for its URLs. -/
theorem urlsWhere_perm {p : CrawlUrlStateRecord → Bool} {work' : List CrawlUrlStateRecord}
    (h : work'.Perm work) : urlsWhere p work' = urlsWhere p work :=
  List.toFinset_eq_of_perm _ _ ((h.filter p).map _)

theorem executedUrls_perm {executions executions' : List CrawlExecutionRecord}
    (h : executions'.Perm executions) : executedUrls executions' = executedUrls executions :=
  List.toFinset_eq_of_perm _ _ (h.map _)

theorem discoveredWith_perm {text : String} {discovered discovered' : List DiscoveredUrlRecord}
    (h : discovered'.Perm discovered) :
    discoveredWith text discovered' = discoveredWith text discovered :=
  List.toFinset_eq_of_perm _ _ ((h.filter _).map _)

/-- The order of the work does not matter for a quick scrape's status. -/
theorem quickScrapeCurrentTerminalStatus_perm {work' : List CrawlUrlStateRecord}
    (h : work'.Perm work) :
    quickScrapeCurrentTerminalStatus (some work') =
      quickScrapeCurrentTerminalStatus (some work) := by
  have hany : ∀ p : CrawlUrlStateRecord → Bool, work'.any p = work.any p := by
    intro p
    rw [Bool.eq_iff_iff, List.any_eq_true, List.any_eq_true]
    exact exists_congr fun state => and_congr_left fun _ => h.mem_iff
  simp only [quickScrapeCurrentTerminalStatus, Option.bind_some, hany]

/-- What the facts are computed from, once there is logical work. -/
structure SameCounted (e' e : DurableEvidence) : Prop where
  planned : plannedUrls e' = plannedUrls e
  completed : completedUrls e' = completedUrls e
  unresolved : unresolvedUrls e' = unresolvedUrls e
  ambiguous : ambiguousUrls e' = ambiguousUrls e
  control : e'.control = e.control
  quickScrape : quickScrapeCurrentTerminalStatus e'.work = quickScrapeCurrentTerminalStatus e.work

/-- What counts the same is countable together. -/
theorem SameCounted.countable (h : SameCounted e' e) : Countable e' ↔ Countable e := by
  have hone : ∀ {a b : DurableEvidence}, SameCounted a b → Countable b → Countable a := by
    intro a b hab hb
    constructor
    · rw [hab.planned]; exact hb.planned
    · rw [hab.completed]; exact hb.completed
    · rw [hab.planned, hab.completed]; exact hb.coherent
    · rw [hab.unresolved]; exact hb.unresolved
    · rw [hab.unresolved, hab.control]; exact hb.notExpanded
    · rw [hab.ambiguous]; exact hb.ambiguous
  refine ⟨hone ?_, hone h⟩
  exact ⟨h.planned.symm, h.completed.symm, h.unresolved.symm, h.ambiguous.symm, h.control.symm,
    h.quickScrape.symm⟩

/-- What counts the same has the same facts. -/
theorem SameCounted.factsOf (h : SameCounted e' e) :
    factsOf snapshot status e' = factsOf snapshot status e := by
  have hstatus : ∀ incomplete, terminalStatus snapshot.runType e'.work incomplete status =
      terminalStatus snapshot.runType e.work incomplete status := by
    intro incomplete
    cases status <;> simp only [terminalStatus, h.quickScrape]
  simp only [Finalization.factsOf, hstatus, h.planned, h.completed, h.unresolved, h.ambiguous,
    h.control]

/-- Permuted evidence counts the same. -/
theorem DurableEvidence.Permutes.sameCounted (h : e'.Permutes e) (hwork : e.work = some work) :
    SameCounted e' e := by
  obtain ⟨work', hwork', hperm⟩ := h.work_some hwork
  constructor
  · simp only [plannedUrls, hwork, hwork', Option.elim_some, urlsWhere_perm hperm,
      executedUrls_perm h.executions]
  · simp only [completedUrls, hwork, hwork', Option.elim_some, urlsWhere_perm hperm]
  · simp only [unresolvedUrls, hwork, hwork', Option.elim_some, urlsWhere_perm hperm]
  · simp only [ambiguousUrls, hwork, hwork', Option.elim_some, urlsWhere_perm hperm,
      discoveredWith_perm h.discoveredUrls]
  · exact h.control
  · rw [hwork, hwork', quickScrapeCurrentTerminalStatus_perm hperm]

/-- Permuted evidence is of the same run. -/
theorem DurableEvidence.Permutes.ofRun {runId : CrawlRunId} (h : e'.Permutes e)
    (hwork : e.work = some work) (hrun : OfRun parses runId e) : OfRun parses runId e' := by
  obtain ⟨work', hwork', hperm⟩ := h.work_some hwork
  constructor
  · intro execution hmem
    exact hrun.executions execution (h.executions.mem_iff.mp hmem)
  · intro discovered hmem
    exact hrun.discovered discovered (h.discoveredUrls.mem_iff.mp hmem)
  · rw [h.control]
    exact hrun.control
  · intro states hstates state hmem
    rw [hwork'] at hstates
    cases hstates
    exact hrun.work work hwork state (hperm.mem_iff.mp hmem)

/-- Evidence of the run with the same counted URLs has the same facts. -/
theorem reconstruct_of_sameCounted {runId : CrawlRunId} {work' : List CrawlUrlStateRecord}
    (hwork' : e'.work = some work') (hne : work' ≠ []) (hrun : OfRun parses runId e')
    (h : SameCounted e' e)
    (hfacts : reconstructCrawlStructuralFacts parses snapshot status e = .ok facts) :
    reconstructCrawlStructuralFacts parses snapshot status e' = .ok facts := by
  obtain ⟨_, hcount, rfl⟩ := reconstruct_eq_ok.mp hfacts
  obtain ⟨first, rest, rfl⟩ := List.exists_cons_of_ne_nil hne
  have hfirst : first.crawlRunId = runId := hrun.work _ hwork' first List.mem_cons_self
  refine reconstruct_eq_ok.mpr ⟨?_, h.countable.mpr hcount, h.factsOf.symm⟩
  rw [validateEvidence_eq_ok hwork', hfirst]
  exact hrun

/-! ## Historical attempts -/

/-- The evidence after further attempts were recorded. -/
def DurableEvidence.withAttempts (e : DurableEvidence) (attempts : List CrawlExecutionRecord) :
    DurableEvidence :=
  { e with executions := e.executions ++ attempts }

/-- Added attempts plan their URLs. -/
theorem plannedUrls_withAttempts (attempts : List CrawlExecutionRecord) :
    plannedUrls (e.withAttempts attempts) = plannedUrls e ∪ executedUrls attempts := by
  have happend : executedUrls (e.executions ++ attempts) =
      executedUrls e.executions ∪ executedUrls attempts := by
    simp only [executedUrls, List.map_append, List.toFinset_append]
  show executedUrls (e.executions ++ attempts) ∪ _ = _
  rw [happend, Finset.union_right_comm]
  rfl

/-- Attempts at planned URLs leave everything that is counted as it was. -/
theorem sameCounted_withAttempts {attempts : List CrawlExecutionRecord}
    (hwork : e.work = some work) (hplanned : executedUrls attempts ⊆ plannedUrls e) :
    SameCounted (e.withAttempts attempts) e where
  planned := by rw [plannedUrls_withAttempts, Finset.union_eq_left.mpr hplanned]
  completed := by simp only [completedUrls, DurableEvidence.withAttempts, hwork, Option.elim_some]
  unresolved := by simp only [unresolvedUrls, DurableEvidence.withAttempts, hwork, Option.elim_some]
  ambiguous := rfl
  control := rfl
  quickScrape := rfl

/-- The URL is counted as planned without the attempt.  Evidence without executions is
the baseline: of it the facts depend on the logical work alone. -/
def Planned (e : DurableEvidence) (work : List CrawlUrlStateRecord) (url : String) : Prop :=
  (∃ state ∈ work, state.admissionState = .admitted ∧ state.canonicalUrl = url) ∨
    ∃ execution ∈ e.executions, execution.canonicalUrl = url

/-- The planned URLs. -/
theorem mem_plannedUrls (hwork : e.work = some work) {url : String} :
    url ∈ plannedUrls e ↔ Planned e work url := by
  simp only [plannedUrls, hwork, Option.elim_some, Finset.mem_union, executedUrls, urlsWhere,
    List.mem_toFinset, List.mem_map, List.mem_filter, admitted, decide_eq_true_eq, and_assoc,
    Planned]
  exact or_comm

/-! ## The facts of a run with logical work -/

/-- The two numbers and the status agree. -/
structure CrawlStructuralFacts.Agrees (a b : CrawlStructuralFacts) : Prop where
  planned : a.inScopePagesPlanned = b.inScopePagesPlanned
  completed : a.inScopePagesCompleted = b.inScopePagesCompleted
  status : a.status = b.status

/-- Whatever the order of the rows, the facts with the attempts agree with `facts`. -/
def FactsUnchanged (parses : String → Bool) (snapshot : CrawlRunSnapshot)
    (status : CrawlRunStatus) (e : DurableEvidence) (attempts : List CrawlExecutionRecord)
    (facts : CrawlStructuralFacts) : Prop :=
  ∀ e', e'.Permutes (e.withAttempts attempts) →
    ∃ facts', reconstructCrawlStructuralFacts parses snapshot status e' = .ok facts' ∧
      facts'.Agrees facts

/-- Every admitted unit is completed, and neither ambiguity nor truncation nor a
duration limit was recorded. -/
structure FullyCrawled (e : DurableEvidence) (work : List CrawlUrlStateRecord) : Prop where
  completed : ∀ state ∈ work, state.admissionState = .admitted →
    state.currentWorkState = some .completed
  workUnambiguous : ∀ state ∈ work, state.preserveReason ≠ some "AMBIGUOUS_PAGE_TYPE"
  discoveryUnambiguous : ∀ discovered ∈ e.discoveredUrls, discovered.status ≠ "AMBIGUOUS_PAGE_TYPE"
  notTruncated : ∀ control ∈ e.control, control.paginationTruncationCount = 0
  expanded : ∀ control ∈ e.control, control.durationWorkNotExpanded = false

/-- What is completed was planned. -/
theorem completedUrls_subset (hwork : e.work = some work) : completedUrls e ⊆ plannedUrls e := by
  intro url hurl
  simp only [completedUrls, hwork, Option.elim_some, urlsWhere, List.mem_toFinset, List.mem_map,
    List.mem_filter, Bool.and_eq_true, admitted, decide_eq_true_eq] at hurl
  obtain ⟨state, ⟨hmem, hadmitted, _⟩, rfl⟩ := hurl
  exact (mem_plannedUrls hwork).mpr (Or.inl ⟨state, hmem, hadmitted, rfl⟩)

/-- Without a URL no unit was chosen. -/
theorem not_mem_urlsWhere {p : CrawlUrlStateRecord → Bool} (h : (urlsWhere p work).card = 0)
    {state : CrawlUrlStateRecord} (hmem : state ∈ work) : p state = false := by
  by_contra hp
  have hurl : state.canonicalUrl ∈ urlsWhere p work := by
    rw [urlsWhere, List.mem_toFinset]
    exact List.mem_map_of_mem (List.mem_filter.mpr ⟨hmem, by simpa using hp⟩)
  rw [Finset.card_eq_zero.mp h] at hurl
  exact absurd hurl (Finset.notMem_empty _)

/-- A complete snapshot has nothing truncated, unresolved or ambiguous. -/
theorem decide_eq_complete {input : CompleteSnapshotStructuralInput}
    (h : input.decide = .ok .complete) : input.paginationTruncationCount = 0 ∧
      input.unresolvedPartialWorkCount = 0 ∧ input.pageTypeAmbiguityCount = 0 := by
  have hreasons : input.reasons = [] := by
    unfold CompleteSnapshotStructuralInput.decide at h
    split at h
    · cases h
    · split at h
      · assumption
      · cases h
  have hif : ∀ {applies : Bool} {reason : CompleteSnapshotReason},
      CompleteSnapshotStructuralInput.reasonIf applies reason = [] → applies = false := by
    intro applies reason hnil
    cases applies with
    | false => rfl
    | true => cases hnil
  simp only [CompleteSnapshotStructuralInput.reasons, List.append_eq_nil_iff] at hreasons
  obtain ⟨⟨⟨⟨_, htruncated⟩, hunresolved⟩, hambiguous⟩, _⟩ := hreasons
  have htruncated := hif htruncated
  have hunresolved := hif hunresolved
  have hambiguous := hif hambiguous
  simp only [decide_eq_false_iff_not, not_lt, Nat.le_zero] at htruncated hunresolved hambiguous
  exact ⟨htruncated, hunresolved, hambiguous⟩

/-- A complete decision is taken of fully crawled runs only. -/
theorem fullyCrawled_of_complete (hwork : e.work = some work)
    (hfacts : reconstructCrawlStructuralFacts parses snapshot status e = .ok facts)
    {runType : CrawlRunType} {health : ExtractionHealth}
    (h : (facts.structuralInput runType health).decide = .ok .complete) :
    FullyCrawled e work := by
  obtain ⟨_, _, rfl⟩ := reconstruct_eq_ok.mp hfacts
  obtain ⟨htruncated, hunresolved, hambiguous⟩ := decide_eq_complete h
  have htruncated : e.control.elim 0 CrawlTraversalControl.paginationTruncationCount = 0 :=
    htruncated
  have hunresolved : (unresolvedUrls e).card +
      (if e.control.any CrawlTraversalControl.durationWorkNotExpanded then 1 else 0) = 0 :=
    hunresolved
  have hambiguous : (ambiguousUrls e).card = 0 := hambiguous
  simp only [ambiguousUrls, hwork, Option.elim_some, Finset.card_eq_zero,
    Finset.union_eq_empty] at hambiguous
  have hwhere : (urlsWhere (fun state => admitted state &&
      state.currentWorkState ≠ some .completed) work).card = 0 := by
    have hzero : (unresolvedUrls e).card = 0 := by omega
    simpa only [unresolvedUrls, hwork, Option.elim_some] using hzero
  -- each of the three counts is zero, so the set it counts is empty
  constructor
  · intro state hmem hadmitted
    have hnot := not_mem_urlsWhere hwhere hmem
    by_contra hwork
    simp [admitted, hadmitted, hwork] at hnot
  · intro state hmem hreason
    have hnot := not_mem_urlsWhere (Finset.card_eq_zero.mpr hambiguous.1) hmem
    simp [hreason] at hnot
  · intro discovered hmem hstatus
    have hurl : discovered.canonicalUrl ∈ discoveredWith "AMBIGUOUS_PAGE_TYPE" e.discoveredUrls := by
      rw [discoveredWith, List.mem_toFinset]
      exact List.mem_map_of_mem (List.mem_filter.mpr ⟨hmem, by simpa using hstatus⟩)
    rw [hambiguous.2] at hurl
    exact absurd hurl (Finset.notMem_empty _)
  · intro control hmem
    rw [Option.mem_def] at hmem
    rw [hmem] at htruncated
    exact htruncated
  · intro control hmem
    rw [Option.mem_def] at hmem
    rw [hmem] at hunresolved
    by_contra hexpanded
    simp [hexpanded] at hunresolved

/-- The facts of a run with logical work ignore the order of the rows; they ignore
further attempts exactly when those are attempts at planned URLs. -/
theorem structural_facts_of_work (parses : String → Bool) (snapshot : CrawlRunSnapshot)
    (status : CrawlRunStatus) (e : DurableEvidence) (first : CrawlUrlStateRecord)
    (rest : List CrawlUrlStateRecord) (facts : CrawlStructuralFacts)
    (attempts : List CrawlExecutionRecord) (hwork : e.work = some (first :: rest))
    (hfacts : reconstructCrawlStructuralFacts parses snapshot status e = .ok facts)
    (hattempts : ∀ attempt ∈ attempts,
      validateExecution parses attempt = true ∧ attempt.crawlRunId = first.crawlRunId) :
    (FactsUnchanged parses snapshot status e attempts facts ↔
      ∀ attempt ∈ attempts, Planned e (first :: rest) attempt.canonicalUrl) ∧
    completedUrls e ⊆ plannedUrls e ∧
    ∀ runType health, (facts.structuralInput runType health).decide = .ok .complete →
      FullyCrawled e (first :: rest) := by
  refine ⟨?_, completedUrls_subset hwork, fun _ _ h => fullyCrawled_of_complete hwork hfacts h⟩
  obtain ⟨hvalid, hcount, hvalue⟩ := reconstruct_eq_ok.mp hfacts
  have hrun := (validateEvidence_eq_ok hwork).mp hvalid
  have hsubset : executedUrls attempts ⊆ plannedUrls e ↔
      ∀ attempt ∈ attempts, Planned e (first :: rest) attempt.canonicalUrl := by
    rw [Finset.subset_iff]
    simp only [executedUrls, List.mem_toFinset, List.mem_map, forall_exists_index, and_imp,
      forall_apply_eq_imp_iff₂, mem_plannedUrls hwork]
  rw [← hsubset]
  constructor
  -- one permutation is enough: the planned sets have the same number of elements and one holds
  -- the other
  · intro hunchanged
    obtain ⟨facts', hfacts', hagrees⟩ := hunchanged _ (DurableEvidence.Permutes.refl _)
    obtain ⟨_, _, rfl⟩ := reconstruct_eq_ok.mp hfacts'
    have hcard : (plannedUrls (e.withAttempts attempts)).card = (plannedUrls e).card := by
      have hplanned := hagrees.planned
      rw [hvalue] at hplanned
      exact hplanned
    have hunion : plannedUrls e = plannedUrls e ∪ executedUrls attempts := by
      refine Finset.eq_of_subset_of_card_le Finset.subset_union_left ?_
      rw [← plannedUrls_withAttempts, hcard]
    rw [hunion]
    exact Finset.subset_union_right
  -- the added attempts are counted nowhere else
  · intro hplanned e' hperm
    have hwork' : (e.withAttempts attempts).work = some (first :: rest) := hwork
    have hall : OfRun parses first.crawlRunId (e.withAttempts attempts) := by
      refine ⟨?_, hrun.discovered, hrun.control, hrun.work⟩
      intro execution hmem
      rcases List.mem_append.mp hmem with hold | hnew
      · exact hrun.executions execution hold
      · exact hattempts execution hnew
    have hsame := sameCounted_withAttempts hwork hplanned
    have hgrown := reconstruct_of_sameCounted hwork' (List.cons_ne_nil _ _) hall hsame hfacts
    obtain ⟨work, hpermuted, hstates⟩ := hperm.work_some hwork'
    have hne : work ≠ [] := by
      rintro rfl
      exact absurd hstates.symm (by simp)
    exact ⟨facts, reconstruct_of_sameCounted hpermuted hne (hperm.ofRun hwork' hall)
      (hperm.sameCounted hwork') hgrown, rfl, rfl, rfl⟩

/-! ## A redirected alias -/

/-- A unit of run 1. -/
def sampleState (id url : String) (admissionState : CrawlAdmissionState)
    (preserveReason : Option String) (target : Option UrlStateId) (sequence : Option ℕ)
    (workState : Option CrawlWorkState) : CrawlUrlStateRecord where
  id := id
  crawlRunId := 1
  canonicalUrl := url
  firstDiscoveredUrlId := none
  requestedUrl := url
  parentUrlStateId := none
  parentDiscoveredUrlId := none
  admissionState := admissionState
  preserveReason := preserveReason
  resolvedToUrlStateId := target
  admissionSequence := sequence
  depth := sequence.map fun _ => 0
  targetPageTypeId := none
  transitionId := none
  pagination := false
  finalCanonicalUrl := none
  currentWorkState := workState
  workGeneration := 0
  currentExecutionId := workState.map fun _ => 7
  seedProvenance := []
  seen := true
  sampled := false
  expanded := false
  inScope := false
  pageTypeMatchState := none

/-- The final page was crawled, and its alias resolved to it. -/
def redirectedEvidence : DurableEvidence where
  executions := []
  discoveredUrls := []
  control := none
  work := some [
    sampleState "final" "https://e.test/" .admitted none none (some 0) (some .completed),
    sampleState "alias" "https://e.test/old" .resolved (some "CANONICAL_REDIRECT") (some "final")
      none none]

/-- An attempt at the alias that failed before the redirect was seen. -/
def aliasAttempt : CrawlExecutionRecord where
  id := 3
  crawlRunId := 1
  requestedUrl := "https://e.test/old"
  canonicalUrl := "https://e.test/old"
  observedFinalUrl := none
  sourceId := none
  pageTypeId := none
  transitionId := none
  discoveredUrlId := none
  outcome := .failed
  errorCode := some .timeout
  httpStatus := none
  mediaType := none
  contentLengthBytes := none
  providerElapsedMs := none

/-- The snapshot of a production run. -/
def productionSnapshot : CrawlRunSnapshot := ⟨.productionRun, .crawlerVersion, 0, 0⟩

/-- The facts of the crawled final page alone. -/
def redirectedFacts : CrawlStructuralFacts := ⟨.succeeded, 1, 1, 0, 0, 0⟩

/-- The failed attempt at the alias turns the complete run into a partial one. -/
theorem aliasAttempt_counts :
    reconstructCrawlStructuralFacts (fun _ => true) productionSnapshot .running
        redirectedEvidence = .ok redirectedFacts ∧
      reconstructCrawlStructuralFacts (fun _ => true) productionSnapshot .running
        (redirectedEvidence.withAttempts [aliasAttempt]) = .ok ⟨.partialResult, 2, 1, 0, 0, 0⟩ ∧
      ¬ FactsUnchanged (fun _ => true) productionSnapshot .running redirectedEvidence
        [aliasAttempt] redirectedFacts := by
  have hgrown : reconstructCrawlStructuralFacts (fun _ => true) productionSnapshot .running
      (redirectedEvidence.withAttempts [aliasAttempt]) = .ok ⟨.partialResult, 2, 1, 0, 0, 0⟩ := by
    decide +kernel
  refine ⟨by decide +kernel, hgrown, ?_⟩
  intro hunchanged
  obtain ⟨facts', hfacts', hagrees⟩ := hunchanged _ (DurableEvidence.Permutes.refl _)
  rw [hgrown] at hfacts'
  cases hfacts'
  exact absurd hagrees.planned (by decide)

/-- An attempt at the final page leaves the facts alone. -/
theorem finalAttempt_ignored :
    FactsUnchanged (fun _ => true) productionSnapshot .running redirectedEvidence
      [{ aliasAttempt with canonicalUrl := "https://e.test/" }] redirectedFacts := by
  refine (structural_facts_of_work _ _ _ redirectedEvidence _ _ redirectedFacts _ rfl
    (by decide +kernel) ?_).1.mpr ?_
  · decide +kernel
  · intro attempt hattempt
    rw [List.mem_singleton.mp hattempt]
    exact Or.inl ⟨_, List.mem_cons_self, rfl, rfl⟩

end Erabi.Finalization
