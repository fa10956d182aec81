/-
# The head of the queue

An acquisition first finalizes the expired leases and then leases the first job that is
due.  The first due job always has attempts left, since every operation that queues a
job looks at its budget, so the head of the queue is never stuck: an acquisition
returns no job only when none is due.
-/
import Mathlib
import Erabi.Queue.Recovers
import Erabi.Queue.Exclusive

namespace Erabi.Queue

open Relational Transaction Transition

variable {s s' s₁ : QueueStore} {worker : String} {now duration : ℤ} {allow : Bool} {ids : LeaseIds}

/-! ## The order of the queue -/

/-- The job is queued and due, and admission does not hold it back. -/
def Eligible (now : ℤ) (allow : Bool) (job : JobRecord) : Prop :=
  job.state = .queued ∧ job.scheduledAt ≤ now ∧ (allow = true ∨ job.crawlRunId = none)

/-- The job comes first among the eligible jobs of the store. -/
structure HeadOfQueue (s : QueueStore) (now : ℤ) (allow : Bool) (first : JobRecord) : Prop where
  stored : first ∈ s.jobs.rows
  eligible : Eligible now allow first
  before : ∀ other ∈ s.jobs.rows, Eligible now allow other → eligibleBefore first other

instance : Std.Total eligibleBefore where
  total a b := by
    have hid := le_total a.id b.id
    rw [eligibleBefore, eligibleBefore]
    grind

instance : IsTrans JobRecord eligibleBefore where
  trans a b c hab hbc := by
    rw [eligibleBefore] at hab hbc ⊢
    grind

/-- The list that acquisition sorts holds the eligible jobs. -/
theorem mem_eligible {job : JobRecord} :
    job ∈ (s.jobs.select fun job => job.state = .queued && job.scheduledAt ≤ now &&
      (allow || job.crawlRunId.isNone)).insertionSort eligibleBefore ↔
      job ∈ s.jobs.rows ∧ Eligible now allow job := by
  rw [List.mem_insertionSort, Table.mem_select, Eligible]
  simp [Option.isNone_iff_eq_none, and_assoc]

theorem selectEligibleJob_eq_none :
    selectEligibleJob s now allow = none ↔ ∀ job ∈ s.jobs.rows, ¬ Eligible now allow job := by
  rw [selectEligibleJob, Option.map_eq_none_iff, List.head?_eq_none_iff,
    List.eq_nil_iff_forall_not_mem]
  simp only [mem_eligible, not_and]

/-- The selected job is the head of the queue. -/
theorem selectEligibleJob_eq_some {j : JobId} (h : selectEligibleJob s now allow = some j) :
    ∃ first, HeadOfQueue s now allow first ∧ first.id = j := by
  obtain ⟨first, hhead, rfl⟩ := Option.map_eq_some_iff.mp h
  have hmem := mem_eligible.mp (List.mem_of_mem_head? hhead)
  refine ⟨first, ⟨hmem.1, hmem.2, fun other hstored heligible => ?_⟩, rfl⟩
  have hother := mem_eligible.mpr ⟨hstored, heligible⟩
  have hsorted := List.pairwise_insertionSort eligibleBefore
    (s.jobs.select fun job => job.state = .queued && job.scheduledAt ≤ now &&
      (allow || job.crawlRunId.isNone))
  obtain ⟨rest, hlist⟩ := List.head?_eq_some_iff.mp hhead
  rw [hlist] at hother hsorted
  rcases List.mem_cons.mp hother with rfl | hrest
  · exact (Std.Total.total (r := eligibleBefore) other other).elim id id
  · exact (List.pairwise_cons.mp hsorted).1 other hrest

/-! ## Leasing the head -/

/-- The identities were not drawn before. -/
def Fresh (ids : LeaseIds) (s : QueueStore) : Prop :=
  ∀ attempt ∈ s.attempts.rows, attempt.id ≠ ids.attempt ∧ attempt.leaseId ≠ ids.lease

/-- The row of a job that was leased. -/
def JobRecord.leasedBy (job : JobRecord) (c : LeaseColumns) (now : ℤ) : JobRecord :=
  { job with
    state := .running, currentAttempt := job.currentAttempt + 1
    leaseGeneration := job.leaseGeneration + 1, leaseColumns := some c
    failureCode := none, updatedAt := now }

/-- The leased job in the new store. -/
theorem leasedStore_find? {job : JobRecord} (hfind : s.jobs.find? job.id = some job)
    (hqueued : job.state = .queued) (c : LeaseColumns) (now : ℤ)
    (attempts : Table JobAttempt AttemptId JobAttempt.id) :
    (leasedStore job c now attempts s).jobs.find? job.id = some (job.leasedBy c now) := by
  rw [leasedStore]
  dsimp only
  rw [Table.find?_update, hfind, Option.map_some, if_pos (by simp [hqueued])]
  rfl

/-- The lease of an eligible job with attempts left is created when its end is a time and
the new attempt is unique. -/
theorem leaseQueuedJob_ok (worker : String) {job : JobRecord} {expiresAt : ℤ} (hs : Consistent s)
    (hstored : job ∈ s.jobs.rows) (heligible : Eligible now allow job)
    (hexpires : checkedAddI64 now duration = some expiresAt) (hfresh : Fresh ids s) :
    ∃ leased s', leaseQueuedJob job.id worker now duration allow ids s = .ok (leased, s') ∧
      leased.1.id = job.id ∧ leased.1.state = .running := by
  obtain ⟨hqueued, hdue, hallow⟩ := heligible
  have hbudget := (hs.budget job hstored).2 hqueued
  have hfind := Table.find?_key hstored
  have hnone : s.attempts.find? ids.attempt = none :=
    Table.find?_eq_none.mpr fun attempt hattempt => (hfresh attempt hattempt).1
  obtain ⟨attempts, hinsert⟩ : ∃ attempts, s.attempts.insert? (newAttempt job worker now ids) =
      some attempts :=
    ⟨⟨_, s.attempts.insert_keysNodup (newAttempt job worker now ids) hnone⟩,
      Table.insert?_eq_some.mpr ⟨hnone, rfl⟩⟩
  have hunique : s.attempts.rows.all (fun other =>
      (other.jobId != job.id || other.attemptNumber != job.currentAttempt + 1) &&
        other.leaseId != ids.lease) = true := by
    rw [List.all_eq_true]
    intro other hother
    obtain ⟨owner, howner, -, hnumber⟩ := hs.owner other hother
    simp only [Bool.and_eq_true, Bool.or_eq_true, bne_iff_ne]
    refine ⟨?_, (hfresh other hother).2⟩
    by_cases hid : other.jobId = job.id
    · rw [hid, hfind] at howner
      cases howner
      exact Or.inr (by omega)
    · exact Or.inl hid
  have hleased := leasedStore_find? hfind hqueued ⟨ids.lease, worker, now, expiresAt, now⟩ now attempts
  refine ⟨(job.leasedBy ⟨ids.lease, worker, now, expiresAt, now⟩ now, newAttempt job worker now ids),
    leasedStore job ⟨ids.lease, worker, now, expiresAt, now⟩ now attempts s, ?_, rfl, rfl⟩
  refine selectJob_bind_eq_ok.mpr ⟨job, hfind, require_bind_eq_ok.mpr ⟨⟨hqueued, hdue, hbudget⟩, ?_⟩⟩
  refine require_bind_eq_ok.mpr ⟨hallow, orFail_bind_eq_ok.mpr ⟨expiresAt, hexpires, ?_⟩⟩
  dsimp only
  rw [write_bind]
  refine bind_eq_ok.mpr ⟨(), _, ?_, selectJob_bind_eq_ok.mpr ⟨_, hleased, rfl⟩⟩
  rw [insertAttempt, read_bind]
  exact require_bind_eq_ok.mpr ⟨hunique, orFail_bind_eq_ok.mpr ⟨attempts, hinsert, rfl⟩⟩

/-- A job that is not read is not there. -/
theorem selectJob_eq_error {j : JobId} {e : JobRepositoryError} (h : selectJob j s = .error e) :
    e = .notFound := by
  rw [selectJob, read_bind] at h
  exact (orFail_eq_error.mp h).2

/-- No check of the lease of an eligible job with attempts left refuses the transition. -/
theorem leaseQueuedJob_legal {job : JobRecord} (hs : Consistent s) (hstored : job ∈ s.jobs.rows)
    (heligible : Eligible now allow job) :
    leaseQueuedJob job.id worker now duration allow ids s ≠ .error .illegalTransition := by
  intro h
  obtain ⟨hqueued, hdue, hallow⟩ := heligible
  have hbudget := (hs.budget job hstored).2 hqueued
  rcases bind_eq_error.mp h with hselect | ⟨found, s₀, hselect, h⟩
  · cases selectJob_eq_error hselect
  obtain ⟨hfound, rfl⟩ := selectJob_eq_ok.mp hselect
  rw [Table.find?_key hstored] at hfound
  cases hfound
  rcases bind_eq_error.mp h with hcheck | ⟨_, s₁, hcheck, h⟩
  · exact (require_eq_error.mp hcheck).1 ⟨hqueued, hdue, hbudget⟩
  rcases bind_eq_error.mp h with hadmission | ⟨_, s₂, hadmission, h⟩
  · cases (require_eq_error.mp hadmission).2
  rcases bind_eq_error.mp h with hexpires | ⟨expiresAt, s₃, hexpires, h⟩
  · cases (orFail_eq_error.mp hexpires).2
  dsimp only at h
  rw [write_bind] at h
  rcases bind_eq_error.mp h with hinsert | ⟨_, s₄, hinsert, h⟩
  · rw [insertAttempt, read_bind] at hinsert
    rcases bind_eq_error.mp hinsert with hunique | ⟨_, s₅, hunique, hinsert⟩
    · cases (require_eq_error.mp hunique).2
    rcases bind_eq_error.mp hinsert with htable | ⟨attempts, s₆, htable, hinsert⟩
    · cases (orFail_eq_error.mp htable).2
    · cases hinsert
  rcases bind_eq_error.mp h with hreturn | ⟨_, s₅, hreturn, h⟩
  · cases selectJob_eq_error hreturn
  · cases h

/-! ## Acquisitions -/

theorem recoverExpired_of_none (h : expiredJobs s now = []) :
    recoverExpired now s = .ok ({}, s) := by
  rw [recoverExpired, read_bind, h]
  rfl

/-- An acquisition with valid arguments is the recovery and the lease of the head. -/
theorem acquireNext_of_recovered (allow : Bool) (ids : LeaseIds) {recovery : StaleJobRecovery}
    (hs : Consistent s)
    (hworker : validWorkerId worker = true) (hduration : 0 < duration)
    (hrecover : recoverExpired now s = .ok (recovery, s₁)) :
    (selectEligibleJob s₁ now allow = none →
        acquireNext worker now duration allow ids s = .ok (none, s₁)) ∧
      ∀ j leased s', selectEligibleJob s₁ now allow = some j →
        leaseQueuedJob j worker now duration allow ids s₁ = .ok (leased, s') →
          acquireNext worker now duration allow ids s = .ok (some leased, s') := by
  constructor
  · intro hselect
    refine require_bind_eq_ok.mpr ⟨⟨hworker, hduration⟩, bind_eq_ok.mpr
      ⟨(), s, hs.ensureQueueInvariants, bind_eq_ok.mpr ⟨recovery, s₁, hrecover, ?_⟩⟩⟩
    rw [read_bind, hselect]
    rfl
  · intro j leased s' hselect hlease
    refine require_bind_eq_ok.mpr ⟨⟨hworker, hduration⟩, bind_eq_ok.mpr
      ⟨(), s, hs.ensureQueueInvariants, bind_eq_ok.mpr ⟨recovery, s₁, hrecover, ?_⟩⟩⟩
    rw [read_bind, hselect]
    exact bind_eq_ok.mpr ⟨leased, s', hlease, rfl⟩

/-- No acquisition refuses the transition of the job it selects. -/
theorem acquireNext_legal (hs : Consistent s) (hattached : s.lifecycle.Attached) :
    acquireNext worker now duration allow ids s ≠ .error .illegalTransition := by
  intro h
  obtain ⟨recovery, s₁, hrecover⟩ := recoverExpired_ok now hs hattached
  rcases bind_eq_error.mp h with harguments | ⟨_, s₂, harguments, hacquire⟩
  · cases (require_eq_error.mp harguments).2
  obtain ⟨-, rfl⟩ := require_eq_ok.mp harguments
  rw [bind_of_ok hs.ensureQueueInvariants, bind_of_ok hrecover, read_bind] at hacquire
  rcases hselect : selectEligibleJob s₁ now allow with _ | j
  · rw [hselect] at hacquire
    cases hacquire
  rw [hselect] at hacquire
  obtain ⟨first, hfirst, rfl⟩ := selectEligibleJob_eq_some hselect
  rcases bind_eq_error.mp hacquire with hlease | ⟨_, _, _, hreturn⟩
  · exact leaseQueuedJob_legal (recoverExpired_kept Consistent.maintained hs hrecover)
      hfirst.stored
      hfirst.eligible hlease
  · cases hreturn

/-- What an acquisition does in a store: every queued job has attempts left, so the
transition is never refused; and once the expired leases are finalized, no job is
returned exactly when none is eligible, and otherwise the head of the queue is leased. -/
structure LeasesHead (s : QueueStore) (worker : String) (now duration : ℤ) (allow : Bool) : Prop where
  budget : ∀ job ∈ s.jobs.rows, job.state = .queued → job.currentAttempt < job.maxAttempts
  legal : ∀ ids, acquireNext worker now duration allow ids s ≠ .error .illegalTransition
  recovered : expiredJobs s now = [] → recoverExpired now s = .ok ({}, s)
  head : ∃ recovery s₁, recoverExpired now s = .ok (recovery, s₁) ∧ ∀ ids, Fresh ids s₁ →
    ((∃ s', acquireNext worker now duration allow ids s = .ok (none, s')) ↔
      ∀ job ∈ s₁.jobs.rows, ¬ Eligible now allow job) ∧
    ((∃ job ∈ s₁.jobs.rows, Eligible now allow job) →
      ∃ first leased s', HeadOfQueue s₁ now allow first ∧
        acquireNext worker now duration allow ids s = .ok (some leased, s') ∧
          leased.1.id = first.id ∧ leased.1.state = .running)

/-- In every reachable store an acquisition leases the head of the queue. -/
theorem acquireNext_leasesHead (inputs : List Input) (hworker : validWorkerId worker = true)
    (hduration : 0 < duration) (hnow : i64Min ≤ now) (hends : now + duration ≤ i64Max) :
    LeasesHead (after step .empty inputs) worker now duration allow := by
  have hs := after_consistent inputs
  have hattached : (after step .empty inputs).lifecycle.Attached :=
    after_invariant (I := fun s : QueueStore => s.lifecycle.Attached) step_attached empty_attached inputs
  generalize after step .empty inputs = s at hs hattached
  obtain ⟨recovery, s₁, hrecover⟩ := recoverExpired_ok now hs hattached
  have hs₁ := recoverExpired_kept Consistent.maintained hs hrecover
  have hexpires : checkedAddI64 now duration = some (now + duration) := by
    rw [checkedAddI64, if_pos ⟨by omega, hends⟩]
  refine ⟨fun job hjob => (hs.budget job hjob).2, fun ids => acquireNext_legal hs hattached,
    recoverExpired_of_none, recovery, s₁, hrecover, fun ids hfresh => ?_⟩
  obtain ⟨hnone, hsome⟩ := acquireNext_of_recovered allow ids hs hworker hduration hrecover
  rcases hselect : selectEligibleJob s₁ now allow with _ | j
  · have hempty := selectEligibleJob_eq_none.mp hselect
    refine ⟨⟨fun _ => hempty, fun _ => ⟨s₁, hnone hselect⟩⟩, ?_⟩
    rintro ⟨job, hstored, heligible⟩
    exact absurd heligible (hempty job hstored)
  · obtain ⟨first, hfirst, rfl⟩ := selectEligibleJob_eq_some hselect
    obtain ⟨leased, s', hlease, hid, hrunning⟩ :=
      leaseQueuedJob_ok worker hs₁ hfirst.stored hfirst.eligible hexpires hfresh
    have hacquired := hsome first.id leased s' hselect hlease
    refine ⟨⟨?_, ?_⟩, fun _ => ⟨first, leased, s', hfirst, hacquired, hid, hrunning⟩⟩
    · rintro ⟨s'', hnothing⟩
      rw [hacquired] at hnothing
      cases hnothing
    · intro hempty
      exact absurd hfirst.eligible (hempty first hfirst.stored)

/-- An urgent job that is not due, and one whose lease has expired. -/
theorem acquireNext_leasesHead_sample :
    LeasesHead (after step .empty
      [.operation (.enqueue ⟨1, .quickScrape, 0, none, none, 5, 2⟩ 0),
        .operation (.enqueue ⟨2, .quickScrape, 9, none, none, 90, 1⟩ 0),
        .operation (.acquireNext "worker" 6 10 true ⟨1, 1⟩)]) "worker" 20 10 true :=
  acquireNext_leasesHead _ (by decide) (by decide) (by decide) (by decide)

end Erabi.Queue
