/-
# Lease fencing

An attempt that was closed is never opened again, and no lease identity is drawn
twice.  So a lease that lost its job can never own one again, and every operation
that still presents it is refused.
-/
import Mathlib
import Erabi.Queue.Preservation
import Erabi.Queue.Statements

namespace Erabi.Queue

open Relational Transaction Lifecycle Transition

variable {s s' s'' : QueueStore} {j : JobId} {lease : JobLease} {now : ℤ} {u : Unit}

/-! ## Attempts only advance -/

/-- Every lease identity names one attempt. -/
def DrawnOnce (s : QueueStore) : Prop :=
  ∀ a ∈ s.attempts.rows, ∀ b ∈ s.attempts.rows, a.leaseId = b.leaseId → a = b

/-- From `s` to `s'` no attempt is lost, no closed one is opened again and no
lease identity is drawn a second time. -/
structure Advances (s s' : QueueStore) : Prop where
  kept : ∀ a ∈ s.attempts.rows, ∃ a' ∈ s'.attempts.rows, a'.ownership = a.ownership ∧
    (a'.outcome = .running → a.outcome = .running)
  drawn : DrawnOnce s → DrawnOnce s'

/-- Without a new attempt no lease is drawn. -/
theorem Advances.of_attempts (h : s'.attempts = s.attempts) : Advances s s' where
  kept a ha := ⟨a, h ▸ ha, rfl, id⟩
  drawn hs := by
    rw [DrawnOnce, h]
    exact hs

theorem Advances.refl (s : QueueStore) : Advances s s := .of_attempts rfl

theorem Advances.trans (h : Advances s s') (h' : Advances s' s'') : Advances s s'' where
  kept a ha := by
    obtain ⟨a', ha', hlease', hrunning'⟩ := h.kept a ha
    obtain ⟨a'', ha'', hlease'', hrunning''⟩ := h'.kept a' ha'
    exact ⟨a'', ha'', hlease''.trans hlease', fun e => hrunning' (hrunning'' e)⟩
  drawn hs := h'.drawn (h.drawn hs)

/-- A statement closes attempts or opens one under a lease identity nobody drew
before, or leaves the attempts alone. -/
theorem Advances.of_statement {new : JobRecord → Prop} (h : Statement new s s') : Advances s s' := by
  cases h with
  | @closeAttempts p f hid hkept hclosed =>
    have hsame : ∀ a, (if p a then f a else a).ownership = a.ownership := by
      intro a
      split
      · exact (hkept a).1
      · rfl
    constructor
    · intro a ha
      refine ⟨if p a then f a else a, List.mem_map.mpr ⟨a, ha, rfl⟩, hsame a, fun e => ?_⟩
      split at e
      · exact absurd e (hclosed a)
      · exact e
    · intro hs a' ha' b' hb' hlease
      obtain ⟨a, ha, rfl⟩ := List.mem_map.mp ha'
      obtain ⟨b, hb, rfl⟩ := List.mem_map.mp hb'
      have hleaseId : ∀ a, (if p a then f a else a).leaseId = a.leaseId := fun a =>
        congrArg (fun ownership => ownership.2.1) (hsame a)
      rw [hleaseId, hleaseId] at hlease
      rw [hs a ha b hb hlease]
  | openAttempt _ hunique hinsert =>
    refine ⟨fun a ha => ⟨a, (Table.mem_insert hinsert).mpr (Or.inl ha), rfl, id⟩, ?_⟩
    intro hs a ha b hb hlease
    rcases (Table.mem_insert hinsert).mp ha with ha | rfl
    · rcases (Table.mem_insert hinsert).mp hb with hb | rfl
      · exact hs a ha b hb hlease
      · exact absurd hlease (hunique a ha).2
    · rcases (Table.mem_insert hinsert).mp hb with hb | rfl
      · exact absurd hlease.symm (hunique b hb).2
      · rfl
  | _ => exact .of_attempts rfl

/-- Statements draw leases for new attempts alone. -/
theorem Advances.of_statements {new : JobRecord → Prop} (h : Statements new s s') : Advances s s' := by
  induction h with
  | refl => exact .refl s
  | tail _ hstatement ih => exact ih.trans (.of_statement hstatement)

/-- Every operation only advances the attempts. -/
theorem apply_advances (s : QueueStore) (op : Operation) : Advances s (apply s op) := by
  by_cases hop : op.appends = false
  · exact .of_statements (apply_performs s hop fun _ _ => trivial)
  · cases op with
    | appendCheckpoint jobId attemptId lease identity createdAt =>
      show Advances s ((appendCheckpoint jobId attemptId lease identity createdAt).commit s).2
      rcases h : appendCheckpoint jobId attemptId lease identity createdAt s with
        e | ⟨record, s'⟩
      · rw [commit_of_error h]
        exact .refl s
      · rw [commit_of_ok h]
        obtain ⟨_, _, _, _, _, rfl⟩ := appendCheckpoint_eq_ok h
        exact .of_attempts rfl
    | _ => exact absurd rfl hop

/-- A step draws leases for new attempts alone. -/
theorem step_advances (s : QueueStore) (input : Input) : Advances s (step s input) :=
  step_induction (.refl s) fun op _ => apply_advances s op

theorem after_advances (s : QueueStore) (inputs : List Input) :
    Advances s (after step s inputs) :=
  after_invariant (I := Advances s) (fun s₁ input hs => hs.trans (step_advances s₁ input))
    (.refl s) inputs

/-- No lease is drawn twice in a run. -/
theorem after_drawnOnce (inputs : List Input) : DrawnOnce (after step .empty inputs) :=
  (after_advances .empty inputs).drawn fun _ ha => by cases ha

/-! ## A lost lease -/

/-- The lease owns the running job `j`. -/
def Holds (s : QueueStore) (j : JobId) (lease : JobLease) : Prop :=
  ∃ job, s.jobs.find? j = some job ∧ holdsLease j lease job = true

instance (s : QueueStore) (j : JobId) (lease : JobLease) : Decidable (Holds s j lease) :=
  decidable_of_iff ((s.jobs.find? j).any (holdsLease j lease) = true) (Option.any_eq_true _ _)

/-- A running attempt is owned by its lease. -/
theorem ownership_of_runningAttempt {a : JobAttempt} (h : runningAttempt j lease a = true) :
    a.ownership = (j, lease.id, lease.generation, lease.owner) := by
  obtain ⟨hjob, hid, hgeneration, hworker, _⟩ := runningAttempt_iff.mp h
  rw [JobAttempt.ownership, hjob, hid, hgeneration, hworker]

/-- A lease owns a job exactly while its attempt runs. -/
theorem Consistent.holds_iff (hs : Consistent s) :
    Holds s j lease ↔ ∃ a ∈ s.attempts.rows, runningAttempt j lease a = true := by
  constructor
  · rintro ⟨job, hjob, hholds⟩
    obtain ⟨hid, hrunning, hgeneration, c, hc, hlease, howner⟩ := holdsLease_iff.mp hholds
    obtain ⟨_, _, c', hc', a, ha, hexecutes⟩ := hs.leased job (Table.mem_of_find? hjob) hrunning
    rw [hc] at hc'
    cases hc'
    exact ⟨a, ha, runningAttempt_iff.mpr ⟨hexecutes.jobId.trans hid, hexecutes.lease.trans hlease,
      hexecutes.generation.trans hgeneration, hexecutes.worker.trans howner, hexecutes.running⟩⟩
  · rintro ⟨a, ha, hattempt⟩
    obtain ⟨hid, hlease, hgeneration, hworker, hrunning⟩ := runningAttempt_iff.mp hattempt
    obtain ⟨job, hjob, hstate, _⟩ := hs.owner a ha
    obtain ⟨_, _, c, hc, b, hb, hexecutes⟩ :=
      hs.leased job (Table.mem_of_find? hjob) (hstate hrunning)
    have hkey := Table.key_of_find? hjob
    have hsame : b = a :=
      hs.oneRunning b hb a ha hexecutes.running hrunning (hexecutes.jobId.trans hkey)
    subst hsame
    refine ⟨job, hid ▸ hjob, holdsLease_iff.mpr ⟨hkey.trans hid, hstate hrunning,
      hexecutes.generation.symm.trans hgeneration, c, hc, hexecutes.lease.symm.trans hlease,
      hexecutes.worker.symm.trans hworker⟩⟩

/-- A lease that lost its job owns no job at any later time. -/
theorem not_holds_of_lost (hs : Consistent s) (hs' : Consistent s') (hs'' : Consistent s'')
    (h : Advances s s') (h' : Advances s' s'') (hdrawn : DrawnOnce s'')
    (hheld : Holds s j lease) (hlost : ¬ Holds s' j lease) (k : JobId) :
    ¬ Holds s'' k lease := by
  intro hagain
  obtain ⟨a, ha, hattempt⟩ := hs.holds_iff.mp hheld
  obtain ⟨a', ha', hownership', _⟩ := h.kept a ha
  obtain ⟨a'', ha'', hownership'', hrunning''⟩ := h'.kept a' ha'
  obtain ⟨b, hb, hother⟩ := hs''.holds_iff.mp hagain
  rw [ownership_of_runningAttempt hattempt] at hownership'
  rw [hownership'] at hownership''
  simp only [JobAttempt.ownership, Prod.mk.injEq] at hownership' hownership''
  -- the attempt that runs again under the lease is the one that was closed
  have hsame : a'' = b :=
    hdrawn a'' ha'' b hb (hownership''.2.1.trans (runningAttempt_iff.mp hother).2.1.symm)
  apply hlost
  refine hs'.holds_iff.mpr ⟨a', ha', runningAttempt_iff.mpr ⟨hownership'.1, hownership'.2.1,
    hownership'.2.2.1, hownership'.2.2.2, hrunning'' ?_⟩⟩
  rw [hsame]
  exact (runningAttempt_iff.mp hother).2.2.2.2

/-! ## Operations that present a lease -/

/-- The lease a worker presents with an operation on its own job. -/
def Operation.presents : Operation → Option (JobId × JobLease)
  | .heartbeat jobId lease _ _ | .succeed jobId lease _ | .fail jobId lease _ _ _
  | .failTerminal jobId lease _ _ | .failTerminalProduction jobId lease _ _
  | .cancel jobId lease _ | .requeueAfterStoragePressure jobId lease _
  | .appendCheckpoint jobId _ lease _ _ => some (jobId, lease)
  | _ => none

/-- A transaction that never succeeds commits nothing. -/
theorem commit_of_refused {α : Type} {x : QueueTx α} (h : ∀ a s', x s ≠ .ok (a, s')) :
    (x.commit s).2 = s := by
  rcases hx : x s with e | ⟨a, s'⟩
  · rw [commit_of_error hx]
  · exact absurd hx (h a s')

/-- The lease check of the running job passes for its owner only. -/
theorem holds_of_lease {job : JobRecord} (hjob : s.jobs.find? j = some job)
    (hrunning : job.state = .running) (hlease : job.lease = some lease) : Holds s j lease := by
  refine ⟨job, hjob, holdsLease_iff.mpr ⟨Table.key_of_find? hjob, hrunning, ?_⟩⟩
  obtain ⟨c, hc, rfl⟩ := Option.map_eq_some_iff.mp hlease
  exact ⟨rfl, c, hc, rfl, rfl⟩

/-- What succeeds under a lease holds it. -/
theorem holds_of_owned {α : Type} {f : JobRecord → QueueTx α} {a : α}
    (h : (selectOwnedRunningJob j lease now >>= f) s = .ok (a, s')) : Holds s j lease := by
  obtain ⟨job, hjob, hrunning, hlease, _, _⟩ := selectOwnedRunningJob_bind_eq_ok.mp h
  exact holds_of_lease hjob hrunning hlease

/-- A row changed under a lease holds it. -/
theorem holds_of_changed {p : JobRecord → Bool}
    (hp : ∀ job, p job = true → holdsLease j lease job = true) (h : s.jobs.changed p = 1) :
    Holds s j lease := by
  obtain ⟨job, hjob, hpjob⟩ :=
    (Table.changed_eq_one_iff fun job hpjob => (holdsLease_iff.mp (hp job hpjob)).1).mp h
  exact ⟨job, hjob, hp job hpjob⟩

/-- An operation that presents a lease which does not own the job is refused. -/
theorem apply_of_not_holds {op : Operation} (hop : op.presents = some (j, lease))
    (hlost : ¬ Holds s j lease) : apply s op = s := by
  have hrefused : ∀ {α : Type} {f : JobRecord → QueueTx α} {now : ℤ},
      ((selectOwnedRunningJob j lease now >>= f).commit s).2 = s :=
    commit_of_refused fun _ _ h => hlost (holds_of_owned h)
  cases op with
  -- a heartbeat counts the rows it changed instead of checking the lease first
  | heartbeat jobId presented now duration =>
    cases hop
    refine commit_of_refused fun _ _ h => hlost ?_
    obtain ⟨_, h⟩ := require_bind_eq_ok.mp h
    obtain ⟨expiresAt, _, h⟩ := orFail_bind_eq_ok.mp h
    rw [read_bind] at h
    split at h
    · rename_i hchanged
      exact holds_of_changed (fun job hjob => (Bool.and_eq_true _ _ ▸ hjob).1) hchanged
    · rcases hfind : s.jobs.find? j with _ | job
      · rw [hfind] at h
        cases h
      · rw [hfind] at h
        dsimp only at h
        split at h <;> cases h
  | succeed jobId presented now =>
    cases hop
    exact hrefused
  | fail jobId presented now failure retryAt =>
    cases hop
    exact hrefused
  | failTerminal jobId presented now failure =>
    cases hop
    refine commit_of_refused fun _ _ h => hlost ?_
    obtain ⟨_, _, hfail, _⟩ := bind_eq_ok.mp h
    exact holds_of_owned hfail
  | failTerminalProduction jobId presented now failure =>
    cases hop
    exact hrefused
  | cancel jobId presented now =>
    cases hop
    exact hrefused
  -- two transactions; a refused first one leaves nothing for the second
  | requeueAfterStoragePressure jobId presented now =>
    cases hop
    show (requeueAfterStoragePressure j lease now s).2 = s
    unfold requeueAfterStoragePressure
    rcases htx : requeueAfterStoragePressureTx j lease now s with e | ⟨result, s₁⟩
    · rw [commit_of_error htx]
    · exact absurd (holds_of_owned htx) hlost
  -- a checkpoint looks for the lease among the rows of its job
  | appendCheckpoint jobId attemptId presented identity createdAt =>
    cases hop
    refine commit_of_refused fun _ _ h => hlost ?_
    unfold appendCheckpoint at h
    rw [read_bind] at h
    obtain ⟨job, hfind, h⟩ := orFail_bind_eq_ok.mp h
    obtain ⟨howned, _⟩ := require_bind_eq_ok.mp h
    obtain ⟨owner, howner, hholds⟩ := List.any_eq_true.mp howned
    rw [Bool.and_eq_true] at hholds
    have hkey := (holdsLease_iff.mp hholds.1).1
    exact ⟨owner, hkey ▸ Table.find?_key howner, hholds.1⟩
  -- the other operations present no lease
  | _ => cases hop

/-- The lease check of a running job lets the lease pass at this time. -/
def PassesLeaseCheck (s : QueueStore) (j : JobId) (lease : JobLease) (now : ℤ) : Prop :=
  ∃ job, selectOwnedRunningJob j lease now s = .ok (job, s)

instance (s : QueueStore) (j : JobId) (lease : JobLease) (now : ℤ) :
    Decidable (PassesLeaseCheck s j lease now) :=
  decidable_of_iff (∃ job ∈ s.jobs.find? j, job.state = .running ∧ job.lease = some lease ∧
      now < lease.expiresAt) (by
    simp only [PassesLeaseCheck, selectOwnedRunningJob_eq_ok, and_true, Option.mem_def])

/-- One lease of a job passes the check. -/
theorem PassesLeaseCheck.unique {lease' : JobLease} {now' : ℤ}
    (h : PassesLeaseCheck s j lease now) (h' : PassesLeaseCheck s j lease' now') :
    lease = lease' := by
  obtain ⟨job, hcheck⟩ := h
  obtain ⟨job', hcheck'⟩ := h'
  obtain ⟨hjob, _, hlease, _⟩ := selectOwnedRunningJob_eq_ok.mp hcheck
  obtain ⟨hjob', _, hlease', _⟩ := selectOwnedRunningJob_eq_ok.mp hcheck'
  rw [hjob] at hjob'
  cases hjob'
  rw [hlease] at hlease'
  exact Option.some_inj.mp hlease'

/-- **Lease fencing.**  A lease that owned its job after some inputs and no longer
owns it after some more is dead: whatever follows, an operation that presents it,
for this job or another, changes nothing.  And at every moment one lease value at
most passes the check of a job. -/
theorem lease_fenced :
    (∀ (before during later : List Input) (j : JobId) (lease : JobLease),
      Holds (after step .empty before) j lease →
      ¬ Holds (after step .empty (before ++ during)) j lease →
      ∀ (k : JobId) (op : Operation), op.presents = some (k, lease) →
        apply (after step .empty (before ++ during ++ later)) op =
          after step .empty (before ++ during ++ later)) ∧
    ∀ (inputs : List Input) (j : JobId) (lease lease' : JobLease) (now now' : ℤ),
      PassesLeaseCheck (after step .empty inputs) j lease now →
      PassesLeaseCheck (after step .empty inputs) j lease' now' → lease = lease' := by
  refine ⟨fun before during later j lease hheld hlost k op hop => ?_,
    fun _ _ _ _ _ _ h h' => h.unique h'⟩
  have hduring : Advances (after step .empty before) (after step .empty (before ++ during)) := by
    rw [after_append]
    exact after_advances _ during
  have hlater : Advances (after step .empty (before ++ during))
      (after step .empty (before ++ during ++ later)) := by
    rw [after_append _ _ (before ++ during)]
    exact after_advances _ later
  exact apply_of_not_holds hop (not_holds_of_lost (after_consistent before) (after_consistent _)
    (after_consistent _) hduring hlater (after_drawnOnce _) hheld hlost k)

/-- A worker that lost its lease to another one completes in vain. -/
theorem lease_fenced_reacquired :
    let before : List Input :=
      [.operation (.enqueue ⟨1, .quickScrape, 0, none, none, 0, 2⟩ 0),
        .operation (.acquireNext "a" 0 60 true ⟨100, 200⟩)]
    let during : List Input := [.operation (.acquireNext "b" 100 60 true ⟨101, 201⟩)]
    apply (after step .empty (before ++ during ++ [])) (.succeed 1 ⟨100, "a", 1, 0, 60, 0⟩ 50) =
        after step .empty (before ++ during ++ []) ∧
      PassesLeaseCheck (after step .empty (before ++ during)) 1 ⟨101, "b", 2, 100, 160, 100⟩ 101 :=
  ⟨lease_fenced.1 _ _ _ 1 ⟨100, "a", 1, 0, 60, 0⟩ (by decide +kernel) (by decide +kernel) 1 _ rfl,
    by decide +kernel⟩

end Erabi.Queue
