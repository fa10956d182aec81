/-
# The lifecycle of jobs and runs

What the queue is for, without leases, attempts or statements: every job has a
state and possibly a run, every run has a status.  Three properties relate the
two: at most one active job serves a run, every open run has an active job, and
the settled jobs of an ended run agree with its status.
-/
import Mathlib
import Erabi.Queue.Repository

namespace Erabi.Queue

/-! ## The view -/

/-- A job as its run sees it. -/
structure JobView where
  state : JobState
  run : Option CrawlRunId
  deriving DecidableEq, Repr

/-- The states of all jobs and the statuses of all runs. -/
structure Lifecycle where
  job : JobId → Option JobView
  run : CrawlRunId → Option CrawlRunStatus

namespace Lifecycle

/-- Lifecycles with the same jobs and runs are equal. -/
@[ext] theorem ext {l m : Lifecycle} (hjob : ∀ j, l.job j = m.job j)
    (hrun : ∀ r, l.run r = m.run r) : l = m := by
  cases l; cases m
  congr
  · exact funext hjob
  · exact funext hrun

/-- A new queued job. -/
def addJob (l : Lifecycle) (j : JobId) (run : Option CrawlRunId) : Lifecycle :=
  { l with job := fun k => if j = k then some ⟨.queued, run⟩ else l.job k }

/-- A new queued run. -/
def addRun (l : Lifecycle) (r : CrawlRunId) : Lifecycle :=
  { l with run := fun q => if r = q then some .queued else l.run q }

/-- A job in another state. -/
def moveJob (l : Lifecycle) (j : JobId) (state : JobState) : Lifecycle :=
  { l with job := fun k => (l.job k).map fun v => if k = j then { v with state } else v }

/-- A run in another status. -/
def setRun (l : Lifecycle) (r : CrawlRunId) (status : CrawlRunStatus) : Lifecycle :=
  { l with run := fun q => (l.run q).map fun old => if q = r then status else old }

/-- Cancelling the run of a job changes open runs only. -/
def cancelOpen (l : Lifecycle) (run : Option CrawlRunId) : Lifecycle :=
  { l with run := fun q => (l.run q).map fun old =>
      if run = some q ∧ old.terminal = false then .cancelled else old }

/-- A job is gone. -/
def dropJob (l : Lifecycle) (j : JobId) : Lifecycle :=
  { l with job := fun k => if k = j then none else l.job k }

/-! ## Properties -/

/-- The job is attached to the run and queued or running. -/
def ActiveOn (l : Lifecycle) (r : CrawlRunId) (j : JobId) : Prop :=
  ∃ v, l.job j = some v ∧ v.run = some r ∧ v.state.active = true

/-- Every run a job names exists. -/
def Attached (l : Lifecycle) : Prop :=
  ∀ j v r, l.job j = some v → v.run = some r → ∃ status, l.run r = some status

/-- At most one active job per run. -/
def Exclusive (l : Lifecycle) : Prop :=
  ∀ r j k, l.ActiveOn r j → l.ActiveOn r k → j = k

/-- Every open run has an active job. -/
def Served (l : Lifecycle) : Prop :=
  ∀ r status, l.run r = some status → status.terminal = false → ∃ j, l.ActiveOn r j

/-- The job state an ended run selects for its jobs. -/
def settledState (status : CrawlRunStatus) : Option JobState :=
  (terminalOutcome status).map (·.1)

/-- A job in this state may be attached to a run of this status: the run is
open, or the job is running or in the state the run selects. -/
def Agrees (state : JobState) (status : CrawlRunStatus) : Prop :=
  ∀ settled, settledState status = some settled → state = .running ∨ state = settled

instance (state : JobState) (status : CrawlRunStatus) : Decidable (Agrees state status) := by
  unfold Agrees
  cases settledState status with
  | none => exact isTrue (by simp)
  | some settled =>
    exact decidable_of_iff (state = .running ∨ state = settled) (by simp)

/-- Every job attached to an ended run is running or in the state the run
selects. -/
def Reconciled (l : Lifecycle) : Prop :=
  ∀ j v r status, l.job j = some v → v.run = some r → l.run r = some status →
    Agrees v.state status

/-- Every job attached to the run except `j` agrees with the status. -/
def OthersAgree (l : Lifecycle) (r : CrawlRunId) (j : JobId) (status : CrawlRunStatus) : Prop :=
  ∀ k v, k ≠ j → l.job k = some v → v.run = some r → Agrees v.state status

end Lifecycle

open Lifecycle

/-- An open run has no outcome. -/
theorem terminalOutcome_of_open {status : CrawlRunStatus} (h : status.terminal = false) :
    terminalOutcome status = none := by
  cases status <;> first | rfl | cases h

/-- An open run settles no job. -/
theorem settledState_of_open {status : CrawlRunStatus} (h : status.terminal = false) :
    settledState status = none := by
  rw [settledState, terminalOutcome_of_open h]
  rfl

/-- An ended run settles its job in an ended state. -/
theorem settledState_of_terminal {status : CrawlRunStatus} (h : status.terminal = true) :
    ∃ settled, settledState status = some settled ∧ settled.active = false := by
  cases status <;> first | exact ⟨_, rfl, rfl⟩ | cases h

/-- A job in any state agrees with an open run. -/
theorem agrees_of_open {state : JobState} {status : CrawlRunStatus}
    (h : status.terminal = false) : Agrees state status := by
  intro settled hs
  rw [settledState_of_open h] at hs
  cases hs

/-- A running job agrees with any status. -/
theorem agrees_running (status : CrawlRunStatus) : Agrees .running status :=
  fun _ _ => Or.inl rfl

/-- A job settled as its run says agrees with it. -/
theorem agrees_settled {status : CrawlRunStatus} {settled : JobState}
    (h : settledState status = some settled) : Agrees settled status := by
  intro other ho
  rw [h] at ho
  exact Or.inr (Option.some.inj ho)

/-- A queued job agrees with open runs only. -/
theorem open_of_agrees_queued {status : CrawlRunStatus} (h : Agrees .queued status) :
    status.terminal = false := by
  cases status with
  | queued => rfl
  | running => rfl
  | succeeded => rcases h _ rfl with e | e <;> cases e
  | partialResult => rcases h _ rfl with e | e <;> cases e
  | failed => rcases h _ rfl with e | e <;> cases e
  | cancelled => rcases h _ rfl with e | e <;> cases e

namespace Lifecycle

variable {l : Lifecycle} {j k : JobId} {r q : CrawlRunId}

/-- The jobs with one more. -/
@[simp] theorem addJob_job (run : Option CrawlRunId) :
    (l.addJob j run).job k = if j = k then some ⟨.queued, run⟩ else l.job k := rfl

@[simp] theorem addJob_run (run : Option CrawlRunId) : (l.addJob j run).run q = l.run q := rfl

@[simp] theorem addRun_job : (l.addRun r).job k = l.job k := rfl

@[simp] theorem addRun_run :
    (l.addRun r).run q = if r = q then some .queued else l.run q := rfl

/-- The jobs with one of them moved. -/
@[simp] theorem moveJob_job (state : JobState) : (l.moveJob j state).job k =
    (l.job k).map fun v => if k = j then { v with state } else v := rfl

@[simp] theorem moveJob_run (state : JobState) : (l.moveJob j state).run q = l.run q := rfl

@[simp] theorem setRun_job (status : CrawlRunStatus) : (l.setRun r status).job k = l.job k := rfl

/-- The runs with one of them set. -/
@[simp] theorem setRun_run (status : CrawlRunStatus) : (l.setRun r status).run q =
    (l.run q).map fun old => if q = r then status else old := rfl

@[simp] theorem cancelOpen_job (run : Option CrawlRunId) :
    (l.cancelOpen run).job k = l.job k := rfl

/-- The runs with an open one cancelled. -/
@[simp] theorem cancelOpen_run (run : Option CrawlRunId) : (l.cancelOpen run).run q =
    (l.run q).map fun old =>
      if run = some q ∧ old.terminal = false then .cancelled else old := rfl

@[simp] theorem dropJob_job : (l.dropJob j).job k = if k = j then none else l.job k := rfl

@[simp] theorem dropJob_run : (l.dropJob j).run q = l.run q := rfl

/-- A job of the moved lifecycle was there before, with the same run. -/
theorem job_of_moveJob {state : JobState} {v : JobView}
    (h : (l.moveJob j state).job k = some v) :
    ∃ w, l.job k = some w ∧ v.run = w.run ∧ v.state = if k = j then state else w.state := by
  obtain ⟨w, hw, rfl⟩ := Option.map_eq_some_iff.mp h
  refine ⟨w, hw, ?_⟩
  split <;> exact ⟨rfl, rfl⟩

/-- A run of the updated lifecycle was there before. -/
theorem run_of_setRun {status old : CrawlRunStatus} (h : (l.setRun r status).run q = some old) :
    ∃ before, l.run q = some before ∧ old = if q = r then status else before := by
  obtain ⟨before, hb, rfl⟩ := Option.map_eq_some_iff.mp h
  exact ⟨before, hb, rfl⟩

/-! ## Every job keeps an existing run -/

/-- A new job under a run that exists keeps jobs attached. -/
theorem Attached.addJob (h : l.Attached) {run : Option CrawlRunId}
    (hrun : ∀ r ∈ run, ∃ status, l.run r = some status) : (l.addJob j run).Attached := by
  intro k v r hk hr
  rw [addJob_job] at hk
  split at hk
  · cases hk
    exact hrun r hr
  · exact h k v r hk hr

/-- A new run keeps jobs attached. -/
theorem Attached.addRun (h : l.Attached) : (l.addRun r).Attached := by
  intro k v q hk hq
  rw [addRun_run]
  split
  · exact ⟨_, rfl⟩
  · exact h k v q hk hq

/-- A move keeps jobs attached. -/
theorem Attached.moveJob (h : l.Attached) (state : JobState) : (l.moveJob j state).Attached := by
  intro k v q hk hq
  obtain ⟨w, hw, hrun, _⟩ := job_of_moveJob hk
  exact h k w q hw (hrun ▸ hq)

/-- A new status keeps jobs attached. -/
theorem Attached.setRun (h : l.Attached) (status : CrawlRunStatus) :
    (l.setRun r status).Attached := by
  intro k v q hk hq
  obtain ⟨before, hb⟩ := h k v q hk hq
  exact ⟨_, by rw [setRun_run, hb]; rfl⟩

/-- Cancellation of a run keeps jobs attached. -/
theorem Attached.cancelOpen (h : l.Attached) (run : Option CrawlRunId) :
    (l.cancelOpen run).Attached := by
  intro k v q hk hq
  obtain ⟨before, hb⟩ := h k v q hk hq
  exact ⟨_, by rw [cancelOpen_run, hb]; rfl⟩

/-- A removal keeps the other jobs attached. -/
theorem Attached.dropJob (h : l.Attached) : (l.dropJob j).Attached := by
  intro k v q hk hq
  rw [dropJob_job] at hk
  split at hk
  · cases hk
  · exact h k v q hk hq

/-- No job is attached to a run that does not exist. -/
theorem Attached.not_activeOn (h : l.Attached) (hr : l.run r = none) : ¬ l.ActiveOn r k := by
  rintro ⟨v, hk, hrun, _⟩
  obtain ⟨status, hs⟩ := h k v r hk hrun
  rw [hr] at hs
  cases hs

/-! ## At most one active job per run -/

/-- A job active after an insertion is the new one or was active before. -/
theorem activeOn_addJob {run : Option CrawlRunId} (h : (l.addJob j run).ActiveOn r k) :
    (j = k ∧ run = some r) ∨ l.ActiveOn r k := by
  obtain ⟨v, hk, hrun, hactive⟩ := h
  rw [addJob_job] at hk
  split at hk
  · rename_i hjk
    cases hk
    exact Or.inl ⟨hjk, hrun⟩
  · exact Or.inr ⟨v, hk, hrun, hactive⟩

/-- A new job keeps exclusivity when its run has no active job. -/
theorem Exclusive.addJob (h : l.Exclusive) {run : Option CrawlRunId}
    (hrun : ∀ r ∈ run, ∀ k, ¬ l.ActiveOn r k) : (l.addJob j run).Exclusive := by
  intro r a b ha hb
  rcases activeOn_addJob ha with ⟨rfl, hra⟩ | ha
  · rcases activeOn_addJob hb with ⟨rfl, _⟩ | hb
    · rfl
    · exact absurd hb (hrun r hra b)
  · rcases activeOn_addJob hb with ⟨rfl, hrb⟩ | hb
    · exact absurd ha (hrun r hrb a)
    · exact h r a b ha hb

/-- An active job of the moved lifecycle was active before, when the moved job
was active or is not active now. -/
theorem activeOn_moveJob {state : JobState}
    (hstate : state.active = true → ∃ v, l.job j = some v ∧ v.state.active = true)
    (h : (l.moveJob j state).ActiveOn r k) : l.ActiveOn r k := by
  obtain ⟨v, hk, hrun, hactive⟩ := h
  obtain ⟨w, hw, hvw, hs⟩ := job_of_moveJob hk
  refine ⟨w, hw, hvw ▸ hrun, ?_⟩
  by_cases hkj : k = j
  · rw [hs, if_pos hkj] at hactive
    obtain ⟨u, hu, hua⟩ := hstate hactive
    rw [hkj, hu] at hw
    cases hw
    exact hua
  · rw [hs, if_neg hkj] at hactive
    exact hactive

/-- A job may be moved to an active state only from an active one. -/
theorem Exclusive.moveJob (h : l.Exclusive) {state : JobState}
    (hstate : state.active = true → ∃ v, l.job j = some v ∧ v.state.active = true) :
    (l.moveJob j state).Exclusive := by
  intro r a b ha hb
  exact h r a b (activeOn_moveJob hstate ha) (activeOn_moveJob hstate hb)

/-- A removal keeps exclusivity. -/
theorem Exclusive.dropJob (h : l.Exclusive) : (l.dropJob j).Exclusive := by
  have hkeep : ∀ r k, (l.dropJob j).ActiveOn r k → l.ActiveOn r k := by
    rintro r k ⟨v, hk, hrun⟩
    rw [dropJob_job] at hk
    split at hk
    · cases hk
    · exact ⟨v, hk, hrun⟩
  intro r a b ha hb
  exact h r a b (hkeep r a ha) (hkeep r b hb)

/-! ## Every open run has an active job -/

/-- An active job stays active beside a new one. -/
theorem ActiveOn.addJob {run : Option CrawlRunId} (h : l.ActiveOn r k) (hj : l.job j = none) :
    (l.addJob j run).ActiveOn r k := by
  obtain ⟨v, hk, hv⟩ := h
  refine ⟨v, ?_, hv⟩
  rw [addJob_job, if_neg, hk]
  rintro rfl
  rw [hj] at hk
  cases hk

/-- A new job is active on its run. -/
theorem activeOn_added : (l.addJob j (some r)).ActiveOn r j :=
  ⟨⟨.queued, some r⟩, if_pos rfl, rfl, rfl⟩

/-- A new job takes no run its active job. -/
theorem Served.addJob (h : l.Served) {run : Option CrawlRunId} (hj : l.job j = none) :
    (l.addJob j run).Served := by
  intro r status hr hopen
  obtain ⟨k, hk⟩ := h r status hr hopen
  exact ⟨k, hk.addJob hj⟩

/-- A run that is open after it was given a queued job is served by that job. -/
theorem Served.addJob_of_run (hj : l.job j = none)
    (h : ∀ q status, q ≠ r → l.run q = some status → status.terminal = false →
      ∃ k, l.ActiveOn q k) : (l.addJob j (some r)).Served := by
  intro q status hq hopen
  by_cases hqr : q = r
  · subst hqr
    exact ⟨j, activeOn_added⟩
  · obtain ⟨k, hk⟩ := h q status hqr hq hopen
    exact ⟨k, hk.addJob hj⟩

/-- An active job stays active when it is moved to an active state. -/
theorem ActiveOn.moveJob {state : JobState} (h : l.ActiveOn r k)
    (hkj : k = j → state.active = true) : (l.moveJob j state).ActiveOn r k := by
  obtain ⟨v, hk, hrun, hactive⟩ := h
  by_cases hkj' : k = j
  · exact ⟨{ v with state }, by rw [moveJob_job, hk, Option.map_some, if_pos hkj'], hrun,
      hkj hkj'⟩
  · exact ⟨v, by rw [moveJob_job, hk, Option.map_some, if_neg hkj'], hrun, hactive⟩

/-- Moving a job keeps the open runs served when the job stays active, or its
run is closed or has another active job. -/
theorem Served.moveJob (h : l.Served) {state : JobState}
    (hstate : state.active = true ∨ ∀ v r status, l.job j = some v → v.run = some r →
      l.run r = some status → status.terminal = false → ∃ k, k ≠ j ∧ l.ActiveOn r k) :
    (l.moveJob j state).Served := by
  intro r status hr hopen
  obtain ⟨k, hk⟩ := h r status hr hopen
  rcases hstate with hactive | hother
  · exact ⟨k, hk.moveJob fun _ => hactive⟩
  · by_cases hkj : k = j
    · obtain ⟨v, hv, hrun, _⟩ := hk
      obtain ⟨k', hne, hk'⟩ := hother v r status (hkj ▸ hv) hrun hr hopen
      exact ⟨k', hk'.moveJob fun e => absurd e hne⟩
    · exact ⟨k, hk.moveJob fun e => absurd e hkj⟩

/-- Ending the run of a job and settling the job in one transaction. -/
theorem Served.settleWithRun (h : l.Served) {state : JobState} {status : CrawlRunStatus}
    (hstatus : status.terminal = true)
    (hrun : ∀ v q, l.job j = some v → v.run = some q → q = r) :
    ((l.moveJob j state).setRun r status).Served := by
  intro q old hq hopen
  obtain ⟨before, hb, rfl⟩ := run_of_setRun hq
  by_cases hqr : q = r
  · rw [if_pos hqr, hstatus] at hopen
    cases hopen
  · rw [if_neg hqr] at hopen
    obtain ⟨k, hk⟩ := h q before hb hopen
    refine ⟨k, ActiveOn.moveJob (l := l) hk fun hkj => ?_⟩
    obtain ⟨v, hv, hvq, _⟩ := hk
    exact absurd (hrun v q (hkj ▸ hv) hvq) hqr

/-- A run may be opened only while it has an active job. -/
theorem Served.setRun (h : l.Served) {status : CrawlRunStatus}
    (hstatus : status.terminal = true ∨ ∃ k, l.ActiveOn r k) : (l.setRun r status).Served := by
  intro q old hq hopen
  obtain ⟨before, hb, rfl⟩ := run_of_setRun hq
  by_cases hqr : q = r
  · rw [if_pos hqr] at hopen
    rcases hstatus with hterminal | hactive
    · rw [hterminal] at hopen
      cases hopen
    · exact hqr ▸ hactive
  · rw [if_neg hqr] at hopen
    exact h q before hb hopen

/-- A cancelled open run needs no active job, and no other run is touched. -/
theorem Served.settleAndCancel (h : l.Served) {state : JobState} {run : Option CrawlRunId}
    (hj : ∀ v, l.job j = some v → v.run = run) :
    ((l.moveJob j state).cancelOpen run).Served := by
  intro q old hq hopen
  rw [cancelOpen_run, moveJob_run] at hq
  obtain ⟨before, hb, rfl⟩ := Option.map_eq_some_iff.mp hq
  split at hopen
  · cases hopen
  · rename_i hother
    obtain ⟨k, hk⟩ := h q before hb hopen
    refine ⟨k, ActiveOn.moveJob (l := l) hk fun hkj => ?_⟩
    obtain ⟨v, hv, hvq, _⟩ := hk
    exact absurd ⟨(hj v (hkj ▸ hv)) ▸ hvq, hopen⟩ hother

/-- A job without a run may be removed. -/
theorem Served.dropJob (h : l.Served) (hj : ∀ v, l.job j = some v → v.run = none) :
    (l.dropJob j).Served := by
  intro r status hr hopen
  obtain ⟨k, v, hk, hrun, hactive⟩ := h r status hr hopen
  refine ⟨k, v, ?_, hrun, hactive⟩
  rw [dropJob_job, if_neg, hk]
  rintro rfl
  rw [hj v hk] at hrun
  cases hrun

/-! ## Settled jobs agree with their ended runs -/

/-- A new run has no jobs to disagree with. -/
theorem Reconciled.addRun (h : l.Reconciled) (hr : l.run r = none) (hl : l.Attached) :
    (l.addRun r).Reconciled := by
  intro k v q status hk hq hs
  rw [addRun_run] at hs
  split at hs
  · rename_i hrq
    obtain ⟨old, ho⟩ := hl k v q hk hq
    rw [← hrq, hr] at ho
    cases ho
  · exact h k v q status hk hq hs

/-- A new job agrees with a run that is open. -/
theorem Reconciled.addJob (h : l.Reconciled) {run : Option CrawlRunId}
    (hrun : ∀ r ∈ run, ∀ status, l.run r = some status → status.terminal = false) :
    (l.addJob j run).Reconciled := by
  intro k v q status hk hq hs
  rw [addJob_job] at hk
  split at hk
  · cases hk
    exact agrees_of_open (hrun q hq status hs)
  · exact h k v q status hk hq hs

/-- A job may be moved to a state that agrees with its run. -/
theorem Reconciled.moveJob (h : l.Reconciled) {state : JobState}
    (hstate : ∀ v r status, l.job j = some v → v.run = some r → l.run r = some status →
      Agrees state status) : (l.moveJob j state).Reconciled := by
  intro k v q status hk hq hs
  obtain ⟨w, hw, hrun, hvw⟩ := job_of_moveJob hk
  rw [hvw]
  split
  · rename_i hkj
    exact hstate w q status (hkj ▸ hw) (hrun ▸ hq) hs
  · exact h k w q status hw (hrun ▸ hq) hs

/-- A run may take a status that all its jobs agree with. -/
theorem Reconciled.setRun (h : l.Reconciled) {status : CrawlRunStatus}
    (hstatus : ∀ k v, l.job k = some v → v.run = some r → Agrees v.state status) :
    (l.setRun r status).Reconciled := by
  intro k v q old hk hq hs
  obtain ⟨before, hb, rfl⟩ := run_of_setRun hs
  split
  · rename_i hqr
    exact hstatus k v hk (hqr ▸ hq)
  · exact h k v q before hk hq hb

/-- Settling a job and ending its run with a status that selects this state: the
other jobs of the run decide. -/
theorem Reconciled.settleWithRun (h : l.Reconciled) {state : JobState} {status : CrawlRunStatus}
    (hstate : Agrees state status) (hothers : l.OthersAgree r j status)
    (hrun : ∀ v q, l.job j = some v → v.run = some q → q = r) :
    ((l.moveJob j state).setRun r status).Reconciled := by
  intro k v q old hk hq hs
  obtain ⟨before, hb, rfl⟩ := run_of_setRun hs
  obtain ⟨w, hw, hvw, hstate'⟩ := job_of_moveJob (l := l) hk
  rw [hstate']
  by_cases hkj : k = j
  · have hqr : q = r := hrun w q (hkj ▸ hw) (hvw ▸ hq)
    rw [if_pos hkj, if_pos hqr]
    exact hstate
  · rw [if_neg hkj]
    split
    · rename_i hqr
      exact hothers k w hkj hw (hqr ▸ hvw ▸ hq)
    · exact h k w q before hw (hvw ▸ hq) hb

/-- Cancelling a job and its open run: the other jobs of the run decide. -/
theorem Reconciled.settleAndCancel (h : l.Reconciled) {state : JobState}
    {run : Option CrawlRunId} (hj : ∀ v, l.job j = some v → v.run = run)
    (hstate : ∀ r ∈ run, ∀ status, l.run r = some status →
      Agrees state (if status.terminal = false then .cancelled else status))
    (hothers : ∀ r ∈ run, ∀ status, l.run r = some status → status.terminal = false →
      l.OthersAgree r j .cancelled) :
    ((l.moveJob j state).cancelOpen run).Reconciled := by
  intro k v q old hk hq hs
  rw [cancelOpen_run, moveJob_run] at hs
  obtain ⟨before, hb, rfl⟩ := Option.map_eq_some_iff.mp hs
  obtain ⟨w, hw, hvw, hstate'⟩ := job_of_moveJob (l := l) hk
  rw [hstate']
  by_cases hkj : k = j
  · have hrun : run = some q := (hj w (hkj ▸ hw)) ▸ hvw ▸ hq
    have hagrees := hstate q hrun before hb
    rw [if_pos hkj]
    by_cases hopen : before.terminal = false
    · rw [if_pos ⟨hrun, hopen⟩]
      rwa [if_pos hopen] at hagrees
    · rw [if_neg fun hand => hopen hand.2]
      rwa [if_neg hopen] at hagrees
  · rw [if_neg hkj]
    by_cases hand : run = some q ∧ before.terminal = false
    · rw [if_pos hand]
      exact hothers q hand.1 before hb hand.2 k w hkj hw (hvw ▸ hq)
    · rw [if_neg hand]
      exact h k w q before hw (hvw ▸ hq) hb

/-- A removal keeps the others reconciled. -/
theorem Reconciled.dropJob (h : l.Reconciled) : (l.dropJob j).Reconciled := by
  intro k v q status hk hq hs
  rw [dropJob_job] at hk
  split at hk
  · cases hk
  · exact h k v q status hk hq hs

end Lifecycle

end Erabi.Queue
