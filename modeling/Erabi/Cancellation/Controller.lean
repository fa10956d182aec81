/-
# The cancellation controller

Cooperative cancellation of queued and active jobs.  A request records its job in a
section under the lock and signals the token it saw there afterwards; the worker
registers a token when it has acquired a job and releases it at the end of its turn.
Every section under the lock, every signal and every durable operation is one step.
A poisoned lock, behind which every token counts as cancelled, is left out.
-/
import Mathlib
import Erabi.Queue.Settled

namespace Erabi.Cancellation

open Queue Relational Relational.Transaction Transition

/-- The flag a `CancellationToken` shares with its clones. -/
abbrev TokenId := ℕ

/-! ## The controller -/

/-- The requests, and the tokens of the jobs that run. -/
structure ControllerState where
  requested : Finset JobId
  active : Table (JobId × TokenId) JobId Prod.fst
  shutdownRequested : Bool

namespace ControllerState

/-- No request and no job. -/
def initial : ControllerState := ⟨∅, .empty, false⟩

/-- The token currently registered for a job. -/
def token (state : ControllerState) (jobId : JobId) : Option TokenId :=
  (state.active.find? jobId).map Prod.snd

/-- Whether a token registered now starts cancelled. -/
def cancelNow (state : ControllerState) (jobId : JobId) : Bool :=
  state.shutdownRequested || decide (jobId ∈ state.requested)

/-- A job runs under a token. -/
def register (state : ControllerState) (jobId : JobId) (token : TokenId) : ControllerState :=
  { state with active := state.active.put (jobId, token) }

/-- Records a request; the token of the active handler is read with it. -/
def request (state : ControllerState) (jobId : JobId) : ControllerState :=
  { state with requested := insert jobId state.requested }

/-- Everything is to be cancelled. -/
def cancelAll (state : ControllerState) : ControllerState :=
  { state with shutdownRequested := true }

/-- Removes the active token, and the request after a terminal boundary. -/
def release (state : ControllerState) (jobId : JobId) (terminalBoundary : Bool) :
    ControllerState where
  requested := if terminalBoundary then state.requested.erase jobId else state.requested
  active := state.active.delete fun entry => entry.1 = jobId
  shutdownRequested := state.shutdownRequested

/-- A request is forgotten after its job has ended. -/
def retireAfterTerminalBoundary (state : ControllerState) (jobId : JobId) : ControllerState :=
  { state with requested := state.requested.erase jobId }

variable (state : ControllerState) (j k : JobId) (t : TokenId)

/-- The tokens after a registration. -/
theorem token_register :
    (state.register j t).token k = if j = k then some t else state.token k := by
  show ((state.active.put (j, t)).find? k).map Prod.snd = _
  rw [Table.find?_put]
  split
  · rfl
  · rfl

/-- The tokens after a release. -/
theorem token_release (terminalBoundary : Bool) :
    (state.release j terminalBoundary).token k = if k = j then none else state.token k := by
  show ((state.active.delete _).find? k).map Prod.snd = _
  rw [Table.find?_delete, token]
  rcases hk : state.active.find? k with _ | entry
  · simp
  · have hkey : entry.1 = k := Table.key_of_find? hk
    by_cases hkj : k = j
    · rw [if_pos hkj, Option.filter_some_neg (by simp [hkey, hkj])]
      rfl
    · rw [if_neg hkj, Option.filter_some_pos (by simp [hkey, hkj])]

@[simp] theorem token_request : (state.request j).token k = state.token k := rfl

@[simp] theorem token_retire : (state.retireAfterTerminalBoundary j).token k = state.token k := rfl

end ControllerState

/-! ## The worker, its callers and the queue -/

/-- Where the worker is in its turn. -/
inductive WorkerPhase : Type where
  | idle
  /-- Shutdown has not been requested; the acquisition comes next. -/
  | polling
  | acquired (jobId : JobId)
  | executing (jobId : JobId) (token : TokenId)
  /-- The outcome is known, and whether it is a terminal boundary. -/
  | finished (jobId : JobId) (token : TokenId) (terminalBoundary : Bool)
  deriving DecidableEq, Repr

/-- The job a token is held for, and the token. -/
def WorkerPhase.held : WorkerPhase → Option (JobId × TokenId)
  | .executing jobId token | .finished jobId token _ => some (jobId, token)
  | _ => none

/-- A call under way: a cancellation request between its steps, or a shutdown that
has tokens left to signal. -/
inductive Call : Type where
  | signalling (jobId : JobId) (token : Option TokenId)
  | inspecting (jobId : JobId)
  | retiring (jobId : JobId)
  | shuttingDown (tokens : List TokenId)
  deriving DecidableEq, Repr

/-- Names a call of the API. -/
abbrev CallId := ℕ

/-- The queue, the controller, the worker and the calls. -/
structure System where
  store : QueueStore
  controller : ControllerState
  /-- The tokens whose flag is set. -/
  cancelled : Finset TokenId
  nextToken : TokenId
  worker : WorkerPhase
  calls : CallId → Option Call
  /-- The jobs for which a call of `request` has returned. -/
  accepted : Finset JobId

/-- A process that has just started on a queue. -/
def System.initial (store : QueueStore) : System :=
  ⟨store, .initial, ∅, 0, .idle, fun _ => none, ∅⟩

/-! ## Steps -/

/-- What may happen next. -/
inductive Input : Type where
  /-- Anything else that happens to the queue: heartbeats, handlers, the API. -/
  | durable (input : Queue.Input)
  | poll
  | acquire (workerId : String) (now leaseDurationSeconds : ℤ) (allowArtifactHeavy : Bool)
      (ids : LeaseIds)
  | register
  /-- The handler has returned; the flags it left behind are part of `execution`. -/
  | executeAcquired (execution : ExecutionEnd)
  /-- The job carries no lease, the lease was lost, or the clock failed. -/
  | executionFailed
  | release
  /-- A holder of the token cancels it. -/
  | cancelToken (token : TokenId)
  | request (call : CallId) (jobId : JobId)
  | signal (call : CallId)
  | cancelQueued (call : CallId) (now : ℤ)
  | retire (call : CallId)
  /-- The caller goes away while the queue is inspected. -/
  | abandon (call : CallId)
  | cancelAll (call : CallId)

namespace System

variable (s : System)

/-- A call goes on, or returns. -/
def answer (call : CallId) (next : Option Call) : System :=
  { s with calls := Function.update s.calls call next }

/-- Leases the next job, if there is one. -/
def acquire (workerId : String) (now leaseDurationSeconds : ℤ) (allowArtifactHeavy : Bool)
    (ids : LeaseIds) : System :=
  match (acquireNext workerId now leaseDurationSeconds allowArtifactHeavy ids).commit s.store with
  | (.ok (some (job, _)), store) => { s with store, worker := .acquired job.id }
  | (_, store) => { s with store, worker := .idle }

/-- The worker registers its job under a new token. -/
def register (jobId : JobId) : System :=
  { s with
    controller := s.controller.register jobId s.nextToken
    cancelled := if s.controller.cancelNow jobId then insert s.nextToken s.cancelled else s.cancelled
    nextToken := s.nextToken + 1
    worker := .executing jobId s.nextToken }

/-- The outcomes that retire a cancellation request. -/
def terminalBoundary : Except JobRuntimeError WorkerTurn → Bool
  | .ok result => result.terminal
  | .error _ => false

/-- The worker's execution has ended. -/
def executeAcquired (jobId : JobId) (token : TokenId) (execution : ExecutionEnd) : System :=
  let outcome := Queue.executeAcquired { execution with jobId } s.store
  { s with store := outcome.2, worker := .finished jobId token (terminalBoundary outcome.1) }

/-- The part of `request` under the lock. -/
def request (call : CallId) (jobId : JobId) : System :=
  { s with controller := s.controller.request jobId }.answer call
    (some (.signalling jobId (s.controller.token jobId)))

/-- `request` signals the token it saw, and returns. -/
def signal (call : CallId) (jobId : JobId) (token : Option TokenId) : System :=
  { s with
    cancelled := s.cancelled ∪ token.toFinset
    accepted := insert jobId s.accepted }.answer call (some (.inspecting jobId))

/-- `request_job_cancellation` cancels queued work and looks at the state. -/
def cancelQueued (call : CallId) (jobId : JobId) (now : ℤ) : System :=
  match (Queue.cancelQueued jobId now).commit s.store with
  | (.ok state, store) =>
    { s with store }.answer call (if state.active then none else some (.retiring jobId))
  | (.error _, store) => { s with store }.answer call none

/-- One input of the system. -/
def step (s : System) : Input → System
  | .durable input => { s with store := Queue.step s.store input }
  | .poll =>
    if s.worker = .idle ∧ s.controller.shutdownRequested = false then { s with worker := .polling }
    else s
  | .acquire workerId now leaseDurationSeconds allowArtifactHeavy ids =>
    if s.worker = .polling then s.acquire workerId now leaseDurationSeconds allowArtifactHeavy ids
    else s
  | .register =>
    match s.worker with
    | .acquired jobId => s.register jobId
    | _ => s
  | .executeAcquired execution =>
    match s.worker with
    | .executing jobId token => s.executeAcquired jobId token execution
    | _ => s
  | .executionFailed =>
    match s.worker with
    | .executing jobId token => { s with worker := .finished jobId token false }
    | _ => s
  | .release =>
    match s.worker with
    | .finished jobId _ terminalBoundary =>
      { s with controller := s.controller.release jobId terminalBoundary, worker := .idle }
    | _ => s
  | .cancelToken token => { s with cancelled := insert token s.cancelled }
  | .request call jobId => if s.calls call = none then s.request call jobId else s
  | .signal call =>
    match s.calls call with
    | some (.signalling jobId token) => s.signal call jobId token
    | some (.shuttingDown (token :: tokens)) =>
      { s with cancelled := insert token s.cancelled }.answer call (some (.shuttingDown tokens))
    | some (.shuttingDown []) => s.answer call none
    | _ => s
  | .cancelQueued call now =>
    match s.calls call with
    | some (.inspecting jobId) => s.cancelQueued call jobId now
    | _ => s
  | .retire call =>
    match s.calls call with
    | some (.retiring jobId) =>
      { s with controller := s.controller.retireAfterTerminalBoundary jobId }.answer call none
    | _ => s
  | .abandon call =>
    match s.calls call with
    | some (.inspecting _) => s.answer call none
    | _ => s
  | .cancelAll call =>
    if s.calls call = none then
      { s with controller := s.controller.cancelAll }.answer call
        (some (.shuttingDown (s.controller.active.rows.map Prod.snd)))
    else s

end System

end Erabi.Cancellation
