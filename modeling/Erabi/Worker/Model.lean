/-
# The database worker

One thread owns the connection and takes jobs from a queue; any number of callers put
jobs into it and wait for their answers.  Every critical section is one step, so is every
action between two of them, and the steps of the callers, of the threads that shut the
worker down and of the worker itself interleave.  A caller holds a permit from its
admission on, which the envelope of its job carries until the job is done.
-/
import Mathlib

namespace Erabi.Worker

/-- Why an operation is not executed. -/
inductive WorkerFailure where
  | shuttingDown
  | panicked
  deriving DecidableEq, Repr

/-- The lifecycle that worker and callers share. -/
inductive Lifecycle where
  | starting
  | running
  | closing
  | closed
  | panicked
  deriving DecidableEq, Repr

/-- `failure_for`. -/
def failureFor : Lifecycle → WorkerFailure
  | .panicked => .panicked
  | .starting | .running | .closing | .closed => .shuttingDown

section Envelopes

variable (δ ρ : Type)

/-- An operation on the connection, `none` when it panics. -/
abbrev Operation : Type := δ → Option (δ × ρ)

/-- What a caller is told. -/
abbrev Answer : Type := Except WorkerFailure ρ

/-- The operation, the responder and the permit of a job are taken out one after the
other. -/
structure JobEnvelope where
  caller : ℕ
  operation : Option (Operation δ ρ)
  responder : Bool
  permit : Bool

/-! ## Threads -/

/-- Where a caller stands.  A caller whose future is dropped leaves, and nobody waits for
the answer any more. -/
inductive CallerPhase where
  | acquiring (operation : Operation δ ρ)
  | permitted (operation : Operation δ ρ)
  | observing
  | failing (permit : Bool) (jobs : List (JobEnvelope δ ρ))
  | awaiting
  | returned (answer : Answer ρ)
  | dropped

/-- A caller and the channel that its answer comes through. -/
structure Caller where
  phase : CallerPhase δ ρ
  response : Option (Answer ρ)

/-- Where the worker thread stands.  A job that panics is failed once the lifecycle has
been changed, and after it the jobs that were waiting. -/
inductive WorkerPhase where
  | opening
  | opened
  | announcing
  | looping
  | waiting (notified : Bool)
  | executing (job : JobEnvelope δ ρ)
  | responding (job : JobEnvelope δ ρ) (result : ρ)
  | releasing (job : JobEnvelope δ ρ)
  | panicking (job : JobEnvelope δ ρ)
  | failing (current : Option (JobEnvelope δ ρ)) (jobs : List (JobEnvelope δ ρ))
  | exited (lifecycle : Lifecycle)
  | aborted

/-- The worker and all who know it.  `history` and `executed` are no state of the
program: they record which operations were admitted and which were executed. -/
structure WorkerState where
  lifecycle : Lifecycle
  queue : List (JobEnvelope δ ρ)
  poisoned : Bool
  available : ℕ
  capacityClosed : Bool
  /-- `start` has returned a handle. -/
  started : Bool
  connection : δ
  worker : WorkerPhase δ ρ
  callers : List (Caller δ ρ)
  closers : List (List (JobEnvelope δ ρ))
  history : List (ℕ × Operation δ ρ)
  executed : List (ℕ × ρ)

end Envelopes

variable {δ ρ : Type}

/-- An envelope that nothing was taken out of. -/
def JobEnvelope.new (caller : ℕ) (operation : Operation δ ρ) : JobEnvelope δ ρ :=
  ⟨caller, some operation, true, true⟩

/-- The jobs that the worker holds. -/
def WorkerPhase.jobs : WorkerPhase δ ρ → List (JobEnvelope δ ρ)
  | .executing job | .responding job _ | .releasing job | .panicking job => [job]
  | .failing current jobs => current.toList ++ jobs
  | .opening | .opened | .announcing | .looping | .waiting _ | .exited _ | .aborted => []

/-- The worker, woken when it waits. -/
def WorkerPhase.notified : WorkerPhase δ ρ → WorkerPhase δ ρ
  | .waiting _ => .waiting true
  | phase => phase

/-- The jobs that a failing caller holds. -/
def CallerPhase.jobs : CallerPhase δ ρ → List (JobEnvelope δ ρ)
  | .failing _ jobs => jobs
  | .acquiring _ | .permitted _ | .observing | .awaiting | .returned _ | .dropped => []

namespace WorkerState

/-- `WorkerShared::new`, before the worker thread has opened the connection. -/
def new (capacity : ℕ) (connection : δ) : WorkerState δ ρ where
  lifecycle := .starting
  queue := []
  poisoned := false
  available := capacity
  capacityClosed := false
  started := false
  connection := connection
  worker := .opening
  callers := []
  closers := []
  history := []
  executed := []

/-! ## What the threads do to the state -/

/-- The phase of a caller. -/
def phase (s : WorkerState δ ρ) (c : ℕ) : Option (CallerPhase δ ρ) :=
  (s.callers[c]?).map Caller.phase

/-- The response that a caller was sent. -/
def response (s : WorkerState δ ρ) (c : ℕ) : Option (Answer ρ) :=
  (s.callers[c]?).bind Caller.response

/-- A caller enters a phase. -/
def move (s : WorkerState δ ρ) (c : ℕ) (phase : CallerPhase δ ρ) : WorkerState δ ρ :=
  { s with callers := s.callers.modify c fun caller => { caller with phase := phase } }

/-- The worker enters a phase. -/
def proceed (s : WorkerState δ ρ) (worker : WorkerPhase δ ρ) : WorkerState δ ρ :=
  { s with worker := worker }

/-- The answer goes through the responder of a job, if it is still there. -/
def respond (s : WorkerState δ ρ) (job : JobEnvelope δ ρ) (answer : Answer ρ) :
    WorkerState δ ρ :=
  { s with
    callers :=
      if job.responder then
        s.callers.modify job.caller fun caller => { caller with response := some answer }
      else s.callers }

/-- A permit is given back. -/
def release (s : WorkerState δ ρ) (permit : Bool) : WorkerState δ ρ :=
  { s with available := s.available + permit.toNat }

/-- `notify_one` and `notify_all`: only the worker waits for the condition. -/
def notify (s : WorkerState δ ρ) : WorkerState δ ρ :=
  s.proceed s.worker.notified

/-- `terminalize_locked`.  The thread that calls it takes the queue with it. -/
def terminalizeLocked (s : WorkerState δ ρ) : WorkerState δ ρ :=
  notify { s with lifecycle := .panicked, capacityClosed := true, queue := [] }

/-- `JobEnvelope::fail`. -/
def fail (s : WorkerState δ ρ) (job : JobEnvelope δ ρ) : WorkerState δ ρ :=
  (s.release job.permit).respond job (.error .panicked)

/-- `begin_shutdown`. -/
def beginShutdown (s : WorkerState δ ρ) : WorkerState δ ρ :=
  if s.poisoned then terminalizeLocked { s with closers := s.closers ++ [s.queue] }
  else notify { s with
    lifecycle := if s.lifecycle = .running then .closing else s.lifecycle
    capacityClosed := true }

/-- The push into the queue. -/
def enqueue (s : WorkerState δ ρ) (c : ℕ) (operation : Operation δ ρ) : WorkerState δ ρ :=
  notify (move { s with
    queue := s.queue ++ [.new c operation]
    history := s.history ++ [(c, operation)] } c .awaiting)

/-- All envelopes, wherever they are. -/
def envelopes (s : WorkerState δ ρ) : List (JobEnvelope δ ρ) :=
  s.worker.jobs ++ s.queue ++ s.callers.flatMap (fun caller => caller.phase.jobs) ++
    s.closers.flatten

/-! ## Callers -/

/-- The next step of a caller, `none` while it has to wait. -/
def callerTurn (s : WorkerState δ ρ) (c : ℕ) : Option (WorkerState δ ρ) :=
  match s.phase c with
  | some (.acquiring operation) =>
      if s.capacityClosed then some (s.move c .observing)
      else if s.available = 0 then none
      else some (move { s with available := s.available - 1 } c (.permitted operation))
  | some (.permitted operation) =>
      if s.poisoned then some (s.terminalizeLocked.move c (.failing true s.queue))
      else if s.lifecycle = .running then some (s.enqueue c operation)
      else some ((s.move c (.returned (.error (failureFor s.lifecycle)))).release true)
  | some .observing =>
      if s.poisoned then some (s.terminalizeLocked.move c (.failing false s.queue))
      else some (s.move c (.returned (.error (failureFor s.lifecycle))))
  | some (.failing permit (job :: jobs)) => some ((s.move c (.failing permit jobs)).fail job)
  | some (.failing permit []) =>
      some ((s.move c (.returned (.error .panicked))).release permit)
  | some .awaiting => match s.response c with
      | some answer => some (s.move c (.returned answer))
      | none =>
          -- The channel is closed when nobody can answer any more.
          if s.envelopes.any fun job => job.responder && job.caller = c then none
          else some (s.move c (.returned (.error .panicked)))
  | some (.returned _) | some .dropped | none => none

/-! ## The worker thread -/

/-- The lock is held, and the queue and the lifecycle are looked at. -/
def lookAtQueue (s : WorkerState δ ρ) : WorkerState δ ρ :=
  if s.poisoned then s.terminalizeLocked.proceed (.failing none s.queue)
  else match s.queue with
    | job :: jobs => { s with queue := jobs, worker := .executing job }
    | [] => match s.lifecycle with
      | .running | .starting => s.proceed (.waiting false)
      | .closing => { s with lifecycle := .closed, worker := .exited .closed }
      | .closed => s.proceed (.exited .closed)
      | .panicked => s.proceed (.failing none [])

/-- `JobEnvelope::execute` up to the response. -/
def execute (s : WorkerState δ ρ) (job : JobEnvelope δ ρ) : WorkerState δ ρ :=
  match job.operation.bind (· s.connection) with
  | some (connection, result) => { s with
      connection := connection
      executed := s.executed ++ [(job.caller, result)]
      worker := .responding { job with operation := none } result }
  | none => s.proceed (.panicking { job with operation := none })

/-- The next step of the worker thread, `none` while it has to wait and after its end. -/
def workerTurn (s : WorkerState δ ρ) : Option (WorkerState δ ρ) :=
  match s.worker with
  | .opening => some (s.proceed .opened)
  | .opened =>
      if s.poisoned then some (s.proceed .aborted)
      else some { s with lifecycle := .running, worker := .announcing }
  | .announcing => some { s with started := true, worker := .looping }
  | .looping | .waiting true => some s.lookAtQueue
  | .waiting false => none
  | .executing job => some (s.execute job)
  | .responding job result =>
      some ((s.respond job (.ok result)).proceed (.releasing { job with responder := false }))
  | .releasing job => some ((s.proceed .looping).release job.permit)
  | .panicking job =>
      some (s.terminalizeLocked.proceed (.failing (some job) s.queue))
  | .failing (some job) jobs => some ((s.proceed (.failing none jobs)).fail job)
  | .failing none (job :: jobs) => some ((s.proceed (.failing none jobs)).fail job)
  | .failing none [] => some (s.proceed (.exited .panicked))
  | .exited _ | .aborted => none

/-! ## Threads that shut the worker down -/

/-- `fail_jobs` of a thread that found the lock poisoned. -/
def closerTurn (s : WorkerState δ ρ) (k : ℕ) : Option (WorkerState δ ρ) :=
  match s.closers[k]? with
  | some (job :: jobs) => some ({ s with closers := s.closers.set k jobs }.fail job)
  | some [] | none => none

end WorkerState

/-! ## Steps -/

/-- The steps that the threads take on their own. -/
inductive Turn where
  | caller (c : ℕ)
  | worker
  | closer (k : ℕ)
  deriving DecidableEq, Repr

/-- What happens from outside.  The startup can fail, a thread can panic while it holds
the lock, and the worker outside of an operation. -/
inductive Event (δ ρ : Type) where
  | call (operation : Operation δ ρ)
  | drop (c : ℕ)
  | beginShutdown
  | poison
  | wake
  | openFails
  | announceFails
  | unwind

namespace WorkerState

/-- One party takes its turn. -/
def turn (s : WorkerState δ ρ) : Turn → Option (WorkerState δ ρ)
  | .caller c => s.callerTurn c
  | .worker => s.workerTurn
  | .closer k => s.closerTurn k

/-- A handle is there only when `start` has returned it. -/
def occur (s : WorkerState δ ρ) : Event δ ρ → Option (WorkerState δ ρ)
  | .call operation =>
      if s.started then some { s with callers := s.callers ++ [⟨.acquiring operation, none⟩] }
      else none
  | .drop c => match s.phase c with
      | some (.acquiring _) | some .awaiting => some (s.move c .dropped)
      | _ => none
  | .beginShutdown => if s.started then some s.beginShutdown else none
  | .poison => some { s with poisoned := true }
  | .wake => some s.notify
  | .openFails => match s.worker with
      | .opening => some (s.proceed .aborted)
      | _ => none
  | .announceFails => match s.worker with
      | .announcing => some (s.proceed .looping).beginShutdown
      | _ => none
  | .unwind => match s.worker with
      | .executing job | .responding job _ | .releasing job =>
          some (s.proceed (.panicking job))
      | _ => none

/-- A thread takes a turn, or something happens. -/
inductive Step (s s' : WorkerState δ ρ) : Prop where
  | turn (t : Turn) (h : s.turn t = some s')
  | event (e : Event δ ρ) (h : s.occur e = some s')

/-- Turns and events one after the other, `none` if one of them is not possible. -/
def run (s : WorkerState δ ρ) : List (Turn ⊕ Event δ ρ) → Option (WorkerState δ ρ)
  | [] => some s
  | .inl turn :: inputs => (s.turn turn).bind (run · inputs)
  | .inr event :: inputs => (s.occur event).bind (run · inputs)

/-- A state that the worker can come to. -/
def Reachable (capacity : ℕ) (connection : δ) (s : WorkerState δ ρ) : Prop :=
  Relation.ReflTransGen Step (new capacity connection) s

end WorkerState

end Erabi.Worker
