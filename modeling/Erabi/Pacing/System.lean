/-
# The pacing registry and its clients

The registry maps origins to their shared states.  Registrations, waiting
acquisitions and permits hold a state each, for as long as they live.  Every
section under a lock is one step, so that every interleaving of clients is a
sequence of steps; the clock is read before the lock where the source does so, and
such a reading may be old.
-/
import Mathlib
import Erabi.Pacing.Origin
import Erabi.Relational.Table
import Erabi.Transition.Run

namespace Erabi.Pacing

open Relational

/-! ## Origins -/

/-- A normalized HTTP origin. -/
structure OriginKey where
  scheme : String
  host : String
  port : UInt16
  deriving DecidableEq, Repr

/-- The order of the derived comparison: by scheme, host and port. -/
def OriginKey.order (origin : OriginKey) : String ×ₗ String ×ₗ ℕ :=
  toLex (origin.scheme, toLex (origin.host, origin.port.toNat))

/-- Origins are known by their place in the order. -/
theorem OriginKey.order_injective : Function.Injective OriginKey.order := by
  rintro ⟨scheme, host, port⟩ ⟨scheme', host', port'⟩ h
  simp only [order, EmbeddingLike.apply_eq_iff_eq, Prod.mk.injEq] at h
  obtain ⟨rfl, rfl, hport⟩ := h
  rw [UInt16.toNat_inj.mp hport]

instance : LinearOrder OriginKey := LinearOrder.lift' OriginKey.order OriginKey.order_injective

/-! ## The registry -/

/-- The shared state an `Arc` points to. -/
abbrev StateId := ℕ

/-- The states of origins. -/
structure OriginRegistry where
  states : Table (OriginKey × StateId) OriginKey Prod.fst
  nextRegistrationId : Option ℕ
  capacity : ℕ

/-- The state an origin has in the registry. -/
def OriginRegistry.stateOf (registry : OriginRegistry) (origin : OriginKey) : Option StateId :=
  (registry.states.find? origin).map Prod.snd

/-- The production-wide upper bound for origin pacing state. -/
def maxOriginPacingStates : ℕ := 1024

/-- The largest registration identifier. -/
def maxU64 : ℕ := 2 ^ 64 - 1

/-! ## The clients -/

/-- Ownership of one active pacing configuration. -/
structure PacingRegistration where
  origin : OriginKey
  state : StateId
  registrationId : RegistrationId
  configuration : ResolvedPacingConfiguration
  deriving DecidableEq, Repr

/-- A sealed robots admission. -/
structure RobotsAdmission where
  origin : OriginKey
  disallowed : Bool
  crawlDelay : Option Duration
  deriving DecidableEq, Repr

/-- Names a waiter. -/
abbrev WaiterId := ℕ
/-- Names a permit. -/
abbrev PermitId := ℕ

/-- An acquisition under way.  It borrows its registration; `pending` says that it
has not been decided yet. -/
structure WaiterGuard where
  id : WaiterId
  registrationId : RegistrationId
  origin : OriginKey
  state : StateId
  effectiveDelay : Duration
  pending : Bool
  deriving DecidableEq, Repr

/-- The token of one admitted request. -/
structure AdmissionPermit where
  id : PermitId
  origin : OriginKey
  state : StateId
  outcomeRecorded : Bool
  deriving DecidableEq, Repr

/-! ## What is observed -/

/-- The deadlines of an origin. -/
inductive DeadlineKind : Type where
  | nextRequest | backoff | retryAfter
  deriving DecidableEq, Repr

/-- An admission of an origin, with the permits and the registrations of the origin
that were live after it. -/
structure Admission where
  origin : OriginKey
  admittedAt : Instant
  effectiveDelay : Duration
  inFlight : ℕ
  concurrencies : List ℕ
  deriving DecidableEq, Repr

/-- What the log records. -/
inductive PacingEvent : Type where
  | admitted (admission : Admission)
  /-- A backoff or `Retry-After` deadline was recorded. -/
  | deferred (origin : OriginKey) (kind : DeadlineKind) (deadline : Instant)
  deriving DecidableEq, Repr

/-- The registry, the shared states, the live clients and what was observed. -/
structure PacingSystem where
  clock : Instant
  maxInstant : Instant
  registry : OriginRegistry
  heap : StateId → OriginPacingState
  nextState : StateId
  registrations : Table PacingRegistration RegistrationId PacingRegistration.registrationId
  waiters : Table WaiterGuard WaiterId WaiterGuard.id
  permits : Table AdmissionPermit PermitId AdmissionPermit.id
  log : List PacingEvent

/-- A process with an empty registry. -/
def PacingSystem.initial (capacity : ℕ) (maxInstant : Instant) : PacingSystem :=
  ⟨0, maxInstant, ⟨.empty, some 1, capacity⟩, fun _ => .initial, 0, .empty, .empty, .empty, []⟩

/-- A change of one shared state. -/
def PacingSystem.onState (s : PacingSystem) (id : StateId)
    (f : OriginPacingState → OriginPacingState) : PacingSystem :=
  { s with heap := Function.update s.heap id (f (s.heap id)) }

/-! ## Registration -/

/-- Forgets the passed deadlines of the states of these entries. -/
def normalizeStates (now : Instant) (entries : List (OriginKey × StateId))
    (heap : StateId → OriginPacingState) : StateId → OriginPacingState :=
  entries.foldl (fun heap entry =>
    Function.update heap entry.2 ((heap entry.2).normalizeExpiredSafety now)) heap

/-- Removes one origin after the other until there is room. -/
def retireStates (capacity : ℕ) (removable : List (OriginKey × StateId))
    (states : Table (OriginKey × StateId) OriginKey Prod.fst) :
    Table (OriginKey × StateId) OriginKey Prod.fst :=
  removable.foldl (fun states entry =>
    if states.rows.length < capacity then states
    else states.delete fun other => other.1 = entry.1) states

/-- The registered states in the order of their origins. -/
def orderedStates (s : PacingSystem) : List (OriginKey × StateId) :=
  s.registry.states.rows.insertionSort fun e e' => e.1 ≤ e'.1

/-- Looks at all registered states, and retires those that are safe to retire until
there is room. -/
def pruneSafeStates (now : Instant) (s : PacingSystem) : PacingSystem :=
  let heap := normalizeStates now (orderedStates s) s.heap
  let removable := (orderedStates s).filter fun entry => (heap entry.2).isSafeToRetire
  { s with
    heap
    registry := { s.registry with
      states := retireStates s.registry.capacity removable s.registry.states } }

/-- The state of an origin, created when there is room for it. -/
def originState (origin : OriginKey) (now : Instant) (s : PacingSystem) :
    Except AdmissionError StateId × PacingSystem :=
  match s.registry.stateOf origin with
  | some id => (.ok id, s)
  | none =>
    let s := if s.registry.capacity ≤ s.registry.states.rows.length then pruneSafeStates now s else s
    if s.registry.capacity ≤ s.registry.states.rows.length then (.error .originCapacityExhausted, s)
    else
      (.ok s.nextState,
        { s with
          heap := Function.update s.heap s.nextState .initial
          registry := { s.registry with states := s.registry.states.put (origin, s.nextState) }
          nextState := s.nextState + 1 })

/-- Registers one configuration under the registry lock. -/
def register (origin : OriginKey) (configuration : ResolvedPacingConfiguration) (now : Instant)
    (s : PacingSystem) : Except AdmissionError RegistrationId × PacingSystem :=
  match originState origin now s with
  | (.error e, s) => (.error e, s)
  | (.ok state, s) =>
    match s.registry.nextRegistrationId with
    | none => (.error .registrationIdExhausted, s)
    | some id =>
      let s := { s with
        registry := { s.registry with
          nextRegistrationId := if id < maxU64 then some (id + 1) else none } }
      let s := s.onState state fun pacing => pacing.addRegistration id configuration.concurrency
      (.ok id, { s with registrations := s.registrations.put ⟨origin, state, id, configuration⟩ })

/-- Drops a registration, which no acquisition may borrow any more. -/
def dropRegistration (id : RegistrationId) (s : PacingSystem) : PacingSystem :=
  match s.registrations.find? id with
  | none => s
  | some registration =>
    if s.waiters.rows.any fun waiter => waiter.registrationId = id then s
    else
      let s := s.onState registration.state fun pacing => pacing.releaseRegistration id
      { s with registrations := s.registrations.delete fun r => r.registrationId = id }

/-! ## Acquisition -/

/-- Checks a robots admission; the robots fetch itself needs none. -/
def checkRobots (origin : OriginKey) : Option RobotsAdmission → Except AdmissionError Duration
  | none => .ok 0
  | some robots =>
    if robots.origin ≠ origin then .error .robotsOriginMismatch
    else if robots.disallowed then .error .robotsDisallowed
    else .ok (robots.crawlDelay.getD 0)

/-- Starts an acquisition, under an identifier that no other one has. -/
def acquire (id : RegistrationId) (waiter : WaiterId) (robots : Option RobotsAdmission)
    (s : PacingSystem) : Except AdmissionError Unit × PacingSystem :=
  match s.registrations.find? id with
  | none => (.ok (), s)
  | some registration =>
    match checkRobots registration.origin robots with
    | .error e => (.error e, s)
    | .ok robotsDelay =>
      match s.waiters.insert? ⟨waiter, id, registration.origin, registration.state,
        max registration.configuration.requestDelay robotsDelay, true⟩ with
      | none => (.ok (), s)
      | some waiters =>
        (.ok (), { s.onState registration.state OriginPacingState.registerWaiter with waiters })

/-- The live permits and the concurrencies of the registrations of an origin. -/
def PacingSystem.inFlight (s : PacingSystem) (origin : OriginKey) : ℕ :=
  (s.permits.select fun permit => permit.origin = origin).length

/-- The concurrencies registered at an origin. -/
def PacingSystem.concurrencies (s : PacingSystem) (origin : OriginKey) : List ℕ :=
  (s.registrations.select fun registration => registration.origin = origin).map
    fun registration => registration.configuration.concurrency

/-- One round of the loop of a pending acquisition.  The permit is counted with the
state; the acquisition ends with the drop of its guard. -/
def attempt (waiter : WaiterId) (permit : PermitId) (s : PacingSystem) : PacingSystem :=
  match (s.waiters.find? waiter).filter WaiterGuard.pending with
  | none => s
  | some guarded =>
    match s.permits.insert? ⟨permit, guarded.origin, guarded.state, false⟩ with
    | none => s
    | some permits =>
      let (result, pacing) :=
        (s.heap guarded.state).attempt s.maxInstant s.clock guarded.effectiveDelay
      let s := s.onState guarded.state fun _ => pacing
      let decided := { s with
        waiters := s.waiters.update (fun w => w.id = waiter) fun w => { w with pending := false } }
      match result with
      | .error _ => decided
      | .ok .acquired =>
        let s := { decided with permits }
        { s with log := s.log ++ [.admitted ⟨guarded.origin, s.clock, guarded.effectiveDelay,
            s.inFlight guarded.origin, s.concurrencies guarded.origin⟩] }
      | .ok _ => s

/-- Ends an acquisition: decided, cancelled or aborted. -/
def dropWaiter (waiter : WaiterId) (s : PacingSystem) : PacingSystem :=
  match s.waiters.find? waiter with
  | none => s
  | some guarded =>
    let s := s.onState guarded.state OriginPacingState.releaseWaiter
    { s with waiters := s.waiters.delete fun w => w.id = waiter }

/-! ## Permits -/

/-- The deadlines that an outcome left behind. -/
def recordedDeadlines (origin : OriginKey) (maxInstant now : Instant) (outcome : PacingOutcome)
    (pacing : OriginPacingState) : List PacingEvent :=
  match outcome with
  | .rateLimited retryAfter =>
    match checkedAdd maxInstant now
      (boundedBackoff (min (pacing.consecutiveRateLimits + 1) maxU8)) with
    | none => []
    | some backoffUntil =>
      .deferred origin .backoff backoffUntil ::
        match retryAfter.delay.bind (checkedAdd maxInstant now) with
        | none => []
        | some retryAfterUntil => [.deferred origin .retryAfter retryAfterUntil]
  | _ => []

/-- Records the outcome of a permit once, with a reading of the clock that was taken
before the lock. -/
def recordOutcome (permit : PermitId) (outcome : PacingOutcome) (now : Instant)
    (s : PacingSystem) : PacingSystem :=
  match (s.permits.find? permit).filter fun held => !held.outcomeRecorded with
  | none => s
  | some held =>
    let pacing := s.heap held.state
    let s := s.onState held.state fun pacing => (pacing.recordOutcome s.maxInstant outcome now).2
    { s with
      permits := s.permits.update (fun p => p.id = permit) fun p => { p with outcomeRecorded := true }
      log := s.log ++ recordedDeadlines held.origin s.maxInstant now outcome pacing }

/-- A permit is given back. -/
def dropPermit (permit : PermitId) (s : PacingSystem) : PacingSystem :=
  match s.permits.find? permit with
  | none => s
  | some held =>
    let s := s.onState held.state OriginPacingState.release
    { s with permits := s.permits.delete fun p => p.id = permit }

/-! ## Steps -/

/-- What may happen to the system. -/
inductive PacingInput : Type where
  | register (origin : OriginKey) (configuration : ResolvedPacingConfiguration) (reading : Instant)
  | dropRegistration (id : RegistrationId)
  | acquire (id : RegistrationId) (waiter : WaiterId) (robots : Option RobotsAdmission)
  | attempt (waiter : WaiterId) (permit : PermitId)
  | dropWaiter (waiter : WaiterId)
  | recordOutcome (permit : PermitId) (outcome : PacingOutcome) (reading : Instant)
  | dropPermit (permit : PermitId)
  | tick (duration : Duration)

/-- One step; nobody has read the clock in the future. -/
def pacingStep (s : PacingSystem) : PacingInput → PacingSystem
  | .register origin configuration reading =>
    if reading ≤ s.clock then (register origin configuration reading s).2 else s
  | .dropRegistration id => dropRegistration id s
  | .acquire id waiter robots => (acquire id waiter robots s).2
  | .attempt waiter permit => attempt waiter permit s
  | .dropWaiter waiter => dropWaiter waiter s
  | .recordOutcome permit outcome reading =>
    if reading ≤ s.clock then recordOutcome permit outcome reading s else s
  | .dropPermit permit => dropPermit permit s
  | .tick duration => { s with clock := s.clock + duration }

end Erabi.Pacing
