/-
# The pacing state of one origin

How many requests are in flight, which registrations limit them, and the three
deadlines before which no request of the origin may start.  Times are counted in
nanoseconds; an instant beyond the last one the platform can represent is an
overflow.
-/
import Mathlib
import Erabi.Timing.Pending

namespace Erabi.Pacing

open Timing

/-- A reading of the clock. -/
abbrev Instant := ℕ
/-- A length of time, in nanoseconds. -/
abbrev Duration := ℕ
/-- Names a registration. -/
abbrev RegistrationId := ℕ

/-- So many milliseconds. -/
def millis (n : ℕ) : Duration := n * 1000000
/-- So many seconds. -/
def secs (n : ℕ) : Duration := n * 1000000000

/-- One upper bound for robots delays, configured delays and `Retry-After` values. -/
def maxPacingDelay : Duration := secs 300

/-- The first backoff. -/
def rateLimitBackoffBase : Duration := secs 1

/-- The longest backoff. -/
def maxRateLimitBackoff : Duration := secs 60

/-- The largest 32-bit counter. -/
def maxU32 : ℕ := 2 ^ 32 - 1

/-- The largest 8-bit counter. -/
def maxU8 : ℕ := 2 ^ 8 - 1

/-! ## Evidence -/

/-- Safe, bounded timing extracted from rate limit evidence. -/
inductive RetryAfterTiming : Type where
  | absent
  | honored (delay : Duration)
  | clamped (delay : Duration)
  | invalid
  deriving DecidableEq, Repr

namespace RetryAfterTiming

/-- A requested delay, cut at the longest permitted. -/
def fromDuration (duration : Duration) : RetryAfterTiming :=
  if maxPacingDelay < duration then .clamped maxPacingDelay else .honored duration

/-- The delay that a provider requested. -/
def fromProviderMillis : Option ℕ → RetryAfterTiming
  | none => .absent
  | some milliseconds => fromDuration (millis milliseconds)

/-- The delay to be kept, when there is one. -/
def delay : RetryAfterTiming → Option Duration
  | .honored delay | .clamped delay => some delay
  | .absent | .invalid => none

/-- A remote server cannot ask for more than the bound. -/
theorem delay_fromProviderMillis_le (value : Option ℕ) :
    ∀ delay ∈ (fromProviderMillis value).delay, delay ≤ maxPacingDelay := by
  intro delay hdelay
  cases value with
  | none => cases hdelay
  | some milliseconds =>
    change delay ∈ (fromDuration (millis milliseconds)).delay at hdelay
    unfold fromDuration at hdelay
    by_cases hlarge : maxPacingDelay < millis milliseconds
    · rw [if_pos hlarge] at hdelay
      cases hdelay
      exact le_rfl
    · rw [if_neg hlarge] at hdelay
      cases hdelay
      exact not_lt.mp hlarge

end RetryAfterTiming

/-- One completed admitted request's safe pacing evidence. -/
inductive PacingOutcome : Type where
  | success
  | failed
  | rateLimited (retryAfter : RetryAfterTiming)
  deriving DecidableEq, Repr

/-- A caller-visible failure before a crawl request has begun. -/
inductive AdmissionError : Type where
  | robotsDisallowed
  | cancelled
  | invalidConcurrency
  | requestDelayTooLarge
  | robotsOriginMismatch
  | registrationReleased
  | originCapacityExhausted
  | registrationIdExhausted
  | clockOverflow
  deriving DecidableEq, Repr

/-- The pacing settings of a run, within their bounds. -/
structure ResolvedPacingConfiguration where
  concurrency : ℕ
  requestDelay : Duration
  positive : 0 < concurrency
  representable : concurrency ≤ maxU32
  bounded : requestDelay ≤ maxPacingDelay
  deriving DecidableEq, Repr

/-- The settings of a snapshot, whose concurrency is a 32-bit number. -/
def ResolvedPacingConfiguration.fromSnapshot (concurrency : Fin (maxU32 + 1))
    (requestDelayMs : ℕ) : Except AdmissionError ResolvedPacingConfiguration :=
  if hpositive : 0 < concurrency.val then
    if hbounded : millis requestDelayMs ≤ maxPacingDelay then
      .ok ⟨concurrency, millis requestDelayMs, hpositive, Nat.le_of_lt_succ concurrency.isLt, hbounded⟩
    else .error .requestDelayTooLarge
  else .error .invalidConcurrency

/-! ## The state -/

/-- What is kept of one origin. -/
structure OriginPacingState where
  inFlight : ℕ
  /-- The concurrency of every active registration. -/
  registrations : List (RegistrationId × ℕ)
  waitingAdmissions : ℕ
  nextRequestAt : Option Instant
  backoffUntil : Option Instant
  retryAfterUntil : Option Instant
  consecutiveRateLimits : ℕ
  deriving DecidableEq, Repr

/-- The state of an origin that was never used. -/
def OriginPacingState.initial : OriginPacingState := ⟨0, [], 0, none, none, none, 0⟩

/-- A later instant, when the clock can show it. -/
def checkedAdd (maxInstant now : Instant) (duration : Duration) : Option Instant :=
  if now + duration ≤ maxInstant then some (now + duration) else none

/-- A checked sum is the sum. -/
theorem checkedAdd_eq_some {maxInstant now d : Instant} {duration : Duration}
    (h : checkedAdd maxInstant now duration = some d) : d = now + duration := by
  unfold checkedAdd at h
  split at h
  · exact (Option.some.inj h).symm
  · cases h

/-- One second, doubled with every further rate limit in a row up to a minute. -/
def boundedBackoff (consecutiveRateLimits : ℕ) : Duration :=
  min (rateLimitBackoffBase * 2 ^ min (consecutiveRateLimits - 1) 6) maxRateLimitBackoff

/-- No backoff is longer than the longest. -/
theorem boundedBackoff_le (n : ℕ) : boundedBackoff n ≤ maxRateLimitBackoff := min_le_right _ _

/-- What one look at the state makes of an admission. -/
inductive AdmissionAttempt : Type where
  | acquired
  | waitUntil (deadline : Instant)
  | waitForPermit
  deriving DecidableEq, Repr

namespace OriginPacingState

/-- The least concurrency registered. -/
def effectiveConcurrency (pacing : OriginPacingState) : Option ℕ :=
  (pacing.registrations.map Prod.snd).min?

/-- The last of the deadlines. -/
def latestDeadline (pacing : OriginPacingState) : Option Instant :=
  [pacing.nextRequestAt, pacing.backoffUntil, pacing.retryAfterUntil].reduceOption.max?

/-- Forgets the deadlines that have passed. -/
def normalizeExpiredSafety (now : Instant) (pacing : OriginPacingState) : OriginPacingState :=
  { pacing with
    nextRequestAt := unexpired now pacing.nextRequestAt
    backoffUntil := unexpired now pacing.backoffUntil
    retryAfterUntil := unexpired now pacing.retryAfterUntil }

/-- The one authoritative retirement predicate, on a normalized state. -/
def isSafeToRetire (pacing : OriginPacingState) : Bool :=
  pacing.registrations.isEmpty && pacing.inFlight = 0 && pacing.waitingAdmissions = 0 &&
    pacing.nextRequestAt.isNone && pacing.backoffUntil.isNone && pacing.retryAfterUntil.isNone

/-- One more registration. -/
def addRegistration (id : RegistrationId) (concurrency : ℕ) (pacing : OriginPacingState) :
    OriginPacingState :=
  { pacing with
    registrations := (id, concurrency) :: pacing.registrations.filter fun entry => entry.1 ≠ id }

/-- A registration is gone. -/
def releaseRegistration (id : RegistrationId) (pacing : OriginPacingState) : OriginPacingState :=
  { pacing with registrations := pacing.registrations.filter fun entry => entry.1 ≠ id }

/-- One more waiter. -/
def registerWaiter (pacing : OriginPacingState) : OriginPacingState :=
  { pacing with waitingAdmissions := min (pacing.waitingAdmissions + 1) maxU32 }

/-- A waiter is gone. -/
def releaseWaiter (pacing : OriginPacingState) : OriginPacingState :=
  { pacing with waitingAdmissions := pacing.waitingAdmissions - 1 }

/-- A request has ended. -/
def release (pacing : OriginPacingState) : OriginPacingState :=
  { pacing with inFlight := pacing.inFlight - 1 }

/-- Records a rate limit; an overflow ends the operation between its writes. -/
def recordRateLimit (maxInstant now : Instant) (retryAfter : RetryAfterTiming)
    (pacing : OriginPacingState) : Except AdmissionError Unit × OriginPacingState :=
  let pacing := { pacing with
    consecutiveRateLimits := min (pacing.consecutiveRateLimits + 1) maxU8 }
  match checkedAdd maxInstant now (boundedBackoff pacing.consecutiveRateLimits) with
  | none => (.error .clockOverflow, pacing)
  | some backoffUntil =>
    let pacing := { pacing with backoffUntil := some (later pacing.backoffUntil backoffUntil) }
    match retryAfter.delay with
    | none => (.ok (), pacing)
    | some delay =>
      match checkedAdd maxInstant now delay with
      | none => (.error .clockOverflow, pacing)
      | some retryAfterUntil =>
        (.ok (), { pacing with
          retryAfterUntil := some (later pacing.retryAfterUntil retryAfterUntil) })

/-- The outcome of a request is taken into account. -/
def recordOutcome (maxInstant : Instant) (outcome : PacingOutcome) (now : Instant)
    (pacing : OriginPacingState) : Except AdmissionError Unit × OriginPacingState :=
  let pacing := pacing.normalizeExpiredSafety now
  match outcome with
  | .success => (.ok (), { pacing with consecutiveRateLimits := 0 })
  | .failed => (.ok (), pacing)
  | .rateLimited retryAfter => pacing.recordRateLimit maxInstant now retryAfter

/-- One look at the state under its lock.  An overflow of the next deadline is
found after the request was counted. -/
def attempt (maxInstant now : Instant) (effectiveDelay : Duration) (pacing : OriginPacingState) :
    Except AdmissionError AdmissionAttempt × OriginPacingState :=
  let pacing := pacing.normalizeExpiredSafety now
  match pacing.effectiveConcurrency with
  | none => (.error .registrationReleased, pacing)
  | some effectiveConcurrency =>
    let notBefore := pacing.latestDeadline
    if pacing.inFlight < effectiveConcurrency ∧ ∀ deadline ∈ notBefore, deadline ≤ now then
      let pacing := { pacing with inFlight := min (pacing.inFlight + 1) maxU32 }
      match checkedAdd maxInstant now effectiveDelay with
      | none => (.error .clockOverflow, pacing)
      | some nextRequestAt => (.ok .acquired, { pacing with nextRequestAt := some nextRequestAt })
    else
      match notBefore.filter fun deadline => now < deadline with
      | some deadline => (.ok (.waitUntil deadline), pacing)
      | none => (.ok .waitForPermit, pacing)

/-! ## What the operations keep -/

variable {pacing : OriginPacingState} {maxInstant now clock : Instant}

/-- The registrations stay and no request in flight is forgotten. -/
structure Serves (pacing pacing' : OriginPacingState) : Prop where
  registrations : pacing'.registrations = pacing.registrations
  inFlight : pacing.inFlight ≤ pacing'.inFlight

theorem Serves.refl (pacing : OriginPacingState) : Serves pacing pacing := ⟨rfl, le_rfl⟩

theorem Serves.trans {pacing pacing' pacing'' : OriginPacingState} (h : Serves pacing pacing')
    (h' : Serves pacing' pacing'') : Serves pacing pacing'' :=
  ⟨h'.registrations.trans h.registrations, h.inFlight.trans h'.inFlight⟩

/-- Forgetting deadlines keeps serving. -/
theorem normalize_serves : Serves pacing (pacing.normalizeExpiredSafety now) := ⟨rfl, le_rfl⟩

/-- A waiter comes. -/
theorem registerWaiter_serves : Serves pacing pacing.registerWaiter := ⟨rfl, le_rfl⟩

/-- A waiter goes. -/
theorem releaseWaiter_serves : Serves pacing pacing.releaseWaiter := ⟨rfl, le_rfl⟩

/-- A rate limit keeps serving. -/
theorem recordRateLimit_serves {retryAfter : RetryAfterTiming} :
    Serves pacing (pacing.recordRateLimit maxInstant now retryAfter).2 := by
  unfold recordRateLimit
  dsimp only
  split
  · exact ⟨rfl, le_rfl⟩
  · split
    · exact ⟨rfl, le_rfl⟩
    · split <;> exact ⟨rfl, le_rfl⟩

/-- An outcome keeps serving. -/
theorem recordOutcome_serves {outcome : PacingOutcome} :
    Serves pacing (pacing.recordOutcome maxInstant outcome now).2 := by
  cases outcome with
  | success => exact ⟨rfl, le_rfl⟩
  | failed => exact ⟨rfl, le_rfl⟩
  | rateLimited retryAfter => exact normalize_serves.trans recordRateLimit_serves

/-- The effective concurrency is no registration's excess. -/
theorem effectiveConcurrency_le {c : ℕ} {entry : RegistrationId × ℕ}
    (h : pacing.effectiveConcurrency = some c) (hentry : entry ∈ pacing.registrations) :
    c ≤ entry.2 :=
  (List.min?_eq_some_iff.mp h).2 entry.2 (List.mem_map_of_mem hentry)

/-- What one look at the state leaves behind: it forgets passed deadlines, counts a
request when there is room and no deadline is pending, and sets the next deadline
when the request is admitted. -/
theorem attempt_cases (pacing : OriginPacingState) (maxInstant now : Instant) (delay : Duration) :
    ((pacing.attempt maxInstant now delay).1 ≠ .ok .acquired ∧
      (pacing.attempt maxInstant now delay).2 = pacing.normalizeExpiredSafety now) ∨
    ∃ c, pacing.effectiveConcurrency = some c ∧ pacing.inFlight < c ∧
      (∀ deadline ∈ (pacing.normalizeExpiredSafety now).latestDeadline, deadline ≤ now) ∧
      (((pacing.attempt maxInstant now delay).1 ≠ .ok .acquired ∧
        (pacing.attempt maxInstant now delay).2 = { pacing.normalizeExpiredSafety now with
          inFlight := min (pacing.inFlight + 1) maxU32 }) ∨
      (pacing.attempt maxInstant now delay = (.ok .acquired,
        { pacing.normalizeExpiredSafety now with
          inFlight := min (pacing.inFlight + 1) maxU32
          nextRequestAt := some (now + delay) }))) := by
  have hc : (pacing.normalizeExpiredSafety now).effectiveConcurrency =
      pacing.effectiveConcurrency := rfl
  unfold attempt
  dsimp only
  rw [hc]
  rcases pacing.effectiveConcurrency with _ | c
  · exact Or.inl ⟨by simp, rfl⟩
  · dsimp only
    split
    · rename_i hroom
      refine Or.inr ⟨c, rfl, hroom.1, hroom.2, ?_⟩
      rcases hadd : checkedAdd maxInstant now delay with _ | d
      · exact Or.inl ⟨by simp, rfl⟩
      · rw [checkedAdd_eq_some hadd]
        exact Or.inr rfl
    · left
      split <;> exact ⟨by simp, rfl⟩

/-- An attempt keeps serving. -/
theorem attempt_serves {delay : Duration} {entry : RegistrationId × ℕ}
    (hentry : entry ∈ pacing.registrations) (hle : entry.2 ≤ maxU32) :
    Serves pacing (pacing.attempt maxInstant now delay).2 := by
  rcases attempt_cases pacing maxInstant now delay with
    ⟨_, hstate⟩ | ⟨c, hc, hroom, _, ⟨_, hstate⟩ | hacquired⟩
  · rw [hstate]
    exact normalize_serves
  · have hcle := effectiveConcurrency_le hc hentry
    rw [hstate]
    exact ⟨rfl, le_min (Nat.le_succ _) (by omega)⟩
  · have hcle := effectiveConcurrency_le hc hentry
    rw [hacquired]
    exact ⟨rfl, le_min (Nat.le_succ _) (by omega)⟩

end OriginPacingState

end Erabi.Pacing
