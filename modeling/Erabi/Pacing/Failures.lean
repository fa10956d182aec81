/-
# Calls that fail

A call that fails is meant to leave the state of its origin as it was.  It does where it
finds no deadline that has passed, and where no sum of a time and a delay overflows after
the state was written.
-/
import Mathlib
import Erabi.Pacing.System

namespace Erabi.Pacing

open Timing (later le_later)

/-! ## Calls -/

/-- One round of the loop of an acquisition: the cancellation is seen first, or the state
is looked at, and what follows is woken up or cancelled. -/
inductive AcquireTurn : Type where
  | cancelled
  | look (now : Instant) (cancelled : Bool)
  deriving DecidableEq, Repr

namespace AcquireTurn

/-- The time at which the state is looked at. -/
def reading : AcquireTurn → Option Instant
  | .cancelled => none
  | .look now _ => some now

end AcquireTurn

/-- A call at an origin.  An acquisition waits in all of its rounds but the last one. -/
inductive OriginCall : Type where
  | acquire (robots : Option RobotsAdmission) (waits : List AcquireTurn) (last : AcquireTurn)
  | recordOutcome (recorded : Bool) (outcome : PacingOutcome) (now : Instant)
  deriving DecidableEq, Repr

namespace OriginPacingState

variable (maxInstant : Instant) (delay : Duration)

/-- What a round decides, if anything, with the state that it leaves. -/
def turn (pacing : OriginPacingState) :
    AcquireTurn → Option (Except AdmissionError Unit) × OriginPacingState
  | .cancelled => (some (.error .cancelled), pacing)
  | .look now cancelled =>
    match pacing.attempt maxInstant now delay with
    | (.error error, pacing) => (some (.error error), pacing)
    | (.ok .acquired, pacing) => (some (.ok ()), pacing)
    | (.ok _, pacing) => (if cancelled then some (.error .cancelled) else none, pacing)

/-- The state behind rounds that decide nothing. -/
def waitTurns (pacing : OriginPacingState) : List AcquireTurn → Option OriginPacingState
  | [] => some pacing
  | next :: rest =>
    match pacing.turn maxInstant delay next with
    | (none, pacing) => waitTurns pacing rest
    | (some _, _) => none

/-- A whole acquisition, alone at the origin, that is decided in its last round. -/
def acquireWithDelay (pacing : OriginPacingState) (waits : List AcquireTurn) (last : AcquireTurn) :
    Option (Except AdmissionError Unit × OriginPacingState) :=
  match pacing.registerWaiter.waitTurns maxInstant delay waits with
  | none => none
  | some pacing =>
    match pacing.turn maxInstant delay last with
    | (none, _) => none
    | (some result, pacing) => some (result, pacing.releaseWaiter)

/-- A call through a registration of the origin. -/
def perform (registration : PacingRegistration) (pacing : OriginPacingState) :
    OriginCall → Option (Except AdmissionError Unit × OriginPacingState)
  | .acquire robots waits last =>
    match checkRobots registration.origin robots with
    | .error error => some (.error error, pacing)
    | .ok robotsDelay =>
      pacing.acquireWithDelay maxInstant (max registration.configuration.requestDelay robotsDelay)
        waits last
  | .recordOutcome recorded outcome now =>
    if recorded then some (.ok (), pacing)
    else some (pacing.recordOutcome maxInstant outcome now)

/-! ## Where a failed call leaves the state as it was -/

/-- The deadlines that are set. -/
def deadlines (pacing : OriginPacingState) : List Instant :=
  [pacing.nextRequestAt, pacing.backoffUntil, pacing.retryAfterUntil].reduceOption

/-- The counters fit into the integers that hold them. -/
structure Representable (pacing : OriginPacingState) : Prop where
  inFlight : pacing.inFlight ≤ maxU32
  registrations : ∀ entry ∈ pacing.registrations, entry.2 ≤ maxU32
  waitingAdmissions : pacing.waitingAdmissions ≤ maxU32
  consecutiveRateLimits : pacing.consecutiveRateLimits ≤ maxU8

/-- There is room for a request, and the deadline behind it cannot be represented. -/
structure Overflows (pacing : OriginPacingState) (now : Instant) : Prop where
  idle : pacing.deadlines = []
  room : ∃ concurrency ∈ pacing.effectiveConcurrency, pacing.inFlight < concurrency
  overflow : maxInstant < now + delay

/-- No deadline has passed when the state is looked at, and no look finds room for a request
whose deadline overflows.  A waiting acquisition can be counted. -/
structure AcquiresCleanly (pacing : OriginPacingState) (waits : List AcquireTurn)
    (last : AcquireTurn) : Prop where
  pending : ∀ round ∈ waits ++ [last], ∀ now ∈ round.reading, ∀ d ∈ pacing.deadlines, now < d
  representable : ∀ now ∈ last.reading, ¬ pacing.Overflows maxInstant delay now
  counted : pacing.waitingAdmissions < maxU32

/-- No deadline has passed, the rate limits are counted to their bound, and the backoff
overflows or is no later than the present one. -/
structure RecordsCleanly (pacing : OriginPacingState) (now : Instant) : Prop where
  pending : ∀ d ∈ pacing.deadlines, now < d
  saturated : pacing.consecutiveRateLimits = maxU8
  backoff : maxInstant < now + maxRateLimitBackoff ∨
    ∃ d ∈ pacing.backoffUntil, now + maxRateLimitBackoff ≤ d

/-- Where a call that fails leaves the state as it was. -/
def FailsCleanly (registration : PacingRegistration) (pacing : OriginPacingState) :
    OriginCall → Prop
  | .acquire robots waits last => ∀ robotsDelay,
      checkRobots registration.origin robots = .ok robotsDelay →
        pacing.AcquiresCleanly maxInstant
          (max registration.configuration.requestDelay robotsDelay) waits last
  | .recordOutcome _ _ now => pacing.RecordsCleanly maxInstant now

/-! ## Passed deadlines -/

variable {maxInstant delay} {pacing pacing' : OriginPacingState} {now : Instant}
  {waits : List AcquireTurn} {last round : AcquireTurn} {error : AdmissionError}

/-- The state without the deadlines that have passed at any of the times. -/
def forgetting (pacing : OriginPacingState) (times : List Instant) : OriginPacingState :=
  { pacing with
    nextRequestAt := pacing.nextRequestAt.filter fun d => times.all (· < d)
    backoffUntil := pacing.backoffUntil.filter fun d => times.all (· < d)
    retryAfterUntil := pacing.retryAfterUntil.filter fun d => times.all (· < d) }

theorem forgetting_nil (pacing : OriginPacingState) : pacing.forgetting [] = pacing := by
  have hall : ∀ deadline : Option Instant, (deadline.filter fun _ => true) = deadline := by
    intro deadline
    cases deadline with
    | none => rfl
    | some d => rfl
  simp [forgetting, hall]

/-- Normalizing forgets what has passed at one reading. -/
theorem normalizeExpiredSafety_eq (now : Instant) (pacing : OriginPacingState) :
    pacing.normalizeExpiredSafety now = pacing.forgetting [now] := by
  simp [normalizeExpiredSafety, forgetting, Timing.unexpired]

/-- Forgetting twice. -/
theorem forgetting_forgetting (times times' : List Instant) :
    (pacing.forgetting times).forgetting times' = pacing.forgetting (times ++ times') := by
  simp [forgetting, Option.filter_filter]

/-- A deadline stays when no reading has passed it. -/
theorem filter_eq_self_iff {deadline : Option Instant} {times : List Instant} :
    (deadline.filter fun d => times.all (· < d)) = deadline ↔
      ∀ d ∈ deadline, ∀ now ∈ times, now < d := by
  cases deadline with
  | none => simp
  | some d => simp [Option.filter_eq_some_iff]

/-- The three deadlines. -/
theorem mem_deadlines {d : Instant} : d ∈ pacing.deadlines ↔
    d ∈ pacing.nextRequestAt ∨ d ∈ pacing.backoffUntil ∨ d ∈ pacing.retryAfterUntil := by
  simp [deadlines, List.reduceOption_mem_iff, eq_comm]

/-- A state is the same when its deadlines are. -/
theorem forgetting_eq_self {times : List Instant}
    (hnext : (pacing.forgetting times).nextRequestAt = pacing.nextRequestAt)
    (hbackoff : (pacing.forgetting times).backoffUntil = pacing.backoffUntil)
    (hretry : (pacing.forgetting times).retryAfterUntil = pacing.retryAfterUntil) :
    pacing.forgetting times = pacing := by
  have hfields : pacing.forgetting times = { pacing with
      nextRequestAt := (pacing.forgetting times).nextRequestAt
      backoffUntil := (pacing.forgetting times).backoffUntil
      retryAfterUntil := (pacing.forgetting times).retryAfterUntil } := rfl
  rw [hfields, hnext, hbackoff, hretry]

theorem forgetting_eq_self_iff {times : List Instant} :
    pacing.forgetting times = pacing ↔ ∀ now ∈ times, ∀ d ∈ pacing.deadlines, now < d := by
  constructor
  · intro h now hnow d hd
    have hnext := filter_eq_self_iff.mp (congrArg nextRequestAt h)
    have hbackoff := filter_eq_self_iff.mp (congrArg backoffUntil h)
    have hretry := filter_eq_self_iff.mp (congrArg retryAfterUntil h)
    rcases mem_deadlines.mp hd with hd | hd | hd
    · exact hnext d hd now hnow
    · exact hbackoff d hd now hnow
    · exact hretry d hd now hnow
  · intro h
    apply forgetting_eq_self
    · exact filter_eq_self_iff.mpr fun d hd now hnow =>
        h now hnow d (mem_deadlines.mpr (Or.inl hd))
    · exact filter_eq_self_iff.mpr fun d hd now hnow =>
        h now hnow d (mem_deadlines.mpr (Or.inr (Or.inl hd)))
    · exact filter_eq_self_iff.mpr fun d hd now hnow =>
        h now hnow d (mem_deadlines.mpr (Or.inr (Or.inr hd)))

/-- No deadline that is left is pending: there is none. -/
theorem deadlines_eq_nil_iff : (pacing.forgetting [now]).deadlines = [] ↔
    ∀ deadline ∈ (pacing.forgetting [now]).latestDeadline, deadline ≤ now := by
  have hlater : ∀ d ∈ (pacing.forgetting [now]).deadlines, now < d := by
    have hself : (pacing.forgetting [now]).forgetting [now] = pacing.forgetting [now] := by
      rw [forgetting_forgetting]
      simp [forgetting]
    exact forgetting_eq_self_iff.mp hself now (List.mem_singleton_self now)
  constructor
  · intro h deadline hdeadline
    rw [latestDeadline, ← deadlines, h] at hdeadline
    cases hdeadline
  · intro h
    cases hmax : (pacing.forgetting [now]).latestDeadline with
    | none => exact List.max?_eq_none_iff.mp hmax
    | some deadline =>
      have hmem := List.max?_mem hmax
      exact absurd (h deadline hmax) (not_le.mpr (hlater deadline hmem))

/-! ## Acquisitions that fail -/

/-- The request is counted, at the bound of the counter at most. -/
def counted (pacing : OriginPacingState) : OriginPacingState :=
  { pacing with inFlight := min (pacing.inFlight + 1) maxU32 }

/-- What one look finds: no registration, room with or without a deadline behind the
request, or nothing but the deadlines that have passed. -/
theorem attempt_spec (pacing : OriginPacingState) (maxInstant now : Instant) (delay : Duration) :
    (pacing.effectiveConcurrency = none ∧
      pacing.attempt maxInstant now delay =
        (.error .registrationReleased, pacing.forgetting [now])) ∨
    ((pacing.forgetting [now]).Overflows maxInstant delay now ∧
      pacing.attempt maxInstant now delay =
        (.error .clockOverflow, (pacing.forgetting [now]).counted)) ∨
    (pacing.attempt maxInstant now delay).1 = .ok .acquired ∨
    (∃ result, result ≠ .acquired ∧ ¬ (pacing.forgetting [now]).Overflows maxInstant delay now ∧
      pacing.attempt maxInstant now delay = (.ok result, pacing.forgetting [now])) := by
  have hconcurrency : (pacing.forgetting [now]).effectiveConcurrency =
      pacing.effectiveConcurrency := rfl
  unfold attempt
  dsimp only
  rw [normalizeExpiredSafety_eq, hconcurrency]
  cases hc : pacing.effectiveConcurrency with
  | none => exact Or.inl ⟨rfl, rfl⟩
  | some c =>
    right
    dsimp only
    split
    · rename_i hroom
      -- room is there, so the attempt fails exactly when the next deadline is too late for the
      -- clock
      cases hadd : checkedAdd maxInstant now delay with
      | some d => exact Or.inr (Or.inl rfl)
      | none =>
        have hlate : maxInstant < now + delay := by
          by_contra hle
          rw [checkedAdd, if_pos (not_lt.mp hle)] at hadd
          cases hadd
        have hidle := deadlines_eq_nil_iff.mpr hroom.2
        exact Or.inl ⟨⟨hidle, ⟨c, hconcurrency.trans hc, hroom.1⟩, hlate⟩, rfl⟩
    · rename_i hroom
      right
      right
      -- without room no deadline is computed at all
      have hnot : ¬ (pacing.forgetting [now]).Overflows maxInstant delay now := by
        rintro ⟨hidle, ⟨c', hc', hlt⟩, _⟩
        rw [hconcurrency, hc] at hc'
        cases hc'
        exact hroom ⟨hlt, deadlines_eq_nil_iff.mp hidle⟩
      split
      · exact ⟨_, by simp, hnot, rfl⟩
      · exact ⟨_, by simp, hnot, rfl⟩

/-- A round that decides nothing forgets the deadlines that have passed. -/
theorem turn_eq_none (h : pacing.turn maxInstant delay round = (none, pacing')) :
    pacing' = pacing.forgetting round.reading.toList := by
  cases round with
  | cancelled => cases h
  | look now cancelled =>
    rw [turn] at h
    rcases attempt_spec pacing maxInstant now delay with
      ⟨_, hattempt⟩ | ⟨_, hattempt⟩ | hacquired | ⟨result, hresult, _, hattempt⟩
    · rw [hattempt] at h
      cases h
    · rw [hattempt] at h
      cases h
    · cases hattempt : pacing.attempt maxInstant now delay with
      | mk result after =>
        rw [hattempt] at hacquired h
        cases hacquired
        cases h
    · rw [hattempt] at h
      cases result with
      | acquired => exact absurd rfl hresult
      | _ => exact (Prod.mk.inj h).2.symm

/-- A round that fails forgets the deadlines that have passed, and counts a request where
its deadline overflows. -/
theorem turn_eq_error (h : pacing.turn maxInstant delay round = (some (.error error), pacing')) :
    ((∀ now ∈ round.reading, ¬ (pacing.forgetting [now]).Overflows maxInstant delay now) ∧
      pacing' = pacing.forgetting round.reading.toList) ∨
    ∃ now ∈ round.reading, (pacing.forgetting [now]).Overflows maxInstant delay now ∧
      pacing' = (pacing.forgetting round.reading.toList).counted := by
  cases round with
  | cancelled =>
    cases h
    exact Or.inl ⟨fun _ hnow => (by cases hnow), (forgetting_nil pacing).symm⟩
  | look now cancelled =>
    rw [turn] at h
    rcases attempt_spec pacing maxInstant now delay with
      ⟨hnone, hattempt⟩ | ⟨hoverflows, hattempt⟩ | hacquired | ⟨result, hresult, hnot, hattempt⟩
    · rw [hattempt] at h
      refine Or.inl ⟨?_, (Prod.mk.inj h).2.symm⟩
      intro later hlater hoverflows
      obtain ⟨c, hc, _⟩ := hoverflows.room
      exact absurd (hc.symm.trans hnone) (Option.some_ne_none c)
    · rw [hattempt] at h
      exact Or.inr ⟨now, rfl, hoverflows, (Prod.mk.inj h).2.symm⟩
    · cases hattempt : pacing.attempt maxInstant now delay with
      | mk result after =>
        rw [hattempt] at hacquired h
        cases hacquired
        cases h
    · rw [hattempt] at h
      left
      constructor
      · intro later hlater
        cases hlater
        exact hnot
      · cases result with
        | acquired => exact absurd rfl hresult
        | _ => exact (Prod.mk.inj h).2.symm

/-- The times at which the state is looked at. -/
def readings (rounds : List AcquireTurn) : List Instant := rounds.filterMap AcquireTurn.reading

/-- Waiting only forgets deadlines. -/
theorem waitTurns_eq_some (h : pacing.waitTurns maxInstant delay waits = some pacing') :
    pacing' = pacing.forgetting (readings waits) := by
  induction waits generalizing pacing with
  | nil =>
    rw [readings, List.filterMap_nil, forgetting_nil]
    exact (Option.some.inj h).symm
  | cons round rest ih =>
    rw [waitTurns] at h
    split at h
    · rename_i next hnext
      rw [ih h, turn_eq_none hnext, forgetting_forgetting]
      cases hreading : round.reading with
      | none => simp [readings, hreading]
      | some now => simp [readings, hreading]
    · cases h

/-- A counted request changes the count. -/
theorem Representable.counted_ne (h : pacing.Representable) {c : ℕ}
    (hc : c ∈ pacing.effectiveConcurrency) (hroom : pacing.inFlight < c) :
    min (pacing.inFlight + 1) maxU32 ≠ pacing.inFlight := by
  obtain ⟨entry, hentry, rfl⟩ := List.mem_map.mp (List.min?_mem hc)
  have hentryLe := h.registrations entry hentry
  omega

/-- Waiting leaves the state as it was where no deadline has passed meanwhile. -/
theorem releaseWaiter_eq_iff {times : List Instant} (h : pacing.waitingAdmissions ≤ maxU32) :
    (pacing.registerWaiter.forgetting times).releaseWaiter = pacing ↔
      pacing.forgetting times = pacing ∧ pacing.waitingAdmissions < maxU32 := by
  have hpos : 0 < maxU32 := by decide
  constructor
  · intro heq
    have hcount : min (pacing.waitingAdmissions + 1) maxU32 - 1 = pacing.waitingAdmissions :=
      congrArg waitingAdmissions heq
    refine ⟨forgetting_eq_self ?_ ?_ ?_, by omega⟩
    · exact (congrArg nextRequestAt heq :)
    · exact (congrArg backoffUntil heq :)
    · exact (congrArg retryAfterUntil heq :)
  · rintro ⟨hforget, hcounted⟩
    have hcount : min (pacing.waitingAdmissions + 1) maxU32 - 1 = pacing.waitingAdmissions := by
      omega
    have hwaiter : (pacing.registerWaiter.forgetting times).releaseWaiter =
        { pacing.forgetting times with
          waitingAdmissions := min (pacing.waitingAdmissions + 1) maxU32 - 1 } := rfl
    rw [hwaiter, hforget, hcount]

/-- The times at which an acquisition looks at the state. -/
theorem pending_iff : pacing.forgetting (readings waits ++ last.reading.toList) = pacing ↔
    ∀ round ∈ waits ++ [last], ∀ now ∈ round.reading, ∀ d ∈ pacing.deadlines, now < d := by
  have hreadings : readings waits ++ last.reading.toList = readings (waits ++ [last]) := by
    cases hreading : last.reading with
    | none => simp [readings, hreading]
    | some now => simp [readings, hreading]
  rw [hreadings, forgetting_eq_self_iff]
  constructor
  · intro hall round hround now hnow
    exact hall now (List.mem_filterMap.mpr ⟨round, hround, hnow⟩)
  · intro hall now hnow
    obtain ⟨round, hround, hreading⟩ := List.mem_filterMap.mp hnow
    exact hall round hround now hreading

/-- An acquisition that fails leaves the state as it was exactly when it runs cleanly. -/
theorem acquireWithDelay_eq_iff (hrep : pacing.Representable)
    (h : pacing.acquireWithDelay maxInstant delay waits last = some (.error error, pacing')) :
    pacing' = pacing ↔ pacing.AcquiresCleanly maxInstant delay waits last := by
  rw [acquireWithDelay] at h
  split at h
  · cases h
  · rename_i waited hwaited
    split at h
    · cases h
    · rename_i result after hlast
      cases h
      -- What the last look finds is the state without the deadlines that have passed.
      have hlook : ∀ now ∈ last.reading, waited.forgetting [now] =
          (pacing.forgetting (readings waits ++ last.reading.toList)).registerWaiter := by
        intro now hnow
        rw [waitTurns_eq_some hwaited, forgetting_forgetting, Option.mem_def.mp hnow]
        rfl
      rcases turn_eq_error hlast with ⟨hnot, rfl⟩ | ⟨now, hnow, hoverflows, rfl⟩
      · rw [waitTurns_eq_some hwaited, forgetting_forgetting,
          releaseWaiter_eq_iff hrep.waitingAdmissions, pending_iff]
        constructor
        · rintro ⟨hpending, hcounted⟩
          refine ⟨hpending, fun now hnow hoverflows => hnot now hnow ?_, hcounted⟩
          rw [hlook now hnow, pending_iff.mpr hpending]
          exact ⟨hoverflows.idle, hoverflows.room, hoverflows.overflow⟩
        · intro hclean
          exact ⟨hclean.pending, hclean.counted⟩
      · rw [hlook now hnow] at hoverflows
        constructor
        · intro heq
          obtain ⟨c, hc, hroom⟩ := hoverflows.room
          have hinFlight : min (waited.inFlight + 1) maxU32 = pacing.inFlight :=
            congrArg inFlight heq
          rw [waitTurns_eq_some hwaited] at hinFlight
          exact absurd hinFlight (hrep.counted_ne hc hroom)
        · intro hclean
          rw [pending_iff.mpr hclean.pending] at hoverflows
          exact absurd ⟨hoverflows.idle, hoverflows.room, hoverflows.overflow⟩
            (hclean.representable now hnow)

/-! ## Outcomes that fail -/

/-- The backoff is the longest from there on. -/
theorem boundedBackoff_maxU8 : boundedBackoff maxU8 = maxRateLimitBackoff := by decide

/-- A sum that the clock cannot show. -/
theorem checkedAdd_eq_none {duration : Duration} :
    checkedAdd maxInstant now duration = none ↔ maxInstant < now + duration := by
  rw [checkedAdd]
  split
  · rename_i hle
    exact ⟨fun h => (by cases h), fun h => absurd hle (not_le.mpr h)⟩
  · rename_i hnot
    exact ⟨fun _ => not_le.mp hnot, fun _ => rfl⟩

/-- A rate limit that cannot be recorded is counted, and its backoff is kept where it
is only the delay asked for that overflows. -/
theorem recordRateLimit_eq_error {retryAfter : RetryAfterTiming}
    (h : pacing.recordRateLimit maxInstant now retryAfter = (.error error, pacing')) :
    (maxInstant < now + boundedBackoff (min (pacing.consecutiveRateLimits + 1) maxU8) ∧
      pacing' = { pacing with
        consecutiveRateLimits := min (pacing.consecutiveRateLimits + 1) maxU8 }) ∨
    now + boundedBackoff (min (pacing.consecutiveRateLimits + 1) maxU8) ≤ maxInstant ∧
      pacing' = { pacing with
        consecutiveRateLimits := min (pacing.consecutiveRateLimits + 1) maxU8
        backoffUntil := some (later pacing.backoffUntil
          (now + boundedBackoff (min (pacing.consecutiveRateLimits + 1) maxU8))) } := by
  unfold recordRateLimit at h
  dsimp only at h
  split at h
  · rename_i hoverflow
    exact Or.inl ⟨checkedAdd_eq_none.mp hoverflow, (Prod.mk.inj h).2.symm⟩
  · rename_i backoffUntil hbackoff
    have hfits := checkedAdd_eq_some hbackoff
    have hle : now + boundedBackoff (min (pacing.consecutiveRateLimits + 1) maxU8) ≤
        maxInstant := by
      by_contra hlate
      rw [checkedAdd_eq_none.mpr (not_le.mp hlate)] at hbackoff
      cases hbackoff
    right
    split at h
    · cases h
    · split at h
      · refine ⟨hle, ?_⟩
        rw [← hfits]
        exact (Prod.mk.inj h).2.symm
      · cases h

/-- An outcome that fails leaves the state as it was exactly when it is recorded cleanly. -/
theorem recordOutcome_eq_iff {outcome : PacingOutcome} (hrep : pacing.Representable)
    (h : pacing.recordOutcome maxInstant outcome now = (.error error, pacing')) :
    pacing' = pacing ↔ pacing.RecordsCleanly maxInstant now := by
  have hbound := hrep.consecutiveRateLimits
  cases outcome with
  | success => cases h
  | failed => cases h
  | rateLimited retryAfter =>
    have hrecord : (pacing.normalizeExpiredSafety now).recordRateLimit maxInstant now retryAfter =
        (.error error, pacing') := h
    rw [normalizeExpiredSafety_eq] at hrecord
    have hpending : pacing.forgetting [now] = pacing ↔ ∀ d ∈ pacing.deadlines, now < d := by
      rw [forgetting_eq_self_iff]
      simp
    -- A counter that is not changed has reached its bound.
    have hcount : min (pacing.consecutiveRateLimits + 1) maxU8 = pacing.consecutiveRateLimits ↔
        pacing.consecutiveRateLimits = maxU8 := by
      omega
    rcases recordRateLimit_eq_error hrecord with ⟨hoverflow, rfl⟩ | ⟨hfits, rfl⟩
    · constructor
      · intro heq
        have hsaturated := hcount.mp (congrArg consecutiveRateLimits heq)
        have hforget : pacing.forgetting [now] = pacing :=
          forgetting_eq_self (congrArg nextRequestAt heq :) (congrArg backoffUntil heq :)
            (congrArg retryAfterUntil heq :)
        rw [hforget, hcount.mpr hsaturated, hsaturated, boundedBackoff_maxU8] at hoverflow
        exact ⟨hpending.mp hforget, hsaturated, Or.inl hoverflow⟩
      · intro hclean
        rw [hpending.mpr hclean.pending, hcount.mpr hclean.saturated]
    · constructor
      · intro heq
        have hsaturated := hcount.mp (congrArg consecutiveRateLimits heq)
        have hbackoff := congrArg backoffUntil heq
        -- The backoff that is kept is not earlier than the one that was recorded.
        have hle := le_later (pacing.forgetting [now]).backoffUntil
          (now + boundedBackoff (min ((pacing.forgetting [now]).consecutiveRateLimits + 1) maxU8))
        have hcount' : min ((pacing.forgetting [now]).consecutiveRateLimits + 1) maxU8 = maxU8 :=
          (hcount.mpr hsaturated).trans hsaturated
        rw [hcount', boundedBackoff_maxU8] at hle
        simp only [hcount', boundedBackoff_maxU8] at hbackoff
        have hpositive : 0 < maxRateLimitBackoff := by decide
        have hkept : (pacing.forgetting [now]).backoffUntil = pacing.backoffUntil := by
          apply filter_eq_self_iff.mpr
          intro d hd reading hreading
          rw [← hbackoff] at hd
          cases hd
          rw [List.mem_singleton.mp hreading]
          exact lt_of_lt_of_le (Nat.lt_add_of_pos_right hpositive) hle
        have hforget : pacing.forgetting [now] = pacing :=
          forgetting_eq_self (congrArg nextRequestAt heq :) hkept (congrArg retryAfterUntil heq :)
        exact ⟨hpending.mp hforget, hsaturated, Or.inr ⟨_, hbackoff.symm, hle⟩⟩
      · intro hclean
        rw [hpending.mpr hclean.pending] at hfits ⊢
        rw [hcount.mpr hclean.saturated, hclean.saturated, boundedBackoff_maxU8] at hfits
        obtain ⟨d, hd, hle⟩ := hclean.backoff.resolve_left (not_lt.mpr hfits)
        have hlater : some (later pacing.backoffUntil (now + maxRateLimitBackoff)) =
            pacing.backoffUntil := by
          rw [Option.mem_def.mp hd]
          exact congrArg some (max_eq_left hle)
        rw [hcount.mpr hclean.saturated, hclean.saturated, boundedBackoff_maxU8, hlater,
          ← hclean.saturated]

/-! ## Calls that fail -/

/-- A call that fails leaves the state of its origin exactly as it was, where it finds no
deadline that has passed and nothing overflows behind a change of the state. -/
theorem perform_eq_iff {registration : PacingRegistration} {call : OriginCall}
    (hrep : pacing.Representable)
    (h : pacing.perform maxInstant registration call = some (.error error, pacing')) :
    pacing' = pacing ↔ pacing.FailsCleanly maxInstant registration call := by
  cases call with
  | acquire robots waits last =>
    rw [perform] at h
    split at h
    · rename_i refused hrefused
      cases h
      refine ⟨fun _ robotsDelay hdelay => ?_, fun _ => rfl⟩
      rw [hrefused] at hdelay
      cases hdelay
    · rename_i robotsDelay hdelay
      rw [acquireWithDelay_eq_iff hrep h]
      constructor
      · intro hclean other hother
        rw [hdelay] at hother
        cases hother
        exact hclean
      · intro hclean
        exact hclean robotsDelay hdelay
  | recordOutcome recorded outcome now =>
    rw [perform] at h
    split at h
    · cases h
    · exact recordOutcome_eq_iff hrep (Option.some.inj h)

/-- An origin with one registration, at rest. -/
def rested : OriginPacingState := ⟨0, [(0, 1)], 0, none, none, none, 0⟩

/-- A registration of the origin, with a delay of a second. -/
def slowRegistration : PacingRegistration where
  origin := ⟨"https", "a", 443⟩
  state := 0
  registrationId := 0
  configuration := ⟨1, secs 1, by decide, by decide, by decide⟩

/-- A state at rest is representable. -/
theorem representable_rested : rested.Representable := by
  constructor
  · decide
  · decide
  · decide
  · decide

/-- At the end of time a request is counted that is not admitted. -/
theorem perform_eq_iff_overflow : { rested with inFlight := 1 } = rested ↔
    rested.FailsCleanly (secs 10) slowRegistration (.acquire none [] (.look (secs 10) false)) := by
  have herror : rested.perform (secs 10) slowRegistration
      (.acquire none [] (.look (secs 10) false)) =
        some (.error .clockOverflow, { rested with inFlight := 1 }) := by
    decide
  exact perform_eq_iff representable_rested herror

/-- The slot of a request that is not admitted is not given back. -/
theorem failed_call_counts : ¬ ∀ (maxInstant : Instant) (registration : PacingRegistration)
    (pacing pacing' : OriginPacingState) (call : OriginCall) (error : AdmissionError),
      pacing.Representable → pacing.perform maxInstant registration call =
        some (.error error, pacing') → pacing' = pacing := by
  intro h
  have hsame := h (secs 10) slowRegistration rested { rested with inFlight := 1 }
    (.acquire none [] (.look (secs 10) false)) .clockOverflow representable_rested (by decide)
  exact absurd hsame (by decide)

end OriginPacingState

end Erabi.Pacing
