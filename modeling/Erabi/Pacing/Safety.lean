/-
# Admissions are paced

A deadline of a state is only ever replaced by a later one, or forgotten when it
has passed.  An admission looks at the state with an accurate clock, so whatever
deadline was set for its origin before has passed by then, and it only takes place
while fewer requests are in flight than the strictest registration allows.
-/
import Mathlib
import Erabi.Pacing.Sharing

namespace Erabi.Pacing

open Relational Transition Timing OriginPacingState

/-! ## Deadlines -/

/-- The deadlines of a state. -/
def OriginPacingState.deadline (pacing : OriginPacingState) : DeadlineKind → Option Instant
  | .nextRequest => pacing.nextRequestAt
  | .backoff => pacing.backoffUntil
  | .retryAfter => pacing.retryAfterUntil

/-- The deadlines an origin has in the registry. -/
def PacingSystem.deadline (s : PacingSystem) (origin : OriginKey) (kind : DeadlineKind) :
    Option Instant :=
  (s.registry.stateOf origin).bind fun id => (s.heap id).deadline kind

/-! ## What is claimed of the log -/

/-- An admission leaves no more requests in flight than any registration of the
origin allows.  It is no earlier than any admission before it plus the delay of that
one, and no earlier than any deadline recorded before it. -/
def PacedAfter (before : List PacingEvent) (admission : Admission) : Prop :=
  (∀ concurrency ∈ admission.concurrencies, admission.inFlight ≤ concurrency) ∧
  (∀ previous, .admitted previous ∈ before → previous.origin = admission.origin →
    previous.admittedAt + previous.effectiveDelay ≤ admission.admittedAt) ∧
  ∀ kind deadline, .deferred admission.origin kind deadline ∈ before →
    deadline ≤ admission.admittedAt

/-- Every admission in the log kept its distance. -/
def Paced (log : List PacingEvent) : Prop :=
  ∀ before admission later, log = before ++ .admitted admission :: later →
    PacedAfter before admission

/-! ## The operations keep the deadlines -/

variable {s : PacingSystem} {clock now d : Instant} {kind : DeadlineKind}

/-- Every deadline that was kept still is. -/
def KeepsDeadlines (clock : Instant) (pacing pacing' : OriginPacingState) : Prop :=
  ∀ kind d, Kept clock (pacing.deadline kind) d → Kept clock (pacing'.deadline kind) d

theorem KeepsDeadlines.of_eq {pacing pacing' : OriginPacingState}
    (h : pacing'.deadline = pacing.deadline) : KeepsDeadlines clock pacing pacing' := by
  intro kind d hkept
  rwa [h]

theorem KeepsDeadlines.trans {pacing pacing' pacing'' : OriginPacingState}
    (h : KeepsDeadlines clock pacing pacing') (h' : KeepsDeadlines clock pacing' pacing'') :
    KeepsDeadlines clock pacing pacing'' := fun kind d hkept => h' kind d (h kind d hkept)

/-- Only passed deadlines are forgotten. -/
theorem normalize_keepsDeadlines (pacing : OriginPacingState) (hnow : now ≤ clock) :
    KeepsDeadlines clock pacing (pacing.normalizeExpiredSafety now) := by
  intro kind d hkept
  cases kind <;> exact hkept.unexpired hnow

/-- A rate limit keeps deadlines or makes them later. -/
theorem recordRateLimit_keepsDeadlines (pacing : OriginPacingState) (maxInstant : Instant)
    (retryAfter : RetryAfterTiming) :
    KeepsDeadlines clock pacing (pacing.recordRateLimit maxInstant now retryAfter).2 := by
  intro kind d hkept
  unfold recordRateLimit
  dsimp only
  split
  · cases kind <;> exact hkept
  · split
    · cases kind with
      | backoff => exact hkept.later
      | nextRequest | retryAfter => exact hkept
    · split
      · cases kind with
        | backoff => exact hkept.later
        | nextRequest | retryAfter => exact hkept
      · cases kind with
        | backoff | retryAfter => exact hkept.later
        | nextRequest => exact hkept

/-- An outcome keeps deadlines or makes them later. -/
theorem recordOutcome_keepsDeadlines (pacing : OriginPacingState) (maxInstant : Instant)
    (outcome : PacingOutcome) (hnow : now ≤ clock) :
    KeepsDeadlines clock pacing (pacing.recordOutcome maxInstant outcome now).2 := by
  cases outcome with
  | success => exact (normalize_keepsDeadlines pacing hnow).trans (.of_eq (by funext k; cases k <;> rfl))
  | failed => exact normalize_keepsDeadlines pacing hnow
  | rateLimited retryAfter =>
    exact (normalize_keepsDeadlines pacing hnow).trans (recordRateLimit_keepsDeadlines _ _ _)

/-- The latest deadline is not before any of them. -/
theorem le_latestDeadline {pacing : OriginPacingState} (h : d ∈ pacing.deadline kind) :
    ∃ latest ∈ pacing.latestDeadline, d ≤ latest := by
  have hmem : d ∈ [pacing.nextRequestAt, pacing.backoffUntil,
      pacing.retryAfterUntil].reduceOption := by
    rw [List.reduceOption_mem_iff]
    cases kind with
    | nextRequest =>
      rw [show pacing.nextRequestAt = some d from h]
      simp
    | backoff =>
      rw [show pacing.backoffUntil = some d from h]
      simp
    | retryAfter =>
      rw [show pacing.retryAfterUntil = some d from h]
      simp
  obtain ⟨latest, hlatest⟩ := Option.isSome_iff_exists.mp (List.isSome_max?_of_mem hmem)
  exact ⟨latest, hlatest, (List.max?_eq_some_iff.mp hlatest).2 d hmem⟩

/-- When a look at the state lets a request in, every deadline has passed. -/
theorem passed_of_latest {pacing : OriginPacingState}
    (hkept : Kept clock (pacing.deadline kind) d)
    (hlatest : ∀ deadline ∈ (pacing.normalizeExpiredSafety clock).latestDeadline,
      deadline ≤ clock) : d ≤ clock := by
  refine (normalize_keepsDeadlines pacing le_rfl kind d hkept).passed fun d' hd' => ?_
  obtain ⟨latest, hmem, hle⟩ := le_latestDeadline hd'
  exact hle.trans (hlatest latest hmem)

/-- An attempt keeps deadlines or makes them later. -/
theorem attempt_keepsDeadlines (pacing : OriginPacingState) (maxInstant : Instant)
    (delay : Duration) :
    KeepsDeadlines clock pacing (pacing.attempt maxInstant clock delay).2 := by
  rcases attempt_cases pacing maxInstant clock delay with
    ⟨_, hstate⟩ | ⟨c, _, _, hlatest, ⟨_, hstate⟩ | heq⟩
  · rw [hstate]
    exact normalize_keepsDeadlines pacing le_rfl
  · rw [hstate]
    exact (normalize_keepsDeadlines pacing le_rfl).trans (.of_eq (by funext k; cases k <;> rfl))
  · rw [heq]
    intro kind d hkept
    -- the next deadline takes the place of one that has passed
    exact Or.inl (passed_of_latest hkept hlatest)

/-! ## Every step keeps the deadlines of the origins -/

/-- The deadline of an origin is that of its state. -/
theorem deadline_of_some {origin : OriginKey} {id : StateId}
    (h : s.registry.stateOf origin = some id) :
    s.deadline origin kind = (s.heap id).deadline kind := by
  unfold PacingSystem.deadline
  rw [h, Option.bind_some]

/-- A deadline kept in the state is kept for the origin. -/
theorem kept_of_some {origin : OriginKey} {id : StateId}
    (h : s.registry.stateOf origin = some id) (hkept : Kept clock ((s.heap id).deadline kind) d) :
    Kept clock (s.deadline origin kind) d := by
  rwa [deadline_of_some h]

/-- An origin without a state has no deadline. -/
theorem deadline_of_none {origin : OriginKey} (h : s.registry.stateOf origin = none) :
    s.deadline origin kind = none := by
  unfold PacingSystem.deadline
  rw [h, Option.bind_none]

/-- An origin without a state has no deadline that has not passed. -/
theorem passed_of_none {origin : OriginKey} (h : s.registry.stateOf origin = none)
    (hkept : Kept clock (s.deadline origin kind) d) : d ≤ clock := by
  rw [deadline_of_none h] at hkept
  exact hkept.passed fun d' hd' => by cases hd'

/-- Deadlines are kept when every state keeps them. -/
theorem kept_of_heap {s' : PacingSystem} (hregistry : s'.registry.stateOf = s.registry.stateOf)
    (hheap : ∀ id, KeepsDeadlines clock (s.heap id) (s'.heap id)) {origin : OriginKey}
    (hkept : Kept clock (s.deadline origin kind) d) : Kept clock (s'.deadline origin kind) d := by
  rcases hstate : s.registry.stateOf origin with _ | id
  · exact Or.inl (passed_of_none hstate hkept)
  · rw [deadline_of_some hstate] at hkept
    refine kept_of_some ?_ (hheap id kind d hkept)
    rw [hregistry, hstate]

/-- Changing one state keeps deadlines when it does. -/
theorem update_keepsDeadlines {heap : StateId → OriginPacingState} {id : StateId}
    {pacing : OriginPacingState} (h : KeepsDeadlines clock (heap id) pacing) (other : StateId) :
    KeepsDeadlines clock (heap other) (Function.update heap id pacing other) := by
  by_cases hother : other = id
  · subst hother
    rwa [Function.update_self]
  · rw [Function.update_of_ne hother]
    exact .of_eq rfl

/-- Forgetting in all states keeps deadlines. -/
theorem normalizeStates_keepsDeadlines (hnow : now ≤ clock) (entries : List (OriginKey × StateId))
    (heap : StateId → OriginPacingState) (id : StateId) :
    KeepsDeadlines clock (heap id) (normalizeStates now entries heap id) := by
  induction entries generalizing heap with
  | nil => exact .of_eq rfl
  | cons entry entries ih =>
    exact (update_keepsDeadlines (normalize_keepsDeadlines _ hnow) id).trans (ih _)

/-- A state that may be retired has no deadline. -/
theorem deadline_of_safe {pacing : OriginPacingState} (h : pacing.isSafeToRetire = true) :
    pacing.deadline kind = none := by
  obtain ⟨_, _, _, hnext, hbackoff, hretry⟩ := isSafeToRetire_iff.mp h
  cases kind with
  | nextRequest => exact hnext
  | backoff => exact hbackoff
  | retryAfter => exact hretry

/-- A retired state has no deadline left. -/
theorem prune_kept (hnow : now ≤ clock) {origin : OriginKey}
    (hkept : Kept clock (s.deadline origin kind) d) :
    Kept clock ((pruneSafeStates now s).deadline origin kind) d := by
  rcases hstate : s.registry.stateOf origin with _ | id
  · exact Or.inl (passed_of_none hstate hkept)
  · rw [deadline_of_some hstate] at hkept
    have hnormal : Kept clock (((pruneSafeStates now s).heap id).deadline kind) d :=
      normalizeStates_keepsDeadlines hnow _ s.heap id kind d hkept
    rcases pruneSafeStates_stateOf now hstate with hstays | ⟨_, hsafe⟩
    · rwa [deadline_of_some hstays]
    · rw [deadline_of_safe hsafe] at hnormal
      exact Or.inl (hnormal.passed fun d' hd' => by cases hd')

/-- Creating a state keeps the deadlines of all origins. -/
theorem originState_kept (h : Shared s) (hnow : now ≤ clock) (created : OriginKey)
    {origin : OriginKey} (hkept : Kept clock (s.deadline origin kind) d) :
    Kept clock ((originState created now s).2.deadline origin kind) d := by
  rcases originState_cases created now s with ⟨_, _, heq⟩ | ⟨t, hnone, ht, hcase⟩
  · rw [heq]
    exact hkept
  · have ht' : Shared t ∧ t.registry.stateOf created = none ∧
        Kept clock (t.deadline origin kind) d := by
      rcases ht with rfl | rfl
      · exact ⟨h, hnone, hkept⟩
      · exact ⟨h.prune now, pruneSafeStates_stateOf_none now hnone, prune_kept hnow hkept⟩
    obtain ⟨hshared, hnone, hkept⟩ := ht'
    rcases hcase with heq | ⟨_, heq⟩ <;> rw [heq]
    · exact hkept
    · rcases hstate : t.registry.stateOf origin with _ | id
      · exact Or.inl (passed_of_none hstate hkept)
      · -- another origin, whose state is an older one
        have hne : created ≠ origin := fun e => by
          rw [e, hstate] at hnone
          cases hnone
        have hlt := hshared.allocated _ (OriginRegistry.stateOf_eq_some.mp hstate)
        rw [deadline_of_some hstate] at hkept
        have hput : ((t.registry.states.put (created, t.nextState)).find? origin).map Prod.snd =
            some id := by
          rw [Table.find?_put, if_neg hne]
          exact hstate
        refine kept_of_some hput ?_
        show Kept clock ((Function.update t.heap t.nextState .initial id).deadline kind) d
        rwa [Function.update_of_ne (Nat.ne_of_lt hlt)]

/-- The deadlines of every origin are kept in every step. -/
theorem pacingStep_kept (h : Shared s) (input : PacingInput) {origin : OriginKey}
    (hkept : Kept s.clock (s.deadline origin kind) d) :
    Kept s.clock ((pacingStep s input).deadline origin kind) d := by
  -- an update that leaves the deadlines of its own state leaves them everywhere
  have hsame : ∀ {t : PacingSystem} {id : StateId} {pacing : OriginPacingState},
      pacing.deadline = (t.heap id).deadline → ∀ other,
        KeepsDeadlines s.clock (t.heap other) (Function.update t.heap id pacing other) :=
    fun hpacing => update_keepsDeadlines (.of_eq hpacing)
  cases input with
  | register created configuration reading =>
    show Kept s.clock ((if reading ≤ s.clock then
      (register created configuration reading s).2 else s).deadline origin kind) d
    split
    · rename_i hnow
      -- a registration may retire states first, never one that holds a deadline in the future
      have hstate := originState_kept h hnow created hkept
      rcases register_cases created configuration reading s with heq | ⟨id, next, _, _, heq⟩ <;>
        rw [heq]
      · exact hstate
      · refine kept_of_heap ?_ ?_ hstate
        · rfl
        · exact hsame (by funext k; cases k <;> rfl)
    · exact hkept
  | dropRegistration id =>
    show Kept s.clock ((dropRegistration id s).deadline origin kind) d
    unfold dropRegistration
    split
    · exact hkept
    · split
      · exact hkept
      · refine kept_of_heap ?_ ?_ hkept
        · rfl
        · exact hsame (by funext k; cases k <;> rfl)
  | acquire id waiter robots =>
    show Kept s.clock ((acquire id waiter robots s).2.deadline origin kind) d
    unfold acquire
    split
    · exact hkept
    · split
      · exact hkept
      · split
        · exact hkept
        · refine kept_of_heap ?_ ?_ hkept
          · rfl
          · exact hsame (by funext k; cases k <;> rfl)
  -- only an attempt and an outcome write deadlines, and both write later ones
  | attempt waiter permit =>
    show Kept s.clock ((attempt waiter permit s).deadline origin kind) d
    rcases attempt_effect waiter permit s with heq |
      ⟨guarded, _, waiters, _, ⟨_, heq⟩ | ⟨_, permits, _, heq⟩⟩ <;> rw [heq]
    · exact hkept
    · refine kept_of_heap ?_ ?_ hkept
      · rfl
      · exact update_keepsDeadlines (attempt_keepsDeadlines _ _ _)
    · refine kept_of_heap ?_ ?_ hkept
      · rfl
      · exact update_keepsDeadlines (attempt_keepsDeadlines _ _ _)
  | dropWaiter waiter =>
    show Kept s.clock ((dropWaiter waiter s).deadline origin kind) d
    unfold dropWaiter
    split
    · exact hkept
    · refine kept_of_heap ?_ ?_ hkept
      · rfl
      · exact hsame (by funext k; cases k <;> rfl)
  | recordOutcome permit outcome reading =>
    show Kept s.clock ((if reading ≤ s.clock then
      recordOutcome permit outcome reading s else s).deadline origin kind) d
    split
    · rename_i hnow
      unfold recordOutcome
      split
      · exact hkept
      · refine kept_of_heap ?_ ?_ hkept
        · rfl
        · exact update_keepsDeadlines (recordOutcome_keepsDeadlines _ _ _ hnow)
    · exact hkept
  | dropPermit permit =>
    show Kept s.clock ((dropPermit permit s).deadline origin kind) d
    unfold dropPermit
    split
    · exact hkept
    · refine kept_of_heap ?_ ?_ hkept
      · rfl
      · exact hsame (by funext k; cases k <;> rfl)
  | tick duration => exact hkept

/-! ## Admissions -/

/-- The origin and the deadline that an event sets. -/
def PacingEvent.sets : PacingEvent → OriginKey × DeadlineKind × Instant
  | .admitted admission =>
    (admission.origin, .nextRequest, admission.admittedAt + admission.effectiveDelay)
  | .deferred origin kind deadline => (origin, kind, deadline)

/-- Every deadline of the log is kept, and its admissions are paced. -/
structure Logged (s : PacingSystem) : Prop where
  kept : ∀ event ∈ s.log, Kept s.clock (s.deadline event.sets.1 event.sets.2.1) event.sets.2.2
  paced : Paced s.log

/-- The log grows by an admission that kept its distance. -/
theorem Paced.append {log : List PacingEvent} {event : PacingEvent} (h : Paced log)
    (hevent : ∀ admission, event = .admitted admission → PacedAfter log admission) :
    Paced (log ++ [event]) := by
  intro before admission later heq
  rcases List.eq_nil_or_concat later with rfl | ⟨init, last, rfl⟩
  · obtain ⟨rfl, hlast⟩ := List.append_inj' heq rfl
    exact hevent admission (List.singleton_inj.mp hlast)
  · rw [List.concat_eq_append, ← List.cons_append, ← List.append_assoc] at heq
    obtain ⟨hlog, _⟩ := List.append_inj' heq rfl
    exact h before admission init hlog

/-- Deferrals are not admissions. -/
theorem Paced.append_deferred {log events : List PacingEvent} (h : Paced log)
    (hevents : ∀ event ∈ events, ∀ admission, event ≠ .admitted admission) :
    Paced (log ++ events) := by
  induction events generalizing log with
  | nil => rwa [List.append_nil]
  | cons event events ih =>
    rw [← List.singleton_append, ← List.append_assoc]
    refine ih (h.append fun admission heq => ?_) fun e he => hevents e (List.mem_cons_of_mem _ he)
    exact absurd heq (hevents event List.mem_cons_self admission)

/-- The clock does not go back. -/
theorem pacingStep_clock (s : PacingSystem) (input : PacingInput) :
    s.clock ≤ (pacingStep s input).clock := by
  cases input with
  | register origin configuration reading =>
    show s.clock ≤ (if reading ≤ s.clock then
      (register origin configuration reading s).2 else s).clock
    have hstate : (originState origin reading s).2.clock = s.clock := by
      rcases originState_cases origin reading s with
        ⟨_, _, heq⟩ | ⟨t, _, rfl | rfl, heq | ⟨_, heq⟩⟩ <;> rw [heq] <;> rfl
    split
    · rcases register_cases origin configuration reading s with heq | ⟨id, next, _, _, heq⟩ <;>
        rw [heq] <;> exact le_of_eq hstate.symm
    · exact le_rfl
  | dropRegistration id =>
    show s.clock ≤ (dropRegistration id s).clock
    unfold dropRegistration
    split
    · exact le_rfl
    · split <;> exact le_rfl
  | acquire id waiter robots =>
    show s.clock ≤ (acquire id waiter robots s).2.clock
    unfold acquire
    split
    · exact le_rfl
    · split
      · exact le_rfl
      · split <;> exact le_rfl
  | attempt waiter permit =>
    show s.clock ≤ (attempt waiter permit s).clock
    rcases attempt_effect waiter permit s with heq |
      ⟨guarded, _, waiters, _, ⟨_, heq⟩ | ⟨_, permits, _, heq⟩⟩ <;> rw [heq] <;> exact le_rfl
  | dropWaiter waiter =>
    show s.clock ≤ (dropWaiter waiter s).clock
    unfold dropWaiter
    split <;> exact le_rfl
  | recordOutcome permit outcome reading =>
    show s.clock ≤ (if reading ≤ s.clock then recordOutcome permit outcome reading s else s).clock
    unfold recordOutcome
    split
    · split <;> exact le_rfl
    · exact le_rfl
  | dropPermit permit =>
    show s.clock ≤ (dropPermit permit s).clock
    unfold dropPermit
    split <;> exact le_rfl
  | tick duration => exact Nat.le_add_right _ _

/-- What an outcome is said to have recorded is recorded. -/
theorem recordedDeadlines_kept (clock : Instant) {origin : OriginKey} {maxInstant : Instant}
    {outcome : PacingOutcome} {pacing : OriginPacingState} {event : PacingEvent}
    (hevent : event ∈ recordedDeadlines origin maxInstant now outcome pacing) :
    (∀ admission, event ≠ .admitted admission) ∧ event.sets.1 = origin ∧
      Kept clock ((pacing.recordOutcome maxInstant outcome now).2.deadline event.sets.2.1)
        event.sets.2.2 := by
  cases outcome with
  | success => cases hevent
  | failed => cases hevent
  | rateLimited retryAfter =>
    unfold recordedDeadlines at hevent
    show _ ∧ _ ∧ Kept clock (((pacing.normalizeExpiredSafety now).recordRateLimit maxInstant now
      retryAfter).2.deadline event.sets.2.1) event.sets.2.2
    have hcount : (pacing.normalizeExpiredSafety now).consecutiveRateLimits =
        pacing.consecutiveRateLimits := rfl
    unfold recordRateLimit
    dsimp only at hevent ⊢
    rw [hcount]
    rcases hbackoff : checkedAdd maxInstant now
      (boundedBackoff (min (pacing.consecutiveRateLimits + 1) maxU8)) with _ | backoffUntil <;>
      rw [hbackoff] at hevent
    · cases hevent
    · dsimp only at hevent ⊢
      rcases hdelay : retryAfter.delay with _ | delay <;> rw [hdelay] at hevent
      · rw [List.mem_singleton.mp hevent]
        exact ⟨by simp, rfl, Or.inr ⟨_, rfl, le_later _ _⟩⟩
      · rw [Option.bind_some] at hevent
        dsimp only
        rcases hretry : checkedAdd maxInstant now delay with _ | retryAfterUntil <;>
          rw [hretry] at hevent
        · rw [List.mem_singleton.mp hevent]
          exact ⟨by simp, rfl, Or.inr ⟨_, rfl, le_later _ _⟩⟩
        · rcases List.mem_cons.mp hevent with rfl | hevent
          · exact ⟨by simp, rfl, Or.inr ⟨_, rfl, le_later _ _⟩⟩
          · rw [List.mem_singleton.mp hevent]
            exact ⟨by simp, rfl, Or.inr ⟨_, rfl, le_later _ _⟩⟩

/-- All permits of an origin are counted in its state. -/
theorem Shared.inFlight_le (h : Shared s) {origin : OriginKey} {id : StateId}
    (hstate : s.registry.stateOf origin = some id) : s.inFlight origin ≤ (s.heap id).inFlight := by
  refine le_trans ?_ (h.counted id)
  refine ((s.permits.keysNodup.of_map).filter _).length_le_of_subset fun p hp => ?_
  obtain ⟨hp, horigin⟩ := Table.mem_select.mp hp
  rw [decide_eq_true_eq] at horigin
  refine Table.mem_select.mpr ⟨hp, decide_eq_true ?_⟩
  have hheld := h.permitted p hp
  rw [horigin, hstate] at hheld
  exact (Option.some.inj hheld).symm

/-- An admission is paced. -/
theorem attempt_paced (h : Shared s) (hlogged : Logged s) (waiter : WaiterId) (permit : PermitId)
    {guarded : WaiterGuard} (hguarded : guarded ∈ s.waiters.rows)
    (permits : Table AdmissionPermit PermitId AdmissionPermit.id)
    (hacquired : ((s.heap guarded.state).attempt s.maxInstant s.clock
      guarded.effectiveDelay).1 = .ok .acquired)
    (hattempt : (attempt waiter permit s).registrations = s.registrations ∧
      (attempt waiter permit s).registry = s.registry ∧
      (attempt waiter permit s).permits = permits ∧
      (attempt waiter permit s).heap guarded.state = ((s.heap guarded.state).attempt s.maxInstant
        s.clock guarded.effectiveDelay).2) :
    PacedAfter s.log ⟨guarded.origin, s.clock, guarded.effectiveDelay,
      (permits.select fun p => p.origin = guarded.origin).length,
      s.concurrencies guarded.origin⟩ := by
  obtain ⟨r, hr, horigin, hheld⟩ := h.waiting guarded hguarded
  have hstate : s.registry.stateOf guarded.origin = some guarded.state := by
    rw [← horigin, ← hheld]
    exact (h.registered r (Table.mem_of_find? hr)).1
  obtain ⟨entry, hentry, hle⟩ := h.entry hguarded
  have hcount := attempt_inFlight hacquired hentry hle
  rcases attempt_cases (s.heap guarded.state) s.maxInstant s.clock guarded.effectiveDelay with
    ⟨hnot, _⟩ | ⟨c, hc, hroom, hlatest, _⟩
  · exact absurd hacquired hnot
  -- an admission finds no deadline in the future, so whatever the log has set has passed
  · have hpassed : ∀ event ∈ s.log, event.sets.1 = guarded.origin → event.sets.2.2 ≤ s.clock := by
      intro event hevent hsame
      have hkept := hlogged.kept event hevent
      rw [hsame, deadline_of_some hstate] at hkept
      exact passed_of_latest hkept hlatest
    refine ⟨fun concurrency hmem => ?_, fun previous hprevious hsame => ?_,
      fun kind deadline hdeferred => ?_⟩
    · -- the registrations of the origin are listed in its state
      obtain ⟨other, hother, rfl⟩ := List.mem_map.mp hmem
      obtain ⟨hother, hsame⟩ := Table.mem_select.mp hother
      rw [decide_eq_true_eq] at hsame
      obtain ⟨hheld', hlisted⟩ := h.registered other hother
      rw [hsame, hstate] at hheld'
      rw [← Option.some.inj hheld'] at hlisted
      have hcle := effectiveConcurrency_le hc hlisted
      have hcounted : (attempt waiter permit s).inFlight guarded.origin ≤
          ((attempt waiter permit s).heap guarded.state).inFlight :=
        (h.attempt waiter permit).inFlight_le (by rw [hattempt.2.1, hstate])
      unfold PacingSystem.inFlight at hcounted
      rw [hattempt.2.2.1, hattempt.2.2.2, hcount] at hcounted
      exact hcounted.trans (Nat.succ_le_of_lt (lt_of_lt_of_le hroom hcle))
    · exact hpassed _ hprevious hsame
    · exact hpassed _ hdeferred rfl

/-- The steps that observe nothing. -/
theorem Logged.unobserved (h : Logged s) (hshared : Shared s) {input : PacingInput}
    (hlog : (pacingStep s input).log = s.log) : Logged (pacingStep s input) := by
  refine ⟨fun event hevent => ?_, hlog ▸ h.paced⟩
  rw [hlog] at hevent
  exact (pacingStep_kept hshared input (h.kept event hevent)).at_later (pacingStep_clock s input)

/-- An attempt keeps the log faithful. -/
theorem Logged.attempt (h : Logged s) (hshared : Shared s) (waiter : WaiterId)
    (permit : PermitId) : Logged (pacingStep s (.attempt waiter permit)) := by
  rcases attempt_effect waiter permit s with heq |
    ⟨guarded, hguarded, waiters, _, ⟨_, heq⟩ | ⟨hacquired, permits, _, heq⟩⟩
  · exact h.unobserved hshared (by show (Pacing.attempt waiter permit s).log = _; rw [heq])
  · exact h.unobserved hshared (by show (Pacing.attempt waiter permit s).log = _; rw [heq]; rfl)
  · have hkept := fun event hevent => pacingStep_kept hshared (.attempt waiter permit)
      (h.kept event hevent)
    have hpaced := attempt_paced hshared h waiter permit hguarded permits hacquired
    show Logged (Pacing.attempt waiter permit s)
    have hkept : ∀ event ∈ s.log, Kept s.clock ((Pacing.attempt waiter permit s).deadline
      event.sets.1 event.sets.2.1) event.sets.2.2 := hkept
    rw [heq] at hkept hpaced ⊢
    have hpaced := hpaced ⟨rfl, rfl, rfl, Function.update_self _ _ _⟩
    refine ⟨fun event hevent => ?_, h.paced.append fun admission hadmission => ?_⟩
    · rcases List.mem_append.mp hevent with hevent | hevent
      · exact hkept event hevent
      · -- the next deadline of the state is the one of the admission
        rw [List.mem_singleton.mp hevent]
        obtain ⟨r, hr, horigin, hheld⟩ := hshared.waiting guarded hguarded
        have hstate := (hshared.registered r (Table.mem_of_find? hr)).1
        rw [horigin, hheld] at hstate
        show Kept s.clock (PacingSystem.deadline _ guarded.origin .nextRequest) _
        refine kept_of_some hstate ?_
        show Kept s.clock ((Function.update s.heap guarded.state _ guarded.state).deadline _) _
        rw [Function.update_self]
        rcases attempt_cases (s.heap guarded.state) s.maxInstant s.clock
          guarded.effectiveDelay with ⟨hnot, _⟩ | ⟨c, _, _, _, ⟨hnot, _⟩ | hadmitted⟩
        · exact absurd hacquired hnot
        · exact absurd hacquired hnot
        · rw [hadmitted]
          exact .of_mem rfl
    · cases hadmission
      exact hpaced

/-- An outcome that is recorded changes the state of its permit. -/
theorem recordOutcome_effect (permit : PermitId) (outcome : PacingOutcome) (now : Instant)
    (s : PacingSystem) : recordOutcome permit outcome now s = s ∨
    ∃ held ∈ s.permits.rows, ∃ permits, recordOutcome permit outcome now s =
      { s.onState held.state fun pacing => (pacing.recordOutcome s.maxInstant outcome now).2 with
        permits
        log := s.log ++
          recordedDeadlines held.origin s.maxInstant now outcome (s.heap held.state) } := by
  unfold recordOutcome
  split
  · exact Or.inl rfl
  · rename_i held hfind
    exact Or.inr ⟨held, Table.mem_of_find? (Option.filter_eq_some_iff.mp hfind).1, _, rfl⟩

/-- An outcome keeps the log faithful. -/
theorem Logged.recordOutcome (h : Logged s) (hshared : Shared s) (permit : PermitId)
    (outcome : PacingOutcome) {reading : Instant} (hreading : reading ≤ s.clock) :
    Logged (Pacing.recordOutcome permit outcome reading s) := by
  have hkept : ∀ event ∈ s.log, Kept s.clock ((Pacing.recordOutcome permit outcome reading s).deadline
      event.sets.1 event.sets.2.1) event.sets.2.2 := by
    intro event hevent
    have hstep := pacingStep_kept hshared (.recordOutcome permit outcome reading)
      (h.kept event hevent)
    have hstep : Kept s.clock ((if reading ≤ s.clock then
      Pacing.recordOutcome permit outcome reading s else s).deadline _ _) _ := hstep
    rwa [if_pos hreading] at hstep
  rcases recordOutcome_effect permit outcome reading s with heq | ⟨held, hheld, permits, heq⟩
  · rw [heq]
    exact h
  · rw [heq] at hkept ⊢
    refine ⟨fun event hevent => ?_, h.paced.append_deferred fun event hevent =>
      (recordedDeadlines_kept s.clock hevent).1⟩
    rcases List.mem_append.mp hevent with hevent | hevent
    · exact hkept event hevent
    · obtain ⟨_, horigin, hrecorded⟩ := recordedDeadlines_kept s.clock hevent
      rw [horigin]
      refine kept_of_some (hshared.permitted held hheld) ?_
      show Kept s.clock ((Function.update s.heap held.state _ held.state).deadline _) _
      rw [Function.update_self]
      exact hrecorded

/-! ## Runs -/

/-- A step keeps the log faithful. -/
theorem pacingStep_logged (s : PacingSystem) (input : PacingInput) (hshared : Shared s)
    (h : Logged s) : Logged (pacingStep s input) := by
  cases input with
  | attempt waiter permit => exact h.attempt hshared waiter permit
  | recordOutcome permit outcome reading =>
    show Logged (if reading ≤ s.clock then recordOutcome permit outcome reading s else s)
    split
    · rename_i hreading
      exact h.recordOutcome hshared permit outcome hreading
    · exact h
  -- only attempts and outcomes write to the log
  | register origin configuration reading =>
    refine h.unobserved hshared ?_
    show (if reading ≤ s.clock then (register origin configuration reading s).2 else s).log = _
    have hstate : (originState origin reading s).2.log = s.log := by
      rcases originState_cases origin reading s with
        ⟨_, _, heq⟩ | ⟨t, _, rfl | rfl, heq | ⟨_, heq⟩⟩ <;> rw [heq] <;> rfl
    split
    · rcases register_cases origin configuration reading s with heq | ⟨id, next, _, _, heq⟩ <;>
        rw [heq] <;> exact hstate
    · rfl
  | dropRegistration id =>
    refine h.unobserved hshared ?_
    show (dropRegistration id s).log = s.log
    unfold dropRegistration
    split
    · rfl
    · split <;> rfl
  | acquire id waiter robots =>
    refine h.unobserved hshared ?_
    show (acquire id waiter robots s).2.log = s.log
    unfold acquire
    split
    · rfl
    · split
      · rfl
      · split <;> rfl
  | dropWaiter waiter =>
    refine h.unobserved hshared ?_
    show (dropWaiter waiter s).log = s.log
    unfold dropWaiter
    split <;> rfl
  | dropPermit permit =>
    refine h.unobserved hshared ?_
    show (dropPermit permit s).log = s.log
    unfold dropPermit
    split <;> rfl
  | tick duration => exact h.unobserved hshared rfl

theorem Logged.initial (capacity : ℕ) (maxInstant : Instant) :
    Logged (.initial capacity maxInstant) := by
  refine ⟨fun event hevent => ?_, fun before admission later heq => ?_⟩
  · cases hevent
  · exact absurd heq.symm (by simp [PacingSystem.initial])

/-- The log of a run is faithful. -/
theorem after_logged (capacity : ℕ) (maxInstant : Instant) (inputs : List PacingInput) :
    Logged (after pacingStep (.initial capacity maxInstant) inputs) :=
  (after_invariant (I := fun s => Shared s ∧ Logged s)
    (fun s input hs => ⟨pacingStep_shared s input hs.1, pacingStep_logged s input hs.1 hs.2⟩)
    ⟨.initial capacity maxInstant, .initial capacity maxInstant⟩ inputs).2

/-- Every admission is paced, and a deadline that an origin once had is later pending
or replaced by one that is not earlier, unless it has passed. -/
theorem admissions_paced (capacity : ℕ) (maxInstant : Instant) (earlier later : List PacingInput) :
    Paced (after pacingStep (.initial capacity maxInstant) (earlier ++ later)).log ∧
    ∀ origin kind, ∀ deadline ∈
        (after pacingStep (.initial capacity maxInstant) earlier).deadline origin kind,
      Kept (after pacingStep (.initial capacity maxInstant) (earlier ++ later)).clock
        ((after pacingStep (.initial capacity maxInstant) (earlier ++ later)).deadline origin kind)
        deadline := by
  refine ⟨(after_logged capacity maxInstant (earlier ++ later)).paced,
    fun origin kind deadline hdeadline => ?_⟩
  rw [after_append]
  have hboth := after_invariant (I := fun s => Shared s ∧
      Kept s.clock (s.deadline origin kind) deadline)
    (fun s input hs => ⟨pacingStep_shared s input hs.1,
      (pacingStep_kept hs.1 input hs.2).at_later (pacingStep_clock s input)⟩)
    ⟨after_shared capacity maxInstant earlier, .of_mem hdeadline⟩ later
  exact hboth.2

end Erabi.Pacing
