/-
# Nobody waits in vain

The threads take only so many turns on their own, and when none is left to take every
caller has been answered and every permit is back.
-/
import Erabi.Transition.Progress
import Erabi.Worker.Serial

namespace Erabi.Worker

variable {δ ρ : Type} {s s' : WorkerState δ ρ} {c : ℕ}

/-! ## Turns lower a weight -/

/-- How many turns a caller may still take. -/
def CallerPhase.weight : CallerPhase δ ρ → ℕ
  | .acquiring _ => 11
  | .permitted _ => 10
  | .observing => 4
  | .failing _ jobs => 1 + jobs.length
  | .awaiting => 1
  | .returned _ | .dropped => 0

/-- How many turns the worker may still take. -/
def WorkerPhase.weight : WorkerPhase δ ρ → ℕ
  | .opening => 5
  | .opened => 4
  | .announcing => 3
  | .looping | .waiting true => 2
  | .waiting false => 1
  | .executing _ => 7
  | .responding .. => 6
  | .releasing _ => 5
  | .panicking _ => 3
  | .failing current jobs => 1 + current.toList.length + jobs.length
  | .exited _ | .aborted => 0

namespace WorkerState

/-- The turns that are left at most, if nothing happens from outside. -/
def weight (s : WorkerState δ ρ) : ℕ :=
  (s.callers.map fun caller => caller.phase.weight).sum + s.worker.weight +
    6 * s.queue.length + (s.closers.map List.length).sum

/-- The weight when a caller moves. -/
theorem weight_move {p q : CallerPhase δ ρ} (h : s.phase c = some p) :
    (s.move c q).weight + p.weight = s.weight + q.weight := by
  obtain ⟨caller, hcaller, rfl⟩ := phase_eq_some.mp h
  have hsum := sum_map_modify hcaller (fun caller => { caller with phase := q })
    fun caller => caller.phase.weight
  unfold weight move
  dsimp only at hsum ⊢
  omega

/-- The weight when the worker proceeds. -/
theorem weight_proceed {p : WorkerPhase δ ρ} :
    (s.proceed p).weight + s.worker.weight = s.weight + p.weight := by
  unfold weight proceed
  dsimp only
  omega

@[simp] theorem weight_respond {job : JobEnvelope δ ρ} {answer : Answer ρ} :
    (s.respond job answer).weight = s.weight := by
  have hsum : ((s.respond job answer).callers.map fun caller => caller.phase.weight).sum =
      (s.callers.map fun caller => caller.phase.weight).sum := sum_map_respond _ fun _ _ => rfl
  unfold weight
  rw [hsum]
  rfl

@[simp] theorem weight_fail {job : JobEnvelope δ ρ} : (s.fail job).weight = s.weight := by
  rw [fail, weight_respond]
  rfl

/-- A notification adds one turn at most. -/
theorem weight_notified (p : WorkerPhase δ ρ) : p.notified.weight ≤ p.weight + 1 := by
  cases p with
  | waiting notified => cases notified <;> simp [WorkerPhase.notified, WorkerPhase.weight]
  | _ => exact Nat.le_succ _

/-- Ending the lifecycle takes the queue's turns away. -/
theorem weight_terminalizeLocked :
    s.terminalizeLocked.weight + 6 * s.queue.length ≤ s.weight + 1 := by
  have hnotified := weight_notified s.worker
  unfold weight terminalizeLocked notify proceed
  dsimp only
  simp only [List.length_nil]
  omega

/-- An admission takes weight. -/
theorem weight_admit {operation : Operation δ ρ} (h : s.phase c = some (.permitted operation)) :
    (s.enqueue c operation).weight < s.weight := by
  let pushed : WorkerState δ ρ :=
    { s with
      queue := s.queue ++ [.new c operation]
      history := s.history ++ [(c, operation)] }
  have hphase : pushed.phase c = some (.permitted operation) := h
  have hmove := weight_move (q := .awaiting) hphase
  have hpushed : pushed.weight = s.weight + 6 := by
    unfold weight
    simp only [pushed, List.length_append, List.length_singleton]
    omega
  have hproceed := weight_proceed (s := pushed.move c .awaiting) (p := s.worker.notified)
  have hworker : (pushed.move c .awaiting).worker = s.worker := rfl
  have hnotified := weight_notified s.worker
  have hadmit : (s.enqueue c operation).weight =
      ((pushed.move c .awaiting).proceed s.worker.notified).weight := rfl
  rw [hworker] at hproceed
  simp only [CallerPhase.weight] at hmove
  omega

/-- Work takes weight. -/
theorem weight_work {t : WorkerState δ ρ} (hcallers : t.callers = s.callers)
    (hclosers : t.closers = s.closers)
    (hlt : t.worker.weight + 6 * t.queue.length < s.worker.weight + 6 * s.queue.length) :
    t.weight < s.weight := by
  unfold weight
  rw [hcallers, hclosers]
  omega

/-- The weight of a worker that looks at the queue. -/
theorem weight_looks {p : WorkerPhase δ ρ} (h : p.Looks) : p.weight = 2 := by
  rcases h with rfl | rfl <;> rfl

/-- Every turn lowers the weight. -/
theorem weight_moves {t : Turn} (h : Moves s t s') : s'.weight < s.weight := by
  cases h with
  | @acquires c operation hphase =>
    have hmove := weight_move (s := { s with available := s.available - 1 })
      (q := .permitted operation) hphase
    have hsame : weight { s with available := s.available - 1 } = s.weight := rfl
    simp only [CallerPhase.weight] at hmove
    omega
  | @barred c operation hphase =>
    have hmove := weight_move (q := .observing) hphase
    simp only [CallerPhase.weight] at hmove
    omega
  | admits hphase => exact weight_admit hphase
  | @refused c operation hphase =>
    have hmove := weight_move (q := .returned (.error (failureFor s.lifecycle))) hphase
    simp only [CallerPhase.weight] at hmove
    change (s.move c _).weight < _
    omega
  | @poisonedAdmission c operation hphase =>
    have hmove := weight_move (s := s.terminalizeLocked) (q := .failing true s.queue) hphase
    have hterminal := weight_terminalizeLocked (s := s)
    simp only [CallerPhase.weight] at hmove
    omega
  | @observes c hphase =>
    have hmove := weight_move (q := .returned (.error (failureFor s.lifecycle))) hphase
    simp only [CallerPhase.weight] at hmove
    omega
  | @poisonedObservation c hphase =>
    have hmove := weight_move (s := s.terminalizeLocked) (q := .failing false s.queue) hphase
    have hterminal := weight_terminalizeLocked (s := s)
    simp only [CallerPhase.weight] at hmove
    omega
  | @callerFails c permit job jobs hphase =>
    have hmove := weight_move (q := .failing permit jobs) hphase
    simp only [CallerPhase.weight, List.length_cons] at hmove
    rw [weight_fail]
    omega
  | @callerPanics c permit hphase =>
    have hmove := weight_move (q := .returned (.error .panicked)) hphase
    simp only [CallerPhase.weight, List.length_nil] at hmove
    change (s.move c _).weight < _
    omega
  | @receives c answer hphase =>
    have hmove := weight_move (q := .returned answer) hphase
    simp only [CallerPhase.weight] at hmove
    omega
  | @loses c hphase =>
    have hmove := weight_move (q := .returned (.error .panicked)) hphase
    simp only [CallerPhase.weight] at hmove
    omega
  | opens hworker | aborts hworker | runs hworker | announces hworker | exits hworker
  | panics hworker | executes hworker =>
    refine weight_work rfl rfl ?_
    rw [hworker]
    exact Nat.add_lt_add_right (by simp [proceed, WorkerPhase.weight]) _
  | findsPoisoned hworker =>
    refine weight_work rfl rfl ?_
    rw [weight_looks hworker]
    change 1 + 0 + s.queue.length + 6 * 0 < _
    omega
  | finds hworker hqueue =>
    refine weight_work rfl rfl ?_
    rw [weight_looks hworker, hqueue]
    simp only [WorkerPhase.weight, List.length_cons]
    omega
  | sleeps hworker | closes hworker | findsClosed hworker | findsPanicked hworker =>
    refine weight_work rfl rfl ?_
    rw [weight_looks hworker]
    exact Nat.add_lt_add_right (by simp [proceed, WorkerPhase.weight]) _
  | @responds job result hworker =>
    have hproceed := weight_proceed (s := s.respond job (.ok result))
      (p := .releasing { job with responder := false })
    have hsame : (s.respond job (.ok result)).worker = .responding job result := hworker
    rw [hsame, weight_respond] at hproceed
    simp only [WorkerPhase.weight] at hproceed
    omega
  | releases hworker =>
    refine weight_work rfl rfl ?_
    rw [hworker]
    exact Nat.add_lt_add_right (by simp [proceed, release, WorkerPhase.weight]) _
  | transitions hworker =>
    refine weight_work rfl rfl ?_
    rw [hworker]
    change 1 + 1 + s.queue.length + 6 * 0 < 3 + _
    omega
  | @failsCurrent job jobs hworker | @workerFails job jobs hworker =>
    rw [weight_fail]
    refine weight_work rfl rfl ?_
    rw [hworker]
    simp only [proceed, WorkerPhase.weight, Option.toList_some, Option.toList_none,
      List.length_cons, List.length_nil]
    omega
  | @closerFails k job jobs hcloser =>
    have hsum := sum_map_set hcloser jobs List.length
    rw [weight_fail]
    unfold weight
    simp only [List.length_cons] at hsum ⊢
    omega

/-! ## When no turn is left -/

/-- No thread can go on by itself. -/
def Quiet (s : WorkerState δ ρ) : Prop := ∀ t, s.turn t = none

/-- A worker without a turn sleeps or has ended. -/
theorem worker_of_quiet (h : s.Quiet) :
    s.worker = .waiting false ∨ (∃ end_, s.worker = .exited end_) ∨ s.worker = .aborted := by
  have hworker : s.workerTurn = none := h .worker
  unfold workerTurn at hworker
  split at hworker
  case h_2 => split_ifs at hworker
  case h_6 hphase => exact Or.inl hphase
  case h_14 end_ hphase => exact Or.inr (Or.inl ⟨end_, hphase⟩)
  case h_15 hphase => exact Or.inr (Or.inr hphase)
  all_goals cases hworker

/-- Closers without a turn hold nothing. -/
theorem closers_of_quiet (h : s.Quiet) : ∀ jobs ∈ s.closers, jobs = [] := by
  intro jobs hjobs
  obtain ⟨k, hk⟩ := List.mem_iff_getElem?.mp hjobs
  have hcloser : s.closerTurn k = none := h (.closer k)
  unfold closerTurn at hcloser
  rw [hk] at hcloser
  cases jobs with
  | nil => rfl
  | cons job jobs => cases hcloser

/-- A quiet caller waits for a permit or for its answer, or it is done. -/
theorem phase_of_quiet (h : s.Quiet) {p : CallerPhase δ ρ} (hphase : s.phase c = some p) :
    (∃ operation, p = .acquiring operation ∧ s.available = 0) ∨
      p = .awaiting ∧ (∃ job ∈ s.envelopes, job.responder = true ∧ job.caller = c) ∨
        (∃ answer, p = .returned answer) ∨ p = .dropped := by
  have hcaller : s.callerTurn c = none := h (.caller c)
  unfold callerTurn at hcaller
  rw [hphase] at hcaller
  cases p with
  | acquiring operation =>
    dsimp only at hcaller
    split_ifs at hcaller with hclosed havailable
    exact Or.inl ⟨operation, rfl, havailable⟩
  | permitted operation =>
    dsimp only at hcaller
    split_ifs at hcaller
  | observing =>
    dsimp only at hcaller
    split_ifs at hcaller
  | failing permit jobs => cases jobs <;> cases hcaller
  | awaiting =>
    dsimp only at hcaller
    split at hcaller
    · cases hcaller
    · split_ifs at hcaller with hany
      obtain ⟨job, hjob, hanswers⟩ := List.any_eq_true.mp hany
      rw [Bool.and_eq_true, decide_eq_true_eq] at hanswers
      exact Or.inr (Or.inl ⟨rfl, job, hjob, hanswers⟩)
  | returned answer => exact Or.inr (Or.inr (Or.inl ⟨answer, rfl⟩))
  | dropped => exact Or.inr (Or.inr (Or.inr rfl))

/-- No envelope is left in a quiet state. -/
theorem envelopes_of_quiet (hcoherent : Coherent s) (h : s.Quiet) : s.envelopes = [] := by
  have hqueue : s.queue = [] := by
    by_contra hne
    obtain ⟨hlifecycle, hawake⟩ := hcoherent.queued hne
    have hfits := hcoherent.fits
    rcases worker_of_quiet h with hw | ⟨end_, hw⟩ | hw
    · exact hawake hw
    · rw [hw] at hfits
      rcases hlifecycle with hl | hl <;> rw [hl] at hfits <;>
        rcases hfits with ⟨-, h | h⟩ | ⟨-, h⟩ <;> cases h
    · rw [hw] at hfits
      rcases hlifecycle with hl | hl <;> rw [hl] at hfits <;> cases hfits
  have hworker : s.worker.jobs = [] := by
    rcases worker_of_quiet h with hw | ⟨end_, hw⟩ | hw <;> rw [hw] <;> rfl
  have hcallers : (s.callers.flatMap fun caller => caller.phase.jobs) = [] := by
    refine List.flatMap_eq_nil_iff.mpr fun caller hcaller => ?_
    obtain ⟨c, hc⟩ := List.mem_iff_getElem?.mp hcaller
    rcases phase_of_quiet h (phase_eq_some.mpr ⟨caller, hc, rfl⟩) with
      ⟨operation, hp, -⟩ | ⟨hp, -⟩ | ⟨answer, hp⟩ | hp <;> rw [hp] <;> rfl
  rw [envelopes, hworker, hqueue, hcallers, List.flatten_eq_nil_iff.mpr (closers_of_quiet h)]
  rfl

/-- Callers without a turn hold no permit. -/
theorem held_of_quiet (h : s.Quiet) : s.held = 0 := by
  refine List.sum_eq_zero fun n hn => ?_
  obtain ⟨caller, hcaller, rfl⟩ := List.mem_map.mp hn
  obtain ⟨c, hc⟩ := List.mem_iff_getElem?.mp hcaller
  rcases phase_of_quiet h (phase_eq_some.mpr ⟨caller, hc, rfl⟩) with
    ⟨operation, hp, -⟩ | ⟨hp, -⟩ | ⟨answer, hp⟩ | hp <;> rw [hp] <;> rfl

/-- Everybody has been answered, and every permit is back. -/
structure Settles (capacity : ℕ) (s : WorkerState δ ρ) : Prop where
  returned : ∀ c p, s.phase c = some p → (∃ answer, p = .returned answer) ∨ p = .dropped
  answered : ∀ c ∈ s.admitted, (s.response c).isSome = true
  available : s.available = capacity

/-- A reachable state without a turn is settled. -/
theorem settles_of_quiet {capacity : ℕ} {connection : δ} (hcapacity : 0 < capacity)
    (h : s.Reachable capacity connection) (hquiet : s.Quiet) : s.Settles capacity := by
  have henvelopes := envelopes_of_quiet (Coherent.reachable h) hquiet
  have havailable : s.available = capacity := by
    have hpermits := permits_reachable h
    have htotal : s.total JobEnvelope.permits = 0 := by
      unfold total
      rw [henvelopes]
      rfl
    have hheld := held_of_quiet hquiet
    unfold permits at hpermits
    omega
  refine ⟨fun c p hphase => ?_, fun c hc => ?_, havailable⟩
  · rcases phase_of_quiet hquiet hphase with ⟨operation, -, hnone⟩ | ⟨-, job, hjob, -⟩ | hp
    · omega
    · rw [henvelopes] at hjob
      cases hjob
    · exact hp
  · have hpending := (Delivers.reachable h).pending c
    have hzero : s.pending c = 0 := by
      unfold pending total
      rw [henvelopes]
      rfl
    rw [hzero] at hpending
    by_contra hnone
    rw [if_pos ⟨hc, by simpa using hnone⟩] at hpending
    cases hpending

/-- Left to themselves the threads take at most as many turns as the weight says, in
whatever order they take them, and when none is left everybody has been answered and every
permit is back. -/
theorem settles_of_turns {capacity : ℕ} {connection : δ} (hcapacity : 0 < capacity)
    (h : s.Reachable capacity connection) {n : ℕ} {t : WorkerState δ ρ}
    (hturns : Transition.Steps (fun a b => ∃ turn, a.turn turn = some b) n s t) :
    n + t.weight ≤ s.weight ∧ (t.Quiet → t.Settles capacity) := by
  obtain ⟨hreachable, hle⟩ := hturns.length_le
    (I := fun a => a.Reachable capacity connection)
    (fun a b ha ⟨turn, hturn⟩ => ha.tail (.turn turn hturn))
    (fun a b _ ⟨turn, hturn⟩ => weight_moves (turn_moves hturn)) h
  exact ⟨hle, settles_of_quiet hcapacity hreachable⟩

/-- The drained worker is settled. -/
theorem settles_drained : drained.Settles 1 := by
  refine (settles_of_turns (by decide) drained_reachable (.refl drained)).2 fun t => ?_
  rcases t with (_ | c) | _ | k <;> rfl

end WorkerState

end Erabi.Worker
