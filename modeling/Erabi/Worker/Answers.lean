/-
# Permits and answers

Every permit is available, with a caller or in an envelope, and every admitted caller who
has no answer yet has exactly one envelope that can answer.
-/
import Erabi.Worker.Lifecycle

namespace Erabi.Worker

variable {δ ρ : Type} {s s' : WorkerState δ ρ} {c : ℕ}

/-! ## Permits -/

/-- The permits that a job holds. -/
def JobEnvelope.permits (job : JobEnvelope δ ρ) : ℕ := job.permit.toNat

/-- The permits that a caller holds. -/
def CallerPhase.permits : CallerPhase δ ρ → ℕ
  | .permitted _ => 1
  | .failing permit _ => permit.toNat
  | .acquiring _ | .observing | .awaiting | .returned _ | .dropped => 0

namespace WorkerState

/-- The permits that callers hold themselves. -/
def held (s : WorkerState δ ρ) : ℕ := (s.callers.map fun caller => caller.phase.permits).sum

/-- All permits there are. -/
def permits (s : WorkerState δ ρ) : ℕ :=
  s.available + s.total JobEnvelope.permits + s.held

/-- The permits held when a caller moves. -/
theorem held_move {p q : CallerPhase δ ρ} (h : s.phase c = some p) :
    (s.move c q).held + p.permits = s.held + q.permits := by
  obtain ⟨caller, hcaller, rfl⟩ := phase_eq_some.mp h
  exact sum_map_modify hcaller (fun caller => { caller with phase := q })
    fun caller => caller.phase.permits

@[simp] theorem held_respond {job : JobEnvelope δ ρ} {answer : Answer ρ} :
    (s.respond job answer).held = s.held :=
  sum_map_respond (fun caller => caller.phase.permits) fun _ _ => rfl

/-- All permits when a caller moves. -/
theorem permits_move {p q : CallerPhase δ ρ} (h : s.phase c = some p) :
    (s.move c q).permits + p.permits + (p.jobs.map JobEnvelope.permits).sum =
      s.permits + q.permits + (q.jobs.map JobEnvelope.permits).sum := by
  have htotal := total_move (q := q) (f := JobEnvelope.permits) h
  have hheld := held_move (q := q) h
  have havailable : (s.move c q).available = s.available := rfl
  unfold permits
  omega

/-- A failed job gives its permit back. -/
theorem permits_fail {job : JobEnvelope δ ρ} : (s.fail job).permits = s.permits + job.permits := by
  have hheld : (s.fail job).held = s.held := held_respond
  have havailable : (s.fail job).available = s.available + job.permit.toNat := rfl
  unfold permits
  rw [total_fail, hheld, havailable, JobEnvelope.permits]
  omega

/-- A release gives a permit back. -/
@[simp] theorem permits_release {permit : Bool} :
    (s.release permit).permits = s.permits + permit.toNat := by
  have hheld : (s.release permit).held = s.held := rfl
  have havailable : (s.release permit).available = s.available + permit.toNat := rfl
  unfold permits
  rw [total_release, hheld, havailable]
  omega

@[simp] theorem permits_notify : s.notify.permits = s.permits := by
  unfold permits
  rw [total_notify]
  rfl

/-- The beginning of a shutdown moves no permit. -/
theorem permits_beginShutdown : s.beginShutdown.permits = s.permits := by
  have hheld : s.beginShutdown.held = s.held := by
    unfold beginShutdown
    split <;> rfl
  have havailable : s.beginShutdown.available = s.available := by
    unfold beginShutdown
    split <;> rfl
  unfold permits
  rw [total_beginShutdown, hheld, havailable]

/-- The end of the lifecycle moves the queue's permits. -/
theorem permits_terminalizeLocked :
    s.terminalizeLocked.permits + (s.queue.map JobEnvelope.permits).sum = s.permits := by
  have htotal := total_terminalizeLocked (s := s) (f := JobEnvelope.permits)
  have hheld : s.terminalizeLocked.held = s.held := rfl
  have havailable : s.terminalizeLocked.available = s.available := rfl
  unfold permits
  omega

/-- Work that is exchanged between the worker and the queue takes its permits along. -/
theorem permits_work {t : WorkerState δ ρ} (hcallers : t.callers = s.callers)
    (hclosers : t.closers = s.closers) (havailable : t.available = s.available)
    (hjobs : ((t.worker.jobs ++ t.queue).map JobEnvelope.permits).sum =
      ((s.worker.jobs ++ s.queue).map JobEnvelope.permits).sum) : t.permits = s.permits := by
  have htotal := total_work (f := JobEnvelope.permits) hcallers hclosers
  unfold permits held
  rw [hcallers, havailable]
  omega

/-- Permits come and go with the envelopes of the worker. -/
theorem permits_proceed {p : WorkerPhase δ ρ} :
    (s.proceed p).permits + (s.worker.jobs.map JobEnvelope.permits).sum =
      s.permits + (p.jobs.map JobEnvelope.permits).sum := by
  have htotal := total_work (f := JobEnvelope.permits) (s := s) (t := s.proceed p) rfl rfl
  have hheld : (s.proceed p).held = s.held := rfl
  have havailable : (s.proceed p).available = s.available := rfl
  have hworker : (s.proceed p).worker = p := rfl
  have hqueue : (s.proceed p).queue = s.queue := rfl
  rw [hworker, hqueue, List.map_append, List.map_append, List.sum_append, List.sum_append]
    at htotal
  unfold permits
  omega

/-- The worker proceeds with the same permits. -/
theorem permits_proceed_of_jobs {p : WorkerPhase δ ρ} (hjobs : p.jobs = s.worker.jobs) :
    (s.proceed p).permits = s.permits := by
  have hproceed := permits_proceed (s := s) (p := p)
  rw [hjobs] at hproceed
  exact Nat.add_right_cancel hproceed

/-- An admission passes a permit on. -/
theorem permits_admit {operation : Operation δ ρ} (h : s.phase c = some (.permitted operation)) :
    (s.enqueue c operation).permits = s.permits := by
  have htotal := total_admit (f := JobEnvelope.permits) h
  have hheld := held_move (q := .awaiting) h
  have hadmit : (s.enqueue c operation).held = (s.move c .awaiting).held := rfl
  have havailable : (s.enqueue c operation).available = s.available := rfl
  have hnew : (JobEnvelope.new c operation).permits = 1 := rfl
  simp only [CallerPhase.permits] at hheld
  unfold permits
  omega

/-- The worker leaves with the queue and what it had. -/
theorem permits_leave {current : Option (JobEnvelope δ ρ)}
    (hcurrent : current.toList = s.worker.jobs) :
    (s.terminalizeLocked.proceed (.failing current s.queue)).permits = s.permits := by
  refine permits_work rfl rfl rfl ?_
  change ((current.toList ++ s.queue ++ []).map _).sum = _
  rw [hcurrent, List.append_nil]

/-- No turn creates or loses a permit. -/
theorem permits_moves {t : Turn} (h : Moves s t s') : s'.permits = s.permits := by
  cases h with
  -- the permit leaves the pool and is held by the caller
  | @acquires c operation hphase hopen havailable =>
    let taken : WorkerState δ ρ := { s with available := s.available - 1 }
    have hmove := permits_move (s := taken) (q := .permitted operation) hphase
    have htaken : taken.permits + 1 = s.permits := by
      have htotal : taken.total JobEnvelope.permits = s.total JobEnvelope.permits := rfl
      have hheld : taken.held = s.held := rfl
      have havailable' : taken.available = s.available - 1 := rfl
      unfold permits
      omega
    simp only [CallerPhase.permits, CallerPhase.jobs, List.map_nil, List.sum_nil] at hmove
    exact hmove.trans htaken
  | @barred c operation hphase => exact permits_move (q := .observing) hphase
  | @observes c hphase => exact permits_move (q := .returned _) hphase
  | @receives c answer hphase => exact permits_move (q := .returned answer) hphase
  | @loses c hphase => exact permits_move (q := .returned _) hphase
  | @admits c operation hphase hrunning => exact permits_admit hphase
  -- whoever leaves without admission gives the permit back
  | @refused c operation hphase =>
    rw [permits_release]
    exact permits_move (q := .returned _) hphase
  -- the queue changes hands; the permits in it are still the jobs'
  | @poisonedAdmission c operation hphase =>
    have hmove := permits_move (s := s.terminalizeLocked) (q := .failing true s.queue) hphase
    have hterminal := permits_terminalizeLocked (s := s)
    simp only [CallerPhase.permits, CallerPhase.jobs, List.map_nil, List.sum_nil,
      Bool.toNat_true] at hmove
    omega
  | @poisonedObservation c hphase =>
    have hmove := permits_move (s := s.terminalizeLocked) (q := .failing false s.queue) hphase
    have hterminal := permits_terminalizeLocked (s := s)
    simp only [CallerPhase.permits, CallerPhase.jobs, List.map_nil, List.sum_nil,
      Bool.toNat_false] at hmove
    omega
  | @callerFails c permit job jobs hphase =>
    have hmove := permits_move (q := .failing permit jobs) hphase
    simp only [CallerPhase.permits, CallerPhase.jobs, List.map_cons, List.sum_cons] at hmove
    rw [permits_fail]
    omega
  | @callerPanics c permit hphase =>
    rw [permits_release]
    exact permits_move (q := .returned _) hphase
  | opens hworker | aborts hworker | exits hworker =>
    exact permits_proceed_of_jobs (by rw [hworker]; rfl)
  | runs hworker | announces hworker =>
    exact permits_work rfl rfl rfl (by rw [hworker]; rfl)
  | findsPoisoned hworker => exact permits_leave (by rcases hworker with hw | hw <;> rw [hw] <;> rfl)
  | finds hworker hqueue =>
    exact permits_work rfl rfl rfl (by rcases hworker with hw | hw <;> rw [hw, hqueue] <;> rfl)
  | sleeps hworker | findsClosed hworker | findsPanicked hworker =>
    exact permits_proceed_of_jobs (by rcases hworker with hw | hw <;> rw [hw] <;> rfl)
  | closes hworker =>
    exact permits_work rfl rfl rfl (by rcases hworker with hw | hw <;> rw [hw] <;> rfl)
  | executes hworker | panics hworker =>
    exact permits_work rfl rfl rfl (by rw [hworker]; rfl)
  | @responds job result hworker =>
    have hproceed := permits_proceed (s := s.respond job (.ok result))
      (p := .releasing { job with responder := false })
    have hrespond : (s.respond job (.ok result)).permits = s.permits := by
      unfold permits
      rw [total_respond, held_respond]
      rfl
    have hjobs : (s.respond job (.ok result)).worker.jobs = [job] := by
      change s.worker.jobs = [job]
      rw [hworker]
      rfl
    rw [hjobs, hrespond] at hproceed
    exact Nat.add_right_cancel hproceed
  | @releases job hworker =>
    have hproceed := permits_proceed (s := s) (p := .looping)
    rw [hworker] at hproceed
    rw [permits_release]
    exact hproceed
  | transitions hworker => exact permits_leave (by rw [hworker]; rfl)
  -- failing a job gives its permit back
  | @failsCurrent job jobs hworker | @workerFails job jobs hworker =>
    have hproceed := permits_proceed (s := s) (p := .failing none jobs)
    rw [hworker] at hproceed
    simp only [WorkerPhase.jobs, Option.toList_some, Option.toList_none, List.cons_append,
      List.nil_append, List.map_cons, List.sum_cons] at hproceed
    rw [permits_fail]
    omega
  | @closerFails k job jobs hcloser =>
    let popped : WorkerState δ ρ := { s with closers := s.closers.set k jobs }
    have htotal : popped.total JobEnvelope.permits +
        ((job :: jobs).map JobEnvelope.permits).sum =
          s.total JobEnvelope.permits + (jobs.map JobEnvelope.permits).sum :=
      total_closer hcloser jobs
    have hheld : popped.held = s.held := rfl
    have havailable : popped.available = s.available := rfl
    simp only [List.map_cons, List.sum_cons] at htotal
    rw [permits_fail]
    change popped.permits + job.permits = s.permits
    unfold permits
    omega

/-- An event moves no permit. -/
theorem permits_happens (h : Happens s s') : s'.permits = s.permits := by
  cases h with
  | call operation hstarted =>
    have htotal : total JobEnvelope.permits
        { s with callers := s.callers ++ [⟨.acquiring operation, none⟩] } =
          s.total JobEnvelope.permits := by
      rw [total_eq, total_eq, List.map_append, List.sum_append]
      rfl
    have hheld : held { s with callers := s.callers ++ [⟨.acquiring operation, none⟩] } =
        s.held := by
      unfold held
      rw [List.map_append, List.sum_append]
      rfl
    unfold permits
    rw [htotal, hheld]
  | drop hphase hp =>
    have hmove := permits_move (q := .dropped) hphase
    rcases hp with ⟨operation, rfl⟩ | rfl <;> exact hmove
  | shutdown => exact permits_beginShutdown
  | poison => rfl
  | wake => exact permits_notify
  | openFails hworker => exact permits_proceed_of_jobs (by rw [hworker]; rfl)
  | announceFails hworker =>
    rw [permits_beginShutdown]
    exact permits_proceed_of_jobs (by rw [hworker]; rfl)
  | unwind hworker =>
    refine permits_proceed_of_jobs ?_
    rcases hworker with hw | ⟨result, hw⟩ | hw <;> rw [hw] <;> rfl

/-- The permits of a reachable state are those the worker was started with. -/
theorem permits_reachable {capacity : ℕ} {connection : δ} (h : s.Reachable capacity connection) :
    s.permits = capacity :=
  h.induction (I := fun s => s.permits = capacity) rfl
    (fun _ _ _ hs hmoves => (permits_moves hmoves).trans hs)
    fun _ _ hs hhappens => (permits_happens hhappens).trans hs

end WorkerState

end Erabi.Worker
