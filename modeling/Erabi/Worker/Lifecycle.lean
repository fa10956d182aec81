/-
# The lifecycle of the worker

Where the worker thread can stand in each lifecycle.  The invariant says in particular
that a worker which sleeps without a notification has nothing to do, and that nothing is
queued once the lifecycle has ended.
-/
import Erabi.Worker.Steps

namespace Erabi.Worker

variable {δ ρ : Type} {s s' : WorkerState δ ρ}

/-- The worker has run the startup. -/
def WorkerPhase.Booted : WorkerPhase δ ρ → Prop
  | .opening | .opened | .announcing | .aborted => False
  | .looping | .waiting _ | .executing _ | .responding .. | .releasing _ | .panicking _
  | .failing .. | .exited _ => True

/-- The worker serves jobs, or drains them. -/
def Lifecycle.Serves (l : Lifecycle) : Prop := l = .running ∨ l = .closing ∨ l = .panicked

/-- Where the worker can stand in a lifecycle.  A job is released after its response. -/
def WorkerPhase.Fits (l : Lifecycle) : WorkerPhase δ ρ → Prop
  | .opening | .opened | .aborted => l = .starting
  | .announcing | .waiting false => l = .running
  | .looping | .waiting true | .executing _ | .responding .. | .panicking _ => l.Serves
  | .releasing job => l.Serves ∧ job.responder = false
  | .failing .. => l = .panicked
  | .exited end_ => end_ = .closed ∧ (l = .closed ∨ l = .panicked) ∨
      end_ = .panicked ∧ l = .panicked

namespace WorkerPhase

/-- A notification does not matter to booting. -/
theorem booted_notified {p : WorkerPhase δ ρ} (h : p.Booted) : p.notified.Booted := by
  cases p <;> exact h

theorem Fits.notified {p : WorkerPhase δ ρ} {l : Lifecycle} (h : p.Fits l) :
    p.notified.Fits l := by
  cases p with
  | waiting notified =>
    cases notified with
    | true => exact h
    | false => exact Or.inl h
  | _ => exact h

/-- A panic can come upon a worker wherever it stands. -/
theorem Fits.panicked {p : WorkerPhase δ ρ} {l : Lifecycle} (h : p.Fits l) (hp : p.Booted) :
    p.notified.Fits .panicked := by
  cases p with
  | exited end_ =>
    rcases h with ⟨hend, -⟩ | ⟨hend, -⟩
    · exact Or.inl ⟨hend, Or.inr rfl⟩
    · exact Or.inr ⟨hend, rfl⟩
  | failing => rfl
  | opening | opened | announcing | aborted => cases hp
  | releasing job => exact ⟨Or.inr (Or.inr rfl), h.2⟩
  | looping | waiting | executing | responding | panicking => exact Or.inr (Or.inr rfl)

/-- A shutdown as well, if the worker runs. -/
theorem Fits.closing {p : WorkerPhase δ ρ} (h : p.Fits .running) (hp : p.Booted) :
    p.notified.Fits .closing := by
  cases p with
  | exited end_ => rcases h with ⟨-, h | h⟩ | ⟨-, h⟩ <;> cases h
  | failing => cases h
  | opening | opened | announcing | aborted => cases hp
  | releasing job => exact ⟨Or.inr (Or.inl rfl), h.2⟩
  | looping | waiting | executing | responding | panicking => exact Or.inr (Or.inl rfl)

/-- A worker that looks at the queue has booted. -/
theorem Looks.booted {p : WorkerPhase δ ρ} (h : p.Looks) : p.Booted := by
  rcases h with rfl | rfl <;> trivial

theorem Looks.serves {p : WorkerPhase δ ρ} {l : Lifecycle} (h : p.Looks) (hfits : p.Fits l) :
    l.Serves := by
  rcases h with rfl | rfl <;> exact hfits

/-- A notified worker does not sleep. -/
theorem notified_ne_sleeping (p : WorkerPhase δ ρ) : p.notified ≠ .waiting false := by
  cases p <;> simp [WorkerPhase.notified]

end WorkerPhase

/-- The worker thread, the lifecycle, the semaphore and the queue fit together. -/
structure Coherent (s : WorkerState δ ρ) : Prop where
  idle : s.started = false → s.callers = [] ∧ s.queue = []
  booted : s.started = true → s.worker.Booted
  fits : s.worker.Fits s.lifecycle
  closed : s.capacityClosed = true ↔ s.lifecycle ≠ .starting ∧ s.lifecycle ≠ .running
  queued : s.queue ≠ [] →
    (s.lifecycle = .running ∨ s.lifecycle = .closing) ∧ s.worker ≠ .waiting false

namespace Coherent

/-- There are callers only after the start. -/
theorem started (h : Coherent s) {c : ℕ} {p : CallerPhase δ ρ} (hphase : s.phase c = some p) :
    s.started = true := by
  by_contra hstarted
  obtain ⟨hcallers, -⟩ := h.idle (by simpa using hstarted)
  have := WorkerState.lt_of_phase hphase
  rw [hcallers] at this
  exact Nat.not_lt_zero _ this

/-- A new worker. -/
theorem new (capacity : ℕ) (connection : δ) :
    Coherent (.new capacity connection : WorkerState δ ρ) where
  idle _ := ⟨rfl, rfl⟩
  booted h := by cases h
  fits := rfl
  closed := by simp [WorkerState.new]
  queued h := absurd rfl h

/-- What only moves callers and envelopes outside of the queue. -/
theorem frame (h : Coherent s) (hstarted : s'.started = s.started)
    (hcallers : s.callers = [] → s'.callers = []) (hworker : s'.worker = s.worker)
    (hlifecycle : s'.lifecycle = s.lifecycle) (hclosed : s'.capacityClosed = s.capacityClosed)
    (hqueue : s'.queue = s.queue) : Coherent s' where
  idle hs := by
    rw [hstarted] at hs
    rw [hqueue]
    exact ⟨hcallers (h.idle hs).1, (h.idle hs).2⟩
  booted hs := by
    rw [hworker]
    exact h.booted (hstarted ▸ hs)
  fits := by
    rw [hworker, hlifecycle]
    exact h.fits
  closed := by
    rw [hclosed, hlifecycle]
    exact h.closed
  queued hq := by
    rw [hlifecycle, hworker]
    exact h.queued (hqueue ▸ hq)

/-- Moving a caller keeps the state coherent. -/
theorem move (h : Coherent s) {c : ℕ} {p : CallerPhase δ ρ} : Coherent (s.move c p) :=
  h.frame rfl (fun hs => by simp [WorkerState.move, hs]) rfl rfl rfl rfl

/-- Responding keeps the state coherent. -/
theorem respond (h : Coherent s) {job : JobEnvelope δ ρ} {answer : Answer ρ} :
    Coherent (s.respond job answer) := by
  refine h.frame rfl (fun hs => ?_) rfl rfl rfl rfl
  unfold WorkerState.respond
  dsimp only
  split <;> simp [hs]

/-- Failing a job keeps the state coherent. -/
theorem fail (h : Coherent s) {job : JobEnvelope δ ρ} : Coherent (s.fail job) :=
  respond (s := s.release job.permit) (h.frame rfl id rfl rfl rfl rfl)

/-- Notifying keeps the state coherent. -/
theorem notify (h : Coherent s) : Coherent s.notify where
  idle := h.idle
  booted hs := WorkerPhase.booted_notified (h.booted hs)
  fits := h.fits.notified
  closed := h.closed
  queued hq := ⟨(h.queued hq).1, WorkerPhase.notified_ne_sleeping _⟩

/-- Ending the lifecycle keeps the state coherent. -/
theorem terminalizeLocked (h : Coherent s) (hworker : s.worker.Booted) :
    Coherent s.terminalizeLocked where
  idle hs := ⟨(h.idle hs).1, rfl⟩
  booted _ := WorkerPhase.booted_notified hworker
  fits := h.fits.panicked hworker
  closed := by simp [WorkerState.terminalizeLocked, WorkerState.notify, WorkerState.proceed]
  queued hq := absurd rfl hq

/-- Beginning the shutdown keeps the state coherent. -/
theorem beginShutdown (h : Coherent s) (hworker : s.worker.Booted) :
    Coherent s.beginShutdown := by
  unfold WorkerState.beginShutdown
  split
  · exact terminalizeLocked (h.frame rfl id rfl rfl rfl rfl) hworker
  · by_cases hrunning : s.lifecycle = .running
    · rw [if_pos hrunning]
      exact
        { idle := h.idle
          booted := fun _ => WorkerPhase.booted_notified hworker
          fits := (hrunning ▸ h.fits).closing hworker
          closed := by simp [WorkerState.notify, WorkerState.proceed]
          queued := fun _ => ⟨Or.inr rfl, WorkerPhase.notified_ne_sleeping _⟩ }
    · rw [if_neg hrunning]
      have hstarting : s.lifecycle ≠ .starting := by
        intro hstarting
        have hfits := h.fits
        rw [hstarting] at hfits
        cases hphase : s.worker with
        | waiting notified =>
          rw [hphase] at hfits
          cases notified with
          | true => rcases hfits with h | h | h <;> cases h
          | false => cases hfits
        | exited => 
          rw [hphase] at hfits
          rcases hfits with ⟨-, h | h⟩ | ⟨-, h⟩ <;> cases h
        | failing =>
          rw [hphase] at hfits
          cases hfits
        | opening | opened | announcing | aborted =>
          rw [hphase] at hworker
          exact hworker
        | releasing job =>
          rw [hphase] at hfits
          rcases hfits.1 with h | h | h <;> cases h
        | looping | executing | responding | panicking =>
          rw [hphase] at hfits
          rcases hfits with h | h | h <;> cases h
      exact
        { idle := h.idle
          booted := fun _ => WorkerPhase.booted_notified hworker
          fits := h.fits.notified
          closed := by simp [WorkerState.notify, WorkerState.proceed, hrunning, hstarting]
          queued := fun hq => ⟨(h.queued hq).1, WorkerPhase.notified_ne_sleeping _⟩ }

/-- An admission keeps the state coherent. -/
theorem enqueue (h : Coherent s) {c : ℕ} {p : CallerPhase δ ρ} {operation : Operation δ ρ}
    (hphase : s.phase c = some p) (hrunning : s.lifecycle = .running) :
    Coherent (s.enqueue c operation) where
  idle hs := by
    have hstarted : s.started = false := hs
    rw [h.started hphase] at hstarted
    cases hstarted
  booted hs := WorkerPhase.booted_notified (h.booted hs)
  fits := h.fits.notified
  closed := h.closed
  queued _ := ⟨Or.inl hrunning, WorkerPhase.notified_ne_sleeping _⟩

/-- The worker goes on to another phase, with at most the queue it had. -/
theorem goOn (h : Coherent s) (queue : List (JobEnvelope δ ρ)) {p : WorkerPhase δ ρ}
    (hbooted : p.Booted) (hfits : p.Fits s.lifecycle) (hqueue : queue ≠ [] → s.queue ≠ [])
    (hsleeps : queue ≠ [] → p ≠ .waiting false) :
    Coherent { s with queue := queue, worker := p } where
  idle hs := by
    refine ⟨(h.idle hs).1, ?_⟩
    by_contra hne
    exact hqueue hne (h.idle hs).2
  booted _ := hbooted
  fits := hfits
  closed := h.closed
  queued hq := ⟨(h.queued (hqueue hq)).1, hsleeps hq⟩

/-- The worker goes on awake, and the queue stays. -/
theorem goOnAwake (h : Coherent s) {p : WorkerPhase δ ρ} (hbooted : p.Booted)
    (hfits : p.Fits s.lifecycle) (hawake : p ≠ .waiting false) :
    Coherent (s.proceed p) :=
  h.goOn s.queue hbooted hfits id fun _ => hawake

/-- The worker leaves with the queue. -/
theorem leave (h : Coherent s) (hworker : s.worker.Booted)
    {current : Option (JobEnvelope δ ρ)} {jobs : List (JobEnvelope δ ρ)} :
    Coherent (s.terminalizeLocked.proceed (.failing current jobs)) :=
  (h.terminalizeLocked hworker).goOn [] trivial rfl (fun hq => absurd rfl hq)
    (fun hq => absurd rfl hq)

/-- A startup that has failed leaves nothing behind. -/
theorem abort (h : Coherent s) (hworker : s.worker = .opening ∨ s.worker = .opened)
    {p : WorkerPhase δ ρ} (hp : p = .opened ∨ p = .aborted) :
    Coherent (s.proceed p) := by
  have hnotBooted : ¬ s.worker.Booted := by
    rcases hworker with hw | hw <;> rw [hw] <;> exact id
  have hstarting : s.lifecycle = .starting := by
    have hfits := h.fits
    rcases hworker with hw | hw <;> rw [hw] at hfits <;> exact hfits
  have hidle : s.started = false := by
    by_contra hstarted
    exact hnotBooted (h.booted (by simpa using hstarted))
  refine ⟨fun _ => h.idle hidle, fun hs => ?_, ?_, h.closed, fun hq => absurd (h.idle hidle).2 hq⟩
  · rw [show s.started = true from hs] at hidle
    cases hidle
  · rcases hp with rfl | rfl <;> exact hstarting

/-- Every move keeps the state coherent. -/
theorem moves {t : Turn} (h : Coherent s) (hmoves : Moves s t s') : Coherent s' := by
  have hfits := h.fits
  cases hmoves with
  | @acquires c operation =>
    exact move (s := { s with available := s.available - 1 }) (h.frame rfl id rfl rfl rfl rfl)
  | barred | observes | receives | loses => exact h.move
  | admits hphase hrunning => exact h.enqueue hphase hrunning
  | refused | callerPanics => exact (h.move).frame rfl id rfl rfl rfl rfl
  | poisonedAdmission hphase | poisonedObservation hphase =>
    exact (h.terminalizeLocked (h.booted (h.started hphase))).move
  | callerFails => exact h.move.fail
  | opens hworker => exact h.abort (Or.inl hworker) (Or.inl rfl)
  | aborts hworker => exact h.abort (Or.inr hworker) (Or.inr rfl)
  | runs hworker =>
    rw [hworker] at hfits
    have hidle : s.started = false := by
      by_contra hstarted
      have := h.booted (by simpa using hstarted)
      rw [hworker] at this
      exact this
    refine ⟨h.idle, fun hs => ?_, rfl, ?_, fun hq => absurd (h.idle hidle).2 hq⟩
    · rw [show s.started = true from hs] at hidle
      cases hidle
    · have hclosed := h.closed
      rw [show s.lifecycle = .starting from hfits] at hclosed
      simpa using hclosed
  | announces hworker =>
    rw [hworker] at hfits
    refine ⟨fun hs => (by cases hs), fun _ => trivial, Or.inl hfits, h.closed, fun hq => ?_⟩
    exact ⟨(h.queued hq).1, by simp⟩
  | findsPoisoned hworker => exact h.leave hworker.booted
  | finds hworker hqueue =>
    exact h.goOn _ trivial (hworker.serves hfits) (fun _ hs => by rw [hqueue] at hs; cases hs)
      (fun _ => by simp)
  | sleeps hworker hqueue hlifecycle =>
    have hrunning : s.lifecycle = .running := by
      rcases hlifecycle with hl | hl
      · exact hl
      · have hserves := hworker.serves hfits
        rw [hl] at hserves
        rcases hserves with hl | hl | hl <;> cases hl
    exact h.goOn s.queue trivial hrunning id fun hq => absurd hqueue hq
  | closes hworker hqueue hlifecycle =>
    refine ⟨h.idle, fun _ => trivial, Or.inl ⟨rfl, Or.inl rfl⟩, ?_, fun hq => absurd hqueue hq⟩
    have hclosed := h.closed
    rw [hlifecycle] at hclosed
    simpa using hclosed
  | findsClosed hworker hqueue hlifecycle =>
    exact h.goOnAwake trivial (Or.inl ⟨rfl, Or.inl hlifecycle⟩) (by simp)
  | findsPanicked hworker hqueue hlifecycle => exact h.goOnAwake trivial hlifecycle (by simp)
  | @executes job _ _ result hworker =>
    rw [hworker] at hfits
    exact (h.goOnAwake (p := .responding { job with operation := none } result) trivial hfits
      (by simp)).frame rfl id rfl rfl rfl rfl
  | panics hworker =>
    rw [hworker] at hfits
    exact h.goOnAwake trivial hfits (by simp)
  | responds hworker =>
    rw [hworker] at hfits
    exact h.respond.goOnAwake trivial ⟨hfits, rfl⟩ (by simp)
  | releases hworker =>
    rw [hworker] at hfits
    exact (h.goOnAwake (p := .looping) trivial hfits.1 (by simp)).frame rfl id rfl rfl rfl rfl
  | transitions hworker => exact h.leave (by rw [hworker]; trivial)
  | @failsCurrent _ jobs hworker | @workerFails _ jobs hworker =>
    rw [hworker] at hfits
    exact (h.goOnAwake (p := .failing none jobs) trivial hfits (by simp)).fail
  | exits hworker =>
    rw [hworker] at hfits
    exact h.goOnAwake trivial (Or.inr ⟨rfl, hfits⟩) (by simp)
  | @closerFails k _ jobs =>
    exact fail (s := { s with closers := s.closers.set k jobs }) (h.frame rfl id rfl rfl rfl rfl)

/-- Every event keeps the state coherent. -/
theorem happens (h : Coherent s) (hhappens : Happens s s') : Coherent s' := by
  have hfits := h.fits
  cases hhappens with
  | call operation hstarted =>
    refine ⟨fun hs => ?_, h.booted, hfits, h.closed, h.queued⟩
    rw [show s.started = false from hs] at hstarted
    cases hstarted
  | drop => exact h.move
  | shutdown hstarted => exact h.beginShutdown (h.booted hstarted)
  | poison => exact h.frame rfl id rfl rfl rfl rfl
  | wake => exact h.notify
  | openFails hworker => exact h.abort (Or.inl hworker) (Or.inr rfl)
  | announceFails hworker =>
    rw [hworker] at hfits
    exact (h.goOnAwake (p := .looping) trivial (Or.inl hfits) (by simp)).beginShutdown trivial
  | unwind hworker =>
    have hserves : s.lifecycle.Serves := by
      rcases hworker with hw | ⟨_, hw⟩ | hw <;> rw [hw] at hfits
      · exact hfits
      · exact hfits
      · exact hfits.1
    exact h.goOnAwake trivial hserves (by simp)

/-- Every reachable state is coherent. -/
theorem reachable {capacity : ℕ} {connection : δ} (h : s.Reachable capacity connection) :
    Coherent s :=
  h.induction (new capacity connection) (fun _ _ _ h => h.moves) fun _ _ h => h.happens

end Coherent

end Erabi.Worker
