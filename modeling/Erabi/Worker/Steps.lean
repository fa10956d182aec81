/-
# Steps of the database worker

The cases of a step, by thread, and how a step changes a sum over all callers or over all
envelopes.
-/
import Erabi.Transition.Run
import Erabi.Worker.Model

namespace Erabi.Worker

variable {δ ρ : Type} {s s' : WorkerState δ ρ} {c : ℕ}

/-! ## Sums over a list with one changed element -/

/-- A sum over a list with one element changed. -/
theorem sum_map_modify {α : Type} {l : List α} {i : ℕ} {a : α} (h : l[i]? = some a)
    (change : α → α) (f : α → ℕ) :
    ((l.modify i change).map f).sum + f a = (l.map f).sum + f (change a) := by
  induction l generalizing i with
  | nil => cases h
  | cons b l ih =>
    cases i with
    | zero =>
      cases h
      simp only [List.modify_zero_cons, List.map_cons, List.sum_cons]
      omega
    | succ i =>
      simp only [List.modify_succ_cons, List.map_cons, List.sum_cons]
      have := ih (i := i) (by simpa using h)
      omega

/-- A sum over a list with one element replaced. -/
theorem sum_map_set {α : Type} {l : List α} {i : ℕ} {a : α} (h : l[i]? = some a) (b : α)
    (f : α → ℕ) : ((l.set i b).map f).sum + f a = (l.map f).sum + f b := by
  rw [List.set_eq_modify]
  exact sum_map_modify h _ f

namespace WorkerState

/-! ## Callers and their phases -/

/-- The phase of a caller is that of its entry. -/
theorem phase_eq_some {p : CallerPhase δ ρ} :
    s.phase c = some p ↔ ∃ caller, s.callers[c]? = some caller ∧ caller.phase = p :=
  Option.map_eq_some_iff

/-- A caller with a phase is one of the callers. -/
theorem lt_of_phase {p : CallerPhase δ ρ} (h : s.phase c = some p) : c < s.callers.length := by
  obtain ⟨caller, hcaller, -⟩ := phase_eq_some.mp h
  exact (List.getElem?_eq_some_iff.mp hcaller).1

/-- Moving a caller leaves the others. -/
theorem phase_move_ne {p : CallerPhase δ ρ} {d : ℕ} (h : c ≠ d) :
    (s.move c p).phase d = s.phase d := by
  unfold phase move
  rw [List.getElem?_modify_ne _ _ h]

/-- Another phase of a caller is its own, that of another caller the old one. -/
theorem phase_move_eq_some {p q : CallerPhase δ ρ} {d : ℕ}
    (h : (s.move c p).phase d = some q) : d = c ∧ p = q ∨ d ≠ c ∧ s.phase d = some q := by
  by_cases hd : d = c
  · subst hd
    obtain ⟨caller, hcaller, rfl⟩ := phase_eq_some.mp h
    have hlength : d < s.callers.length := by
      simpa [move] using (List.getElem?_eq_some_iff.mp hcaller).1
    rw [move, List.getElem?_modify_eq, List.getElem?_eq_getElem hlength] at hcaller
    cases hcaller
    exact Or.inl ⟨rfl, rfl⟩
  · rw [phase_move_ne (Ne.symm hd)] at h
    exact Or.inr ⟨hd, h⟩

/-- Moving a caller adds none. -/
@[simp] theorem length_move {p : CallerPhase δ ρ} :
    (s.move c p).callers.length = s.callers.length := List.length_modify ..

/-- Moving a caller leaves the responses. -/
@[simp] theorem response_move {p : CallerPhase δ ρ} (d : ℕ) :
    (s.move c p).response d = s.response d := by
  unfold response move
  by_cases hd : c = d
  · subst hd
    rw [List.getElem?_modify_eq]
    cases s.callers[c]? <;> rfl
  · rw [List.getElem?_modify_ne _ _ hd]

@[simp] theorem length_respond {job : JobEnvelope δ ρ} {answer : Answer ρ} :
    (s.respond job answer).callers.length = s.callers.length := by
  unfold respond
  dsimp only
  split
  · exact List.length_modify ..
  · rfl

/-- A response leaves the phases. -/
@[simp] theorem phase_respond {job : JobEnvelope δ ρ} {answer : Answer ρ} (d : ℕ) :
    (s.respond job answer).phase d = s.phase d := by
  unfold phase respond
  dsimp only
  split
  · by_cases hd : job.caller = d
    · subst hd
      rw [List.getElem?_modify_eq]
      cases s.callers[job.caller]? <;> rfl
    · rw [List.getElem?_modify_ne _ _ hd]
  · rfl

/-- A response leaves those of other callers. -/
theorem response_respond_ne {job : JobEnvelope δ ρ} {answer : Answer ρ} {d : ℕ}
    (h : job.responder = false ∨ d ≠ job.caller) :
    (s.respond job answer).response d = s.response d := by
  unfold response respond
  dsimp only
  split
  · rename_i hresponder
    have hd : job.caller ≠ d := by
      rcases h with h | h
      · rw [h] at hresponder
        cases hresponder
      · exact Ne.symm h
    rw [List.getElem?_modify_ne _ _ hd]
  · rfl

/-- A response reaches its caller. -/
theorem response_respond_self {job : JobEnvelope δ ρ} {answer : Answer ρ}
    (hresponder : job.responder = true) (hlength : job.caller < s.callers.length) :
    (s.respond job answer).response job.caller = some answer := by
  unfold response respond
  dsimp only
  rw [if_pos hresponder, List.getElem?_modify_eq, List.getElem?_eq_getElem hlength]
  rfl

/-- A new caller has no answer yet. -/
theorem response_call {operation : Operation δ ρ} (c : ℕ) :
    response { s with callers := s.callers ++ [⟨.acquiring operation, none⟩] } c =
      s.response c := by
  unfold response
  dsimp only
  by_cases hc : c < s.callers.length
  · rw [List.getElem?_append_left hc]
  · rw [List.getElem?_append_right (not_lt.mp hc), List.getElem?_eq_none (not_lt.mp hc)]
    cases hcaller : [(⟨.acquiring operation, none⟩ : Caller δ ρ)][c - s.callers.length]? with
    | none => rfl
    | some caller =>
      rw [List.mem_singleton.mp (List.mem_of_getElem? hcaller)]
      rfl

/-- A shutdown answers nobody and executes nothing. -/
theorem beginShutdown_spec (s : WorkerState δ ρ) : s.beginShutdown.callers = s.callers ∧
    s.beginShutdown.worker = s.worker.notified ∧ s.beginShutdown.history = s.history ∧
    s.beginShutdown.executed = s.executed ∧ s.beginShutdown.connection = s.connection := by
  unfold beginShutdown
  split <;> exact ⟨rfl, rfl, rfl, rfl, rfl⟩

/-! ## Sums over the envelopes -/

/-- The sum of a number over all envelopes. -/
def total (f : JobEnvelope δ ρ → ℕ) (s : WorkerState δ ρ) : ℕ := (s.envelopes.map f).sum

/-- What a caller's jobs add up to. -/
def Caller.total (f : JobEnvelope δ ρ → ℕ) (caller : Caller δ ρ) : ℕ :=
  (caller.phase.jobs.map f).sum

/-- The total is that of worker, queue, callers and closers. -/
theorem total_eq (f : JobEnvelope δ ρ → ℕ) (s : WorkerState δ ρ) :
    s.total f = (s.worker.jobs.map f).sum + (s.queue.map f).sum +
      (s.callers.map (Caller.total f)).sum + (s.closers.map fun jobs => (jobs.map f).sum).sum := by
  have hcallers : ∀ callers : List (Caller δ ρ),
      ((callers.flatMap fun caller => caller.phase.jobs).map f).sum =
        (callers.map (Caller.total f)).sum := by
    intro callers
    induction callers with
    | nil => rfl
    | cons caller callers ih =>
      rw [List.flatMap_cons, List.map_append, List.sum_append, ih]
      rfl
  have hclosers : ∀ closers : List (List (JobEnvelope δ ρ)), (closers.flatten.map f).sum =
      (closers.map fun jobs => (jobs.map f).sum).sum := by
    intro closers
    induction closers with
    | nil => rfl
    | cons jobs closers ih =>
      rw [List.flatten_cons, List.map_append, List.sum_append, ih]
      rfl
  rw [total, envelopes, List.map_append, List.map_append, List.map_append, List.sum_append,
    List.sum_append, List.sum_append, hcallers, hclosers]

variable {f : JobEnvelope δ ρ → ℕ}

/-- The total when a caller moves. -/
theorem total_move {p q : CallerPhase δ ρ} (h : s.phase c = some p) :
    (s.move c q).total f + (p.jobs.map f).sum = s.total f + (q.jobs.map f).sum := by
  obtain ⟨caller, hcaller, rfl⟩ := phase_eq_some.mp h
  have hsum := sum_map_modify hcaller (fun caller => { caller with phase := q }) (Caller.total f)
  rw [total_eq, total_eq]
  simp only [Caller.total] at hsum
  simp only [move]
  omega

/-- The total depends on who holds jobs. -/
theorem total_congr {t : WorkerState δ ρ} (hworker : t.worker.jobs = s.worker.jobs)
    (hqueue : t.queue = s.queue) (hcallers : t.callers = s.callers)
    (hclosers : t.closers = s.closers) : t.total f = s.total f := by
  unfold total envelopes
  rw [hworker, hqueue, hcallers, hclosers]

/-- A notification moves no job. -/
@[simp] theorem jobs_notified (p : WorkerPhase δ ρ) : p.notified.jobs = p.jobs := by
  cases p <;> rfl

@[simp] theorem total_notify : s.notify.total f = s.total f :=
  total_congr (jobs_notified _) rfl rfl rfl

@[simp] theorem total_release {permit : Bool} : (s.release permit).total f = s.total f :=
  total_congr rfl rfl rfl rfl

/-- An answer changes no sum over the phases. -/
theorem sum_map_respond {job : JobEnvelope δ ρ} {answer : Answer ρ} (g : Caller δ ρ → ℕ)
    (hg : ∀ caller response, g { caller with response := response } = g caller) :
    ((s.respond job answer).callers.map g).sum = (s.callers.map g).sum := by
  unfold respond
  dsimp only
  split
  · rcases hcaller : s.callers[job.caller]? with _ | caller
    · rw [List.modify_eq_self (List.getElem?_eq_none_iff.mp hcaller)]
    · have hsum := sum_map_modify hcaller
        (fun caller => { caller with response := some answer }) g
      rw [hg caller (some answer)] at hsum
      exact Nat.add_right_cancel hsum
  · rfl

/-- An answer moves no envelope. -/
@[simp] theorem total_respond {job : JobEnvelope δ ρ} {answer : Answer ρ} :
    (s.respond job answer).total f = s.total f := by
  rw [total_eq, total_eq, sum_map_respond (Caller.total f) fun _ _ => rfl]
  rfl

/-- Failing a job moves none. -/
@[simp] theorem total_fail {job : JobEnvelope δ ρ} : (s.fail job).total f = s.total f := by
  rw [fail, total_respond, total_release]

/-- The thread that terminalizes leaves with the queue. -/
theorem total_terminalizeLocked :
    s.terminalizeLocked.total f + (s.queue.map f).sum = s.total f := by
  rw [terminalizeLocked, total_notify, total_eq, total_eq]
  simp only [List.map_nil, List.sum_nil]
  omega

/-- The worker and the queue can exchange envelopes. -/
theorem total_work {t : WorkerState δ ρ} (hcallers : t.callers = s.callers)
    (hclosers : t.closers = s.closers) :
    t.total f + ((s.worker.jobs ++ s.queue).map f).sum =
      s.total f + ((t.worker.jobs ++ t.queue).map f).sum := by
  rw [total_eq, total_eq, hcallers, hclosers]
  simp only [List.map_append, List.sum_append]
  omega

/-- The total when the worker proceeds. -/
theorem total_proceed {p : WorkerPhase δ ρ} :
    (s.proceed p).total f + (s.worker.jobs.map f).sum = s.total f + (p.jobs.map f).sum := by
  have hwork := total_work (f := f) (s := s) (t := s.proceed p) rfl rfl
  simp only [proceed, List.map_append, List.sum_append] at hwork ⊢
  omega

/-- The total stays when the worker keeps its jobs. -/
theorem total_proceed_of_jobs {p : WorkerPhase δ ρ} (hjobs : p.jobs = s.worker.jobs) :
    (s.proceed p).total f = s.total f := total_congr hjobs rfl rfl rfl

/-- The worker leaves with the queue and what it had. -/
theorem total_leave {current : Option (JobEnvelope δ ρ)} (hcurrent : current.toList = s.worker.jobs) :
    (s.terminalizeLocked.proceed (.failing current s.queue)).total f = s.total f := by
  have hwork := total_work (f := f) (s := s)
    (t := s.terminalizeLocked.proceed (.failing current s.queue)) rfl rfl
  have hjobs : ((s.terminalizeLocked.proceed (.failing current s.queue)).worker.jobs ++
      (s.terminalizeLocked.proceed (.failing current s.queue)).queue) =
        s.worker.jobs ++ s.queue := by
    rw [← hcurrent]
    exact List.append_nil _
  rw [hjobs] at hwork
  exact Nat.add_right_cancel hwork

/-- An admission adds its job. -/
theorem total_admit {operation : Operation δ ρ}
    (h : s.phase c = some (.permitted operation)) :
    (s.enqueue c operation).total f = s.total f + f (.new c operation) := by
  let pushed : WorkerState δ ρ :=
    { s with
      queue := s.queue ++ [.new c operation]
      history := s.history ++ [(c, operation)] }
  have hphase : pushed.phase c = some (.permitted operation) := h
  have hmove := total_move (q := .awaiting) (f := f) hphase
  have hwork := total_work (f := f) (s := s) (t := pushed) rfl rfl
  have hadmit : (s.enqueue c operation).total f = (pushed.move c .awaiting).total f := total_notify
  simp only [pushed, CallerPhase.jobs, List.map_nil, List.sum_nil, List.map_append,
    List.sum_append, List.map_cons, List.sum_cons] at hmove hwork hadmit
  omega

/-- The total when a closer drops jobs. -/
theorem total_closer {k : ℕ} {jobs : List (JobEnvelope δ ρ)} (h : s.closers[k]? = some jobs)
    (rest : List (JobEnvelope δ ρ)) :
    total f { s with closers := s.closers.set k rest } + (jobs.map f).sum =
      s.total f + (rest.map f).sum := by
  have hsum := sum_map_set h rest fun jobs => (jobs.map f).sum
  rw [total_eq, total_eq]
  dsimp only at hsum ⊢
  omega

/-- The total stays when shutdown begins. -/
theorem total_beginShutdown : s.beginShutdown.total f = s.total f := by
  unfold beginShutdown
  split
  · let handed : WorkerState δ ρ := { s with closers := s.closers ++ [s.queue] }
    have hterminal : handed.terminalizeLocked.total f + (s.queue.map f).sum = handed.total f :=
      total_terminalizeLocked
    have hhanded : handed.total f = s.total f + (s.queue.map f).sum := by
      rw [total_eq, total_eq, List.map_append, List.sum_append]
      simp only [handed, List.map_cons, List.map_nil, List.sum_cons, List.sum_nil]
      omega
    exact Nat.add_right_cancel (hterminal.trans hhanded)
  · exact total_congr (jobs_notified _) rfl rfl rfl

end WorkerState

/-! ## The cases of a turn -/

/-- The lock is what the worker waits for. -/
def WorkerPhase.Looks (p : WorkerPhase δ ρ) : Prop := p = .looping ∨ p = .waiting true

open WorkerState in
/-- What a thread can do on its own. -/
inductive Moves (s : WorkerState δ ρ) : Turn → WorkerState δ ρ → Prop
  | acquires {c : ℕ} {operation : Operation δ ρ}
      (hphase : s.phase c = some (.acquiring operation)) (hopen : s.capacityClosed = false)
      (havailable : s.available ≠ 0) :
      Moves s (.caller c) (move { s with available := s.available - 1 } c (.permitted operation))
  | barred {c : ℕ} {operation : Operation δ ρ}
      (hphase : s.phase c = some (.acquiring operation)) (hclosed : s.capacityClosed = true) :
      Moves s (.caller c) (s.move c .observing)
  | admits {c : ℕ} {operation : Operation δ ρ}
      (hphase : s.phase c = some (.permitted operation)) (hrunning : s.lifecycle = .running) :
      Moves s (.caller c) (s.enqueue c operation)
  | refused {c : ℕ} {operation : Operation δ ρ}
      (hphase : s.phase c = some (.permitted operation)) (hrunning : s.lifecycle ≠ .running) :
      Moves s (.caller c)
        ((s.move c (.returned (.error (failureFor s.lifecycle)))).release true)
  | poisonedAdmission {c : ℕ} {operation : Operation δ ρ}
      (hphase : s.phase c = some (.permitted operation)) :
      Moves s (.caller c) (s.terminalizeLocked.move c (.failing true s.queue))
  | observes {c : ℕ} (hphase : s.phase c = some .observing) :
      Moves s (.caller c) (s.move c (.returned (.error (failureFor s.lifecycle))))
  | poisonedObservation {c : ℕ} (hphase : s.phase c = some .observing) :
      Moves s (.caller c) (s.terminalizeLocked.move c (.failing false s.queue))
  | callerFails {c : ℕ} {permit : Bool} {job : JobEnvelope δ ρ} {jobs : List (JobEnvelope δ ρ)}
      (hphase : s.phase c = some (.failing permit (job :: jobs))) :
      Moves s (.caller c) ((s.move c (.failing permit jobs)).fail job)
  | callerPanics {c : ℕ} {permit : Bool} (hphase : s.phase c = some (.failing permit [])) :
      Moves s (.caller c) ((s.move c (.returned (.error .panicked))).release permit)
  | receives {c : ℕ} {answer : Answer ρ} (hphase : s.phase c = some .awaiting)
      (hresponse : s.response c = some answer) :
      Moves s (.caller c) (s.move c (.returned answer))
  | loses {c : ℕ} (hphase : s.phase c = some .awaiting) (hresponse : s.response c = none)
      (hlost : ∀ job ∈ s.envelopes, job.responder = true → job.caller ≠ c) :
      Moves s (.caller c) (s.move c (.returned (.error .panicked)))
  | opens (hworker : s.worker = .opening) : Moves s .worker (s.proceed .opened)
  | aborts (hworker : s.worker = .opened) : Moves s .worker (s.proceed .aborted)
  | runs (hworker : s.worker = .opened) :
      Moves s .worker { s with lifecycle := .running, worker := .announcing }
  | announces (hworker : s.worker = .announcing) :
      Moves s .worker { s with started := true, worker := .looping }
  | findsPoisoned (hworker : s.worker.Looks) :
      Moves s .worker (s.terminalizeLocked.proceed (.failing none s.queue))
  | finds {job : JobEnvelope δ ρ} {jobs : List (JobEnvelope δ ρ)} (hworker : s.worker.Looks)
      (hqueue : s.queue = job :: jobs) :
      Moves s .worker { s with queue := jobs, worker := .executing job }
  | sleeps (hworker : s.worker.Looks) (hqueue : s.queue = [])
      (hlifecycle : s.lifecycle = .running ∨ s.lifecycle = .starting) :
      Moves s .worker (s.proceed (.waiting false))
  | closes (hworker : s.worker.Looks) (hqueue : s.queue = []) (hlifecycle : s.lifecycle = .closing) :
      Moves s .worker { s with lifecycle := .closed, worker := .exited .closed }
  | findsClosed (hworker : s.worker.Looks) (hqueue : s.queue = [])
      (hlifecycle : s.lifecycle = .closed) :
      Moves s .worker (s.proceed (.exited .closed))
  | findsPanicked (hworker : s.worker.Looks) (hqueue : s.queue = [])
      (hlifecycle : s.lifecycle = .panicked) :
      Moves s .worker (s.proceed (.failing none []))
  | executes {job : JobEnvelope δ ρ} {operation : Operation δ ρ} {connection : δ} {result : ρ}
      (hworker : s.worker = .executing job) (hoperation : job.operation = some operation)
      (hresult : operation s.connection = some (connection, result)) :
      Moves s .worker { s with
        connection := connection
        executed := s.executed ++ [(job.caller, result)]
        worker := .responding { job with operation := none } result }
  | panics {job : JobEnvelope δ ρ} (hworker : s.worker = .executing job) :
      Moves s .worker (s.proceed (.panicking { job with operation := none }))
  | responds {job : JobEnvelope δ ρ} {result : ρ} (hworker : s.worker = .responding job result) :
      Moves s .worker
        ((s.respond job (.ok result)).proceed (.releasing { job with responder := false }))
  | releases {job : JobEnvelope δ ρ} (hworker : s.worker = .releasing job) :
      Moves s .worker ((s.proceed .looping).release job.permit)
  | transitions {job : JobEnvelope δ ρ} (hworker : s.worker = .panicking job) :
      Moves s .worker (s.terminalizeLocked.proceed (.failing (some job) s.queue))
  | failsCurrent {job : JobEnvelope δ ρ} {jobs : List (JobEnvelope δ ρ)}
      (hworker : s.worker = .failing (some job) jobs) :
      Moves s .worker ((s.proceed (.failing none jobs)).fail job)
  | workerFails {job : JobEnvelope δ ρ} {jobs : List (JobEnvelope δ ρ)}
      (hworker : s.worker = .failing none (job :: jobs)) :
      Moves s .worker ((s.proceed (.failing none jobs)).fail job)
  | exits (hworker : s.worker = .failing none []) :
      Moves s .worker (s.proceed (.exited .panicked))
  | closerFails {k : ℕ} {job : JobEnvelope δ ρ} {jobs : List (JobEnvelope δ ρ)}
      (hcloser : s.closers[k]? = some (job :: jobs)) :
      Moves s (.closer k) ({ s with closers := s.closers.set k jobs }.fail job)

namespace WorkerState

/-- Looking at the queue is a move. -/
theorem lookAtQueue_moves (h : s.worker.Looks) : Moves s .worker s.lookAtQueue := by
  unfold lookAtQueue
  split
  · exact .findsPoisoned h
  · split
    · exact .finds h ‹_›
    · split
      · exact .sleeps h ‹_› (Or.inl ‹_›)
      · exact .sleeps h ‹_› (Or.inr ‹_›)
      · exact .closes h ‹_› ‹_›
      · exact .findsClosed h ‹_› ‹_›
      · exact .findsPanicked h ‹_› ‹_›

/-- Executing a job is a move. -/
theorem execute_moves {job : JobEnvelope δ ρ} (h : s.worker = .executing job) :
    Moves s .worker (s.execute job) := by
  unfold execute
  split
  · rename_i connection result hresult
    obtain ⟨operation, hoperation, hresult⟩ := Option.bind_eq_some_iff.mp hresult
    exact .executes h hoperation hresult
  · exact .panics h

/-- A caller's turn is a move. -/
theorem callerTurn_moves (h : s.callerTurn c = some s') : Moves s (.caller c) s' := by
  unfold callerTurn at h
  split at h
  · split_ifs at h with hclosed havailable
    · cases h
      exact .barred ‹_› hclosed
    · cases h
      exact .acquires ‹_› (by simpa using hclosed) havailable
  · split_ifs at h with hpoisoned hrunning
    · cases h
      exact .poisonedAdmission ‹_›
    · cases h
      exact .admits ‹_› hrunning
    · cases h
      exact .refused ‹_› hrunning
  · split_ifs at h with hpoisoned
    · cases h
      exact .poisonedObservation ‹_›
    · cases h
      exact .observes ‹_›
  · cases h
    exact .callerFails ‹_›
  · cases h
    exact .callerPanics ‹_›
  · split at h
    · cases h
      exact .receives ‹_› ‹_›
    · split_ifs at h with hlost
      cases h
      refine .loses ‹_› ‹_› fun job hjob hresponder hcaller => hlost ?_
      exact List.any_eq_true.mpr ⟨job, hjob, by simp [hresponder, hcaller]⟩
  all_goals cases h

/-- The worker's turn is a move. -/
theorem workerTurn_moves (h : s.workerTurn = some s') : Moves s .worker s' := by
  unfold workerTurn at h
  split at h
  · cases h
    exact .opens ‹_›
  · split_ifs at h with hpoisoned
    · cases h
      exact .aborts ‹_›
    · cases h
      exact .runs ‹_›
  · cases h
    exact .announces ‹_›
  · cases h
    exact lookAtQueue_moves (Or.inl ‹_›)
  · cases h
    exact lookAtQueue_moves (Or.inr ‹_›)
  · cases h
  · cases h
    exact execute_moves ‹_›
  · cases h
    exact .responds ‹_›
  · cases h
    exact .releases ‹_›
  · cases h
    exact .transitions ‹_›
  · cases h
    exact .failsCurrent ‹_›
  · cases h
    exact .workerFails ‹_›
  · cases h
    exact .exits ‹_›
  all_goals cases h

/-- The turns of the threads have no other cases. -/
theorem turn_moves {t : Turn} (h : s.turn t = some s') : Moves s t s' := by
  cases t with
  | caller c => exact callerTurn_moves h
  | worker => exact workerTurn_moves h
  | closer k =>
    change s.closerTurn k = some s' at h
    unfold closerTurn at h
    split at h
    · cases h
      exact .closerFails ‹_›
    all_goals cases h

end WorkerState

/-! ## The cases of an event -/

open WorkerState in
/-- What can happen from outside. -/
inductive Happens (s : WorkerState δ ρ) : WorkerState δ ρ → Prop
  | call (operation : Operation δ ρ) (hstarted : s.started = true) :
      Happens s { s with callers := s.callers ++ [⟨.acquiring operation, none⟩] }
  | drop {c : ℕ} {p : CallerPhase δ ρ} (hphase : s.phase c = some p)
      (hp : (∃ operation, p = .acquiring operation) ∨ p = .awaiting) :
      Happens s (s.move c .dropped)
  | shutdown (hstarted : s.started = true) : Happens s s.beginShutdown
  | poison : Happens s { s with poisoned := true }
  | wake : Happens s s.notify
  | openFails (hworker : s.worker = .opening) : Happens s (s.proceed .aborted)
  | announceFails (hworker : s.worker = .announcing) :
      Happens s (s.proceed .looping).beginShutdown
  | unwind {job : JobEnvelope δ ρ} (hworker : s.worker = .executing job ∨
      (∃ result, s.worker = .responding job result) ∨ s.worker = .releasing job) :
      Happens s (s.proceed (.panicking job))

/-- An event happens. -/
theorem WorkerState.occur_happens {e : Event δ ρ} (h : s.occur e = some s') : Happens s s' := by
  unfold occur at h
  split at h
  · split_ifs at h with hstarted
    cases h
    exact .call _ hstarted
  · split at h
    · cases h
      exact .drop ‹_› (Or.inl ⟨_, rfl⟩)
    · cases h
      exact .drop ‹_› (Or.inr rfl)
    · cases h
  · split_ifs at h with hstarted
    cases h
    exact .shutdown hstarted
  · cases h
    exact .poison
  · cases h
    exact .wake
  · split at h
    · cases h
      exact .openFails ‹_›
    · cases h
  · split at h
    · cases h
      exact .announceFails ‹_›
    · cases h
  · split at h
    · cases h
      exact .unwind (Or.inl ‹_›)
    · cases h
      exact .unwind (Or.inr (Or.inl ⟨_, ‹_›⟩))
    · cases h
      exact .unwind (Or.inr (Or.inr ‹_›))
    · cases h

/-! ## What becomes of the envelopes -/

/-- The envelopes that a turn takes away, and those that it leaves for them. -/
inductive Trade : List (JobEnvelope δ ρ) → List (JobEnvelope δ ρ) → Prop
  | kept : Trade [] []
  | admitted (c : ℕ) (operation : Operation δ ρ) : Trade [] [.new c operation]
  | spent (job : JobEnvelope δ ρ) : Trade [job] [{ job with operation := none }]
  | answered (job : JobEnvelope δ ρ) : Trade [job] [{ job with responder := false }]
  | done (job : JobEnvelope δ ρ) : Trade [job] []

open WorkerState in
/-- The envelopes only change hands, but for one trade. -/
theorem Moves.trade {t : Turn} (h : Moves s t s') : ∃ gone came, Trade gone came ∧
    ∀ f, s'.total f + (gone.map f).sum = s.total f + (came.map f).sum := by
  have hkept : (∀ f, s'.total f = s.total f) → ∃ gone came, Trade gone came ∧
      ∀ f, s'.total f + (gone.map f).sum = s.total f + (came.map f).sum :=
    fun hsame => ⟨[], [], .kept, hsame⟩
  cases h with
  -- a permit is not a job, so the totals stay
  | @acquires c operation hphase =>
    exact hkept fun f => total_move (s := { s with available := s.available - 1 }) hphase
  | barred hphase | observes hphase | receives hphase | loses hphase =>
    exact hkept fun f => total_move hphase
  | @admits c operation hphase => exact ⟨[], _, .admitted c operation, fun f => total_admit hphase⟩
  | refused hphase | callerPanics hphase => exact hkept fun f => total_move hphase
  -- the queue is handed over to the caller that found the lock poisoned
  | @poisonedAdmission c operation hphase =>
    refine hkept fun f => ?_
    have hmove := total_move (s := s.terminalizeLocked) (q := .failing true s.queue) (f := f) hphase
    have hterminal := total_terminalizeLocked (s := s) (f := f)
    simp only [CallerPhase.jobs, List.map_nil, List.sum_nil] at hmove
    omega
  | @poisonedObservation c hphase =>
    refine hkept fun f => ?_
    have hmove := total_move (s := s.terminalizeLocked) (q := .failing false s.queue) (f := f) hphase
    have hterminal := total_terminalizeLocked (s := s) (f := f)
    simp only [CallerPhase.jobs, List.map_nil, List.sum_nil] at hmove
    omega
  | @callerFails c permit job jobs hphase =>
    refine ⟨[job], [], .done job, fun f => ?_⟩
    have hmove := total_move (q := .failing permit jobs) (f := f) hphase
    simp only [CallerPhase.jobs, List.map_cons, List.sum_cons] at hmove
    rw [total_fail]
    simp only [List.map_cons, List.map_nil, List.sum_cons, List.sum_nil]
    omega
  | @closerFails k job jobs hcloser =>
    refine ⟨[job], [], .done job, fun f => ?_⟩
    have htotal := total_closer (f := f) hcloser jobs
    simp only [List.map_cons, List.sum_cons] at htotal
    rw [total_fail]
    simp only [List.map_cons, List.map_nil, List.sum_cons, List.sum_nil]
    omega
  | opens hworker | aborts hworker | exits hworker =>
    exact hkept fun f => total_proceed_of_jobs (by rw [hworker]; rfl)
  | runs hworker | announces hworker =>
    exact hkept fun f => total_congr (by rw [hworker]; rfl) rfl rfl rfl
  | findsPoisoned hworker =>
    exact hkept fun f => total_leave (by rcases hworker with hw | hw <;> rw [hw] <;> rfl)
  | @finds job jobs hworker hqueue =>
    refine hkept fun f => ?_
    have hwork := total_work (f := f) (s := s)
      (t := { s with queue := jobs, worker := .executing job }) rfl rfl
    have hjobs : s.worker.jobs = [] := by rcases hworker with hw | hw <;> rw [hw] <;> rfl
    rw [hjobs, hqueue] at hwork
    exact Nat.add_right_cancel hwork
  | sleeps hworker | findsClosed hworker | findsPanicked hworker =>
    exact hkept fun f => total_proceed_of_jobs (by rcases hworker with hw | hw <;> rw [hw] <;> rfl)
  | closes hworker =>
    exact hkept fun f => total_congr (by rcases hworker with hw | hw <;> rw [hw] <;> rfl) rfl rfl rfl
  | @executes job operation connection result hworker =>
    refine ⟨[job], _, .spent job, fun f => ?_⟩
    have hproceed := total_proceed (s := s) (f := f)
      (p := .responding { job with operation := none } result)
    rw [hworker] at hproceed
    exact hproceed
  | @panics job hworker =>
    refine ⟨[job], _, .spent job, fun f => ?_⟩
    have hproceed := total_proceed (s := s) (f := f) (p := .panicking { job with operation := none })
    rw [hworker] at hproceed
    exact hproceed
  | @responds job result hworker =>
    refine ⟨[job], _, .answered job, fun f => ?_⟩
    have hproceed := total_proceed (s := s.respond job (.ok result)) (f := f)
      (p := .releasing { job with responder := false })
    have hjobs : (s.respond job (.ok result)).worker.jobs = [job] := by
      change s.worker.jobs = [job]
      rw [hworker]
      rfl
    rwa [hjobs, total_respond] at hproceed
  | @releases job hworker =>
    refine ⟨[job], _, .done job, fun f => ?_⟩
    have hproceed := total_proceed (s := s) (f := f) (p := .looping)
    rw [hworker] at hproceed
    rw [total_release]
    exact hproceed
  | transitions hworker => exact hkept fun f => total_leave (by rw [hworker]; rfl)
  | @failsCurrent job jobs hworker | @workerFails job jobs hworker =>
    refine ⟨[job], _, .done job, fun f => ?_⟩
    have hproceed := total_proceed (s := s) (f := f) (p := .failing none jobs)
    rw [hworker] at hproceed
    simp only [WorkerPhase.jobs, Option.toList_some, Option.toList_none, List.cons_append,
      List.nil_append, List.map_cons, List.map_nil, List.sum_cons, List.sum_nil] at hproceed ⊢
    rw [total_fail]
    omega

open WorkerState in
/-- What happens from outside moves envelopes at most. -/
theorem Happens.total (h : Happens s s') (f : JobEnvelope δ ρ → ℕ) : s'.total f = s.total f := by
  cases h with
  | call operation hstarted =>
    rw [total_eq, total_eq, List.map_append, List.sum_append]
    rfl
  | drop hphase hp =>
    have hmove := total_move (q := .dropped) (f := f) hphase
    rcases hp with ⟨operation, rfl⟩ | rfl <;> exact hmove
  | shutdown => exact total_beginShutdown
  | poison => rfl
  | wake => exact total_notify
  | openFails hworker => exact total_proceed_of_jobs (by rw [hworker]; rfl)
  | announceFails hworker =>
    rw [total_beginShutdown]
    exact total_proceed_of_jobs (by rw [hworker]; rfl)
  | unwind hworker =>
    refine total_proceed_of_jobs ?_
    rcases hworker with hw | ⟨result, hw⟩ | hw <;> rw [hw] <;> rfl

/-- What every turn and every event keeps holds in every reachable state. -/
theorem WorkerState.Reachable.induction {I : WorkerState δ ρ → Prop} {capacity : ℕ}
    {connection : δ} (hnew : I (new capacity connection))
    (hmoves : ∀ s t s', I s → Moves s t s' → I s') (hhappens : ∀ s s', I s → Happens s s' → I s')
    (h : Reachable capacity connection s) : I s := by
  refine Transition.keeps_of_reflTransGen (fun a b hstep ha => ?_) h hnew
  cases hstep with
  | turn t h => exact hmoves a t b ha (turn_moves h)
  | event e h => exact hhappens a b ha (occur_happens h)

/-- A run from a new worker reaches its state. -/
theorem WorkerState.reachable_run {capacity : ℕ} {connection : δ} {inputs : List (Turn ⊕ Event δ ρ)}
    (h : s.Reachable capacity connection) (hrun : s.run inputs = some s') :
    s'.Reachable capacity connection := by
  induction inputs generalizing s with
  | nil =>
    cases hrun
    exact h
  | cons input inputs ih =>
    cases input with
    | inl turn =>
      obtain ⟨next, hnext, hrun⟩ := Option.bind_eq_some_iff.mp hrun
      exact ih (h.tail (.turn turn hnext)) hrun
    | inr event =>
      obtain ⟨next, hnext, hrun⟩ := Option.bind_eq_some_iff.mp hrun
      exact ih (h.tail (.event event hnext)) hrun

/-! ## A worker that counts -/

/-- The startup, a call that is admitted and executed, and its answer. -/
def servingInputs : List (Turn ⊕ Event ℕ ℕ) :=
  [.inl .worker, .inl .worker, .inl .worker, .inr (.call fun n => some (n + 1, n)),
    .inl (.caller 0), .inl (.caller 0), .inl .worker, .inl .worker, .inl .worker, .inl .worker,
    .inl (.caller 0)]

/-- A worker that has served two callers. -/
def served : WorkerState ℕ ℕ := ((WorkerState.new 1 40).run servingInputs).getD (.new 1 40)

/-- That state can be reached. -/
theorem served_reachable : served.Reachable 1 40 := by
  have hrun : (WorkerState.new 1 40).run servingInputs = some served := rfl
  exact WorkerState.reachable_run .refl hrun

/-- The same worker after its shutdown. -/
def drained : WorkerState ℕ ℕ := (served.run [.inr .beginShutdown, .inl .worker]).getD served

theorem drained_reachable : drained.Reachable 1 40 := by
  have hrun : served.run [.inr .beginShutdown, .inl .worker] = some drained := rfl
  exact WorkerState.reachable_run served_reachable hrun

end Erabi.Worker
