/-
# The worker is one sequential object

The operations that were executed are the first that were admitted, in the order of their
admission, and every result that a caller gets is the one of its own operation at its own
place.  A worker that has closed has executed all of them.
-/
import Erabi.Worker.Delivery

namespace Erabi.Worker

variable {δ ρ : Type} {s s' t : WorkerState δ ρ} {c : ℕ}

/-! ## Sequential execution -/

/-- Operations one after the other, with their results, unless one panics. -/
def runAll : List (Operation δ ρ) → δ → Option (δ × List ρ)
  | [], connection => some (connection, [])
  | operation :: operations, connection => do
      let (connection, result) ← operation connection
      let (connection, results) ← runAll operations connection
      return (connection, result :: results)

/-- Operations run when the first and the others do. -/
theorem runAll_cons_eq_some {operation : Operation δ ρ} {operations : List (Operation δ ρ)}
    {before after : δ} {results : List ρ} :
    runAll (operation :: operations) before = some (after, results) ↔
      ∃ between result rest, operation before = some (between, result) ∧
        runAll operations between = some (after, rest) ∧ results = result :: rest := by
  simp only [runAll, Option.bind_eq_bind, Option.bind_eq_some_iff, Prod.exists]
  constructor
  · rintro ⟨between, result, hresult, after', rest, hrest, h⟩
    cases h
    exact ⟨between, result, rest, hresult, hrest, rfl⟩
  · rintro ⟨between, result, rest, hresult, hrest, rfl⟩
    exact ⟨between, result, hresult, after, rest, hrest, rfl⟩

/-- One more operation at the end. -/
theorem runAll_append {operations : List (Operation δ ρ)} {operation : Operation δ ρ}
    {before between after : δ} {results : List ρ} {result : ρ}
    (hbefore : runAll operations before = some (between, results))
    (hlast : operation between = some (after, result)) :
    runAll (operations ++ [operation]) before = some (after, results ++ [result]) := by
  induction operations generalizing before results with
  | nil =>
    cases hbefore
    exact runAll_cons_eq_some.mpr ⟨after, result, [], hlast, rfl, rfl⟩
  | cons first operations ih =>
    obtain ⟨middle, r, rest, hfirst, hrest, rfl⟩ := runAll_cons_eq_some.mp hbefore
    exact runAll_cons_eq_some.mpr ⟨middle, r, rest ++ [result], hfirst, ih hrest, rfl⟩

/-! ## What is still to be executed -/

/-- The envelope of an admitted operation. -/
def envelopeOf (admission : ℕ × Operation δ ρ) : JobEnvelope δ ρ := .new admission.1 admission.2

/-- What the worker has still to execute is what it holds and what is queued, until a panic
takes the queue away. -/
def WorkerPhase.Due (l : Lifecycle) (queue : List (JobEnvelope δ ρ))
    (rest : List (ℕ × Operation δ ρ)) : WorkerPhase δ ρ → Prop
  | .executing job => ∃ next rest', rest = next :: rest' ∧ job = envelopeOf next ∧
      (l ≠ .panicked → queue = rest'.map envelopeOf)
  | .panicking _ | .failing .. => True
  | .exited end_ => end_ = .closed → rest = []
  | .opening | .opened | .announcing | .looping | .waiting _ | .responding .. | .releasing _
  | .aborted => l ≠ .panicked → queue = rest.map envelopeOf

namespace WorkerPhase.Due

variable {l : Lifecycle} {queue : List (JobEnvelope δ ρ)} {rest : List (ℕ × Operation δ ρ)}
  {p : WorkerPhase δ ρ}

/-- A notification does not change what is due. -/
theorem notified (h : p.Due l queue rest) : p.notified.Due l queue rest := by
  cases p <;> exact h

/-- The lifecycle matters only as far as there was a panic. -/
theorem lifecycle {l' : Lifecycle} (h : p.Due l queue rest) (hl : l = .panicked → l' = .panicked) :
    p.Due l' queue rest := by
  have hne : l' ≠ .panicked → l ≠ .panicked := fun hl' heq => hl' (hl heq)
  cases p with
  | executing job =>
    obtain ⟨next, rest', hrest, hjob, hqueue⟩ := h
    exact ⟨next, rest', hrest, hjob, fun hl' => hqueue (hne hl')⟩
  | panicking | failing | exited => exact h
  | opening | opened | announcing | looping | waiting | responding | releasing | aborted =>
    exact fun hl' => h (hne hl')

/-- A panic takes the queue away. -/
theorem panicked (h : p.Due l queue rest) : p.notified.Due .panicked [] rest := by
  cases p with
  | executing job =>
    obtain ⟨next, rest', hrest, hjob, -⟩ := h
    exact ⟨next, rest', hrest, hjob, fun hl => absurd rfl hl⟩
  | panicking | failing | exited => exact h
  | opening | opened | announcing | looping | waiting | responding | releasing | aborted =>
    exact fun hl => absurd rfl hl

/-- An admission is due last. -/
theorem enqueue (h : p.Due .running queue rest) (hfits : p.Fits .running)
    (admission : ℕ × Operation δ ρ) :
    p.notified.Due .running (queue ++ [envelopeOf admission]) (rest ++ [admission]) := by
  cases p with
  | executing job =>
    obtain ⟨next, rest', rfl, hjob, hqueue⟩ := h
    refine ⟨next, rest' ++ [admission], rfl, hjob, fun hl => ?_⟩
    rw [hqueue hl, List.map_append]
    rfl
  | panicking | failing => trivial
  | exited => rcases hfits with ⟨-, h | h⟩ | ⟨-, h⟩ <;> cases h
  | opening | opened | announcing | looping | waiting | responding | releasing | aborted =>
    intro hl
    rw [h hl, List.map_append]
    rfl

end WorkerPhase.Due

/-- The first operations have been executed, the rest is due. -/
structure Serial (connection : δ) (s : WorkerState δ ρ) (done rest : List (ℕ × Operation δ ρ)) :
    Prop where
  history : s.history = done ++ rest
  ran : runAll (done.map Prod.snd) connection = some (s.connection, s.executed.map Prod.snd)
  callers : s.executed.map Prod.fst = done.map Prod.fst
  due : s.worker.Due s.lifecycle s.queue rest

namespace Serial

variable {connection : δ} {done rest : List (ℕ × Operation δ ρ)}

/-- A step that executes and admits nothing. -/
theorem frame (h : Serial connection s done rest) (hhistory : t.history = s.history)
    (hconnection : t.connection = s.connection) (hexecuted : t.executed = s.executed)
    (hdue : t.worker.Due t.lifecycle t.queue rest) : Serial connection t done rest :=
  ⟨hhistory.trans h.history, by rw [hconnection, hexecuted]; exact h.ran,
    by rw [hexecuted]; exact h.callers, hdue⟩

/-- The beginning of a shutdown changes nothing that is due. -/
theorem beginShutdown (h : Serial connection s done rest) :
    Serial connection s.beginShutdown done rest := by
  unfold WorkerState.beginShutdown
  split
  · exact h.frame rfl rfl rfl h.due.panicked
  · refine h.frame rfl rfl rfl (h.due.notified.lifecycle fun hl => ?_)
    change (if s.lifecycle = .running then Lifecycle.closing else s.lifecycle) = _
    rw [hl, if_neg (by decide)]

/-- The operation that was due first is executed. -/
theorem execute (h : Serial connection s done rest) {job : JobEnvelope δ ρ}
    {operation : Operation δ ρ} {after : δ} {result : ρ} (hworker : s.worker = .executing job)
    (hoperation : job.operation = some operation)
    (hresult : operation s.connection = some (after, result)) :
    ∃ next rest', rest = next :: rest' ∧ job = envelopeOf next ∧
      Serial connection { s with
        connection := after
        executed := s.executed ++ [(job.caller, result)]
        worker := .responding { job with operation := none } result } (done ++ [next]) rest' := by
  have hdue := h.due
  rw [hworker] at hdue
  obtain ⟨next, rest', rfl, rfl, hqueue⟩ := hdue
  cases hoperation
  refine ⟨next, rest', rfl, rfl, ?_, ?_, ?_, hqueue⟩
  · rw [List.append_assoc]
    exact h.history
  · rw [List.map_append, List.map_append]
    exact runAll_append h.ran hresult
  · rw [List.map_append, List.map_append, h.callers]
    rfl

/-- A worker that looks at the queue finds what is due. -/
theorem looks (h : Serial connection s done rest) (hworker : s.worker.Looks)
    (hlifecycle : s.lifecycle ≠ .panicked) : s.queue = rest.map envelopeOf := by
  have hdue := h.due
  rcases hworker with hw | hw <;> rw [hw] at hdue <;> exact hdue hlifecycle

/-- Every move keeps execution serial. -/
theorem moves {t : Turn} (h : Serial connection s done rest) (hcoherent : Coherent s)
    (hmoves : Moves s t s') : ∃ done' rest', Serial connection s' done' rest' := by
  have hfits := hcoherent.fits
  have hdue := h.due
  have hsame : s'.history = s.history → s'.connection = s.connection →
      s'.executed = s.executed → s'.worker.Due s'.lifecycle s'.queue rest →
        ∃ done' rest', Serial connection s' done' rest' :=
    fun hhistory hconnection hexecuted hdue =>
      ⟨done, rest, h.frame hhistory hconnection hexecuted hdue⟩
  cases hmoves with
  | acquires | barred | refused | observes | callerFails | callerPanics | receives | loses
  | closerFails => exact hsame rfl rfl rfl hdue
  -- the admission is the point at which an operation takes its place in the order
  | @admits c operation hphase hrunning =>
    refine ⟨done, rest ++ [(c, operation)], ?_, h.ran, h.callers, ?_⟩
    · change s.history ++ [(c, operation)] = _
      rw [h.history, List.append_assoc]
    · rw [hrunning] at hdue hfits
      have hadmit := hdue.enqueue hfits (c, operation)
      rw [← hrunning] at hadmit
      exact hadmit
  | poisonedAdmission | poisonedObservation => exact hsame rfl rfl rfl hdue.panicked
  | opens hworker | aborts hworker =>
    rw [hworker] at hdue
    exact hsame rfl rfl rfl hdue
  | runs hworker =>
    rw [hworker] at hdue hfits
    exact hsame rfl rfl rfl fun _ => hdue (by rw [show s.lifecycle = _ from hfits]; decide)
  | announces hworker =>
    rw [hworker] at hdue
    exact hsame rfl rfl rfl hdue
  | findsPoisoned | findsPanicked | transitions | panics =>
    exact hsame rfl rfl rfl trivial
  -- the oldest admitted operation is the one taken from the queue
  | @finds job jobs hworker hqueue =>
    have hlifecycle : s.lifecycle ≠ .panicked := by
      rcases (hcoherent.queued (by rw [hqueue]; simp)).1 with hl | hl <;> rw [hl] <;> decide
    have hrest := h.looks hworker hlifecycle
    rw [hqueue] at hrest
    cases rest with
    | nil => cases hrest
    | cons next rest' =>
      cases hrest
      exact hsame rfl rfl rfl ⟨next, rest', rfl, rfl, fun _ => rfl⟩
  | sleeps hworker => exact hsame rfl rfl rfl fun hl => h.looks hworker hl
  | closes hworker hqueue hlifecycle =>
    have hrest := h.looks hworker (by rw [hlifecycle]; decide)
    rw [hqueue] at hrest
    exact hsame rfl rfl rfl fun _ => List.map_eq_nil_iff.mp hrest.symm
  | findsClosed hworker hqueue hlifecycle =>
    have hserves := hworker.serves hfits
    rw [hlifecycle] at hserves
    rcases hserves with hl | hl | hl <;> cases hl
  -- the execution is the only turn that touches the connection
  | executes hworker hoperation hresult =>
    obtain ⟨next, rest', -, -, hserial⟩ := h.execute hworker hoperation hresult
    exact ⟨_, _, hserial⟩
  | responds hworker | releases hworker =>
    rw [hworker] at hdue
    exact hsame rfl rfl rfl hdue
  | failsCurrent | workerFails => exact hsame rfl rfl rfl trivial
  | exits => exact hsame rfl rfl rfl fun hclosed => by cases hclosed

/-- Every event keeps execution serial. -/
theorem happens (h : Serial connection s done rest) (hhappens : Happens s s') :
    Serial connection s' done rest := by
  have hdue := h.due
  cases hhappens with
  | call | drop | poison => exact h.frame rfl rfl rfl hdue
  | shutdown => exact h.beginShutdown
  | wake => exact h.frame rfl rfl rfl hdue.notified
  | openFails hworker =>
    rw [hworker] at hdue
    exact h.frame rfl rfl rfl hdue
  | announceFails hworker =>
    rw [hworker] at hdue
    exact beginShutdown (h.frame rfl rfl rfl hdue)
  | unwind => exact h.frame rfl rfl rfl trivial

/-- In every reachable state execution was serial. -/
theorem reachable {capacity : ℕ} (h : s.Reachable capacity connection) :
    ∃ done rest, Serial connection s done rest := by
  have hboth : Coherent s ∧ ∃ done rest, Serial connection s done rest :=
    h.induction (I := fun s => Coherent s ∧ ∃ done rest, Serial connection s done rest)
      ⟨.new capacity connection, [], [], rfl, rfl, rfl, fun _ => rfl⟩
      (fun _ _ _ ⟨hs, _, _, hserial⟩ hmoves => ⟨hs.moves hmoves, hserial.moves hs hmoves⟩)
      fun _ _ ⟨hs, _, _, hserial⟩ hhappens => ⟨hs.happens hhappens, _, _, hserial.happens hhappens⟩
  exact hboth.2

end Serial

/-! ## What the callers are told -/

/-- The result is about to be sent, or a panic keeps it back. -/
def WorkerPhase.Owes (execution : ℕ × ρ) : WorkerPhase δ ρ → Prop
  | .responding job result => job.responder = true ∧ (job.caller, result) = execution
  | .panicking _ | .failing .. => True
  | .exited end_ => end_ = .panicked
  | .opening | .opened | .announcing | .looping | .waiting _ | .executing _ | .releasing _
  | .aborted => False

/-- The results that callers get are those of the executions, and none is kept back
without a panic. -/
structure Told (s : WorkerState δ ρ) : Prop where
  executed : ∀ c result, s.response c = some (.ok result) → (c, result) ∈ s.executed
  answered : ∀ execution ∈ s.executed,
    s.response execution.1 = some (.ok execution.2) ∨ s.worker.Owes execution
  responding : ∀ job result, s.worker = .responding job result →
    (job.caller, result) ∈ s.executed ∧ job.responder = true

/-- The caller of a job that still can be answered was not. -/
theorem Delivers.unanswered (h : Delivers s) {job : JobEnvelope δ ρ} (hjob : job ∈ s.envelopes)
    (hresponder : job.responder = true) : s.Unanswered job.caller := by
  by_contra hnot
  have hzero := h.pending job.caller
  rw [if_neg hnot] at hzero
  have hone := List.sum_eq_zero_iff.mp hzero _ (List.mem_map_of_mem hjob)
  unfold JobEnvelope.answerTo at hone
  rw [if_pos ⟨hresponder, rfl⟩] at hone
  cases hone

namespace Told

/-- A new worker has told nobody anything. -/
theorem new (capacity : ℕ) (connection : δ) :
    Told (.new capacity connection : WorkerState δ ρ) where
  executed c result hc := by cases hc
  answered execution hexecution := by cases hexecution
  responding job result hworker := by cases hworker

/-- A step that answers nobody. -/
theorem frame (h : Told s) (hresponse : ∀ c, t.response c = s.response c)
    (hexecuted : t.executed = s.executed)
    (howes : ∀ execution, s.worker.Owes execution → t.worker.Owes execution)
    (hresponding : ∀ job result, t.worker = .responding job result →
      s.worker = .responding job result) : Told t where
  executed c result hc := by
    rw [hexecuted]
    exact h.executed c result ((hresponse c).symm.trans hc)
  answered execution hexecution := by
    rw [hresponse]
    exact (h.answered execution (hexecuted ▸ hexecution)).imp id (howes execution)
  responding job result hworker := by
    rw [hexecuted]
    exact h.responding job result (hresponding job result hworker)

/-- A job is failed, whose caller had no answer. -/
theorem fail (h : Told s) (hdelivers : Delivers s) {job : JobEnvelope δ ρ}
    (hjob : job ∈ s.envelopes) (hresponse : ∀ c, t.response c = s.response c)
    (hexecuted : t.executed = s.executed) (hworker : t.worker = s.worker ∨
      (∃ jobs, t.worker = .failing none jobs) ∧ ∃ current jobs, s.worker = .failing current jobs) :
    Told (t.fail job) := by
  -- failing a job overwrites no answer, since the caller of a queued job has none
  have hgrows : ∀ c result, s.response c = some (.ok result) →
      (t.fail job).response c = some (.ok result) := by
    intro c result hc
    by_cases hself : job.responder = true ∧ c = job.caller
    · have hnone := (hdelivers.unanswered hjob hself.1).2
      rw [← hself.2, hc] at hnone
      cases hnone
    · rw [WorkerState.fail, WorkerState.response_respond_ne]
      · exact (hresponse c).trans hc
      · by_cases hresponder : job.responder = true
        · exact Or.inr fun heq => hself ⟨hresponder, heq⟩
        · exact Or.inl (by simpa using hresponder)
  have howes : ∀ execution, s.worker.Owes execution → (t.fail job).worker.Owes execution := by
    intro execution ho
    change t.worker.Owes execution
    rcases hworker with hw | ⟨⟨jobs, hw⟩, -⟩
    · rwa [hw]
    · rw [hw]
      trivial
  refine ⟨fun c result hc => ?_, fun execution hexecution => ?_, fun other result hw => ?_⟩
  · change (c, result) ∈ t.executed
    rw [hexecuted]
    by_cases hself : job.responder = true ∧ c = job.caller ∧ c < t.callers.length
    · obtain ⟨hresponder, rfl, hlength⟩ := hself
      have hnew : (t.fail job).response job.caller = some (.error .panicked) :=
        WorkerState.response_respond_self (s := t.release job.permit) hresponder hlength
      rw [hnew] at hc
      cases hc
    · refine h.executed c result ?_
      rw [← hresponse, ← hc]
      by_cases hlength : c < t.callers.length
      · refine (WorkerState.response_respond_ne (s := t.release job.permit) ?_).symm
        by_cases hresponder : job.responder = true
        · exact Or.inr fun heq => hself ⟨hresponder, heq, hlength⟩
        · exact Or.inl (by simpa using hresponder)
      · unfold WorkerState.response
        rw [List.getElem?_eq_none (not_lt.mp hlength), List.getElem?_eq_none]
        rw [WorkerState.fail, WorkerState.length_respond]
        exact not_lt.mp hlength
  · rcases h.answered execution (hexecuted ▸ hexecution) with ha | ho
    · exact Or.inl (hgrows _ _ ha)
    · exact Or.inr (howes execution ho)
  · change t.worker = _ at hw
    rcases hworker with hsame | ⟨⟨jobs, hfailing⟩, -⟩
    · have hresponding := h.responding other result (hsame ▸ hw)
      exact ⟨hexecuted ▸ hresponding.1, hresponding.2⟩
    · rw [hfailing] at hw
      cases hw

/-- A notification changes no debt. -/
theorem owes_notified {p : WorkerPhase δ ρ} {execution : ℕ × ρ} (h : p.Owes execution) :
    p.notified.Owes execution := by
  cases p <;> exact h

/-- A worker that responds was not woken. -/
theorem responding_of_notified {p : WorkerPhase δ ρ} {job : JobEnvelope δ ρ} {result : ρ}
    (h : p.notified = .responding job result) : p = .responding job result := by
  cases p <;> first | exact h | cases h

/-- The worker goes on and has told all it owed. -/
theorem proceed (h : Told s) (hcallers : t.callers = s.callers) (hexecuted : t.executed = s.executed)
    (howes : ∀ execution, s.worker.Owes execution → t.worker.Owes execution)
    (hresponding : ∀ job result, t.worker ≠ .responding job result) : Told t :=
  h.frame (fun c => by rw [WorkerState.response, WorkerState.response, hcallers]) hexecuted howes
    fun job result hworker => absurd hworker (hresponding job result)

/-- A worker that is about to look at the queue owes nothing. -/
theorem not_owes_of_looks {p : WorkerPhase δ ρ} (h : p.Looks) (execution : ℕ × ρ) :
    ¬ p.Owes execution := by
  rcases h with rfl | rfl <;> exact id

/-- Every move tells callers their own results. -/
theorem moves {t : Turn} (h : Told s) (hdelivers : Delivers s) (hserial : ∃ connection done rest,
    Serial connection s done rest) (hmoves : Moves s t s') : Told s' := by
  cases hmoves with
  | acquires | barred | refused | observes | callerPanics | receives | loses =>
    exact h.frame (fun c => WorkerState.response_move c) rfl (fun _ => id) fun _ _ => id
  | admits | poisonedAdmission | poisonedObservation =>
    exact h.frame (fun c => WorkerState.response_move c) rfl (fun _ => owes_notified)
      fun _ _ => responding_of_notified
  | @callerFails c permit job jobs hphase =>
    refine h.fail (t := s.move c (.failing permit jobs)) hdelivers ?_
      (fun d => WorkerState.response_move d) rfl (Or.inl rfl)
    obtain ⟨caller, hcaller, hjobs⟩ := WorkerState.phase_eq_some.mp hphase
    refine List.mem_append_left _ (List.mem_append_right _ (List.mem_flatMap.mpr
      ⟨caller, List.mem_of_getElem? hcaller, ?_⟩))
    rw [hjobs]
    exact List.mem_cons_self
  | @closerFails k job jobs hcloser =>
    refine h.fail (t := { s with closers := s.closers.set k jobs }) hdelivers ?_ (fun _ => rfl) rfl
      (Or.inl rfl)
    exact List.mem_append_right _ (List.mem_flatten.mpr
      ⟨job :: jobs, List.mem_of_getElem? hcloser, List.mem_cons_self⟩)
  | @failsCurrent job jobs hworker | @workerFails job jobs hworker =>
    refine h.fail (t := s.proceed (.failing none jobs)) hdelivers ?_ (fun _ => rfl) rfl
      (Or.inr ⟨⟨jobs, rfl⟩, _, _, hworker⟩)
    refine List.mem_append_left _ (List.mem_append_left _ (List.mem_append_left _ ?_))
    rw [hworker]
    exact List.mem_cons_self
  | opens hworker | aborts hworker | runs hworker | announces hworker =>
    refine h.proceed rfl rfl (fun execution ho => ?_) fun _ _ hw => by cases hw
    rw [hworker] at ho
    exact ho
  | findsPoisoned hworker | finds hworker | sleeps hworker | closes hworker
  | findsClosed hworker | findsPanicked hworker =>
    exact h.proceed rfl rfl (fun execution ho => absurd ho (not_owes_of_looks hworker execution))
      fun _ _ hw => by cases hw
  -- from its execution to its answer the worker owes the result
  | @executes job operation connection result hworker =>
    have hresponder : job.responder = true := by
      obtain ⟨_, _, _, hs⟩ := hserial
      have hdue := hs.due
      rw [hworker] at hdue
      obtain ⟨next, rest', -, rfl, -⟩ := hdue
      rfl
    refine ⟨fun c r hc => ?_, fun execution hexecution => ?_, fun other r hw => ?_⟩
    · exact List.mem_append_left _ (h.executed c r hc)
    · rcases List.mem_append.mp hexecution with hold | hnew
      · refine Or.inl ((h.answered execution hold).resolve_right fun ho => ?_)
        rw [hworker] at ho
        exact ho
      · exact Or.inr ⟨hresponder, (List.mem_singleton.mp hnew).symm⟩
    · cases hw
      exact ⟨List.mem_append_right _ (List.mem_singleton_self _), hresponder⟩
  | panics hworker | transitions hworker =>
    exact h.proceed rfl rfl (fun _ _ => trivial) fun _ _ hw => by cases hw
  -- the caller is told what was executed, and nobody else is told anything
  | @responds job result hworker =>
    obtain ⟨hexecuted, hresponder⟩ := h.responding job result hworker
    have hunanswered : s.Unanswered job.caller := by
      refine hdelivers.unanswered ?_ hresponder
      refine List.mem_append_left _ (List.mem_append_left _ (List.mem_append_left _ ?_))
      rw [hworker]
      exact List.mem_cons_self
    have hnew : (s.respond job (.ok result)).response job.caller = some (.ok result) :=
      WorkerState.response_respond_self hresponder (hdelivers.known _ hunanswered.1)
    have hold : ∀ c, c ≠ job.caller → (s.respond job (.ok result)).response c = s.response c :=
      fun c hc => WorkerState.response_respond_ne (Or.inr hc)
    refine ⟨fun c r hc => ?_, fun execution hexecution => Or.inl ?_, fun other r hw => by cases hw⟩
    · change (s.respond job (.ok result)).response c = _ at hc
      by_cases hself : c = job.caller
      · rw [hself, hnew] at hc
        cases hc
        rw [hself]
        exact hexecuted
      · rw [hold c hself] at hc
        exact h.executed c r hc
    · change (s.respond job (.ok result)).response execution.1 = _
      rcases h.answered execution hexecution with ha | ho
      · rw [hold, ha]
        intro hself
        have hnone := hunanswered.2
        rw [← hself, ha] at hnone
        cases hnone
      · rw [hworker] at ho
        obtain ⟨-, rfl⟩ := ho
        exact hnew
  | releases hworker =>
    refine h.frame (fun _ => rfl) rfl (fun execution ho => ?_) fun _ _ hw => by cases hw
    rw [hworker] at ho
    exact ho
  | exits hworker => exact h.proceed rfl rfl (fun _ _ => rfl) fun _ _ hw => by cases hw

/-- The beginning of a shutdown tells nobody anything. -/
theorem beginShutdown (h : Told s) : Told s.beginShutdown := by
  obtain ⟨hcallers, hworker, -, hexecuted, -⟩ := WorkerState.beginShutdown_spec s
  refine h.frame (fun c => ?_) hexecuted (fun execution ho => ?_) fun job result hw => ?_
  · unfold WorkerState.response
    rw [hcallers]
  · rw [hworker]
    exact owes_notified ho
  · exact responding_of_notified (hworker.symm.trans hw)

/-- Every event tells callers their own results. -/
theorem happens (h : Told s) (hhappens : Happens s s') : Told s' := by
  cases hhappens with
  | call operation hstarted =>
    exact h.frame WorkerState.response_call rfl (fun _ => id) fun _ _ => id
  | drop => exact h.frame (fun c => WorkerState.response_move c) rfl (fun _ => id) fun _ _ => id
  | shutdown => exact h.beginShutdown
  | poison => exact h.frame (fun _ => rfl) rfl (fun _ => id) fun _ _ => id
  | wake =>
    exact h.frame (fun _ => rfl) rfl (fun _ => owes_notified) fun _ _ => responding_of_notified
  | openFails hworker =>
    refine h.proceed rfl rfl (fun execution ho => ?_) fun _ _ hw => by cases hw
    rw [hworker] at ho
    exact ho
  | announceFails hworker =>
    refine beginShutdown (h.proceed rfl rfl (fun execution ho => ?_) fun _ _ hw => by cases hw)
    rw [hworker] at ho
    exact ho
  | unwind => exact h.proceed rfl rfl (fun _ _ => trivial) fun _ _ hw => by cases hw

/-- In every reachable state callers were told their own results. -/
theorem reachable {capacity : ℕ} {connection : δ} (h : s.Reachable capacity connection) :
    Told s := by
  have hall : Coherent s ∧ Delivers s ∧ (∃ done rest, Serial connection s done rest) ∧ Told s := by
    refine h.induction (I := fun s => Coherent s ∧ Delivers s ∧
      (∃ done rest, Serial connection s done rest) ∧ Told s) ?_ ?_ ?_
    · exact ⟨.new capacity connection, .new capacity connection,
        ⟨[], [], rfl, rfl, rfl, fun _ => rfl⟩, new capacity connection⟩
    · rintro s t s' ⟨hs, hdelivers, ⟨done, rest, hserial⟩, htold⟩ hmoves
      exact ⟨hs.moves hmoves, hdelivers.moves hs hmoves, hserial.moves hs hmoves,
        htold.moves hdelivers ⟨connection, done, rest, hserial⟩ hmoves⟩
    · rintro s s' ⟨hs, hdelivers, ⟨done, rest, hserial⟩, htold⟩ hhappens
      exact ⟨hs.happens hhappens, hdelivers.happens hhappens,
        ⟨done, rest, hserial.happens hhappens⟩, htold.happens hhappens⟩
  exact hall.2.2.2

end Told

/-! ## The worker as a sequential object -/

/-- Why a shutdown fails. -/
inductive ShutdownError where
  | completionLost
  | joinFailed
  | panicked
  deriving DecidableEq, Repr

/-- What `shutdown` makes of the lifecycle that the worker thread has ended with. -/
def shutdownOutcome : Lifecycle → Except ShutdownError Unit
  | .closed => .ok ()
  | .panicked => .error .panicked
  | .starting | .running | .closing => .error .joinFailed

/-- A worker thread that has ended takes no more turns, and no caller is admitted. -/
theorem exited_moves {turn : Turn} {end_ : Lifecycle} (hcoherent : Coherent s)
    (hworker : s.worker = .exited end_) (hmoves : Moves s turn t) :
    t.worker = .exited end_ ∧ t.history = s.history ∧ t.connection = s.connection := by
  have hnotified : s.worker.notified = .exited end_ := by
    rw [hworker]
    rfl
  have hnotLooks : ¬ s.worker.Looks := by
    rw [hworker]
    rintro (h | h) <;> cases h
  cases hmoves with
  | acquires | barred | refused | observes | callerFails | callerPanics | receives | loses
  | closerFails => exact ⟨hworker, rfl, rfl⟩
  | admits hphase hrunning =>
    have hfits := hcoherent.fits
    rw [hworker, hrunning] at hfits
    rcases hfits with ⟨-, h | h⟩ | ⟨-, h⟩ <;> cases h
  | poisonedAdmission | poisonedObservation => exact ⟨hnotified, rfl, rfl⟩
  | findsPoisoned hw | finds hw | sleeps hw | closes hw | findsClosed hw | findsPanicked hw =>
    exact absurd hw hnotLooks
  | opens hw | aborts hw | runs hw | announces hw | executes hw | panics hw | responds hw
  | releases hw | transitions hw | failsCurrent hw | workerFails hw | exits hw =>
    rw [hworker] at hw
    cases hw

/-- An exited worker executes nothing more. -/
theorem exited_happens {end_ : Lifecycle} (hworker : s.worker = .exited end_)
    (hhappens : Happens s t) :
    t.worker = .exited end_ ∧ t.history = s.history ∧ t.connection = s.connection := by
  cases hhappens with
  | call | drop | poison => exact ⟨hworker, rfl, rfl⟩
  | shutdown =>
    obtain ⟨-, hnotified, hhistory, -, hconnection⟩ := WorkerState.beginShutdown_spec s
    exact ⟨by rw [hnotified, hworker]; rfl, hhistory, hconnection⟩
  | wake =>
    refine ⟨?_, rfl, rfl⟩
    change s.worker.notified = _
    rw [hworker]
    rfl
  | openFails hw | announceFails hw =>
    rw [hworker] at hw
    cases hw
  | unwind hw =>
    rw [hworker] at hw
    rcases hw with h | ⟨_, h⟩ | h <;> cases h

theorem exited_forever {capacity : ℕ} {connection : δ} {end_ : Lifecycle}
    (h : s.Reachable capacity connection) (hworker : s.worker = .exited end_)
    (hlater : Relation.ReflTransGen WorkerState.Step s t) :
    t.worker = .exited end_ ∧ t.history = s.history ∧ t.connection = s.connection := by
  induction hlater with
  | refl => exact ⟨hworker, rfl, rfl⟩
  | @tail a b hbefore hstep ih =>
    obtain ⟨hexited, hhistory, hconnection⟩ := ih
    have hcoherent : Coherent a := Coherent.reachable (h.trans hbefore)
    have hnext : b.worker = .exited end_ ∧ b.history = a.history ∧ b.connection = a.connection := by
      cases hstep with
      | turn turn hturn => exact exited_moves hcoherent hexited (WorkerState.turn_moves hturn)
      | event e he => exact exited_happens hexited (WorkerState.occur_happens he)
    exact ⟨hnext.1, hnext.2.1.trans hhistory, hnext.2.2.trans hconnection⟩

/-- Once `shutdown` succeeds, every operation that was ever admitted has been executed in the
order of its admission, each of their callers has been given its own result, and from then
on nothing is admitted and the connection does not change. -/
theorem drained_of_shutdown {capacity : ℕ} {connection : δ} {end_ : Lifecycle}
    (h : s.Reachable capacity connection) (hworker : s.worker = .exited end_)
    (hshutdown : shutdownOutcome end_ = .ok ())
    (hlater : Relation.ReflTransGen WorkerState.Step s t) :
    ∃ results, runAll (t.history.map Prod.snd) connection = some (t.connection, results) ∧
      t.history = s.history ∧
        ∀ (k : ℕ) c, t.admitted[k]? = some c →
          ∃ result, results[k]? = some result ∧ t.response c = some (.ok result) := by
  have hclosed : end_ = .closed := by
    cases end_ <;> first | rfl | cases hshutdown
  subst hclosed
  obtain ⟨hexited, hhistory, -⟩ := exited_forever h hworker hlater
  have hreachable : t.Reachable capacity connection := h.trans hlater
  obtain ⟨done, rest, hserial⟩ := Serial.reachable hreachable
  have htold := Told.reachable hreachable
  have hrest : rest = [] := by
    have hdue := hserial.due
    rw [hexited] at hdue
    exact hdue rfl
  have hdone : t.history = done := by rw [hserial.history, hrest, List.append_nil]
  refine ⟨t.executed.map Prod.snd, by rw [hdone]; exact hserial.ran, hhistory,
    fun k c hc => ?_⟩
  rw [WorkerState.admitted, hdone, ← hserial.callers, List.getElem?_map] at hc
  obtain ⟨execution, hexecution, rfl⟩ := Option.map_eq_some_iff.mp hc
  refine ⟨execution.2, by rw [List.getElem?_map, hexecution]; rfl, ?_⟩
  refine (htold.answered execution (List.mem_of_getElem? hexecution)).resolve_right fun ho => ?_
  rw [hexited] at ho
  cases ho

/-- After the shutdown of the sample everything admitted was answered. -/
theorem drained_poisoned :
    ∃ results, runAll (drained.history.map Prod.snd) 40 = some (drained.connection, results) ∧
      drained.history = served.history ∧ ∀ (k : ℕ) c, drained.admitted[k]? = some c →
        ∃ result, results[k]? = some result ∧ drained.response c = some (.ok result) := by
  have hlater : Relation.ReflTransGen WorkerState.Step drained { drained with poisoned := true } :=
    .single (.event .poison rfl)
  obtain ⟨results, hran, -, hanswers⟩ :=
    drained_of_shutdown drained_reachable rfl rfl hlater
  exact ⟨results, hran, rfl, hanswers⟩

end Erabi.Worker
