/-
# Every admitted caller is answered once

An admitted caller without an answer has exactly one envelope with its responder, a caller
that was not admitted has none, and what a caller is told fits what became of its job.
-/
import Erabi.Worker.Answers

namespace Erabi.Worker

variable {δ ρ : Type} {s s' t : WorkerState δ ρ} {c : ℕ}

/-- One for an envelope that can answer the caller. -/
def JobEnvelope.answerTo (c : ℕ) (job : JobEnvelope δ ρ) : ℕ :=
  if job.responder = true ∧ job.caller = c then 1 else 0

namespace WorkerState

/-- The callers that were admitted, in order. -/
def admitted (s : WorkerState δ ρ) : List ℕ := s.history.map Prod.fst

/-- The number of envelopes that can answer a caller. -/
def pending (s : WorkerState δ ρ) (c : ℕ) : ℕ := s.total (JobEnvelope.answerTo c)

/-- The caller was admitted, and there is no answer yet. -/
def Unanswered (s : WorkerState δ ρ) (c : ℕ) : Prop :=
  c ∈ s.admitted ∧ (s.response c).isNone = true

instance (s : WorkerState δ ρ) (c : ℕ) : Decidable (s.Unanswered c) :=
  inferInstanceAs (Decidable (_ ∧ _))

/-- What the phase of a caller says about its job. -/
def Settled (s : WorkerState δ ρ) (c : ℕ) : CallerPhase δ ρ → Prop
  | .acquiring _ | .permitted _ | .observing | .returned (.error .shuttingDown) => c ∉ s.admitted
  | .failing .. => c ∉ s.admitted ∧ s.lifecycle = .panicked
  | .awaiting => c ∈ s.admitted
  | .returned (.ok result) => s.response c = some (.ok result)
  | .returned (.error .panicked) => s.lifecycle = .panicked
  | .dropped => True

/-- More answers and a panic do not unsettle a caller. -/
theorem Settled.grow {p : CallerPhase δ ρ} (h : s.Settled c p) (hadmitted : t.admitted = s.admitted)
    (hresponse : ∀ answer, s.response c = some answer → t.response c = some answer)
    (hpanicked : s.lifecycle = .panicked → t.lifecycle = .panicked) : t.Settled c p := by
  cases p with
  | acquiring | permitted | observing =>
    change c ∉ t.admitted
    rwa [hadmitted]
  | failing =>
    refine ⟨?_, hpanicked h.2⟩
    rw [hadmitted]
    exact h.1
  | awaiting =>
    change c ∈ t.admitted
    rwa [hadmitted]
  | returned answer =>
    rcases answer with (_ | _) | result
    · change c ∉ t.admitted
      rwa [hadmitted]
    · exact hpanicked h
    · exact hresponse _ h
  | dropped => trivial

end WorkerState

/-- Every admitted caller is answered or can be, by one envelope. -/
structure Delivers (s : WorkerState δ ρ) : Prop where
  pending (c : ℕ) : s.pending c = if s.Unanswered c then 1 else 0
  once : s.admitted.Nodup
  known : ∀ c ∈ s.admitted, c < s.callers.length
  silent : ∀ c, c ∉ s.admitted → s.response c = none
  failed : ∀ c e, s.response c = some (.error e) → e = .panicked ∧ s.lifecycle = .panicked
  closers : s.closers ≠ [] → s.lifecycle = .panicked
  settled : ∀ c p, s.phase c = some p → s.Settled c p

namespace Delivers

/-- A new worker owes nothing. -/
theorem new (capacity : ℕ) (connection : δ) :
    Delivers (.new capacity connection : WorkerState δ ρ) where
  pending c := by
    rw [if_neg (fun h => by cases h.1)]
    rfl
  once := List.nodup_nil
  known := fun c hc => by cases hc
  silent := fun c _ => rfl
  failed := fun c e he => by cases he
  closers := fun h => absurd rfl h
  settled := fun c p hp => by cases hp

/-- A step that moves envelopes and callers, without an answer. -/
theorem step (h : Delivers s) (hpending : ∀ c, t.pending c = s.pending c)
    (hhistory : t.history = s.history) (hresponse : ∀ c, t.response c = s.response c)
    (hlength : s.callers.length ≤ t.callers.length)
    (hpanicked : s.lifecycle = .panicked → t.lifecycle = .panicked)
    (hclosers : t.closers ≠ [] → t.lifecycle = .panicked)
    (hsettled : ∀ c p, t.phase c = some p → s.phase c = some p ∨ t.Settled c p) : Delivers t := by
  have hadmitted : t.admitted = s.admitted := congrArg (List.map Prod.fst) hhistory
  refine ⟨fun c => ?_, hadmitted ▸ h.once, fun c hc => ?_, fun c hc => ?_, fun c e he => ?_,
    hclosers, fun c p hp => ?_⟩
  · have hunanswered : t.Unanswered c ↔ s.Unanswered c := by
      unfold WorkerState.Unanswered
      rw [hadmitted, hresponse]
    rw [hpending, h.pending]
    simp only [hunanswered]
  · exact (h.known c (hadmitted ▸ hc)).trans_le hlength
  · rw [hresponse]
    exact h.silent c (hadmitted ▸ hc)
  · rw [hresponse] at he
    exact ⟨(h.failed c e he).1, hpanicked (h.failed c e he).2⟩
  · rcases hsettled c p hp with hp | hp
    · exact (h.settled c p hp).grow hadmitted (fun answer ha => (hresponse c).trans ha) hpanicked
    · exact hp

/-- A caller takes a step, and the envelopes it holds stay the same. -/
theorem move (h : Delivers s) {p q : CallerPhase δ ρ} (hphase : s.phase c = some p)
    (hjobs : q.jobs = p.jobs) (hsettled : s.Settled c q) : Delivers (s.move c q) := by
  refine h.step (fun d => ?_) rfl (WorkerState.response_move) (by simp) id h.closers
    fun d r hr => ?_
  · have hmove := WorkerState.total_move (q := q) (f := JobEnvelope.answerTo d) hphase
    rw [hjobs] at hmove
    exact Nat.add_right_cancel hmove
  · rcases WorkerState.phase_move_eq_some hr with ⟨rfl, rfl⟩ | ⟨-, hr⟩
    · exact Or.inr (hsettled.grow rfl (fun answer ha => by simpa using ha) id)
    · exact Or.inl hr

/-- The worker takes a step, and the envelopes that it and the queue hold stay the same. -/
theorem work (h : Delivers s) (hcallers : t.callers = s.callers) (hhistory : t.history = s.history)
    (hclosers : t.closers = s.closers)
    (hpanicked : s.lifecycle = .panicked → t.lifecycle = .panicked)
    (hjobs : ∀ c, ((t.worker.jobs ++ t.queue).map (JobEnvelope.answerTo c)).sum =
      ((s.worker.jobs ++ s.queue).map (JobEnvelope.answerTo c)).sum) : Delivers t := by
  refine h.step (fun c => ?_) hhistory (fun c => ?_) (by rw [hcallers]) hpanicked (fun hne => ?_)
    fun c p hp => Or.inl ?_
  · have htotal := WorkerState.total_work (f := JobEnvelope.answerTo c) hcallers hclosers
    rw [hjobs] at htotal
    exact Nat.add_right_cancel htotal
  · unfold WorkerState.response
    rw [hcallers]
  · exact hpanicked (h.closers (hclosers ▸ hne))
  · unfold WorkerState.phase at hp ⊢
    rwa [← hcallers]

/-- A caller that ends the lifecycle takes over the queue's answers. -/
theorem terminalizeLocked_move (h : Delivers s) {p : CallerPhase δ ρ} {permit : Bool}
    (hphase : s.phase c = some p) (hjobs : p.jobs = []) (hsettled : c ∉ s.admitted) :
    Delivers (s.terminalizeLocked.move c (.failing permit s.queue)) := by
  refine h.step (fun d => ?_) rfl (fun d => WorkerState.response_move d)
    (WorkerState.length_move (s := s.terminalizeLocked)).ge (fun _ => rfl) (fun _ => rfl)
    fun d r hr => ?_
  · have hphase' : s.terminalizeLocked.phase c = some p := hphase
    have hmove := WorkerState.total_move (q := .failing permit s.queue)
      (f := JobEnvelope.answerTo d) hphase'
    have hterminal := WorkerState.total_terminalizeLocked (s := s) (f := JobEnvelope.answerTo d)
    rw [hjobs] at hmove
    unfold WorkerState.pending
    simp only [CallerPhase.jobs, List.map_nil, List.sum_nil] at hmove
    omega
  · rcases WorkerState.phase_move_eq_some hr with ⟨rfl, rfl⟩ | ⟨-, hr⟩
    · exact Or.inr ⟨hsettled, rfl⟩
    · exact Or.inl hr

/-- An envelope answers, and its responder is gone. -/
theorem respond (h : Delivers s) {job : JobEnvelope δ ρ} {answer : Answer ρ}
    (hpending : ∀ c, t.pending c + job.answerTo c = s.pending c)
    (hhistory : t.history = s.history) (hresponse : ∀ c, t.response c = s.response c)
    (hlength : s.callers.length ≤ t.callers.length)
    (hpanicked : s.lifecycle = .panicked → t.lifecycle = .panicked)
    (hclosers : t.closers ≠ [] → t.lifecycle = .panicked)
    (hsettled : ∀ c p, t.phase c = some p → s.phase c = some p ∨ t.Settled c p)
    (hanswer : ∀ e, answer = .error e → e = .panicked ∧ t.lifecycle = .panicked) :
    Delivers (t.respond job answer) := by
  have hadmitted : t.admitted = s.admitted := congrArg (List.map Prod.fst) hhistory
  cases hresponder : job.responder with
  | false =>
    have hnone : ∀ c, (t.respond job answer).response c = s.response c := fun c =>
      (WorkerState.response_respond_ne (Or.inl hresponder)).trans (hresponse c)
    refine h.step (fun c => ?_) hhistory hnone (by simpa using hlength) hpanicked hclosers
      fun c p hp => ?_
    · have hzero : job.answerTo c = 0 := by simp [JobEnvelope.answerTo, hresponder]
      have := hpending c
      have htotal : (t.respond job answer).pending c = t.pending c := WorkerState.total_respond
      omega
    · rw [WorkerState.phase_respond] at hp
      refine (hsettled c p hp).imp id fun hs => hs.grow rfl (fun a ha => ?_) id
      rwa [hnone c, ← hresponse c]
  | true =>
    -- The caller had no answer before, and no other envelope for one.
    have hself : job.answerTo job.caller = 1 := by simp [JobEnvelope.answerTo, hresponder]
    have hunanswered : s.Unanswered job.caller := by
      by_contra hnot
      have h₁ := hpending job.caller
      have h₂ := h.pending job.caller
      rw [if_neg hnot] at h₂
      omega
    have hnew : (t.respond job answer).response job.caller = some answer :=
      WorkerState.response_respond_self hresponder
        ((h.known _ hunanswered.1).trans_le hlength)
    have hold : ∀ c, c ≠ job.caller → (t.respond job answer).response c = s.response c :=
      fun c hc => (WorkerState.response_respond_ne (Or.inr hc)).trans (hresponse c)
    have hadmitted' : (t.respond job answer).admitted = s.admitted := hadmitted
    have hgrows : ∀ c a, s.response c = some a → (t.respond job answer).response c = some a := by
      intro c a ha
      by_cases hc : c = job.caller
      · have hnone := hunanswered.2
        rw [← hc, ha] at hnone
        cases hnone
      · rw [hold c hc, ha]
    refine ⟨fun c => ?_, hadmitted'.symm ▸ h.once, fun c hc => ?_, fun c hc => ?_, fun c e he => ?_,
      hclosers, fun c p hp => ?_⟩
    · have htotal : (t.respond job answer).pending c = t.pending c := WorkerState.total_respond
      have hone := hpending c
      have hbefore := h.pending c
      rw [htotal]
      by_cases hc : c = job.caller
      · subst hc
        rw [if_pos hunanswered] at hbefore
        rw [if_neg (fun hun => by rw [WorkerState.Unanswered, hnew] at hun; cases hun.2)]
        omega
      · have hzero : job.answerTo c = 0 := if_neg fun hj => hc hj.2.symm
        have hsame : (t.respond job answer).Unanswered c ↔ s.Unanswered c := by
          unfold WorkerState.Unanswered
          rw [hadmitted', hold c hc]
        simp only [hsame]
        omega
    · rw [WorkerState.length_respond]
      exact (h.known c (hadmitted' ▸ hc)).trans_le hlength
    · have hc' : c ∉ s.admitted := hadmitted' ▸ hc
      have hne : c ≠ job.caller := fun heq => hc' (heq ▸ hunanswered.1)
      rw [hold c hne]
      exact h.silent c hc'
    · by_cases hc : c = job.caller
      · subst hc
        rw [hnew] at he
        exact hanswer e (Option.some.inj he)
      · rw [hold c hc] at he
        exact ⟨(h.failed c e he).1, hpanicked (h.failed c e he).2⟩
    · rw [WorkerState.phase_respond] at hp
      rcases hsettled c p hp with hs | hs
      · exact (h.settled c p hs).grow hadmitted' (hgrows c) hpanicked
      · exact hs.grow rfl (fun a ha => hgrows c a ((hresponse c).symm.trans ha)) id

/-- A job is failed by the thread that has taken it. -/
theorem fail (h : Delivers s) {job : JobEnvelope δ ρ}
    (hpending : ∀ c, t.pending c + job.answerTo c = s.pending c)
    (hhistory : t.history = s.history) (hresponse : ∀ c, t.response c = s.response c)
    (hlength : s.callers.length ≤ t.callers.length) (hpanicked : t.lifecycle = .panicked)
    (hsettled : ∀ c p, t.phase c = some p → s.phase c = some p ∨ t.Settled c p) :
    Delivers (t.fail job) :=
  h.respond (t := t.release job.permit) hpending hhistory hresponse hlength (fun _ => hpanicked)
    (fun _ => hpanicked) hsettled fun _ he => ⟨(Except.error.inj he).symm, hpanicked⟩

/-- An admission owes its caller one answer. -/
theorem enqueue (h : Delivers s) {operation : Operation δ ρ}
    (hphase : s.phase c = some (.permitted operation)) : Delivers (s.enqueue c operation) := by
  have hbefore : c ∉ s.admitted := h.settled c _ hphase
  have hadmitted : (s.enqueue c operation).admitted = s.admitted ++ [c] := List.map_append
  have hresponse : ∀ d, (s.enqueue c operation).response d = s.response d := fun d =>
    WorkerState.response_move d
  have hlength : (s.enqueue c operation).callers.length = s.callers.length :=
    WorkerState.length_move
  refine ⟨fun d => ?_, ?_, fun d hd => ?_, fun d hd => ?_, fun d e he => ?_, h.closers,
    fun d p hp => ?_⟩
  -- the new job is the one answer pending for its caller
  · have htotal := WorkerState.total_admit (f := JobEnvelope.answerTo d) hphase
    have hpending := h.pending d
    unfold WorkerState.pending at hpending ⊢
    rw [htotal, hpending]
    by_cases hd : d = c
    · subst hd
      rw [if_neg (fun hun => hbefore hun.1), if_pos]
      · have hnew : (JobEnvelope.new d operation).answerTo d = 1 := if_pos ⟨rfl, rfl⟩
        rw [hnew]
      · refine ⟨by rw [hadmitted]; simp, ?_⟩
        rw [hresponse, h.silent d hbefore]
        rfl
    · have hnew : (JobEnvelope.new c operation).answerTo d = 0 := if_neg fun hj => hd hj.2.symm
      have hsame : (s.enqueue c operation).Unanswered d ↔ s.Unanswered d := by
        unfold WorkerState.Unanswered
        rw [hadmitted, hresponse]
        simp [hd]
      simp only [hnew, hsame, add_zero]
  · rw [hadmitted]
    exact List.nodup_append.mpr ⟨h.once, List.nodup_singleton c,
      fun a ha b hb hab => hbefore (List.mem_singleton.mp hb ▸ hab ▸ ha)⟩
  · rw [hlength]
    rw [hadmitted, List.mem_append, List.mem_singleton] at hd
    rcases hd with hd | rfl
    · exact h.known d hd
    · exact WorkerState.lt_of_phase hphase
  · rw [hresponse]
    exact h.silent d fun hmem => hd (by rw [hadmitted]; exact List.mem_append_left _ hmem)
  · rw [hresponse] at he
    exact h.failed d e he
  · -- Nobody else was admitted.
    have hkept : ∀ q, d ≠ c → s.Settled d q → (s.enqueue c operation).Settled d q := by
      intro q hd hq
      have hmem : d ∈ (s.enqueue c operation).admitted ↔ d ∈ s.admitted := by
        rw [hadmitted]
        simp [hd]
      cases q with
      | acquiring | permitted | observing => exact fun hin => hq (hmem.mp hin)
      | failing => exact ⟨fun hin => hq.1 (hmem.mp hin), hq.2⟩
      | awaiting => exact hmem.mpr hq
      | returned answer =>
        rcases answer with (_ | _) | result
        · exact fun hin => hq (hmem.mp hin)
        · exact hq
        · exact (hresponse d).trans hq
      | dropped => trivial
    rcases WorkerState.phase_move_eq_some hp with ⟨rfl, rfl⟩ | ⟨hd, hp⟩
    · change d ∈ (s.enqueue d operation).admitted
      rw [hadmitted]
      simp
    · exact hkept p hd (h.settled d p hp)

/-- A caller that was not admitted may be refused. -/
theorem settled_failure (hbefore : c ∉ s.admitted) :
    s.Settled c (.returned (.error (failureFor s.lifecycle))) := by
  cases hlifecycle : s.lifecycle with
  | panicked => exact hlifecycle
  | starting | running | closing | closed => exact hbefore

/-- A worker that ends the lifecycle takes over the queue's answers. -/
theorem leave (h : Delivers s) {current : Option (JobEnvelope δ ρ)}
    (hcurrent : current.toList = s.worker.jobs) :
    Delivers (s.terminalizeLocked.proceed (.failing current s.queue)) := by
  refine h.work rfl rfl rfl (fun _ => rfl) fun c => ?_
  change ((current.toList ++ s.queue ++ []).map _).sum = _
  rw [hcurrent, List.append_nil]

/-- The worker proceeds with the same answers to give. -/
theorem proceed (h : Delivers s) {p : WorkerPhase δ ρ}
    (hjobs : ∀ c, (p.jobs.map (JobEnvelope.answerTo c)).sum =
      (s.worker.jobs.map (JobEnvelope.answerTo c)).sum) : Delivers (s.proceed p) := by
  refine h.work rfl rfl rfl id fun c => ?_
  rw [List.map_append, List.map_append, List.sum_append, List.sum_append]
  exact congrArg (· + _) (hjobs c)

/-- Every move keeps what is owed. -/
theorem moves {t : Turn} (h : Delivers s) (hcoherent : Coherent s) (hmoves : Moves s t s') :
    Delivers s' := by
  have hfits := hcoherent.fits
  cases hmoves with
  | @acquires c operation hphase =>
    exact move (s := { s with available := s.available - 1 }) ⟨h.pending, h.once, h.known, h.silent,
      h.failed, h.closers, h.settled⟩ hphase rfl (h.settled _ _ hphase)
  | @barred c operation hphase =>
    have hbefore : c ∉ s.admitted := h.settled _ _ hphase
    exact h.move hphase rfl hbefore
  | admits hphase => exact h.enqueue hphase
  | @refused c operation hphase =>
    have hmove := h.move (q := .returned (.error (failureFor s.lifecycle))) hphase rfl
      (settled_failure (h.settled _ _ hphase))
    exact ⟨hmove.pending, hmove.once, hmove.known, hmove.silent, hmove.failed, hmove.closers,
      hmove.settled⟩
  | poisonedAdmission hphase | poisonedObservation hphase =>
    exact h.terminalizeLocked_move hphase rfl (h.settled _ _ hphase)
  | observes hphase =>
    exact h.move hphase rfl (settled_failure (h.settled _ _ hphase))
  | @callerFails c permit job jobs hphase =>
    have hsettled := h.settled _ _ hphase
    refine h.fail (t := s.move c (.failing permit jobs)) (fun d => ?_) rfl
      WorkerState.response_move (by simp) hsettled.2 fun d p hp => ?_
    · have hmove := WorkerState.total_move (q := .failing permit jobs)
        (f := JobEnvelope.answerTo d) hphase
      simp only [CallerPhase.jobs, List.map_cons, List.sum_cons] at hmove
      unfold WorkerState.pending
      omega
    · rcases WorkerState.phase_move_eq_some hp with ⟨rfl, rfl⟩ | ⟨-, hp⟩
      · exact Or.inr hsettled
      · exact Or.inl hp
  | @callerPanics c permit hphase =>
    have hmove := h.move (q := .returned (.error .panicked)) hphase rfl (h.settled _ _ hphase).2
    exact ⟨hmove.pending, hmove.once, hmove.known, hmove.silent, hmove.failed, hmove.closers,
      hmove.settled⟩
  | @receives c answer hphase hresponse =>
    refine h.move hphase rfl ?_
    rcases answer with e | result
    · obtain ⟨rfl, hpanicked⟩ := h.failed _ _ hresponse
      exact hpanicked
    · exact hresponse
  | @loses c hphase hresponse hlost =>
    -- An envelope for the caller is left, so its channel is not closed.
    have hone := h.pending c
    rw [if_pos ⟨h.settled _ _ hphase, by rw [hresponse]; rfl⟩] at hone
    have hzero : s.pending c = 0 := by
      refine List.sum_eq_zero fun n hn => ?_
      obtain ⟨job, hjob, rfl⟩ := List.mem_map.mp hn
      exact if_neg fun hj => hlost job hjob hj.1 hj.2
    omega
  | opens hworker | aborts hworker | exits hworker =>
    exact h.proceed fun c => by rw [hworker]; rfl
  | runs hworker =>
    have hstarting : s.lifecycle = .starting := by
      rw [hworker] at hfits
      exact hfits
    exact h.work rfl rfl rfl (fun hp => by rw [hstarting] at hp; cases hp)
      fun c => by rw [hworker]; rfl
  | announces hworker => exact h.work rfl rfl rfl id fun c => by rw [hworker]; rfl
  | findsPoisoned hworker =>
    exact h.leave (by rcases hworker with hw | hw <;> rw [hw] <;> rfl)
  | finds hworker hqueue =>
    refine h.work rfl rfl rfl id fun c => ?_
    rcases hworker with hw | hw <;> rw [hw, hqueue] <;> rfl
  | sleeps hworker | findsClosed hworker | findsPanicked hworker =>
    refine h.proceed fun c => ?_
    rcases hworker with hw | hw <;> rw [hw] <;> rfl
  | closes hworker hqueue hlifecycle =>
    refine h.work rfl rfl rfl (fun hp => by rw [hlifecycle] at hp; cases hp) fun c => ?_
    rcases hworker with hw | hw <;> rw [hw] <;> rfl
  | executes hworker | panics hworker =>
    exact h.work rfl rfl rfl id fun c => by rw [hworker]; rfl
  | @responds job result hworker =>
    refine h.respond (t := s.proceed (.releasing { job with responder := false })) (fun c => ?_)
      rfl (fun _ => rfl) le_rfl id h.closers (fun _ _ hp => Or.inl hp) (fun e he => by cases he)
    have htotal := WorkerState.total_work (f := JobEnvelope.answerTo c) (s := s)
      (t := s.proceed (.releasing { job with responder := false })) rfl rfl
    have hgone : JobEnvelope.answerTo c { job with responder := false } = 0 :=
      if_neg fun hj => by cases hj.1
    rw [hworker] at htotal
    simp only [WorkerState.proceed, WorkerPhase.jobs, List.cons_append, List.nil_append,
      List.map_cons, List.sum_cons, hgone] at htotal
    unfold WorkerState.pending WorkerState.proceed
    omega
  | @releases job hworker =>
    rw [hworker] at hfits
    have hgone : ∀ c, job.answerTo c = 0 := fun c => if_neg fun hj => by
      rw [hfits.2] at hj
      cases hj.1
    refine h.work rfl rfl rfl id fun c => ?_
    rw [hworker]
    simp [WorkerState.proceed, WorkerState.release, WorkerPhase.jobs, hgone]
  | transitions hworker => exact h.leave (by rw [hworker]; rfl)
  | @failsCurrent job jobs hworker | @workerFails job jobs hworker =>
    rw [hworker] at hfits
    refine h.fail (t := s.proceed (.failing none jobs)) (fun c => ?_) rfl (fun _ => rfl) le_rfl hfits
      fun _ _ hp => Or.inl hp
    have htotal := WorkerState.total_work (f := JobEnvelope.answerTo c) (s := s)
      (t := s.proceed (.failing none jobs)) rfl rfl
    rw [hworker] at htotal
    simp only [WorkerState.proceed, WorkerPhase.jobs, Option.toList_some, Option.toList_none,
      List.cons_append, List.nil_append, List.map_cons, List.sum_cons] at htotal
    unfold WorkerState.pending WorkerState.proceed
    omega
  | @closerFails k job jobs hcloser =>
    have hpanicked : s.lifecycle = .panicked := by
      refine h.closers fun hnil => ?_
      rw [hnil] at hcloser
      cases hcloser
    refine h.fail (t := { s with closers := s.closers.set k jobs }) (fun c => ?_) rfl (fun _ => rfl)
      le_rfl hpanicked fun _ _ hp => Or.inl hp
    have htotal := WorkerState.total_closer (f := JobEnvelope.answerTo c) hcloser jobs
    simp only [List.map_cons, List.sum_cons] at htotal
    unfold WorkerState.pending
    omega

/-- The beginning of a shutdown keeps what is owed. -/
theorem beginShutdown (h : Delivers s) : Delivers s.beginShutdown := by
  have hpending : ∀ c, s.beginShutdown.pending c = s.pending c := fun c =>
    WorkerState.total_beginShutdown
  have hpanicked : s.lifecycle = .panicked → s.beginShutdown.lifecycle = .panicked := by
    intro hp
    unfold WorkerState.beginShutdown
    split
    · rfl
    · change (if s.lifecycle = .running then _ else s.lifecycle) = _
      rw [hp, if_neg (by decide)]
  refine h.step hpending ?_ (fun c => ?_) ?_ hpanicked (fun hne => ?_) fun c p hp => Or.inl ?_
  · unfold WorkerState.beginShutdown
    split <;> rfl
  · unfold WorkerState.beginShutdown
    split <;> rfl
  · unfold WorkerState.beginShutdown
    split <;> exact le_rfl
  · by_cases hpoisoned : s.poisoned = true
    · unfold WorkerState.beginShutdown
      rw [if_pos hpoisoned]
      rfl
    · refine hpanicked (h.closers ?_)
      unfold WorkerState.beginShutdown at hne
      rwa [if_neg hpoisoned] at hne
  · unfold WorkerState.beginShutdown at hp
    split at hp <;> exact hp

/-- Every event keeps what is owed. -/
theorem happens (h : Delivers s) (hhappens : Happens s s') : Delivers s' := by
  cases hhappens with
  | call operation hstarted =>
    have hlt : ∀ {c : ℕ}, c < s.callers.length →
        (s.callers ++ [⟨.acquiring operation, none⟩])[c]? = s.callers[c]? :=
      fun hc => List.getElem?_append_left hc
    have hnew : ∀ {c : ℕ} {caller : Caller δ ρ}, ¬ c < s.callers.length →
        (s.callers ++ [⟨.acquiring operation, none⟩])[c]? = some caller →
          caller = ⟨.acquiring operation, none⟩ := by
      intro c caller hc hcaller
      rw [List.getElem?_append_right (not_lt.mp hc)] at hcaller
      exact List.mem_singleton.mp (List.mem_of_getElem? hcaller)
    have hpending : ∀ c, s.pending c = WorkerState.pending
        { s with callers := s.callers ++ [⟨.acquiring operation, none⟩] } c :=
      fun c => ((Happens.call operation hstarted).total _).symm
    refine h.step (fun c => (hpending c).symm) rfl WorkerState.response_call (by simp) id h.closers
      fun c p hp => ?_
    · obtain ⟨caller, hcaller, rfl⟩ := WorkerState.phase_eq_some.mp hp
      by_cases hc : c < s.callers.length
      · exact Or.inl (WorkerState.phase_eq_some.mpr ⟨caller, (hlt hc).symm.trans hcaller, rfl⟩)
      · rw [hnew hc hcaller]
        exact Or.inr fun hmem => hc (h.known c hmem)
  | drop hphase hp =>
    refine h.move hphase ?_ trivial
    rcases hp with ⟨operation, rfl⟩ | rfl <;> rfl
  | shutdown => exact h.beginShutdown
  | poison => exact h.work rfl rfl rfl id fun _ => rfl
  | wake =>
    refine h.proceed fun c => ?_
    rw [WorkerState.jobs_notified]
  | openFails hworker => exact h.proceed fun c => by rw [hworker]; rfl
  | announceFails hworker => exact beginShutdown (h.proceed fun c => by rw [hworker]; rfl)
  | unwind hworker =>
    refine h.proceed fun c => ?_
    rcases hworker with hw | ⟨result, hw⟩ | hw <;> rw [hw] <;> rfl

/-- In every reachable state each admitted caller is owed or has one answer. -/
theorem reachable {capacity : ℕ} {connection : δ} (h : s.Reachable capacity connection) :
    Delivers s := by
  have hboth : Coherent s ∧ Delivers s :=
    h.induction (I := fun s => Coherent s ∧ Delivers s)
      ⟨.new capacity connection, new capacity connection⟩
      (fun _ _ _ hs hmoves => ⟨hs.1.moves hmoves, hs.2.moves hs.1 hmoves⟩)
      fun _ _ hs hhappens => ⟨hs.1.happens hhappens, hs.2.happens hhappens⟩
  exact hboth.2

end Delivers

/-! ## The bound on the accepted work -/

/-- One for an envelope that has lost its permit. -/
def JobEnvelope.unpermitted (job : JobEnvelope δ ρ) : ℕ := (!job.permit).toNat

namespace WorkerState

/-- Every envelope has its permit, until both are gone together. -/
theorem unpermitted_reachable {capacity : ℕ} {connection : δ}
    (h : s.Reachable capacity connection) : s.total JobEnvelope.unpermitted = 0 := by
  refine h.induction (I := fun s => s.total JobEnvelope.unpermitted = 0) rfl
    (fun s t s' hs hmoves => ?_) fun s s' hs hhappens => ?_
  · obtain ⟨gone, came, htrade, htotal⟩ := hmoves.trade
    have hle : (came.map JobEnvelope.unpermitted).sum ≤
        (gone.map JobEnvelope.unpermitted).sum := by
      cases htrade with
      | kept => exact le_rfl
      | admitted => exact le_rfl
      | spent | answered => exact le_rfl
      | done => exact Nat.zero_le _
    have := htotal JobEnvelope.unpermitted
    omega
  · rw [hhappens.total]
    exact hs

/-- The answers to a caller among jobs. -/
theorem count_answering (c : ℕ) (jobs : List (JobEnvelope δ ρ)) :
    ((jobs.filter fun job => job.responder).map JobEnvelope.caller).count c =
      (jobs.map (JobEnvelope.answerTo c)).sum := by
  induction jobs with
  | nil => rfl
  | cons job jobs ih =>
    rw [List.map_cons, List.sum_cons, ← ih, List.filter_cons]
    unfold JobEnvelope.answerTo
    cases hresponder : job.responder with
    | false => simp
    | true =>
      rw [if_pos rfl, List.map_cons, List.count_cons]
      by_cases hc : job.caller = c
      · simp [hc, add_comm]
      · simp [hc]

/-- Jobs that will be answered hold permits. -/
theorem length_answering_le {jobs : List (JobEnvelope δ ρ)}
    (hpermit : ∀ job ∈ jobs, job.permit = true) :
    (jobs.filter fun job => job.responder).length ≤ (jobs.map JobEnvelope.permits).sum := by
  have hlength : (jobs.map JobEnvelope.permits).sum = jobs.length := by
    rw [List.map_congr_left (g := fun _ => 1)
      fun job hjob => by rw [JobEnvelope.permits, hpermit job hjob]; rfl]
    simp
  rw [hlength]
  exact List.length_filter_le ..

/-- There are no more admitted callers without an answer than permits. -/
theorem unanswered_le {capacity : ℕ} {connection : δ} (h : s.Reachable capacity connection) :
    (s.admitted.filter fun c => (s.response c).isNone).length ≤ capacity := by
  have hdelivers := Delivers.reachable h
  have hpermits := permits_reachable h
  have hunpermitted := unpermitted_reachable h
  let answering := (s.envelopes.filter fun job => job.responder).map JobEnvelope.caller
  have hperm : (s.admitted.filter fun c => (s.response c).isNone).Perm answering := by
    refine List.perm_iff_count.mpr fun c => ?_
    have hpending : answering.count c = s.pending c := count_answering c s.envelopes
    rw [hpending, hdelivers.pending, List.Nodup.count (hdelivers.once.filter _)]
    simp only [List.mem_filter]
    rfl
  have hlength : answering.length ≤ s.total JobEnvelope.permits := by
    rw [List.length_map]
    exact length_answering_le fun job hjob => by
      have hzero := (List.sum_eq_zero_iff.mp hunpermitted) _ (List.mem_map_of_mem hjob)
      simpa [JobEnvelope.unpermitted] using hzero
  rw [hperm.length_eq]
  unfold permits at hpermits
  omega

/-- In the sample at most one admitted caller waits. -/
theorem unanswered_served :
    (served.admitted.filter fun c => (served.response c).isNone).length ≤ 1 :=
  unanswered_le served_reachable

end WorkerState

end Erabi.Worker
