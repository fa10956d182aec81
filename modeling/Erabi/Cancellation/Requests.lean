/-
# Cancellation requests reach the registered token

A request stays recorded until its job is settled.  Whoever registers a token after
the request was recorded finds it there; whoever had registered one before is
signalled by the request itself.
-/
import Mathlib
import Erabi.Cancellation.Controller

namespace Erabi.Cancellation

open Queue Relational Relational.Transaction Transition

variable {s s' : System} {j : JobId} {t : TokenId}

/-! ## The invariant -/

/-- The job has not reached its terminal boundary. -/
def Unsettled (s : System) (j : JobId) : Prop := ¬ s.store.lifecycle.Settled j

/-- A request for the job has been recorded: its call has returned, or has yet to
signal. -/
def Requested (s : System) (j : JobId) : Prop :=
  j ∈ s.accepted ∨ ∃ call token, s.calls call = some (.signalling j token)

/-- No request is lost. -/
structure Kept (s : System) : Prop where
  /-- The registered tokens are those the worker holds. -/
  registered : ∀ j t, s.controller.token j = some t ↔ s.worker.held = some (j, t)
  boundary : ∀ j t, s.worker = .finished j t true → s.store.lifecycle.Settled j
  retiring : ∀ call j, s.calls call = some (.retiring j) → s.store.lifecycle.Settled j
  recorded : ∀ j, Requested s j → Unsettled s j → j ∈ s.controller.requested
  signalled : ∀ j t, j ∈ s.accepted → Unsettled s j → s.controller.token j = some t →
    t ∈ s.cancelled
  /-- The request will signal the registered token, or needs not. -/
  pending : ∀ call j token t, s.calls call = some (.signalling j token) → Unsettled s j →
    s.controller.token j = some t → token = some t ∨ t ∈ s.cancelled

/-- Without a request none is lost. -/
theorem kept_initial (store : QueueStore) : Kept (.initial store) where
  registered j t := by
    show none = some t ↔ none = some (j, t)
    simp
  boundary := by
    intro j t h
    cases h
  retiring := by
    intro call j h
    cases h
  recorded := by
    rintro j (h | ⟨call, token, h⟩)
    · exact absurd h (Finset.notMem_empty j)
    · cases h
  signalled j t h := absurd h (Finset.notMem_empty j)
  pending := by
    intro call j token t h
    cases h

/-! ## Steps that leave the requests and the tokens alone -/

/-- Jobs settle, tokens are cancelled, calls come to their end. -/
structure Quiet (s s' : System) : Prop where
  settled : ∀ j, s.store.lifecycle.Settled j → s'.store.lifecycle.Settled j
  requested : s'.controller.requested = s.controller.requested
  active : s'.controller.active = s.controller.active
  cancelled : s.cancelled ⊆ s'.cancelled
  accepted : s'.accepted = s.accepted
  held : s'.worker.held = s.worker.held
  boundary : ∀ j t, s'.worker = .finished j t true →
    s.worker = .finished j t true ∨ s'.store.lifecycle.Settled j
  signalling : ∀ call j token, s'.calls call = some (.signalling j token) →
    s.calls call = some (.signalling j token)
  retiring : ∀ call j, s'.calls call = some (.retiring j) →
    s.calls call = some (.retiring j) ∨ s'.store.lifecycle.Settled j

theorem Quiet.refl (s : System) : Quiet s s where
  settled _ h := h
  requested := rfl
  active := rfl
  cancelled := Finset.Subset.refl _
  accepted := rfl
  held := rfl
  boundary _ _ h := Or.inl h
  signalling _ _ _ h := h
  retiring _ _ h := Or.inl h

/-- A quiet step keeps the tokens. -/
theorem Quiet.token (h : Quiet s s') : s'.controller.token j = s.controller.token j := by
  unfold ControllerState.token
  rw [h.active]

/-- A quiet step opens no job. -/
theorem Quiet.unsettled (h : Quiet s s') (hj : Unsettled s' j) : Unsettled s j :=
  fun hsettled => hj (h.settled j hsettled)

/-- A quiet step loses no request. -/
theorem Quiet.kept (h : Quiet s s') (hs : Kept s) : Kept s' where
  registered j t := by
    rw [h.token, h.held]
    exact hs.registered j t
  boundary j t hworker := by
    rcases h.boundary j t hworker with hbefore | hsettled
    · exact h.settled j (hs.boundary j t hbefore)
    · exact hsettled
  retiring call j hcall := by
    rcases h.retiring call j hcall with hbefore | hsettled
    · exact h.settled j (hs.retiring call j hbefore)
    · exact hsettled
  recorded j hrequested hj := by
    rw [h.requested]
    refine hs.recorded j ?_ (h.unsettled hj)
    rcases hrequested with haccepted | ⟨call, token, hcall⟩
    · exact Or.inl (h.accepted ▸ haccepted)
    · exact Or.inr ⟨call, token, h.signalling call j token hcall⟩
  signalled j t haccepted hj htoken := by
    rw [h.accepted] at haccepted
    rw [h.token] at htoken
    exact h.cancelled (hs.signalled j t haccepted (h.unsettled hj) htoken)
  pending call j token t hcall hj htoken := by
    rw [h.token] at htoken
    have hbefore := h.signalling call j token hcall
    rcases hs.pending call j token t hbefore (h.unsettled hj) htoken with hsame | hcancelled
    · exact Or.inl hsame
    · exact Or.inr (h.cancelled hcancelled)

/-- A change of the store that keeps settled jobs settled. -/
theorem Quiet.store (store : QueueStore) (hworker : s'.worker.held = s.worker.held)
    (hboundary : ∀ j t, s'.worker = .finished j t true →
      s.worker = .finished j t true ∨ store.lifecycle.Settled j)
    (hs' : s' = { s with store, worker := s'.worker })
    (hsettled : ∀ j, s.store.lifecycle.Settled j → store.lifecycle.Settled j) : Quiet s s' := by
  rw [hs']
  exact
    { Quiet.refl s with
      settled := hsettled
      held := hworker
      boundary := hboundary
      retiring := fun _ _ h => Or.inl h }

/-- A call that comes to its end, or goes on without a request to signal. -/
theorem Quiet.answer {call : CallId} {next : Option Call} (h : Quiet s s')
    (hsignalling : ∀ j token, next ≠ some (.signalling j token))
    (hretiring : ∀ j, next = some (.retiring j) → s'.store.lifecycle.Settled j) :
    Quiet s (s'.answer call next) :=
  { h with
    signalling := by
      intro other j token hcall
      change Function.update s'.calls call next other = _ at hcall
      by_cases hother : other = call
      · rw [hother, Function.update_self] at hcall
        exact absurd hcall (hsignalling j token)
      · rw [Function.update_of_ne hother] at hcall
        exact h.signalling other j token hcall
    retiring := by
      intro other j hcall
      change Function.update s'.calls call next other = _ at hcall
      by_cases hother : other = call
      · rw [hother, Function.update_self] at hcall
        exact Or.inr (hretiring j hcall)
      · rw [Function.update_of_ne hother] at hcall
        exact h.retiring other j hcall }

/-- More tokens are cancelled. -/
theorem Quiet.cancel {tokens : Finset TokenId} (h : s.cancelled ⊆ tokens) :
    Quiet s { s with cancelled := tokens } :=
  { Quiet.refl s with cancelled := h }

/-- A committed transaction keeps settled jobs settled. -/
theorem acquire_quiet (hworker : s.worker = .polling) (workerId : String) (now duration : ℤ)
    (allow : Bool) (ids : LeaseIds) : Quiet s (s.acquire workerId now duration allow ids) := by
  have hsettled := fun j (hj : s.store.lifecycle.Settled j) =>
    apply_settled s.store (.acquireNext workerId now duration allow ids) hj
  change ∀ j, s.store.lifecycle.Settled j →
    ((acquireNext workerId now duration allow ids).commit s.store).2.lifecycle.Settled j
    at hsettled
  unfold System.acquire
  rcases hcommit : (acquireNext workerId now duration allow ids).commit s.store with ⟨result, store⟩
  rw [hcommit] at hsettled
  rcases result with e | _ | ⟨job, attempt⟩
  all_goals
    refine Quiet.store store ?_ ?_ rfl hsettled
    · rw [hworker]
      rfl
    · intro j t h
      cases h

/-- The end of an execution is quiet. -/
theorem executeAcquired_quiet (hworker : s.worker = .executing j t) (execution : ExecutionEnd) :
    Quiet s (s.executeAcquired j t execution) := by
  refine Quiet.store (Queue.executeAcquired { execution with jobId := j } s.store).2
    ?_ ?_ rfl ?_
  · rw [hworker]
    rfl
  · intro k u h
    change WorkerPhase.finished j t _ = _ at h
    injection h with hk _ hterminal
    right
    rcases hresult : (Queue.executeAcquired { execution with jobId := j } s.store).1 with e | result
    · rw [hresult] at hterminal
      cases hterminal
    · rw [hresult] at hterminal
      rw [← hk]
      exact executeAcquired_settled hresult hterminal
  · intro k hk
    exact step_settled s.store (.executeAcquired { execution with jobId := j }) hk

/-- Cancelling a queued job is quiet. -/
theorem cancelQueued_quiet (call : CallId) (now : ℤ) : Quiet s (s.cancelQueued call j now) := by
  have hsettled := fun k (hk : s.store.lifecycle.Settled k) =>
    apply_settled s.store (.cancelQueued j now) hk
  change ∀ k, s.store.lifecycle.Settled k →
    ((Queue.cancelQueued j now).commit s.store).2.lifecycle.Settled k at hsettled
  unfold System.cancelQueued
  rcases hcancel : Queue.cancelQueued j now s.store with e | ⟨state, store⟩
  · rw [commit_of_error hcancel]
    exact (Quiet.refl s).answer (by simp) (by simp)
  · rw [commit_of_ok hcancel] at hsettled ⊢
    have hquiet : Quiet s { s with store } := Quiet.store _ rfl (fun _ _ h => Or.inl h) rfl hsettled
    refine hquiet.answer ?_ ?_
    · intro k token
      split <;> simp
    · intro k hk
      split at hk
      · cases hk
      · rename_i hstate
        cases hk
        exact cancelQueued_settled hcancel (by simpa using hstate)

/-! ## Steps of requests and registrations -/

/-- A token that is registered while the request is recorded starts cancelled. -/
theorem Kept.register (hs : Kept s) (hworker : s.worker = .acquired j) : Kept (s.register j) := by
  -- a worker that has acquired a job holds no token yet
  have hnone : ∀ k, s.controller.token k = none := by
    intro k
    rcases htoken : s.controller.token k with _ | t
    · rfl
    · have hheld := (hs.registered k t).mp htoken
      rw [hworker] at hheld
      cases hheld
  have htoken : ∀ k, (s.register j).controller.token k = if j = k then some s.nextToken else none := by
    intro k
    show (s.controller.register j s.nextToken).token k = _
    rw [ControllerState.token_register, hnone k]
  -- a request recorded before the registration sets the flag of the new token at once
  have hnew : ∀ k t, Requested s k → Unsettled s k →
      (s.register j).controller.token k = some t → t ∈ (s.register j).cancelled := by
    intro k t hrequested hk ht
    rw [htoken k] at ht
    split at ht
    · rename_i hjk
      cases ht
      have hnow : s.controller.cancelNow j = true := by
        rw [ControllerState.cancelNow, hjk, decide_eq_true (hs.recorded k hrequested hk),
          Bool.or_true]
      show s.nextToken ∈ if _ then _ else _
      rw [if_pos hnow]
      exact Finset.mem_insert_self _ _
    · cases ht
  exact
    { registered := by
        intro k t
        rw [htoken k]
        show _ ↔ some (j, s.nextToken) = some (k, t)
        by_cases hjk : j = k <;> simp [hjk]
      boundary := by
        intro k t h
        cases h
      retiring := hs.retiring
      recorded := hs.recorded
      signalled := fun k t haccepted hk ht => hnew k t (Or.inl haccepted) hk ht
      pending := fun call k token t hcall hk ht =>
        Or.inr (hnew k t (Or.inr ⟨call, token, hcall⟩) hk ht) }

/-- A released job has no token; its request stays unless it is settled. -/
theorem Kept.release (hs : Kept s) {terminalBoundary : Bool}
    (hworker : s.worker = .finished j t terminalBoundary) :
    Kept { s with controller := s.controller.release j terminalBoundary, worker := .idle } := by
  have hnone : ∀ k, (s.controller.release j terminalBoundary).token k = none := by
    intro k
    rw [ControllerState.token_release]
    split
    · rfl
    · rename_i hkj
      rcases htoken : s.controller.token k with _ | u
      · rfl
      · have hheld := (hs.registered k u).mp htoken
        rw [hworker] at hheld
        cases hheld
        exact absurd rfl hkj
  exact
    { registered := by
        intro k u
        show (s.controller.release j terminalBoundary).token k = some u ↔ none = some (k, u)
        rw [hnone k]
        simp
      boundary := by
        intro k u h
        cases h
      retiring := hs.retiring
      recorded := by
        intro k hrequested hk
        have hbefore := hs.recorded k hrequested hk
        show k ∈ if terminalBoundary then _ else _
        split
        -- a request is forgotten only when its job has reached a terminal boundary
        · rename_i hterminal
          rw [hterminal] at hworker
          refine Finset.mem_erase.mpr ⟨?_, hbefore⟩
          rintro rfl
          exact hk (hs.boundary k t hworker)
        · exact hbefore
      signalled := by
        intro k u _ _ htoken
        change (s.controller.release j terminalBoundary).token k = some u at htoken
        rw [hnone k] at htoken
        cases htoken
      pending := by
        intro call k token u _ _ htoken
        change (s.controller.release j terminalBoundary).token k = some u at htoken
        rw [hnone k] at htoken
        cases htoken }

/-- A recorded request has seen the token it is going to signal. -/
theorem Kept.request (hs : Kept s) (call : CallId) (j : JobId) : Kept (s.request call j) := by
  have hcalls : ∀ other, (s.request call j).calls other =
      if other = call then some (.signalling j (s.controller.token j)) else s.calls other := by
    intro other
    show Function.update s.calls call _ other = _
    rw [Function.update_apply]
  have hsignalling : ∀ other k token, (s.request call j).calls other = some (.signalling k token) →
      (k = j ∧ token = s.controller.token j) ∨ s.calls other = some (.signalling k token) := by
    intro other k token h
    rw [hcalls other] at h
    split at h
    · cases h
      exact Or.inl ⟨rfl, rfl⟩
    · exact Or.inr h
  exact
    { registered := hs.registered
      boundary := hs.boundary
      retiring := by
        intro other k h
        rw [hcalls other] at h
        split at h
        · cases h
        · exact hs.retiring other k h
      recorded := by
        intro k hrequested hk
        show k ∈ insert j s.controller.requested
        rcases hrequested with haccepted | ⟨other, token, h⟩
        · exact Finset.mem_insert_of_mem (hs.recorded k (Or.inl haccepted) hk)
        · rcases hsignalling other k token h with ⟨rfl, _⟩ | hbefore
          · exact Finset.mem_insert_self _ _
          · exact Finset.mem_insert_of_mem (hs.recorded k (Or.inr ⟨other, token, hbefore⟩) hk)
      signalled := hs.signalled
      pending := by
        intro other k token u h hk htoken
        rcases hsignalling other k token h with ⟨rfl, rfl⟩ | hbefore
        · exact Or.inl htoken
        · exact hs.pending other k token u hbefore hk htoken }

/-- A request that has signalled its token is accepted. -/
theorem Kept.signal (hs : Kept s) {call : CallId} {token : Option TokenId}
    (hcall : s.calls call = some (.signalling j token)) : Kept (s.signal call j token) := by
  have hcalls : ∀ other, (s.signal call j token).calls other =
      if other = call then some (.inspecting j) else s.calls other := by
    intro other
    show Function.update s.calls call _ other = _
    rw [Function.update_apply]
  have hsignalling : ∀ other k u, (s.signal call j token).calls other = some (.signalling k u) →
      s.calls other = some (.signalling k u) := by
    intro other k u h
    rw [hcalls other] at h
    split at h
    · cases h
    · exact h
  have hrequested : ∀ k, Requested (s.signal call j token) k → Requested s k := by
    rintro k (haccepted | ⟨other, u, h⟩)
    · rcases Finset.mem_insert.mp haccepted with rfl | haccepted
      · exact Or.inr ⟨call, token, hcall⟩
      · exact Or.inl haccepted
    · exact Or.inr ⟨other, u, hsignalling other k u h⟩
  exact
    { registered := hs.registered
      boundary := hs.boundary
      retiring := by
        intro other k h
        rw [hcalls other] at h
        split at h
        · cases h
        · exact hs.retiring other k h
      recorded := fun k hk hopen => hs.recorded k (hrequested k hk) hopen
      -- the token the call took is the registered one, or the job was signalled otherwise
      signalled := by
        intro k u haccepted hk htoken
        show u ∈ s.cancelled ∪ token.toFinset
        rw [Finset.mem_union, Option.mem_toFinset]
        rcases Finset.mem_insert.mp haccepted with rfl | haccepted
        · exact (hs.pending call k token u hcall hk htoken).symm
        · exact Or.inl (hs.signalled k u haccepted hk htoken)
      pending := by
        intro other k v u h hk htoken
        rcases hs.pending other k v u (hsignalling other k v h) hk htoken with hsame | hcancelled
        · exact Or.inl hsame
        · exact Or.inr (Finset.mem_union_left _ hcancelled) }

/-- A request is retired for a settled job only. -/
theorem Kept.retire (hs : Kept s) {call : CallId} (hcall : s.calls call = some (.retiring j)) :
    Kept { s with controller := s.controller.retireAfterTerminalBoundary j } :=
  { hs with
    recorded := by
      intro k hrequested hk
      refine Finset.mem_erase.mpr ⟨?_, hs.recorded k hrequested hk⟩
      rintro rfl
      exact hk (hs.retiring call k hcall) }

/-! ## Runs -/

theorem Kept.step (hs : Kept s) (input : Input) : Kept (s.step input) := by
  cases input with
  -- what others do to the queue never opens a settled job
  | durable input =>
    have hquiet : Quiet s { s with store := Queue.step s.store input } :=
      Quiet.store _ rfl (fun _ _ h => Or.inl h) rfl fun j => step_settled s.store input
    exact hquiet.kept hs
  | poll =>
    show Kept (if _ then _ else _)
    split
    · rename_i hidle
      refine (Quiet.store s.store ?_ ?_ rfl fun _ h => h).kept hs
      · rw [hidle.1]
        rfl
      · intro j t h
        cases h
    · exact hs
  | acquire workerId now duration allow ids =>
    show Kept (if _ then _ else _)
    split
    · rename_i hpolling
      exact (acquire_quiet hpolling workerId now duration allow ids).kept hs
    · exact hs
  | register =>
    dsimp only [System.step]
    split
    · rename_i hworker
      exact hs.register hworker
    · exact hs
  | executeAcquired execution =>
    dsimp only [System.step]
    split
    · rename_i hworker
      exact (executeAcquired_quiet hworker execution).kept hs
    · exact hs
  | executionFailed =>
    dsimp only [System.step]
    split
    · rename_i hworker
      refine (Quiet.store s.store ?_ ?_ rfl fun _ h => h).kept hs
      · rw [hworker]
        rfl
      · intro j t h
        cases h
    · exact hs
  | release =>
    dsimp only [System.step]
    split
    · rename_i hworker
      exact hs.release hworker
    · exact hs
  | cancelToken token =>
    exact (Quiet.cancel (Finset.subset_insert token s.cancelled)).kept hs
  | request call jobId =>
    show Kept (if _ then _ else _)
    split
    · exact hs.request call jobId
    · exact hs
  | signal call =>
    dsimp only [System.step]
    split
    · rename_i hcall
      exact hs.signal hcall
    · rename_i token tokens hcall
      exact ((Quiet.cancel (Finset.subset_insert token s.cancelled)).answer (by simp)
        (by simp)).kept hs
    · exact ((Quiet.refl s).answer (by simp) (by simp)).kept hs
    · exact hs
  | cancelQueued call now =>
    dsimp only [System.step]
    split
    · exact (cancelQueued_quiet call now).kept hs
    · exact hs
  | retire call =>
    dsimp only [System.step]
    split
    · rename_i hcall
      exact ((Quiet.refl _).answer (by simp) (by simp)).kept (hs.retire hcall)
    · exact hs
  -- a call that is dropped has been accepted, or was no request yet
  | abandon call =>
    dsimp only [System.step]
    split
    · exact ((Quiet.refl s).answer (by simp) (by simp)).kept hs
    · exact hs
  | cancelAll call =>
    show Kept (if _ then _ else _)
    split
    · have hquiet : Quiet s { s with controller := s.controller.cancelAll } :=
        { Quiet.refl s with requested := rfl, active := rfl }
      exact (hquiet.answer (by simp) (by simp)).kept hs
    · exact hs

/-- Every accepted request for a job before its terminal boundary has cancelled the
token registered for the job, which is the token its handler holds. -/
def RequestsReachToken (s : System) : Prop :=
  ∀ j ∈ s.accepted, ¬ s.store.lifecycle.Settled j →
    (∀ t, s.controller.token j = some t → t ∈ s.cancelled) ∧
      ∀ t, s.worker.held = some (j, t) → t ∈ s.cancelled

/-- No interleaving of requests, registrations, releases and retirements loses a
cancellation. -/
theorem cancellation_never_lost (store : QueueStore) (inputs : List Input) :
    Throughout System.step RequestsReachToken (.initial store) inputs := by
  have hkept : Throughout System.step Kept (.initial store) inputs :=
    throughout_of_meets (I := fun _ => True) (G := fun _ _ => True) (fun _ _ _ => trivial)
      (fun s input _ hs _ => hs.step input) trivial (kept_initial store)
      (meets_of_forall fun _ _ => trivial)
  refine hkept.mono fun s hs j haccepted hj => ?_
  have hregistered : ∀ t, s.controller.token j = some t → t ∈ s.cancelled := by
    intro t htoken
    exact hs.signalled j t haccepted hj htoken
  exact ⟨hregistered, fun t hheld => hregistered t ((hs.registered j t).mpr hheld)⟩

/-- A request that sees no token, for a job that is acquired and registered before
the request goes on. -/
def requestDuringAcquisition : List Input :=
  [.durable (.operation (.enqueue ⟨10, .quickScrape, 0, none, none, 0, 1⟩ 0)), .poll,
    .acquire "a" 0 60 true ⟨100, 200⟩, .request 0 10, .register, .signal 0]

example : (after System.step (.initial .empty) requestDuringAcquisition).worker = .executing 10 0 ∧
    10 ∈ (after System.step (.initial .empty) requestDuringAcquisition).accepted ∧
    0 ∈ (after System.step (.initial .empty) requestDuringAcquisition).cancelled := by
  decide +kernel

end Erabi.Cancellation
