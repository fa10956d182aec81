/-
# Signals of storage pressure

Observations of the free space are published while jobs register and finish.  A thread
that publishes a critical observation collects the tokens of the active jobs afterwards,
and a job that registers looks at the published state after its token is in the map.  The
lock of the state, the lock of the map and every token are one step each, and the steps of
all threads interleave.
-/
import Mathlib
import Erabi.Transition.Run

namespace Erabi.Pressure

open Transition

/-! ## Observations -/

/-- How scarce storage is. -/
inductive StoragePressureLevel where
  | healthy
  | warning
  | critical
  | unavailable
  deriving DecidableEq, Repr

/-- Free bytes at which operators are warned and artifact-heavy work is blocked. -/
structure StoragePressurePolicy where
  warningFreeBytes : ℕ
  criticalFreeBytes : ℕ
  ordered : criticalFreeBytes < warningFreeBytes

/-- `StoragePressurePolicy::new`. -/
def StoragePressurePolicy.new (warningFreeBytes criticalFreeBytes : ℕ) :
    Option StoragePressurePolicy :=
  if h : criticalFreeBytes < warningFreeBytes then some ⟨warningFreeBytes, criticalFreeBytes, h⟩
  else none

/-- What was last found of storage. -/
structure StoragePressureState where
  level : StoragePressureLevel
  freeBytes : Option ℕ
  warningThreshold : ℕ
  criticalThreshold : ℕ
  deriving DecidableEq, Repr

namespace StoragePressurePolicy

variable (policy : StoragePressurePolicy)

/-- The state at so many free bytes. -/
def classify (freeBytes : ℕ) : StoragePressureState where
  level :=
    if freeBytes ≤ policy.criticalFreeBytes then .critical
    else if freeBytes ≤ policy.warningFreeBytes then .warning
    else .healthy
  freeBytes := some freeBytes
  warningThreshold := policy.warningFreeBytes
  criticalThreshold := policy.criticalFreeBytes

/-- The state while storage cannot be read. -/
def unavailable : StoragePressureState where
  level := .unavailable
  freeBytes := none
  warningThreshold := policy.warningFreeBytes
  criticalThreshold := policy.criticalFreeBytes

/-- `refresh`: a probe that fails is never healthy. -/
def observe (probe : Option ℕ) : StoragePressureState :=
  (probe.map policy.classify).getD policy.unavailable

end StoragePressurePolicy

/-! ## The controller -/

/-- `register`: a token is put into the map, and then the state is looked at. -/
inductive RegisterPhase (JobId : Type) where
  | inserting (job : JobId) (heavy : Bool)
  | rechecking
  | returned
  deriving DecidableEq

/-- `update`: the state is published, and after a critical one the tokens are signalled. -/
inductive UpdatePhase where
  | publishing (next : StoragePressureState)
  | collecting
  | signalling (tokens : List ℕ)
  | done
  deriving DecidableEq

/-- The token of a registration is its number.  `published` is no state of the program, it
records the observations. -/
structure ControllerState (JobId : Type) where
  state : StoragePressureState
  active : List (JobId × ℕ)
  signalled : ℕ → Bool
  registrations : List (RegisterPhase JobId)
  updates : List UpdatePhase
  published : List StoragePressureState

/-- What may happen next. -/
inductive ControllerInput (JobId : Type) where
  | register (job : JobId) (heavy : Bool)
  | update (next : StoragePressureState)
  | registerStep (token : ℕ)
  | updateStep (u : ℕ)
  | release (job : JobId)

namespace ControllerState

variable {JobId : Type} [DecidableEq JobId]

/-- A controller that has not read storage yet. -/
def new (policy : StoragePressurePolicy) : ControllerState JobId where
  state := policy.unavailable
  active := []
  signalled := fun _ => false
  registrations := []
  updates := []
  published := []

/-- A registration takes its next step. -/
def registerStep (s : ControllerState JobId) (token : ℕ) : ControllerState JobId :=
  match s.registrations[token]? with
  | some (.inserting job true) => { s with
      active := (job, token) :: s.active.filter fun entry => entry.1 ≠ job
      registrations := s.registrations.set token .rechecking }
  | some (.inserting _ false) => { s with registrations := s.registrations.set token .returned }
  | some .rechecking => { s with
      signalled :=
        if s.state.level = .critical then Function.update s.signalled token true
        else s.signalled
      registrations := s.registrations.set token .returned }
  | some .returned | none => s

/-- An update takes its next step. -/
def updateStep (s : ControllerState JobId) (u : ℕ) : ControllerState JobId :=
  match s.updates[u]? with
  | some (.publishing next) => { s with
      state := next
      published := s.published ++ [next]
      updates := s.updates.set u (if next.level = .critical then .collecting else .done) }
  | some .collecting => { s with updates := s.updates.set u (.signalling (s.active.map Prod.snd)) }
  | some (.signalling (token :: tokens)) => { s with
      signalled := Function.update s.signalled token true
      updates := s.updates.set u (.signalling tokens) }
  | some (.signalling []) => { s with updates := s.updates.set u .done }
  | some .done | none => s

/-- One input of the controller. -/
def step (s : ControllerState JobId) : ControllerInput JobId → ControllerState JobId
  | .register job heavy => { s with registrations := s.registrations ++ [.inserting job heavy] }
  | .update next => { s with updates := s.updates ++ [.publishing next] }
  | .registerStep token => s.registerStep token
  | .updateStep u => s.updateStep u
  | .release job => { s with active := s.active.filter fun entry => entry.1 ≠ job }

end ControllerState

/-! ## No signal is lost -/

/-- The update will signal the token. -/
def UpdatePhase.Signals (token : ℕ) : UpdatePhase → Prop
  | .collecting => True
  | .signalling tokens => token ∈ tokens
  | .publishing _ | .done => False

/-- The update has published a critical observation. -/
def UpdatePhase.Critical : UpdatePhase → Prop
  | .collecting | .signalling _ => True
  | .publishing _ | .done => False

variable {JobId : Type} [DecidableEq JobId] {s : ControllerState JobId}

/-- A token is signalled, or a thread is about to. -/
def Alerted (s : ControllerState JobId) (token : ℕ) : Prop :=
  s.signalled token = true ∨ ∃ phase ∈ s.updates, phase.Signals token

/-- Under a critical observation every active token is alerted, unless its registration
has still to look. -/
structure Watched (s : ControllerState JobId) : Prop where
  alerted : s.state.level = .critical → ∀ entry ∈ s.active,
    s.registrations[entry.2]? = some .rechecking ∨ Alerted s entry.2
  registered : ∀ entry ∈ s.active, entry.2 < s.registrations.length
  justified : (∃ token, s.signalled token = true) ∨ (∃ phase ∈ s.updates, phase.Critical) ∨
    s.state.level = .critical → ∃ state ∈ s.published, state.level = .critical

namespace Watched

omit [DecidableEq JobId] in
/-- No job is registered yet. -/
theorem new (policy : StoragePressurePolicy) : Watched (.new policy : ControllerState JobId) where
  alerted h := by cases h
  registered entry hentry := by cases hentry
  justified h := by
    rcases h with ⟨_, h⟩ | ⟨_, h, -⟩ | h <;> cases h

/-- Another phase at one place keeps what the other threads are about to do. -/
theorem mem_set_of_signals {updates : List UpdatePhase} {u token : ℕ} {old next : UpdatePhase}
    (hold : updates[u]? = some old) (hsignals : old.Signals token → next.Signals token)
    (h : ∃ phase ∈ updates, phase.Signals token) :
    ∃ phase ∈ updates.set u next, phase.Signals token := by
  obtain ⟨phase, hphase, hs⟩ := h
  obtain ⟨v, hv⟩ := List.mem_iff_getElem?.mp hphase
  by_cases huv : u = v
  · subst huv
    rw [hold] at hv
    cases hv
    have hlength := (List.getElem?_eq_some_iff.mp hold).1
    exact ⟨next, List.mem_set hlength next, hsignals hs⟩
  · exact ⟨phase, List.mem_of_getElem? ((List.getElem?_set_ne huv).trans hv), hs⟩

omit [DecidableEq JobId] in
/-- A signal takes no other back. -/
theorem alerted_update {signalled : ℕ → Bool} {token other : ℕ} (h : signalled token = true) :
    Function.update signalled other true token = true := by
  rw [Function.update_apply]
  split
  · rfl
  · exact h

/-- A registration leaves no job unwatched. -/
theorem registerStep (h : Watched s) (token : ℕ) : Watched (s.registerStep token) := by
  have hlength : ∀ phase : RegisterPhase JobId,
      (s.registrations.set token phase).length = s.registrations.length :=
    fun _ => List.length_set
  have hother : ∀ {phase : RegisterPhase JobId} {t : ℕ}, t ≠ token →
      (s.registrations.set token phase)[t]? = s.registrations[t]? :=
    fun hne => List.getElem?_set_ne (Ne.symm hne)
  -- by the phase: a heavy job has its token put into the map, and then the level is looked at
  unfold ControllerState.registerStep
  split
  · rename_i job hphase
    have htoken := (List.getElem?_eq_some_iff.mp hphase).1
    refine ⟨fun hcritical entry hentry => ?_, fun entry hentry => ?_, h.justified⟩
    · rcases List.mem_cons.mp hentry with rfl | hold
      · exact Or.inl (List.getElem?_set_self htoken)
      · by_cases hself : entry.2 = token
        · rw [hself]
          exact Or.inl (List.getElem?_set_self htoken)
        · refine (h.alerted hcritical entry (List.mem_of_mem_filter hold)).imp (fun hr => ?_) id
          exact (hother hself).trans hr
    · rw [hlength]
      rcases List.mem_cons.mp hentry with rfl | hold
      · exact htoken
      · exact h.registered entry (List.mem_of_mem_filter hold)
  · rename_i job hphase
    refine ⟨fun hcritical entry hentry => ?_, fun entry hentry => ?_, h.justified⟩
    · refine (h.alerted hcritical entry hentry).imp (fun hr => ?_) id
      by_cases hself : entry.2 = token
      · rw [hself, hphase] at hr
        cases hr
      · exact (hother hself).trans hr
    · rw [hlength]
      exact h.registered entry hentry
  · rename_i hphase
    refine ⟨fun hcritical entry hentry => ?_, fun entry hentry => ?_, fun hj => h.justified ?_⟩
    · -- The registration has looked after its token was in the map.
      have hlevel : s.state.level = .critical := hcritical
      rw [Alerted]
      dsimp only
      rw [if_pos hlevel]
      by_cases hself : entry.2 = token
      · rw [hself]
        exact Or.inr (Or.inl (Function.update_self ..))
      · refine (h.alerted hcritical entry hentry).imp (fun hr => (hother hself).trans hr) ?_
        exact fun ha => ha.imp alerted_update id
    · rw [hlength]
      exact h.registered entry hentry
    · dsimp only at hj
      by_cases hlevel : s.state.level = .critical
      · exact Or.inr (Or.inr hlevel)
      · rwa [if_neg hlevel] at hj
  · exact h
  · exact h

/-- A critical update was one before. -/
theorem critical_of_set {updates : List UpdatePhase} {u : ℕ} {old next : UpdatePhase}
    (hold : updates[u]? = some old) (hcritical : next.Critical → old.Critical)
    (h : ∃ phase ∈ updates.set u next, phase.Critical) : ∃ phase ∈ updates, phase.Critical := by
  obtain ⟨phase, hphase, hc⟩ := h
  rcases List.mem_or_eq_of_mem_set hphase with hp | rfl
  · exact ⟨phase, hp, hc⟩
  · exact ⟨old, List.mem_of_getElem? hold, hcritical hc⟩

omit [DecidableEq JobId] in
/-- An update leaves no job unwatched. -/
theorem updateStep (h : Watched s) (u : ℕ) : Watched (s.updateStep u) := by
  -- by the phase: publish the state, collect the tokens, signal one after the other
  unfold ControllerState.updateStep
  split
  · rename_i next hphase
    have hlength := (List.getElem?_eq_some_iff.mp hphase).1
    refine ⟨fun hcritical entry hentry => Or.inr (Or.inr ?_), h.registered, fun hj => ?_⟩
    · -- The thread that published the observation has still to collect the tokens.
      have hlevel : next.level = .critical := hcritical
      refine ⟨.collecting, ?_, trivial⟩
      dsimp only
      rw [if_pos hlevel]
      exact List.mem_set hlength _
    · by_cases hlevel : next.level = .critical
      · exact ⟨next, List.mem_append_right _ (List.mem_singleton_self _), hlevel⟩
      · dsimp only at hj
        rw [if_neg hlevel] at hj
        have hbefore : (∃ token, s.signalled token = true) ∨ (∃ phase ∈ s.updates, phase.Critical) ∨
            s.state.level = .critical := by
          rcases hj with hj | hj | hj
          · exact Or.inl hj
          · refine Or.inr (Or.inl (critical_of_set hphase ?_ hj))
            exact fun hc : UpdatePhase.Critical .done => hc.elim
          · exact absurd hj hlevel
        obtain ⟨state, hstate, hl⟩ := h.justified hbefore
        exact ⟨state, List.mem_append_left _ hstate, hl⟩
  · rename_i hphase
    have hlength := (List.getElem?_eq_some_iff.mp hphase).1
    refine ⟨fun hcritical entry hentry => ?_, h.registered, fun hj => h.justified ?_⟩
    · refine Or.inr (Or.inr ⟨_, List.mem_set hlength _, ?_⟩)
      exact List.mem_map_of_mem hentry
    · exact hj.imp id fun hj => hj.imp (critical_of_set hphase fun _ => trivial) id
  · rename_i token tokens hphase
    refine ⟨fun hcritical entry hentry => ?_, h.registered, fun hj => h.justified ?_⟩
    · refine (h.alerted hcritical entry hentry).imp id ?_
      rintro (hsignalled | hsignals)
      · exact Or.inl (alerted_update hsignalled)
      · by_cases hself : entry.2 = token
        · rw [hself]
          exact Or.inl (Function.update_self ..)
        · refine Or.inr (mem_set_of_signals hphase (fun hs => ?_) hsignals)
          exact (List.mem_cons.mp hs).resolve_left hself
    · refine Or.inr (Or.inl ⟨_, List.mem_of_getElem? hphase, trivial⟩)
  · rename_i hphase
    refine ⟨fun hcritical entry hentry => ?_, h.registered, fun hj => h.justified ?_⟩
    · refine (h.alerted hcritical entry hentry).imp id fun ha => ha.imp id ?_
      exact mem_set_of_signals hphase fun hs => by cases hs
    · exact hj.imp id fun hj => hj.imp (critical_of_set hphase fun hc => by cases hc) id
  · exact h
  · exact h

theorem step (h : Watched s) (input : ControllerInput JobId) : Watched (s.step input) := by
  cases input with
  | register job heavy =>
    refine ⟨fun hcritical entry hentry => ?_, fun entry hentry => ?_, h.justified⟩
    · refine (h.alerted hcritical entry hentry).imp (fun hr => ?_) id
      rw [← hr]
      exact List.getElem?_append_left (h.registered entry hentry)
    · exact (h.registered entry hentry).trans_le (by simp [ControllerState.step])
  | update next =>
    refine ⟨fun hcritical entry hentry => ?_, h.registered, fun hj => h.justified ?_⟩
    · refine (h.alerted hcritical entry hentry).imp id fun ha => ha.imp id ?_
      rintro ⟨phase, hphase, hs⟩
      exact ⟨phase, List.mem_append_left _ hphase, hs⟩
    · refine hj.imp id fun hj => hj.imp ?_ id
      rintro ⟨phase, hphase, hc⟩
      rcases List.mem_append.mp hphase with hp | hp
      · exact ⟨phase, hp, hc⟩
      · rw [List.mem_singleton.mp hp] at hc
        cases hc
  | registerStep token => exact h.registerStep token
  | updateStep u => exact h.updateStep u
  | release job =>
    exact ⟨fun hcritical entry hentry => h.alerted hcritical entry (List.mem_of_mem_filter hentry),
      fun entry hentry => h.registered entry (List.mem_of_mem_filter hentry), h.justified⟩

end Watched

/-- The signals of a run: when every update has come to its end, a job that is registered
under a critical observation has been signalled, in whatever order the threads went on;
and no job is signalled unless a critical observation was published. -/
theorem signals_of_run (policy : StoragePressurePolicy) (inputs : List (ControllerInput JobId)) :
    let s := after ControllerState.step (.new policy) inputs
    (s.state.level = .critical → (∀ phase ∈ s.updates, phase = .done) →
        ∀ entry ∈ s.active, s.registrations[entry.2]? ≠ some .rechecking →
          s.signalled entry.2 = true) ∧
      ((∃ token, s.signalled token = true) → ∃ state ∈ s.published, state.level = .critical) := by
  intro s
  have hwatched : Watched s :=
    after_invariant (fun _ input h => h.step input) (Watched.new policy) inputs
  constructor
  · intro hcritical hdone entry hentry hregistered
    rcases (hwatched.alerted hcritical entry hentry).resolve_left hregistered with
      hsignalled | ⟨phase, hphase, hsignals⟩
    · exact hsignalled
    · rw [hdone phase hphase] at hsignals
      cases hsignals
  · exact fun hsignalled => hwatched.justified (Or.inl hsignalled)

end Erabi.Pressure
