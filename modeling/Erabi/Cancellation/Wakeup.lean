/-
# Waiting for a signal

A `CancellationToken` is a flag with a `Notify`: a canceller sets the flag and then
notifies the waiters, and a waiter looks at the flag before it waits for a
notification.  A notification wakes exactly the futures `notified()` has created
before, so a waiter that looks at the flag first can create its future too late.  The
storage-pressure token creates the future first and looks at the flag afterwards.
Every atomic access is one step, and the steps of any number of waiters and
cancellers interleave.
-/
import Mathlib
import Erabi.Transition.Run

namespace Erabi.Cancellation

open Transition

/-! ## The token -/

/-- Where a waiter stands in its loop; a future knows how many notifications had been
sent when it was created. -/
inductive WaiterPhase : Type where
  | looping
  | checked
  | subscribed (seen : ℕ)
  | awaiting (seen : ℕ)
  | returned
  deriving DecidableEq

/-- Where a canceller stands: the first one to set the flag also notifies. -/
inductive CancellerPhase : Type where
  | idle
  | swapped
  | finished
  deriving DecidableEq

/-- The flag of a token, its notifications, and who waits or cancels. -/
structure TokenState where
  cancelled : Bool
  notifications : ℕ
  waiter : ℕ → WaiterPhase
  canceller : ℕ → CancellerPhase

namespace TokenState

/-- A new token. -/
def new (cancelled : Bool) : TokenState where
  cancelled := cancelled
  notifications := if cancelled then 1 else 0
  waiter := fun _ => .looping
  canceller := fun _ => .idle

/-- A waiter enters a phase. -/
def moveWaiter (s : TokenState) (w : ℕ) (phase : WaiterPhase) : TokenState :=
  { s with waiter := Function.update s.waiter w phase }

/-- A canceller enters a phase. -/
def moveCanceller (s : TokenState) (i : ℕ) (phase : CancellerPhase) : TokenState :=
  { s with canceller := Function.update s.canceller i phase }

/-- The waiters after one moved. -/
theorem waiter_moveWaiter (s : TokenState) (w v : ℕ) (phase : WaiterPhase) :
    (s.moveWaiter w phase).waiter v = if v = w then phase else s.waiter v :=
  Function.update_apply ..

/-- The cancellers after one moved. -/
theorem canceller_moveCanceller (s : TokenState) (i j : ℕ) (phase : CancellerPhase) :
    (s.moveCanceller i phase).canceller j = if j = i then phase else s.canceller j :=
  Function.update_apply ..

/-- `swap(true)`: a canceller that finds the flag set has nothing to do. -/
def swap (s : TokenState) (i : ℕ) : TokenState :=
  if s.canceller i = .idle then
    if s.cancelled then s.moveCanceller i .finished
    else { s.moveCanceller i .swapped with cancelled := true }
  else s

/-- A canceller that set the flag notifies. -/
def notifyWaiters (s : TokenState) (i : ℕ) : TokenState :=
  if s.canceller i = .swapped then
    { s.moveCanceller i .finished with notifications := s.notifications + 1 }
  else s

/-- A future completes once a notification was sent after its creation. -/
def wake (s : TokenState) (w : ℕ) : TokenState :=
  match s.waiter w with
  | .awaiting seen => if seen = s.notifications then s else s.moveWaiter w .looping
  | _ => s

/-- `CancellationToken`: the loop begins with the check of the flag. -/
def check (s : TokenState) (w : ℕ) : TokenState :=
  if s.waiter w = .looping then
    s.moveWaiter w (if s.cancelled then .returned else .checked)
  else s

/-- The future is created and awaited after the check. -/
def notified (s : TokenState) (w : ℕ) : TokenState :=
  if s.waiter w = .checked then s.moveWaiter w (.awaiting s.notifications) else s

/-- `StoragePressureToken`: the loop begins with the future. -/
def enable (s : TokenState) (w : ℕ) : TokenState :=
  if s.waiter w = .looping then s.moveWaiter w (.subscribed s.notifications) else s

/-- The flag is checked before the future is awaited. -/
def checkEnabled (s : TokenState) (w : ℕ) : TokenState :=
  match s.waiter w with
  | .subscribed seen => s.moveWaiter w (if s.cancelled then .returned else .awaiting seen)
  | _ => s

end TokenState

/-- What may happen to a token. -/
inductive TokenInput : Type where
  | swap (i : ℕ)
  | notifyWaiters (i : ℕ)
  | check (w : ℕ)
  | notified (w : ℕ)
  | wake (w : ℕ)

/-- The steps of `CancellationToken`. -/
def cancelledStep (s : TokenState) : TokenInput → TokenState
  | .swap i => s.swap i
  | .notifyWaiters i => s.notifyWaiters i
  | .check w => s.check w
  | .notified w => s.notified w
  | .wake w => s.wake w

/-- The steps of `StoragePressureToken`. -/
def signalledStep (s : TokenState) : TokenInput → TokenState
  | .swap i => s.swap i
  | .notifyWaiters i => s.notifyWaiters i
  | .check w => s.checkEnabled w
  | .notified w => s.enable w
  | .wake w => s.wake w

/-! ## Stranded waiters -/

/-- The cancellation has run: the flag is set, and nobody is about to notify. -/
def TokenState.HasRun (s : TokenState) : Prop :=
  s.cancelled = true ∧ ∀ i, s.canceller i ≠ .swapped

/-- The cancellation has run, and a waiter waits for a notification that was sent before
its future was created. -/
def TokenState.Stranded (s : TokenState) : Prop :=
  s.HasRun ∧ ∃ w, s.waiter w = .awaiting s.notifications

/-- No waiter creates its future after the waiters were notified. -/
def Timely (s : TokenState) : TokenInput → Prop
  | .notified w => s.waiter w = .checked → s.notifications = 0
  | _ => True

/-! ## The invariant -/

/-- The one notification is sent after the flag is set, by the canceller that set it. -/
structure Notifies (s : TokenState) : Prop where
  uncancelled : s.cancelled = false → s.notifications = 0 ∧ ∀ i, s.canceller i ≠ .swapped
  pending : ∀ i, s.canceller i = .swapped → s.notifications = 0 ∧
    ∀ j, s.canceller j = .swapped → j = i
  hasRun : s.HasRun → s.notifications = 1
  seen : ∀ w seen, s.waiter w = .subscribed seen ∨ s.waiter w = .awaiting seen →
    seen ≤ s.notifications

/-- A new token that is cancelled has notified. -/
theorem Notifies.new (cancelled : Bool) : Notifies (.new cancelled) where
  uncancelled h := by
    subst h
    exact ⟨rfl, fun _ h => by cases h⟩
  pending _ h := by cases h
  hasRun h := by
    show (if cancelled then 1 else 0) = 1
    rw [show cancelled = true from h.1]
    rfl
  seen _ _ h := by rcases h with h | h <;> cases h

variable {s : TokenState}

/-- A waiter moves to a phase that has seen no more than was sent. -/
theorem Notifies.moveWaiter (hs : Notifies s) (w : ℕ) {phase : WaiterPhase}
    (hphase : ∀ seen, phase = .subscribed seen ∨ phase = .awaiting seen →
      seen ≤ s.notifications) : Notifies (s.moveWaiter w phase) where
  uncancelled := hs.uncancelled
  pending := hs.pending
  hasRun := hs.hasRun
  seen v seen hv := by
    rw [TokenState.waiter_moveWaiter] at hv
    split at hv
    · exact hphase seen hv
    · exact hs.seen v seen hv

/-- Setting the flag leaves a canceller that will notify. -/
theorem Notifies.swap (hs : Notifies s) (i : ℕ) : Notifies (s.swap i) := by
  unfold TokenState.swap
  split
  · rename_i hidle
    split
    · rename_i hset
      -- the flag is set already, and `i` has nothing to notify
      have hother : ∀ j, (s.moveCanceller i .finished).canceller j = .swapped →
          s.canceller j = .swapped := by
        intro j hj
        by_cases hji : j = i
        · rw [TokenState.canceller_moveCanceller, if_pos hji] at hj
          cases hj
        · rwa [TokenState.canceller_moveCanceller, if_neg hji] at hj
      refine ⟨fun hclear => ?_, fun j hj => ?_, fun hrun => ?_, hs.seen⟩
      · exact absurd (show s.cancelled = false from hclear) (by rw [hset]; decide)
      · obtain ⟨hnone, honly⟩ := hs.pending j (hother j hj)
        exact ⟨hnone, fun k hk => honly k (hother k hk)⟩
      · refine hs.hasRun ⟨hset, fun j hj => ?_⟩
        have hji : j ≠ i := by
          rintro rfl
          rw [hidle] at hj
          cases hj
        refine hrun.2 j ?_
        rw [TokenState.canceller_moveCanceller, if_neg hji]
        exact hj
    · rename_i hclear
      have hfree := hs.uncancelled (by simpa using hclear)
      refine ⟨fun h => (by cases h), fun j hj => ?_, fun hrun => ?_, hs.seen⟩
      · have honly : ∀ k, (s.moveCanceller i .swapped).canceller k = .swapped → k = i := by
          intro k hk
          by_contra hki
          rw [TokenState.canceller_moveCanceller, if_neg hki] at hk
          exact hfree.2 k hk
        refine ⟨hfree.1, fun k hk => ?_⟩
        rw [honly k hk, honly j hj]
      · have hpending : (s.moveCanceller i .swapped).canceller i = .swapped := by
          rw [TokenState.canceller_moveCanceller, if_pos rfl]
        exact absurd hpending (hrun.2 i)
  · exact hs

/-- Notifying is remembered. -/
theorem Notifies.notifyWaiters (hs : Notifies s) (i : ℕ) : Notifies (s.notifyWaiters i) := by
  unfold TokenState.notifyWaiters
  split
  · rename_i hswapped
    obtain ⟨hnone, honly⟩ := hs.pending i hswapped
    have hdone : ∀ j, (s.moveCanceller i .finished).canceller j ≠ .swapped := by
      intro j hj
      by_cases hji : j = i
      · rw [TokenState.canceller_moveCanceller, if_pos hji] at hj
        cases hj
      · rw [TokenState.canceller_moveCanceller, if_neg hji] at hj
        exact hji (honly j hj)
    refine ⟨fun hclear => ?_, fun j hj => ?_, fun _ => ?_, fun w seen hw => ?_⟩
    · exact absurd hswapped ((hs.uncancelled hclear).2 i)
    · exact absurd hj (hdone j)
    · show s.notifications + 1 = 1
      omega
    · exact (hs.seen w seen hw).trans (Nat.le_succ _)
  · exact hs

/-- Waking a waiter changes no notification. -/
theorem Notifies.wake (hs : Notifies s) (w : ℕ) : Notifies (s.wake w) := by
  unfold TokenState.wake
  split
  · split
    · exact hs
    · exact hs.moveWaiter w (by simp)
  · exact hs

/-- A step of `cancelled` keeps notifications owed or given. -/
theorem Notifies.cancelledStep (hs : Notifies s) (input : TokenInput) :
    Notifies (cancelledStep s input) := by
  cases input with
  | swap i => exact hs.swap i
  | notifyWaiters i => exact hs.notifyWaiters i
  | check w =>
    show Notifies (s.check w)
    unfold TokenState.check
    split
    · refine hs.moveWaiter w fun seen hphase => ?_
      split at hphase <;> simp at hphase
    · exact hs
  | notified w =>
    show Notifies (s.notified w)
    unfold TokenState.notified
    split
    · refine hs.moveWaiter w fun seen hphase => ?_
      simp only [reduceCtorEq, WaiterPhase.awaiting.injEq, false_or] at hphase
      exact hphase.ge
    · exact hs
  | wake w => exact hs.wake w

/-- A step of `signalled` keeps notifications owed or given. -/
theorem Notifies.signalledStep (hs : Notifies s) (input : TokenInput) :
    Notifies (signalledStep s input) := by
  cases input with
  | swap i => exact hs.swap i
  | notifyWaiters i => exact hs.notifyWaiters i
  | notified w =>
    show Notifies (s.enable w)
    unfold TokenState.enable
    split
    · refine hs.moveWaiter w fun seen hphase => ?_
      simp only [reduceCtorEq, WaiterPhase.subscribed.injEq, or_false] at hphase
      exact hphase.ge
    · exact hs
  | check w =>
    show Notifies (s.checkEnabled w)
    unfold TokenState.checkEnabled
    split
    · rename_i seen hsubscribed
      refine hs.moveWaiter w fun seen' hphase => ?_
      split at hphase
      · simp at hphase
      · simp only [reduceCtorEq, WaiterPhase.awaiting.injEq, false_or] at hphase
        exact hphase ▸ hs.seen w seen (Or.inl hsubscribed)
    · exact hs
  | wake w => exact hs.wake w

/-! ## Stranding -/

/-- What changes neither the canceller nor the notifications, and lets nobody begin to
wait, strands nobody. -/
theorem not_stranded_of_moveWaiter (hs : ¬ s.Stranded) {w : ℕ} {phase : WaiterPhase}
    (hphase : phase ≠ .awaiting s.notifications) : ¬ (s.moveWaiter w phase).Stranded := by
  rintro ⟨hrun, v, hv⟩
  refine hs ⟨hrun, v, ?_⟩
  rw [TokenState.waiter_moveWaiter] at hv
  split at hv
  · exact absurd hv hphase
  · exact hv

/-- Setting the flag strands nobody. -/
theorem swap_not_stranded (hs : ¬ s.Stranded) (i : ℕ) :
    ¬ (s.swap i).Stranded := by
  unfold TokenState.swap
  split
  · rename_i hidle
    split
    · rintro ⟨hrun, hw⟩
      refine hs ⟨⟨hrun.1, fun j hj => ?_⟩, hw⟩
      have hji : j ≠ i := by
        rintro rfl
        rw [hidle] at hj
        cases hj
      refine hrun.2 j ?_
      rw [TokenState.canceller_moveCanceller, if_neg hji]
      exact hj
    · rintro ⟨hrun, -⟩
      have hpending : (s.moveCanceller i .swapped).canceller i = .swapped := by
        rw [TokenState.canceller_moveCanceller, if_pos rfl]
      exact hrun.2 i hpending
  · exact hs

/-- Notifying strands nobody. -/
theorem notifyWaiters_not_stranded (hN : Notifies s) (hs : ¬ s.Stranded) (i : ℕ) :
    ¬ (s.notifyWaiters i).Stranded := by
  unfold TokenState.notifyWaiters
  split
  · rintro ⟨-, w, hw⟩
    have hseen := hN.seen w _ (Or.inr hw)
    exact absurd hseen (Nat.not_succ_le_self _)
  · exact hs

/-- Waking strands nobody. -/
theorem wake_not_stranded (hs : ¬ s.Stranded) (w : ℕ) : ¬ (s.wake w).Stranded := by
  unfold TokenState.wake
  split
  · split
    · exact hs
    · exact not_stranded_of_moveWaiter hs (by simp)
  · exact hs

/-- Looking at the flag strands nobody. -/
theorem check_not_stranded (hs : ¬ s.Stranded) (w : ℕ) : ¬ (s.check w).Stranded := by
  unfold TokenState.check
  split
  · refine not_stranded_of_moveWaiter hs ?_
    split <;> simp
  · exact hs

/-- Once the notification is sent, the cancellation has run. -/
theorem Notifies.hasRun_of_sent (hN : Notifies s) (hsent : s.notifications ≠ 0) : s.HasRun := by
  constructor
  · by_contra hclear
    exact hsent (hN.uncancelled (by simpa using hclear)).1
  · intro i hi
    exact hsent (hN.pending i hi).1

/-- A waiter that creates its future strands exactly when it comes after the notification. -/
theorem notified_not_stranded_iff (hN : Notifies s) (hs : ¬ s.Stranded) (w : ℕ) :
    ¬ (s.notified w).Stranded ↔ (s.waiter w = .checked → s.notifications = 0) := by
  unfold TokenState.notified
  split
  · rename_i hchecked
    constructor
    · intro hnot _
      by_contra hsent
      refine hnot ⟨hN.hasRun_of_sent hsent, w, ?_⟩
      rw [TokenState.waiter_moveWaiter, if_pos rfl]
      rfl
    · rintro hnone ⟨hrun, -⟩
      have hone := hN.hasRun hrun
      rw [hnone hchecked] at hone
      cases hone
  · rename_i hchecked
    exact ⟨fun _ h => absurd h hchecked, fun _ => hs⟩

/-- A step of `cancelled` strands nobody exactly when it is timely. -/
theorem cancelledStep_not_stranded_iff (hN : Notifies s) (hs : ¬ s.Stranded) (input : TokenInput) :
    ¬ (cancelledStep s input).Stranded ↔ Timely s input := by
  cases input with
  | swap i => exact iff_of_true (swap_not_stranded hs i) trivial
  | notifyWaiters i => exact iff_of_true (notifyWaiters_not_stranded hN hs i) trivial
  | check w => exact iff_of_true (check_not_stranded hs w) trivial
  | notified w => exact notified_not_stranded_iff hN hs w
  | wake w => exact iff_of_true (wake_not_stranded hs w) trivial

/-- Nobody waits at a new token. -/
theorem TokenState.new_not_stranded (cancelled : Bool) : ¬ (TokenState.new cancelled).Stranded := by
  rintro ⟨-, w, hw⟩
  cases hw

/-! ## Runs of the two tokens -/

/-- No state of a run strands a waiter exactly when no waiter of the run creates its
future after the notification. -/
theorem cancelled_never_stranded_iff (cancelled : Bool) (inputs : List TokenInput) :
    Throughout cancelledStep (fun s => ¬ s.Stranded) (.new cancelled) inputs ↔
      Meets cancelledStep Timely (.new cancelled) inputs :=
  throughout_iff_meets (I := Notifies) (fun _ input hN => hN.cancelledStep input)
    (fun _ input hN hs => cancelledStep_not_stranded_iff hN hs input) (.new cancelled)
    (TokenState.new_not_stranded cancelled)

/-- A waiter looks at the flag, the cancellation runs, and the waiter begins to wait. -/
theorem lateWaiter_stranded :
    ¬ Throughout cancelledStep (fun s => ¬ s.Stranded) (.new false)
      [.check 0, .swap 0, .notifyWaiters 0, .notified 0] := by
  intro h
  refine h.atEnd ⟨⟨rfl, fun i hi => ?_⟩, 0, rfl⟩
  have hcanceller : (after cancelledStep (.new false)
      [.check 0, .swap 0, .notifyWaiters 0, .notified 0]).canceller i =
        if i = 0 then .finished else if i = 0 then .swapped else .idle := by
    show Function.update (Function.update (fun _ => CancellerPhase.idle) 0 .swapped) 0 .finished i = _
    rw [Function.update_apply, Function.update_apply]
  rw [hcanceller] at hi
  split at hi
  · cases hi
  · cases hi

/-- The waiter waits for a notification that was sent before. -/
def StrandedAt (w : ℕ) (s : TokenState) : Prop :=
  s.HasRun ∧ s.waiter w = .awaiting s.notifications

/-- A stranded waiter stays so when another one moves. -/
theorem StrandedAt.moveWaiter {w v : ℕ} (hs : StrandedAt w s) (hv : s.waiter v ≠ s.waiter w)
    (phase : WaiterPhase) : StrandedAt w (s.moveWaiter v phase) := by
  refine ⟨hs.1, ?_⟩
  rw [TokenState.waiter_moveWaiter, if_neg]
  · exact hs.2
  · rintro rfl
    exact hv rfl

/-- A stranded waiter stays stranded. -/
theorem StrandedAt.step {w : ℕ} (hs : StrandedAt w s) (input : TokenInput) :
    StrandedAt w (cancelledStep s input) := by
  obtain ⟨⟨hset, hdone⟩, hwaits⟩ := hs
  have hat : StrandedAt w s := ⟨⟨hset, hdone⟩, hwaits⟩
  cases input with
  | swap i =>
    show StrandedAt w (s.swap i)
    unfold TokenState.swap
    split
    · refine ⟨⟨hset, fun j hj => ?_⟩, hwaits⟩
      rw [TokenState.canceller_moveCanceller] at hj
      split at hj
      · cases hj
      · exact hdone j hj
    · exact hat
  -- every canceller has notified already
  | notifyWaiters i =>
    show StrandedAt w (s.notifyWaiters i)
    rw [TokenState.notifyWaiters, if_neg (hdone i)]
    exact hat
  | check v =>
    show StrandedAt w (s.check v)
    unfold TokenState.check
    split
    · rename_i hlooping
      exact hat.moveWaiter (by rw [hlooping, hwaits]; simp) _
    · exact hat
  -- the stranded waiter has taken its number; only another one can take one here
  | notified v =>
    show StrandedAt w (s.notified v)
    unfold TokenState.notified
    split
    · rename_i hchecked
      exact hat.moveWaiter (by rw [hchecked, hwaits]; simp) _
    · exact hat
  | wake v =>
    show StrandedAt w (s.wake v)
    unfold TokenState.wake
    split
    · rename_i seen hawaiting
      split
      · exact hat
      · rename_i hnew
        refine hat.moveWaiter ?_ _
        rw [hawaiting, hwaits]
        simpa using hnew
    · exact hat

/-- A stranded waiter waits for good, whatever the others do. -/
theorem stranded_forever {w : ℕ} (hs : StrandedAt w s) (inputs : List TokenInput) :
    StrandedAt w (after cancelledStep s inputs) :=
  after_invariant (fun _ input h => h.step input) hs inputs

/-- A waiter of the storage-pressure token that waits has seen no notification. -/
structure Enabled (s : TokenState) : Prop where
  notifies : Notifies s
  unseen : ∀ w seen, s.waiter w = .awaiting seen → seen = 0

/-- A step of `signalled` keeps waiters enabled. -/
theorem Enabled.step (hs : Enabled s) (input : TokenInput) : Enabled (signalledStep s input) := by
  refine ⟨hs.notifies.signalledStep input, ?_⟩
  have hmove : ∀ (w : ℕ) (phase : WaiterPhase), (∀ seen, phase = .awaiting seen → seen = 0) →
      ∀ v seen, (s.moveWaiter w phase).waiter v = .awaiting seen → seen = 0 := by
    intro w phase hphase v seen hv
    rw [TokenState.waiter_moveWaiter] at hv
    split at hv
    · exact hphase seen hv
    · exact hs.unseen v seen hv
  cases input with
  | swap i =>
    show ∀ v seen, (s.swap i).waiter v = .awaiting seen → seen = 0
    unfold TokenState.swap
    split
    · split
      · exact hs.unseen
      · exact hs.unseen
    · exact hs.unseen
  | notifyWaiters i =>
    show ∀ v seen, (s.notifyWaiters i).waiter v = .awaiting seen → seen = 0
    unfold TokenState.notifyWaiters
    split
    · exact hs.unseen
    · exact hs.unseen
  | notified w =>
    show ∀ v seen, (s.enable w).waiter v = .awaiting seen → seen = 0
    unfold TokenState.enable
    split
    · exact hmove w _ (by simp)
    · exact hs.unseen
  | check w =>
    show ∀ v seen, (s.checkEnabled w).waiter v = .awaiting seen → seen = 0
    unfold TokenState.checkEnabled
    split
    · rename_i seen hsubscribed
      refine hmove w _ fun seen' hphase => ?_
      split at hphase
      · cases hphase
      · rename_i hclear
        -- nothing was sent while the flag is clear
        have hnone := (hs.notifies.uncancelled (by simpa using hclear)).1
        have hseen := hs.notifies.seen w seen (Or.inl hsubscribed)
        simp only [WaiterPhase.awaiting.injEq] at hphase
        omega
    · exact hs.unseen
  | wake w =>
    show ∀ v seen, (s.wake w).waiter v = .awaiting seen → seen = 0
    unfold TokenState.wake
    split
    · split
      · exact hs.unseen
      · exact hmove w _ (by simp)
    · exact hs.unseen

/-- An enabled waiter is not stranded. -/
theorem Enabled.not_stranded (hs : Enabled s) : ¬ s.Stranded := by
  rintro ⟨hrun, w, hw⟩
  have hunseen := hs.unseen w _ hw
  rw [hs.notifies.hasRun hrun] at hunseen
  cases hunseen

/-- The order of the storage-pressure token strands nobody, in any interleaving. -/
theorem signalled_never_stranded (cancelled : Bool) (inputs : List TokenInput) :
    Throughout signalledStep (fun s => ¬ s.Stranded) (.new cancelled) inputs := by
  have henabled : Enabled (.new cancelled) := ⟨.new cancelled, fun w seen hw => by cases hw⟩
  have hrun : Throughout signalledStep Enabled (.new cancelled) inputs :=
    throughout_of_meets (I := fun _ => True) (G := fun _ _ => True) (fun _ _ _ => trivial)
      (fun _ input _ hs _ => hs.step input) trivial henabled (meets_of_forall fun _ _ => trivial)
  exact hrun.mono fun _ hs => hs.not_stranded

end Erabi.Cancellation
