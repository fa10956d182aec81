/-
# The duration cap of a run

Two clocks measure the cap.  The traversal carries its elapsed time from attempt
to attempt through the durable control row; the deadline of the page execution
is new in each attempt.  A run is a sequence of attempts, of pages with any delay
before the provider is called, and of the saves in between.
-/
import Erabi.Transition.Run

namespace Erabi.Production

open Transition

/-! ## The two clocks -/

/-- The frozen caps of a run. -/
structure DurationLimits where
  maxDurationMs : ℕ
  /-- `timeout_ms`: the timeout of one page. -/
  timeoutMs : ℕ

/-- The deadline of an attempt. -/
structure ProductionDeadline where
  startedAtMillis : ℕ
  maxDurationMillis : ℕ
deriving DecidableEq, Repr

/-- `remaining_timeout`: what the deadline leaves of the page timeout. -/
def ProductionDeadline.remainingTimeout (deadline : ProductionDeadline) (nowMillis : ℕ)
    (perPageTimeoutMillis : ℕ) : Option ℕ :=
  let elapsed := nowMillis - deadline.startedAtMillis
  if elapsed < deadline.maxDurationMillis then
    some (min (deadline.maxDurationMillis - elapsed) perPageTimeoutMillis)
  else none

/-- The clock of a traversal: when it was created, and the start that its elapsed
time is measured from, which lies earlier by the time it carries. -/
structure TraversalClock where
  createdAtMillis : ℕ
  startMillis : ℕ
deriving DecidableEq, Repr

/-- The time since the traversal began. -/
def TraversalClock.elapsedMillis (traversal : TraversalClock) (nowMillis : ℕ) : ℕ :=
  nowMillis - traversal.startMillis

/-- One attempt in the crawl stage: its deadline, and its traversal once it has
been created or restored. -/
structure CrawlStage where
  deadline : ProductionDeadline
  traversal : Option TraversalClock
deriving DecidableEq, Repr

/-- A timeout granted to the provider, and the traversal time spent before the
call. -/
structure Grant where
  timeoutMillis : ℕ
  totalMillis : ℕ
deriving DecidableEq, Repr

/-- A run: the attempt in the crawl stage, the elapsed time in the control row, the
traversal time of the attempts that have ended, and the granted timeouts. -/
structure DurationRun where
  nowMillis : ℕ
  stage : Option CrawlStage
  elapsedMillis : Option ℕ
  spentMillis : ℕ
  grants : List Grant
deriving DecidableEq, Repr

/-- A run that has just begun. -/
def DurationRun.start (nowMillis : ℕ) : DurationRun := ⟨nowMillis, none, none, 0, []⟩

/-- The traversal time accumulated over all attempts. -/
def DurationRun.totalMillis (run : DurationRun) (traversal : TraversalClock) (nowMillis : ℕ) :
    ℕ := run.spentMillis + (nowMillis - traversal.createdAtMillis)

/-- What may happen in a run. -/
inductive DurationInput where
  | wait (millis : ℕ)
  /-- `run_crawl_stage` creates the deadline of its attempt. -/
  | openStage
  /-- The traversal is created, or restored with the elapsed time of the control row. -/
  | openTraversal
  /-- The control row and the checkpoint take over the elapsed time. -/
  | save
  /-- A unit whose provider is called after `delayMillis` of robots and pacing, if at
  all, and answers after `durationMillis`.  The progress write between the grant and
  the call takes no time. -/
  | page (delayMillis durationMillis : ℕ)
  /-- The attempt ends, orderly or not. -/
  | close
deriving DecidableEq, Repr

/-! ## Runs -/

section Run

variable (limits : DurationLimits)

/-- The timeout that a unit gets at `run.nowMillis + delayMillis`, when its step
reaches the provider. -/
def grantedTimeout (run : DurationRun) (stage : CrawlStage) (traversal : TraversalClock)
    (delayMillis : ℕ) : Option ℕ :=
  if traversal.elapsedMillis run.nowMillis ≥ limits.maxDurationMs then none
  else stage.deadline.remainingTimeout (run.nowMillis + delayMillis) limits.timeoutMs

/-- A unit in an open traversal. -/
def DurationRun.page (run : DurationRun) (stage : CrawlStage) (traversal : TraversalClock)
    (delayMillis durationMillis : ℕ) : DurationRun :=
  match grantedTimeout limits run stage traversal delayMillis with
  | none => { run with nowMillis := run.nowMillis + delayMillis }
  | some timeoutMillis =>
    { run with
      nowMillis := run.nowMillis + delayMillis + durationMillis
      grants := run.grants ++
        [⟨timeoutMillis, run.totalMillis traversal (run.nowMillis + delayMillis)⟩] }

/-- The deadline of an attempt is created before anything else, and the traversal
starts as much earlier as its elapsed time says. -/
def durationStep (run : DurationRun) (input : DurationInput) : DurationRun :=
  match input, run.stage with
  | .wait millis, _ => { run with nowMillis := run.nowMillis + millis }
  | .openStage, none =>
    { run with stage := some ⟨⟨run.nowMillis, limits.maxDurationMs⟩, none⟩ }
  | .openTraversal, some ⟨deadline, none⟩ =>
    { run with stage := some ⟨deadline,
        some ⟨run.nowMillis, run.nowMillis - run.elapsedMillis.getD 0⟩⟩ }
  | .save, some ⟨_, some traversal⟩ =>
    { run with elapsedMillis := some (traversal.elapsedMillis run.nowMillis) }
  | .page delayMillis durationMillis, some ⟨deadline, some traversal⟩ =>
    run.page limits ⟨deadline, some traversal⟩ traversal delayMillis durationMillis
  | .close, some ⟨_, some traversal⟩ =>
    { run with stage := none, spentMillis := run.totalMillis traversal run.nowMillis }
  | .close, some ⟨_, none⟩ => { run with stage := none }
  | _, _ => run

/-! ## The cap -/

/-- The provider is called before the cap is reached, and with no more than what is
left of it. -/
def Grant.WithinCap (grant : Grant) : Prop :=
  grant.totalMillis < limits.maxDurationMs ∧
    grant.timeoutMillis ≤ limits.maxDurationMs - grant.totalMillis

/-- Every grant of a run was within the cap. -/
def DurationRun.WithinCap (run : DurationRun) : Prop :=
  ∀ grant ∈ run.grants, grant.WithinCap limits

/-- A unit that gets a timeout belongs to an attempt before which no more traversal
time was spent than lies between its deadline and its traversal, or still has its
whole page timeout left. -/
def FitsCap (run : DurationRun) (input : DurationInput) : Prop :=
  match input, run.stage with
  | .page delayMillis _, some ⟨deadline, some traversal⟩ =>
    (grantedTimeout limits run ⟨deadline, some traversal⟩ traversal delayMillis).isSome →
      run.spentMillis ≤ traversal.createdAtMillis - deadline.startedAtMillis ∨
      run.totalMillis traversal (run.nowMillis + delayMillis) < limits.maxDurationMs ∧
        limits.timeoutMs +
          run.totalMillis traversal (run.nowMillis + delayMillis) ≤ limits.maxDurationMs
  | _, _ => True

instance (run : DurationRun) (input : DurationInput) : Decidable (FitsCap limits run input) := by
  unfold FitsCap
  split <;> infer_instance

/-- The clocks of an attempt are created in order, under the cap of the run. -/
def DurationRun.Ordered (run : DurationRun) : Prop :=
  ∀ stage ∈ run.stage, stage.deadline.maxDurationMillis = limits.maxDurationMs ∧
    stage.deadline.startedAtMillis ≤ run.nowMillis ∧
    ∀ traversal ∈ stage.traversal,
      stage.deadline.startedAtMillis ≤ traversal.createdAtMillis ∧
      traversal.createdAtMillis ≤ run.nowMillis

end Run

variable {limits : DurationLimits}

/-- A timeout is granted from what is left of the deadline. -/
theorem grantedTimeout_eq_some {run : DurationRun} {stage : CrawlStage}
    {traversal : TraversalClock} {delay timeout : ℕ}
    (h : grantedTimeout limits run stage traversal delay = some timeout) :
    run.nowMillis + delay - stage.deadline.startedAtMillis < stage.deadline.maxDurationMillis ∧
      timeout = min (stage.deadline.maxDurationMillis -
        (run.nowMillis + delay - stage.deadline.startedAtMillis)) limits.timeoutMs := by
  unfold grantedTimeout ProductionDeadline.remainingTimeout at h
  split at h
  · cases h
  · dsimp only at h
    split at h
    · rename_i hleft
      exact ⟨hleft, (Option.some.inj h).symm⟩
    · cases h

/-- Later clocks are still in order. -/
theorem DurationRun.Ordered.later {run run' : DurationRun} (h : run.Ordered limits)
    (hstage : run'.stage = run.stage) (hnow : run.nowMillis ≤ run'.nowMillis) :
    run'.Ordered limits := by
  intro stage hmem
  rw [hstage] at hmem
  obtain ⟨hmax, hstart, htraversal⟩ := h stage hmem
  exact ⟨hmax, hstart.trans hnow, fun t ht =>
    ⟨(htraversal t ht).1, (htraversal t ht).2.trans hnow⟩⟩

/-- A page keeps the readings in order. -/
theorem DurationRun.Ordered.page {run : DurationRun} {stage : CrawlStage}
    {traversal : TraversalClock} {delay duration : ℕ} (h : run.Ordered limits) :
    (run.page limits stage traversal delay duration).Ordered limits := by
  unfold DurationRun.page
  split
  · exact h.later rfl (Nat.le_add_right _ _)
  · exact h.later rfl (by dsimp only; omega)

/-- Every step keeps the clocks in order. -/
theorem DurationRun.Ordered.step {run : DurationRun} (h : run.Ordered limits)
    (input : DurationInput) : (durationStep limits run input).Ordered limits := by
  -- by what is open: nothing, a stage, or a stage with its traversal
  rcases hstage : run.stage with _ | ⟨deadline, _ | traversal⟩
  · have hnone : (durationStep limits run input).stage = none ∨
        input = .openStage := by
      cases input <;> simp [durationStep, hstage]
    rcases hnone with hnone | rfl
    · intro stage hmem
      rw [hnone] at hmem
      cases hmem
    · intro stage hmem
      simp only [durationStep, hstage] at hmem ⊢
      cases hmem
      exact ⟨rfl, le_rfl, fun t ht => by cases ht⟩
  · obtain ⟨hmax, hstart, _⟩ := h _ hstage
    cases input with
    | wait millis => exact h.later rfl (Nat.le_add_right _ _)
    | openTraversal =>
      intro stage hmem
      simp only [durationStep, hstage] at hmem ⊢
      cases hmem
      refine ⟨hmax, hstart, fun t ht => ?_⟩
      cases ht
      exact ⟨hstart, le_rfl⟩
    | close =>
      intro stage hmem
      simp only [durationStep, hstage] at hmem
      cases hmem
    | openStage => simpa only [durationStep, hstage] using h
    | save => simpa only [durationStep, hstage] using h
    | page delay duration => simpa only [durationStep, hstage] using h
  · cases input with
    | wait millis => exact h.later rfl (Nat.le_add_right _ _)
    | save =>
      have hkept : (durationStep limits run .save).stage = run.stage ∧
          (durationStep limits run .save).nowMillis = run.nowMillis := by
        simp [durationStep, hstage]
      exact h.later hkept.1 hkept.2.ge
    | page delay duration =>
      simp only [durationStep, hstage]
      exact h.page
    | close =>
      intro stage hmem
      simp only [durationStep, hstage] at hmem
      cases hmem
    | openStage => simpa only [durationStep, hstage] using h
    | openTraversal => simpa only [durationStep, hstage] using h

/-- A granted timeout is within the cap exactly when its unit fits. -/
theorem withinCap_iff_fits {run : DurationRun} {stage : CrawlStage} {traversal : TraversalClock}
    {delay timeout : ℕ} (hmax : stage.deadline.maxDurationMillis = limits.maxDurationMs)
    (hstart : stage.deadline.startedAtMillis ≤ traversal.createdAtMillis)
    (hcreated : traversal.createdAtMillis ≤ run.nowMillis)
    (h : grantedTimeout limits run stage traversal delay = some timeout) :
    Grant.WithinCap limits ⟨timeout, run.totalMillis traversal (run.nowMillis + delay)⟩ ↔
      run.spentMillis ≤ traversal.createdAtMillis - stage.deadline.startedAtMillis ∨
      run.totalMillis traversal (run.nowMillis + delay) < limits.maxDurationMs ∧
        limits.timeoutMs +
          run.totalMillis traversal (run.nowMillis + delay) ≤ limits.maxDurationMs := by
  obtain ⟨hleft, htimeout⟩ := grantedTimeout_eq_some h
  rw [hmax] at hleft htimeout
  simp only [Grant.WithinCap, DurationRun.totalMillis]
  omega

/-- From a run within the cap, a step leads to a run within the cap exactly when its
unit fits. -/
theorem durationStep_withinCap_iff {run : DurationRun} {input : DurationInput}
    (ho : run.Ordered limits) (hw : run.WithinCap limits) :
    (durationStep limits run input).WithinCap limits ↔ FitsCap limits run input := by
  have hsame : ∀ {run' : DurationRun}, run'.grants = run.grants → run'.WithinCap limits := by
    intro run' heq grant hgrant
    exact hw grant (heq ▸ hgrant)
  rcases hstage : run.stage with _ | ⟨deadline, _ | traversal⟩
  · refine iff_of_true (hsame ?_) ?_
    · cases input <;> simp [durationStep, hstage]
    · cases input <;> simp [FitsCap, hstage]
  · refine iff_of_true (hsame ?_) ?_
    · cases input <;> simp [durationStep, hstage]
    · cases input <;> simp [FitsCap, hstage]
  · obtain ⟨hmax, hnow, htraversal⟩ := ho _ hstage
    obtain ⟨hstart, hcreated⟩ := htraversal traversal rfl
    cases input with
    | page delay duration =>
      simp only [durationStep, FitsCap, hstage, DurationRun.page]
      rcases hgranted : grantedTimeout limits run ⟨deadline, some traversal⟩ traversal delay with
        _ | timeout
      · exact iff_of_true (hsame rfl) fun hsome => by cases hsome
      · have hiff := withinCap_iff_fits hmax hstart hcreated hgranted
        constructor
        · intro h _
          exact hiff.mp (h _ (List.mem_append_right _ (List.mem_singleton_self _)))
        · intro h grant hgrant
          rcases List.mem_append.mp hgrant with hold | hnew
          · exact hw grant hold
          · rw [List.mem_singleton.mp hnew]
            exact hiff.mpr (h rfl)
    | wait millis => exact iff_of_true (hsame rfl) (by simp [FitsCap])
    | openStage => exact iff_of_true (hsame (by simp [durationStep, hstage])) (by simp [FitsCap])
    | openTraversal =>
      exact iff_of_true (hsame (by simp [durationStep, hstage])) (by simp [FitsCap])
    | save => exact iff_of_true (hsame (by simp [durationStep, hstage])) (by simp [FitsCap])
    | close => exact iff_of_true (hsame (by simp [durationStep, hstage])) (by simp [FitsCap])

/-- **The duration cap** holds throughout a run exactly when every unit fits: it is
called in an attempt without earlier traversal time to account for, or while its
whole page timeout is left of the cap. -/
theorem withinCap_throughout_iff (limits : DurationLimits) (nowMillis : ℕ)
    (inputs : List DurationInput) :
    Throughout (durationStep limits) (DurationRun.WithinCap limits) (.start nowMillis) inputs ↔
      Meets (durationStep limits) (FitsCap limits) (.start nowMillis) inputs :=
  throughout_iff_meets (I := DurationRun.Ordered limits) (fun _ input ho => ho.step input)
    (fun _ _ ho hw => durationStep_withinCap_iff ho hw)
    (fun _ h => by cases h) fun _ h => by cases h

/-- A second attempt grants 600 ms where the first has left 100 of its 1000. -/
theorem second_attempt_exceeds_cap :
    ¬ Throughout (durationStep ⟨1000, 600⟩) (DurationRun.WithinCap ⟨1000, 600⟩) (.start 0)
      [.openStage, .openTraversal, .page 0 500, .wait 400, .save, .close, .openStage,
        .openTraversal, .page 0 0] := by
  intro h
  have hgranted := h.atEnd ⟨600, 900⟩ (by decide)
  exact absurd hgranted.2 (by decide)

end Erabi.Production
