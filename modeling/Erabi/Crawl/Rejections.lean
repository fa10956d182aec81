/-
# Rejected observations

Which observations a step rejects as invalid.  Behind the first checks only the
traversal itself can be at fault, so what is rejected is decided by them and by the
canonicalization of the final URL.
-/
import Erabi.Crawl.Step

namespace Erabi.Crawl

open Relational Transaction

variable {ctx : TraversalContext} {readings : ClockReadings} {entry : QueueEntry}
  {observation : PageObservation} {downloadedBytes : ℕ} {s : SemanticTraversal}

/-! ## Failures of the traversal itself -/

/-- The failure is not about the observation. -/
def DiscoveryPreviewError.IsInternal (error : DiscoveryPreviewError) : Prop :=
  error ≠ .providerObservationInvalid ∧ error ≠ .providerObservationRequestMismatch

instance (error : DiscoveryPreviewError) : Decidable error.IsInternal :=
  inferInstanceAs (Decidable (_ ∧ _))

/-- All failures of the computation are internal. -/
abbrev Internal {α : Type} (x : Traverse α) : Prop :=
  FailsWith DiscoveryPreviewError.IsInternal x

section Expansion

variable {source : ObservedSource} {sourceMatch : PageTypeMatch} {sourcePageType : PageTypeId}
  {link : ObservedLink} {resolved canonical : Url} {scope : DomainScopeStatus}

/-- A path fails only by an internal error. -/
theorem internal_pathBase {resolved canonical : Option Url} {scope : Option DomainScopeStatus}
    {state : PreviewUrlState} :
    Internal (lift (pathBase entry source sourceMatch link resolved canonical scope state)) := by
  refine .lift fun e h => ?_
  unfold pathBase at h
  split at h
  · cases h
    decide
  · cases h

theorem judgeTransition_internal {elapsed : ℕ} {src : Url} {targetMatch : PageTypeMatch}
    {t : DiscoveryTransition} {e : DiscoveryPreviewError}
    (h : judgeTransition ctx s elapsed entry src link targetMatch t = .error e) :
    e.IsInternal := by
  have hcheck : ∀ e', checkTransitionBudget ctx s elapsed entry src t targetMatch = .error e' →
      e'.IsInternal := by
    intro e' h'
    unfold checkTransitionBudget at h'
    extract_lets candidate at h'
    split at h'
    · cases h'
    · split at h'
      · cases h'
        decide
      · cases h'
        decide
      · cases h'
      · split at h'
        · cases h'
          decide
        · split at h' <;> cases h'
  unfold judgeTransition at h
  split at h
  · split at h
    · rename_i e' he'
      cases h
      exact hcheck e he'
    · cases h
    · split at h
      · cases h
        decide
      · split at h <;> cases h
  · cases h

theorem queuedDuplicateProspectiveDepth_internal {e : DiscoveryPreviewError}
    (h : queuedDuplicateProspectiveDepth ctx entry sourcePageType s link canonical = .error e) :
    e.IsInternal := by
  unfold queuedDuplicateProspectiveDepth at h
  split at h
  · cases h
  · rename_i target _
    generalize (none : Option ℕ) = minimum at h
    generalize ctx.transitions.filter _ = ts at h
    induction ts generalizing minimum with
    | nil => cases h
    | cons t ts ih =>
      rw [List.foldlM_cons] at h
      cases hdepth : checkedAddU32 entry.depth t.budget.depthContribution with
      | none =>
        rw [hdepth] at h
        cases h
        decide
      | some prospective =>
        rw [hdepth] at h
        exact ih _ h

theorem internal_expandOutOfScope {unique : Bool} :
    Internal (expandOutOfScope entry source sourceMatch link resolved canonical scope unique) :=
  .bind (.write _) fun _ => .bind internal_pathBase fun _ => .write _

theorem internal_expandDuplicate :
    Internal (expandDuplicate ctx entry source sourceMatch sourcePageType link resolved canonical
      scope) := by
  refine .bind (.write _) fun _ => .bind .read fun s => .bind (.lift fun e h => ?_) fun _ =>
    .bind (.write _) fun _ => .bind internal_pathBase fun _ => .write _
  split at h
  · cases h
  · exact queuedDuplicateProspectiveDepth_internal h

theorem internal_evaluateTransition {src : Url} {targetMatch : PageTypeMatch}
    {acc : EvaluatedTransitions} {t : DiscoveryTransition} :
    Internal (evaluateTransition ctx readings entry src link canonical targetMatch acc t) := by
  refine .bind .read fun s => .bind (.lift fun e h => judgeTransition_internal h) fun judgement => ?_
  exact .ite (fun _ => .bind (.write _) fun _ => .pure _) (fun _ => .pure _)

theorem internal_expandNew {link : TraversalObservedLink} {newFromPage : ℕ} :
    Internal (expandNew ctx readings entry source sourceMatch sourcePageType link resolved
      canonical scope newFromPage) := by
  refine .bind (.write _) fun _ => .bind (.foldEach (fun _ _ => internal_evaluateTransition) _ _)
    fun evaluated => .bind .read fun s => .bind (.write _) fun _ => .bind internal_pathBase
    fun path => .bind (.write _) fun _ => ?_
  split
  · exact .pure _
  · exact .bind (.write _) fun _ => .pure _

theorem internal_expandLink {link : TraversalObservedLink} {newFromPage : ℕ} :
    Internal (expandLink ctx readings entry source sourceMatch sourcePageType newFromPage
      link) := by
  refine .bind (.write _) fun _ => .bind .read fun s => .ite (fun _ => ?_) (fun _ => ?_)
  · exact .bind (.write _) fun _ => .pure _
  · split
    · exact .bind (.bind internal_pathBase fun _ => .write _) fun _ => .pure _
    · refine .bind (.lift fun e h => ?_) fun scope => .bind (.write _) fun _ => .ite ?_ ?_
      · rename_i resolved canonical _
        cases hscope : ctx.classify canonical with
        | none =>
          rw [hscope] at h
          cases h
          decide
        | some scope =>
          rw [hscope] at h
          cases h
      · exact fun _ => .bind internal_expandOutOfScope fun _ => .pure _
      · intro _
        refine .ite (fun _ => .bind internal_expandDuplicate fun _ => .pure _) fun _ => ?_
        exact internal_expandNew

/-- The expansion of a page whose base URL parses rejects nothing. -/
theorem internal_expandPage (hparses : ctx.urls.parses source.base = true) :
    Internal (expandPage ctx readings entry observation source sourceMatch) := by
  refine .bind .read fun s => .ite (fun _ => .pure _) fun _ => .bind (.write _) fun _ => ?_
  split
  · exact .pure _
  · exact .bind (.require fun h => absurd hparses h) fun _ =>
      .bind (.foldEach (fun _ _ => internal_expandLink) _ _) fun _ => .write _

end Expansion

/-! ## What a step rejects -/

theorem internal_reconcileFinal {final : Url} : Internal (reconcileFinal entry final) := by
  refine .bind (.write _) fun _ => .ite (fun _ => .bind ?_ fun _ => .write _) fun _ => .pure _
  refine .bind .read fun s => .ite (fun _ => .bind (.write _) fun _ => ?_) fun _ => .pure _
  refine .ite (fun _ => .bind (.write _) fun _ => ?_) fun _ => .pure _
  unfold releaseScheduled
  split
  · exact .pure _
  · exact .bind .read fun s => .bind (.orFail _ (by decide)) fun _ =>
      .bind (.require fun _ => by decide) fun _ => .write _

theorem internal_expandObservation {final : Url} {scope : DomainScopeStatus}
    {pageMatch : Option PageTypeMatch} {hits : List PreviewBudgetHit}
    (hparses : ctx.urls.parses (observation.finalUrl.getD entry.requestedUrl) = true) :
    Internal (expandObservation ctx readings entry observation final scope pageMatch hits) := by
  refine .bind (.write _) fun _ => .bind .read fun s => .ite (fun _ => .write _) fun _ => ?_
  refine .ite (fun _ => .write _) fun _ => .ite (fun _ => ?_) fun _ => .pure _
  split
  · exact .pure _
  · exact internal_expandPage hparses

/-- What the first checks of a step ask of an observation. -/
structure Acceptable (ctx : TraversalContext) (s : SemanticTraversal) (entry : QueueEntry)
    (observation : PageObservation) (downloadedBytes : ℕ) : Prop where
  requested : observation.requestedUrl = entry.requestedUrl
  bytes : downloadedBytes ≤ ctx.limits.maxDownloadedBytes - s.consumedBytes
  links : observation.discoveredLinks.length ≤ maxPreviewLinksPerObservation
  texts : validateObservation ctx observation = true
  canonical : (ctx.canonicalize observation.finalOriginal).isSome = true

/-- A computation fails with a failure that is about the observation. -/
def Rejects {α : Type} (x : Except DiscoveryPreviewError α) : Prop :=
  ∃ e, x = .error e ∧ ¬ e.IsInternal

/-- The provider is blamed exactly for observations that are not acceptable. -/
theorem processObservation_rejects_iff
    (hparses : ctx.urls.parses (observation.finalUrl.getD entry.requestedUrl) = true)
    (hbytes : s.consumedBytes ≤ ctx.limits.maxDownloadedBytes) :
    Rejects (processObservation ctx readings entry observation downloadedBytes s) ↔
      ¬ Acceptable ctx s entry observation downloadedBytes := by
  constructor
  · rintro ⟨e, herror, hrejection⟩ h
    apply hrejection
    rcases bind_eq_error.mp herror with haccept | ⟨_, s₁, -, herror⟩
    · -- The first checks fail only for an observation that is not acceptable.
      rcases require_bind_eq_error.mp haccept with ⟨hnot, -⟩ | ⟨-, haccept⟩
      · exact absurd h.requested hnot
      rw [read_bind] at haccept
      rcases require_bind_eq_error.mp haccept with ⟨hnot, -⟩ | ⟨-, haccept⟩
      · exact absurd hbytes hnot
      rcases require_bind_eq_error.mp haccept with ⟨hnot, -⟩ | ⟨-, haccept⟩
      · exact absurd ⟨h.bytes, h.links⟩ hnot
      rcases require_bind_eq_error.mp haccept with ⟨hnot, -⟩ | ⟨-, haccept⟩
      · exact absurd h.texts hnot
      · cases haccept
    · rcases orFail_bind_eq_error.mp herror with ⟨hnone, -⟩ | ⟨final, -, herror⟩
      · have hcanonical := h.canonical
        rw [hnone] at hcanonical
        cases hcanonical
      · -- Behind the canonicalization no failure is about the observation.
        refine FailsWith.bind internal_reconcileFinal (fun _ => ?_) s₁ e herror
        refine .bind (.orFail _ (by decide)) fun scope => .bind (.write _) fun _ => ?_
        refine .bind .read fun s => .bind (.write _) fun _ => .bind (.write _) fun _ => ?_
        exact internal_expandObservation hparses
  · intro h
    unfold processObservation acceptObservation
    by_cases hrequested : observation.requestedUrl = entry.requestedUrl
    swap
    · exact ⟨_, bind_eq_error.mpr (Or.inl (require_bind_eq_error.mpr (Or.inl ⟨hrequested, rfl⟩))),
        by decide⟩
    by_cases hsize : downloadedBytes ≤ ctx.limits.maxDownloadedBytes - s.consumedBytes ∧
        observation.discoveredLinks.length ≤ maxPreviewLinksPerObservation
    swap
    · refine ⟨.providerObservationInvalid, bind_eq_error.mpr (Or.inl ?_), by decide⟩
      rw [require_bind_of hrequested, read_bind, require_bind_of hbytes]
      exact require_bind_eq_error.mpr (Or.inl ⟨hsize, rfl⟩)
    by_cases htexts : validateObservation ctx observation = true
    swap
    · refine ⟨.providerObservationInvalid, bind_eq_error.mpr (Or.inl ?_), by decide⟩
      rw [require_bind_of hrequested, read_bind, require_bind_of hbytes, require_bind_of hsize]
      exact require_bind_eq_error.mpr (Or.inl ⟨htexts, rfl⟩)
    have hcanonical : ctx.canonicalize observation.finalOriginal = none := by
      rw [← Option.not_isSome_iff_eq_none]
      exact fun hsome => h ⟨hrequested, hsize.1, hsize.2, htexts, hsome⟩
    refine ⟨.providerObservationInvalid, bind_eq_error.mpr (Or.inr ⟨(),
      { s with consumedBytes := s.consumedBytes + downloadedBytes }, ?_, ?_⟩), by decide⟩
    · rw [require_bind_of hrequested, read_bind, require_bind_of hbytes, require_bind_of hsize,
        require_bind_of htexts]
      rfl
    · exact orFail_bind_eq_error.mpr (Or.inl ⟨hcanonical, rfl⟩)

/-- A step that reaches the provider rejects exactly the observations that are not
acceptable, whatever the rest of the traversal. -/
theorem step_rejects_iff {rest : List QueueEntry} (hqueue : s.queue = entry :: rest)
    (htime : readings.atStart < ctx.limits.maxDurationMs)
    (hbytes : s.consumedBytes < ctx.limits.maxDownloadedBytes)
    (hparses : ctx.urls.parses (observation.finalUrl.getD entry.requestedUrl) = true) :
    Rejects (step ctx readings (.observed observation downloadedBytes) s) ↔
      ¬ Acceptable ctx s entry observation downloadedBytes := by
  have hstep : step ctx readings (.observed observation downloadedBytes) s =
      answer ctx readings entry (.observed observation downloadedBytes) s := by
    rw [step, read_bind, hqueue]
    dsimp only
    rw [if_neg (by omega), if_neg (by omega)]
  have hpopped : ((s.pop entry).readClock ctx readings.afterProvider).consumedBytes =
      s.consumedBytes := by
    unfold SemanticTraversal.readClock
    split <;> rfl
  have hacceptable : Acceptable ctx ((s.pop entry).readClock ctx readings.afterProvider) entry
      observation downloadedBytes ↔ Acceptable ctx s entry observation downloadedBytes := by
    constructor
    · rintro ⟨hrequested, hsize, hlinks, htexts, hcanonical⟩
      exact ⟨hrequested, by rwa [hpopped] at hsize, hlinks, htexts, hcanonical⟩
    · rintro ⟨hrequested, hsize, hlinks, htexts, hcanonical⟩
      exact ⟨hrequested, by rwa [hpopped], hlinks, htexts, hcanonical⟩
  rw [hstep, ← hacceptable, ← processObservation_rejects_iff hparses (by omega)]
  constructor
  · rintro ⟨e, herror, hrejection⟩
    rw [answer, read_bind, write_bind] at herror
    rcases bind_eq_error.mp herror with hprocess | ⟨_, s₁, -, herror⟩
    · exact ⟨e, hprocess, hrejection⟩
    · cases herror
  · rintro ⟨e, herror, hrejection⟩
    refine ⟨e, ?_, hrejection⟩
    rw [answer, read_bind, write_bind]
    exact bind_eq_error.mpr (Or.inl herror)

end Erabi.Crawl
