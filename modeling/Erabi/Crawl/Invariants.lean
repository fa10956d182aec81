/-
# What every step keeps

The changes that the steps of a traversal are made of, each with what is known
when it happens.  A property of traversals that every change keeps is kept by
every step, and one proof about the changes is all that an invariant needs.
-/
import Erabi.Crawl.Effects

namespace Erabi.Crawl

open Relational Transaction

variable {ctx : TraversalContext} {readings : ClockReadings} {entry : QueueEntry}

/-! ## The base relations -/

/-- Relations between the sets of a traversal that every restoration demands. -/
structure Base (s : SemanticTraversal) : Prop where
  queued : ∀ e ∈ s.queued.rows, e.canonicalUrl ∈ s.admitted
  admitted : ∀ u ∈ s.admitted, u ∈ s.seen
  sampled : ∀ u ∈ s.sampled, u ∈ s.seen
  expanded : ∀ u ∈ s.expanded, u ∈ s.sampled
  newly : s.newlyEnqueuedUrls = s.admitted.size
  pages : s.pagesSampled = s.sampled.size

/-- Only the report and its counters differ. -/
structure Frame (s s' : SemanticTraversal) : Prop where
  eq : s' = { s with
    pages := s'.pages
    seeds := s'.seeds
    paths := s'.paths
    urlsDiscovered := s'.urlsDiscovered
    duplicatesPrevented := s'.duplicatesPrevented
    robotsExcluded := s'.robotsExcluded
    providerErrors := s'.providerErrors
    externalUrls := s'.externalUrls
    blockedUrls := s'.blockedUrls
    peakNewFromPage := s'.peakNewFromPage
    timeBudgetHit := s'.timeBudgetHit
    paginationTruncationCount := s'.paginationTruncationCount
    durationWorkNotExpanded := s'.durationWorkNotExpanded }

/-- The traversal with the admission of a redirected unit under its final URL. -/
def SemanticTraversal.redirect (s : SemanticTraversal) (aliasUrl final : Url)
    (scheduled : PageTypeCounts) : SemanticTraversal :=
  (s.moveTo aliasUrl final scheduled).dropAlias aliasUrl final

/-! ## The changes -/

/-- What is known of a redirect of a unit that has left the queue. -/
structure Redirection (s : SemanticTraversal) (aliasUrl final : Url)
    (scheduled : PageTypeCounts) : Prop where
  admitted : aliasUrl ∈ s.admitted
  popped : ∀ e ∈ s.queued.rows, e.canonicalUrl ≠ aliasUrl
  ne : final ≠ aliasUrl
  seen : final ∈ s.seen
  scheduled : Released s.pageTypeScheduled scheduled

/-- What is known of a final URL whose first observation is counted. -/
structure Sampling (ctx : TraversalContext) (s : SemanticTraversal) (final : Url)
    (scope : DomainScopeStatus) : Prop where
  seen : final ∈ s.seen
  admitted : final ∈ s.admitted
  popped : ∀ e ∈ s.queued.rows, e.canonicalUrl ≠ final
  classify : ctx.classify final = some scope
  first : final ∉ s.sampled

/-- What is known of an entry admitted from a page of `parent`. -/
structure Admission (ctx : TraversalContext) (s : SemanticTraversal) (parent entry : QueueEntry)
    (winner : PageTypeId) : Prop where
  seen : entry.canonicalUrl ∈ s.seen
  admitted : entry.canonicalUrl ∉ s.admitted
  sampled : entry.canonicalUrl ∉ s.sampled
  room : s.admitted.size < ctx.limits.maxPages
  budget : ∀ limit ∈ ctx.guardrails.pageBudget winner,
    (s.pageTypeScheduled winner).getD 0 < limit
  resolved : ctx.resolvePageType entry.canonicalUrl = .matched winner
  target : entry.targetPageTypeId = some winner
  depth : entry.depth ≤ ctx.limits.maxDepth
  deeper : parent.depth ≤ entry.depth
  seedIds : entry.seedIds = parent.seedIds
  requested : entry.requestedUrl = entry.canonicalUrl
  transition : ∀ id ∈ entry.transitionId, knownTransition ctx id = true
  parentUrl : ∃ source ∈ s.sampled, entry.parentCanonicalUrl = some source
  order : entry.order = s.nextOrder ctx

/-- `F` holds of the final URL of an outcome, and `L` of the targets of its links. -/
def ProviderOutcome.Leads (ctx : TraversalContext) (F L : Url → Prop) : ProviderOutcome → Prop
  | .observed observation _ =>
    (∀ final ∈ ctx.canonicalize observation.finalOriginal, F final) ∧
    ∀ link ∈ observation.links, ∀ target ∈
      resolveHref ctx observation.finalOriginal link.link.rawHref, L target.2
  | .robotsExcluded _ | .pageFailed _ | .interrupted _ | .unavailable => True

/-- Any answer leads where all URLs may be led to. -/
theorem ProviderOutcome.leads_of_forall {F L : Url → Prop} (hF : ∀ u, F u) (hL : ∀ u, L u)
    (outcome : ProviderOutcome) : outcome.Leads ctx F L := by
  cases outcome with
  | observed observation downloadedBytes => exact ⟨fun u _ => hF u, fun _ _ _ _ => hL _⟩
  | robotsExcluded reason => trivial
  | pageFailed diagnostic => trivial
  | interrupted reason => trivial
  | unavailable => trivial

/-- Every change that processes a unit keeps `P`, which says `Q` of the unit, when
`F` holds of its final URL and `L` of the links of its page. -/
structure Invariant (ctx : TraversalContext) (P : SemanticTraversal → Prop)
    (Q : QueueEntry → Prop) (F L : Url → Prop) : Prop where
  base : ∀ {s}, P s → Base s
  frame : ∀ {s s'}, P s → Frame s s' → P s'
  consume : ∀ {s n}, s.consumedBytes + n ≤ ctx.limits.maxDownloadedBytes → P s →
    P (s.consume n)
  see : ∀ {s u}, F u ∨ L u → P s → P { s with seen := s.seen.insert u }
  redirect : ∀ {s e f scheduled}, Q e → F f → Redirection s e.canonicalUrl f scheduled → P s →
    P (s.redirect e.canonicalUrl f scheduled)
  register : ∀ {s u fromHref}, u ∈ s.seen → F u ∨ L u → ctx.classify u = some .inScope → P s →
    P (s.registerMatch u (ctx.resolvePageType u) fromHref)
  sample : ∀ {s f scope}, F f → Sampling ctx s f scope → P s →
    P (s.sample f (observedMatch ctx f scope) (pageState scope (observedMatch ctx f scope)))
  expand : ∀ {s f}, f ∈ s.sampled → P s → P { s with expanded := s.expanded.insert f }
  merge : ∀ {s u e depth}, Q e → (∀ d ∈ depth, e.depth ≤ d) → P s →
    P (s.mergeQueuedDuplicateProvenance u e.seedIds depth)
  consumeTransition : ∀ {s elapsed e source link targetMatch t depth}, t ∈ ctx.transitions →
    judgeTransition ctx s elapsed e source link targetMatch t = .ok (.eligible depth) →
    source ∈ s.sampled → P s → P (s.consumeTransition t source)
  enqueue : ∀ {before s parent e winner}, P before → e.canonicalUrl ∉ before.seen → Q parent →
    Admission ctx s parent e winner → P s → P (s.enqueue e winner)

/-! ## Transitions of one link -/

section Evaluation

variable {link : ObservedLink} {targetMatch : PageTypeMatch} {src canonical : Url}

/-- The depth of an eligible transition is within the limit and not above its
source. -/
theorem judgeTransition_depth {s : SemanticTraversal} {elapsed depth : ℕ}
    {t : DiscoveryTransition}
    (h : judgeTransition ctx s elapsed entry src link targetMatch t = .ok (.eligible depth)) :
    depth ≤ ctx.limits.maxDepth ∧ entry.depth ≤ depth := by
  unfold judgeTransition at h
  split at h
  · rcases hcheck : checkTransitionBudget ctx s elapsed entry src t targetMatch with e | _ | hit
    · rw [hcheck] at h
      cases h
    · rw [hcheck] at h
      dsimp only at h
      rcases hadd : checkedAddU32 entry.depth t.budget.depthContribution with _ | sum
      · rw [hadd] at h
        cases h
      rw [hadd] at h
      dsimp only at h
      by_cases hdepth : sum > ctx.limits.maxDepth
      · rw [if_pos hdepth] at h
        cases h
      · rw [if_neg hdepth] at h
        cases h
        have hsum := checkedAddU32_eq_some hadd
        omega
    · rw [hcheck] at h
      cases h
  · cases h

/-- The eligible transitions known so far belong to the version and lead to
depths within the limit that are not above the source. -/
def EvaluatedTransitions.Sound (ctx : TraversalContext) (entry : QueueEntry)
    (acc : EvaluatedTransitions) : Prop :=
  ∀ e ∈ acc.eligible, e.1 ∈ ctx.transitions ∧ e.2 ≤ ctx.limits.maxDepth ∧ entry.depth ≤ e.2

/-- One more judgement keeps the evaluations sound. -/
theorem EvaluatedTransitions.Sound.add {acc : EvaluatedTransitions} {s : SemanticTraversal}
    {elapsed : ℕ} {t : DiscoveryTransition} {judgement : TransitionJudgement}
    (h : acc.Sound ctx entry) (ht : t ∈ ctx.transitions)
    (hj : judgeTransition ctx s elapsed entry src link targetMatch t = .ok judgement) :
    (acc.add link targetMatch t judgement).Sound ctx entry := by
  intro e he
  cases judgement with
  | ineligible => exact h e he
  | excluded hit => exact h e he
  | eligible depth =>
    rcases List.mem_append.mp he with he | he
    · exact h e he
    · rw [List.mem_singleton.mp he]
      exact ⟨ht, judgeTransition_depth hj⟩

end Evaluation

/-- The depth is that of an eligible transition. -/
theorem EvaluatedTransitions.depth_mem {evaluated : EvaluatedTransitions} {depth : ℕ}
    (h : evaluated.depth = some depth) : ∃ e ∈ evaluated.eligible, e.2 = depth := by
  have hmem := List.min?_mem h
  exact List.mem_map.mp hmem

/-- The transition is an eligible one. -/
theorem EvaluatedTransitions.transitionId_mem {evaluated : EvaluatedTransitions} {depth : ℕ}
    {id : TransitionId} (h : evaluated.transitionId depth = some id) :
    ∃ e ∈ evaluated.eligible, e.1.id = id := by
  have hmem := List.min?_mem h
  obtain ⟨e, he, hid⟩ := List.mem_map.mp hmem
  exact ⟨e, (List.mem_filter.mp he).1, hid⟩

/-- An admission is decided within the page budgets. -/
theorem decideAdmission_eq_some {s : SemanticTraversal} {targetMatch : PageTypeMatch}
    {evaluated : EvaluatedTransitions} {admission : PageTypeId × ℕ × Option TransitionId}
    (h : (decideAdmission ctx s targetMatch evaluated).admission = some admission) :
    evaluated.depth = some admission.2.1 ∧ targetMatch.winner = some admission.1 ∧
      admission.2.2 = evaluated.transitionId admission.2.1 ∧
      s.admitted.size < ctx.limits.maxPages ∧
      ∀ limit ∈ ctx.guardrails.pageBudget admission.1,
        (s.pageTypeScheduled admission.1).getD 0 < limit := by
  unfold decideAdmission at h
  rcases hdepth : evaluated.depth with _ | depth
  · rw [hdepth] at h
    cases h
  rcases hwinner : targetMatch.winner with _ | winner
  · rw [hdepth, hwinner] at h
    cases h
  rw [hdepth, hwinner] at h
  dsimp only at h
  split at h
  · cases h
  rename_i hbudget
  split at h
  · cases h
  rename_i hroom
  cases h
  refine ⟨rfl, rfl, rfl, not_le.mp hroom, fun limit hlimit => ?_⟩
  rw [Option.mem_def.mp hlimit] at hbudget
  simpa using hbudget

/-- A winner makes a match. -/
theorem PageTypeMatch.eq_matched {m : PageTypeMatch} {winner : PageTypeId}
    (h : m.winner = some winner) : m = .matched winner := by
  cases m with
  | matched w =>
    cases h
    rfl
  | ambiguous candidates => cases h
  | unmatched => cases h

/-! ## Steps -/

namespace Invariant

variable {P : SemanticTraversal → Prop} {Q : QueueEntry → Prop} {F L : Url → Prop}
  (h : Invariant ctx P Q F L) {source : ObservedSource} {sourceMatch : PageTypeMatch}
  {sourcePageType : PageTypeId}

include h

/-- Evaluating transitions keeps the invariant and is sound. -/
theorem evaluate {link : ObservedLink} {canonical src : Url} {targetMatch : PageTypeMatch}
    {ts : List DiscoveryTransition} (hts : ∀ t ∈ ts, t ∈ ctx.transitions) :
    ∀ {acc acc' : EvaluatedTransitions} {s s' : SemanticTraversal},
      foldEach (evaluateTransition ctx readings entry src link canonical targetMatch) acc ts s =
        .ok (acc', s') → src ∈ s.sampled → acc.Sound ctx entry → P s →
      acc'.Sound ctx entry ∧ P s' := by
  induction ts with
  | nil =>
    intro acc acc' s s' hfold _ hacc hs
    cases hfold
    exact ⟨hacc, hs⟩
  | cons t ts ih =>
    intro acc acc' s s' hfold hsrc hacc hs
    obtain ⟨acc₁, s₁, hround, hrest⟩ := bind_eq_ok.mp hfold
    obtain ⟨judgement, hj, rfl, hs₁⟩ := evaluateTransition_eq_ok hround
    have ht := hts t List.mem_cons_self
    have hsampled : s₁.sampled = s.sampled := by
      rw [hs₁]
      split <;> rfl
    have hP : P s₁ := by
      rw [hs₁]
      cases judgement with
      | ineligible => exact hs
      | excluded hit => exact hs
      | eligible depth => exact h.consumeTransition ht hj hsrc hs
    exact ih (fun t ht => hts t (List.mem_cons_of_mem _ ht)) hrest (hsampled ▸ hsrc)
      (hacc.add ht hj) hP

/-- Seeing a link keeps the invariant. -/
theorem seeLink {s : SemanticTraversal} {canonical : Url} (hL : L canonical) (hs : P s) :
    P (s.see canonical) := h.frame (h.see (Or.inr hL) hs) ⟨rfl⟩

/-- A link keeps the invariant. -/
theorem link {link : TraversalObservedLink} {s s' : SemanticTraversal}
    (ho : LinkOutcome ctx readings entry source sourceMatch sourcePageType link s s')
    (hL : ∀ target ∈ resolveHref ctx source.base link.link.rawHref, L target.2)
    (hsource : source.canonical ∈ s.sampled) (hQ : Q entry) (hs : P s) :
    P s' ∧ s'.sampled = s.sampled := by
  cases ho with
  | dropped full => exact ⟨h.frame hs ⟨rfl⟩, rfl⟩
  | invalid path => exact ⟨h.frame hs ⟨rfl⟩, rfl⟩
  | outOfScope path resolved canonical scope room resolve =>
    have hseen : P (s.see canonical) := h.seeLink (hL _ resolve) hs
    rw [SemanticTraversal.leaveScope]
    split
    · exact ⟨h.frame hseen ⟨rfl⟩, rfl⟩
    · exact ⟨h.frame hseen ⟨rfl⟩, rfl⟩
  | duplicate path resolved canonical depth room resolve classify seen deeper =>
    have hseen : P (s.see canonical) := h.seeLink (hL _ resolve) hs
    rw [SemanticTraversal.repeatLink]
    split
    · exact ⟨h.frame hseen ⟨rfl⟩, rfl⟩
    · exact ⟨h.frame (h.merge hQ deeper hseen) ⟨rfl⟩, rfl⟩
  -- a new link is matched, its transitions are charged, and only then is it admitted or
  -- dropped
  | new path resolved canonical evaluated s₁ room resolve classify unseen evaluation base =>
    have hmet : P (s.meet ctx canonical) :=
      h.register (KeySet.mem_insert.mpr (Or.inr rfl)) (Or.inr (hL _ resolve)) classify
        (h.seeLink (hL _ resolve) hs)
    obtain ⟨hsound, hs₁⟩ := h.evaluate (fun t ht => (TraversalContext.mem_sortedTransitionsFor.mp ht).1)
      evaluation hsource (fun e he => by cases he) hmet
    have hcounters := (evaluateTransitions_countersOnly evaluation).eq
    have hsampled : s₁.sampled = s.sampled := by rw [hcounters]; rfl
    have hadmitted : s₁.admitted = s.admitted := by rw [hcounters]; rfl
    have hseen : canonical ∈ s₁.seen := by
      rw [hcounters]
      exact KeySet.mem_insert.mpr (Or.inr rfl)
    rw [SemanticTraversal.settleNew]
    cases hadmission : (decideAdmission ctx s₁ (ctx.resolvePageType canonical) evaluated).admission with
    | none => exact ⟨h.frame hs₁ ⟨rfl⟩, hsampled⟩
    | some admission =>
      obtain ⟨hdepth, hwinner, htransition, hroom, hbudget⟩ := decideAdmission_eq_some hadmission
      obtain ⟨e, he, hed⟩ := EvaluatedTransitions.depth_mem hdepth
      have hbase := h.base hs
      refine ⟨h.enqueue hs unseen hQ ?_ (h.frame hs₁ ⟨rfl⟩), hsampled⟩
      -- the entry is the winner's, so each fact of an admission is read off the decision
      exact {
        seen := hseen
        admitted := fun hmem => unseen (hbase.admitted _ (hadmitted ▸ hmem))
        sampled := fun hmem => unseen (hbase.sampled _ (hsampled ▸ hmem))
        room := hroom
        budget := hbudget
        resolved := PageTypeMatch.eq_matched hwinner
        target := rfl
        depth := hed.symm.trans_le (hsound e he).2.1
        deeper := (hsound e he).2.2.trans_eq hed
        seedIds := rfl
        requested := rfl
        transition := by
          intro id hid
          have hid' : evaluated.transitionId admission.2.1 = some id := htransition ▸ hid
          obtain ⟨t, ht, hkey⟩ := EvaluatedTransitions.transitionId_mem hid'
          exact List.any_eq_true.mpr ⟨t.1, (hsound t ht).1, by simpa using hkey⟩
        parentUrl := ⟨source.canonical, hsampled ▸ hsource, rfl⟩
        order := rfl }

theorem links {links : List TraversalObservedLink} :
    ∀ {n m : ℕ} {s s' : SemanticTraversal},
      foldEach (expandLink ctx readings entry source sourceMatch sourcePageType) n links s =
        .ok (m, s') →
      (∀ link ∈ links, ∀ target ∈ resolveHref ctx source.base link.link.rawHref, L target.2) →
      source.canonical ∈ s.sampled → Q entry → P s → P s' := by
  induction links with
  | nil =>
    intro n m s s' hfold _ _ _ hs
    cases hfold
    exact hs
  | cons link links ih =>
    intro n m s s' hfold hL hsource hQ hs
    obtain ⟨n₁, s₁, hround, hrest⟩ := bind_eq_ok.mp hfold
    obtain ⟨hs₁, hsampled⟩ := h.link (expandLink_outcome hround) (hL link List.mem_cons_self)
      hsource hQ hs
    exact ih hrest (fun link hlink => hL link (List.mem_cons_of_mem _ hlink))
      (hsampled ▸ hsource) hQ hs₁

theorem page {observation : PageObservation} {final : Url} {scope : DomainScopeStatus}
    {pageMatch : Option PageTypeMatch} {hits : List PreviewBudgetHit}
    {s s' : SemanticTraversal} {u : Unit}
    (hexpand : expandObservation ctx readings entry observation final scope pageMatch hits s =
      .ok (u, s'))
    (hrequested : observation.requestedUrl = entry.requestedUrl)
    (hL : ∀ link ∈ observation.links, ∀ target ∈
      resolveHref ctx observation.finalOriginal link.link.rawHref, L target.2)
    (hfinal : final ∈ s.sampled) (hQ : Q entry) (hs : P s) : P s' := by
  rcases expandObservation_eq_ok hexpand with
    ⟨_, rfl⟩ | ⟨_, ⟨_, _, rfl⟩ | ⟨_, rfl⟩ | ⟨sourceMatch, _, _, _, _, hpage⟩⟩
  · exact h.frame hs ⟨rfl⟩
  · exact h.frame hs ⟨rfl⟩
  · exact h.frame hs ⟨rfl⟩
  have hcounted : P (s.countTargetless observation true) := h.frame hs ⟨rfl⟩
  rcases expandPage_eq_ok hpage with
    ⟨_, rfl⟩ | ⟨_, rfl⟩ | ⟨sourcePageType, n, s₁, _, _, hlinks, rfl⟩
  · exact hcounted
  · exact h.expand hfinal hcounted
  · have hbase : ObservedSource.base ⟨entry.requestedUrl, observation.finalUrl, final⟩ =
        observation.finalOriginal := by
      rw [ObservedSource.base, PageObservation.finalOriginal, hrequested]
    have hs₁ := h.links hlinks (hbase ▸ hL) hfinal hQ (h.expand hfinal hcounted)
    exact h.frame hs₁ ⟨rfl⟩

theorem observation {observation : PageObservation} {downloadedBytes : ℕ}
    {s s' : SemanticTraversal} {u : Unit}
    (hprocess : processObservation ctx readings entry observation downloadedBytes s =
      .ok (u, s'))
    (hF : (ProviderOutcome.observed observation downloadedBytes).Leads ctx F L)
    (hadmitted : entry.canonicalUrl ∈ s.admitted)
    (hpopped : ∀ e ∈ s.queued.rows, e.canonicalUrl ≠ entry.canonicalUrl) (hQ : Q entry)
    (hs : P s) : P s' := by
  obtain ⟨haccepted, final, scope, s₁, hcanonical, hclassify, hreconcile, hexpand⟩ :=
    processObservation_eq_ok hprocess
  have hFfinal : F final := hF.1 final hcanonical
  have hconsumed : P (s.consume downloadedBytes) := by
    refine h.consume ?_ hs
    have hbytes := haccepted.bytes
    have hbound := haccepted.consumed
    omega
  have harrived : P ((s.consume downloadedBytes).arrive entry.canonicalUrl final) :=
    h.frame (h.see (Or.inl hFfinal) hconsumed) ⟨rfl⟩
  -- the final URL is seen, admitted and out of the queue
  have hreconciled : P s₁ ∧ final ∈ s₁.seen ∧ final ∈ s₁.admitted ∧
      ∀ e ∈ s₁.queued.rows, e.canonicalUrl ≠ final := by
    rcases reconcileFinal_eq_ok (s := s.consume downloadedBytes) hadmitted hreconcile with
      ⟨rfl, rfl⟩ | ⟨hne, hs₁, hreleased⟩
    · exact ⟨harrived, KeySet.mem_insert.mpr (Or.inr rfl), hadmitted, hpopped⟩
    · have hredirected : P (((s.consume downloadedBytes).arrive entry.canonicalUrl final).redirect
          entry.canonicalUrl final s₁.pageTypeScheduled) :=
        h.redirect hQ hFfinal ⟨hadmitted, hpopped, hne, KeySet.mem_insert.mpr (Or.inr rfl), hreleased⟩
          harrived
      rw [SemanticTraversal.redirect, ← hs₁] at hredirected
      refine ⟨hredirected, ?_, ?_, fun e he => ?_⟩
      · rw [hs₁]
        exact KeySet.mem_insert.mpr (Or.inr rfl)
      · rw [hs₁]
        exact KeySet.mem_insert.mpr (Or.inr rfl)
      · rw [hs₁] at he
        simpa using (Table.mem_delete.mp he).2
  obtain ⟨hs₁, hseen, hadmitted₁, hpopped₁⟩ := hreconciled
  have hregistered : P (s₁.registerObserved final (observedMatch ctx final scope)) ∧
      final ∈ (s₁.registerObserved final (observedMatch ctx final scope)).seen ∧
      final ∈ (s₁.registerObserved final (observedMatch ctx final scope)).admitted ∧
      ∀ e ∈ (s₁.registerObserved final (observedMatch ctx final scope)).queued.rows,
        e.canonicalUrl ≠ final := by
    by_cases hscope : scope = .inScope
    · subst hscope
      exact ⟨h.register hseen (Or.inl hFfinal) hclassify hs₁, hseen, hadmitted₁, hpopped₁⟩
    · rw [observedMatch, if_neg hscope]
      exact ⟨hs₁, hseen, hadmitted₁, hpopped₁⟩
  obtain ⟨hregistered, hseen₂, hadmitted₂, hpopped₂⟩ := hregistered
  set registered := s₁.registerObserved final (observedMatch ctx final scope)
  have hsampled : P (registered.sample final (observedMatch ctx final scope)
        (pageState scope (observedMatch ctx final scope))) ∧
      final ∈ (registered.sample final (observedMatch ctx final scope)
        (pageState scope (observedMatch ctx final scope))).sampled := by
    by_cases hfirst : final ∈ registered.sampled
    · rw [SemanticTraversal.sample, if_pos hfirst]
      exact ⟨hregistered, hfirst⟩
    · refine ⟨h.sample hFfinal ⟨hseen₂, hadmitted₂, hpopped₂, hclassify, hfirst⟩ hregistered, ?_⟩
      rw [SemanticTraversal.sample, if_neg hfirst]
      exact KeySet.mem_insert.mpr (Or.inr rfl)
  have hobserved : P (s₁.observe ctx entry final observation downloadedBytes scope) :=
    h.frame hsampled.1 ⟨rfl⟩
  exact h.page hexpand haccepted.requested hF.2 hsampled.2 hQ hobserved

/-- What every change keeps, the processing of a unit keeps. -/
theorem process {outcome : ProviderOutcome} {s s' : SemanticTraversal} {u : Unit}
    (hprocess : processOutcome ctx readings entry outcome
      ((s.pop entry).readClock ctx readings.afterProvider) = .ok (u, s'))
    (hF : outcome.Leads ctx F L) (hadmitted : entry.canonicalUrl ∈ s.admitted) (hQ : Q entry)
    (hs : P (s.pop entry)) : P s' := by
  have hpopped : ∀ e ∈ (s.pop entry).queued.rows, e.canonicalUrl ≠ entry.canonicalUrl := by
    intro e he
    simpa using (Table.mem_delete.mp he).2
  have hclock : ∀ elapsed, (s.pop entry).readClock ctx elapsed = s.pop entry ∨
      (s.pop entry).readClock ctx elapsed = (s.pop entry).hitTimeBudget := by
    intro elapsed
    rw [SemanticTraversal.readClock]
    split
    · exact Or.inr rfl
    · exact Or.inl rfl
  have hread : P ((s.pop entry).readClock ctx readings.afterProvider) := by
    rcases hclock readings.afterProvider with heq | heq
    · rw [heq]
      exact hs
    · rw [heq]
      exact h.frame hs ⟨rfl⟩
  cases outcome with
  | observed observation downloadedBytes =>
    refine h.observation hprocess hF ?_ ?_ hQ hread
    · rcases hclock readings.afterProvider with heq | heq <;> rw [heq] <;> exact hadmitted
    · rcases hclock readings.afterProvider with heq | heq <;> rw [heq] <;> exact hpopped
  | robotsExcluded reason =>
    obtain ⟨_, hprocess⟩ := require_bind_eq_ok.mp hprocess
    rw [write_bind] at hprocess
    obtain ⟨scope, page, rfl, _⟩ := recordUnobserved_eq_ok hprocess
    exact h.frame hread ⟨rfl⟩
  | pageFailed diagnostic =>
    obtain ⟨_, hprocess⟩ := require_bind_eq_ok.mp hprocess
    rw [write_bind] at hprocess
    obtain ⟨scope, page, rfl, _⟩ := recordUnobserved_eq_ok hprocess
    exact h.frame hread ⟨rfl⟩
  | interrupted reason => cases hprocess
  | unavailable => cases hprocess

/-- A step keeps what every change keeps, the removal of the first unit included. -/
theorem step {outcome : ProviderOutcome} {result : SemanticTraversalStep}
    {s s' : SemanticTraversal} (hstep : Crawl.step ctx readings outcome s = .ok (result, s'))
    (hpop : ∀ entry rest, s.queue = entry :: rest → Q entry ∧ P (s.pop entry))
    (hF : outcome.Leads ctx F L) (hs : P s) : P s' := by
  rcases step_eq_ok hstep with
    ⟨_, rfl | rfl⟩ | ⟨entry, rest, hqueue, _, _, ⟨_, _, _, rfl⟩ | ⟨_, hprocess⟩⟩
  · exact hs
  · exact h.frame hs ⟨rfl⟩
  · exact hs
  have hentry : entry ∈ s.queued.rows := by
    rw [← SemanticTraversal.mem_queue, hqueue]
    exact List.mem_cons_self
  obtain ⟨hQ, hpop⟩ := hpop entry rest hqueue
  exact h.process hprocess hF ((h.base hs).queued entry hentry) hQ hpop

end Invariant

/-! ## Roots -/

/-- The traversal with an admitted root. -/
def SemanticTraversal.admitRoot (s : SemanticTraversal) (ctx : TraversalContext) (seed : Seed)
    (order : ℕ) : SemanticTraversal :=
  { s with
    admitted := s.admitted.insert seed.canonicalUrl
    queued := s.queued.put (rootEntry ctx seed order)
    newlyEnqueuedUrls := s.newlyEnqueuedUrls + 1 }

/-- What is known of an admitted root. -/
structure RootAdmission (ctx : TraversalContext) (s : SemanticTraversal) (seed : Seed)
    (order : ℕ) : Prop where
  selected : seed.id ∈ ctx.selectedSeedIds
  found : selectSeed ctx seed.id = .ok seed
  order : order < ctx.selectedSeedIds.length
  classify : ctx.classify seed.canonicalUrl = some .inScope
  seen : seed.canonicalUrl ∈ s.seen
  admitted : seed.canonicalUrl ∉ s.admitted
  sampled : seed.canonicalUrl ∉ s.sampled
  room : s.admitted.size < ctx.limits.maxPages

/-- Every change that admits the roots keeps `P`, when `F` holds of their URLs. -/
structure RootInvariant (ctx : TraversalContext) (P : SemanticTraversal → Prop)
    (F : Url → Prop) : Prop where
  base : ∀ {s}, P s → Base s
  new : P (.new ctx)
  frame : ∀ {s s'}, P s → Frame s s' → P s'
  see : ∀ {s u}, F u → P s → P { s with seen := s.seen.insert u }
  merge : ∀ {s u id}, id ∈ ctx.selectedSeedIds → P s →
    P (s.mergeQueuedDuplicateProvenance u [id] none)
  enqueue : ∀ {s seed order}, RootAdmission ctx s seed order → P s →
    P (s.admitRoot ctx seed order)

namespace RootInvariant

variable {P : SemanticTraversal → Prop} {F : Url → Prop} (h : RootInvariant ctx P F)

include h

/-- The admission of a root keeps the invariant. -/
theorem root {seed : Seed} {order : ℕ} {s s' : SemanticTraversal} {u : Unit}
    (hid : seed.id ∈ ctx.selectedSeedIds) (hseed : selectSeed ctx seed.id = .ok seed)
    (horder : order < ctx.selectedSeedIds.length) (hF : F seed.canonicalUrl)
    (hroot : Crawl.admitRoot ctx () (seed, order) s = .ok (u, s')) (hs : P s) : P s' := by
  obtain ⟨scope, hscope, hroot⟩ := orFail_bind_eq_ok.mp hroot
  rw [read_bind, write_bind] at hroot
  have hseen : P { s with seen := s.seen.insert seed.canonicalUrl } := h.see hF hs
  by_cases hknown : seed.canonicalUrl ∈ s.seen
  · simp only [hknown, if_true] at hroot
    cases hroot
    exact h.frame (h.merge hid hseen) ⟨rfl⟩
  simp only [hknown, if_false] at hroot
  by_cases hin : scope = .inScope
  · subst hin
    simp only [ne_eq, not_true_eq_false, if_false] at hroot
    split at hroot
    · cases hroot
      exact h.frame hseen ⟨rfl⟩
    · rename_i hroom
      cases hroot
      have hbase := h.base hs
      have hadmission : RootAdmission ctx { s with seen := s.seen.insert seed.canonicalUrl }
          seed order :=
        { selected := hid
          found := hseed
          order := horder
          classify := hscope
          seen := KeySet.mem_insert.mpr (Or.inr rfl)
          admitted := fun hmem => hknown (hbase.admitted _ hmem)
          sampled := fun hmem => hknown (hbase.sampled _ hmem)
          room := not_le.mp hroom }
      exact h.frame (h.enqueue hadmission hseen) ⟨rfl⟩
  · simp only [ne_eq, hin, not_false_eq_true, if_true] at hroot
    cases hroot
    exact h.frame hseen ⟨rfl⟩

theorem roots {selected : List Seed} : ∀ {order : ℕ} {s s' : SemanticTraversal} {u : Unit},
    (∀ seed ∈ selected, seed.id ∈ ctx.selectedSeedIds ∧ selectSeed ctx seed.id = .ok seed ∧
      F seed.canonicalUrl) → order + selected.length ≤ ctx.selectedSeedIds.length →
    foldEach (Crawl.admitRoot ctx) () (selected.zipIdx order) s = .ok (u, s') → P s → P s' := by
  induction selected with
  | nil =>
    intro order s s' u _ _ hfold hs
    cases hfold
    exact hs
  | cons seed selected ih =>
    intro order s s' u hselected hlength hfold hs
    rw [List.zipIdx_cons] at hfold
    rw [List.length_cons] at hlength
    obtain ⟨_, s₁, hroot, hrest⟩ := bind_eq_ok.mp hfold
    obtain ⟨hid, hseed, hF⟩ := hselected seed List.mem_cons_self
    have hs₁ := h.root hid hseed (by omega) hF hroot hs
    exact ih (fun other hother => hselected other (List.mem_cons_of_mem _ hother)) (by omega)
      hrest hs₁

/-- What every root keeps holds of the traversal of the roots. -/
theorem start {s : SemanticTraversal} (hstart : forFrozenSnapshot ctx = .ok s)
    (hF : ∀ seed ∈ ctx.seeds, seed.id ∈ ctx.selectedSeedIds → F seed.canonicalUrl) : P s := by
  unfold forFrozenSnapshot at hstart
  rcases hselect : selectSeeds ctx with e | selected
  · rw [hselect] at hstart
    cases hstart
  rw [hselect] at hstart
  dsimp only at hstart
  rcases hroots : admitRoots ctx selected (SemanticTraversal.new ctx) with e | ⟨u, s₁⟩
  · rw [hroots] at hstart
    cases hstart
  rw [hroots] at hstart
  cases hstart
  obtain ⟨hids, hok⟩ := selectSeeds_eq_ok hselect
  refine h.roots (fun seed hseed => ?_) ?_ hroots h.new
  · have hid : seed.id ∈ ctx.selectedSeedIds := hids ▸ List.mem_map_of_mem hseed
    have hfind := (selectSeed_eq_ok (hok seed hseed)).1
    exact ⟨hid, hok seed hseed, hF seed (List.mem_of_find?_eq_some hfind) hid⟩
  · rw [Nat.zero_add, ← hids, List.length_map]

end RootInvariant

end Erabi.Crawl
