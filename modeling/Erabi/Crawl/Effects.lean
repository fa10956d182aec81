/-
# What a step changes

The transitions of a page change their counters and nothing else.  A link has
one of five outcomes, and each of them names the resulting traversal.  An
observation that is accepted passes through the named stages of one page.
-/
import Erabi.Crawl.Checkpoint

namespace Erabi.Crawl

open Relational Transaction

variable {ctx : TraversalContext} {readings : ClockReadings} {entry : QueueEntry}
  {source : ObservedSource} {sourceMatch : PageTypeMatch} {sourcePageType : PageTypeId}

/-! ## Roots -/

/-- A selected seed has a selected identity. -/
theorem selectSeed_eq_ok {id : SeedId} {seed : Seed} (h : selectSeed ctx id = .ok seed) :
    ctx.seed id = some seed ∧ seed.id = id ∧ seed.enabled = true ∧
      ctx.canonicalize seed.originalUrl = some seed.canonicalUrl := by
  unfold selectSeed at h
  rcases hfind : ctx.seed id with _ | found
  · rw [hfind] at h
    cases h
  rw [hfind] at h
  dsimp only at h
  split at h
  · cases h
  rename_i henabled
  split at h
  · cases h
  rename_i hcanonical
  split at h
  · cases h
  cases h
  refine ⟨rfl, ?_, by simpa using henabled, not_not.mp hcanonical⟩
  simpa using List.find?_some hfind

/-- The selected seeds are those of the selected identities, one by one. -/
theorem selectSeeds_eq_ok {selected : List Seed} (h : selectSeeds ctx = .ok selected) :
    selected.map Seed.id = ctx.selectedSeedIds ∧
      ∀ seed ∈ selected, selectSeed ctx seed.id = .ok seed := by
  unfold selectSeeds at h
  generalize ctx.selectedSeedIds = ids at h
  induction ids generalizing selected with
  | nil =>
    rw [List.mapM_nil] at h
    cases h
    exact ⟨rfl, fun _ hseed => by cases hseed⟩
  | cons id ids ih =>
    rw [List.mapM_cons] at h
    rcases hseed : selectSeed ctx id with e | seed
    · rw [hseed] at h
      cases h
    rw [hseed] at h
    rcases hrest : ids.mapM (selectSeed ctx) with e | rest
    · rw [hrest] at h
      cases h
    rw [hrest] at h
    cases h
    obtain ⟨hids, hok⟩ := ih hrest
    have hkey := (selectSeed_eq_ok hseed).2.1
    refine ⟨by rw [List.map_cons, hkey, hids], fun other hother => ?_⟩
    rcases List.mem_cons.mp hother with rfl | hother
    · rw [hkey]
      exact hseed
    · exact hok other hother

/-! ## Transitions -/

section Evaluation

variable {link : ObservedLink} {canonical : Url} {targetMatch : PageTypeMatch}

/-- A transition that is eligible is counted. -/
theorem evaluateTransition_eq_ok {src : Url} {acc acc' : EvaluatedTransitions}
    {t : DiscoveryTransition} {s s' : SemanticTraversal}
    (h : evaluateTransition ctx readings entry src link canonical targetMatch acc t s =
      .ok (acc', s')) :
    ∃ judgement, judgeTransition ctx s (readings.atBudget canonical t.id) entry src link
        targetMatch t = .ok judgement ∧ acc' = acc.add link targetMatch t judgement ∧
      s' = if judgement.isEligible then s.consumeTransition t src else s := by
  rw [evaluateTransition, read_bind] at h
  obtain ⟨judgement, hj, h⟩ := lift_bind_eq_ok.mp h
  refine ⟨judgement, hj, ?_⟩
  cases hel : judgement.isEligible with
  | true =>
    simp only [hel, if_true, write_bind, pure_apply] at h
    cases h
    exact ⟨rfl, rfl⟩
  | false =>
    simp only [hel] at h
    cases h
    exact ⟨rfl, rfl⟩

/-- The transitions change their counters only. -/
structure CountersOnly (s s' : SemanticTraversal) : Prop where
  eq : s' = { s with
    transitionCounts := s'.transitionCounts, transitionPageCounts := s'.transitionPageCounts }

theorem CountersOnly.refl (s : SemanticTraversal) : CountersOnly s s := ⟨rfl⟩

theorem CountersOnly.trans {s₁ s₂ s₃ : SemanticTraversal} (h₁ : CountersOnly s₁ s₂)
    (h₂ : CountersOnly s₂ s₃) : CountersOnly s₁ s₃ := by
  refine ⟨?_⟩
  rw [h₂.eq, h₁.eq]

/-- A use of a transition is only counted. -/
theorem CountersOnly.consumeTransition (s : SemanticTraversal) (t : DiscoveryTransition)
    (src : Url) : CountersOnly s (s.consumeTransition t src) := ⟨rfl⟩

theorem evaluateTransitions_countersOnly {src : Url} {ts : List DiscoveryTransition} :
    ∀ {acc acc' : EvaluatedTransitions} {s s' : SemanticTraversal},
      foldEach (evaluateTransition ctx readings entry src link canonical targetMatch) acc ts s =
        .ok (acc', s') → CountersOnly s s' := by
  induction ts with
  | nil =>
    intro acc acc' s s' h
    cases h
    exact .refl s
  | cons t ts ih =>
    intro acc acc' s s' h
    obtain ⟨acc₁, s₁, hround, hrest⟩ := bind_eq_ok.mp h
    obtain ⟨judgement, _, _, hs₁⟩ := evaluateTransition_eq_ok hround
    have hfirst : CountersOnly s s₁ := by
      rw [hs₁]
      split
      · exact .consumeTransition s t src
      · exact .refl s
    exact hfirst.trans (ih hrest)

end Evaluation

/-! ## Links -/

/-- The traversal with one more counted link. -/
def SemanticTraversal.countLink (s : SemanticTraversal) : SemanticTraversal :=
  { s with urlsDiscovered := s.urlsDiscovered + 1 }

/-- The traversal that has seen the canonical URL of a counted link. -/
def SemanticTraversal.see (s : SemanticTraversal) (canonical : Url) : SemanticTraversal :=
  { s.countLink with seen := s.seen.insert canonical }

/-- The traversal whose transitions judge a new identity. -/
def SemanticTraversal.meet (s : SemanticTraversal) (ctx : TraversalContext) (canonical : Url) :
    SemanticTraversal :=
  (s.see canonical).registerMatch canonical (ctx.resolvePageType canonical) true

/-- The path of a new identity. -/
def newPath (ctx : TraversalContext) (path : DiscoveryPath) (canonical : Url)
    (evaluated : EvaluatedTransitions) (decision : AdmissionDecision) : DiscoveryPath :=
  { path with
    targetPageTypeMatch := some (ctx.resolvePageType canonical)
    prospectiveDepth := evaluated.depth
    transitionEvaluations := evaluated.evaluations
    budgetHits := decision.budgetHits }

/-- The traversal after the path of a new identity is recorded. -/
def SemanticTraversal.recordNew (s : SemanticTraversal) (link : TraversalObservedLink)
    (decision : AdmissionDecision) (path : DiscoveryPath) : SemanticTraversal :=
  (s.recordPaginationTruncation
    (if link.isPagination ∧ decision.state = .budgetExcluded then 1 else 0)).pushPath path

/-- The traversal after the decision on a new identity. -/
def SemanticTraversal.settleNew (s : SemanticTraversal) (ctx : TraversalContext)
    (entry : QueueEntry) (source : ObservedSource) (link : TraversalObservedLink)
    (canonical : Url) (evaluated : EvaluatedTransitions) (path : DiscoveryPath) :
    SemanticTraversal :=
  let decision := decideAdmission ctx s (ctx.resolvePageType canonical) evaluated
  let recorded := s.recordNew link decision (newPath ctx path canonical evaluated decision)
  decision.admission.elim recorded fun admission =>
    recorded.enqueue (admittedEntry ctx s entry source link canonical admission) admission.1

/-- The traversal after a repeated discovery of an in-scope identity. -/
def SemanticTraversal.repeatLink (s : SemanticTraversal) (entry : QueueEntry) (canonical : Url)
    (depth : Option ℕ) : SemanticTraversal :=
  { (if canonical ∈ s.sampled then s.see canonical
      else (s.see canonical).mergeQueuedDuplicateProvenance canonical entry.seedIds depth) with
    duplicatesPrevented := s.duplicatesPrevented + 1 }

/-- The traversal after a link that leaves the scope. -/
def SemanticTraversal.leaveScope (s : SemanticTraversal) (canonical : Url)
    (scope : DomainScopeStatus) : SemanticTraversal :=
  if canonical ∈ s.seen then
    { s.see canonical with duplicatesPrevented := s.duplicatesPrevented + 1 }
  else (s.see canonical).countScope (scopeState scope)

section Outcome

variable (ctx readings entry source sourceMatch sourcePageType)
variable (link : TraversalObservedLink) (s : SemanticTraversal)

/-- The outcomes of one link. -/
inductive LinkOutcome : SemanticTraversal → Prop where
  | dropped (full : maxPreviewProvenanceEdges ≤ s.paths.length) :
    LinkOutcome (s.countLink.recordPaginationTruncation (if link.isPagination then 1 else 0))
  | invalid (path : DiscoveryPath) (room : s.paths.length < maxPreviewProvenanceEdges)
    (resolve : resolveHref ctx source.base link.link.rawHref = none)
    (base : pathBase entry source sourceMatch link.link none none none .invalidUrl = .ok path) :
    LinkOutcome (s.countLink.pushPath path)
  | outOfScope (path : DiscoveryPath) (resolved canonical : Url) (scope : DomainScopeStatus)
    (room : s.paths.length < maxPreviewProvenanceEdges)
    (resolve : resolveHref ctx source.base link.link.rawHref = some (resolved, canonical))
    (classify : ctx.classify canonical = some scope) (out : scope ≠ .inScope)
    (base : pathBase entry source sourceMatch link.link (some resolved) (some canonical)
      (some scope) (if canonical ∈ s.seen then .canonicalDuplicate else scopeState scope) =
        .ok path) :
    LinkOutcome ((s.leaveScope canonical scope).pushPath path)
  | duplicate (path : DiscoveryPath) (resolved canonical : Url) (depth : Option ℕ)
    (room : s.paths.length < maxPreviewProvenanceEdges)
    (resolve : resolveHref ctx source.base link.link.rawHref = some (resolved, canonical))
    (classify : ctx.classify canonical = some .inScope) (seen : canonical ∈ s.seen)
    (deeper : ∀ d ∈ depth, entry.depth ≤ d)
    (base : pathBase entry source sourceMatch link.link (some resolved) (some canonical)
      (some .inScope) .canonicalDuplicate = .ok path) :
    LinkOutcome ((s.repeatLink entry canonical depth).pushPath
      { path with duplicateOfCanonicalUrl := some canonical, prospectiveDepth := depth })
  | new (path : DiscoveryPath) (resolved canonical : Url)
    (evaluated : EvaluatedTransitions) (s₁ : SemanticTraversal)
    (room : s.paths.length < maxPreviewProvenanceEdges)
    (resolve : resolveHref ctx source.base link.link.rawHref = some (resolved, canonical))
    (classify : ctx.classify canonical = some .inScope) (unseen : canonical ∉ s.seen)
    (evaluation : foldEach (evaluateTransition ctx readings entry source.canonical link.link
      canonical (ctx.resolvePageType canonical)) ⟨[], []⟩
      (ctx.sortedTransitionsFor sourcePageType) (s.meet ctx canonical) = .ok (evaluated, s₁))
    (base : pathBase entry source sourceMatch link.link (some resolved) (some canonical)
      (some .inScope)
      (decideAdmission ctx s₁ (ctx.resolvePageType canonical) evaluated).state = .ok path) :
    LinkOutcome (s₁.settleNew ctx entry source link canonical evaluated path)

end Outcome

/-- An invalid link leaves a path. -/
theorem expandInvalid_eq_ok {link : ObservedLink} {s s' : SemanticTraversal} {u : Unit}
    (h : expandInvalid entry source sourceMatch link s = .ok (u, s')) :
    ∃ path, pathBase entry source sourceMatch link none none none .invalidUrl = .ok path ∧
      s' = s.pushPath path := by
  obtain ⟨path, hbase, h⟩ := lift_bind_eq_ok.mp h
  cases h
  exact ⟨path, hbase, rfl⟩

/-- A link out of scope is counted and leaves a path. -/
theorem expandOutOfScope_eq_ok {link : ObservedLink} {resolved canonical : Url}
    {scope : DomainScopeStatus} {unique : Bool} {s s' : SemanticTraversal} {u : Unit}
    (h : expandOutOfScope entry source sourceMatch link resolved canonical scope unique s =
      .ok (u, s')) :
    ∃ path, pathBase entry source sourceMatch link (some resolved) (some canonical) (some scope)
        (if unique then scopeState scope else .canonicalDuplicate) = .ok path ∧
      s' = (if unique then s.countScope (scopeState scope)
        else { s with duplicatesPrevented := s.duplicatesPrevented + 1 }).pushPath path := by
  rw [expandOutOfScope, write_bind] at h
  obtain ⟨path, hbase, h⟩ := lift_bind_eq_ok.mp h
  cases h
  refine ⟨path, hbase, ?_⟩
  cases unique <;> rfl

/-- What every round keeps, a succeeding fold keeps. -/
theorem foldlM_keeps {α β ε : Type} {f : β → α → Except ε β} {P : β → Prop}
    (hf : ∀ b a b', P b → f b a = .ok b' → P b') : ∀ {as : List α} {b b' : β}, P b →
      as.foldlM f b = .ok b' → P b' := by
  intro as
  induction as with
  | nil =>
    intro b b' hb h
    cases h
    exact hb
  | cons a as ih =>
    intro b b' hb h
    rw [List.foldlM_cons] at h
    rcases hround : f b a with e | b₁
    · rw [hround] at h
      cases h
    · rw [hround] at h
      exact ih (hf b a b₁ hb hround) h

/-- A repeated discovery is not above its source. -/
theorem prospectiveDepth_le {s : SemanticTraversal} {link : ObservedLink} {canonical : Url}
    {depth : Option ℕ} {d : ℕ}
    (h : queuedDuplicateProspectiveDepth ctx entry sourcePageType s link canonical = .ok depth)
    (hd : d ∈ depth) : entry.depth ≤ d := by
  unfold queuedDuplicateProspectiveDepth at h
  split at h
  · cases h
    cases hd
  · refine foldlM_keeps (P := fun minimum => ∀ m ∈ minimum, entry.depth ≤ m) ?_
      (fun m hm => by cases hm) h d hd
    intro minimum t minimum' hminimum hround m hm
    split at hround
    · cases hround
    · rename_i prospective hadd
      cases hround
      cases hm
      have hprospective := checkedAddU32_eq_some hadd
      cases minimum with
      | none =>
        show entry.depth ≤ prospective
        omega
      | some old =>
        have hold := hminimum old rfl
        show entry.depth ≤ min prospective old
        omega

/-- A link met before is merged and leaves a path. -/
theorem expandDuplicate_eq_ok {link : ObservedLink} {resolved canonical : Url}
    {scope : DomainScopeStatus} {s s' : SemanticTraversal} {u : Unit}
    (h : expandDuplicate ctx entry source sourceMatch sourcePageType link resolved canonical
      scope s = .ok (u, s')) :
    ∃ path depth, (∀ d ∈ depth, entry.depth ≤ d) ∧
      pathBase entry source sourceMatch link (some resolved) (some canonical)
        (some scope) .canonicalDuplicate = .ok path ∧
      s' = { (if canonical ∈ s.sampled then s
          else s.mergeQueuedDuplicateProvenance canonical entry.seedIds depth) with
        duplicatesPrevented := s.duplicatesPrevented + 1 }.pushPath
        { path with duplicateOfCanonicalUrl := some canonical, prospectiveDepth := depth } := by
  rw [expandDuplicate, write_bind, read_bind] at h
  obtain ⟨depth, hdepth, h⟩ := lift_bind_eq_ok.mp h
  rw [write_bind] at h
  obtain ⟨path, hbase, h⟩ := lift_bind_eq_ok.mp h
  cases h
  have hdeeper : ∀ d ∈ depth, entry.depth ≤ d := by
    split at hdepth
    · cases hdepth
      exact fun d hd => by cases hd
    · exact fun d hd => prospectiveDepth_le hdepth hd
  refine ⟨path, depth, hdeeper, hbase, ?_⟩
  by_cases hsampled : canonical ∈ s.sampled
  · simp only [hsampled, if_true]
  · simp only [hsampled, if_false]
    rfl

/-- A new link may be admitted and leaves a path. -/
theorem expandNew_eq_ok {link : TraversalObservedLink} {resolved canonical : Url}
    {scope : DomainScopeStatus} {n m : ℕ} {s s' : SemanticTraversal}
    (h : expandNew ctx readings entry source sourceMatch sourcePageType link resolved canonical
      scope n s = .ok (m, s')) :
    ∃ path evaluated s₁, foldEach (evaluateTransition ctx readings entry source.canonical
        link.link canonical (ctx.resolvePageType canonical)) ⟨[], []⟩
        (ctx.sortedTransitionsFor sourcePageType)
        (s.registerMatch canonical (ctx.resolvePageType canonical) true) = .ok (evaluated, s₁) ∧
      pathBase entry source sourceMatch link.link (some resolved) (some canonical) (some scope)
        (decideAdmission ctx s₁ (ctx.resolvePageType canonical) evaluated).state = .ok path ∧
      s' = s₁.settleNew ctx entry source link canonical evaluated path := by
  rw [expandNew, write_bind] at h
  obtain ⟨evaluated, s₁, heval, h⟩ := bind_eq_ok.mp h
  rw [read_bind, write_bind] at h
  obtain ⟨path, hbase, h⟩ := lift_bind_eq_ok.mp h
  rw [write_bind] at h
  refine ⟨path, evaluated, s₁, heval, hbase, ?_⟩
  rw [SemanticTraversal.settleNew]
  cases hadmission : (decideAdmission ctx s₁ (ctx.resolvePageType canonical) evaluated).admission
  · simp only [hadmission, pure_apply, Except.ok.injEq, Prod.mk.injEq] at h
    exact h.2.symm
  · simp only [hadmission, write_bind, pure_apply, Except.ok.injEq, Prod.mk.injEq] at h
    exact h.2.symm

/-- A link has one of the four outcomes. -/
theorem expandLink_outcome {link : TraversalObservedLink} {n m : ℕ} {s s' : SemanticTraversal}
    (h : expandLink ctx readings entry source sourceMatch sourcePageType n link s = .ok (m, s')) :
    LinkOutcome ctx readings entry source sourceMatch sourcePageType link s s' := by
  rw [expandLink, write_bind, read_bind] at h
  -- the cases follow the returns of the source, one outcome to each
  by_cases hfull : maxPreviewProvenanceEdges ≤ s.paths.length
  · simp only [hfull, if_true, write_bind, pure_apply, Except.ok.injEq,
      Prod.mk.injEq] at h
    rw [← h.2]
    exact .dropped hfull
  have hroom : s.paths.length < maxPreviewProvenanceEdges := not_le.mp hfull
  simp only [ge_iff_le, hfull, if_false] at h
  cases hresolve : resolveHref ctx source.base link.link.rawHref with
  | none =>
    simp only [hresolve] at h
    obtain ⟨_, s₁, hinvalid, h⟩ := bind_eq_ok.mp h
    obtain ⟨path, hbase, rfl⟩ := expandInvalid_eq_ok hinvalid
    cases h
    exact .invalid path hroom hresolve hbase
  | some target =>
    obtain ⟨resolved, canonical⟩ := target
    simp only [hresolve] at h
    obtain ⟨scope, hscope, h⟩ := lift_bind_eq_ok.mp h
    have hclassify : ctx.classify canonical = some scope := by
      cases hc : ctx.classify canonical with
      | none => rw [hc] at hscope; cases hscope
      | some c => rw [hc] at hscope; cases hscope; rfl
    rw [write_bind] at h
    -- a link that leaves the scope is counted before it is known to be new or repeated
    by_cases hout : scope ≠ .inScope
    · simp only [hout, ne_eq, not_false_eq_true, if_true] at h
      obtain ⟨_, s₁, hexpand, h⟩ := bind_eq_ok.mp h
      obtain ⟨path, hbase, rfl⟩ := expandOutOfScope_eq_ok hexpand
      cases h
      have hbase' : pathBase entry source sourceMatch link.link (some resolved) (some canonical)
          (some scope)
          (if canonical ∈ s.seen then .canonicalDuplicate else scopeState scope) = .ok path := by
        rw [← hbase]
        by_cases hseen : canonical ∈ s.seen
        · simp [hseen]
        · simp [hseen]
      have heq : (s.leaveScope canonical scope).pushPath path =
          (if decide (canonical ∉ s.countLink.seen) = true then
            (s.see canonical).countScope (scopeState scope)
          else { s.see canonical with
            duplicatesPrevented := s.duplicatesPrevented + 1 }).pushPath path := by
        rw [SemanticTraversal.leaveScope]
        by_cases hseen : canonical ∈ s.seen
        · simp [SemanticTraversal.countLink, hseen]
        · simp [SemanticTraversal.countLink, hseen]
      have houtcome : LinkOutcome ctx readings entry source sourceMatch sourcePageType link s
          ((s.leaveScope canonical scope).pushPath path) :=
        .outOfScope path resolved canonical scope hroom hresolve hclassify hout hbase'
      rw [heq] at houtcome
      exact houtcome
    obtain rfl : scope = .inScope := not_not.mp hout
    simp only [ne_eq, not_true_eq_false, if_false] at h
    by_cases hseen : canonical ∈ s.seen
    · simp only [hseen, if_true] at h
      obtain ⟨_, s₁, hexpand, h⟩ := bind_eq_ok.mp h
      obtain ⟨path, depth, hdeeper, hbase, rfl⟩ := expandDuplicate_eq_ok hexpand
      cases h
      exact .duplicate path resolved canonical depth hroom hresolve hclassify hseen hdeeper hbase
    · simp only [hseen, if_false] at h
      obtain ⟨path, evaluated, s₁, heval, hbase, rfl⟩ := expandNew_eq_ok h
      exact .new path resolved canonical evaluated s₁ hroom hresolve hclassify hseen heval hbase

/-! ## Pages -/

/-- The links of a page that is expanded now. -/
theorem expandPage_eq_ok {observation : PageObservation} {s s' : SemanticTraversal} {u : Unit}
    (h : expandPage ctx readings entry observation source sourceMatch s = .ok (u, s')) :
    source.canonical ∈ s.expanded ∧ s' = s ∨
    sourceMatch.winner = none ∧
      s' = { s with expanded := s.expanded.insert source.canonical } ∨
    ∃ sourcePageType n s₁, source.canonical ∉ s.expanded ∧
      sourceMatch.winner = some sourcePageType ∧
      foldEach (expandLink ctx readings entry source sourceMatch sourcePageType) 0
        observation.links { s with expanded := s.expanded.insert source.canonical } =
          .ok (n, s₁) ∧
      s' = { s₁ with peakNewFromPage := max s₁.peakNewFromPage n } := by
  rw [expandPage, read_bind] at h
  by_cases hexpanded : source.canonical ∈ s.expanded
  · simp only [hexpanded, if_true] at h
    cases h
    exact Or.inl ⟨hexpanded, rfl⟩
  simp only [hexpanded, if_false, write_bind] at h
  cases hwinner : sourceMatch.winner with
  | none =>
    simp only [hwinner] at h
    cases h
    exact Or.inr (Or.inl ⟨rfl, rfl⟩)
  | some sourcePageType =>
    simp only [hwinner] at h
    obtain ⟨_, h⟩ := require_bind_eq_ok.mp h
    obtain ⟨n, s₁, hlinks, h⟩ := bind_eq_ok.mp h
    cases h
    exact Or.inr (Or.inr ⟨sourcePageType, n, s₁, hexpanded, rfl, hlinks, rfl⟩)

/-- The reservations after a collapse: those before it, or one less for a page
type. -/
def Released (before after : PageTypeCounts) : Prop :=
  after = before ∨ ∃ pageType n, before pageType = some (n + 1) ∧
    after = Function.update before pageType (some n)

/-- Releasing a page type changes its count alone. -/
theorem releaseScheduled_eq_ok {target : Option PageTypeId} {s s' : SemanticTraversal}
    {u : Unit} (h : releaseScheduled target s = .ok (u, s')) :
    s' = { s with pageTypeScheduled := s'.pageTypeScheduled } ∧
      Released s.pageTypeScheduled s'.pageTypeScheduled := by
  cases target with
  | none =>
    cases h
    exact ⟨rfl, Or.inl rfl⟩
  | some pageType =>
    rw [releaseScheduled] at h
    simp only [read_bind] at h
    obtain ⟨scheduled, hscheduled, h⟩ := orFail_bind_eq_ok.mp h
    obtain ⟨hpos, h⟩ := require_bind_eq_ok.mp h
    cases h
    refine ⟨rfl, Or.inr ⟨pageType, scheduled - 1, ?_, rfl⟩⟩
    rw [hscheduled, Nat.sub_add_cancel hpos]

/-- The admission of the alias under the final URL. -/
def SemanticTraversal.moveTo (s : SemanticTraversal) (aliasUrl final : Url)
    (scheduled : PageTypeCounts) : SemanticTraversal :=
  { s with
    admitted := (s.admitted.remove aliasUrl).insert final
    newlyEnqueuedUrls :=
      if final ∈ s.admitted then s.newlyEnqueuedUrls - 1 else s.newlyEnqueuedUrls
    pageTypeScheduled := scheduled }

/-- The counter of admissions follows a redirect. -/
theorem count_redirect {s : SemanticTraversal} {aliasUrl final : Url}
    (hcount : s.newlyEnqueuedUrls = s.admitted.size)
    (hadmitted : aliasUrl ∈ s.admitted) (hne : final ≠ aliasUrl) :
    (if final ∈ s.admitted then s.newlyEnqueuedUrls - 1 else s.newlyEnqueuedUrls) =
      ((s.admitted.remove aliasUrl).insert final).size := by
  have hremoved := KeySet.size_remove hadmitted
  by_cases hfinal : final ∈ s.admitted
  · have hmem : final ∈ s.admitted.remove aliasUrl := KeySet.mem_remove.mpr ⟨hfinal, hne⟩
    rw [if_pos hfinal, KeySet.size_insert_of_mem hmem]
    omega
  · have hmem : final ∉ s.admitted.remove aliasUrl := fun h => hfinal (KeySet.mem_remove.mp h).1
    rw [if_neg hfinal, KeySet.size_insert_of_not_mem hmem]
    omega

/-- Moving an admission, spelled out. -/
theorem moveAdmission_eq_ok {final : Url} {s s' : SemanticTraversal} {u : Unit}
    (hadmitted : entry.canonicalUrl ∈ s.admitted)
    (h : moveAdmission entry final s = .ok (u, s')) :
    s' = s.moveTo entry.canonicalUrl final s'.pageTypeScheduled ∧
      Released s.pageTypeScheduled s'.pageTypeScheduled := by
  rw [moveAdmission, read_bind] at h
  simp only [hadmitted, if_true, write_bind] at h
  by_cases hfinal : final ∈ s.admitted
  · simp only [hfinal, if_true, write_bind] at h
    obtain ⟨heq, hreleased⟩ := releaseScheduled_eq_ok h
    refine ⟨?_, hreleased⟩
    rw [SemanticTraversal.moveTo, if_pos hfinal]
    exact heq
  · simp only [hfinal, if_false] at h
    cases h
    exact ⟨by rw [SemanticTraversal.moveTo, if_neg hfinal], Or.inl rfl⟩

/-- The final URL of a page that was not redirected is seen; a redirect moves the
admission as well and drops the alias. -/
theorem reconcileFinal_eq_ok {final : Url} {s s' : SemanticTraversal} {u : Unit}
    (hadmitted : entry.canonicalUrl ∈ s.admitted)
    (h : reconcileFinal entry final s = .ok (u, s')) :
    final = entry.canonicalUrl ∧ s' = s.arrive entry.canonicalUrl final ∨
    final ≠ entry.canonicalUrl ∧
      s' = ((s.arrive entry.canonicalUrl final).moveTo entry.canonicalUrl final
        s'.pageTypeScheduled).dropAlias entry.canonicalUrl final ∧
      Released s.pageTypeScheduled s'.pageTypeScheduled := by
  rw [reconcileFinal, write_bind] at h
  by_cases hsame : final = entry.canonicalUrl
  · simp only [hsame, ne_eq, not_true_eq_false, if_false] at h
    cases h
    exact Or.inl ⟨hsame, by rw [hsame]⟩
  simp only [ne_eq, hsame, not_false_eq_true, if_true] at h
  obtain ⟨_, s₁, hmoved, hdrop⟩ := bind_eq_ok.mp h
  obtain ⟨hs₁, hscheduled⟩ := moveAdmission_eq_ok (s := s.arrive _ _) hadmitted hmoved
  cases hdrop
  refine Or.inr ⟨hsame, ?_, hscheduled⟩
  rw [hs₁]
  rfl

/-- The match of an observed final URL. -/
def observedMatch (ctx : TraversalContext) (final : Url) (scope : DomainScopeStatus) :
    Option PageTypeMatch :=
  if scope = .inScope then some (ctx.resolvePageType final) else none

/-- The traversal with the observed match of a final URL. -/
def SemanticTraversal.registerObserved (s : SemanticTraversal) (final : Url)
    (pageMatch : Option PageTypeMatch) : SemanticTraversal :=
  pageMatch.elim s fun evidence => s.registerMatch final evidence false

/-- The traversal with the page of an observation. -/
def SemanticTraversal.observe (s : SemanticTraversal) (ctx : TraversalContext)
    (entry : QueueEntry) (final : Url) (observation : PageObservation) (downloadedBytes : ℕ)
    (scope : DomainScopeStatus) : SemanticTraversal :=
  let pageMatch := observedMatch ctx final scope
  let registered := s.registerObserved final pageMatch
  (registered.sample final pageMatch (pageState scope pageMatch)).recordPage entry final
    observation downloadedBytes scope pageMatch
    (pageBudgetHits ctx registered entry final pageMatch)

/-- The checks an observation has passed. -/
structure Accepted (ctx : TraversalContext) (s : SemanticTraversal) (entry : QueueEntry)
    (observation : PageObservation) (downloadedBytes : ℕ) : Prop where
  requested : observation.requestedUrl = entry.requestedUrl
  consumed : s.consumedBytes ≤ ctx.limits.maxDownloadedBytes
  bytes : downloadedBytes ≤ ctx.limits.maxDownloadedBytes - s.consumedBytes
  links : observation.discoveredLinks.length ≤ maxPreviewLinksPerObservation
  valid : validateObservation ctx observation = true

/-- The traversal that downloaded some bytes. -/
def SemanticTraversal.consume (s : SemanticTraversal) (downloadedBytes : ℕ) :
    SemanticTraversal :=
  { s with consumedBytes := s.consumedBytes + downloadedBytes }

/-- An accepted observation is consumed. -/
theorem acceptObservation_eq_ok {observation : PageObservation} {downloadedBytes : ℕ}
    {s s' : SemanticTraversal} {u : Unit}
    (h : acceptObservation ctx entry observation downloadedBytes s = .ok (u, s')) :
    Accepted ctx s entry observation downloadedBytes ∧ s' = s.consume downloadedBytes := by
  obtain ⟨hrequested, h⟩ := require_bind_eq_ok.mp h
  rw [read_bind] at h
  obtain ⟨hconsumed, h⟩ := require_bind_eq_ok.mp h
  obtain ⟨⟨hbytes, hlinks⟩, h⟩ := require_bind_eq_ok.mp h
  obtain ⟨hvalid, h⟩ := require_bind_eq_ok.mp h
  cases h
  exact ⟨⟨hrequested, hconsumed, hbytes, hlinks, hvalid⟩, rfl⟩

/-- Processing an observation, step by step. -/
theorem processObservation_eq_ok {observation : PageObservation} {downloadedBytes : ℕ}
    {s s' : SemanticTraversal} {u : Unit}
    (h : processObservation ctx readings entry observation downloadedBytes s = .ok (u, s')) :
    Accepted ctx s entry observation downloadedBytes ∧
    ∃ final scope s₁, ctx.canonicalize observation.finalOriginal = some final ∧
      ctx.classify final = some scope ∧
      reconcileFinal entry final (s.consume downloadedBytes) = .ok ((), s₁) ∧
      expandObservation ctx readings entry observation final scope
        (observedMatch ctx final scope)
        (pageBudgetHits ctx (s₁.registerObserved final (observedMatch ctx final scope)) entry
          final (observedMatch ctx final scope))
        (s₁.observe ctx entry final observation downloadedBytes scope) = .ok (u, s') := by
  obtain ⟨_, s₀, haccept, h⟩ := bind_eq_ok.mp h
  obtain ⟨haccepted, rfl⟩ := acceptObservation_eq_ok haccept
  obtain ⟨final, hfinal, h⟩ := orFail_bind_eq_ok.mp h
  obtain ⟨_, s₁, hreconcile, h⟩ := bind_eq_ok.mp h
  obtain ⟨scope, hscope, h⟩ := orFail_bind_eq_ok.mp h
  exact ⟨haccepted, final, scope, s₁, hfinal, hscope, hreconcile, h⟩

/-- The traversal after targetless pagination is counted. -/
def SemanticTraversal.countTargetless (s : SemanticTraversal) (observation : PageObservation)
    (canExpand : Bool) : SemanticTraversal :=
  s.recordPaginationTruncation (if canExpand then observation.targetlessPaginationCount else 0)

/-- A recorded page is cut off by the duration, cut off by a budget of its page
type, expanded, or has nothing to expand. -/
theorem expandObservation_eq_ok {observation : PageObservation} {final : Url}
    {scope : DomainScopeStatus} {pageMatch : Option PageTypeMatch}
    {hits : List PreviewBudgetHit} {s s' : SemanticTraversal} {u : Unit}
    (h : expandObservation ctx readings entry observation final scope pageMatch hits s =
      .ok (u, s')) :
    ctx.limits.maxDurationMs ≤ readings.beforeExpansion ∧
      s' = (s.countTargetless observation (sourceCanExpand scope pageMatch)).leaveUnexpanded
        observation (sourceCanExpand scope pageMatch) ∨
    readings.beforeExpansion < ctx.limits.maxDurationMs ∧
      (sourceCanExpand scope pageMatch = true ∧ hits ≠ [] ∧
        s' = (s.countTargetless observation true).recordPaginationTruncation
          observation.targetfulPaginationCount ∨
      (sourceCanExpand scope pageMatch = false ∨ final ∈ s.expanded) ∧
        s' = s.countTargetless observation (sourceCanExpand scope pageMatch) ∨
      ∃ sourceMatch, sourceCanExpand scope pageMatch = true ∧ hits = [] ∧
        final ∉ s.expanded ∧ pageMatch = some sourceMatch ∧
        expandPage ctx readings entry observation
          ⟨entry.requestedUrl, observation.finalUrl, final⟩ sourceMatch
          (s.countTargetless observation true) = .ok (u, s')) := by
  unfold expandObservation at h
  rw [write_bind, read_bind] at h
  -- the duration limit is read again before the links are expanded
  by_cases htime : ctx.limits.maxDurationMs ≤ readings.beforeExpansion
  · simp only [htime, if_true] at h
    cases h
    exact Or.inl ⟨htime, rfl⟩
  refine Or.inr ⟨not_le.mp htime, ?_⟩
  simp only [ge_iff_le, htime, if_false] at h
  cases hcan : sourceCanExpand scope pageMatch with
  | false =>
    simp only [hcan, Bool.false_eq_true, false_and, and_false, if_false] at h
    cases h
    exact Or.inr (Or.inl ⟨Or.inl rfl, rfl⟩)
  | true =>
    simp only [hcan, true_and, if_true] at h
    by_cases hhits : hits = []
    · simp only [hhits, ne_eq, not_true_eq_false, and_false, if_false, true_and] at h
      by_cases hexpanded : final ∈ s.expanded
      · have hnot : ¬ final ∉ (s.recordPaginationTruncation
            observation.targetlessPaginationCount).expanded := not_not.mpr hexpanded
        rw [if_neg hnot] at h
        cases h
        exact Or.inr (Or.inl ⟨Or.inr hexpanded, rfl⟩)
      · have hpos : final ∉ (s.recordPaginationTruncation
            observation.targetlessPaginationCount).expanded := hexpanded
        rw [if_pos hpos] at h
        cases hmatch : pageMatch with
        | none => rw [hmatch, sourceCanExpand] at hcan; simp at hcan
        | some sourceMatch =>
          simp only [hmatch] at h
          exact Or.inr (Or.inr ⟨sourceMatch, rfl, hhits, hexpanded, rfl, h⟩)
    -- an exhausted budget leaves only the pagination links to count
    · simp only [hhits, ne_eq, not_false_eq_true, and_true, false_and, if_false] at h
      by_cases hcount : 0 < observation.targetfulPaginationCount
      · simp only [hcount, if_true] at h
        cases h
        exact Or.inl ⟨rfl, hhits, rfl⟩
      · simp only [hcount, if_false] at h
        cases h
        refine Or.inl ⟨rfl, hhits, ?_⟩
        rw [Nat.eq_zero_of_not_pos hcount]
        rfl

/-! ## Steps -/

/-- A page without an observation is recorded. -/
theorem recordUnobserved_eq_ok {state : PreviewUrlState} {reason : Option Text}
    {diagnostic : Option TestDiagnostic} {s s' : SemanticTraversal} {u : Unit}
    (h : recordUnobserved ctx entry state reason diagnostic s = .ok (u, s')) :
    ∃ scope page, s' = { s with
        seeds := s.seeds.map fun seed =>
          if seed.seedId ∈ entry.seedIds then { seed with state, scope, budgetHits := [] } else seed
        pages := s.pages ++ [page] } ∧
      page.requestedCanonicalUrl = entry.canonicalUrl ∧ page.depth = entry.depth ∧
      page.seedIds = entry.seedIds ∧ page.state = state := by
  obtain ⟨scope, _, h⟩ := lift_bind_eq_ok.mp h
  cases h
  exact ⟨scope, _, rfl, rfl, rfl, rfl, rfl⟩

/-- An answer returns the pages and paths it added. -/
theorem answer_eq_ok {outcome : ProviderOutcome} {result : SemanticTraversalStep}
    {s s' : SemanticTraversal} (h : answer ctx readings entry outcome s = .ok (result, s')) :
    result = .processed (s'.pages.drop s.pages.length) (s'.paths.drop s.paths.length) ∧
      processOutcome ctx readings entry outcome
        ((s.pop entry).readClock ctx readings.afterProvider) = .ok ((), s') := by
  rw [answer, read_bind, write_bind] at h
  obtain ⟨_, s₁, hprocess, h⟩ := bind_eq_ok.mp h
  cases h
  exact ⟨rfl, hprocess⟩

/-- A step ends the traversal, gives the first queued unit back, or processes it. -/
theorem step_eq_ok {outcome : ProviderOutcome} {result : SemanticTraversalStep}
    {s s' : SemanticTraversal} (h : step ctx readings outcome s = .ok (result, s')) :
    result = .complete ∧ (s' = s ∨ s' = s.hitTimeBudget) ∨
    ∃ first rest, s.queue = first :: rest ∧
      readings.atStart < ctx.limits.maxDurationMs ∧
      s.consumedBytes < ctx.limits.maxDownloadedBytes ∧
      ((∃ reason, outcome = .interrupted reason ∧ result = .interrupted reason ∧ s' = s) ∨
      result = .processed (s'.pages.drop s.pages.length) (s'.paths.drop s.paths.length) ∧
        processOutcome ctx readings first outcome
          ((s.pop first).readClock ctx readings.afterProvider) = .ok ((), s')) := by
  rw [step, read_bind] at h
  cases hqueue : s.queue with
  | nil =>
    simp only [hqueue] at h
    cases h
    exact Or.inl ⟨rfl, Or.inl rfl⟩
  | cons first rest =>
    simp only [hqueue] at h
    by_cases hstart : ctx.limits.maxDurationMs ≤ readings.atStart
    · simp only [hstart, if_true, write_bind] at h
      cases h
      exact Or.inl ⟨rfl, Or.inr rfl⟩
    simp only [ge_iff_le, hstart, if_false] at h
    by_cases hbytes : ctx.limits.maxDownloadedBytes ≤ s.consumedBytes
    · simp only [hbytes, if_true] at h
      cases h
      exact Or.inl ⟨rfl, Or.inl rfl⟩
    simp only [hbytes, if_false] at h
    refine Or.inr ⟨first, rest, rfl, not_le.mp hstart, not_le.mp hbytes, ?_⟩
    cases outcome with
    | unavailable => cases h
    | interrupted reason =>
      cases h
      exact Or.inl ⟨reason, rfl, rfl, rfl⟩
    | observed observation downloadedBytes => exact Or.inr (answer_eq_ok h)
    | robotsExcluded reason => exact Or.inr (answer_eq_ok h)
    | pageFailed diagnostic => exact Or.inr (answer_eq_ok h)

end Erabi.Crawl
