/-
# The traversal ends and fetches once

Every processed unit either leaves the queue without a successor or expands a
page that was not expanded before, and expanded pages are sampled and admitted,
so the page limit bounds both.  A unit that has left the queue is seen, and only
unseen URLs are admitted.
-/
import Erabi.Crawl.Budgets
import Erabi.Crawl.Provenance

namespace Erabi.Crawl

open Relational Transaction

variable {ctx : TraversalContext} {readings : ClockReadings} {entry : QueueEntry}

/-! ## Driving a traversal -/

/-- How far the answers of the provider have brought a traversal. -/
inductive TraversalStatus where
  | running (s : SemanticTraversal)
  | complete (s : SemanticTraversal)
  | failed (error : DiscoveryPreviewError)

/-- The units handed to the provider, without those of interrupted steps, and the
status after the answers. -/
structure Traversed where
  handed : List QueueEntry
  status : TraversalStatus

/-- The unit that a step hands to the provider. -/
def handedUnit (ctx : TraversalContext) (readings : ClockReadings) (s : SemanticTraversal) :
    Option QueueEntry :=
  if readings.atStart < ctx.limits.maxDurationMs ∧
      s.consumedBytes < ctx.limits.maxDownloadedBytes then s.queue.head?
  else none

/-- `traverse`: steps until one of them completes or fails.  An interrupted step is
taken again. -/
def traverse (ctx : TraversalContext) :
    List (ClockReadings × ProviderOutcome) → SemanticTraversal → Traversed
  | [], s => ⟨[], .running s⟩
  | (readings, outcome) :: answers, s =>
    match step ctx readings outcome s with
    | .error e => ⟨(handedUnit ctx readings s).toList, .failed e⟩
    | .ok (.complete, s') => ⟨[], .complete s'⟩
    | .ok (.interrupted _, s') => traverse ctx answers s'
    | .ok (.processed _ _, s') =>
      let rest := traverse ctx answers s'
      ⟨(handedUnit ctx readings s).toList ++ rest.handed, rest.status⟩

/-- The provider was interrupted. -/
def ProviderOutcome.isInterrupted : ProviderOutcome → Bool
  | .interrupted _ => true
  | .observed .. | .robotsExcluded _ | .pageFailed _ | .unavailable => false

/-- The answers that a traversal can use up without an end. -/
def stepBound (ctx : TraversalContext) : ℕ := ctx.limits.maxPages * (ctx.limits.maxPages + 2)

/-! ## Progress -/

section Progress

variable {source : ObservedSource} {sourceMatch : PageTypeMatch} {sourcePageType : PageTypeId}

/-- A link expands no page. -/
theorem LinkOutcome.expanded {link : TraversalObservedLink} {s s' : SemanticTraversal}
    (h : LinkOutcome ctx readings entry source sourceMatch sourcePageType link s s') :
    s'.expanded = s.expanded := by
  cases h with
  | dropped full => rfl
  | invalid path => rfl
  | outOfScope path resolved canonical scope =>
    rw [SemanticTraversal.leaveScope]
    split <;> rfl
  | duplicate path resolved canonical depth =>
    rw [SemanticTraversal.repeatLink]
    split <;> rfl
  | new path resolved canonical evaluated s₁ room resolve classify unseen evaluation =>
    have hcounters := (evaluateTransitions_countersOnly evaluation).eq
    have hexpanded : s₁.expanded = s.expanded := by
      rw [hcounters]
      rfl
    rw [SemanticTraversal.settleNew]
    cases (decideAdmission ctx s₁ (ctx.resolvePageType canonical) evaluated).admission with
    | none => exact hexpanded
    | some admission => exact hexpanded

theorem expandLinks_expanded {links : List TraversalObservedLink} :
    ∀ {n m : ℕ} {s s' : SemanticTraversal},
      foldEach (expandLink ctx readings entry source sourceMatch sourcePageType) n links s =
        .ok (m, s') → s'.expanded = s.expanded := by
  induction links with
  | nil =>
    intro n m s s' h
    cases h
    rfl
  | cons link links ih =>
    intro n m s s' h
    obtain ⟨n₁, s₁, hlink, hrest⟩ := bind_eq_ok.mp h
    exact (ih hrest).trans (expandLink_outcome hlink).expanded

/-- A new page is expanded, or the queue has not grown. -/
def Progress (s s' : SemanticTraversal) : Prop :=
  s.expanded.size < s'.expanded.size ∨
    s'.expanded = s.expanded ∧ s'.queued.rows.length ≤ s.queued.rows.length

/-- An observation expands its page at most. -/
theorem expandObservation_progress {observation : PageObservation} {final : Url}
    {scope : DomainScopeStatus} {pageMatch : Option PageTypeMatch}
    {hits : List PreviewBudgetHit} {s s' : SemanticTraversal} {u : Unit}
    (h : expandObservation ctx readings entry observation final scope pageMatch hits s =
      .ok (u, s')) : Progress s s' := by
  rcases expandObservation_eq_ok h with
    ⟨_, rfl⟩ | ⟨_, ⟨_, _, rfl⟩ | ⟨_, rfl⟩ | ⟨sourceMatch, _, _, hnew, _, hpage⟩⟩
  · exact Or.inr ⟨rfl, le_rfl⟩
  · exact Or.inr ⟨rfl, le_rfl⟩
  · exact Or.inr ⟨rfl, le_rfl⟩
  have hsize : s.expanded.size < (s.expanded.insert final).size := by
    rw [KeySet.size_insert_of_not_mem hnew]
    exact Nat.lt_succ_self _
  rcases expandPage_eq_ok hpage with ⟨hmem, _⟩ | ⟨_, rfl⟩ | ⟨_, n, s₁, _, _, hlinks, rfl⟩
  · exact absurd hmem hnew
  · exact Or.inl hsize
  · have hexpanded : s₁.expanded = s.expanded.insert final := expandLinks_expanded hlinks
    refine Or.inl ?_
    show s.expanded.size < s₁.expanded.size
    rw [hexpanded]
    exact hsize

end Progress

/-- A processed unit leaves the queue, and nothing joins it unless a new page is
expanded. -/
theorem processOutcome_progress {outcome : ProviderOutcome} {s s' : SemanticTraversal} {u : Unit}
    (hadmitted : entry.canonicalUrl ∈ s.admitted)
    (h : processOutcome ctx readings entry outcome s = .ok (u, s')) : Progress s s' := by
  cases outcome with
  | observed observation downloadedBytes =>
    obtain ⟨_, final, scope, s₁, _, _, hreconcile, hexpand⟩ := processObservation_eq_ok h
    have hs₁ : s₁.expanded = s.expanded ∧ s₁.queued.rows.length ≤ s.queued.rows.length := by
      rcases reconcileFinal_eq_ok (s := s.consume downloadedBytes) hadmitted hreconcile with
        ⟨_, rfl⟩ | ⟨_, hs₁, _⟩
      · exact ⟨rfl, le_rfl⟩
      · rw [hs₁]
        exact ⟨rfl, List.length_filter_le _ _⟩
    have hobserved : (s₁.observe ctx entry final observation downloadedBytes scope).expanded =
          s₁.expanded ∧
        (s₁.observe ctx entry final observation downloadedBytes scope).queued = s₁.queued := by
      rw [SemanticTraversal.observe, SemanticTraversal.registerObserved, SemanticTraversal.sample]
      cases observedMatch ctx final scope with
      | none => split <;> exact ⟨rfl, rfl⟩
      | some pageMatch => split <;> exact ⟨rfl, rfl⟩
    rcases expandObservation_progress hexpand with hsize | ⟨hexpanded, hlength⟩
    · left
      rw [hobserved.1, hs₁.1] at hsize
      exact hsize
    · right
      rw [hobserved.1] at hexpanded
      rw [hobserved.2] at hlength
      exact ⟨hexpanded.trans hs₁.1, hlength.trans hs₁.2⟩
  | robotsExcluded reason =>
    obtain ⟨_, h⟩ := require_bind_eq_ok.mp h
    rw [write_bind] at h
    obtain ⟨scope, page, rfl, _⟩ := recordUnobserved_eq_ok h
    exact Or.inr ⟨rfl, le_rfl⟩
  | pageFailed diagnostic =>
    obtain ⟨_, h⟩ := require_bind_eq_ok.mp h
    rw [write_bind] at h
    obtain ⟨scope, page, rfl, _⟩ := recordUnobserved_eq_ok h
    exact Or.inr ⟨rfl, le_rfl⟩
  | interrupted reason => cases h
  | unavailable => cases h

/-! ## Visited URLs -/

/-- The queue holds only unsampled units of at least a depth, sampled URLs are
admitted, and the URLs that are gone are seen and not queued. -/
structure Visited (gone : Url → Prop) (depth : ℕ) (s : SemanticTraversal) : Prop where
  base : Base s
  unsampled : ∀ e ∈ s.queued.rows, e.canonicalUrl ∉ s.sampled
  admitted : ∀ u ∈ s.sampled, u ∈ s.admitted
  seen : ∀ u, gone u → u ∈ s.seen
  left : ∀ e ∈ s.queued.rows, ¬ gone e.canonicalUrl
  deep : ∀ e ∈ s.queued.rows, depth ≤ e.depth

section Visited

variable {gone : Url → Prop} {depth : ℕ}

/-- A step within the frame keeps what was visited. -/
theorem Visited.frame {s s' : SemanticTraversal} (h : Visited gone depth s) (hf : Frame s s') :
    Visited gone depth s' := by
  refine ⟨h.base.frame hf, ?_, ?_, ?_, ?_, ?_⟩ <;> rw [hf.eq]
  · exact h.unsampled
  · exact h.admitted
  · exact h.seen
  · exact h.left
  · exact h.deep

/-- A queue with fewer units. -/
theorem Visited.of_fewer {s s' : SemanticTraversal} (h : Visited gone depth s) (hbase : Base s')
    (hqueued : ∀ e ∈ s'.queued.rows, e ∈ s.queued.rows) (hsampled : s'.sampled = s.sampled)
    (hadmitted : ∀ u ∈ s.sampled, u ∈ s'.admitted) (hseen : ∀ u ∈ s.seen, u ∈ s'.seen) :
    Visited gone depth s' where
  base := hbase
  unsampled e he := hsampled ▸ h.unsampled e (hqueued e he)
  admitted u hu := hadmitted u (hsampled ▸ hu)
  seen u hu := hseen u (h.seen u hu)
  left e he := h.left e (hqueued e he)
  deep e he := h.deep e (hqueued e he)

/-- Only a URL that was unseen is admitted. -/
theorem Visited.enqueue {before s : SemanticTraversal} {parent e : QueueEntry} {winner : PageTypeId}
    (h : Visited gone depth s) (hbefore : Visited gone depth before)
    (hfresh : e.canonicalUrl ∉ before.seen) (hparent : depth ≤ parent.depth)
    (ha : Admission ctx s parent e winner) : Visited gone depth (s.enqueue e winner) where
  base := h.base.admitted_insert ha.seen ha.admitted rfl
  unsampled f hf := by
    rcases Table.mem_put.mp hf with ⟨hf, _⟩ | rfl
    · exact h.unsampled f hf
    · exact ha.sampled
  admitted u hu := KeySet.mem_insert.mpr (Or.inl (h.admitted u hu))
  seen := h.seen
  left f hf := by
    rcases Table.mem_put.mp hf with ⟨hf, _⟩ | rfl
    · exact h.left f hf
    · exact fun hgone => hfresh (hbefore.seen _ hgone)
  deep f hf := by
    rcases Table.mem_put.mp hf with ⟨hf, _⟩ | rfl
    · exact h.deep f hf
    · exact hparent.trans ha.deeper

/-- A repeated discovery does not lower a unit below the page it is found on. -/
theorem Visited.merge {s : SemanticTraversal} {seedIds : List SeedId} {found : Option ℕ}
    (h : Visited gone depth s) (u : Url) (hfound : ∀ d ∈ found, depth ≤ d) :
    Visited gone depth (s.mergeQueuedDuplicateProvenance u seedIds found) where
  base := h.base.merge _ _ _
  unsampled e he := by
    obtain ⟨e₀, he₀, hkey, _⟩ := mem_merged he
    rw [hkey]
    exact h.unsampled e₀ he₀
  admitted := h.admitted
  seen := h.seen
  left e he := by
    obtain ⟨e₀, he₀, hkey, _⟩ := mem_merged he
    rw [hkey]
    exact h.left e₀ he₀
  deep e he := by
    obtain ⟨e₀, he₀, rfl⟩ := List.mem_map.mp he
    have hdepth := h.deep e₀ he₀
    split
    · cases found with
      | none => exact hdepth
      | some d => exact le_min (hfound d rfl) hdepth
    · exact hdepth

/-- The traversal while a unit is processed: it is sampled only if it is where the
outcome leads. -/
def Visiting (ctx : TraversalContext) (entry : QueueEntry) (outcome : ProviderOutcome)
    (gone : Url → Prop) (s : SemanticTraversal) : Prop :=
  Visited gone entry.depth s ∧
    (entry.canonicalUrl ∈ s.sampled → outcome.final ctx = some entry.canonicalUrl)

/-- Visiting one unit keeps the others unvisited. -/
theorem Visiting.invariant (entry : QueueEntry) (outcome : ProviderOutcome) (gone : Url → Prop) :
    Invariant ctx (Visiting ctx entry outcome gone) (fun e => e = entry)
      (fun u => outcome.final ctx = some u) fun _ => True where
  base h := h.1.base
  frame {s s'} h hf := by
    refine ⟨h.1.frame hf, ?_⟩
    rw [hf.eq]
    exact h.2
  consume _ h := ⟨h.1.of_fewer ⟨h.1.base.queued, h.1.base.admitted, h.1.base.sampled,
    h.1.base.expanded, h.1.base.newly, h.1.base.pages⟩ (fun _ he => he) rfl h.1.admitted
    (fun _ hu => hu), h.2⟩
  see _ h := ⟨h.1.of_fewer (h.1.base.see _) (fun _ he => he) rfl h.1.admitted
    (fun _ hu => KeySet.mem_insert.mpr (Or.inl hu)), h.2⟩
  redirect {s e f scheduled} he hfinal hr h := by
    subst he
    -- the alias is not sampled, since the outcome leads elsewhere
    have halias : e.canonicalUrl ∉ s.sampled := by
      intro hmem
      have hsame := (h.2 hmem).symm.trans hfinal
      exact hr.ne (Option.some.inj hsame).symm
    refine ⟨h.1.of_fewer (h.1.base.redirect hr) (fun g hg => (Table.mem_delete.mp hg).1) rfl
      (fun u hu => ?_) (fun _ hu => hu), h.2⟩
    have hne : u ≠ e.canonicalUrl := fun heq => halias (heq ▸ hu)
    exact KeySet.mem_insert.mpr (Or.inl (KeySet.mem_remove.mpr ⟨h.1.admitted u hu, hne⟩))
  register _ _ _ h := ⟨h.1.of_fewer ⟨h.1.base.queued, h.1.base.admitted, h.1.base.sampled,
    h.1.base.expanded, h.1.base.newly, h.1.base.pages⟩ (fun _ he => he) rfl h.1.admitted
    (fun _ hu => hu), h.2⟩
  sample {s f scope} hfinal hs h := by
    have hbase : Base (s.sample f (observedMatch ctx f scope)
        (pageState scope (observedMatch ctx f scope))) := h.1.base.sample hs.seen hs.first
    rw [SemanticTraversal.sample, if_neg hs.first] at hbase ⊢
    refine ⟨⟨hbase, fun e he hmem => ?_, fun u hu => ?_, h.1.seen, h.1.left, h.1.deep⟩,
      fun hmem => ?_⟩
    · rcases KeySet.mem_insert.mp hmem with hmem | hmem
      · exact h.1.unsampled e he hmem
      · exact hs.popped e he hmem
    · rcases KeySet.mem_insert.mp hu with hu | rfl
      · exact h.1.admitted u hu
      · exact hs.admitted
    · rcases KeySet.mem_insert.mp hmem with hmem | hmem
      · exact h.2 hmem
      · rw [hmem]
        exact hfinal
  expand hf h := ⟨h.1.of_fewer (h.1.base.expand hf) (fun _ he => he) rfl h.1.admitted
    (fun _ hu => hu), h.2⟩
  merge {s u e found} he hfound h := by
    subst he
    exact ⟨h.1.merge u hfound, h.2⟩
  consumeTransition _ _ _ h := ⟨h.1.of_fewer ⟨h.1.base.queued, h.1.base.admitted,
    h.1.base.sampled, h.1.base.expanded, h.1.base.newly, h.1.base.pages⟩ (fun _ he => he) rfl
    h.1.admitted (fun _ hu => hu), h.2⟩
  enqueue {before s parent e winner} hbefore hfresh hparent ha h := by
    subst hparent
    exact ⟨h.1.enqueue hbefore.1 hfresh le_rfl ha, h.2⟩

/-- A processed unit is gone, and what was gone stays gone. -/
theorem Visited.process {s s' : SemanticTraversal} {outcome : ProviderOutcome}
    {rest : List QueueEntry} {u : Unit} (h : Visited gone depth s) (hqueue : s.queue = entry :: rest)
    (hprocess : processOutcome ctx readings entry outcome
      ((s.pop entry).readClock ctx readings.afterProvider) = .ok (u, s')) :
    Visited (fun u => gone u ∨ u = entry.canonicalUrl) entry.depth s' := by
  have hentry : entry ∈ s.queued.rows := by
    rw [← SemanticTraversal.mem_queue, hqueue]
    exact List.mem_cons_self
  have hadmitted := h.base.queued entry hentry
  have hpopped : Visited (fun u => gone u ∨ u = entry.canonicalUrl) entry.depth (s.pop entry) := by
    refine ⟨h.base.pop entry, fun e he => h.unsampled e (Table.mem_delete.mp he).1, h.admitted,
      fun u hu => ?_, fun e he hgone => ?_, fun e he =>
        SemanticTraversal.depth_le_of_queue hqueue (Table.mem_delete.mp he).1⟩
    · rcases hu with hu | rfl
      · exact h.seen u hu
      · exact h.base.admitted _ hadmitted
    · obtain ⟨he, hne⟩ := Table.mem_delete.mp he
      rcases hgone with hgone | hsame
      · exact h.left e he hgone
      · exact of_decide_eq_false hne hsame
  exact ((Visiting.invariant entry outcome _).process hprocess outcome.leads_final hadmitted rfl
    ⟨hpopped, fun hmem => absurd hmem (h.unsampled entry hentry)⟩).1

end Visited

/-! ## Runs -/

/-- The unit that a processed step handed to the provider. -/
theorem handedUnit_of_queue {s : SemanticTraversal} {rest : List QueueEntry}
    (hstart : readings.atStart < ctx.limits.maxDurationMs)
    (hbytes : s.consumedBytes < ctx.limits.maxDownloadedBytes) (hqueue : s.queue = entry :: rest) :
    handedUnit ctx readings s = some entry := by
  rw [handedUnit, if_pos ⟨hstart, hbytes⟩, hqueue]
  rfl

/-- The unit handed out was queued. -/
theorem handedUnit_mem {s : SemanticTraversal} (h : entry ∈ handedUnit ctx readings s) :
    entry ∈ s.queued.rows := by
  unfold handedUnit at h
  split at h
  · exact SemanticTraversal.mem_queue.mp (List.mem_of_head? h)
  · cases h

/-- The handed units are new, deeper and deeper, and each of them only once. -/
structure HandedOnce (gone : Url → Prop) (depth : ℕ) (handed : List QueueEntry) : Prop where
  fresh : ∀ e ∈ handed, ¬ gone e.canonicalUrl
  deep : ∀ e ∈ handed, depth ≤ e.depth
  once : (handed.map QueueEntry.canonicalUrl).Nodup
  sorted : (handed.map QueueEntry.depth).Pairwise (· ≤ ·)

theorem HandedOnce.nil (gone : Url → Prop) (depth : ℕ) : HandedOnce gone depth [] :=
  ⟨fun _ h => (by cases h), fun _ h => (by cases h), List.nodup_nil, List.Pairwise.nil⟩

/-- A fresh unit, no shallower, may be handed out next. -/
theorem HandedOnce.cons {gone : Url → Prop} {depth : ℕ} {handed : List QueueEntry}
    (hfresh : ¬ gone entry.canonicalUrl) (hdeep : depth ≤ entry.depth)
    (h : HandedOnce (fun u => gone u ∨ u = entry.canonicalUrl) entry.depth handed) :
    HandedOnce gone depth (entry :: handed) where
  fresh e he := by
    rcases List.mem_cons.mp he with rfl | he
    · exact hfresh
    · exact fun hgone => h.fresh e he (Or.inl hgone)
  deep e he := by
    rcases List.mem_cons.mp he with rfl | he
    · exact hdeep
    · exact hdeep.trans (h.deep e he)
  once := by
    refine List.nodup_cons.mpr ⟨fun hmem => ?_, h.once⟩
    obtain ⟨e, he, hkey⟩ := List.mem_map.mp hmem
    exact h.fresh e he (Or.inr hkey)
  sorted := by
    refine List.pairwise_cons.mpr ⟨fun d hd => ?_, h.sorted⟩
    obtain ⟨e, he, rfl⟩ := List.mem_map.mp hd
    exact h.deep e he

/-- Whatever the answers are, no unit is handed out that is gone or was handed out
before. -/
theorem traverse_handedOnce {answers : List (ClockReadings × ProviderOutcome)} :
    ∀ {s : SemanticTraversal} {gone : Url → Prop} {depth : ℕ}, Visited gone depth s →
      HandedOnce gone depth (traverse ctx answers s).handed := by
  induction answers with
  | nil =>
    intro s gone depth _
    exact .nil gone depth
  | cons answer answers ih =>
    intro s gone depth h
    obtain ⟨readings, outcome⟩ := answer
    rw [traverse]
    rcases hstep : step ctx readings outcome s with e | ⟨result, s'⟩
    · -- the unit of a failing step is queued
      rcases hhanded : handedUnit ctx readings s with _ | entry
      · exact .nil gone depth
      · have hentry := handedUnit_mem hhanded
        exact .cons (h.left entry hentry) (h.deep entry hentry) (.nil _ _)
    · rcases step_eq_ok hstep with
        ⟨rfl, _⟩ | ⟨entry, rest, hqueue, hstart, hbytes, ⟨_, _, rfl, rfl⟩ | ⟨rfl, hprocess⟩⟩
      · exact .nil gone depth
      · exact ih h
      · have hentry : entry ∈ s.queued.rows := by
          rw [← SemanticTraversal.mem_queue, hqueue]
          exact List.mem_cons_self
        dsimp only
        rw [handedUnit_of_queue hstart hbytes hqueue]
        exact .cons (h.left entry hentry) (h.deep entry hentry) (ih (h.process hqueue hprocess))

/-- What a traversal has left: pages to expand, and queued units. -/
def remaining (ctx : TraversalContext) (s : SemanticTraversal) : ℕ :=
  (ctx.limits.maxPages - s.expanded.size) * (ctx.limits.maxPages + 1) + s.queued.rows.length

/-- Sets whose members belong to another set are not larger. -/
theorem size_le_of_subset {s t : KeySet Url} (h : s.Subset t) : s.size ≤ t.size :=
  (List.subperm_of_subset s.nodup h).length_le

/-- The queue stays within the page budget. -/
theorem Visited.length_queued_le {s : SemanticTraversal} {gone : Url → Prop} {depth : ℕ}
    (h : Visited gone depth s) (hw : WithinBudgets ctx s) :
    s.queued.rows.length ≤ ctx.limits.maxPages := by
  have hsub : s.queued.rows.map QueueEntry.canonicalUrl ⊆ s.admitted.keys := by
    intro u hu
    obtain ⟨e, he, rfl⟩ := List.mem_map.mp hu
    exact h.base.queued e he
  have hle := (List.subperm_of_subset s.queued.keysNodup hsub).length_le
  rw [List.length_map] at hle
  exact hle.trans hw.admitted

theorem Visited.size_expanded_le {s : SemanticTraversal} {gone : Url → Prop} {depth : ℕ}
    (h : Visited gone depth s) (hw : WithinBudgets ctx s) :
    s.expanded.size ≤ ctx.limits.maxPages :=
  (size_le_of_subset fun u hu => h.admitted u (h.base.expanded u hu)).trans hw.admitted

/-- A processed unit leaves less. -/
theorem remaining_lt {s s' : SemanticTraversal} {gone gone' : Url → Prop} {depth depth' : ℕ}
    {outcome : ProviderOutcome} {rest : List QueueEntry} {u : Unit} (h : Visited gone depth s)
    (hqueue : s.queue = entry :: rest)
    (hprocess : processOutcome ctx readings entry outcome
      ((s.pop entry).readClock ctx readings.afterProvider) = .ok (u, s'))
    (h' : Visited gone' depth' s') (hw' : WithinBudgets ctx s') :
    remaining ctx s' < remaining ctx s := by
  have hentry : entry ∈ s.queued.rows := by
    rw [← SemanticTraversal.mem_queue, hqueue]
    exact List.mem_cons_self
  have hpopped : (s.pop entry).queued.rows.length < s.queued.rows.length := by
    refine List.length_filter_lt_length_iff_exists.mpr ⟨entry, hentry, ?_⟩
    simp
  have hread : ((s.pop entry).readClock ctx readings.afterProvider).expanded = s.expanded ∧
      ((s.pop entry).readClock ctx readings.afterProvider).queued = (s.pop entry).queued := by
    rw [SemanticTraversal.readClock]
    split <;> exact ⟨rfl, rfl⟩
  have hadmitted : entry.canonicalUrl ∈
      ((s.pop entry).readClock ctx readings.afterProvider).admitted := by
    rw [SemanticTraversal.readClock]
    split <;> exact h.base.queued entry hentry
  have hqueued' := h'.length_queued_le hw'
  have hexpanded' := h'.size_expanded_le hw'
  rw [remaining, remaining]
  rcases processOutcome_progress hadmitted hprocess with hgrown | ⟨hsame, hlength⟩
  · rw [hread.1] at hgrown
    have hsplit : ctx.limits.maxPages - s.expanded.size =
        (ctx.limits.maxPages - s'.expanded.size) + (s'.expanded.size - s.expanded.size - 1) + 1 := by
      omega
    rw [hsplit, Nat.add_mul, Nat.add_mul, Nat.one_mul]
    omega
  · rw [hread.1] at hsame
    rw [hread.2] at hlength
    rw [hsame]
    omega

/-- A traversal that is still running has used up at most what it had left. -/
theorem traverse_running {answers : List (ClockReadings × ProviderOutcome)} :
    ∀ {s s' : SemanticTraversal} {gone : Url → Prop} {depth : ℕ}, Visited gone depth s →
      WithinBudgets ctx s → (traverse ctx answers s).status = .running s' →
      answers.countP (fun answer => !answer.2.isInterrupted) + remaining ctx s' ≤
        remaining ctx s ∧ ∃ gone' depth', Visited gone' depth' s' := by
  induction answers with
  | nil =>
    intro s s' gone depth h _ hrunning
    cases hrunning
    rw [List.countP_nil, Nat.zero_add]
    exact ⟨le_rfl, gone, depth, h⟩
  | cons answer answers ih =>
    intro s s' gone depth h hw hrunning
    obtain ⟨readings, outcome⟩ := answer
    rw [traverse] at hrunning
    rcases hstep : step ctx readings outcome s with e | ⟨result, s₁⟩
    · rw [hstep] at hrunning
      cases hrunning
    rw [hstep] at hrunning
    have hw₁ := ((WithinBudgets.invariant (F := fun _ => True) (L := fun _ => True)).step hstep
      (fun entry _ _ => ⟨trivial, h.base.pop entry, hw.pop entry⟩)
      (outcome.leads_of_forall (fun _ => trivial) fun _ => trivial) ⟨h.base, hw⟩).2
    rcases step_eq_ok hstep with
      ⟨rfl, _⟩ | ⟨entry, rest, hqueue, hstart, hbytes, ⟨_, rfl, rfl, rfl⟩ | ⟨rfl, hprocess⟩⟩
    · cases hrunning
    · rw [List.countP_cons_of_neg (by simp [ProviderOutcome.isInterrupted])]
      exact ih h hw hrunning
    · have h₁ := h.process hqueue hprocess
      have hlt := remaining_lt h hqueue hprocess h₁ hw₁
      obtain ⟨hle, hvisited⟩ := ih h₁ hw₁ hrunning
      refine ⟨?_, hvisited⟩
      rw [List.countP_cons]
      split <;> omega

/-- The roots have visited nothing. -/
theorem Visited.start {s : SemanticTraversal} (hstart : forFrozenSnapshot ctx = .ok s) :
    Visited (fun _ => False) 0 s := by
  have hunsampled : RootInvariant ctx (fun s => Base s ∧ ∀ u, u ∉ s.sampled) fun _ => True :=
    { base := fun h => h.1
      new := ⟨Base.rootInvariant.new (F := fun _ => True), KeySet.not_mem_empty⟩
      frame := fun h hf => ⟨h.1.frame hf, by rw [hf.eq]; exact h.2⟩
      see := fun _ h => ⟨h.1.see _, h.2⟩
      merge := fun _ h => ⟨h.1.merge _ _ _, h.2⟩
      enqueue := fun ha h => ⟨Base.rootInvariant.enqueue (F := fun _ => True) ha h.1, h.2⟩ }
  obtain ⟨hbase, hsampled⟩ := hunsampled.start hstart fun _ _ _ => trivial
  exact ⟨hbase, fun _ _ => hsampled _, fun u hu => absurd hu (hsampled u),
    fun _ hgone => absurd hgone id, fun _ _ hgone => hgone, fun _ _ => Nat.zero_le _⟩

/-- **The traversal ends and fetches once.**  Whatever the provider answers, a
traversal of the roots completes, or a step of it returns an error, after finitely
many answers; no canonical URL is handed out twice, none is handed out after it was
sampled, and the depths of the handed units do not decrease. -/
theorem traverse_ends_and_fetches_once {s : SemanticTraversal}
    (hstart : forFrozenSnapshot ctx = .ok s)
    (answers : List (ClockReadings × ProviderOutcome)) :
    (stepBound ctx < answers.countP (fun answer => !answer.2.isInterrupted) →
      (∃ s', (traverse ctx answers s).status = .complete s') ∨
        ∃ e, (traverse ctx answers s).status = .failed e) ∧
    ((traverse ctx answers s).handed.map QueueEntry.canonicalUrl).Nodup ∧
    ((traverse ctx answers s).handed.map QueueEntry.depth).Pairwise (· ≤ ·) ∧
    ∀ later s', (traverse ctx answers s).status = .running s' →
      ∀ e ∈ (traverse ctx later s').handed, e.canonicalUrl ∉ s'.sampled := by
  have hvisited := Visited.start hstart
  have hw := ((WithinBudgets.rootInvariant (F := fun _ => True)).start hstart
    fun _ _ _ => trivial).2
  have hhanded : HandedOnce (fun _ => False) 0 (traverse ctx answers s).handed :=
    traverse_handedOnce hvisited
  refine ⟨fun hmany => ?_, hhanded.once, hhanded.sorted, fun later s' hrunning e he => ?_⟩
  · cases hstatus : (traverse ctx answers s).status with
    | running s' =>
      obtain ⟨hle, _⟩ := traverse_running hvisited hw hstatus
      have hqueued := hvisited.length_queued_le hw
      have hremaining : remaining ctx s ≤ stepBound ctx := by
        rw [remaining, stepBound]
        calc (ctx.limits.maxPages - s.expanded.size) * (ctx.limits.maxPages + 1) +
              s.queued.rows.length
            ≤ ctx.limits.maxPages * (ctx.limits.maxPages + 1) + ctx.limits.maxPages :=
              Nat.add_le_add (Nat.mul_le_mul_right _ (Nat.sub_le _ _)) hqueued
          _ = ctx.limits.maxPages * (ctx.limits.maxPages + 2) := by ring
      omega
    | complete s' => exact Or.inl ⟨s', rfl⟩
    | failed e => exact Or.inr ⟨e, rfl⟩
  · obtain ⟨_, gone, depth, h⟩ := traverse_running hvisited hw hrunning
    have hsampled : Visited (fun u => u ∈ s'.sampled) 0 s' :=
      ⟨h.base, h.unsampled, h.admitted, h.base.sampled, h.unsampled, fun _ _ => Nat.zero_le _⟩
    exact (traverse_handedOnce hsampled).fresh e he

/-- Three answers, of which one redirects to a queued unit. -/
def plainAnswers : List (ClockReadings × ProviderOutcome) :=
  [(.zero, observed 1 none [2, 3]), (.zero, observed 2 (some 3) [1]), (.zero, observed 3 none [])]

/-- A traversal of the sample site ends. -/
theorem traverse_ends_and_fetches_once_plain :
    (stepBound roomyContext < plainAnswers.countP (fun answer => !answer.2.isInterrupted) →
      (∃ s', (traverse roomyContext plainAnswers (rootTraversal roomyContext)).status =
          .complete s') ∨
        ∃ e, (traverse roomyContext plainAnswers (rootTraversal roomyContext)).status =
          .failed e) ∧
    ((traverse roomyContext plainAnswers (rootTraversal roomyContext)).handed.map
      QueueEntry.canonicalUrl).Nodup ∧
    ((traverse roomyContext plainAnswers (rootTraversal roomyContext)).handed.map
      QueueEntry.depth).Pairwise (· ≤ ·) ∧
    ∀ later s',
      (traverse roomyContext plainAnswers (rootTraversal roomyContext)).status = .running s' →
        ∀ e ∈ (traverse roomyContext later s').handed, e.canonicalUrl ∉ s'.sampled :=
  traverse_ends_and_fetches_once (by rfl) _

/-! ## A page that no step accepts -/

/-- A page of URL 1 with more links than an observation may have. -/
def oversizedPage : ProviderOutcome := observed 1 none (List.replicate 257 2)

/-- A site that answers the root with too many links is never completed: the step
fails. -/
theorem oversizedPage_never_completes : ¬ ∃ n s',
    (traverse roomyContext (List.replicate n (ClockReadings.zero, oversizedPage))
      (rootTraversal roomyContext)).status = .complete s' := by
  rintro ⟨n, s', hcomplete⟩
  cases n with
  | zero => cases hcomplete
  | succ n =>
    have hfails : (step roomyContext .zero oversizedPage
        (rootTraversal roomyContext)).toOption.isNone = true := by decide +kernel
    rw [List.replicate_succ, traverse] at hcomplete
    rcases hstep : step roomyContext .zero oversizedPage (rootTraversal roomyContext) with e | r
    · rw [hstep] at hcomplete
      cases hcomplete
    · rw [hstep] at hfails
      cases hfails

end Erabi.Crawl
