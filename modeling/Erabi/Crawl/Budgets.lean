/-
# Budgets over whole runs

Every admission, every eligible edge and every byte is asked for before it is
counted, and a redirect only moves or gives back what was counted.  So the
counters of a run stay within the limits, also after a restoration that presents
no larger counters than the boundary has.
-/
import Erabi.Crawl.Base

namespace Erabi.Crawl

open Relational Transaction Transition

variable {ctx : TraversalContext} {F L : Url → Prop}

/-! ## The judgement of one transition -/

/-- An allowed candidate is below the budgets of its transition. -/
theorem evaluateBudget_allowed {g : Guardrails} {pageType : PageTypeId} {t : TransitionBudget}
    {c : DiscoveryBudgetCandidate} (h : evaluateBudget g pageType t c = .ok .allowed) :
    c.transitionLinksOnSourcePage < t.maxLinksPerSourcePage ∧
      ∀ budget ∈ t.totalBudget, c.transitionTotalLinks < budget := by
  unfold evaluateBudget at h
  simp only [bind, Except.bind, pure, Except.pure, throw, throwThe, MonadExceptOf.throw] at h
  split at h
  · cases h
  split at h
  · cases h
  split at h
  · cases h
  split at h
  · cases h
  split at h
  · split at h
    · cases h
    split at h
    · split at h
      · cases h
      split at h
      · cases h
      split at h
      · cases h
      rename_i hlinks
      split at h
      · cases h
      rename_i htotal
      refine ⟨by omega, fun budget hbudget => ?_⟩
      rw [Option.mem_def.mp hbudget] at htotal
      simpa using htotal
    · cases h
  · cases h

/-- The counts that an eligible transition is judged by are below its limits. -/
theorem judgeTransition_within {s : SemanticTraversal} {elapsed depth : ℕ} {entry : QueueEntry}
    {source : Url} {link : ObservedLink} {targetMatch : PageTypeMatch} {t : DiscoveryTransition}
    (h : judgeTransition ctx s elapsed entry source link targetMatch t = .ok (.eligible depth)) :
    (budgetCandidate s elapsed entry source t targetMatch).transitionLinksOnSourcePage <
        t.budget.maxLinksPerSourcePage ∧
      (∀ budget ∈ t.budget.totalBudget,
        (budgetCandidate s elapsed entry source t targetMatch).transitionTotalLinks < budget) ∧
      ∀ limit ∈ ctx.transitionTotalLimit t.id,
        (budgetCandidate s elapsed entry source t targetMatch).transitionTotalLinks < limit := by
  unfold judgeTransition at h
  split at h
  · rcases hcheck : checkTransitionBudget ctx s elapsed entry source t targetMatch with e | _ | hit
    · rw [hcheck] at h
      cases h
    · unfold checkTransitionBudget at hcheck
      dsimp only at hcheck
      split at hcheck
      · cases hcheck
      split at hcheck
      · cases hcheck
      · cases hcheck
      · cases hcheck
      · rename_i hallowed
        obtain ⟨hlinks, htotal⟩ := evaluateBudget_allowed hallowed
        refine ⟨hlinks, htotal, fun limit hlimit => ?_⟩
        rw [Option.mem_def.mp hlimit] at hcheck
        dsimp only at hcheck
        split at hcheck
        · cases hcheck
        · omega
    · rw [hcheck] at h
      cases h
  · cases h

/-! ## The invariant -/

/-- Every counter of a traversal is within its limit. -/
structure WithinBudgets (ctx : TraversalContext) (s : SemanticTraversal) : Prop where
  admitted : s.admitted.size ≤ ctx.limits.maxPages
  depth : ∀ e ∈ s.queued.rows, e.depth ≤ ctx.limits.maxDepth
  scheduled : ∀ pageType, ∀ limit ∈ ctx.guardrails.pageBudget pageType,
    (s.pageTypeScheduled pageType).getD 0 ≤ limit
  sourcePage : ∀ t ∈ ctx.transitions, ∀ c ∈ s.transitionPageCounts.rows,
    c.transitionId = t.id → c.count ≤ t.budget.maxLinksPerSourcePage
  total : ∀ t ∈ ctx.transitions, ∀ c ∈ s.transitionCounts.rows, c.transitionId = t.id →
    (∀ budget ∈ t.budget.totalBudget, c.eligibleEdges ≤ budget) ∧
      ∀ limit ∈ ctx.transitionTotalLimit t.id, c.eligibleEdges ≤ limit
  consumed : s.consumedBytes ≤ ctx.limits.maxDownloadedBytes

namespace WithinBudgets

/-- The new state is within the budgets. -/
theorem new : WithinBudgets ctx (.new ctx) where
  admitted := Nat.zero_le _
  depth e he := by cases he
  scheduled _ _ _ := Nat.zero_le _
  sourcePage t _ c hc := by cases hc
  total t _ c hc _ := by
    obtain ⟨t', _, rfl⟩ := List.mem_map.mp hc
    exact ⟨fun _ _ => Nat.zero_le _, fun _ _ => Nat.zero_le _⟩
  consumed := Nat.zero_le _

/-- A step within the frame stays within the budgets. -/
theorem frame {s s' : SemanticTraversal} (h : WithinBudgets ctx s) (hf : Frame s s') :
    WithinBudgets ctx s' := by
  rw [hf.eq]
  exact ⟨h.admitted, h.depth, h.scheduled, h.sourcePage, h.total, h.consumed⟩

/-- Popping a unit stays within the budgets. -/
theorem pop {s : SemanticTraversal} (h : WithinBudgets ctx s) (e : QueueEntry) :
    WithinBudgets ctx (s.pop e) where
  admitted := h.admitted
  depth f hf := h.depth f (Table.mem_delete.mp hf).1
  scheduled := h.scheduled
  sourcePage := h.sourcePage
  total := h.total
  consumed := h.consumed

/-- A redirection stays within the budgets. -/
theorem redirect {s : SemanticTraversal} {a f : Url} {scheduled : PageTypeCounts}
    (h : WithinBudgets ctx s) (hr : Redirection s a f scheduled) :
    WithinBudgets ctx (s.redirect a f scheduled) where
  admitted := by
    have hremoved := KeySet.size_remove hr.admitted
    have hsize := h.admitted
    show ((s.admitted.remove a).insert f).size ≤ _
    by_cases hf : f ∈ s.admitted.remove a
    · rw [KeySet.size_insert_of_mem hf]
      omega
    · rw [KeySet.size_insert_of_not_mem hf]
      omega
  depth e he := h.depth e (Table.mem_delete.mp he).1
  scheduled pageType limit hlimit := by
    have hbefore := h.scheduled pageType limit hlimit
    show (scheduled pageType).getD 0 ≤ limit
    rcases hr.scheduled with heq | ⟨released, n, hn, heq⟩
    · rw [heq]
      exact hbefore
    · rw [heq]
      by_cases hp : pageType = released
      · rw [hp, hn, Option.getD_some] at hbefore
        rw [hp, Function.update_self, Option.getD_some]
        omega
      · rw [Function.update_of_ne hp]
        exact hbefore
  sourcePage := h.sourcePage
  total := h.total
  consumed := h.consumed

/-- Sampling stays within the budgets. -/
theorem sample {s : SemanticTraversal} {f : Url} {pageMatch : Option PageTypeMatch}
    {state : PreviewUrlState} (h : WithinBudgets ctx s) :
    WithinBudgets ctx (s.sample f pageMatch state) := by
  rw [SemanticTraversal.sample]
  split
  · exact h
  · exact ⟨h.admitted, h.depth, h.scheduled, h.sourcePage, h.total, h.consumed⟩

/-- A merge lowers depths only. -/
theorem merge {s : SemanticTraversal} (h : WithinBudgets ctx s) (u : Url)
    (seedIds : List SeedId) (depth : Option ℕ) :
    WithinBudgets ctx (s.mergeQueuedDuplicateProvenance u seedIds depth) where
  admitted := h.admitted
  depth e he := by
    obtain ⟨e₀, he₀, heq⟩ := List.mem_map.mp he
    have hdepth := h.depth e₀ he₀
    rw [← heq]
    split
    · cases depth with
      | none => exact hdepth
      | some d => exact (min_le_right d e₀.depth).trans hdepth
    · exact hdepth
  scheduled := h.scheduled
  sourcePage := h.sourcePage
  total := h.total
  consumed := h.consumed

/-- An eligible edge is counted where there was room for it. -/
theorem consumeTransition {s : SemanticTraversal} {elapsed depth : ℕ} {entry : QueueEntry}
    {source : Url} {link : ObservedLink} {targetMatch : PageTypeMatch} {t : DiscoveryTransition}
    (h : WithinBudgets ctx s) (ht : t ∈ ctx.transitions)
    (hj : judgeTransition ctx s elapsed entry source link targetMatch t = .ok (.eligible depth)) :
    WithinBudgets ctx (s.consumeTransition t source) := by
  obtain ⟨hlinks, htotal, hlimit⟩ := judgeTransition_within hj
  -- a transition of the version is known by its identity
  have hunique : ∀ t' ∈ ctx.transitions, t.id = t'.id → t' = t := fun t' ht' hid =>
    List.inj_on_of_nodup_map ctx.transitionsNodup ht' ht hid.symm
  refine ⟨h.admitted, h.depth, h.scheduled, fun t' ht' c hc hid => ?_, fun t' ht' c hc hid => ?_,
    h.consumed⟩
  · rcases Table.mem_put.mp hc with ⟨hc, _⟩ | rfl
    · exact h.sourcePage t' ht' c hc hid
    · rw [hunique t' ht' hid]
      exact hlinks
  · obtain ⟨c₀, hc₀, heq⟩ := List.mem_map.mp hc
    have hcount := h.total t' ht' c₀ hc₀
    by_cases hkey : c₀.transitionId = t.id
    · simp only [hkey, decide_true, if_true] at heq
      subst heq
      have ht't : t' = t := hunique t' ht' (hkey ▸ hid)
      have hfind : s.transitionCounts.find? t.id = some c₀ := hkey ▸ Table.find?_key hc₀
      simp only [budgetCandidate, hfind, Option.map_some, Option.getD_some] at htotal hlimit
      rw [ht't]
      exact ⟨htotal, hlimit⟩
    · simp only [hkey, decide_false, Bool.false_eq_true, if_false] at heq
      subst heq
      exact hcount hid

/-- An admission takes one page, and one of its page type, that were left. -/
theorem enqueue {s : SemanticTraversal} {parent e : QueueEntry} {winner : PageTypeId}
    (h : WithinBudgets ctx s) (ha : Admission ctx s parent e winner) :
    WithinBudgets ctx (s.enqueue e winner) where
  admitted := by
    show (s.admitted.insert e.canonicalUrl).size ≤ _
    rw [KeySet.size_insert_of_not_mem ha.admitted]
    exact ha.room
  depth f hf := by
    rcases Table.mem_put.mp hf with ⟨hf, _⟩ | rfl
    · exact h.depth f hf
    · exact ha.depth
  scheduled pageType limit hlimit := by
    show (s.pageTypeScheduled.increment winner pageType).getD 0 ≤ limit
    by_cases hp : pageType = winner
    · rw [hp] at hlimit
      rw [hp, PageTypeCounts.increment, Function.update_self]
      exact ha.budget limit hlimit
    · rw [PageTypeCounts.increment, Function.update_of_ne hp]
      exact h.scheduled pageType limit hlimit
  sourcePage := h.sourcePage
  total := h.total
  consumed := h.consumed

/-- The admission of a root stays within the budgets. -/
theorem admitRoot {s : SemanticTraversal} {seed : Seed} {order : ℕ} (h : WithinBudgets ctx s)
    (ha : RootAdmission ctx s seed order) : WithinBudgets ctx (s.admitRoot ctx seed order) where
  admitted := by
    show (s.admitted.insert seed.canonicalUrl).size ≤ _
    rw [KeySet.size_insert_of_not_mem ha.admitted]
    exact ha.room
  depth f hf := by
    rcases Table.mem_put.mp hf with ⟨hf, _⟩ | rfl
    · exact h.depth f hf
    · exact Nat.zero_le _
  scheduled := h.scheduled
  sourcePage := h.sourcePage
  total := h.total
  consumed := h.consumed

/-- Every change of a step keeps the budgets. -/
theorem invariant :
    Invariant ctx (fun s => Base s ∧ WithinBudgets ctx s) (fun _ => True) F L where
  base h := h.1
  frame h hf := ⟨h.1.frame hf, h.2.frame hf⟩
  consume hn h := ⟨Base.invariant.consume (F := F) (L := L) hn h.1, h.2.admitted, h.2.depth,
    h.2.scheduled, h.2.sourcePage, h.2.total, hn⟩
  see _ h := ⟨h.1.see _, h.2.admitted, h.2.depth, h.2.scheduled, h.2.sourcePage, h.2.total,
    h.2.consumed⟩
  redirect _ _ hr h := ⟨h.1.redirect hr, h.2.redirect hr⟩
  register hu hF hc h := ⟨Base.invariant.register hu hF hc h.1, h.2.admitted, h.2.depth,
    h.2.scheduled, h.2.sourcePage, h.2.total, h.2.consumed⟩
  sample _ hs h := ⟨h.1.sample hs.seen hs.first, h.2.sample⟩
  expand hf h := ⟨h.1.expand hf, h.2.admitted, h.2.depth, h.2.scheduled, h.2.sourcePage,
    h.2.total, h.2.consumed⟩
  merge _ _ h := ⟨h.1.merge _ _ _, h.2.merge _ _ _⟩
  consumeTransition ht hj hs h := ⟨Base.invariant.consumeTransition (F := F) (L := L) ht hj hs h.1,
    h.2.consumeTransition ht hj⟩
  enqueue _ _ _ ha h := ⟨h.1.admitted_insert ha.seen ha.admitted rfl, h.2.enqueue ha⟩

theorem rootInvariant : RootInvariant ctx (fun s => Base s ∧ WithinBudgets ctx s) F where
  base h := h.1
  new := ⟨Base.rootInvariant.new (F := F), .new⟩
  frame h hf := ⟨h.1.frame hf, h.2.frame hf⟩
  see _ h := ⟨h.1.see _, h.2.admitted, h.2.depth, h.2.scheduled, h.2.sourcePage, h.2.total,
    h.2.consumed⟩
  merge _ h := ⟨h.1.merge _ _ _, h.2.merge _ _ _⟩
  enqueue ha h := ⟨Base.rootInvariant.enqueue (F := F) ha h.1, h.2.admitRoot ha⟩

end WithinBudgets

/-! ## Restorations -/

/-- The checkpoint presents counters that are not above those of the boundary. -/
structure Boundary.PresentsCounts (boundary : Boundary) (state : SemanticTraversalCheckpoint) :
    Prop where
  scheduled : ∀ value ∈ state.pageTypeScheduled,
    value.2 ≤ (boundary.traversal.pageTypeScheduled value.1).getD 0
  totals : ∀ value ∈ state.transitionCounts, ∃ c ∈ boundary.traversal.transitionCounts.rows,
    c.transitionId = value.transitionId ∧ value.eligibleEdges ≤ c.eligibleEdges
  sourcePages : ∀ value ∈ state.transitionPageCounts,
    ∃ c ∈ boundary.traversal.transitionPageCounts.rows, c.key = value.key ∧ value.count ≤ c.count

instance (boundary : Boundary) (state : SemanticTraversalCheckpoint) :
    Decidable (boundary.PresentsCounts state) :=
  decidable_of_iff ((∀ value ∈ state.pageTypeScheduled,
      value.2 ≤ (boundary.traversal.pageTypeScheduled value.1).getD 0) ∧
      (∀ value ∈ state.transitionCounts, ∃ c ∈ boundary.traversal.transitionCounts.rows,
        c.transitionId = value.transitionId ∧ value.eligibleEdges ≤ c.eligibleEdges) ∧
      ∀ value ∈ state.transitionPageCounts,
        ∃ c ∈ boundary.traversal.transitionPageCounts.rows,
          c.key = value.key ∧ value.count ≤ c.count)
    ⟨fun ⟨h₁, h₂, h₃⟩ => ⟨h₁, h₂, h₃⟩, fun h => ⟨h.scheduled, h.totals, h.sourcePages⟩⟩

/-- The exported checkpoint of a boundary presents its counters. -/
theorem Boundary.presentsCounts_checkpointState (boundary : Boundary) (elapsed : ℕ) :
    boundary.PresentsCounts (checkpointState ctx boundary.traversal elapsed) where
  scheduled value hvalue := by
    obtain ⟨pageType, _, hcount⟩ := List.mem_filterMap.mp hvalue
    obtain ⟨count, hsome, rfl⟩ := Option.map_eq_some_iff.mp hcount
    show count ≤ (boundary.traversal.pageTypeScheduled pageType).getD 0
    rw [hsome]
    exact le_rfl
  totals value hvalue := by
    obtain ⟨c, hc, rfl⟩ := List.mem_map.mp hvalue
    exact ⟨c, (List.mem_insertionSort _).mp hc, rfl, le_rfl⟩
  sourcePages value hvalue :=
    ⟨value, (List.mem_insertionSort _).mp (List.mem_filter.mp hvalue).1, rfl, le_rfl⟩

/-- A restoration checks the pages, the depths and the bytes, and takes the other
counters as they are presented. -/
theorem WithinBudgets.restore {boundary : Boundary} {state : SemanticTraversalCheckpoint}
    {selection : Option (List QueueEntry)} {s : SemanticTraversal}
    (h : WithinBudgets ctx boundary.traversal) (hp : boundary.PresentsCounts state)
    (hs : restoreSelection ctx state selection = .ok s) : WithinBudgets ctx s := by
  -- the depth of an entry is checked on both ways into the queue: pending rows and a selection
  have hdepth : ∀ e ∈ s.queued.rows, e.depth ≤ ctx.limits.maxDepth := by
    obtain ⟨selected, parts, _, hparts, heq, hqueued⟩ := restoreSelection_eq_ok hs
    intro e he
    rw [hqueued] at he
    cases selection with
    | none =>
      have hvalid := hparts.pending e he
      simp only [validPending, Bool.and_eq_true, decide_eq_true_eq] at hvalid
      exact hvalid.1.1.1.1.1.1.1.2
    | some entries =>
      obtain ⟨s₀, queued, hrestore, hvalid, hlist, rfl⟩ := restoreForRecovery_eq_ok.mp hs
      have hv := hvalid e he
      simp only [validRecovery, Bool.and_eq_true, decide_eq_true_eq] at hv
      exact hv.1.1.1.1.1.1.2
  obtain ⟨selected, parts, _, hparts, heq, _⟩ := restoreSelection_eq_ok hs
  rw [heq]
  refine ⟨hparts.admitted, hdepth, fun pageType limit hlimit => ?_, fun t ht c hc hid => ?_,
    fun t ht c hc hid => ?_, hparts.consumed⟩
  -- the counters are those of the boundary, row by row, so its bounds carry over
  · have hcounts := hparts.pageTypeScheduled
    unfold restorePageTypeCounts at hcounts
    split at hcounts
    · show (parts.pageTypeScheduled pageType).getD 0 ≤ limit
      rcases hcount : parts.pageTypeScheduled pageType with _ | count
      · exact Nat.zero_le _
      · rw [← Option.some.inj hcounts] at hcount
        obtain ⟨value, hfind, rfl⟩ := Option.map_eq_some_iff.mp hcount
        have hvalue : value.1 = pageType := by simpa using List.find?_some hfind
        have hle := hp.scheduled value (List.mem_of_find?_eq_some hfind)
        rw [hvalue] at hle
        exact hle.trans (h.scheduled pageType limit hlimit)
    · cases hcounts
  · have hcounts := hparts.transitionPages
    unfold restoreTransitionPageCounts at hcounts
    split at hcounts
    · have hrows := (Table.ofList?_eq_some.mp hcounts).2
      obtain ⟨c₀, hc₀, hkey, hle⟩ := hp.sourcePages c (hrows ▸ hc)
      have hid₀ : c₀.transitionId = t.id := (congrArg Prod.fst hkey).trans hid
      exact hle.trans (h.sourcePage t ht c₀ hc₀ hid₀)
    · cases hcounts
  · have hcounts := hparts.transitions
    unfold restoreTransitionCounts at hcounts
    split at hcounts
    · have hrows := (Table.ofList?_eq_some.mp hcounts).2
      have hmem : c ∈ state.transitionCounts.map SemanticTraversalTransitionState.runtime :=
        hrows ▸ hc
      obtain ⟨value, hvalue, rfl⟩ := List.mem_map.mp hmem
      obtain ⟨c₀, hc₀, hid₀, hle⟩ := hp.totals value hvalue
      obtain ⟨htotal, hlimit⟩ := h.total t ht c₀ hc₀ (hid₀.trans hid)
      exact ⟨fun budget hb => hle.trans (htotal budget hb),
        fun limit hl => hle.trans (hlimit limit hl)⟩
    · cases hcounts

/-! ## Runs -/

/-- **Budgets are never exceeded.**  In every run from the roots, whatever the
provider answers and whatever is restored, the counters of every boundary are
within their limits, and the counters of admissions and of samples count their
sets. -/
theorem withinBudgets_throughout {s : SemanticTraversal} (hstart : forFrozenSnapshot ctx = .ok s)
    (inputs : List TraversalInput) :
    Throughout (runStep ctx fun boundary state _ => boundary.PresentsCounts state)
      (fun run => ∀ boundary ∈ run.boundaries, WithinBudgets ctx boundary.traversal ∧
        boundary.traversal.newlyEnqueuedUrls = boundary.traversal.admitted.size ∧
        boundary.traversal.pagesSampled = boundary.traversal.sampled.size)
      (.start s) inputs := by
  have hroots := (WithinBudgets.rootInvariant (F := fun _ => True)).start hstart
    fun _ _ _ => trivial
  have hfree : Meets (runStep ctx fun boundary state _ => boundary.PresentsCounts state)
      (Guarded fun _ _ => True) (.start s) inputs :=
    meets_of_forall fun run input => by cases input <;> trivial
  refine Throughout.mono
    (fun run hrun boundary hb => ⟨(hrun boundary hb).2, (hrun boundary hb).1.newly,
      (hrun boundary hb).1.pages⟩)
    (boundaries_throughout
      (P := fun boundary => Base boundary.traversal ∧ WithinBudgets ctx boundary.traversal)
      (fun boundary readings outcome result s' hsound _ hstep => ?_)
      (fun boundary state selection s' hsound hp hs =>
        ⟨Base.restored hs, hsound.2.restore hp hs⟩)
      hroots hfree)
  exact (WithinBudgets.invariant (F := fun _ => True) (L := fun _ => True)).step hstep
    (fun entry _ _ => ⟨trivial, hsound.1.pop entry, hsound.2.pop entry⟩)
    (outcome.leads_of_forall (fun _ => trivial) fun _ => trivial) hsound

/-- A run with a redirect, whose first boundary is restored. -/
theorem withinBudgets_throughout_plain :
    Throughout (runStep roomyContext fun boundary state _ => boundary.PresentsCounts state)
      (fun run => ∀ boundary ∈ run.boundaries, WithinBudgets roomyContext boundary.traversal ∧
        boundary.traversal.newlyEnqueuedUrls = boundary.traversal.admitted.size ∧
        boundary.traversal.pagesSampled = boundary.traversal.sampled.size)
      (.start (rootTraversal roomyContext)) [.step .zero (observed 1 none [2, 3]),
        .step .zero (observed 2 (some 3) [4]),
        .restore 2 (checkpointState roomyContext (rootTraversal roomyContext) 0) none] :=
  withinBudgets_throughout (by rfl) _

end Erabi.Crawl
