/-
# Admission orders

Every admitted unit holds the order its admission was given.  The traversal
forgets the order of a unit that has left the queue, so a ledger beside it
records who holds which order.  The links of a page hand out fresh orders as
long as no held order has reached the counter.
-/
import Erabi.Crawl.Effects

namespace Erabi.Crawl

open Relational Transaction

variable {ctx : TraversalContext} {readings : ClockReadings} {entry : QueueEntry}
  {source : ObservedSource} {sourceMatch : PageTypeMatch} {sourcePageType : PageTypeId}

/-- The orders held by the admitted units. -/
abbrev Orders := Url → Option ℕ

/-- The ledger agrees with the traversal: it holds an order for every admitted
unit, and for a queued unit the order of its entry. -/
structure Ledger (s : SemanticTraversal) (held : Orders) : Prop where
  domain : ∀ u, u ∈ s.admitted ↔ ∃ o, held u = some o
  queued : ∀ e ∈ s.queued.rows, held e.canonicalUrl = some e.order
  seen : ∀ u ∈ s.admitted, u ∈ s.seen
  count : s.newlyEnqueuedUrls = s.admitted.size

/-- No two admitted units hold one order. -/
def Distinct (held : Orders) : Prop := ∀ u v o, held u = some o → held v = some o → u = v

/-- Distinct orders, all of them below the next one to be given. -/
structure Orderly (ctx : TraversalContext) (s : SemanticTraversal) (held : Orders) : Prop where
  below : ∀ u o, held u = some o → o < s.nextOrder ctx
  distinct : Distinct held

/-- Queued units are admitted. -/
theorem Ledger.admitted_of_queued {s : SemanticTraversal} {held : Orders} (h : Ledger s held)
    {e : QueueEntry} (he : e ∈ s.queued.rows) : e.canonicalUrl ∈ s.admitted :=
  (h.domain _).mpr ⟨_, h.queued e he⟩

/-- A URL that is not admitted holds no order. -/
theorem Ledger.eq_none {s : SemanticTraversal} {held : Orders} (h : Ledger s held) {u : Url}
    (hu : u ∉ s.admitted) : held u = none := by
  cases ho : held u with
  | none => rfl
  | some o => exact absurd ((h.domain u).mpr ⟨o, ho⟩) hu

/-! ## Changes that admit nothing -/

/-- Nothing is admitted and no queued unit changes its identity or its order. -/
structure Quiet (s s' : SemanticTraversal) : Prop where
  admitted : s'.admitted = s.admitted
  count : s'.newlyEnqueuedUrls = s.newlyEnqueuedUrls
  seen : ∀ u ∈ s.seen, u ∈ s'.seen
  queued : ∀ e' ∈ s'.queued.rows, ∃ e ∈ s.queued.rows,
    e.canonicalUrl = e'.canonicalUrl ∧ e.order = e'.order
  kept : ∀ e ∈ s.queued.rows, ∃ e' ∈ s'.queued.rows, e'.canonicalUrl = e.canonicalUrl

theorem Quiet.of_eq {s s' : SemanticTraversal} (hadmitted : s'.admitted = s.admitted)
    (hcount : s'.newlyEnqueuedUrls = s.newlyEnqueuedUrls) (hseen : ∀ u ∈ s.seen, u ∈ s'.seen)
    (hqueued : s'.queued = s.queued) : Quiet s s' where
  admitted := hadmitted
  count := hcount
  seen := hseen
  queued e' he' := ⟨e', hqueued ▸ he', rfl, rfl⟩
  kept e he := ⟨e, hqueued ▸ he, rfl⟩

theorem Quiet.refl (s : SemanticTraversal) : Quiet s s :=
  .of_eq rfl rfl (fun _ hu => hu) rfl

theorem Quiet.trans {s₁ s₂ s₃ : SemanticTraversal} (h₁ : Quiet s₁ s₂) (h₂ : Quiet s₂ s₃) :
    Quiet s₁ s₃ where
  admitted := h₂.admitted.trans h₁.admitted
  count := h₂.count.trans h₁.count
  seen u hu := h₂.seen u (h₁.seen u hu)
  queued e' he' := by
    obtain ⟨e₂, he₂, hu₂, ho₂⟩ := h₂.queued e' he'
    obtain ⟨e, he, hu, ho⟩ := h₁.queued e₂ he₂
    exact ⟨e, he, hu.trans hu₂, ho.trans ho₂⟩
  kept e he := by
    obtain ⟨e₂, he₂, hu₂⟩ := h₁.kept e he
    obtain ⟨e₃, he₃, hu₃⟩ := h₂.kept e₂ he₂
    exact ⟨e₃, he₃, hu₃.trans hu₂⟩

/-- Merging a duplicate is quiet. -/
theorem Quiet.mergeQueuedDuplicateProvenance (s : SemanticTraversal) (canonical : Url)
    (seedIds : List SeedId) (depth : Option ℕ) :
    Quiet s (s.mergeQueuedDuplicateProvenance canonical seedIds depth) where
  admitted := rfl
  count := rfl
  seen _ hu := hu
  queued e' he' := by
    obtain ⟨e, he, hee'⟩ := List.mem_map.mp he'
    refine ⟨e, he, ?_⟩
    rw [← hee']
    split <;> exact ⟨rfl, rfl⟩
  kept e he := by
    refine ⟨_, List.mem_map.mpr ⟨e, he, rfl⟩, ?_⟩
    split <;> rfl

/-- Counting is quiet. -/
theorem CountersOnly.quiet {s s' : SemanticTraversal} (h : CountersOnly s s') : Quiet s s' := by
  rw [h.eq]
  exact .of_eq rfl rfl (fun _ hu => hu) rfl

/-- Seeing a URL is quiet. -/
theorem Quiet.see (s : SemanticTraversal) (canonical : Url) : Quiet s (s.see canonical) :=
  .of_eq rfl rfl (fun _ hu => KeySet.mem_insert.mpr (Or.inl hu)) rfl

/-- The ledger of a traversal in which units may have left the queue. -/
theorem Ledger.of_sub {s s' : SemanticTraversal} {held : Orders} (h : Ledger s held)
    (hadmitted : s'.admitted = s.admitted) (hcount : s'.newlyEnqueuedUrls = s.newlyEnqueuedUrls)
    (hseen : ∀ u ∈ s.seen, u ∈ s'.seen) (hqueued : ∀ e' ∈ s'.queued.rows, ∃ e ∈ s.queued.rows,
      e.canonicalUrl = e'.canonicalUrl ∧ e.order = e'.order) : Ledger s' held where
  domain u := by rw [hadmitted]; exact h.domain u
  queued e' he' := by
    obtain ⟨e, he, hu, ho⟩ := hqueued e' he'
    rw [← hu, ← ho]
    exact h.queued e he
  seen u hu := hseen u (h.seen u (hadmitted ▸ hu))
  count := by rw [hcount, hadmitted]; exact h.count

/-- The orders held stay those held. -/
theorem Ledger.of_quiet {s s' : SemanticTraversal} {held : Orders} (h : Ledger s held)
    (hq : Quiet s s') : Ledger s' held :=
  h.of_sub hq.admitted hq.count hq.seen hq.queued

/-- The orders given stay below the count. -/
theorem Orderly.of_count {s s' : SemanticTraversal} {held : Orders} (h : Orderly ctx s held)
    (hcount : s'.newlyEnqueuedUrls = s.newlyEnqueuedUrls) : Orderly ctx s' held := by
  refine ⟨fun u o ho => ?_, h.distinct⟩
  rw [SemanticTraversal.nextOrder, hcount]
  exact h.below u o ho

theorem Orderly.of_quiet {s s' : SemanticTraversal} {held : Orders} (h : Orderly ctx s held)
    (hq : Quiet s s') : Orderly ctx s' held := h.of_count hq.count

/-! ## Changes that admit -/

/-- Units of unseen URLs are admitted and queued.  The ledger grows with them,
stays orderly, and no other unit is touched. -/
structure Grows (ctx : TraversalContext) (s : SemanticTraversal) (held : Orders)
    (s' : SemanticTraversal) (held' : Orders) : Prop where
  ledger : Ledger s' held'
  orderly : Orderly ctx s held → Orderly ctx s' held'
  seen : ∀ u ∈ s.seen, u ∈ s'.seen
  kept : ∀ u ∈ s.admitted, u ∈ s'.admitted ∧ held' u = held u
  fresh : ∀ u ∈ s'.admitted, u ∉ s.admitted →
    u ∉ s.seen ∧ ∃ e ∈ s'.queued.rows, e.canonicalUrl = u
  queue : ∀ e ∈ s.queued.rows, ∃ e' ∈ s'.queued.rows, e'.canonicalUrl = e.canonicalUrl
  queued : ∀ e' ∈ s'.queued.rows, e'.canonicalUrl ∈ s.admitted →
    ∃ e ∈ s.queued.rows, e.canonicalUrl = e'.canonicalUrl

/-- A quiet step gives no order. -/
theorem Grows.of_quiet {s s' : SemanticTraversal} {held : Orders} (h : Ledger s held)
    (hq : Quiet s s') : Grows ctx s held s' held where
  ledger := h.of_quiet hq
  orderly ho := ho.of_quiet hq
  seen := hq.seen
  kept u hu := ⟨hq.admitted ▸ hu, rfl⟩
  fresh u hu hnot := absurd (hq.admitted ▸ hu) hnot
  queue := hq.kept
  queued e' he' _ := by
    obtain ⟨e, he, hu, _⟩ := hq.queued e' he'
    exact ⟨e, he, hu⟩

theorem Grows.trans {s₁ s₂ s₃ : SemanticTraversal} {held₁ held₂ held₃ : Orders}
    (h₁ : Grows ctx s₁ held₁ s₂ held₂) (h₂ : Grows ctx s₂ held₂ s₃ held₃) :
    Grows ctx s₁ held₁ s₃ held₃ where
  ledger := h₂.ledger
  orderly ho := h₂.orderly (h₁.orderly ho)
  seen u hu := h₂.seen u (h₁.seen u hu)
  kept u hu := by
    obtain ⟨hu₂, heq₂⟩ := h₁.kept u hu
    obtain ⟨hu₃, heq₃⟩ := h₂.kept u hu₂
    exact ⟨hu₃, heq₃.trans heq₂⟩
  fresh u hu hnot := by
    by_cases hu₂ : u ∈ s₂.admitted
    · obtain ⟨hunseen, e₂, he₂, hue₂⟩ := h₁.fresh u hu₂ hnot
      obtain ⟨e₃, he₃, hue₃⟩ := h₂.queue e₂ he₂
      exact ⟨hunseen, e₃, he₃, hue₃.trans hue₂⟩
    · obtain ⟨hunseen, hqueued⟩ := h₂.fresh u hu hu₂
      exact ⟨fun hs => hunseen (h₁.seen u hs), hqueued⟩
  queue e he := by
    obtain ⟨e₂, he₂, hu₂⟩ := h₁.queue e he
    obtain ⟨e₃, he₃, hu₃⟩ := h₂.queue e₂ he₂
    exact ⟨e₃, he₃, hu₃.trans hu₂⟩
  queued e' he' hadmitted := by
    obtain ⟨e₂, he₂, hu₂⟩ := h₂.queued e' he' (h₁.kept _ hadmitted).1
    obtain ⟨e, he, hu⟩ := h₁.queued e₂ he₂ (hu₂ ▸ hadmitted)
    exact ⟨e, he, hu.trans hu₂⟩

/-- A unit that holds an order nobody else holds. -/
theorem Distinct.update {held : Orders} (h : Distinct held) {u : Url} {o : ℕ}
    (hfresh : ∀ v, v ≠ u → held v ≠ some o) : Distinct (Function.update held u (some o)) := by
  intro v w p hv hw
  by_cases hvu : v = u <;> by_cases hwu : w = u
  · exact hvu.trans hwu.symm
  · rw [hvu, Function.update_self, Option.some.injEq] at hv
    rw [Function.update_of_ne hwu, ← hv] at hw
    exact absurd hw (hfresh w hwu)
  · rw [hwu, Function.update_self, Option.some.injEq] at hw
    rw [Function.update_of_ne hvu, ← hw] at hv
    exact absurd hv (hfresh v hvu)
  · rw [Function.update_of_ne hvu] at hv
    rw [Function.update_of_ne hwu] at hw
    exact h v w p hv hw

/-- The ledger records an admission. -/
theorem Ledger.enqueue {s : SemanticTraversal} {held : Orders} (h : Ledger s held)
    {e : QueueEntry} {winner : PageTypeId} (hnot : e.canonicalUrl ∉ s.admitted)
    (hseen : e.canonicalUrl ∈ s.seen) :
    Ledger (s.enqueue e winner) (Function.update held e.canonicalUrl (some e.order)) where
  domain u := by
    rw [SemanticTraversal.enqueue, KeySet.mem_insert]
    by_cases hue : u = e.canonicalUrl
    · rw [hue, Function.update_self]
      exact ⟨fun _ => ⟨_, rfl⟩, fun _ => Or.inr rfl⟩
    · rw [Function.update_of_ne hue, ← h.domain u]
      exact ⟨fun hu => hu.resolve_right hue, Or.inl⟩
  queued f hf := by
    rcases Table.mem_put.mp hf with ⟨hf, hne⟩ | rfl
    · have hother : f.canonicalUrl ≠ e.canonicalUrl := fun hfe =>
        hnot (hfe ▸ h.admitted_of_queued hf)
      rw [Function.update_of_ne hother]
      exact h.queued f hf
    · exact Function.update_self _ _ _
  seen u hu := by
    rcases KeySet.mem_insert.mp hu with hu | rfl
    · exact h.seen u hu
    · exact hseen
  count := by
    show s.newlyEnqueuedUrls + 1 = (s.admitted.insert e.canonicalUrl).size
    rw [KeySet.size_insert_of_not_mem hnot, h.count]

/-- An admission under the next order of a URL that was unseen before. -/
theorem Grows.enqueue {s s₁ : SemanticTraversal} {held : Orders} (h : Ledger s held)
    (hq : Quiet s s₁) {e : QueueEntry} {winner : PageTypeId} (hunseen : e.canonicalUrl ∉ s.seen)
    (hseen : e.canonicalUrl ∈ s₁.seen) (horder : e.order = s₁.nextOrder ctx) :
    Grows ctx s held (s₁.enqueue e winner)
      (Function.update held e.canonicalUrl (some e.order)) := by
  have h₁ : Ledger s₁ held := h.of_quiet hq
  have hnot : e.canonicalUrl ∉ s₁.admitted := fun hmem =>
    hunseen (h.seen _ (hq.admitted ▸ hmem))
  have hnext : (s₁.enqueue e winner).nextOrder ctx = s₁.nextOrder ctx + 1 :=
    Nat.add_right_comm _ _ _
  refine ⟨h₁.enqueue hnot hseen, fun ho => ⟨fun u o hu => ?_, ho.distinct.update fun v _ hv => ?_⟩,
    hq.seen, fun u hu => ?_, fun u hu hnew => ?_, fun f hf => ?_, fun f hf hold => ?_⟩
  · rw [hnext]
    by_cases hue : u = e.canonicalUrl
    · rw [hue, Function.update_self, Option.some.injEq] at hu
      omega
    · rw [Function.update_of_ne hue] at hu
      exact Nat.lt_succ_of_lt ((ho.of_quiet hq).below u o hu)
  · have hlt := (ho.of_quiet hq).below v e.order hv
    omega
  · have hu₁ : u ∈ s₁.admitted := hq.admitted ▸ hu
    exact ⟨KeySet.mem_insert.mpr (Or.inl hu₁),
      Function.update_of_ne (fun hue : u = e.canonicalUrl => hnot (hue ▸ hu₁)) _ _⟩
  · rcases KeySet.mem_insert.mp hu with hu | rfl
    · exact absurd (hq.admitted ▸ hu) hnew
    · exact ⟨hunseen, e, Table.mem_put.mpr (Or.inr rfl), rfl⟩
  · obtain ⟨f', hf', hff'⟩ := hq.kept f hf
    refine ⟨f', Table.mem_put.mpr (Or.inl ⟨hf', fun hue => ?_⟩), hff'⟩
    exact hnot (hue ▸ h₁.admitted_of_queued hf')
  · rcases Table.mem_put.mp hf with ⟨hf, _⟩ | rfl
    · obtain ⟨f', hf', hu', _⟩ := hq.queued f hf
      exact ⟨f', hf', hu'⟩
    · exact absurd (h.seen _ hold) hunseen

/-! ## Links -/

/-- Leaving the scope is quiet. -/
theorem quiet_leaveScope (s : SemanticTraversal) (canonical : Url) (scope : DomainScopeStatus) :
    Quiet s (s.leaveScope canonical scope) := by
  rw [SemanticTraversal.leaveScope]
  split
  · exact (Quiet.see s canonical).trans (.of_eq rfl rfl (fun _ hu => hu) rfl)
  · exact (Quiet.see s canonical).trans (.of_eq rfl rfl (fun _ hu => hu) rfl)

/-- Meeting a link again is quiet. -/
theorem quiet_repeatLink (s : SemanticTraversal) (canonical : Url) (depth : Option ℕ) :
    Quiet s (s.repeatLink entry canonical depth) := by
  have hcount : ∀ s' : SemanticTraversal,
      Quiet s' { s' with duplicatesPrevented := s.duplicatesPrevented + 1 } :=
    fun s' => .of_eq rfl rfl (fun _ hu => hu) rfl
  rw [SemanticTraversal.repeatLink]
  split
  · exact (Quiet.see s canonical).trans (hcount _)
  · exact ((Quiet.see s canonical).trans (.mergeQueuedDuplicateProvenance _ _ _ _)).trans
      (hcount _)

/-- Recording a path is quiet. -/
theorem quiet_pushPath (s : SemanticTraversal) (path : DiscoveryPath) :
    Quiet s (s.pushPath path) := .of_eq rfl rfl (fun _ hu => hu) rfl

/-- Meeting a URL is quiet. -/
theorem quiet_meet (s : SemanticTraversal) (canonical : Url) :
    Quiet s (s.meet ctx canonical) :=
  (Quiet.see s canonical).trans (.of_eq rfl rfl (fun _ hu => hu) rfl)

/-- A link gives at most one new order. -/
theorem LinkOutcome.grows {link : TraversalObservedLink} {s s' : SemanticTraversal}
    {held : Orders}
    (h : LinkOutcome ctx readings entry source sourceMatch sourcePageType link s s')
    (hl : Ledger s held) : ∃ held', Grows ctx s held s' held' := by
  cases h with
  | dropped full => exact ⟨held, .of_quiet hl (.of_eq rfl rfl (fun _ hu => hu) rfl)⟩
  | invalid path => exact ⟨held, .of_quiet hl (.of_eq rfl rfl (fun _ hu => hu) rfl)⟩
  | outOfScope path resolved canonical scope =>
    exact ⟨held, .of_quiet hl ((quiet_leaveScope s canonical scope).trans (quiet_pushPath _ _))⟩
  | duplicate path resolved canonical depth =>
    exact ⟨held, .of_quiet hl ((quiet_repeatLink s canonical depth).trans (quiet_pushPath _ _))⟩
  | new path resolved canonical evaluated s₁ room resolve classify unseen evaluation base =>
    have hs₁ : Quiet s s₁ := (quiet_meet s canonical).trans
      (evaluateTransitions_countersOnly evaluation).quiet
    rw [SemanticTraversal.settleNew]
    have hrecord : ∀ decision path, Quiet s (s₁.recordNew link decision path) :=
      fun _ _ => hs₁.trans (.of_eq rfl rfl (fun _ hu => hu) rfl)
    cases (decideAdmission ctx s₁ (ctx.resolvePageType canonical) evaluated).admission with
    | none => exact ⟨held, .of_quiet hl (hrecord _ _)⟩
    | some admission =>
      have hseen : canonical ∈ s₁.seen :=
        (evaluateTransitions_countersOnly evaluation).quiet.seen canonical
          (KeySet.mem_insert.mpr (Or.inr rfl))
      exact ⟨_, .enqueue hl (hrecord _ _) unseen hseen rfl⟩

theorem expandLinks_grows {links : List TraversalObservedLink} :
    ∀ {n m : ℕ} {s s' : SemanticTraversal} {held : Orders},
      foldEach (expandLink ctx readings entry source sourceMatch sourcePageType) n links s =
        .ok (m, s') → Ledger s held → ∃ held', Grows ctx s held s' held' := by
  induction links with
  | nil =>
    intro n m s s' held h hl
    cases h
    exact ⟨held, .of_quiet hl (.refl s)⟩
  | cons link links ih =>
    intro n m s s' held h hl
    obtain ⟨n₁, s₁, hlink, hrest⟩ := bind_eq_ok.mp h
    obtain ⟨held₁, hgrows₁⟩ := (expandLink_outcome hlink).grows hl
    obtain ⟨held₂, hgrows₂⟩ := ih hrest hgrows₁.ledger
    exact ⟨held₂, hgrows₁.trans hgrows₂⟩

end Erabi.Crawl
