/-
# Admission orders of a step

A redirect moves the admission of the alias, with its order.  The orders stay
pairwise distinct as long as no redirect collapses two admissions while another
unit holds the last order given, because a collapse takes the counter back by
one.
-/
import Erabi.Crawl.Admission

namespace Erabi.Crawl

open Relational Transaction

variable {ctx : TraversalContext} {readings : ClockReadings} {entry : QueueEntry}

/-! ## Redirects -/

/-- The orders after the admission of an alias has moved to a final URL. -/
def Orders.move (held : Orders) (aliasUrl final : Url) : Orders := fun u =>
  if u = aliasUrl then none
  else if u = final ∧ held final = none then held aliasUrl
  else held u

/-- The redirected unit gives its order away. -/
theorem Orders.move_alias (held : Orders) (aliasUrl final : Url) :
    held.move aliasUrl final aliasUrl = none := if_pos rfl

/-- Other units keep theirs. -/
theorem Orders.move_of_ne {held : Orders} {aliasUrl final u : Url} (halias : u ≠ aliasUrl)
    (hfinal : u ≠ final) : held.move aliasUrl final u = held u := by
  rw [Orders.move, if_neg halias, if_neg fun h => hfinal h.1]

/-- A unit that holds an order keeps it. -/
theorem Orders.move_of_some {held : Orders} {aliasUrl final u : Url} (halias : u ≠ aliasUrl)
    (hu : held u ≠ none) : held.move aliasUrl final u = held u := by
  rw [Orders.move, if_neg halias,
    if_neg fun h : u = final ∧ held final = none => hu (h.1 ▸ h.2)]

/-- The target takes the order when it holds none. -/
theorem Orders.move_final {held : Orders} {aliasUrl final : Url} (halias : final ≠ aliasUrl)
    (hfinal : held final = none) : held.move aliasUrl final final = held aliasUrl := by
  rw [Orders.move, if_neg halias, if_pos ⟨rfl, hfinal⟩]

/-- An order held after the move was held before it, by the same unit or by the
alias. -/
theorem Orders.move_eq_some {held : Orders} {aliasUrl final u : Url} {o : ℕ}
    (h : held.move aliasUrl final u = some o) : u ≠ aliasUrl ∧
      (u = final ∧ held final = none ∧ held aliasUrl = some o ∨ held u = some o) := by
  by_cases halias : u = aliasUrl
  · rw [halias, Orders.move_alias] at h
    cases h
  refine ⟨halias, ?_⟩
  rw [Orders.move, if_neg halias] at h
  by_cases hfinal : u = final ∧ held final = none
  · rw [if_pos hfinal] at h
    exact Or.inl ⟨hfinal.1, hfinal.2, h⟩
  · rw [if_neg hfinal] at h
    exact Or.inr h

/-- Moving an order keeps orders distinct. -/
theorem Distinct.move {held : Orders} (h : Distinct held) (aliasUrl final : Url) :
    Distinct (held.move aliasUrl final) := by
  intro u v o hu hv
  obtain ⟨hualias, ⟨hufinal, _, hu⟩ | hu⟩ := Orders.move_eq_some hu
  · obtain ⟨hvalias, ⟨hvfinal, _, _⟩ | hv⟩ := Orders.move_eq_some hv
    · exact hufinal.trans hvfinal.symm
    · exact absurd (h v aliasUrl o hv hu) hvalias
  · obtain ⟨hvalias, ⟨_, _, hv⟩ | hv⟩ := Orders.move_eq_some hv
    · exact absurd (h u aliasUrl o hu hv) hualias
    · exact h u v o hu hv

section Redirect

variable {s : SemanticTraversal} {held : Orders} {aliasUrl final : Url}
  {scheduled : PageTypeCounts}

/-- The ledger follows a redirect of a unit that has left the queue. -/
theorem Ledger.redirect (hl : Ledger s held) (hadmitted : aliasUrl ∈ s.admitted)
    (hne : final ≠ aliasUrl) (hpopped : ∀ e ∈ s.queued.rows, e.canonicalUrl ≠ aliasUrl)
    (hseen : final ∈ s.seen) :
    Ledger ((s.moveTo aliasUrl final scheduled).dropAlias aliasUrl final)
      (held.move aliasUrl final) where
  domain u := by
    show u ∈ (s.admitted.remove aliasUrl).insert final ↔ _
    rw [KeySet.mem_insert, KeySet.mem_remove]
    by_cases halias : u = aliasUrl
    · rw [halias, Orders.move_alias]
      simp [hne.symm]
    by_cases hfinal : u = final
    · subst hfinal
      have hsome : ∃ o, held.move aliasUrl u u = some o := by
        cases hu : held u with
        | none =>
          rw [Orders.move_final halias hu]
          exact (hl.domain aliasUrl).mp hadmitted
        | some o => exact ⟨o, by rw [Orders.move_of_some halias (by simp [hu]), hu]⟩
      exact ⟨fun _ => hsome, fun _ => Or.inr rfl⟩
    · rw [Orders.move_of_ne halias hfinal, ← hl.domain u]
      simp [halias, hfinal]
  queued e he := by
    obtain ⟨he, hfinal⟩ := Table.mem_delete.mp he
    have hne' : e.canonicalUrl ≠ final := by simpa using hfinal
    rw [Orders.move_of_ne (hpopped e he) hne']
    exact hl.queued e he
  seen u hu := by
    rcases KeySet.mem_insert.mp hu with hu | rfl
    · exact hl.seen u (KeySet.mem_remove.mp hu).1
    · exact hseen
  count := count_redirect hl.count hadmitted hne

/-- Orders stay below the counter when the redirect keeps the counter, or when no
other unit holds the last order given. -/
theorem Orderly.redirect (ho : Orderly ctx s held)
    (hkept : final ∈ s.admitted → ∀ u, u ≠ aliasUrl → held u ≠ some (s.nextOrder ctx - 1))
    (hfinal : final ∈ s.admitted ↔ held final ≠ none) :
    Orderly ctx ((s.moveTo aliasUrl final scheduled).dropAlias aliasUrl final)
      (held.move aliasUrl final) := by
  refine ⟨fun u o hu => ?_, ho.distinct.move aliasUrl final⟩
  obtain ⟨hualias, horder⟩ := Orders.move_eq_some hu
  by_cases hadmitted : final ∈ s.admitted
  · have hu' : held u = some o := by
      rcases horder with ⟨_, hnone, _⟩ | hu'
      · exact absurd hnone (hfinal.mp hadmitted)
      · exact hu'
    have hlt := ho.below u o hu'
    have hlast : o ≠ s.nextOrder ctx - 1 := fun h => hkept hadmitted u hualias (h ▸ hu')
    show o < (if final ∈ s.admitted then s.newlyEnqueuedUrls - 1 else s.newlyEnqueuedUrls) +
      ctx.selectedSeedIds.length
    rw [if_pos hadmitted]
    rw [SemanticTraversal.nextOrder] at hlt hlast
    omega
  · show o < (if final ∈ s.admitted then s.newlyEnqueuedUrls - 1 else s.newlyEnqueuedUrls) +
      ctx.selectedSeedIds.length
    rw [if_neg hadmitted]
    rcases horder with ⟨_, _, hu'⟩ | hu'
    · exact ho.below aliasUrl o hu'
    · exact ho.below u o hu'

end Redirect

/-! ## Observations -/

/-- Registering a match is quiet. -/
theorem quiet_registerObserved (s : SemanticTraversal) (final : Url)
    (pageMatch : Option PageTypeMatch) : Quiet s (s.registerObserved final pageMatch) := by
  cases pageMatch with
  | none => exact .refl s
  | some evidence => exact .of_eq rfl rfl (fun _ hu => hu) rfl

/-- Sampling is quiet. -/
theorem quiet_sample (s : SemanticTraversal) (final : Url) (pageMatch : Option PageTypeMatch)
    (state : PreviewUrlState) : Quiet s (s.sample final pageMatch state) := by
  rw [SemanticTraversal.sample]
  split
  · exact .refl s
  · exact .of_eq rfl rfl (fun _ hu => hu) rfl

/-- Observing is quiet. -/
theorem quiet_observe (ctx : TraversalContext) (entry : QueueEntry) (s : SemanticTraversal)
    (final : Url) (observation : PageObservation) (downloadedBytes : ℕ)
    (scope : DomainScopeStatus) :
    Quiet s (s.observe ctx entry final observation downloadedBytes scope) :=
  ((quiet_registerObserved s final _).trans (quiet_sample _ final _ _)).trans
    (.of_eq rfl rfl (fun _ hu => hu) rfl)

/-- An expansion gives new orders only. -/
theorem expandObservation_grows {observation : PageObservation} {final : Url}
    {scope : DomainScopeStatus} {pageMatch : Option PageTypeMatch}
    {hits : List PreviewBudgetHit} {s s' : SemanticTraversal} {u : Unit} {held : Orders}
    (h : expandObservation ctx readings entry observation final scope pageMatch hits s =
      .ok (u, s')) (hl : Ledger s held) : ∃ held', Grows ctx s held s' held' := by
  have hquiet : ∀ n m : ℕ, Quiet s ((s.recordPaginationTruncation n).recordPaginationTruncation m) :=
    fun _ _ => .of_eq rfl rfl (fun _ hu => hu) rfl
  rcases expandObservation_eq_ok h with
    ⟨_, rfl⟩ | ⟨_, ⟨_, _, rfl⟩ | ⟨_, rfl⟩ | ⟨sourceMatch, _, _, _, _, hpage⟩⟩
  · exact ⟨held, .of_quiet hl (.of_eq rfl rfl (fun _ hu => hu) rfl)⟩
  · exact ⟨held, .of_quiet hl (hquiet _ _)⟩
  · exact ⟨held, .of_quiet hl (.of_eq rfl rfl (fun _ hu => hu) rfl)⟩
  rcases expandPage_eq_ok hpage with
    ⟨_, rfl⟩ | ⟨_, rfl⟩ | ⟨sourcePageType, n, s₁, _, _, hlinks, rfl⟩
  · exact ⟨held, .of_quiet hl (.of_eq rfl rfl (fun _ hu => hu) rfl)⟩
  · exact ⟨held, .of_quiet hl (.of_eq rfl rfl (fun _ hu => hu) rfl)⟩
  · have hmark : Quiet s { s.countTargetless observation true with
        expanded := (s.countTargetless observation true).expanded.insert final } :=
      .of_eq rfl rfl (fun _ hu => hu) rfl
    have hpeak : Quiet s₁ { s₁ with peakNewFromPage := max s₁.peakNewFromPage n } :=
      .of_eq rfl rfl (fun _ hu => hu) rfl
    obtain ⟨held', hgrows⟩ := expandLinks_grows hlinks (hl.of_quiet hmark)
    exact ⟨held', (Grows.of_quiet hl hmark).trans
      (hgrows.trans (.of_quiet hgrows.ledger hpeak))⟩

/-! ## Steps -/

/-- The orders after a step: a newly admitted unit holds the order of its entry,
and the final URL of a redirect the order of its alias. -/
def heldAfter (s s' : SemanticTraversal) (held : Orders) : Orders := fun u =>
  if u ∈ s'.admitted then
    if u ∈ s.admitted then held u
    else match s'.queued.find? u with
      | some e => some e.order
      | none => s.queue.head?.bind fun e => held e.canonicalUrl
  else none

/-- The first queued unit, when its observation collapses it with another admitted
unit. -/
def collapsedUnit (ctx : TraversalContext) (s : SemanticTraversal) :
    ProviderOutcome → Option Url
  | .observed observation _ => do
    let entry ← s.queue.head?
    let final ← ctx.canonicalize observation.finalOriginal
    if final ≠ entry.canonicalUrl ∧ final ∈ s.admitted then some entry.canonicalUrl else none
  | .robotsExcluded _ | .pageFailed _ | .interrupted _ | .unavailable => none

/-- The step collapses two admissions while a unit other than the alias holds the
last order given. -/
def CollapsesLast (ctx : TraversalContext) (s : SemanticTraversal) (held : Orders)
    (outcome : ProviderOutcome) : Prop :=
  ∃ aliasUrl ∈ collapsedUnit ctx s outcome, ∃ u ∈ s.admitted.keys, u ≠ aliasUrl ∧
    held u = some (s.nextOrder ctx - 1)

instance (ctx : TraversalContext) (s : SemanticTraversal) (held : Orders)
    (outcome : ProviderOutcome) : Decidable (CollapsesLast ctx s held outcome) :=
  inferInstanceAs (Decidable (∃ aliasUrl ∈ collapsedUnit ctx s outcome, ∃ u ∈ s.admitted.keys,
    u ≠ aliasUrl ∧ held u = some (s.nextOrder ctx - 1)))

/-- A step that admits nothing keeps every order. -/
theorem heldAfter_of_same {s s' : SemanticTraversal} {held : Orders} (hl : Ledger s held)
    (hadmitted : s'.admitted = s.admitted) : heldAfter s s' held = held := by
  funext u
  by_cases hu : u ∈ s.admitted
  · rw [heldAfter, hadmitted, if_pos hu, if_pos hu]
  · rw [heldAfter, hadmitted, if_neg hu, hl.eq_none hu]

/-- The orders after the links of an observed page, without a redirect. -/
theorem heldAfter_of_grows {s s₁ s' : SemanticTraversal} {held held' : Orders}
    (hadmitted : s₁.admitted = s.admitted) (h : Grows ctx s₁ held s' held') :
    heldAfter s s' held = held' := by
  funext u
  by_cases hu' : u ∈ s'.admitted
  · rw [heldAfter, if_pos hu']
    by_cases hu : u ∈ s.admitted
    · rw [if_pos hu]
      exact (h.kept u (hadmitted ▸ hu)).2.symm
    · obtain ⟨_, e, he, rfl⟩ := h.fresh u hu' (hadmitted ▸ hu)
      rw [if_neg hu, Table.find?_key he]
      exact (h.ledger.queued e he).symm
  · rw [heldAfter, if_neg hu', h.ledger.eq_none hu']

/-- The orders after the links of an observed page that a redirect led to. -/
theorem heldAfter_of_redirect {s s₁ s' : SemanticTraversal} {held held' : Orders} {final : Url}
    (hl : Ledger s held) (hhead : s.queue.head? = some entry)
    (hadmitted : ∀ u, u ∈ s₁.admitted ↔ u ∈ s.admitted ∧ u ≠ entry.canonicalUrl ∨ u = final)
    (hseen : ∀ u ∈ s.seen, u ∈ s₁.seen) (hne : final ≠ entry.canonicalUrl)
    (hdropped : ∀ e ∈ s₁.queued.rows, e.canonicalUrl ≠ final)
    (h : Grows ctx s₁ (held.move entry.canonicalUrl final) s' held') :
    heldAfter s s' held = held' := by
  funext u
  by_cases hu' : u ∈ s'.admitted
  · rw [heldAfter, if_pos hu']
    by_cases hu : u ∈ s.admitted
    · -- the alias is seen, so no link admits it again
      have halias : u ≠ entry.canonicalUrl := by
        rintro rfl
        have hnot : entry.canonicalUrl ∉ s₁.admitted := fun hmem =>
          ((hadmitted _).mp hmem).elim (fun h => h.2 rfl) fun h => hne h.symm
        exact (h.fresh _ hu' hnot).1 (hseen _ (hl.seen _ hu))
      obtain ⟨o, ho⟩ := (hl.domain u).mp hu
      rw [if_pos hu, (h.kept u ((hadmitted u).mpr (Or.inl ⟨hu, halias⟩))).2,
        Orders.move_of_some halias (by simp [ho])]
    · rw [if_neg hu]
      by_cases hfinal : u = final
      · subst hfinal
        have hu₁ : u ∈ s₁.admitted := (hadmitted u).mpr (Or.inr rfl)
        have hnone : s'.queued.find? u = none := by
          refine Table.find?_eq_none.mpr fun e he hkey => ?_
          obtain ⟨e₁, he₁, hkey₁⟩ := h.queued e he (hkey ▸ hu₁)
          exact hdropped e₁ he₁ (hkey₁.trans hkey)
        rw [hnone, hhead, (h.kept u hu₁).2, Orders.move_final hne (hl.eq_none hu)]
        rfl
      · have hu₁ : u ∉ s₁.admitted := fun hmem =>
          ((hadmitted u).mp hmem).elim (fun h => hu h.1) hfinal
        obtain ⟨_, e, he, rfl⟩ := h.fresh u hu' hu₁
        rw [Table.find?_key he]
        exact (h.ledger.queued e he).symm
  · rw [heldAfter, if_neg hu', h.ledger.eq_none hu']

/-- The first queued unit leaves the queue. -/
theorem Ledger.pop {s : SemanticTraversal} {held : Orders} (hl : Ledger s held) (elapsed : ℕ) :
    Ledger ((s.pop entry).readClock ctx elapsed) held := by
  have hpop : Ledger (s.pop entry) held :=
    hl.of_sub rfl rfl (fun _ hu => hu) fun e he => ⟨e, (Table.mem_delete.mp he).1, rfl, rfl⟩
  rw [SemanticTraversal.readClock]
  split
  · exact hpop.of_quiet (.of_eq rfl rfl (fun _ hu => hu) rfl)
  · exact hpop

/-- Reading the clock is quiet. -/
theorem quiet_readClock (s : SemanticTraversal) (elapsed : ℕ) :
    Quiet s (s.readClock ctx elapsed) := by
  rw [SemanticTraversal.readClock]
  split
  · exact .of_eq rfl rfl (fun _ hu => hu) rfl
  · exact .refl s

/-- The orders after an observation of the first queued unit. -/
theorem processObservation_orders {s s' : SemanticTraversal} {held : Orders}
    {observation : PageObservation} {downloadedBytes : ℕ} {u : Unit}
    (hl : Ledger s held) (hhead : s.queue.head? = some entry)
    (h : processObservation ctx readings entry observation downloadedBytes
      ((s.pop entry).readClock ctx readings.afterProvider) = .ok (u, s')) :
    Ledger s' (heldAfter s s' held) ∧ (Orderly ctx s held →
      ¬ CollapsesLast ctx s held (.observed observation downloadedBytes) →
      Orderly ctx s' (heldAfter s s' held)) := by
  have hentry : entry ∈ s.queued.rows := SemanticTraversal.mem_queue.mp (List.mem_of_head? hhead)
  have hadmitted := hl.admitted_of_queued hentry
  obtain ⟨_, final, scope, s₁, hfinal, _, hreconcile, hexpand⟩ := processObservation_eq_ok h
  -- the unit has left the queue and the clock was read
  set s₀ := ((s.pop entry).readClock ctx readings.afterProvider).consume downloadedBytes
  have hquiet : Quiet (s.pop entry) s₀ :=
    (quiet_readClock _ _).trans (.of_eq rfl rfl (fun _ hu => hu) rfl)
  have hl₀ : Ledger s₀ held := (hl.pop readings.afterProvider).of_quiet
    (.of_eq rfl rfl (fun _ hu => hu) rfl)
  have hadmitted₀ : s₀.admitted = s.admitted := hquiet.admitted
  have hcount₀ : s₀.newlyEnqueuedUrls = s.newlyEnqueuedUrls := hquiet.count
  rcases reconcileFinal_eq_ok (hadmitted₀ ▸ hadmitted) hreconcile with
    ⟨rfl, rfl⟩ | ⟨hne, hs₁, _⟩
  · have harrive : Quiet s₀ (s₀.arrive entry.canonicalUrl entry.canonicalUrl) :=
      .of_eq rfl rfl (fun _ hu => KeySet.mem_insert.mpr (Or.inl hu)) rfl
    have hobserve := harrive.trans
      (quiet_observe ctx entry _ entry.canonicalUrl observation downloadedBytes scope)
    obtain ⟨held', hgrows⟩ := expandObservation_grows hexpand (hl₀.of_quiet hobserve)
    rw [heldAfter_of_grows (hobserve.admitted.trans hadmitted₀) hgrows]
    exact ⟨hgrows.ledger, fun ho _ => hgrows.orderly
      ((ho.of_count hcount₀).of_quiet hobserve)⟩
  · have harrive : Quiet s₀ (s₀.arrive entry.canonicalUrl final) :=
      .of_eq rfl rfl (fun _ hu => KeySet.mem_insert.mpr (Or.inl hu)) rfl
    have hl₁ := hl₀.of_quiet harrive
    have hpopped : ∀ e ∈ (s₀.arrive entry.canonicalUrl final).queued.rows,
        e.canonicalUrl ≠ entry.canonicalUrl := by
      intro e he
      obtain ⟨e₀, he₀, hkey, _⟩ := hquiet.queued e he
      have hnot := (Table.mem_delete.mp he₀).2
      rw [← hkey]
      simpa using hnot
    have hledger : Ledger s₁ (held.move entry.canonicalUrl final) := by
      rw [hs₁]
      exact hl₁.redirect (hadmitted₀ ▸ hadmitted) hne hpopped
        (KeySet.mem_insert.mpr (Or.inr rfl))
    have hobserve : Quiet s₁ (s₁.observe ctx entry final observation downloadedBytes scope) :=
      quiet_observe ctx entry s₁ final observation downloadedBytes scope
    obtain ⟨held', hgrows⟩ := expandObservation_grows hexpand (hledger.of_quiet hobserve)
    have hafter : heldAfter s s' held = held' := by
      refine heldAfter_of_redirect hl hhead (fun v => ?_) (fun v hv => ?_) hne
        (fun e he => ?_) hgrows
      · rw [hobserve.admitted, hs₁]
        show v ∈ (s₀.admitted.remove entry.canonicalUrl).insert final ↔ _
        rw [KeySet.mem_insert, KeySet.mem_remove, hadmitted₀]
      · refine hobserve.seen v ?_
        rw [hs₁]
        exact harrive.seen v (hquiet.seen v hv)
      · obtain ⟨e₁, he₁, hkey, _⟩ := hobserve.queued e he
        rw [hs₁] at he₁
        have hnot := (Table.mem_delete.mp he₁).2
        rw [← hkey]
        simpa using hnot
    rw [hafter]
    refine ⟨hgrows.ledger, fun ho hnot => hgrows.orderly (Orderly.of_quiet ?_ hobserve)⟩
    rw [hs₁]
    refine Orderly.redirect ((ho.of_count hcount₀).of_quiet harrive) (fun hmem v hv hlast => ?_) ?_
    · have hmem' : final ∈ s.admitted := by
        rw [← hadmitted₀]
        exact hmem
      refine hnot ⟨entry.canonicalUrl, ?_, v, (hl.domain v).mpr ⟨_, hlast⟩, hv, ?_⟩
      · simp [collapsedUnit, hhead, hfinal, hne, hmem']
      · rw [hlast, SemanticTraversal.nextOrder, SemanticTraversal.nextOrder, harrive.count, hcount₀]
    · rw [hl₁.domain final, ← Option.isSome_iff_exists, Option.isSome_iff_ne_none]

/-- A step keeps the ledger, and the orders distinct unless it collapses two
admissions while a unit other than the redirected one holds the last order given. -/
theorem step_orders {outcome : ProviderOutcome} {result : SemanticTraversalStep}
    {s s' : SemanticTraversal} {held : Orders} (hl : Ledger s held)
    (h : step ctx readings outcome s = .ok (result, s')) :
    Ledger s' (heldAfter s s' held) ∧ (Orderly ctx s held →
      ¬ CollapsesLast ctx s held outcome → Orderly ctx s' (heldAfter s s' held)) := by
  have hsame : ∀ {s'' : SemanticTraversal}, Ledger s'' held → s''.admitted = s.admitted →
      s''.newlyEnqueuedUrls = s.newlyEnqueuedUrls →
      Ledger s'' (heldAfter s s'' held) ∧ (Orderly ctx s held →
        ¬ CollapsesLast ctx s held outcome → Orderly ctx s'' (heldAfter s s'' held)) := by
    intro s'' hl'' hadmitted hcount
    rw [heldAfter_of_same hl hadmitted]
    exact ⟨hl'', fun ho _ => ho.of_count hcount⟩
  rcases step_eq_ok h with ⟨_, rfl | rfl⟩ | ⟨entry, rest, hqueue, _, _, ⟨_, _, _, rfl⟩ | ⟨_, h⟩⟩
  · exact hsame hl rfl rfl
  · exact hsame (hl.of_quiet (.of_eq rfl rfl (fun _ hu => hu) rfl)) rfl rfl
  · exact hsame hl rfl rfl
  have hhead : s.queue.head? = some entry := by rw [hqueue]; rfl
  have hquiet : Quiet (s.pop entry) ((s.pop entry).readClock ctx readings.afterProvider) :=
    quiet_readClock _ _
  cases outcome with
  | observed observation downloadedBytes => exact processObservation_orders hl hhead h
  | robotsExcluded reason =>
    obtain ⟨_, h⟩ := require_bind_eq_ok.mp h
    rw [write_bind] at h
    obtain ⟨scope, page, rfl, _⟩ := recordUnobserved_eq_ok h
    exact hsame ((hl.pop readings.afterProvider).of_quiet (.of_eq rfl rfl (fun _ hu => hu) rfl))
      hquiet.admitted hquiet.count
  | pageFailed diagnostic =>
    obtain ⟨_, h⟩ := require_bind_eq_ok.mp h
    rw [write_bind] at h
    obtain ⟨scope, page, rfl, _⟩ := recordUnobserved_eq_ok h
    exact hsame ((hl.pop readings.afterProvider).of_quiet (.of_eq rfl rfl (fun _ hu => hu) rfl))
      hquiet.admitted hquiet.count
  | interrupted reason => cases h
  | unavailable => cases h

end Erabi.Crawl
