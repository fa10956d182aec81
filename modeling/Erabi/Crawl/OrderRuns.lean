/-
# Admission orders over whole runs

The roots take the first orders, and a restoration keeps the orders of the
boundary it presents.  In every run the orders of the admitted units stay
pairwise distinct as long as no redirect collapses two admissions while a unit
other than the redirected one holds the last order given.
-/
import Erabi.Crawl.Runs

namespace Erabi.Crawl

open Relational Transaction Transition

variable {ctx : TraversalContext} {readings : ClockReadings}

/-! ## Roots -/

/-- The orders after some roots: distinct, below the index of the next root, and
each of them that of a queued unit. -/
structure Rooted (s : SemanticTraversal) (held : Orders) (next : ℕ) : Prop where
  ledger : Ledger s held
  below : ∀ u o, held u = some o → o < next
  distinct : Distinct held
  queued : ∀ u ∈ s.admitted, ∃ e ∈ s.queued.rows, e.canonicalUrl = u

/-- A quiet step leaves a gap in the orders at most. -/
theorem Rooted.of_quiet {s s' : SemanticTraversal} {held : Orders} {next : ℕ}
    (h : Rooted s held next) (hq : Quiet s s') : Rooted s' held (next + 1) where
  ledger := h.ledger.of_quiet hq
  below u o hu := Nat.lt_succ_of_lt (h.below u o hu)
  distinct := h.distinct
  queued u hu := by
    obtain ⟨e, he, rfl⟩ := h.queued u (hq.admitted ▸ hu)
    exact hq.kept e he

/-- A root takes the next order. -/
theorem Rooted.enqueue {s s' : SemanticTraversal} {held : Orders} {e : QueueEntry} {next : ℕ}
    (h : Rooted s held next) (hunseen : e.canonicalUrl ∉ s.seen) (horder : e.order = next)
    (hadmitted : s'.admitted = s.admitted.insert e.canonicalUrl)
    (hqueued : s'.queued = s.queued.put e)
    (hcount : s'.newlyEnqueuedUrls = s.newlyEnqueuedUrls + 1)
    (hseen : s'.seen = s.seen.insert e.canonicalUrl) :
    ∃ held', Rooted s' held' (next + 1) := by
  have hnot : e.canonicalUrl ∉ s.admitted := fun hmem => hunseen (h.ledger.seen _ hmem)
  have hseen' : Ledger { s with seen := s.seen.insert e.canonicalUrl } held :=
    h.ledger.of_quiet (.of_eq rfl rfl (fun _ hu => KeySet.mem_insert.mpr (Or.inl hu)) rfl)
  have hledger : Ledger ({ s with seen := s.seen.insert e.canonicalUrl }.enqueue e 0)
      (Function.update held e.canonicalUrl (some e.order)) :=
    hseen'.enqueue hnot (KeySet.mem_insert.mpr (Or.inr rfl))
  have hrows : ∀ f ∈ s'.queued.rows, f ∈ (s.queued.put e).rows := fun f hf => hqueued ▸ hf
  refine ⟨_, hledger.of_sub hadmitted hcount (fun u hu => hseen ▸ hu) fun f hf =>
    ⟨f, hrows f hf, rfl, rfl⟩, fun u o hu => ?_, h.distinct.update fun v _ hv => ?_,
    fun u hu => ?_⟩
  · by_cases hue : u = e.canonicalUrl
    · rw [hue, Function.update_self, Option.some.injEq] at hu
      omega
    · rw [Function.update_of_ne hue] at hu
      exact Nat.lt_succ_of_lt (h.below u o hu)
  · have hlt := h.below v e.order hv
    omega
  · rw [hadmitted] at hu
    rw [hqueued]
    rcases KeySet.mem_insert.mp hu with hu | rfl
    · obtain ⟨f, hf, rfl⟩ := h.queued u hu
      exact ⟨f, Table.mem_put.mpr (Or.inl ⟨hf, fun hfe => hnot (hfe ▸ hu)⟩), rfl⟩
    · exact ⟨e, Table.mem_put.mpr (Or.inr rfl), rfl⟩

/-- The admission of a root keeps orders distinct. -/
theorem admitRoot_orders {seed : Seed} {next : ℕ} {s s' : SemanticTraversal} {held : Orders}
    {u : Unit} (hr : Rooted s held next)
    (h : admitRoot ctx () (seed, next) s = .ok (u, s')) : ∃ held', Rooted s' held' (next + 1) := by
  obtain ⟨scope, _, h⟩ := orFail_bind_eq_ok.mp h
  rw [read_bind, write_bind] at h
  have hsee : Quiet s { s with seen := s.seen.insert seed.canonicalUrl } :=
    .of_eq rfl rfl (fun _ hu => KeySet.mem_insert.mpr (Or.inl hu)) rfl
  by_cases hseen : seed.canonicalUrl ∈ s.seen
  · simp only [hseen, if_true] at h
    cases h
    exact ⟨held, hr.of_quiet ((hsee.trans (.mergeQueuedDuplicateProvenance _ _ _ _)).trans
      (.of_eq rfl rfl (fun _ hu => hu) rfl))⟩
  simp only [hseen, if_false] at h
  by_cases hscope : scope = .inScope
  · simp only [hscope, ne_eq, not_true_eq_false, if_false] at h
    split at h
    · cases h
      exact ⟨held, hr.of_quiet (hsee.trans (.of_eq rfl rfl (fun _ hu => hu) rfl))⟩
    · cases h
      exact hr.enqueue (e := rootEntry ctx seed next) hseen rfl rfl rfl rfl rfl
  · simp only [ne_eq, hscope, not_false_eq_true, if_true] at h
    cases h
    exact ⟨held, hr.of_quiet (hsee.trans (.of_eq rfl rfl (fun _ hu => hu) rfl))⟩

theorem admitRoots_orders {selected : List Seed} : ∀ {next : ℕ} {s s' : SemanticTraversal}
    {held : Orders} {u : Unit}, Rooted s held next →
    foldEach (admitRoot ctx) () (selected.zipIdx next) s = .ok (u, s') →
    ∃ held', Rooted s' held' (next + selected.length) := by
  induction selected with
  | nil =>
    intro next s s' held u hr h
    cases h
    exact ⟨held, hr⟩
  | cons seed selected ih =>
    intro next s s' held u hr h
    rw [List.zipIdx_cons] at h
    obtain ⟨_, s₁, hroot, hrest⟩ := bind_eq_ok.mp h
    obtain ⟨held₁, hr₁⟩ := admitRoot_orders hr hroot
    obtain ⟨held', hr'⟩ := ih hr₁ hrest
    refine ⟨held', ?_⟩
    rw [List.length_cons]
    have hnext : next + 1 + selected.length = next + (selected.length + 1) := by omega
    exact hnext ▸ hr'

/-- The roots have distinct orders, below every order that is given later. -/
theorem forFrozenSnapshot_orders {s : SemanticTraversal} (h : forFrozenSnapshot ctx = .ok s) :
    Ledger s (rootOrders s) ∧ Orderly ctx s (rootOrders s) := by
  unfold forFrozenSnapshot at h
  rcases hselect : selectSeeds ctx with e | selected
  · rw [hselect] at h
    cases h
  rw [hselect] at h
  dsimp only at h
  rcases hroots : admitRoots ctx selected (SemanticTraversal.new ctx) with e | ⟨u, s₁⟩
  · rw [hroots] at h
    cases h
  rw [hroots] at h
  cases h
  have hnew : Rooted (SemanticTraversal.new ctx) (fun _ => none) 0 := by
    refine ⟨⟨fun u => ?_, fun e he => ?_, fun u hu => ?_, rfl⟩, fun u o hu => ?_,
      fun u v o hu => ?_, fun u hu => ?_⟩
    · simp [SemanticTraversal.new]
    · cases he
    · cases hu
    · cases hu
    · cases hu
    · cases hu
  obtain ⟨held, hr⟩ := admitRoots_orders hnew hroots
  have heq : rootOrders s = held := by
    funext u
    by_cases hu : u ∈ s.admitted
    · obtain ⟨e, he, rfl⟩ := hr.queued u hu
      rw [rootOrders, Table.find?_key he, Option.map_some, hr.ledger.queued e he]
    · rw [hr.ledger.eq_none hu, rootOrders, Option.map_eq_none_iff]
      exact Table.find?_eq_none.mpr fun e he hkey => hu (hkey ▸ hr.ledger.admitted_of_queued he)
  rw [heq]
  refine ⟨hr.ledger, fun u o hu => ?_, hr.distinct⟩
  have hlt := hr.below u o hu
  rw [Nat.zero_add, ← List.length_map, (selectSeeds_eq_ok hselect).1] at hlt
  rw [SemanticTraversal.nextOrder]
  omega

/-! ## Runs -/

/-- The checkpoint presents the admissions of the boundary: its admitted units,
and for each unit of its frontier, or of the selection that replaces it, the
order that the unit holds. -/
structure Boundary.PresentsOrders (boundary : Boundary) (state : SemanticTraversalCheckpoint)
    (selection : Option (List QueueEntry)) : Prop where
  admitted : ∀ u ∈ state.admittedCanonicalUrls, u ∈ boundary.traversal.admitted
  complete : ∀ u ∈ boundary.traversal.admitted.keys, u ∈ state.admittedCanonicalUrls
  orders : ∀ e ∈ selection.getD state.pending,
    boundary.held e.canonicalUrl = some e.order

instance (boundary : Boundary) (state : SemanticTraversalCheckpoint)
    (selection : Option (List QueueEntry)) :
    Decidable (boundary.PresentsOrders state selection) :=
  decidable_of_iff ((∀ u ∈ state.admittedCanonicalUrls, u ∈ boundary.traversal.admitted) ∧
      (∀ u ∈ boundary.traversal.admitted.keys, u ∈ state.admittedCanonicalUrls) ∧
      ∀ e ∈ selection.getD state.pending, boundary.held e.canonicalUrl = some e.order)
    ⟨fun ⟨h₁, h₂, h₃⟩ => ⟨h₁, h₂, h₃⟩, fun h => ⟨h.admitted, h.complete, h.orders⟩⟩

/-- The outcome does not collapse two admissions while a unit other than the
redirected one holds the last order given. -/
def KeepsOrders (ctx : TraversalContext) (boundary : Boundary) (outcome : ProviderOutcome) :
    Prop := ¬ CollapsesLast ctx boundary.traversal boundary.held outcome

instance (ctx : TraversalContext) (boundary : Boundary) (outcome : ProviderOutcome) :
    Decidable (KeepsOrders ctx boundary outcome) :=
  inferInstanceAs (Decidable (¬ CollapsesLast ctx boundary.traversal boundary.held outcome))

/-- The ledger and the orders of a boundary are in order. -/
def Boundary.Sound (ctx : TraversalContext) (boundary : Boundary) : Prop :=
  Ledger boundary.traversal boundary.held ∧ Orderly ctx boundary.traversal boundary.held

/-- A restoration of what a sound boundary presents. -/
theorem Boundary.Sound.restore {boundary : Boundary} {state : SemanticTraversalCheckpoint}
    {selection : Option (List QueueEntry)} {s : SemanticTraversal}
    (h : boundary.Sound ctx) (hp : boundary.PresentsOrders state selection)
    (hs : restoreSelection ctx state selection = .ok s) : (boundary.restored s).Sound ctx := by
  obtain ⟨hl, ho⟩ := h
  obtain ⟨selected, parts, _, hparts, heq, hqueued⟩ := restoreSelection_eq_ok hs
  have hmem : ∀ u, u ∈ s.admitted ↔ u ∈ boundary.traversal.admitted := by
    intro u
    rw [heq]
    show u ∈ parts.sets.admitted ↔ _
    rw [KeySet.mem_def, (restoreSets_eq_some hparts.sets).admitted]
    exact ⟨hp.admitted u, hp.complete u⟩
  have hnewly : s.newlyEnqueuedUrls = s.admitted.size := by
    rw [heq]
    exact hparts.newly
  refine ⟨⟨fun u => (hmem u).trans (hl.domain u), fun e he => hp.orders e (hqueued ▸ he),
    fun u hu => ?_, hnewly⟩, fun u o hu => ?_, ho.distinct⟩
  · have hu' : u ∈ s.admitted := hu
    show u ∈ s.seen
    rw [heq] at hu' ⊢
    exact hparts.coherent.admitted u hu'
  · have hlt := ho.below u o hu
    rw [SemanticTraversal.nextOrder, hl.count, ← KeySet.Same.size hmem] at hlt
    show o < s.nextOrder ctx
    rw [SemanticTraversal.nextOrder, hnewly]
    exact hlt

/-- **Admission orders stay distinct.**  In every run from the roots whose steps
never collapse two admissions while a unit other than the redirected one holds the
last order given, the admitted units of every boundary hold pairwise distinct
orders. -/
theorem orders_distinct_throughout {s : SemanticTraversal} (hstart : forFrozenSnapshot ctx = .ok s)
    (inputs : List TraversalInput)
    (hkeeps : Meets (runStep ctx Boundary.PresentsOrders) (Guarded (KeepsOrders ctx)) (.start s)
      inputs) :
    Throughout (runStep ctx Boundary.PresentsOrders)
      (fun run => ∀ boundary ∈ run.boundaries, Distinct boundary.held) (.start s) inputs := by
  refine Throughout.mono (fun run hrun boundary hb => (hrun boundary hb).2.distinct)
    (boundaries_throughout (P := Boundary.Sound ctx)
      (fun boundary readings outcome result s' hsound hallowed hstep => ?_)
      (fun boundary state selection s' hsound hp hs => hsound.restore hp hs)
      (forFrozenSnapshot_orders hstart) hkeeps)
  obtain ⟨hl', ho'⟩ := step_orders hsound.1 hstep
  exact ⟨hl', ho' hsound.2 hallowed⟩

/-! ## A redirect that frees an order in use -/

/-- A run whose redirect leads to a new URL. -/
theorem orders_distinct_throughout_plain :
    Throughout (runStep roomyContext Boundary.PresentsOrders)
      (fun run => ∀ boundary ∈ run.boundaries, Distinct boundary.held)
      (.start (rootTraversal roomyContext)) [.step .zero (observed 1 none [2, 3]),
        .step .zero (observed 2 (some 4) [5])] :=
  orders_distinct_throughout (by rfl) _ ⟨by decide +kernel, by decide +kernel, trivial⟩

/-- URL 1 links to 2 and 3, and 2 redirects to 3: the two admissions become one,
and the next link gets the order that 3 holds. -/
theorem orders_not_distinct :
    ¬ Throughout (runStep roomyContext Boundary.PresentsOrders)
      (fun run => ∀ boundary ∈ run.boundaries, Distinct boundary.held)
      (.start (rootTraversal roomyContext)) [.step .zero (observed 1 none [2, 3]),
        .step .zero (observed 2 (some 3) [4])] := by
  intro h
  have hlast := h.atEnd _ List.mem_cons_self 3 4 3 (by decide +kernel) (by decide +kernel)
  cases hlast

end Erabi.Crawl
