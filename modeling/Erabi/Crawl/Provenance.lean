/-
# Seed provenance over whole runs

A selected root lives on in the seed identities of a queued unit until a page
with them is processed.  Merges add identities, and the one change that can lose
them is a redirect to a queued unit, whose entry is dropped.  The reported
outcome of a root is that of the last page of the report that carries it.
-/
import Erabi.Crawl.Base
import Erabi.Crawl.Pages

namespace Erabi.Crawl

open Relational Transaction Transition

variable {ctx : TraversalContext} {readings : ClockReadings} {roots : SemanticTraversal}

/-! ## Roots -/

/-- A selected in-scope root whose URL the page budget did not exclude. -/
def Tracked (ctx : TraversalContext) (roots : SemanticTraversal) (id : SeedId) : Prop :=
  id ∈ ctx.selectedSeedIds ∧ ∃ seed ∈ ctx.seed id,
    ctx.classify seed.canonicalUrl = some .inScope ∧
    ∀ evidence ∈ roots.seeds, evidence.canonicalUrl = seed.canonicalUrl →
      evidence.state ≠ .budgetExcluded

instance (ctx : TraversalContext) (roots : SemanticTraversal) (id : SeedId) :
    Decidable (Tracked ctx roots id) :=
  inferInstanceAs (Decidable (id ∈ ctx.selectedSeedIds ∧ ∃ seed ∈ ctx.seed id,
    ctx.classify seed.canonicalUrl = some .inScope ∧
    ∀ evidence ∈ roots.seeds, evidence.canonicalUrl = seed.canonicalUrl →
      evidence.state ≠ .budgetExcluded))

/-- An entry after a merge, and the entry before it. -/
theorem mem_merged {s : SemanticTraversal} {u : Url} {seedIds : List SeedId} {depth : Option ℕ}
    {e : QueueEntry} (he : e ∈ (s.mergeQueuedDuplicateProvenance u seedIds depth).queued.rows) :
    ∃ e₀ ∈ s.queued.rows, e.canonicalUrl = e₀.canonicalUrl ∧
      (∀ id ∈ e₀.seedIds, id ∈ e.seedIds) ∧ (e.canonicalUrl = u → ∀ id ∈ seedIds, id ∈ e.seedIds) := by
  obtain ⟨e₀, he₀, rfl⟩ := List.mem_map.mp he
  refine ⟨e₀, he₀, ?_⟩
  split
  · exact ⟨rfl, fun id hid => QueueEntry.mem_merge.mpr (Or.inl hid),
      fun _ id hid => QueueEntry.mem_merge.mpr (Or.inr hid)⟩
  · rename_i hother
    exact ⟨rfl, fun id hid => hid, fun hkey => absurd (decide_eq_true hkey) hother⟩

/-- An entry before a merge, and the entry after it. -/
theorem merged_of_mem {s : SemanticTraversal} {u : Url} {seedIds : List SeedId}
    {depth : Option ℕ} {e₀ : QueueEntry} (he₀ : e₀ ∈ s.queued.rows) :
    ∃ e ∈ (s.mergeQueuedDuplicateProvenance u seedIds depth).queued.rows,
      e.canonicalUrl = e₀.canonicalUrl ∧ ∀ id ∈ e₀.seedIds, id ∈ e.seedIds := by
  refine ⟨_, List.mem_map_of_mem he₀, ?_⟩
  split
  · exact ⟨rfl, fun id hid => QueueEntry.mem_merge.mpr (Or.inl hid)⟩
  · exact ⟨rfl, fun id hid => hid⟩

/-- The roots admitted so far: every seen URL is queued, out of scope or excluded
by the page budget, and the entry of a root carries the root. -/
structure RootsSettled (ctx : TraversalContext) (s : SemanticTraversal) (done : List Seed) :
    Prop where
  queued : ∀ e ∈ s.queued.rows, e.canonicalUrl ∈ s.seen
  settled : ∀ u ∈ s.seen, (∃ e ∈ s.queued.rows, e.canonicalUrl = u) ∨
    ctx.classify u ≠ some .inScope ∨
    ∃ evidence ∈ s.seeds, evidence.canonicalUrl = u ∧ evidence.state = .budgetExcluded
  seen : ∀ seed ∈ done, seed.canonicalUrl ∈ s.seen
  carried : ∀ seed ∈ done, ∀ e ∈ s.queued.rows, e.canonicalUrl = seed.canonicalUrl →
    seed.id ∈ e.seedIds
  pages : s.pages = []

/-- A root that adds no unit. -/
theorem RootsSettled.exclude {s s' : SemanticTraversal} {done : List Seed} {seed : Seed}
    {evidence : DiscoveryPreviewSeed} (h : RootsSettled ctx s done)
    (hunseen : seed.canonicalUrl ∉ s.seen) (hqueued : s'.queued = s.queued)
    (hseen : s'.seen = s.seen.insert seed.canonicalUrl)
    (hseeds : s'.seeds = s.seeds ++ [evidence]) (hpages : s'.pages = s.pages)
    (hout : ctx.classify seed.canonicalUrl ≠ some .inScope ∨
      evidence.canonicalUrl = seed.canonicalUrl ∧ evidence.state = .budgetExcluded) :
    RootsSettled ctx s' (done ++ [seed]) where
  queued e he := by
    rw [hqueued] at he
    rw [hseen]
    exact KeySet.mem_insert.mpr (Or.inl (h.queued e he))
  settled u hu := by
    rw [hseen] at hu
    rw [hqueued, hseeds]
    rcases KeySet.mem_insert.mp hu with hu | rfl
    · rcases h.settled u hu with hq | hscope | ⟨ev, hev, hstate⟩
      · exact Or.inl hq
      · exact Or.inr (Or.inl hscope)
      · exact Or.inr (Or.inr ⟨ev, List.mem_append_left _ hev, hstate⟩)
    · rcases hout with hscope | hstate
      · exact Or.inr (Or.inl hscope)
      · exact Or.inr (Or.inr ⟨evidence, List.mem_append_right _ (List.mem_singleton_self _),
          hstate⟩)
  seen other hother := by
    rw [hseen]
    rcases List.mem_append.mp hother with hother | hother
    · exact KeySet.mem_insert.mpr (Or.inl (h.seen other hother))
    · rw [List.mem_singleton.mp hother]
      exact KeySet.mem_insert.mpr (Or.inr rfl)
  carried other hother e he hkey := by
    rw [hqueued] at he
    rcases List.mem_append.mp hother with hother | hother
    · exact h.carried other hother e he hkey
    · rw [List.mem_singleton.mp hother] at hkey
      exact absurd (hkey ▸ h.queued e he) hunseen
  pages := hpages.trans h.pages

/-- A root of a URL that is already seen. -/
theorem RootsSettled.repeated {s s' : SemanticTraversal} {done : List Seed} {seed : Seed}
    {evidence : DiscoveryPreviewSeed} (h : RootsSettled ctx s done)
    (hseen : seed.canonicalUrl ∈ s.seen)
    (hqueued : s'.queued =
      (s.mergeQueuedDuplicateProvenance seed.canonicalUrl [seed.id] none).queued)
    (hinsert : s'.seen = s.seen.insert seed.canonicalUrl)
    (hseeds : s'.seeds = s.seeds ++ [evidence]) (hpages : s'.pages = s.pages) :
    RootsSettled ctx s' (done ++ [seed]) where
  queued e he := by
    rw [hqueued] at he
    obtain ⟨e₀, he₀, hkey, _⟩ := mem_merged he
    rw [hinsert, hkey]
    exact KeySet.mem_insert.mpr (Or.inl (h.queued e₀ he₀))
  settled u hu := by
    rw [hinsert, KeySet.insert_of_mem hseen] at hu
    rw [hqueued, hseeds]
    rcases h.settled u hu with ⟨e₀, he₀, rfl⟩ | hout | ⟨ev, hev, hstate⟩
    · obtain ⟨e, he, hkey, _⟩ := merged_of_mem he₀
      exact Or.inl ⟨e, he, hkey⟩
    · exact Or.inr (Or.inl hout)
    · exact Or.inr (Or.inr ⟨ev, List.mem_append_left _ hev, hstate⟩)
  seen other hother := by
    rw [hinsert, KeySet.insert_of_mem hseen]
    rcases List.mem_append.mp hother with hother | hother
    · exact h.seen other hother
    · rw [List.mem_singleton.mp hother]
      exact hseen
  carried other hother e he hkey := by
    rw [hqueued] at he
    obtain ⟨e₀, he₀, hkey₀, hkept, hnew⟩ := mem_merged he
    rcases List.mem_append.mp hother with hother | hother
    · exact hkept _ (h.carried other hother e₀ he₀ (hkey₀.symm.trans hkey))
    · rw [List.mem_singleton.mp hother] at hkey ⊢
      exact hnew hkey _ (List.mem_singleton_self _)
  pages := hpages.trans h.pages

/-- A root that is admitted. -/
theorem RootsSettled.enqueue {s s' : SemanticTraversal} {done : List Seed} {seed : Seed}
    {order : ℕ} {evidence : DiscoveryPreviewSeed} (h : RootsSettled ctx s done)
    (hunseen : seed.canonicalUrl ∉ s.seen)
    (hqueued : s'.queued = s.queued.put (rootEntry ctx seed order))
    (hinsert : s'.seen = s.seen.insert seed.canonicalUrl)
    (hseeds : s'.seeds = s.seeds ++ [evidence]) (hpages : s'.pages = s.pages) :
    RootsSettled ctx s' (done ++ [seed]) where
  queued e he := by
    rw [hqueued] at he
    rw [hinsert]
    rcases Table.mem_put.mp he with ⟨he, _⟩ | rfl
    · exact KeySet.mem_insert.mpr (Or.inl (h.queued e he))
    · exact KeySet.mem_insert.mpr (Or.inr rfl)
  settled u hu := by
    rw [hinsert] at hu
    rw [hqueued, hseeds]
    rcases KeySet.mem_insert.mp hu with hu | rfl
    · rcases h.settled u hu with ⟨e, he, rfl⟩ | hout | ⟨ev, hev, hstate⟩
      · have hne : e.canonicalUrl ≠ seed.canonicalUrl := fun hkey => hunseen (hkey ▸ hu)
        exact Or.inl ⟨e, Table.mem_put.mpr (Or.inl ⟨he, hne⟩), rfl⟩
      · exact Or.inr (Or.inl hout)
      · exact Or.inr (Or.inr ⟨ev, List.mem_append_left _ hev, hstate⟩)
    · exact Or.inl ⟨_, Table.mem_put.mpr (Or.inr rfl), rfl⟩
  seen other hother := by
    rw [hinsert]
    rcases List.mem_append.mp hother with hother | hother
    · exact KeySet.mem_insert.mpr (Or.inl (h.seen other hother))
    · rw [List.mem_singleton.mp hother]
      exact KeySet.mem_insert.mpr (Or.inr rfl)
  carried other hother e he hkey := by
    rw [hqueued] at he
    rcases List.mem_append.mp hother with hother | hother
    · rcases Table.mem_put.mp he with ⟨he, _⟩ | rfl
      · exact h.carried other hother e he hkey
      · have hsame : other.canonicalUrl = seed.canonicalUrl := hkey.symm
        exact absurd (hsame ▸ h.seen other hother) hunseen
    · rw [List.mem_singleton.mp hother] at hkey ⊢
      rcases Table.mem_put.mp he with ⟨he, _⟩ | rfl
      · exact absurd (hkey ▸ h.queued e he) hunseen
      · exact List.mem_singleton_self _
  pages := hpages.trans h.pages

/-- The admission of a root settles its seed. -/
theorem admitRoot_settled {seed : Seed} {order : ℕ} {s s' : SemanticTraversal} {u : Unit}
    {done : List Seed} (h : RootsSettled ctx s done)
    (hroot : admitRoot ctx () (seed, order) s = .ok (u, s')) :
    RootsSettled ctx s' (done ++ [seed]) := by
  obtain ⟨scope, hscope, hroot⟩ := orFail_bind_eq_ok.mp hroot
  rw [read_bind, write_bind] at hroot
  by_cases hseen : seed.canonicalUrl ∈ s.seen
  · simp only [hseen, if_true] at hroot
    cases hroot
    exact h.repeated hseen rfl rfl rfl rfl
  simp only [hseen, if_false] at hroot
  by_cases hin : scope = .inScope
  · subst hin
    simp only [ne_eq, not_true_eq_false, if_false] at hroot
    split at hroot
    · cases hroot
      exact h.exclude hseen rfl rfl rfl rfl (Or.inr ⟨rfl, rfl⟩)
    · cases hroot
      exact h.enqueue hseen rfl rfl rfl rfl
  · simp only [ne_eq, hin, not_false_eq_true, if_true] at hroot
    cases hroot
    refine h.exclude hseen rfl rfl rfl rfl (Or.inl fun hclassify => hin ?_)
    rw [hscope] at hclassify
    exact Option.some.inj hclassify

/-- The admission of the roots settles the seeds in turn. -/
theorem admitRoots_settled {selected : List Seed} : ∀ {order : ℕ} {s s' : SemanticTraversal}
    {u : Unit} {done : List Seed}, RootsSettled ctx s done →
    foldEach (admitRoot ctx) () (selected.zipIdx order) s = .ok (u, s') →
    RootsSettled ctx s' (done ++ selected) := by
  induction selected with
  | nil =>
    intro order s s' u done h hfold
    cases hfold
    rw [List.append_nil]
    exact h
  | cons seed selected ih =>
    intro order s s' u done h hfold
    rw [List.zipIdx_cons] at hfold
    obtain ⟨_, s₁, hroot, hrest⟩ := bind_eq_ok.mp hfold
    have hnext := ih (admitRoot_settled h hroot) hrest
    rw [List.append_assoc] at hnext
    exact hnext

/-- The roots settle every selected seed. -/
theorem forFrozenSnapshot_settled {s : SemanticTraversal}
    (hstart : forFrozenSnapshot ctx = .ok s) :
    ∃ selected, selectSeeds ctx = .ok selected ∧ RootsSettled ctx s selected := by
  unfold forFrozenSnapshot at hstart
  rcases hselect : selectSeeds ctx with e | selected
  · rw [hselect] at hstart
    cases hstart
  rw [hselect] at hstart
  dsimp only at hstart
  rcases hroots : admitRoots ctx selected (SemanticTraversal.new ctx) with e | ⟨u, s₁⟩
  · rw [hroots] at hstart
    cases hstart
  rw [hroots] at hstart
  cases hstart
  have hnew : RootsSettled ctx (SemanticTraversal.new ctx) [] :=
    ⟨fun e he => (by cases he), fun u hu => (by cases hu), fun e he => (by cases he),
      fun e he => (by cases he), rfl⟩
  have hsettled := admitRoots_settled hnew hroots
  rw [List.nil_append] at hsettled
  exact ⟨selected, rfl, hsettled⟩

/-- Every tracked root is carried by a queued unit of the roots. -/
theorem forFrozenSnapshot_carries {s : SemanticTraversal} (hstart : forFrozenSnapshot ctx = .ok s)
    {id : SeedId} (h : Tracked ctx s id) : ∃ e ∈ s.queued.rows, id ∈ e.seedIds := by
  obtain ⟨selected, hselect, hsettled⟩ := forFrozenSnapshot_settled hstart
  obtain ⟨hids, hok⟩ := selectSeeds_eq_ok hselect
  obtain ⟨hid, seed, hseed, hscope, hevidence⟩ := h
  rw [← hids] at hid
  obtain ⟨other, hother, rfl⟩ := List.mem_map.mp hid
  have hfound := (selectSeed_eq_ok (hok other hother)).1
  have hsame : seed = other := Option.some.inj (Option.mem_def.mp hseed ▸ hfound)
  subst hsame
  rcases hsettled.settled _ (hsettled.seen seed hother) with ⟨e, he, hkey⟩ | hout | ⟨ev, hev, hst⟩
  · exact ⟨e, he, hsettled.carried seed hother e he hkey⟩
  · exact absurd hscope hout
  · exact absurd hst.2 (hevidence ev hev hst.1)

/-! ## Steps -/

/-- The final canonical URL of an outcome. -/
def ProviderOutcome.final (ctx : TraversalContext) : ProviderOutcome → Option Url
  | .observed observation _ => ctx.canonicalize observation.finalOriginal
  | .robotsExcluded _ | .pageFailed _ | .interrupted _ | .unavailable => none

/-- An answer leads to its final URL. -/
theorem ProviderOutcome.leads_final (outcome : ProviderOutcome) :
    outcome.Leads ctx (fun u => outcome.final ctx = some u) fun _ => True := by
  cases outcome with
  | observed observation downloadedBytes =>
    exact ⟨fun final hfinal => hfinal, fun _ _ _ _ => trivial⟩
  | robotsExcluded reason => trivial
  | pageFailed diagnostic => trivial
  | interrupted reason => trivial
  | unavailable => trivial

/-- Each root of a set is carried by a page or by a queued unit that the final URL
of the outcome does not name. -/
structure Carried (ctx : TraversalContext) (outcome : ProviderOutcome) (tracked : SeedId → Prop)
    (s : SemanticTraversal) : Prop where
  base : Base s
  carried : ∀ id, tracked id → ∃ e ∈ s.queued.rows,
    outcome.final ctx ≠ some e.canonicalUrl ∧ id ∈ e.seedIds

/-- What the queue carries depends on the queue. -/
theorem Carried.of_queued {outcome : ProviderOutcome} {tracked : SeedId → Prop}
    {s s' : SemanticTraversal} (h : Carried ctx outcome tracked s) (hbase : Base s')
    (hqueued : s'.queued = s.queued) : Carried ctx outcome tracked s' :=
  ⟨hbase, hqueued ▸ h.carried⟩

/-- No change of a step loses a root, a redirect included. -/
theorem Carried.invariant (outcome : ProviderOutcome) (tracked : SeedId → Prop) :
    Invariant ctx (Carried ctx outcome tracked) (fun _ => True)
      (fun u => outcome.final ctx = some u) fun _ => True where
  base h := h.base
  frame {s s'} h hf := by
    refine h.of_queued (h.base.frame hf) ?_
    rw [hf.eq]
  consume hn h := h.of_queued
    ⟨h.base.queued, h.base.admitted, h.base.sampled, h.base.expanded, h.base.newly,
      h.base.pages⟩ rfl
  see _ h := h.of_queued (h.base.see _) rfl
  redirect {s unit f scheduled} _ hfinal hr h := by
    refine ⟨h.base.redirect hr, fun id hid => ?_⟩
    obtain ⟨e, he, hne, hmem⟩ := h.carried id hid
    refine ⟨e, Table.mem_delete.mpr ⟨he, decide_eq_false fun hkey => hne ?_⟩, hne, hmem⟩
    rw [hkey]
    exact hfinal
  register _ _ _ h := h.of_queued
    ⟨h.base.queued, h.base.admitted, h.base.sampled, h.base.expanded, h.base.newly,
      h.base.pages⟩ rfl
  sample {s f scope} _ hs h := by
    refine h.of_queued (h.base.sample hs.seen hs.first) ?_
    rw [SemanticTraversal.sample]
    split <;> rfl
  expand hf h := h.of_queued (h.base.expand hf) rfl
  merge {s u parent depth} _ _ h := by
    refine ⟨h.base.merge _ _ _, fun id hid => ?_⟩
    obtain ⟨e₀, he₀, hne, hmem⟩ := h.carried id hid
    obtain ⟨e, he, hkey, hkept⟩ := merged_of_mem he₀
    exact ⟨e, he, hkey.symm ▸ hne, hkept id hmem⟩
  consumeTransition _ _ _ h := h.of_queued
    ⟨h.base.queued, h.base.admitted, h.base.sampled, h.base.expanded, h.base.newly,
      h.base.pages⟩ rfl
  enqueue {before s parent entry winner} _ _ _ ha h := by
    refine ⟨h.base.admitted_insert ha.seen ha.admitted rfl, fun id hid => ?_⟩
    obtain ⟨e, he, hne, hmem⟩ := h.carried id hid
    have hkey : e.canonicalUrl ≠ entry.canonicalUrl := fun hkey =>
      ha.admitted (hkey ▸ h.base.queued e he)
    exact ⟨e, Table.mem_put.mpr (Or.inl ⟨he, hkey⟩), hne, hmem⟩

/-! ## Boundaries -/

/-- A queued unit or a processed page carries the root. -/
def Boundary.Represents (boundary : Boundary) (id : SeedId) : Prop :=
  (∃ e ∈ boundary.traversal.queued.rows, id ∈ e.seedIds) ∨
    ∃ page ∈ boundary.processed, id ∈ page.seedIds

/-- The page that represents a root: the first processed one that carries it. -/
def Boundary.representative (boundary : Boundary) (id : SeedId) : Option DiscoveryPreviewPage :=
  boundary.processed.find? fun page => id ∈ page.seedIds

/-- One more page represents the roots that no earlier one does. -/
theorem Boundary.representative_append {before boundary : Boundary} {page : DiscoveryPreviewPage}
    (h : boundary.processed = before.processed ++ [page]) (id : SeedId) :
    boundary.representative id =
      (before.representative id).or (if id ∈ page.seedIds then some page else none) := by
  rw [Boundary.representative, h, List.find?_append]
  by_cases hid : id ∈ page.seedIds
  · rw [if_pos hid, List.find?_cons_of_pos (by simpa using hid)]
    rfl
  · rw [if_neg hid, List.find?_cons_of_neg (by simpa using hid)]
    rfl

/-- No tracked root is lost, and in a report with an empty frontier each has the
outcome of the page that represents it.  A report starts anew with a restoration,
so it is asked only for roots that no page carries from before. -/
structure Boundary.SeedsKept (ctx : TraversalContext) (roots : SemanticTraversal)
    (boundary : Boundary) : Prop where
  represented : ∀ id, Tracked ctx roots id → boundary.Represents id
  reported : boundary.traversal.queue = [] → ∀ evidence ∈ boundary.traversal.seeds,
    Tracked ctx roots evidence.seedId →
    (∀ page ∈ boundary.processed, evidence.seedId ∈ page.seedIds →
      page ∈ boundary.traversal.pages) →
    ∃ page ∈ boundary.representative evidence.seedId, evidence.state = page.state

/-- The outcome does not redirect the first queued unit to a queued one that alone
carries a tracked root, and gives the roots of the unit the state of the page that
represents them already. -/
def KeepsSeeds (ctx : TraversalContext) (roots : SemanticTraversal) (boundary : Boundary)
    (outcome : ProviderOutcome) : Prop :=
  ∀ entry ∈ boundary.traversal.queue.head?,
    (∀ final ∈ outcome.final ctx, final ≠ entry.canonicalUrl →
      ∀ e ∈ boundary.traversal.queued.find? final, ∀ id ∈ e.seedIds, Tracked ctx roots id →
        (∃ f ∈ boundary.traversal.queued.rows, f.canonicalUrl ≠ final ∧ id ∈ f.seedIds) ∨
          ∃ page ∈ boundary.processed, id ∈ page.seedIds) ∧
    ∀ id ∈ entry.seedIds, Tracked ctx roots id →
      ∀ page ∈ boundary.representative id, ∀ state ∈ outcome.verdict ctx, state = page.state

instance (ctx : TraversalContext) (roots : SemanticTraversal) (boundary : Boundary)
    (outcome : ProviderOutcome) : Decidable (KeepsSeeds ctx roots boundary outcome) :=
  inferInstanceAs (Decidable (∀ entry ∈ boundary.traversal.queue.head?,
    (∀ final ∈ outcome.final ctx, final ≠ entry.canonicalUrl →
      ∀ e ∈ boundary.traversal.queued.find? final, ∀ id ∈ e.seedIds, Tracked ctx roots id →
        (∃ f ∈ boundary.traversal.queued.rows, f.canonicalUrl ≠ final ∧ id ∈ f.seedIds) ∨
          ∃ page ∈ boundary.processed, id ∈ page.seedIds) ∧
    ∀ id ∈ entry.seedIds, Tracked ctx roots id →
      ∀ page ∈ boundary.representative id, ∀ state ∈ outcome.verdict ctx, state = page.state))

/-- The frontier that a restoration presents carries the roots of the boundary's. -/
def Boundary.PresentsSeeds (boundary : Boundary) (state : SemanticTraversalCheckpoint)
    (selection : Option (List QueueEntry)) : Prop :=
  ∀ e ∈ boundary.traversal.queued.rows, ∀ id ∈ e.seedIds,
    ∃ f ∈ selection.getD state.pending, id ∈ f.seedIds

instance (boundary : Boundary) (state : SemanticTraversalCheckpoint)
    (selection : Option (List QueueEntry)) :
    Decidable (boundary.PresentsSeeds state selection) :=
  inferInstanceAs (Decidable (∀ e ∈ boundary.traversal.queued.rows, ∀ id ∈ e.seedIds,
    ∃ f ∈ selection.getD state.pending, id ∈ f.seedIds))

/-- The exported checkpoint of a boundary presents its frontier. -/
theorem Boundary.presentsSeeds_checkpointState (boundary : Boundary) (elapsed : ℕ) :
    boundary.PresentsSeeds (checkpointState ctx boundary.traversal elapsed) none :=
  fun e he _ hid => ⟨e, SemanticTraversal.mem_queue.mpr he, hid⟩

/-- The invariant behind the kept roots: the report lists the last processed pages
and gives each root on one of them the state of its representative. -/
structure Boundary.Provenance (ctx : TraversalContext) (roots : SemanticTraversal)
    (boundary : Boundary) : Prop where
  base : Base boundary.traversal
  represented : ∀ id, Tracked ctx roots id → boundary.Represents id
  earlier : ∃ earlier, boundary.processed = earlier ++ boundary.traversal.pages
  states : ∀ evidence ∈ boundary.traversal.seeds, Tracked ctx roots evidence.seedId →
    (∃ page ∈ boundary.traversal.pages, evidence.seedId ∈ page.seedIds) →
    ∃ page ∈ boundary.representative evidence.seedId, evidence.state = page.state

/-- Provenance at a boundary keeps the seeds. -/
theorem Boundary.Provenance.seedsKept {boundary : Boundary}
    (h : boundary.Provenance ctx roots) : boundary.SeedsKept ctx roots where
  represented := h.represented
  reported hempty evidence hevidence htracked hlisted := by
    rcases h.represented _ htracked with ⟨e, he, _⟩ | ⟨page, hpage, hid⟩
    · rw [← SemanticTraversal.mem_queue, hempty] at he
      cases he
    · exact h.states evidence hevidence htracked ⟨page, hlisted page hpage hid, hid⟩

/-- Restoring what presents the seeds keeps provenance. -/
theorem Boundary.Provenance.restore {boundary : Boundary} {state : SemanticTraversalCheckpoint}
    {selection : Option (List QueueEntry)} {s : SemanticTraversal}
    (h : boundary.Provenance ctx roots) (hp : boundary.PresentsSeeds state selection)
    (hs : restoreSelection ctx state selection = .ok s) :
    (boundary.restored s).Provenance ctx roots := by
  obtain ⟨selected, parts, _, _, heq, hqueued⟩ := restoreSelection_eq_ok hs
  have hpages : s.pages = [] := by rw [heq]; rfl
  refine ⟨Base.restored hs, fun id hid => ?_, ⟨boundary.processed, ?_⟩,
    fun evidence _ _ ⟨page, hpage, _⟩ => ?_⟩
  · rcases h.represented id hid with ⟨e, he, hmem⟩ | hpage
    · obtain ⟨f, hf, hidf⟩ := hp e he id hmem
      exact Or.inl ⟨f, hqueued.symm ▸ hf, hidf⟩
    · exact Or.inr hpage
  · show boundary.processed = boundary.processed ++ s.pages
    rw [hpages, List.append_nil]
  · have hpage' : page ∈ s.pages := hpage
    rw [hpages] at hpage'
    cases hpage'

/-- A step without a page leaves the boundary as it is. -/
theorem Boundary.Provenance.of_same {boundary : Boundary} {s : SemanticTraversal}
    (h : boundary.Provenance ctx roots) (hbase : Base s)
    (hqueued : s.queued = boundary.traversal.queued)
    (hsame : SameReport boundary.traversal s) : (boundary.after s).Provenance ctx roots := by
  have hprocessed : (boundary.after s).processed = boundary.processed := by
    show boundary.processed ++ s.pages.drop boundary.traversal.pages.length = _
    rw [hsame.pages, List.drop_length, List.append_nil]
  refine ⟨hbase, fun id hid => ?_, ?_, fun evidence hevidence htracked hpage => ?_⟩
  · rcases h.represented id hid with ⟨e, he, hmem⟩ | hpage
    · exact Or.inl ⟨e, hqueued.symm ▸ he, hmem⟩
    · exact Or.inr (hprocessed.symm ▸ hpage)
  · obtain ⟨earlier, hearlier⟩ := h.earlier
    refine ⟨earlier, ?_⟩
    rw [hprocessed, hearlier]
    show _ = earlier ++ s.pages
    rw [hsame.pages]
  · have hevidence' : evidence ∈ boundary.traversal.seeds := hsame.seeds ▸ hevidence
    obtain ⟨page, hmem, hid⟩ := hpage
    have hmem' : page ∈ boundary.traversal.pages := hsame.pages ▸ hmem
    rw [Boundary.representative, hprocessed]
    exact h.states evidence hevidence' htracked ⟨page, hmem', hid⟩

/-- A step that keeps the seeds keeps the provenance. -/
theorem Boundary.Provenance.step {boundary : Boundary} {outcome : ProviderOutcome}
    {result : SemanticTraversalStep} {s : SemanticTraversal}
    (h : boundary.Provenance ctx roots) (hkeeps : KeepsSeeds ctx roots boundary outcome)
    (hstep : Crawl.step ctx readings outcome boundary.traversal = .ok (result, s)) :
    (boundary.after s).Provenance ctx roots := by
  rcases step_eq_ok hstep with
    ⟨_, rfl | rfl⟩ | ⟨entry, rest, hqueue, _, _, ⟨_, _, _, rfl⟩ | ⟨_, hprocess⟩⟩
  · exact h.of_same h.base rfl (.refl _)
  · exact h.of_same (h.base.frame ⟨rfl⟩) rfl ⟨rfl, rfl⟩
  · exact h.of_same h.base rfl (.refl _)
  have hentry : entry ∈ boundary.traversal.queued.rows := by
    rw [← SemanticTraversal.mem_queue, hqueue]
    exact List.mem_cons_self
  have hadmitted := h.base.queued entry hentry
  obtain ⟨hredirect, hstate⟩ := hkeeps entry (by rw [hqueue]; rfl)
  -- the page of the unit carries the roots that the unit carried
  obtain ⟨page, hreport⟩ := processOutcome_report
    (s := (boundary.traversal.pop entry).readClock ctx readings.afterProvider)
    (by rw [SemanticTraversal.readClock]; split <;> exact hadmitted) hprocess
  have hpop : SameReport boundary.traversal
      ((boundary.traversal.pop entry).readClock ctx readings.afterProvider) := by
    rw [SemanticTraversal.readClock]
    split <;> exact ⟨rfl, rfl⟩
  replace hreport := hreport.of_sameReport hpop (.refl _)
  have hprocessed : (boundary.after s).processed = boundary.processed ++ [page] := by
    show boundary.processed ++ s.pages.drop boundary.traversal.pages.length = _
    rw [hreport.pages, List.drop_left]
  -- the roots that no page carries are left in the queue, away from the final URL
  have hcarried : Carried ctx outcome (fun id => Tracked ctx roots id ∧ id ∉ entry.seedIds ∧
      ∀ page ∈ boundary.processed, id ∉ page.seedIds) (boundary.traversal.pop entry) := by
    refine ⟨h.base.pop entry, fun id hid => ?_⟩
    obtain ⟨htracked, hnot, hpages⟩ := hid
    have hleft : ∀ e ∈ boundary.traversal.queued.rows, id ∈ e.seedIds →
        e ∈ (boundary.traversal.pop entry).queued.rows := by
      intro e he hmem
      refine Table.mem_delete.mpr ⟨he, decide_eq_false fun hkey => hnot ?_⟩
      rw [← boundary.traversal.queued.eq_of_key_eq he hentry hkey]
      exact hmem
    rcases h.represented id htracked with ⟨e, he, hmem⟩ | ⟨p, hp, hmem⟩
    · by_cases hfinal : outcome.final ctx = some e.canonicalUrl
      · have hne : e.canonicalUrl ≠ entry.canonicalUrl := by
          simpa using (Table.mem_delete.mp (hleft e he hmem)).2
        rcases hredirect _ hfinal hne e (Table.find?_key he) id hmem htracked with
          ⟨f, hf, hother, hidf⟩ | ⟨p, hp, hidp⟩
        · refine ⟨f, hleft f hf hidf, fun heq => hother ?_, hidf⟩
          exact Option.some.inj (heq.symm.trans hfinal)
        · exact absurd hidp (hpages p hp)
      · exact ⟨e, hleft e he hmem, hfinal, hmem⟩
    · exact absurd hmem (hpages p hp)
  have hafter := (Carried.invariant outcome _).process hprocess outcome.leads_final hadmitted
    trivial hcarried
  refine ⟨hafter.base, fun id hid => ?_, ?_, fun evidence hevidence htracked hlisted => ?_⟩
  · by_cases hmem : id ∈ entry.seedIds
    · refine Or.inr ⟨page, ?_, hreport.seedIds ▸ hmem⟩
      rw [hprocessed]
      exact List.mem_append_right _ (List.mem_singleton_self page)
    by_cases hpages : ∃ p ∈ boundary.processed, id ∈ p.seedIds
    · obtain ⟨p, hp, hidp⟩ := hpages
      refine Or.inr ⟨p, ?_, hidp⟩
      rw [hprocessed]
      exact List.mem_append_left _ hp
    · obtain ⟨e, he, _, hide⟩ := hafter.carried id
        ⟨hid, hmem, fun p hp hidp => hpages ⟨p, hp, hidp⟩⟩
      exact Or.inl ⟨e, he, hide⟩
  · obtain ⟨earlier, hearlier⟩ := h.earlier
    refine ⟨earlier, ?_⟩
    rw [hprocessed, hearlier, List.append_assoc]
    show _ = earlier ++ s.pages
    rw [hreport.pages]
  · obtain ⟨seed, hseed, hid, hseedState⟩ := hreport.seeds evidence hevidence
    rw [hid] at htracked hlisted ⊢
    rw [Boundary.representative_append hprocessed, hreport.seedIds]
    by_cases hmem : seed.seedId ∈ entry.seedIds
    · rw [if_pos hmem] at hseedState ⊢
      cases hfirst : boundary.representative seed.seedId with
      | none => exact ⟨page, rfl, hseedState⟩
      | some first =>
        refine ⟨first, rfl, hseedState.trans ?_⟩
        exact hstate _ hmem htracked first hfirst page.state hreport.verdict
    · rw [if_neg hmem] at hseedState ⊢
      obtain ⟨listed, hlistedPage, hcarries⟩ := hlisted
      have hlistedPage' : listed ∈ s.pages := hlistedPage
      rw [hreport.pages] at hlistedPage'
      rcases List.mem_append.mp hlistedPage' with hold | hnew
      · obtain ⟨first, hfirst, hstate⟩ := h.states seed hseed htracked ⟨listed, hold, hcarries⟩
        exact ⟨first, by rw [Option.mem_def.mp hfirst]; rfl, hseedState.trans hstate⟩
      · rw [List.mem_singleton.mp hnew, hreport.seedIds] at hcarries
        exact absurd hcarries hmem

/-! ## Runs -/

/-- The boundary of the roots. -/
theorem Boundary.Provenance.start {s : SemanticTraversal} (hstart : forFrozenSnapshot ctx = .ok s) :
    (Boundary.roots s).Provenance ctx s where
  base := (Base.rootInvariant (F := fun _ => True)).start hstart fun _ _ _ => trivial
  represented id hid := Or.inl (forFrozenSnapshot_carries hstart hid)
  earlier := by
    obtain ⟨selected, _, hsettled⟩ := forFrozenSnapshot_settled hstart
    exact ⟨[], hsettled.pages.symm⟩
  states evidence _ _ hlisted := by
    obtain ⟨page, hpage, _⟩ := hlisted
    obtain ⟨selected, _, hsettled⟩ := forFrozenSnapshot_settled hstart
    have hpage' : page ∈ s.pages := hpage
    rw [hsettled.pages] at hpage'
    cases hpage'

/-- **Seed provenance is never lost** in a run from the roots in which no step
redirects to a queued unit that alone carries a tracked root, and each further page
of a root has the state of its first. -/
theorem seedsKept_throughout {s : SemanticTraversal} (hstart : forFrozenSnapshot ctx = .ok s)
    (inputs : List TraversalInput)
    (hkeeps : Meets (runStep ctx Boundary.PresentsSeeds) (Guarded (KeepsSeeds ctx s)) (.start s)
      inputs) :
    Throughout (runStep ctx Boundary.PresentsSeeds)
      (fun run => ∀ boundary ∈ run.boundaries, boundary.SeedsKept ctx s) (.start s) inputs :=
  Throughout.mono (fun _ hrun boundary hb => (hrun boundary hb).seedsKept)
    (boundaries_throughout (P := Boundary.Provenance ctx s)
      (fun _ _ _ _ _ hsound hallowed hstep => hsound.step hallowed hstep)
      (fun _ _ _ _ hsound hp hs => hsound.restore hp hs)
      (.start hstart) hkeeps)

/-! ## A redirect that drops a root -/

/-- The roomy site with two roots, URLs 1 and 2. -/
def twoRootsContext : TraversalContext :=
  { roomyContext with
    seeds := [⟨10, 1, 1, true, none⟩, ⟨11, 2, 2, true, none⟩]
    selectedSeedIds := [10, 11] }

/-- A run in which the first root redirects to a new URL. -/
theorem seedsKept_throughout_twoRoots :
    Throughout (runStep twoRootsContext Boundary.PresentsSeeds)
      (fun run => ∀ boundary ∈ run.boundaries,
        boundary.SeedsKept twoRootsContext (rootTraversal twoRootsContext))
      (.start (rootTraversal twoRootsContext)) [.step .zero (observed 1 (some 3) []),
        .step .zero (observed 2 none [])] :=
  seedsKept_throughout (by rfl) _ ⟨by decide +kernel, by decide +kernel, trivial⟩

/-- The first root redirects to the second: the entry of the second is dropped, and
no page carries it. -/
theorem seeds_not_kept :
    ¬ Throughout (runStep twoRootsContext Boundary.PresentsSeeds)
      (fun run => ∀ boundary ∈ run.boundaries,
        boundary.SeedsKept twoRootsContext (rootTraversal twoRootsContext))
      (.start (rootTraversal twoRootsContext)) [.step .zero (observed 1 (some 2) [])] := by
  intro h
  have hlast := (h.atEnd _ List.mem_cons_self).represented 11 (by decide +kernel)
  revert hlast
  rw [Boundary.Represents]
  decide +kernel

end Erabi.Crawl
