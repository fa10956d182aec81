/-
# Runs of a traversal

A run from the roots: steps, and restorations of earlier boundaries.  What a
boundary is worth to a restoration is its traversal, and beside it what the
traversal forgets: the orders its admitted units hold and the pages processed
since the roots.
-/
import Erabi.Crawl.Orders
import Erabi.Crawl.Restoration
import Erabi.Transition.Run

namespace Erabi.Crawl

open Relational Transaction Transition

/-! ## Boundaries -/

/-- The orders of the roots. -/
def rootOrders (s : SemanticTraversal) : Orders := fun u =>
  (s.queued.find? u).map QueueEntry.order

/-- A safe boundary of a run. -/
structure Boundary where
  traversal : SemanticTraversal
  /-- The orders that the admitted units hold. -/
  held : Orders
  /-- The pages processed since the roots, also by earlier attempts. -/
  processed : List DiscoveryPreviewPage

namespace Boundary

/-- The boundary of a new traversal. -/
def roots (s : SemanticTraversal) : Boundary := ⟨s, rootOrders s, []⟩

/-- The boundary after a step to `s`. -/
def after (boundary : Boundary) (s : SemanticTraversal) : Boundary where
  traversal := s
  held := heldAfter boundary.traversal s boundary.held
  processed := boundary.processed ++ s.pages.drop boundary.traversal.pages.length

/-- The boundary of a restored traversal. -/
def restored (boundary : Boundary) (s : SemanticTraversal) : Boundary :=
  { boundary with traversal := s }

end Boundary

/-! ## Runs -/

/-- What a restoration may present of a boundary: a checkpoint, and the units
that replace its frontier in a recovery. -/
abbrev Presentation :=
  Boundary → SemanticTraversalCheckpoint → Option (List QueueEntry) → Prop

/-- A run: its current boundary and the earlier ones, the latest first. -/
structure TraversalRun where
  current : Boundary
  past : List Boundary

/-- All boundaries of a run, the last one first. -/
def TraversalRun.boundaries (run : TraversalRun) : List Boundary := run.current :: run.past

/-- What may happen to a run. -/
inductive TraversalInput where
  | step (readings : ClockReadings) (outcome : ProviderOutcome)
  | restore (index : ℕ) (state : SemanticTraversalCheckpoint)
      (selection : Option (List QueueEntry))

/-- A run at its roots. -/
def TraversalRun.start (s : SemanticTraversal) : TraversalRun := ⟨.roots s, []⟩

/-- A run with one more boundary. -/
def TraversalRun.advance (run : TraversalRun) (boundary : Boundary) : TraversalRun :=
  ⟨boundary, run.boundaries⟩

/-- The restoration of a checkpoint, or of the units a recovery selected. -/
def restoreSelection (ctx : TraversalContext) (state : SemanticTraversalCheckpoint) :
    Option (List QueueEntry) → Except DiscoveryPreviewError SemanticTraversal
  | none => restoreFromCheckpoint ctx state
  | some entries => restoreForRecovery ctx state entries

section Run

variable (ctx : TraversalContext) (presents : Presentation)
  [∀ boundary state selection, Decidable (presents boundary state selection)]

/-- A failing step or restoration leaves the run where it is. -/
def runStep (run : TraversalRun) : TraversalInput → TraversalRun
  | .step readings outcome =>
    match step ctx readings outcome run.current.traversal with
    | .error _ => run
    | .ok (_, s) => run.advance (run.current.after s)
  | .restore index state selection =>
    match run.boundaries[index]? with
    | none => run
    | some boundary =>
      if presents boundary state selection then
        match restoreSelection ctx state selection with
        | .error _ => run
        | .ok s => run.advance (boundary.restored s)
      else run

/-- The outcomes of the steps of a run meet a condition on the boundary they
arrive at. -/
def Guarded (allowed : Boundary → ProviderOutcome → Prop) (run : TraversalRun) :
    TraversalInput → Prop
  | .step _ outcome => allowed run.current outcome
  | .restore .. => True

instance (allowed : Boundary → ProviderOutcome → Prop)
    [∀ boundary outcome, Decidable (allowed boundary outcome)] (run : TraversalRun)
    (input : TraversalInput) : Decidable (Guarded allowed run input) :=
  match input with
  | .step _ outcome => inferInstanceAs (Decidable (allowed run.current outcome))
  | .restore .. => isTrue trivial

variable {ctx presents}

/-- What every allowed step and every restoration keeps, all boundaries of a run
have when the roots have it. -/
theorem boundaries_throughout {P : Boundary → Prop}
    {allowed : Boundary → ProviderOutcome → Prop}
    (hstep : ∀ boundary readings outcome result s, P boundary → allowed boundary outcome →
      step ctx readings outcome boundary.traversal = .ok (result, s) → P (boundary.after s))
    (hrestore : ∀ boundary state selection s, P boundary → presents boundary state selection →
      restoreSelection ctx state selection = .ok s → P (boundary.restored s))
    {inputs : List TraversalInput} {s : SemanticTraversal} (hroots : P (.roots s))
    (hallowed : Meets (runStep ctx presents) (Guarded allowed) (.start s) inputs) :
    Throughout (runStep ctx presents) (fun run => ∀ boundary ∈ run.boundaries, P boundary)
      (.start s) inputs := by
  have hadvance : ∀ (run : TraversalRun) (boundary : Boundary),
      (∀ b ∈ run.boundaries, P b) → P boundary → ∀ b ∈ (run.advance boundary).boundaries, P b := by
    intro run boundary hrun hboundary b hb
    rcases List.mem_cons.mp hb with rfl | hb
    · exact hboundary
    · exact hrun b hb
  refine throughout_of_meets (I := fun _ => True) (fun _ _ _ => trivial)
    (fun run input _ hrun hinput => ?_) trivial (fun b hb => ?_) hallowed
  · cases input with
    | step readings outcome =>
      rw [runStep]
      rcases hs : step ctx readings outcome run.current.traversal with e | ⟨result, s'⟩
      · exact hrun
      · exact hadvance run _ hrun
          (hstep _ _ _ _ _ (hrun run.current List.mem_cons_self) hinput hs)
    | restore index state selection =>
      rw [runStep]
      rcases hindex : run.boundaries[index]? with _ | boundary
      · exact hrun
      · dsimp only
        by_cases hp : presents boundary state selection
        · rw [if_pos hp]
          rcases hs : restoreSelection ctx state selection with e | s'
          · exact hrun
          · exact hadvance run _ hrun
              (hrestore _ _ _ _ (hrun boundary (List.mem_of_getElem? hindex)) hp hs)
        · rw [if_neg hp]
          exact hrun
  · rw [List.mem_singleton.mp hb]
    exact hroots

end Run

/-! ## Restored frontiers -/

/-- A restoration and a recovery agree on everything but the frontier. -/
theorem restoreSelection_eq_ok {ctx : TraversalContext} {state : SemanticTraversalCheckpoint}
    {selection : Option (List QueueEntry)} {s : SemanticTraversal}
    (h : restoreSelection ctx state selection = .ok s) :
    ∃ selected parts, selectSeeds ctx = .ok selected ∧
      RestoredParts.Rebuild ctx parts state ∧
      s = { parts.traversal state selected with queued := s.queued } ∧
      s.queued.rows = selection.getD state.pending := by
  cases selection with
  | none =>
    obtain ⟨selected, parts, hselected, hparts, rfl⟩ := restoreFromCheckpoint_eq_ok.mp h
    exact ⟨selected, parts, hselected, hparts, rfl, (Table.ofList?_eq_some.mp hparts.queued).2⟩
  | some entries =>
    obtain ⟨s₀, queued, hrestore, _, hqueued, rfl⟩ := restoreForRecovery_eq_ok.mp h
    obtain ⟨selected, parts, hselected, hparts, rfl⟩ := restoreFromCheckpoint_eq_ok.mp hrestore
    exact ⟨selected, parts, hselected, hparts, rfl, (Table.ofList?_eq_some.mp hqueued).2⟩

/-! ## A plain site -/

/-- A site whose URLs are all canonical, in scope and of page type 0, with one
transition that links with selector 7 follow, and whose only root is URL 1. -/
def plainContext (limits : EffectiveLimits) (guardrails : Guardrails)
    (budget : TransitionBudget) : TraversalContext where
  urls := ⟨fun _ => 1, fun _ => false, fun _ => true, fun _ => false, fun _ => true, id,
    fun _ href => some href⟩
  canonicalize := some
  classify _ := some .inScope
  resolvePageType _ := .matched 0
  seeds := [⟨10, 1, 1, true, none⟩]
  pageTypes := [0]
  transitions := [⟨20, 0, 0, 30, true, 7, false, 0, budget⟩]
  guardrails
  selectedSeedIds := [10]
  limits
  pageTypesNodup := by decide
  transitionsNodup := List.nodup_singleton _
  transitionTargets := by
    intro t ht
    rw [List.mem_singleton.mp ht]
    exact List.mem_singleton.mpr rfl
  resolvedPageTypes := by
    intro u p h
    cases h
    exact List.mem_singleton.mpr rfl
  canonicalStorable := fun _ _ _ _ _ _ _ => ⟨rfl, rfl⟩

/-- The plain site with room for everything. -/
def roomyContext : TraversalContext :=
  plainContext ⟨100, 10, 1000000, 1000000, [(20, 100)]⟩
    ⟨100, 10, 1000, 1000000, fun _ => none⟩ ⟨100, none, 1⟩

/-- A clock that does not move. -/
def ClockReadings.zero : ClockReadings := ⟨0, 0, 0, fun _ _ => 0⟩

/-- An observation with links of the transition's selector. -/
def observed (requested : Url) (finalUrl : Option Url) (hrefs : List Url) : ProviderOutcome :=
  .observed ⟨requested, finalUrl, hrefs.map fun href => ⟨href, some 7⟩, []⟩ 0

/-- The roots of a context, which are none without selected seeds. -/
def rootTraversal (ctx : TraversalContext) : SemanticTraversal :=
  (forFrozenSnapshot ctx).toOption.getD (.new ctx)

end Erabi.Crawl
