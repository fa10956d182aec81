/-
# Preparations that succeed

A preparation that its checks admit fails in one of two ways only: a replay whose
units have left the generations they were recorded at, and a first preparation of a
unit whose next generation does not fit its column.
-/
import Mathlib
import Erabi.Traversal.Recovery

namespace Erabi.Traversal

open Relational Transaction Queue

variable {s s' : TraversalStore} {runId : CrawlRunId} {kind : CrawlRecoveryActionKind}
  {actionJobId sourceJobId : JobId} {attemptId : AttemptId} {now : ℤ} {stateIds : List UrlStateId}

/-! ## Advances -/

/-- Rows that change in their work only still stand in one table. -/
theorem UrlStateSchema.map {rows : List CrawlUrlStateRow} (h : UrlStateSchema rows)
    {f : CrawlUrlStateRow → CrawlUrlStateRow}
    (hid : ∀ row, (f row).id = row.id ∧ (f row).crawlRunId = row.crawlRunId)
    (hkey : ∀ row, (f row).canonicalUrl = row.canonicalUrl ∧
      (f row).admissionSequence = row.admissionSequence)
    (hlink : ∀ row, (f row).parentUrlStateId = row.parentUrlStateId ∧
      (f row).resolvedToUrlStateId = row.resolvedToUrlStateId)
    (hchecked : ∀ row ∈ rows, (f row).checked = true) : UrlStateSchema (rows.map f) := by
  have hpresent : ∀ {runId : CrawlRunId} {id : UrlStateId}, present rows runId id →
      present (rows.map f) runId id := by
    rintro _ _ ⟨row, hrow, rfl, rfl⟩
    exact ⟨f row, List.mem_map_of_mem hrow, hid row⟩
  constructor
  · intro row' hrow'
    obtain ⟨row, hrow, rfl⟩ := List.mem_map.mp hrow'
    exact hchecked row hrow
  · rw [List.pairwise_map]
    refine h.distinct.imp fun {a b} hab hrun => ?_
    rw [(hid a).2, (hid b).2] at hrun
    rw [(hkey a).1, (hkey b).1, (hkey a).2, (hkey b).2]
    exact hab hrun
  · intro row' hrow' parent hparent
    obtain ⟨row, hrow, rfl⟩ := List.mem_map.mp hrow'
    rw [(hlink row).1] at hparent
    rw [(hid row).2]
    exact hpresent (h.parents row hrow parent hparent)
  · intro row' hrow' target htarget
    obtain ⟨row, hrow, rfl⟩ := List.mem_map.mp hrow'
    rw [(hlink row).2] at htarget
    rw [(hid row).2]
    exact hpresent (h.resolved row hrow target htarget)

/-- The items that a replay reads. -/
def recordedItems (s : TraversalStore) (actionJobId : JobId) (runId : CrawlRunId) :
    List CrawlRecoveryActionItem :=
  s.recoveryActionItems.select fun item =>
    item.actionJobId = actionJobId && item.crawlRunId = runId

end Erabi.Traversal
