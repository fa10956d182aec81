/-
# The base relations over whole runs

Queued units are admitted, admitted and sampled ones are seen, and the counters
count their sets.  The roots have these relations, and every step and every
restoration keeps them.
-/
import Erabi.Crawl.Invariants
import Erabi.Crawl.Runs

namespace Erabi.Crawl

open Relational

variable {ctx : TraversalContext} {F L : Url → Prop}

/-! ## Changes -/

/-- A step within the frame keeps the sets nested. -/
theorem Base.frame {s s' : SemanticTraversal} (h : Base s) (hf : Frame s s') : Base s' := by
  rw [hf.eq]
  exact ⟨h.queued, h.admitted, h.sampled, h.expanded, h.newly, h.pages⟩

theorem Base.pop {s : SemanticTraversal} (h : Base s) (e : QueueEntry) : Base (s.pop e) where
  queued f hf := h.queued f (Table.mem_delete.mp hf).1
  admitted := h.admitted
  sampled := h.sampled
  expanded := h.expanded
  newly := h.newly
  pages := h.pages

theorem Base.see {s : SemanticTraversal} (h : Base s) (u : Url) :
    Base { s with seen := s.seen.insert u } where
  queued := h.queued
  admitted v hv := KeySet.mem_insert.mpr (Or.inl (h.admitted v hv))
  sampled v hv := KeySet.mem_insert.mpr (Or.inl (h.sampled v hv))
  expanded := h.expanded
  newly := h.newly
  pages := h.pages

theorem Base.redirect {s : SemanticTraversal} {a f : Url} {scheduled : PageTypeCounts}
    (h : Base s) (hr : Redirection s a f scheduled) : Base (s.redirect a f scheduled) where
  queued e he := by
    obtain ⟨he, _⟩ := Table.mem_delete.mp he
    have hkept : e.canonicalUrl ∈ s.admitted.remove a :=
      KeySet.mem_remove.mpr ⟨h.queued e he, hr.popped e he⟩
    exact KeySet.mem_insert.mpr (Or.inl hkept)
  admitted u hu := by
    rcases KeySet.mem_insert.mp hu with hu | rfl
    · exact h.admitted u (KeySet.mem_remove.mp hu).1
    · exact hr.seen
  sampled := h.sampled
  expanded := h.expanded
  newly := count_redirect h.newly hr.admitted hr.ne
  pages := h.pages

theorem Base.sample {s : SemanticTraversal} {f : Url} {pageMatch : Option PageTypeMatch}
    {state : PreviewUrlState} (h : Base s) (hseen : f ∈ s.seen) (hfirst : f ∉ s.sampled) :
    Base (s.sample f pageMatch state) := by
  rw [SemanticTraversal.sample, if_neg hfirst]
  refine ⟨h.queued, h.admitted, fun u hu => ?_, fun u hu => ?_, h.newly, ?_⟩
  · rcases KeySet.mem_insert.mp hu with hu | rfl
    · exact h.sampled u hu
    · exact hseen
  · exact KeySet.mem_insert.mpr (Or.inl (h.expanded u hu))
  · show s.pagesSampled + 1 = (s.sampled.insert f).size
    rw [KeySet.size_insert_of_not_mem hfirst, h.pages]

theorem Base.expand {s : SemanticTraversal} {f : Url} (h : Base s) (hf : f ∈ s.sampled) :
    Base { s with expanded := s.expanded.insert f } where
  queued := h.queued
  admitted := h.admitted
  sampled := h.sampled
  expanded u hu := by
    rcases KeySet.mem_insert.mp hu with hu | rfl
    · exact h.expanded u hu
    · exact hf
  newly := h.newly
  pages := h.pages

theorem Base.merge {s : SemanticTraversal} (h : Base s) (u : Url) (seedIds : List SeedId)
    (depth : Option ℕ) : Base (s.mergeQueuedDuplicateProvenance u seedIds depth) where
  queued e he := by
    obtain ⟨e₀, he₀, heq⟩ := List.mem_map.mp he
    rw [← heq]
    split
    · exact h.queued e₀ he₀
    · exact h.queued e₀ he₀
  admitted := h.admitted
  sampled := h.sampled
  expanded := h.expanded
  newly := h.newly
  pages := h.pages

/-- An admission, of a link or of a root. -/
theorem Base.admitted_insert {s s' : SemanticTraversal} {e : QueueEntry} (h : Base s)
    (hseen : e.canonicalUrl ∈ s.seen) (hnot : e.canonicalUrl ∉ s.admitted)
    (hs' : s' = { s with
      admitted := s.admitted.insert e.canonicalUrl
      queued := s.queued.put e
      pageTypeScheduled := s'.pageTypeScheduled
      newlyEnqueuedUrls := s.newlyEnqueuedUrls + 1 }) : Base s' := by
  rw [hs']
  refine ⟨fun f hf => ?_, fun u hu => ?_, h.sampled, h.expanded, ?_, h.pages⟩
  · rcases Table.mem_put.mp hf with ⟨hf, _⟩ | rfl
    · exact KeySet.mem_insert.mpr (Or.inl (h.queued f hf))
    · exact KeySet.mem_insert.mpr (Or.inr rfl)
  · rcases KeySet.mem_insert.mp hu with hu | rfl
    · exact h.admitted u hu
    · exact hseen
  · show s.newlyEnqueuedUrls + 1 = (s.admitted.insert e.canonicalUrl).size
    rw [KeySet.size_insert_of_not_mem hnot, h.newly]

/-- Every change of a step keeps the base relations. -/
theorem Base.invariant : Invariant ctx Base (fun _ => True) F L where
  base h := h
  frame h hf := h.frame hf
  consume _ h := ⟨h.queued, h.admitted, h.sampled, h.expanded, h.newly, h.pages⟩
  see _ h := h.see _
  redirect _ _ hr h := h.redirect hr
  register _ _ _ h := ⟨h.queued, h.admitted, h.sampled, h.expanded, h.newly, h.pages⟩
  sample _ hs h := h.sample hs.seen hs.first
  expand hf h := h.expand hf
  merge _ _ h := h.merge _ _ _
  consumeTransition _ _ _ h :=
    ⟨h.queued, h.admitted, h.sampled, h.expanded, h.newly, h.pages⟩
  enqueue _ _ _ ha h := h.admitted_insert ha.seen ha.admitted rfl

/-- The admission of the roots keeps the sets nested. -/
theorem Base.rootInvariant : RootInvariant ctx Base F where
  base h := h
  new := ⟨fun _ h => (by cases h), fun _ h => (by cases h), fun _ h => (by cases h),
    fun _ h => (by cases h), rfl, rfl⟩
  frame h hf := h.frame hf
  see _ h := h.see _
  merge _ h := h.merge _ _ _
  enqueue {s seed order} ha h :=
    h.admitted_insert (e := rootEntry ctx seed order) ha.seen ha.admitted rfl

/-! ## Restorations -/

/-- A restoration demands the base relations. -/
theorem Base.restored {state : SemanticTraversalCheckpoint}
    {selection : Option (List QueueEntry)} {s : SemanticTraversal}
    (h : restoreSelection ctx state selection = .ok s) : Base s := by
  obtain ⟨selected, parts, _, hparts, heq, hqueued⟩ := restoreSelection_eq_ok h
  have hentries : ∀ e ∈ s.queued.rows, e.canonicalUrl ∈ parts.sets.admitted := by
    intro e he
    cases selection with
    | none =>
      rw [hqueued] at he
      have hvalid := hparts.pending e he
      simp only [validPending, Bool.and_eq_true, decide_eq_true_eq] at hvalid
      exact hvalid.1.1.1.1.1.2
    | some entries =>
      obtain ⟨s₀, queued, hrestore, hvalid, hlist, rfl⟩ := restoreForRecovery_eq_ok.mp h
      rw [hqueued] at he
      have hv := hvalid e he
      simp only [validRecovery, Bool.and_eq_true, decide_eq_true_eq] at hv
      have hadmitted : s₀.admitted = parts.sets.admitted := congrArg SemanticTraversal.admitted heq
      exact hadmitted ▸ hv.1.1.1.1.1.2
  rw [heq]
  exact ⟨hentries, hparts.coherent.admitted, hparts.coherent.sampled, hparts.coherent.expanded,
    hparts.newly, hparts.sampled⟩

end Erabi.Crawl
