/-
# What every exported checkpoint has

The relations between the sets, entries and counters of a traversal that a
restoration demands and that the steps keep.  Whatever checkpoint a restoration
is given, the restored traversal has them again.
-/
import Erabi.Crawl.Base

namespace Erabi.Crawl

open Relational Transaction Transition

variable {ctx : TraversalContext} {s : SemanticTraversal}

/-! ## The relations -/

/-- What a restoration demands of a pending entry whatever its URL is. -/
structure QueueEntry.Qualified (ctx : TraversalContext) (seen : KeySet Url) (e : QueueEntry) :
    Prop where
  depth : e.depth ≤ ctx.limits.maxDepth
  seedIds : e.seedIds ≠ []
  selected : ∀ id ∈ e.seedIds, id ∈ ctx.selectedSeedIds
  target : ∀ id ∈ e.targetPageTypeId, id ∈ ctx.pageTypes
  transition : ∀ id ∈ e.transitionId, knownTransition ctx id = true
  parent : ∀ u ∈ e.parentCanonicalUrl, u ∈ seen ∨ ctx.urls.restorable u = true

/-- The relations that a restoration demands and the steps keep. -/
structure Exportable (ctx : TraversalContext) (s : SemanticTraversal) : Prop where
  admitted : s.admitted.size ≤ ctx.limits.maxPages
  consumed : s.consumedBytes ≤ ctx.limits.maxDownloadedBytes
  inScope : ∀ u ∈ s.inScopeUrls, u ∈ s.seen ∨ ctx.urls.restorable u = true
  matching : s.matchingUrls.Subset s.inScopeUrls
  unmatched : s.unmatchedUrls.Subset s.inScopeUrls
  ambiguous : s.ambiguousUrls.Subset s.inScopeUrls
  entries : ∀ e ∈ s.queued.rows, e.Qualified ctx s.seen
  transitions : (s.transitionCounts.rows.map fun c => (c.transitionId, c.name)).Perm
    (ctx.transitions.map fun t => (t.id, t.name))
  sources : ∀ c ∈ s.transitionPageCounts.rows,
    (c.source ∈ s.seen ∨ ctx.urls.restorable c.source = true) ∧
      knownTransition ctx c.transitionId = true
  counted : ∀ id ∉ ctx.pageTypes, s.pageTypeSampled id = none ∧
    s.pageTypeDiscovered id = none ∧ s.pageTypeScheduled id = none

/-- A unit stays qualified as more is seen. -/
theorem QueueEntry.Qualified.mono {seen seen' : KeySet Url} {e : QueueEntry}
    (h : e.Qualified ctx seen) (hseen : seen.Subset seen') : e.Qualified ctx seen' where
  depth := h.depth
  seedIds := h.seedIds
  selected := h.selected
  target := h.target
  transition := h.transition
  parent u hu := (h.parent u hu).imp_left (hseen u)

/-- The provenance of one more discovery of a queued unit. -/
theorem QueueEntry.Qualified.merge {seen : KeySet Url} {e : QueueEntry} {seedIds : List SeedId}
    {depth : Option ℕ} (h : e.Qualified ctx seen)
    (hselected : ∀ id ∈ seedIds, id ∈ ctx.selectedSeedIds) :
    (e.merge seedIds depth).Qualified ctx seen where
  depth := by
    have hlimit := h.depth
    show (depth.map fun d => min d e.depth).getD e.depth ≤ _
    cases depth with
    | none => exact hlimit
    | some d => exact (Nat.min_le_right d e.depth).trans hlimit
  seedIds := by
    obtain ⟨id, hid⟩ := List.exists_mem_of_ne_nil _ h.seedIds
    exact List.ne_nil_of_mem (mem_merge.mpr (Or.inl hid))
  selected id hid := (mem_merge.mp hid).elim (h.selected id) (hselected id)
  target := h.target
  transition := h.transition
  parent := h.parent

/-- Counting one page type leaves the others. -/
theorem PageTypeCounts.increment_of_ne {counts : PageTypeCounts} {id winner : PageTypeId}
    (h : id ≠ winner) : counts.increment winner id = counts id :=
  Function.update_of_ne h _ _

namespace Exportable

/-- A step within the frame keeps the state exportable. -/
theorem frame {s' : SemanticTraversal} (h : Exportable ctx s) (hf : Frame s s') :
    Exportable ctx s' := by
  rw [hf.eq]
  exact { h with }

theorem see (h : Exportable ctx s) (u : Url) :
    Exportable ctx { s with seen := s.seen.insert u } := by
  have hseen : s.seen.Subset (s.seen.insert u) := fun v hv => KeySet.mem_insert.mpr (Or.inl hv)
  exact { h with
    inScope := fun v hv => (h.inScope v hv).imp_left (hseen v)
    entries := fun e he => (h.entries e he).mono hseen
    sources := fun c hc => ⟨(h.sources c hc).1.imp_left (hseen _), (h.sources c hc).2⟩ }

theorem pop (h : Exportable ctx s) (e : QueueEntry) : Exportable ctx (s.pop e) :=
  { h with entries := fun f hf => h.entries f (Table.mem_delete.mp hf).1 }

theorem merge (h : Exportable ctx s) {u : Url} {seedIds : List SeedId} {depth : Option ℕ}
    (hselected : ∀ id ∈ seedIds, id ∈ ctx.selectedSeedIds) :
    Exportable ctx (s.mergeQueuedDuplicateProvenance u seedIds depth) :=
  { h with
    entries := by
      intro e he
      obtain ⟨e₀, he₀, rfl⟩ := List.mem_map.mp he
      split
      · exact (h.entries e₀ he₀).merge hselected
      · exact h.entries e₀ he₀ }

theorem redirect {a f : Url} {scheduled : PageTypeCounts} (h : Exportable ctx s)
    (hr : Redirection s a f scheduled) : Exportable ctx (s.redirect a f scheduled) where
  admitted := by
    have hremoved := KeySet.size_remove hr.admitted
    have hsize := h.admitted
    show ((s.admitted.remove a).insert f).size ≤ _
    by_cases hf : f ∈ s.admitted.remove a
    · rw [KeySet.size_insert_of_mem hf]
      omega
    · rw [KeySet.size_insert_of_not_mem hf]
      omega
  consumed := h.consumed
  inScope u hu := h.inScope u (KeySet.mem_remove.mp hu).1
  matching u hu := by
    obtain ⟨hu, hne⟩ := KeySet.mem_remove.mp hu
    exact KeySet.mem_remove.mpr ⟨h.matching u hu, hne⟩
  unmatched u hu := by
    obtain ⟨hu, hne⟩ := KeySet.mem_remove.mp hu
    exact KeySet.mem_remove.mpr ⟨h.unmatched u hu, hne⟩
  ambiguous u hu := by
    obtain ⟨hu, hne⟩ := KeySet.mem_remove.mp hu
    exact KeySet.mem_remove.mpr ⟨h.ambiguous u hu, hne⟩
  entries e he := h.entries e (Table.mem_delete.mp he).1
  transitions := h.transitions
  sources := h.sources
  counted id hid := by
    obtain ⟨hsampled, hdiscovered, hscheduled⟩ := h.counted id hid
    refine ⟨hsampled, hdiscovered, ?_⟩
    show scheduled id = none
    rcases hr.scheduled with rfl | ⟨pageType, n, hcount, rfl⟩
    · exact hscheduled
    · have hne : id ≠ pageType := by
        rintro rfl
        rw [hscheduled] at hcount
        cases hcount
      rw [Function.update_of_ne hne]
      exact hscheduled

/-- A URL that is already in scope is not registered again. -/
theorem registerMatch_of_mem {u : Url} {evidence : PageTypeMatch} {fromHref : Bool}
    (hu : u ∈ s.inScopeUrls) : s.registerMatch u evidence fromHref = s := by
  unfold SemanticTraversal.registerMatch
  simp only [hu, not_true_eq_false, false_and, if_false, if_true, KeySet.insert_of_mem]
  cases evidence.winner <;> rfl

theorem register {u : Url} {fromHref : Bool} (h : Exportable ctx s) (hseen : u ∈ s.seen) :
    Exportable ctx (s.registerMatch u (ctx.resolvePageType u) fromHref) := by
  by_cases hu : u ∈ s.inScopeUrls
  · rw [registerMatch_of_mem hu]
    exact h
  have hgrown : ∀ {known kept : KeySet Url}, known.Subset kept →
      (known.insert u).Subset (kept.insert u) := fun hsub v hv =>
    KeySet.mem_insert.mpr ((KeySet.mem_insert.mp hv).imp_left (hsub v))
  have hkept : ∀ {known kept : KeySet Url}, known.Subset kept → known.Subset (kept.insert u) :=
    fun hsub v hv => KeySet.mem_insert.mpr (Or.inl (hsub v hv))
  refine { h with
    inScope := fun v hv => ?_, matching := ?_, unmatched := ?_, ambiguous := ?_,
    counted := fun id hid => ?_ }
  · rcases KeySet.mem_insert.mp hv with hv | rfl
    · exact h.inScope v hv
    · exact Or.inl hseen
  · simp only [SemanticTraversal.registerMatch, hu, if_false]
    exact hgrown h.matching
  · simp only [SemanticTraversal.registerMatch, hu, not_false_eq_true, true_and, if_false]
    split
    · exact hgrown h.unmatched
    · exact hkept h.unmatched
  · simp only [SemanticTraversal.registerMatch, hu, not_false_eq_true, true_and, if_false]
    split
    · exact hgrown h.ambiguous
    · exact hkept h.ambiguous
  · obtain ⟨hsampled, hdiscovered, hscheduled⟩ := h.counted id hid
    refine ⟨hsampled, ?_, hscheduled⟩
    simp only [SemanticTraversal.registerMatch]
    rcases hmatch : (ctx.resolvePageType u).winner with _ | winner
    · exact hdiscovered
    · have hne : id ≠ winner := by
        rintro rfl
        exact hid (ctx.resolvedPageTypes _ _ (PageTypeMatch.eq_matched hmatch))
      dsimp only
      split
      · exact (PageTypeCounts.increment_of_ne hne).trans hdiscovered
      · exact hdiscovered

theorem sample {f : Url} {pageMatch : Option PageTypeMatch} {state : PreviewUrlState}
    (h : Exportable ctx s)
    (hwinner : ∀ winner ∈ pageMatch.bind PageTypeMatch.winner, winner ∈ ctx.pageTypes) :
    Exportable ctx (s.sample f pageMatch state) := by
  unfold SemanticTraversal.sample
  split
  · exact h
  · refine { h with counted := fun id hid => ⟨?_, (h.counted id hid).2⟩ }
    rcases hmatch : pageMatch.bind PageTypeMatch.winner with _ | winner
    · exact (h.counted id hid).1
    · have hne : id ≠ winner := by
        rintro rfl
        exact hid (hwinner id hmatch)
      exact (PageTypeCounts.increment_of_ne hne).trans (h.counted id hid).1

theorem consumeTransition {t : DiscoveryTransition} {source : Url} (h : Exportable ctx s)
    (ht : t ∈ ctx.transitions) (hsource : source ∈ s.seen) :
    Exportable ctx (s.consumeTransition t source) :=
  { h with
    transitions := by
      have hnames : ((s.consumeTransition t source).transitionCounts.rows.map fun c =>
          (c.transitionId, c.name)) =
            s.transitionCounts.rows.map fun c => (c.transitionId, c.name) := by
        show List.map _ (List.map _ _) = _
        rw [List.map_map]
        refine List.map_congr_left fun c _ => ?_
        rw [Function.comp_apply]
        split <;> rfl
      rw [hnames]
      exact h.transitions
    sources := by
      intro c hc
      rcases Table.mem_put.mp hc with ⟨hc, _⟩ | rfl
      · exact h.sources c hc
      · exact ⟨Or.inl hsource, List.any_eq_true.mpr ⟨t, ht, decide_eq_true rfl⟩⟩ }

theorem enqueue {parent e : QueueEntry} {winner : PageTypeId} (h : Exportable ctx s)
    (hbase : Base s) (hparent : parent.seedIds ≠ [] ∧
      ∀ id ∈ parent.seedIds, id ∈ ctx.selectedSeedIds)
    (ha : Admission ctx s parent e winner) : Exportable ctx (s.enqueue e winner) :=
  have hwinner : winner ∈ ctx.pageTypes := ctx.resolvedPageTypes _ _ ha.resolved
  { h with
    admitted := by
      show (s.admitted.insert e.canonicalUrl).size ≤ _
      rw [KeySet.size_insert_of_not_mem ha.admitted]
      exact ha.room
    entries := by
      intro f hf
      rcases Table.mem_put.mp hf with ⟨hf, _⟩ | rfl
      · exact h.entries f hf
      · obtain ⟨source, hsource, hparentUrl⟩ := ha.parentUrl
        refine ⟨ha.depth, ha.seedIds ▸ hparent.1, ha.seedIds ▸ hparent.2, fun id hid => ?_, ha.transition,
          fun u hu => ?_⟩
        · rw [ha.target] at hid
          cases hid
          exact hwinner
        · rw [hparentUrl] at hu
          cases hu
          exact Or.inl (hbase.sampled _ hsource)
    counted := by
      intro id hid
      have hne : id ≠ winner := by
        rintro rfl
        exact hid hwinner
      obtain ⟨hsampled, hdiscovered, hscheduled⟩ := h.counted id hid
      exact ⟨hsampled, hdiscovered, (PageTypeCounts.increment_of_ne hne).trans hscheduled⟩ }

theorem admitRoot {seed : Seed} {order : ℕ} (h : Exportable ctx s)
    (ha : RootAdmission ctx s seed order) : Exportable ctx (s.admitRoot ctx seed order) :=
  { h with
    admitted := by
      show (s.admitted.insert seed.canonicalUrl).size ≤ _
      rw [KeySet.size_insert_of_not_mem ha.admitted]
      exact ha.room
    entries := by
      intro e he
      rcases Table.mem_put.mp he with ⟨he, _⟩ | rfl
      · exact h.entries e he
      · refine ⟨Nat.zero_le _, List.cons_ne_nil _ _, fun id hid => ?_, fun id hid => (by cases hid),
          fun id hid => (by cases hid), fun u hu => (by cases hu)⟩
        rw [List.mem_singleton.mp hid]
        exact ha.selected }

/-- The new state is exportable. -/
theorem new : Exportable ctx (.new ctx) where
  admitted := Nat.zero_le _
  consumed := Nat.zero_le _
  inScope u hu := by cases hu
  matching u hu := by cases hu
  unmatched u hu := by cases hu
  ambiguous u hu := by cases hu
  entries e he := by cases he
  transitions := by
    show (List.map _ (List.map _ _)).Perm _
    rw [List.map_map]
    exact List.Perm.refl _
  sources c hc := by cases hc
  counted _ _ := ⟨rfl, rfl, rfl⟩

/-- Every change of a step keeps the relations. -/
theorem invariant : Invariant ctx (fun s => Base s ∧ Exportable ctx s)
    (fun e => e.seedIds ≠ [] ∧ ∀ id ∈ e.seedIds, id ∈ ctx.selectedSeedIds)
    (fun _ => True) (fun _ => True) where
  base h := h.1
  frame h hf := ⟨h.1.frame hf, h.2.frame hf⟩
  consume hle h := ⟨(Base.invariant (F := fun _ => True) (L := fun _ => True)).consume hle h.1,
    { h.2 with consumed := hle }⟩
  see _ h := ⟨h.1.see _, h.2.see _⟩
  redirect _ _ hr h := ⟨h.1.redirect hr, h.2.redirect hr⟩
  register hseen hF hclassify h :=
    ⟨(Base.invariant (F := fun _ => True) (L := fun _ => True)).register hseen hF hclassify h.1,
      h.2.register hseen⟩
  sample {s f scope} _ hs h := by
    refine ⟨h.1.sample hs.seen hs.first, h.2.sample fun winner hwinner => ?_⟩
    obtain ⟨evidence, hevidence, hw⟩ := Option.bind_eq_some_iff.mp hwinner
    rw [observedMatch] at hevidence
    split at hevidence
    · cases hevidence
      exact ctx.resolvedPageTypes _ _ (PageTypeMatch.eq_matched hw)
    · cases hevidence
  expand hf h := ⟨h.1.expand hf, { h.2 with }⟩
  merge hQ _ h := ⟨h.1.merge _ _ _, h.2.merge hQ.2⟩
  consumeTransition ht hj hsource h :=
    ⟨(Base.invariant (F := fun _ => True) (L := fun _ => True)).consumeTransition ht hj hsource
      h.1, h.2.consumeTransition ht (h.1.sampled _ hsource)⟩
  enqueue _ _ hQ ha h := ⟨h.1.admitted_insert ha.seen ha.admitted rfl, h.2.enqueue h.1 hQ ha⟩

/-- Exportable states are kept by the roots' admission. -/
theorem rootInvariant : RootInvariant ctx (fun s => Base s ∧ Exportable ctx s)
    (fun _ => True) where
  base h := h.1
  new := ⟨(Base.rootInvariant (F := fun _ => True)).new, new⟩
  frame h hf := ⟨h.1.frame hf, h.2.frame hf⟩
  see _ h := ⟨h.1.see _, h.2.see _⟩
  merge hid h := ⟨h.1.merge _ _ _, h.2.merge fun _ hmem => List.mem_singleton.mp hmem ▸ hid⟩
  enqueue {_ seed order} ha h :=
    ⟨h.1.admitted_insert (e := rootEntry ctx seed order) ha.seen ha.admitted rfl,
      h.2.admitRoot ha⟩

end Exportable

/-! ## Restorations keep the relations -/

/-- What recovery accepts, restoring accepts. -/
theorem restorable_of_recoverable {u : Url} (h : ctx.urls.recoverable u = true) :
    ctx.urls.restorable u = true := by
  simp only [UrlSyntax.recoverable, Bool.and_eq_true] at h
  simp only [UrlSyntax.restorable, Bool.and_eq_true]
  exact ⟨⟨h.1.1.1, h.1.1.2⟩, h.2⟩

/-- Only known page types are counted. -/
theorem restorePageTypeCounts_counted {values : List (PageTypeId × ℕ)} {counts : PageTypeCounts}
    (h : restorePageTypeCounts ctx values = some counts) {id : PageTypeId}
    (hid : id ∉ ctx.pageTypes) : counts id = none := by
  unfold restorePageTypeCounts at h
  split at h
  · rename_i hvalid
    rw [← Option.some.inj h]
    show (values.find? fun value => value.1 = id).map Prod.snd = none
    rcases hfind : values.find? fun value => value.1 = id with _ | value
    · rw [hfind]
      rfl
    · have hknown := List.all_eq_true.mp hvalid.1 value (List.mem_of_find?_eq_some hfind)
      have hkey : value.1 = id := by simpa using List.find?_some hfind
      exact absurd (hkey ▸ of_decide_eq_true hknown) hid
  · cases h

/-- The restored transitions are the known ones. -/
theorem restoreTransitionCounts_perm {values : List SemanticTraversalTransitionState}
    {table : Table TransitionRuntimeCount TransitionId TransitionRuntimeCount.transitionId}
    (h : restoreTransitionCounts ctx values = some table) :
    (table.rows.map fun c => (c.transitionId, c.name)).Perm
      (ctx.transitions.map fun t => (t.id, t.name)) := by
  unfold restoreTransitionCounts at h
  split at h
  · rename_i hvalid
    have hrows := (Table.ofList?_eq_some.mp h).2
    have hnodup : (table.rows.map fun c => (c.transitionId, c.name)).Nodup := by
      have hids := table.keysNodup
      rw [show table.rows.map TransitionRuntimeCount.transitionId =
        (table.rows.map fun c => (c.transitionId, c.name)).map Prod.fst by
          rw [List.map_map]; rfl] at hids
      exact hids.of_map _
    refine (hnodup.subperm fun key hkey => ?_).perm_of_length_le ?_
    · obtain ⟨c, hc, rfl⟩ := List.mem_map.mp hkey
      rw [hrows] at hc
      obtain ⟨value, hvalue, rfl⟩ := List.mem_map.mp hc
      obtain ⟨t, ht, hmatches⟩ := List.any_eq_true.mp (List.all_eq_true.mp hvalid.1 value hvalue)
      rw [Bool.and_eq_true, decide_eq_true_eq, decide_eq_true_eq] at hmatches
      exact List.mem_map.mpr ⟨t, ht, Prod.ext hmatches.1 hmatches.2⟩
    · rw [List.length_map, List.length_map, hrows, List.length_map, hvalid.2]
  · cases h

/-- A restoration demands the relations, whatever checkpoint it is given. -/
theorem Exportable.restored {state : SemanticTraversalCheckpoint}
    {selection : Option (List QueueEntry)} {s : SemanticTraversal}
    (h : restoreSelection ctx state selection = .ok s) : Exportable ctx s := by
  obtain ⟨selected, parts, _, hparts, heq, hqueued⟩ := restoreSelection_eq_ok h
  -- either validation checks what an export must find in an entry
  have hentries : ∀ e ∈ s.queued.rows, e.Qualified ctx parts.sets.seen := by
    intro e he
    cases selection with
    | none =>
      rw [hqueued] at he
      have hvalid := hparts.pending e he
      simp only [validPending, Bool.and_eq_true, decide_eq_true_eq, List.all_eq_true,
        Option.all_eq_true] at hvalid
      obtain ⟨⟨⟨⟨⟨⟨⟨⟨⟨⟨⟨_, _⟩, hseeds⟩, _⟩, hdepth⟩, hselected⟩, _⟩, _⟩, _⟩, htarget⟩,
        htransition⟩, hparent⟩ := hvalid
      exact ⟨hdepth, hseeds, hselected, htarget, htransition, fun u hu => Or.inr (hparent u hu)⟩
    | some entries =>
      obtain ⟨s₀, queued, _, hvalid, _, rfl⟩ := restoreForRecovery_eq_ok.mp h
      rw [hqueued] at he
      have hvalid := hvalid e he
      simp only [validRecovery, Bool.and_eq_true, decide_eq_true_eq, List.all_eq_true,
        Option.all_eq_true] at hvalid
      obtain ⟨⟨⟨⟨⟨⟨⟨⟨_, _⟩, hdepth⟩, _⟩, hseeds⟩, hselected⟩, htarget⟩, htransition⟩, hparent⟩ :=
        hvalid
      exact ⟨hdepth, hseeds, hselected, htarget, htransition,
        fun u hu => Or.inr (restorable_of_recoverable (hparent u hu))⟩
  -- the last of the eight sets read back is that of the URLs in scope
  have hinScope : ∀ u ∈ parts.sets.inScope, ctx.urls.restorable u = true := by
    have hsets := hparts.sets
    simp only [restoreSets, Option.bind_eq_bind, Option.bind_eq_some_iff, Option.pure_def,
      Option.some.injEq] at hsets
    obtain ⟨_, _, _, _, _, _, _, _, _, _, _, _, _, _, inScope, hcollected, hrebuilt⟩ := hsets
    intro u hu
    rw [← hrebuilt] at hu
    obtain ⟨hvalid, _, hkeys⟩ := collectUrls_eq_some.mp hcollected
    exact hvalid u (hkeys ▸ hu)
  have hsources : ∀ c ∈ parts.transitionPageCounts.rows, ctx.urls.restorable c.source = true ∧
      knownTransition ctx c.transitionId = true := by
    have hpages := hparts.transitionPages
    unfold restoreTransitionPageCounts at hpages
    split at hpages
    · rename_i hvalid
      intro c hc
      rw [(Table.ofList?_eq_some.mp hpages).2] at hc
      exact (Bool.and_eq_true _ _).mp (List.all_eq_true.mp hvalid c hc)
    · cases hpages
  rw [heq]
  exact {
    admitted := hparts.admitted
    consumed := hparts.consumed
    inScope := fun u hu => Or.inr (hinScope u hu)
    matching := hparts.coherent.matching
    unmatched := hparts.coherent.unmatched
    ambiguous := hparts.coherent.ambiguous
    entries := hentries
    transitions := restoreTransitionCounts_perm hparts.transitions
    sources := fun c hc => ⟨Or.inr (hsources c hc).1, (hsources c hc).2⟩
    counted := fun id hid => ⟨restorePageTypeCounts_counted hparts.pageTypeSampled hid,
      restorePageTypeCounts_counted hparts.pageTypeDiscovered hid,
      restorePageTypeCounts_counted hparts.pageTypeScheduled hid⟩ }

end Erabi.Crawl
