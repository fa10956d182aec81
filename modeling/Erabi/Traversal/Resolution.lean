/-
# Redirect resolution

Resolved units forward to other units.  A new link only ever starts at a unit that
nothing resolves to yet, or ends at an admitted one, so that every chain of
resolutions ends, at a unit that is not resolved.
-/
import Mathlib
import Erabi.Forwarding.Chain
import Erabi.Traversal.System

namespace Erabi.Traversal

open Relational Transaction Queue Transition Forwarding

variable {new : CrawlUrlStateRecord → Prop} {recorded : JobId → Prop} {s s' : TraversalStore}

/-! ## Rows and their shape -/

/-- Where a unit resolves to. -/
def resolution (s : TraversalStore) (id : UrlStateId) : Option UrlStateId :=
  (s.urlStates.find? id).bind CrawlUrlStateRow.resolvedToUrlStateId

/-- The rows of the table have their shape. -/
theorem shape_of_mem {row : CrawlUrlStateRow} (hrow : row ∈ s.urlStates.rows) :
    row.shape = true := by
  have hchecked := s.urlStates.holds.checked row hrow
  simp only [CrawlUrlStateRow.checked, Bool.and_eq_true] at hchecked
  exact hchecked.2

/-- An admitted unit resolves to nothing. -/
theorem resolvedTo_of_admitted {row : CrawlUrlStateRow} (hrow : row ∈ s.urlStates.rows)
    (hadmitted : row.admissionState = .admitted) : row.resolvedToUrlStateId = none := by
  have hshape := shape_of_mem hrow
  simp only [CrawlUrlStateRow.shape, hadmitted, Bool.and_eq_true, Option.isNone_iff_eq_none]
    at hshape
  exact hshape.1.1.1.2

/-- A resolved unit resolves to a unit of its run. -/
theorem target_of_resolved {row : CrawlUrlStateRow} (hrow : row ∈ s.urlStates.rows)
    (hresolved : row.admissionState = .resolved) :
    ∃ target ∈ s.urlStates.rows, row.resolvedToUrlStateId = some target.id ∧
      target.crawlRunId = row.crawlRunId := by
  have hshape := shape_of_mem hrow
  simp only [CrawlUrlStateRow.shape, hresolved, Bool.and_eq_true] at hshape
  obtain ⟨id, hid⟩ := Option.isSome_iff_exists.mp hshape.1.1.1.1.1.1.2
  obtain ⟨target, htarget, rfl, hrun⟩ := s.urlStates.holds.resolved row hrow id hid
  exact ⟨target, htarget, hid, hrun⟩

/-- A unit of the table resolves as its row says. -/
theorem resolution_of_mem {row : CrawlUrlStateRow} (hrow : row ∈ s.urlStates.rows) :
    resolution s row.id = row.resolvedToUrlStateId := by
  rw [resolution, Constrained.find?, Table.find?_key hrow, Option.bind_some]

/-- Only units are resolved to. -/
theorem mem_of_resolution {id target : UrlStateId} (h : resolution s id = some target) :
    ∃ row ∈ s.urlStates.rows, row.id = target := by
  obtain ⟨row, hfind, hlink⟩ := Option.bind_eq_some_iff.mp h
  obtain ⟨other, hother, hid, _⟩ :=
    s.urlStates.holds.resolved row (Table.mem_of_find? hfind) target hlink
  exact ⟨other, hother, hid⟩

/-- What the validation of a record asks beyond the schema. -/
def identified (row : CrawlUrlStateRow) : Bool :=
  !row.id.isEmpty && !row.canonicalUrl.isEmpty &&
    row.canonicalUrl.utf8ByteSize ≤ maxUrlChars && validRequest row.requestedUrl && row.seen

/-- A valid row is identified. -/
theorem identified_of_validateState {row : CrawlUrlStateRow} (h : row.validateState = true) :
    identified row = true := by
  simp only [CrawlUrlStateRow.validateState, Bool.and_eq_true, decide_eq_true_eq] at h
  simp only [identified, validRequest, Bool.and_eq_true, decide_eq_true_eq]
  obtain ⟨⟨⟨⟨⟨⟨⟨⟨hid, hurl⟩, hlength⟩, hrequested⟩, hbytes⟩, hseen⟩, _⟩, _⟩, _⟩ := h
  exact ⟨⟨⟨⟨hid, hurl⟩, hlength⟩, hrequested, hbytes⟩, hseen⟩

/-- A valid record is inserted as it is. -/
theorem row_of_validateState {state : CrawlUrlStateRecord} (h : state.validateState = true) :
    state.row = state.toCrawlUrlStateRow := by
  have hseen : state.seen = true := by
    simp only [CrawlUrlStateRow.validateState, Bool.and_eq_true] at h
    exact h.1.1.1.2
  rw [CrawlUrlStateRecord.row, ← hseen]

/-- An identified row of the table is valid. -/
theorem validateState_of_identified {row : CrawlUrlStateRow} (hrow : row ∈ s.urlStates.rows)
    (h : identified row = true) : row.validateState = true := by
  have hchecked := s.urlStates.holds.checked row hrow
  simp only [CrawlUrlStateRow.checked, Bool.and_eq_true, decide_eq_true_eq] at hchecked
  simp only [identified, validRequest, Bool.and_eq_true, decide_eq_true_eq] at h
  obtain ⟨⟨⟨⟨hid, hurl⟩, hlength⟩, hrequested, hbytes⟩, hseen⟩ := h
  obtain ⟨⟨⟨_, hsampled⟩, hscope⟩, hshape⟩ := hchecked
  simp only [CrawlUrlStateRow.validateState, Bool.and_eq_true, decide_eq_true_eq]
  exact ⟨⟨⟨⟨⟨⟨⟨⟨hid, hurl⟩, hlength⟩, hrequested⟩, hbytes⟩, hseen⟩, hsampled⟩, hscope⟩, hshape⟩

/-! ## What statements keep -/

/-- Every chain of resolutions ends, and every unit passed its validation. -/
structure Resolvable (s : TraversalStore) : Prop where
  ends : ∀ id, Ends (resolution s) id
  identified : ∀ row ∈ s.urlStates.rows, identified row = true

theorem Resolvable.empty : Resolvable .empty where
  ends _ := .of_stays rfl
  identified _ h := by cases h

/-- Resolution depends on the units alone. -/
theorem Resolvable.of_urlStates (hs : Resolvable s) (h : s'.urlStates = s.urlStates) :
    Resolvable s' := by
  have hresolution : resolution s' = resolution s := by
    unfold resolution
    rw [h]
  constructor
  · rw [hresolution]
    exact hs.ends
  · rw [h]
    exact hs.identified

/-- A new unit is resolved to by none, so its own link closes no cycle. -/
theorem Resolvable.inserts (hs : Resolvable s) {state : CrawlUrlStateRecord}
    {urlStates : Constrained CrawlUrlStateRow UrlStateId CrawlUrlStateRow.id UrlStateSchema}
    (hvalid : state.validateState = true)
    (htarget : ∀ target ∈ state.resolvedToUrlStateId, target ≠ state.id)
    (hinsert : s.urlStates.table.insert? state.row = some urlStates.table) :
    Resolvable { s with urlStates } := by
  have hfresh := Table.find?_eq_none.mp (Table.insert?_eq_some.mp hinsert).1
  have hresolution : ∀ id, resolution { s with urlStates } id =
      if state.id = id then state.resolvedToUrlStateId else resolution s id := by
    intro id
    have hfind : urlStates.find? id = _ := Table.find?_insert hinsert id
    unfold resolution
    dsimp only
    rw [hfind]
    by_cases hid : state.id = id
    · rw [if_pos hid]
      exact if_pos hid ▸ rfl
    · rw [if_neg hid]
      exact if_neg hid ▸ rfl
  constructor
  · intro id
    rcases hlink : state.resolvedToUrlStateId with _ | target
    · refine (hs.ends id).congr fun x => ?_
      rw [hresolution, hlink]
      by_cases hx : state.id = x
      · have hnone : s.urlStates.find? state.id = none := Table.find?_eq_none.mpr hfresh
        rw [if_pos hx, ← hx, resolution, hnone, Option.bind_none]
      · rw [if_neg hx]
    -- the new unit may point into the store, but nothing in it points to the new unit
    · refine ends_of_link (b := state.id) (c := target) hs.ends (fun x hx => ?_) ?_ ?_ id
      · rw [hresolution, if_neg (Ne.symm hx)]
      · rw [hresolution, if_pos rfl, hlink]
      · intro hback
        rcases Relation.ReflTransGen.cases_tail hback with heq | ⟨x, _, hx⟩
        · exact htarget target hlink heq.symm
        · obtain ⟨row, hrow, hid⟩ := mem_of_resolution hx
          exact hfresh row hrow hid
  · intro row hrow
    rcases (Table.mem_insert hinsert).mp hrow with hold | rfl
    · exact hs.identified row hold
    · rw [row_of_validateState hvalid]
      exact identified_of_validateState hvalid

/-- A revision keeps a row identified. -/
theorem Revises.identified {row row' : CrawlUrlStateRow} (h : Revises s row row')
    (hrow : identified row = true) : identified row' = true := by
  cases h with
  | annotates hsame hrequest =>
    simp only [Traversal.identified, Bool.and_eq_true] at hrow ⊢
    rw [hsame.id, hsame.canonicalUrl, hsame.seen]
    refine ⟨⟨hrow.1.1, ?_⟩, hrow.2⟩
    rcases hrequest with hkept | hvalid
    · rw [hkept]
      exact hrow.1.2
    · exact hvalid
  | resolves => exact hrow
  | marks => exact hrow
  | activates => exact hrow
  | advances => exact hrow
  | finishes => exact hrow

/-- A revision either leaves the link of the unit alone, or links an admitted unit
to another admitted unit. -/
theorem Revises.resolution {row row' : CrawlUrlStateRow} (h : Revises s row row') :
    row'.resolvedToUrlStateId = row.resolvedToUrlStateId ∨
      ∃ target ∈ s.urlStates.rows, target.admissionState = .admitted ∧ target.id ≠ row.id ∧
        row'.resolvedToUrlStateId = some target.id := by
  cases h with
  | annotates hsame _ => exact Or.inl hsame.resolvedToUrlStateId
  | @resolves redirect target _ htarget hadmitted hid hne =>
    exact Or.inr ⟨target, htarget, hadmitted, hne, congrArg some hid.symm⟩
  | marks => exact Or.inl rfl
  | activates => exact Or.inl rfl
  | advances => exact Or.inl rfl
  | finishes => exact Or.inl rfl

/-- Revising one unit keeps resolutions well founded. -/
theorem Resolvable.revises (hs : Resolvable s) {p : CrawlUrlStateRow → Bool}
    {f : CrawlUrlStateRow → CrawlUrlStateRow} {hf : ∀ row, (f row).id = row.id}
    {urlStates : Constrained CrawlUrlStateRow UrlStateId CrawlUrlStateRow.id UrlStateSchema}
    (htable : urlStates.table = s.urlStates.table.update p f hf) (hone : PinsOne s p)
    (hrevises : ∀ row ∈ s.urlStates.rows, p row = true → Revises s row (f row)) :
    Resolvable { s with urlStates } := by
  have hresolution : ∀ id, resolution { s with urlStates } id =
      ((s.urlStates.find? id).map fun row => if p row then f row else row).bind
        CrawlUrlStateRow.resolvedToUrlStateId := by
    intro id
    show (urlStates.table.find? id).bind _ = _
    rw [htable, Table.find?_update]
    rfl
  -- Units that are not revised keep their link.
  have hkept : ∀ id, (∀ row ∈ s.urlStates.rows, p row = true → f row = row ∨ row.id ≠ id ∨
      (f row).resolvedToUrlStateId = row.resolvedToUrlStateId) →
      resolution { s with urlStates } id = resolution s id := by
    intro id hid
    rw [hresolution, resolution]
    rcases hfind : s.urlStates.find? id with _ | row
    · rfl
    · obtain ⟨hrow, hkey⟩ := Table.find?_eq_some.mp hfind
      rw [Option.map_some, Option.bind_some, Option.bind_some]
      by_cases hp : p row = true
      · rw [if_pos hp]
        rcases hid row hrow hp with hsame | hother | hlink
        · rw [hsame]
        · exact absurd hkey hother
        · exact hlink
      · rw [if_neg hp]
  constructor
  · intro id
    by_cases hlinked : ∃ row ∈ s.urlStates.rows, p row = true ∧
        (f row).resolvedToUrlStateId ≠ row.resolvedToUrlStateId
    · obtain ⟨row, hrow, hp, hchanged⟩ := hlinked
      rcases (hrevises row hrow hp).resolution with hsame | ⟨target, htarget, hadmitted, hne, hlink⟩
      · exact absurd hsame hchanged
      refine ends_of_link (b := row.id) (c := target.id) hs.ends
        (fun x hx => hkept x fun other hother hpo => ?_) ?_ ?_ id
      · exact Or.inr (Or.inl fun heq => hx (heq ▸ congrArg _ (hone other hother row hrow hpo hp)))
      · rw [hresolution, Constrained.find?, Table.find?_key hrow, Option.map_some, Option.bind_some,
          if_pos hp, hlink]
      · intro hback
        refine hne (hback.eq_of_stays ?_).symm
        rw [resolution_of_mem htarget, resolvedTo_of_admitted htarget hadmitted]
    · refine (hs.ends id).congr fun x => hkept x fun row hrow hp => Or.inr (Or.inr ?_)
      by_contra hchanged
      exact hlinked ⟨row, hrow, hp, hchanged⟩
  · intro row' hrow'
    have hmem : row' ∈ urlStates.table.rows := hrow'
    rw [htable] at hmem
    obtain ⟨row, hrow, rfl⟩ := List.mem_map.mp hmem
    split
    · rename_i hp
      exact (hrevises row hrow hp).identified (hs.identified row hrow)
    · exact hs.identified row hrow

/-- Writes keep resolutions well founded. -/
theorem Resolvable.writes (hs : Resolvable s) (h : Writes new recorded s s') : Resolvable s' := by
  cases h with
  | elsewhere hstates => exact hs.of_urlStates hstates
  | inserts _ hvalid htarget _ hinsert => exact hs.inserts hvalid htarget hinsert
  | revises htable hone hrevises => exact hs.revises htable hone hrevises
  | appends => exact hs.of_urlStates rfl

/-- A step keeps resolutions well founded. -/
theorem step_resolvable (s : TraversalStore) (input : Input) (hs : Resolvable s) :
    Resolvable (step s input) := by
  have hwrites : Relation.ReflTransGen (Writes (fun _ => True) fun a => input.action = some a) s
      (step s input) := step_performs s input fun _ _ => trivial
  exact keeps_of_reflTransGen (fun _ _ hw ha => ha.writes hw) hwrites hs

/-! ## Every run -/

/-- In every store a run leads to the resolutions have no cycle, each chain from a
resolved unit ends at a unit of the run that is not resolved, and each row has the
shape that validation requires. -/
theorem resolutions_end (inputs : List Input) :
    let s := after step .empty inputs
    (∀ id, ¬ Relation.TransGen (Link (resolution s)) id id) ∧
      (∀ row ∈ s.urlStates.rows, row.admissionState = .resolved →
        ∃ target ∈ s.urlStates.rows, target.admissionState ≠ .resolved ∧
          target.crawlRunId = row.crawlRunId ∧
          ∀ id, Leads (resolution s) row.id id → Leads (resolution s) id target.id) ∧
      ∀ row ∈ s.urlStates.rows, row.validateState = true := by
  intro s
  have hs : Resolvable s := after_invariant step_resolvable .empty inputs
  refine ⟨fun id => (hs.ends id).acyclic, fun row hrow _ => ?_, fun row hrow => ?_⟩
  · obtain ⟨last, hlast, hstays⟩ := hs.ends row.id
    -- A chain stays within the units of its run.
    have hunits : ∃ target ∈ s.urlStates.rows, target.id = last ∧
        target.crawlRunId = row.crawlRunId := by
      clear hstays
      induction hlast with
      | refl => exact ⟨row, hrow, rfl, rfl⟩
      | tail _ hlink ih =>
        obtain ⟨unit, hunit, rfl, hrun⟩ := ih
        rw [Link, resolution_of_mem hunit] at hlink
        obtain ⟨other, hother, hid, hsame⟩ := s.urlStates.holds.resolved unit hunit _ hlink
        exact ⟨other, hother, hid, hsame.trans hrun⟩
    obtain ⟨target, htarget, rfl, hrun⟩ := hunits
    refine ⟨target, htarget, fun hresolved => ?_, hrun, fun id hid => hlast.to_end hstays hid⟩
    obtain ⟨other, _, hlink, _⟩ := target_of_resolved htarget hresolved
    rw [resolution_of_mem htarget, hlink] at hstays
    cases hstays
  · exact validateState_of_identified hrow (hs.identified row hrow)

end Erabi.Traversal
