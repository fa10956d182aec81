/-
# Chained replays

A client that pages through the durable stream of a job: every replay goes on behind
the cursor the page before has named, while the writers keep appending between the
pages.  What the client has read is a piece of the stream that starts right behind its
first cursor, so no event is lost or repeated, and a page ends the chain exactly when
it reaches the end of the stream.
-/
import Mathlib
import Erabi.Progress.Delivery

namespace Erabi.Progress

open Relational Transaction Queue Transition

variable {s s' : QueueStore} {jobId : JobId} {cursor : Option ℕ} {limit : ℕ}

/-! ## What is stored -/

/-- The streams are numbered, belong to stored jobs, and their numbers fit into the
column. -/
structure Stored (s : QueueStore) : Prop where
  numbered : WellNumbered s
  job : ∀ event ∈ s.progress.rows, (s.jobs.find? event.jobId).isSome
  fits : ∀ event ∈ s.progress.rows, (event.sequence : ℤ) ≤ i64Max

theorem Stored.empty : Stored .empty where
  numbered := .empty
  job := fun _ hevent => by cases hevent
  fits := fun _ hevent => by cases hevent

/-- Jobs with progress keep their row. -/
theorem Stored.jobs_kept (hs : Stored s) (h : Statement (fun _ => True) s s')
    {event : ProgressEvent} (hevent : event ∈ s.progress.rows) :
    (s'.jobs.find? event.jobId).isSome := by
  have hjob := hs.job event hevent
  cases h with
  | updateJobs hid hkept =>
    show (Table.find? _ event.jobId).isSome
    rw [Table.find?_update, Option.isSome_map]
    exact hjob
  | insertJob _ _ _ hinsert =>
    show (Table.find? _ event.jobId).isSome
    rw [Table.find?_insert hinsert]
    split
    · rfl
    · exact hjob
  | @deleteJob j _ _ hprogress _ =>
    show (Table.find? _ event.jobId).isSome
    obtain ⟨job, hfind⟩ := Option.isSome_iff_exists.mp hjob
    have hid := (Table.find?_eq_some.mp hfind).2
    rw [Table.find?_delete, hfind, Option.filter_some, if_pos]
    · rfl
    · simpa [hid] using hprogress event hevent
  | _ => exact hjob

/-- A stored event was there before, or it came next. -/
theorem statement_progress (h : Statement (fun _ => True) s s') {event : ProgressEvent}
    (hevent : event ∈ s'.progress.rows) :
    event ∈ s.progress.rows ∨ (ComesNext s event ∧ s'.jobs = s.jobs) := by
  cases h with
  | insertProgress hnext hinsert =>
    rcases (Table.mem_insert hinsert).mp hevent with hold | rfl
    · exact Or.inl hold
    · exact Or.inr ⟨hnext, rfl⟩
  | _ => exact Or.inl hevent

/-- A statement keeps the streams well stored. -/
theorem Stored.statement (hs : Stored s) (h : Statement (fun _ => True) s s') : Stored s' where
  numbered := (Appends.of_statement h).numbered hs.numbered
  job := by
    intro event hevent
    rcases statement_progress h hevent with hold | ⟨hnext, hjobs⟩
    · exact hs.jobs_kept h hold
    · rw [hjobs]
      exact hnext.job
  fits := by
    intro event hevent
    rcases statement_progress h hevent with hold | ⟨hnext, -⟩
    · exact hs.fits event hold
    · exact hnext.fits

theorem Stored.progressStep (hs : Stored s) (input : ProgressInput) :
    Stored (progressStep s input) :=
  progressStep_keeps (fun _ _ h hs => hs.statement h)
    (fun _ _ hs => ⟨hs.numbered.of_progress rfl, hs.job, hs.fits⟩) input hs

/-! ## The chain -/

/-- Where a client stands: it goes on behind a cursor, or has stopped. -/
inductive ChainPhase : Type where
  | reading (after : Option ℕ)
  | ended
  | failed (error : ProgressRepositoryError)

/-- The chain goes on. -/
def ChainPhase.isReading : ChainPhase → Bool
  | .reading _ => true
  | _ => false

/-- The store, what the client has read so far, and where it stands. -/
structure ReplayChain where
  store : QueueStore
  events : List ProgressEvent
  phase : ChainPhase

/-- The client replays one page, and goes on behind `nextAfter` if there is one. -/
def ReplayChain.page (jobId : JobId) (limit : ℕ) (chain : ReplayChain) : ReplayChain :=
  match chain.phase with
  | .reading after =>
    match ProgressReplayRequest.new after limit >>= replay chain.store jobId with
    | .error error => { chain with phase := .failed error }
    | .ok page =>
      { chain with
        events := chain.events ++ page.events
        phase := page.nextAfter.elim .ended fun next => .reading (some next) }
  | _ => chain

/-- A writer commits, or the client replays its next page. -/
inductive ChainInput : Type where
  | commit (input : ProgressInput)
  | page

/-- One input of a chain of replays. -/
def chainStep (jobId : JobId) (limit : ℕ) (chain : ReplayChain) : ChainInput → ReplayChain
  | .commit input => { chain with store := progressStep chain.store input }
  | .page => chain.page jobId limit

/-- The stored events of a job behind a cursor. -/
def laterEvents (store : QueueStore) (jobId : JobId) (cursor : Option ℕ) : List ProgressEvent :=
  (progressOf store jobId).filter fun event => cursor.getD 0 < event.sequence

/-- The client has read the first of the later events, each once and in order; a page
stops it exactly when it has read them all, which some page does; and a page is only
refused where no event can be. -/
structure ReplaysOnce (jobId : JobId) (limit : ℕ) (cursor : Option ℕ) (chain : ReplayChain) :
    Prop where
  read : chain.events <+: laterEvents chain.store jobId cursor
  ordered : (laterEvents chain.store jobId cursor).Pairwise fun a b => a.sequence < b.sequence
  stops : chain.phase.isReading = true → ((chain.page jobId limit).phase.isReading = false ↔
    (chain.page jobId limit).events = laterEvents chain.store jobId cursor)
  finishes : ∃ pages, (after (chainStep jobId limit) chain
    (List.replicate pages .page)).phase.isReading = false
  refused : ∀ error, chain.phase.isReading = true →
    (chain.page jobId limit).phase = .failed error →
      (error = .jobNotFound ∧ chain.store.jobs.find? jobId = none) ∨
        (error = .invalidReplayRequest ∧ i64Max < (cursor.getD 0 : ℤ))

/-! ## The invariant -/

/-- The events after a cursor are those dropped up to it. -/
theorem Stored.laterEvents_eq (hs : Stored s) :
    laterEvents s jobId cursor = (progressOf s jobId).drop (cursor.getD 0) :=
  (hs.numbered jobId).filter_after _

/-- The cursor behind which the client goes on is as far behind its first cursor as it
has read events. -/
structure Chained (jobId : JobId) (cursor : Option ℕ) (chain : ReplayChain) : Prop where
  stored : Stored chain.store
  read : chain.events <+: laterEvents chain.store jobId cursor
  position : ∀ after, chain.phase = .reading after →
    after.getD 0 = cursor.getD 0 + chain.events.length

variable {chain : ReplayChain}

/-- A chain at its cursor. -/
theorem Stored.start (hs : Stored s) : Chained jobId cursor ⟨s, [], .reading cursor⟩ where
  stored := hs
  read := List.nil_prefix
  position := by
    intro after hafter
    cases hafter
    rfl

/-- The number of an event that is read fits into the column. -/
theorem Stored.length_le (hs : Stored s) (hne : progressOf s jobId ≠ []) :
    ((progressOf s jobId).length : ℤ) ≤ i64Max := by
  have hpositive := List.length_pos_of_ne_nil hne
  have hlast := List.getElem_mem (l := progressOf s jobId)
    (show (progressOf s jobId).length - 1 < (progressOf s jobId).length by omega)
  have hfits := hs.fits _ (mem_progressOf.mp hlast).1
  rw [(hs.numbered jobId).number_getElem (by omega)] at hfits
  omega

/-- The last event of a full page has the number the next page starts behind. -/
theorem replay_nextAfter (hs : WellNumbered s) {request : ProgressReplayRequest}
    {page : ProgressReplayPage} (h : replay s jobId request = .ok page) {next : ℕ}
    (hnext : page.nextAfter = some next) : next = request.after.getD 0 + request.limit := by
  obtain ⟨hevents, hmore⟩ := replay_eq_ok hs h
  have hlong := hmore.mp (by rw [hnext]; rfl)
  have hlast : page.nextAfter = page.events.getLast?.map ProgressEvent.sequence := by
    unfold replay at h
    simp only at h
    split at h
    · cases h
    split at h
    · cases h
    cases h
    dsimp only at hnext ⊢
    split at hnext
    · rename_i hmore
      rw [if_pos hmore]
    · cases hnext
  have hnumbers := (hs jobId).numbers_page (request.after.getD 0) request.limit
  rw [← hevents] at hnumbers
  have hlength : page.events.length = request.limit := by
    rw [hevents, List.length_take]
    omega
  rw [hnext, ← List.getLast?_map, hnumbers, hlength] at hlast
  have hlimit := request.bounded.1
  rw [List.getLast?_range', if_neg (by omega), Option.some.injEq] at hlast
  omega

/-! ## One page -/

/-- A replay fails only without the job, or behind a cursor no row can have. -/
theorem replay_eq_error {request : ProgressReplayRequest} {error : ProgressRepositoryError}
    (h : replay s jobId request = .error error) :
    (error = .jobNotFound ∧ s.jobs.find? jobId = none) ∨
      (error = .invalidReplayRequest ∧ i64Max < (request.after.getD 0 : ℤ)) := by
  unfold replay at h
  simp only at h
  split at h
  · rename_i hjob
    cases h
    exact Or.inl ⟨rfl, Option.isNone_iff_eq_none.mp hjob⟩
  split at h
  · rename_i hcursor
    cases h
    exact Or.inr ⟨rfl, hcursor⟩
  · cases h

/-- The client goes on behind the page, which is full and not the last. -/
def GoesOn (jobId : JobId) (limit : ℕ) (cursor : Option ℕ) (chain chain' : ReplayChain) : Prop :=
  chain'.store = chain.store ∧ chain'.phase.isReading = true ∧ Chained jobId cursor chain' ∧
    chain'.events.length = chain.events.length + limit ∧
    chain'.events.length < (laterEvents chain.store jobId cursor).length

/-- The client stops with all the later events. -/
def Stops (jobId : JobId) (cursor : Option ℕ) (chain chain' : ReplayChain) : Prop :=
  chain'.store = chain.store ∧ chain'.events = laterEvents chain.store jobId cursor ∧
    (chain'.phase = .ended ∨
      (chain'.phase = .failed .jobNotFound ∧ chain.store.jobs.find? jobId = none) ∨
      (chain'.phase = .failed .invalidReplayRequest ∧ i64Max < (cursor.getD 0 : ℤ)))

/-- What is left of the later events behind what is read. -/
theorem Chained.rest (hs : Chained jobId cursor chain) :
    chain.events ++ (progressOf chain.store jobId).drop (cursor.getD 0 + chain.events.length) =
      laterEvents chain.store jobId cursor := by
  have hread := hs.read
  rw [List.prefix_iff_eq_append] at hread
  rw [← hread, ← List.drop_drop, ← hs.stored.laterEvents_eq, ← hread]

/-- A page stops the chain or continues it. -/
theorem Chained.page (hs : Chained jobId cursor chain) (hlimit : 0 < limit ∧ limit ≤ maxReplayLimit)
    (hreading : chain.phase.isReading = true) :
    Stops jobId cursor chain (chain.page jobId limit) ∨
      GoesOn jobId limit cursor chain (chain.page jobId limit) := by
  rcases chain with ⟨store, events, phase⟩
  cases phase with
  | ended => cases hreading
  | failed => cases hreading
  | reading after =>
    have hrest := hs.rest
    have hposition := hs.position after rfl
    dsimp only at hrest hposition
    have hrequest : ProgressReplayRequest.new after limit = .ok ⟨after, limit, hlimit⟩ := by
      rw [ProgressReplayRequest.new, dif_pos hlimit]
    -- a page can be refused for the job or for the cursor only; either way the chain has read
    -- all it will
    rcases hreplay : replay store jobId ⟨after, limit, hlimit⟩ with error | page
    · have hpage : ReplayChain.page jobId limit ⟨store, events, .reading after⟩ =
          ⟨store, events, .failed error⟩ := by
        simp only [ReplayChain.page, hrequest, bind, Except.bind, hreplay]
      left
      rw [hpage]
      rcases replay_eq_error hreplay with ⟨rfl, hjob⟩ | ⟨rfl, hcursor⟩
      · have hnone : progressOf store jobId = [] := by
          refine List.eq_nil_iff_forall_not_mem.mpr fun event hevent => ?_
          obtain ⟨hrow, rfl⟩ := mem_progressOf.mp hevent
          have hsome := hs.stored.job event hrow
          rw [hjob] at hsome
          cases hsome
        rw [hnone, List.drop_nil, List.append_nil] at hrest
        exact ⟨rfl, hrest, Or.inr (Or.inl ⟨rfl, hjob⟩)⟩
      · dsimp only at hcursor
        have hstored : Stored store := hs.stored
        have hbehind : (progressOf store jobId).length ≤ cursor.getD 0 + events.length := by
          by_contra hnot
          have hne : progressOf store jobId ≠ [] := List.ne_nil_of_length_pos (by omega)
          have hlength := hstored.length_le hne
          omega
        rw [List.drop_of_length_le hbehind, List.append_nil] at hrest
        refine ⟨rfl, hrest, Or.inr (Or.inr ⟨rfl, ?_⟩)⟩
        by_contra hfits
        have hread : events.length = (progressOf store jobId).length - cursor.getD 0 := by
          rw [hrest, hstored.laterEvents_eq, List.length_drop]
        have hne : progressOf store jobId ≠ [] := List.ne_nil_of_length_pos (by omega)
        have hlength := hstored.length_le hne
        omega
    · have hpage : ReplayChain.page jobId limit ⟨store, events, .reading after⟩ =
          ⟨store, events ++ page.events,
            page.nextAfter.elim .ended fun next => .reading (some next)⟩ := by
        simp only [ReplayChain.page, hrequest, bind, Except.bind, hreplay]
      obtain ⟨hevents, hmore⟩ := replay_eq_ok hs.stored.numbered hreplay
      rw [hpage]
      dsimp only at hevents hmore
      rw [hposition] at hevents hmore
      rcases hnext : page.nextAfter with _ | next
      · left
        rw [hnext] at hmore
        have hshort : ((progressOf store jobId).drop (cursor.getD 0 + events.length)).length ≤ limit := by
          by_contra hlong
          have hfalse := hmore.mpr (by omega)
          cases hfalse
        rw [List.take_of_length_le hshort] at hevents
        refine ⟨rfl, ?_, Or.inl rfl⟩
        show events ++ page.events = _
        rw [hevents, hrest]
      · right
        rw [hnext] at hmore
        have hlong := hmore.mp rfl
        have hfull : page.events.length = limit := by
          rw [hevents, List.length_take]
          omega
        have hlength := congrArg List.length hrest
        rw [List.length_append] at hlength
        refine ⟨rfl, rfl, ?_, ?_, ?_⟩
        · refine ⟨hs.stored, ?_, ?_⟩
          · show events ++ page.events <+: laterEvents store jobId cursor
            rw [← hrest, hevents, List.prefix_append_right_inj]
            exact List.take_prefix _ _
          · intro next' hnext'
            cases hnext'
            have hbehind := replay_nextAfter hs.stored.numbered hreplay hnext
            dsimp only at hbehind
            show next = _
            rw [List.length_append, hfull, hbehind, hposition]
            omega
        · show (events ++ page.events).length = events.length + limit
          rw [List.length_append, hfull]
        · show (events ++ page.events).length < (laterEvents store jobId cursor).length
          rw [List.length_append, hfull]
          omega

/-- A chain that stops reads no more. -/
theorem Stops.stopped {chain' : ReplayChain} (h : Stops jobId cursor chain chain') :
    chain'.phase.isReading = false := by
  obtain ⟨-, -, hphase | ⟨hphase, -⟩ | ⟨hphase, -⟩⟩ := h
  · rw [hphase]
    rfl
  · rw [hphase]
    rfl
  · rw [hphase]
    rfl

/-- A client that has stopped reads nothing more. -/
theorem page_of_stopped (h : chain.phase.isReading = false) : chain.page jobId limit = chain := by
  rcases chain with ⟨store, events, phase⟩
  cases phase with
  | reading => cases h
  | ended => rfl
  | failed => rfl

/-! ## Runs -/

/-- A step keeps the chain in line. -/
theorem Chained.step (hlimit : 0 < limit ∧ limit ≤ maxReplayLimit) (hs : Chained jobId cursor chain)
    (input : ChainInput) : Chained jobId cursor (chainStep jobId limit chain input) := by
  cases input with
  | commit input =>
    have hstored := hs.stored.progressStep input
    refine ⟨hstored, ?_, hs.position⟩
    have hread := hs.read
    rw [hs.stored.laterEvents_eq] at hread
    show chain.events <+: laterEvents (progressStep chain.store input) jobId cursor
    rw [hstored.laterEvents_eq]
    exact hread.trans ((progressStep_appends chain.store input).grows.drop jobId _)
  | page =>
    show Chained jobId cursor (chain.page jobId limit)
    by_cases hreading : chain.phase.isReading = true
    · rcases hs.page hlimit hreading with hstops | hgoesOn
      · refine ⟨?_, ?_, ?_⟩
        · rw [hstops.1]
          exact hs.stored
        · rw [hstops.1, hstops.2.1]
        · intro after hafter
          have hstopped := hstops.stopped
          rw [hafter] at hstopped
          cases hstopped
      · exact hgoesOn.2.2.1
    · rw [page_of_stopped (by simpa using hreading)]
      exact hs

/-- Pages alone bring a client to the end of the stream. -/
theorem Chained.finishes (hlimit : 0 < limit ∧ limit ≤ maxReplayLimit)
    (hs : Chained jobId cursor chain) : ∃ pages, (after (chainStep jobId limit) chain
      (List.replicate pages .page)).phase.isReading = false := by
  induction hleft : (laterEvents chain.store jobId cursor).length - chain.events.length
    using Nat.strong_induction_on generalizing chain with
  | _ left ih =>
    by_cases hreading : chain.phase.isReading = true
    · rcases hs.page hlimit hreading with hstops | ⟨hstore, -, hchained, hlength, hlt⟩
      · exact ⟨1, hstops.stopped⟩
      · have hcloser : (laterEvents (chain.page jobId limit).store jobId cursor).length -
            (chain.page jobId limit).events.length < left := by
          rw [hstore]
          omega
        obtain ⟨pages, hstopped⟩ := ih _ hcloser hchained rfl
        exact ⟨pages + 1, hstopped⟩
    · exact ⟨0, by simpa using hreading⟩

/-- A chain in line replays each event once. -/
theorem Chained.replaysOnce (hlimit : 0 < limit ∧ limit ≤ maxReplayLimit)
    (hs : Chained jobId cursor chain) : ReplaysOnce jobId limit cursor chain where
  read := hs.read
  ordered := by
    rw [hs.stored.laterEvents_eq]
    exact (hs.stored.numbered jobId).pairwise_lt.sublist (List.drop_sublist _ _)
  stops := by
    intro hreading
    rcases hs.page hlimit hreading with hstops | ⟨-, hgoesOn, -, -, hlt⟩
    · exact ⟨fun _ => hstops.2.1, fun _ => hstops.stopped⟩
    · constructor
      · intro hstopped
        rw [hstopped] at hgoesOn
        cases hgoesOn
      · intro hall
        rw [hall] at hlt
        omega
  finishes := hs.finishes hlimit
  refused := by
    intro error hreading hfailed
    rcases hs.page hlimit hreading with ⟨-, -, hphase⟩ | ⟨-, hgoesOn, -⟩
    · rw [hfailed] at hphase
      rcases hphase with hended | ⟨hphase, hjob⟩ | ⟨hphase, hcursor⟩
      · cases hended
      · cases hphase
        exact Or.inl ⟨rfl, hjob⟩
      · cases hphase
        exact Or.inr ⟨rfl, hcursor⟩
    · rw [hfailed] at hgoesOn
      cases hgoesOn

/-- Whatever the writers commit before and between the pages, a chain of replays reads
every event behind its cursor once and in order, and ends exactly at the end of the
stream. -/
theorem replayChain_throughout (jobId : JobId) (cursor : Option ℕ)
    (hlimit : 0 < limit ∧ limit ≤ maxReplayLimit) (earlier : List ProgressInput)
    (inputs : List ChainInput) :
    Throughout (chainStep jobId limit) (ReplaysOnce jobId limit cursor)
      ⟨after progressStep .empty earlier, [], .reading cursor⟩ inputs := by
  have hstored : Stored (after progressStep .empty earlier) :=
    after_invariant (fun s input hs => hs.progressStep input) Stored.empty earlier
  have hrun : Throughout (chainStep jobId limit) (Chained jobId cursor)
      ⟨after progressStep .empty earlier, [], .reading cursor⟩ inputs :=
    throughout_of_meets (I := fun _ => True) (G := fun _ _ => True) (fun _ _ _ => trivial)
      (fun chain input _ hs _ => hs.step hlimit input) trivial hstored.start
      (meets_of_forall fun _ _ => trivial)
  exact hrun.mono fun chain hs => hs.replaysOnce hlimit

/-- An append of the sample. -/
def sampleAppend : ProgressInput := .append ⟨1, none, ⟨"FETCHED", by decide⟩, [], none⟩ 5

/-- A production job with three events. -/
def sampleStream : List ProgressInput :=
  [.queue (.operation (.createProductionRun 1 ⟨.productionRun, .crawlerVersion, 1, 1⟩
      ⟨1, .productionCrawl, 0, none, none, 0, 1⟩ 0)),
    sampleAppend, sampleAppend, sampleAppend]

/-- The sample chain, with a commit between its pages. -/
theorem replayChain_throughout_sample :
    Throughout (chainStep 1 2) (ReplaysOnce 1 2 (some 1))
      ⟨after progressStep .empty sampleStream, [], .reading (some 1)⟩
      [.page, .commit sampleAppend, .page] :=
  replayChain_throughout 1 (some 1) (by decide) sampleStream _

-- The boundary of a page falls on the last event, and another event comes between pages.
example : ((after (chainStep 1 2) ⟨after progressStep .empty sampleStream, [], .reading (some 0)⟩
    [.page, .commit sampleAppend, .page]).events.map ProgressEvent.sequence) = [1, 2, 3, 4] := by
  decide +kernel

end Erabi.Progress
