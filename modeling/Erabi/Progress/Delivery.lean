/-
# Delivery of live progress

What a client is sent is a run of the durable stream that starts right behind its
cursor: every event in its place, none twice, and nothing behind a terminal one.
The invariant is that the emitted and the pending events together are a prefix of
the durable events behind the cursor; commits only make that prefix longer, and
neither the order of the publications nor their loss can touch it.
-/
import Mathlib
import Erabi.Progress.Live

namespace Erabi.Progress

open Relational Transaction Queue Transition

variable {store store' : QueueStore} {hub : ProgressLiveHub} {jobId : JobId}

/-! ## Replay -/

/-- The rows after a cursor are the rest of the stream. -/
theorem storedAfter_eq_drop (hs : WellNumbered store) (jobId : JobId) (after : ℕ) :
    storedAfter store jobId after = (progressOf store jobId).drop after := by
  have hselect : (store.progress.select fun event => event.jobId = jobId && after < event.sequence) =
      (progressOf store jobId).drop after := by
    rw [← (hs jobId).filter_after after, progressOf, Table.select, Table.select, List.filter_filter]
    refine List.filter_congr fun event _ => ?_
    rw [Bool.and_comm]
  rw [storedAfter, hselect]
  refine List.Pairwise.insertionSort_eq ?_
  exact ((hs jobId).pairwise_lt.sublist (List.drop_sublist _ _)).imp fun h => h.le

/-- The request behind a cursor reads behind that cursor. -/
theorem replayRequest_eq_ok {cursor : ℕ} {request : ProgressReplayRequest}
    (h : replayRequest cursor = .ok request) :
    request.after.getD 0 = cursor ∧ request.limit = replayPageSize := by
  unfold replayRequest ProgressReplayRequest.new at h
  split at h
  · cases h
    by_cases hzero : cursor = 0
    · simp [hzero]
    · simp [hzero]
  · cases h

/-- A replayed page is the next piece of the stream, and says whether the stream
goes on. -/
theorem replay_eq_ok (hs : WellNumbered store) {request : ProgressReplayRequest}
    {page : ProgressReplayPage} (h : replay store jobId request = .ok page) :
    page.events = ((progressOf store jobId).drop (request.after.getD 0)).take request.limit ∧
      (page.nextAfter.isSome ↔
        request.limit < ((progressOf store jobId).drop (request.after.getD 0)).length) := by
  unfold replay at h
  simp only [storedAfter_eq_drop hs] at h
  split at h
  · cases h
  · split at h
    · cases h
    · cases h
      dsimp only
      generalize (progressOf store jobId).drop (request.after.getD 0) = rest
      have hlimit := request.bounded.1
      constructor
      · rw [List.take_take]
        congr 1
        omega
      · split
        · rename_i hmore
          rw [List.length_take] at hmore
          have hne : ((rest.take (request.limit + 1)).take request.limit).getLast?.isSome := by
            rw [List.getLast?_isSome]
            intro hnil
            have hlength := congrArg List.length hnil
            simp only [List.length_take, List.length_nil] at hlength
            omega
          rw [Option.isSome_map]
          exact ⟨fun _ => by omega, fun _ => hne⟩
        · rename_i hmore
          rw [List.length_take] at hmore
          constructor
          · intro hnone
            cases hnone
          · intro hlong
            omega

/-- The page behind a cursor is the next piece of the stream behind it. -/
theorem replay_cursor_eq_ok (hs : WellNumbered store) {cursor : ℕ} {page : ProgressReplayPage}
    (h : replayRequest cursor >>= replay store jobId = .ok page) :
    page.events = ((progressOf store jobId).drop cursor).take replayPageSize ∧
      (page.nextAfter.isSome ↔
        replayPageSize < ((progressOf store jobId).drop cursor).length) := by
  rcases hrequest : replayRequest cursor with e | request
  · rw [hrequest] at h
    cases h
  · rw [hrequest] at h
    obtain ⟨hafter, hlimit⟩ := replayRequest_eq_ok hrequest
    have hpage := replay_eq_ok hs h
    rw [hafter, hlimit] at hpage
    exact hpage

/-! ## The invariant -/

/-- The state of the stream continues what the client was sent. -/
structure Continuing (store : QueueStore) (jobId : JobId) (lastEventId : ℕ)
    (emitted : List ProgressEvent) (state : ProgressStreamState) : Prop where
  job : state.jobId = jobId
  cursor : state.cursor = lastEventId + emitted.length
  inOrder : emitted ++ state.pending <+:
    (progressOf store jobId).drop lastEventId

/-- The stored event of the job that the live hub brought out of turn. -/
def Ahead (store : QueueStore) (jobId : JobId) (state : ProgressStreamState)
    (candidate : ProgressEvent) : Prop :=
  candidate ∈ progressOf store jobId ∧ state.cursor < candidate.sequence

/-- Wherever the stream is suspended, it continues what the client was sent. -/
def Client.Follows (store : QueueStore) (client : Client) : Prop :=
  client.emitted <+: (progressOf store client.jobId).drop client.lastEventId ∧
  match client.phase with
  | .connecting jobId cursor _ =>
    jobId = client.jobId ∧ cursor = client.lastEventId ∧ client.emitted = []
  | .polling state => Continuing store client.jobId client.lastEventId client.emitted state
  | .refilling state liveCandidate =>
    Continuing store client.jobId client.lastEventId client.emitted state ∧ state.pending = [] ∧
    ∀ candidate ∈ liveCandidate, Ahead store client.jobId state candidate
  | .closed => True

/-- Everything that is or was on its way to the hub is stored. -/
structure Faithful (s : LiveProgress) : Prop where
  numbered : WellNumbered s.store
  unpublished : ∀ event ∈ s.unpublished, event ∈ progressOf s.store event.jobId
  sent : ∀ event ∈ s.hub.sent, event ∈ progressOf s.store event.jobId
  client : ∀ client ∈ s.client, client.Follows s.store

theorem Faithful.start (hub : ProgressLiveHub) : Faithful (.start hub) where
  numbered := .empty
  unpublished := fun _ h => by cases h
  sent := fun _ h => by cases h
  client := fun _ h => by cases h

/-- A client that polls continues its stream. -/
theorem Client.Follows.polling {client : Client} {state : ProgressStreamState}
    (h : client.Follows store) (hphase : client.phase = .polling state) :
    Continuing store client.jobId client.lastEventId client.emitted state := by
  have hstate := h.2
  rw [hphase] at hstate
  exact hstate

/-! ## Commits -/

/-- The rest of a stream is extended. -/
theorem Extends.drop (h : Extends store store') (jobId : JobId) (n : ℕ) :
    (progressOf store jobId).drop n <+: (progressOf store' jobId).drop n := (h jobId).drop n

/-- A client continues a stream that is extended. -/
theorem Continuing.extends (h : Extends store store') {lastEventId : ℕ}
    {emitted : List ProgressEvent} {state : ProgressStreamState}
    (hc : Continuing store jobId lastEventId emitted state) :
    Continuing store' jobId lastEventId emitted state :=
  { hc with inOrder := hc.inOrder.trans (h.drop _ _) }

/-- A client follows a stream that is extended. -/
theorem Client.Follows.extends (h : Extends store store') {client : Client}
    (hc : client.Follows store) : client.Follows store' := by
  refine ⟨hc.1.trans (h.drop _ _), ?_⟩
  have hphase := hc.2
  revert hphase
  cases client.phase with
  | connecting => exact id
  | polling state => exact fun hstate => hstate.extends h
  | refilling state candidate =>
    rintro ⟨hstate, hpending, hcandidate⟩
    refine ⟨hstate.extends h, hpending, fun event hevent => ?_⟩
    exact ⟨(h client.jobId).subset (hcandidate event hevent).1, (hcandidate event hevent).2⟩
  | closed => exact id

/-- Appending keeps the client faithful. -/
theorem Faithful.extends {s : LiveProgress} (hs : Faithful s) (h : Appends s.store store') :
    Faithful { s with store := store' } where
  numbered := h.numbered hs.numbered
  unpublished := fun event hevent => (h.grows _).subset (hs.unpublished event hevent)
  sent := fun event hevent => (h.grows _).subset (hs.sent event hevent)
  client := fun client hclient => (hs.client client hclient).extends h.grows

/-! ## The pieces of the stream -/

section Pieces

variable {lastEventId : ℕ} {emitted : List ProgressEvent} {state state' : ProgressStreamState}

/-- The durable events behind the cursor are those behind what was sent. -/
theorem Continuing.rest (hc : Continuing store jobId lastEventId emitted state) :
    (progressOf store jobId).drop state.cursor =
      ((progressOf store jobId).drop lastEventId).drop emitted.length := by
  rw [List.drop_drop, hc.cursor]

/-- With nothing pending the stream goes on with the durable events behind its
cursor. -/
theorem Continuing.goOn (hc : Continuing store jobId lastEventId emitted state)
    (hpending : state.pending = []) (hjob : state'.jobId = state.jobId)
    (hcursor : state'.cursor = state.cursor)
    (hnew : state'.pending <+: (progressOf store jobId).drop state.cursor) :
    Continuing store jobId lastEventId emitted state' where
  job := hjob.trans hc.job
  cursor := hcursor.trans hc.cursor
  inOrder := by
    have hsent := hc.inOrder
    rw [hpending, List.append_nil] at hsent
    rw [hc.rest] at hnew
    obtain ⟨rest, hrest⟩ := hsent
    rw [← hrest, List.drop_left] at hnew
    rw [← hrest]
    exact (List.prefix_append_right_inj _).mpr hnew

/-- A refill takes the next page of later events. -/
theorem refillFromDurable_eq_ok (h : state.refillFromDurable store = .ok state') :
    ∃ page, (replayRequest state.cursor >>= replay store state.jobId) = .ok page ∧
      state' = { state with
        replayMore := page.nextAfter.isSome
        pending := state.pending ++ page.events.filter fun event =>
          state.cursor < event.sequence } := by
  unfold ProgressStreamState.refillFromDurable at h
  rcases hrequest : replayRequest state.cursor with e | request
  · rw [hrequest] at h
    cases h
  · rw [hrequest] at h
    change (replay store state.jobId request >>= _) = _ at h
    rcases hpage : replay store state.jobId request with e | page
    · rw [hpage] at h
      cases h
    · rw [hpage] at h
      cases h
      exact ⟨page, hpage, rfl⟩

/-- A durable page continues the stream. -/
theorem Continuing.refill (hs : WellNumbered store)
    (hc : Continuing store jobId lastEventId emitted state) (hpending : state.pending = [])
    (h : state.refillFromDurable store = .ok state') :
    Continuing store jobId lastEventId emitted state' ∧ state'.cursor = state.cursor ∧
      state'.receiver = state.receiver ∧ state'.done = state.done ∧
      state'.pending = ((progressOf store jobId).drop state.cursor).take replayPageSize ∧
      (state'.replayMore = true ↔
        replayPageSize < ((progressOf store jobId).drop state.cursor).length) := by
  obtain ⟨page, hpage, rfl⟩ := refillFromDurable_eq_ok h
  obtain ⟨hevents, hmore⟩ := replay_cursor_eq_ok hs hpage
  rw [hc.job] at hevents hmore
  -- the page holds nothing but events behind the cursor
  have hfilter : page.events.filter (fun event => state.cursor < event.sequence) = page.events := by
    rw [hevents, List.filter_eq_self]
    intro event hevent
    have hbehind := (hs jobId).filter_after state.cursor ▸ List.mem_of_mem_take hevent
    exact (List.mem_filter.mp hbehind).2
  have hnew : state.pending ++ page.events.filter (fun event => state.cursor < event.sequence) =
      ((progressOf store jobId).drop state.cursor).take replayPageSize := by
    rw [hfilter, hpending, List.nil_append, hevents]
  exact ⟨hc.goOn hpending rfl rfl (hnew ▸ List.take_prefix _ _), rfl, rfl, rfl, hnew, hmore⟩

/-- A live candidate never has to be adopted: the durable page holds it or an
earlier event. -/
theorem adopt_eq_self {liveCandidate : Option ProgressEvent} (hs : WellNumbered store)
    (h : ∀ candidate ∈ liveCandidate, Ahead store jobId state candidate)
    (hpending : state'.pending =
      ((progressOf store jobId).drop state.cursor).take replayPageSize) :
    state'.adopt liveCandidate = state' := by
  rcases liveCandidate with _ | candidate
  · rfl
  · obtain ⟨hstored, hahead⟩ := h candidate rfl
    have hnumber := (hs jobId).getElem?_number hstored
    have hne : state'.pending ≠ [] := by
      intro hnil
      have hlength := congrArg List.length (hpending.symm.trans hnil)
      simp only [List.length_take, List.length_drop, List.length_nil, replayPageSize] at hlength
      omega
    unfold ProgressStreamState.adopt
    dsimp only
    rw [if_neg]
    simp [hne]

/-- The first pending event is the next one. -/
theorem Continuing.next (hs : WellNumbered store)
    (hc : Continuing store jobId lastEventId emitted state) {event : ProgressEvent}
    {pending : List ProgressEvent} (hpending : state.pending = event :: pending) :
    event.sequence = state.cursor + 1 := by
  have hsent := hc.inOrder
  rw [hpending] at hsent
  have hget : ((progressOf store jobId).drop lastEventId)[emitted.length]? = some event := by
    rw [List.prefix_iff_getElem?.mp hsent emitted.length (by simp)]
    simp
  rw [List.getElem?_drop] at hget
  obtain ⟨hlt, rfl⟩ := List.getElem?_eq_some_iff.mp hget
  rw [(hs jobId).number_getElem hlt, hc.cursor]

/-- A live event in turn, and nothing else, goes on to the client. -/
theorem Continuing.receive (hsent : ∀ event ∈ hub.sent, event ∈ progressOf store event.jobId)
    (hs : WellNumbered store) (hc : Continuing store jobId lastEventId emitted state)
    (hpending : state.pending = []) :
    (∃ state', receive hub state = .polling state' ∧
      Continuing store jobId lastEventId emitted state') ∨
    ∃ state' candidate, receive hub state = .refilling state' candidate ∧
      Continuing store jobId lastEventId emitted state' ∧ state'.pending = [] ∧
      ∀ event ∈ candidate, Ahead store jobId state' event := by
  unfold Progress.receive ProgressLiveHub.recv
  split_ifs with hlag
  · exact Or.inr ⟨_, none, rfl, hc.goOn hpending rfl rfl (by simp [hpending]), hpending,
      fun event hevent => by cases hevent⟩
  · rcases hnext : hub.sent[state.receiver]? with _ | event
    · exact Or.inl ⟨state, rfl, hc⟩
    · dsimp only
      have hstored := hsent event (List.mem_of_getElem? hnext)
      split_ifs with hother hexpected
      · exact Or.inl ⟨_, rfl, hc.goOn hpending rfl rfl (by simp [hpending])⟩
      · rw [not_or, not_not, not_le] at hother
        rw [hother.1, hc.job] at hstored
        have hnumber := (hs jobId).getElem?_number hstored
        rw [hexpected.2, Nat.add_sub_cancel] at hnumber
        obtain ⟨hlt, hget⟩ := List.getElem?_eq_some_iff.mp hnumber.2.2
        refine Or.inl ⟨_, rfl, hc.goOn hpending rfl rfl ?_⟩
        rw [List.drop_eq_getElem_cons hlt, hget]
        exact List.prefix_append [event] _
      · rw [not_or, not_not, not_le] at hother
        rw [hother.1, hc.job] at hstored
        refine Or.inr ⟨_, some event, rfl, hc.goOn hpending rfl rfl (by simp [hpending]), hpending,
          fun candidate hcandidate => ?_⟩
        cases hcandidate
        exact ⟨hstored, hother.2⟩

end Pieces

/-! ## Steps -/

/-- Every piece of the stream continues what the client was sent. -/
theorem Client.Follows.advance (hs : WellNumbered store)
    (hsent : ∀ event ∈ hub.sent, event ∈ progressOf store event.jobId) {client : Client}
    (hc : client.Follows store) : (client.advance store hub).Follows store := by
  obtain ⟨jobId, lastEventId, phase, emitted⟩ := client
  obtain ⟨hsentFirst, hphase⟩ := hc
  cases phase with
  -- the receiver was subscribed before the first page is read
  | connecting job cursor receiver =>
    obtain ⟨rfl, rfl, hnone⟩ := hphase
    dsimp only at hnone
    subst hnone
    rcases hpage : replayRequest cursor >>= replay store job with e | page
    · simp [Client.advance, nextProgressItem, hpage, Client.Follows]
    · refine ⟨by simp [Client.advance, nextProgressItem, hpage], ?_⟩
      simp only [Client.advance, nextProgressItem, hpage]
      refine ⟨rfl, rfl, ?_⟩
      rw [(replay_cursor_eq_ok hs hpage).1]
      exact List.take_prefix _ _
  | polling state =>
    dsimp only at hphase
    by_cases hdone : state.done = true
    · simpa [Client.advance, nextProgressItem, hdone, Client.Follows] using hsentFirst
    -- the order of the source: what is pending, then a further page, then the live hub
    · rcases hpending : state.pending with _ | ⟨event, pending⟩
      · by_cases hmore : state.replayMore = true
        · have hphase' : Client.Follows store
              ⟨jobId, lastEventId, .refilling state none, emitted⟩ :=
            ⟨hsentFirst, hphase, hpending, fun event hevent => by cases hevent⟩
          simpa [Client.advance, nextProgressItem, hdone, hpending, hmore] using hphase'
        · have hphase' : Client.Follows store
              ⟨jobId, lastEventId, receive hub state, emitted⟩ := by
            refine ⟨hsentFirst, ?_⟩
            rcases hphase.receive hsent hs hpending with ⟨state', hreceive, hstate'⟩ |
              ⟨state', candidate, hreceive, hstate', hpending', hcandidate⟩
            · rw [hreceive]
              exact hstate'
            · rw [hreceive]
              exact ⟨hstate', hpending', hcandidate⟩
          simpa [Client.advance, nextProgressItem, hdone, hpending, hmore] using hphase'
      · have hnext := hphase.next hs hpending
        have hsent' := hphase.inOrder
        rw [hpending] at hsent'
        have hemitted : emitted ++ [event] <+: (progressOf store jobId).drop lastEventId :=
          List.IsPrefix.trans (by simp) hsent'
        have hphase' : Client.Follows store ⟨jobId, lastEventId, .polling { state with
            cursor := event.sequence, pending, done := event.terminal.isSome },
            emitted ++ [event]⟩ := by
          refine ⟨hemitted, hphase.job, ?_, ?_⟩
          · have hcursor := hphase.cursor
            simp only [List.length_append, List.length_singleton]
            omega
          · simpa using hsent'
        -- a pending event is the one behind the cursor, so it is never skipped
        have hbehind : ¬ event.sequence ≤ state.cursor := by omega
        simpa [Client.advance, nextProgressItem, hdone, hpending, hbehind] using hphase'
  | refilling state liveCandidate =>
    obtain ⟨hstate, hpending, hcandidate⟩ := hphase
    rcases hrefill : state.refillFromDurable store with e | state'
    · simpa [Client.advance, nextProgressItem, hrefill, Client.Follows] using hsentFirst
    · obtain ⟨hstate', _, _, _, hpage, _⟩ := hstate.refill hs hpending hrefill
      -- the live event that asked for the refill is on the page that was read
      have hadopt := adopt_eq_self hs hcandidate hpage
      have hphase' : Client.Follows store ⟨jobId, lastEventId, .polling state', emitted⟩ :=
        ⟨hsentFirst, hstate'⟩
      simpa [Client.advance, nextProgressItem, hrefill, hadopt] using hphase'
  | closed => simpa [Client.advance, nextProgressItem, Client.Follows] using hsentFirst

/-- A successful append commits the event it returns. -/
theorem appendAt_eq_ok {event : NewProgressEvent} {createdAt : ℤ} {s s' : QueueStore}
    {committed : ProgressEvent} (h : appendAt event createdAt s = (.ok committed, s')) :
    ComesNext s committed ∧ progressOf s' committed.jobId =
      progressOf s committed.jobId ++ [committed] ∧
      ∀ jobId, committed.jobId ≠ jobId → progressOf s' jobId = progressOf s jobId := by
  unfold appendAt at h
  rcases happend : appendInTransaction event createdAt s with e | ⟨stored, s₁⟩
  · rw [commit_of_error happend] at h
    cases h
  · rw [commit_of_ok happend] at h
    cases h
    obtain ⟨hnext, _, progress, hinsert, rfl⟩ := appendInTransaction_eq_ok happend
    refine ⟨hnext, by rw [progressOf_insert hinsert, if_pos rfl], fun jobId hjob => ?_⟩
    rw [progressOf_insert hinsert, if_neg hjob]

/-- A refused append changes nothing. -/
theorem appendAt_eq_error {event : NewProgressEvent} {createdAt : ℤ} {s s' : QueueStore}
    {e : ProgressRepositoryError} (h : appendAt event createdAt s = (.error e, s')) : s' = s := by
  unfold appendAt at h
  rcases happend : appendInTransaction event createdAt s with e' | ⟨stored, s₁⟩
  · rw [commit_of_error happend] at h
    cases h
    rfl
  · rw [commit_of_ok happend] at h
    cases h

/-- Every step keeps the client faithful. -/
theorem Faithful.step {s : LiveProgress} (hs : Faithful s) (input : LiveInput) :
    Faithful (liveStep s input) := by
  cases input with
  | durable input => exact hs.extends (progressStep_appends s.store input)
  -- the event is in the store before it can be published
  | appendAndPublish event createdAt =>
    have happends := appendAt_appends event createdAt s.store
    rcases happend : appendAt event createdAt s.store with ⟨e | committed, store⟩
    · rw [happend] at happends
      simpa [liveStep, happend] using hs.extends happends
    · rw [happend] at happends
      have hgrown := hs.extends happends
      have hcommitted : committed ∈ progressOf store committed.jobId := by
        rw [(appendAt_eq_ok happend).2.1]
        simp
      have hfaithful : Faithful { s with
          store := store, unpublished := s.unpublished ++ [committed] } := by
        refine { hgrown with unpublished := fun event hevent => ?_ }
        rw [List.mem_append, List.mem_singleton] at hevent
        rcases hevent with hevent | rfl
        · exact hgrown.unpublished event hevent
        · exact hcommitted
      simpa [liveStep, happend] using hfaithful
  | publish index =>
    rcases hget : s.unpublished[index]? with _ | event
    · simpa [liveStep, hget] using hs
    · have hstored := hs.unpublished event (List.mem_of_getElem? hget)
      have hfaithful : Faithful { s with
          hub := s.hub.publish event, unpublished := s.unpublished.eraseIdx index } := by
        refine { hs with
          unpublished := fun other hother => hs.unpublished other (List.mem_of_mem_eraseIdx hother)
          sent := fun other hother => ?_ }
        rw [ProgressLiveHub.publish, List.mem_append, List.mem_singleton] at hother
        rcases hother with hother | rfl
        · exact hs.sent other hother
        · exact hstored
      simpa [liveStep, hget] using hfaithful
  | abandon index =>
    exact { hs with
      unpublished := fun other hother => hs.unpublished other (List.mem_of_mem_eraseIdx hother) }
  -- a client starts at its cursor with nothing emitted
  | connect jobId lastEventId =>
    rcases hparse : parseLastEventId lastEventId with _ | cursor
    · simpa [liveStep, hparse] using hs
    · rw [liveStep, hparse]
      refine { hs with client := fun client hclient => ?_ }
      cases hclient
      exact ⟨List.nil_prefix, rfl, rfl, rfl⟩
  | advance =>
    refine { hs with client := fun client hclient => ?_ }
    rw [liveStep, Option.mem_def, Option.map_eq_some_iff] at hclient
    obtain ⟨before, hbefore, rfl⟩ := hclient
    exact (hs.client before hbefore).advance hs.numbered hs.sent

/-! ## Delivery -/

/-- The client was sent the durable events right behind its cursor, in their
order, each once and as it is stored, and nothing behind a terminal event. -/
structure Delivered (store : QueueStore) (client : Client) : Prop where
  sequences : client.emitted.map ProgressEvent.sequence =
    List.range' (client.lastEventId + 1) client.emitted.length
  durable : ∀ event ∈ client.emitted,
    store.progress.find? (client.jobId, event.sequence) = some event
  closing : ∀ event ∈ client.emitted.dropLast, event.terminal = none

/-- A client that follows was delivered what comes next. -/
theorem Client.Follows.delivered (hs : WellNumbered store) {client : Client}
    (hc : client.Follows store) : Delivered store client := by
  have hnumbered := hs client.jobId
  obtain ⟨rest, hrest⟩ := hc.1
  have hsplit : progressOf store client.jobId = (progressOf store client.jobId).take
      client.lastEventId ++ (client.emitted ++ rest) := by
    rw [hrest, List.take_append_drop]
  refine ⟨?_, ?_, ?_⟩
  · have hpage := hnumbered.numbers_page client.lastEventId client.emitted.length
    rwa [← hrest, List.take_left] at hpage
  · intro event hevent
    have hmem : event ∈ progressOf store client.jobId := by
      rw [hsplit]
      simp [hevent]
    obtain ⟨hpos, _, hget⟩ := hnumbered.getElem?_number hmem
    exact hs.find?_eq_some.mpr ⟨hpos, hget⟩
  · intro event hevent
    -- an event in front of the last emitted one is in front of the last stored one
    have hinit : event ∈ (progressOf store client.jobId).dropLast := by
      rw [hsplit, List.dropLast_append_of_ne_nil (by
        intro hnil
        rw [List.append_eq_nil_iff] at hnil
        rw [hnil.1] at hevent
        cases hevent)]
      refine List.mem_append_right _ ?_
      rcases List.eq_nil_or_concat rest with rfl | ⟨init, last, rfl⟩
      · rwa [List.append_nil]
      · rw [List.concat_eq_append, ← List.append_assoc, List.dropLast_concat]
        exact List.mem_append_left _ (List.mem_of_mem_dropLast hevent)
    have hopen := hnumbered.closing event hinit
    rw [closesStream] at hopen
    simpa using hopen

/-- Live progress is delivered exactly once and in order, whatever is committed,
published, lost or lagging in between. -/
theorem progress_delivered_throughout (hub : ProgressLiveHub) (inputs : List LiveInput) :
    Throughout liveStep (fun s => ∀ client ∈ s.client, Delivered s.store client)
      (.start hub) inputs := by
  have hstep : ∀ s input, Faithful s → Faithful (liveStep s input) :=
    fun _ input hs => hs.step input
  have hfaithful : Throughout liveStep Faithful (.start hub) inputs :=
    throughout_of_meets (G := fun _ _ => True) hstep (fun s input _ hs _ => hstep s input hs)
      (.start hub) (.start hub) (meets_of_forall fun _ _ => trivial)
  exact hfaithful.mono fun s hs client hclient => (hs.client client hclient).delivered hs.numbered

end Erabi.Progress
