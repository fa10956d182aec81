/-
# Live progress at rest

A stream that waits for a live notification which nobody will send should have
nothing left to tell.  Notifications come from the progress service only; the
terminal events of the queue, the repair and the startup reconciliation are
committed without one, and a stream that is already waiting misses them.  So
completeness at rest needs a run in which every commit still reaches the stream.
-/
import Mathlib
import Erabi.Progress.Delivery

namespace Erabi.Progress

open Relational Transaction Queue Transition

/-! ## Rest -/

/-- The stream waits at the hub: nothing is pending, nothing is left to replay,
and nothing is buffered. -/
structure Waits (s : LiveProgress) (state : ProgressStreamState) : Prop where
  running : state.done = false
  pending : state.pending = []
  replayed : state.replayMore = false
  nothing : s.hub.recv state.receiver = (.nothing, state.receiver)

/-- The stream waits, and no committed event of its job is about to be published. -/
def AtRest (s : LiveProgress) (client : Client) : Prop :=
  (∃ state, client.phase = .polling state ∧ Waits s state) ∧
    ∀ event ∈ s.unpublished, event.jobId ≠ client.jobId

instance (s : LiveProgress) (state : ProgressStreamState) : Decidable (Waits s state) :=
  decidable_of_iff (state.done = false ∧ state.pending = [] ∧ state.replayMore = false ∧
      s.hub.recv state.receiver = (.nothing, state.receiver))
    ⟨fun h => ⟨h.1, h.2.1, h.2.2.1, h.2.2.2⟩, fun h => ⟨h.1, h.2, h.3, h.4⟩⟩

instance (s : LiveProgress) : ∀ phase : StreamPhase,
    Decidable (∃ state, phase = .polling state ∧ Waits s state)
  | .polling state => decidable_of_iff (Waits s state) (by simp)
  | .connecting .. => isFalse (by simp)
  | .refilling .. => isFalse (by simp)
  | .closed => isFalse (by simp)

instance (s : LiveProgress) (client : Client) : Decidable (AtRest s client) :=
  inferInstanceAs (Decidable (_ ∧ _))

/-- The client was sent everything behind its cursor, and the durable stream is
still open. -/
structure UpToDate (store : QueueStore) (client : Client) : Prop where
  complete : ∀ event ∈ progressOf store client.jobId, client.lastEventId < event.sequence →
    event ∈ client.emitted
  opened : ∀ event ∈ progressOf store client.jobId, event.terminal = none

instance (store : QueueStore) (client : Client) : Decidable (UpToDate store client) :=
  decidable_of_iff ((∀ event ∈ progressOf store client.jobId,
      client.lastEventId < event.sequence → event ∈ client.emitted) ∧
      ∀ event ∈ progressOf store client.jobId, event.terminal = none)
    ⟨fun h => ⟨h.1, h.2⟩, fun h => ⟨h.1, h.2⟩⟩

/-- A client at rest is up to date. -/
def CompleteAtRest (s : LiveProgress) : Prop :=
  ∀ client ∈ s.client, AtRest s client → UpToDate s.store client

instance (s : LiveProgress) : Decidable (CompleteAtRest s) :=
  inferInstanceAs (Decidable (∀ client ∈ s.client, AtRest s client → UpToDate s.store client))

/-! ## Who is told what -/

/-- The stream reads the durable events once more before it waits, or never
waits again. -/
def Rereads (hub : ProgressLiveHub) : StreamPhase → Prop
  | .connecting .. | .refilling .. | .closed => True
  | .polling state => state.done = true ∨ state.replayMore = true ∨
    hub.capacity < hub.sent.length - state.receiver

instance (hub : ProgressLiveHub) : DecidablePred (Rereads hub)
  | .connecting .. => isTrue trivial
  | .refilling .. => isTrue trivial
  | .closed => isTrue trivial
  | .polling state => inferInstanceAs (Decidable (state.done = true ∨ state.replayMore = true ∨
    hub.capacity < hub.sent.length - state.receiver))

/-- The last sequence that was sent or is pending. -/
def reached : StreamPhase → ℕ
  | .polling state => state.cursor + state.pending.length
  | _ => 0

/-- The input withholds no event from the stream: a commit without publication
adds nothing to the stream of a client that does not read it again, a dropped
publication is not the last word of it, and a client comes with the cursor of an
event behind which the stream goes on. -/
def Informs (s : LiveProgress) : LiveInput → Prop
  | .durable input => ∀ client ∈ s.client, Rereads s.hub client.phase ∨
    (progressOf (progressStep s.store input) client.jobId).length =
      (progressOf s.store client.jobId).length
  | .abandon index => ∀ client ∈ s.client, ∀ event ∈ s.unpublished[index]?,
    event.jobId = client.jobId → Rereads s.hub client.phase ∨
      event.sequence ≤ reached client.phase ∨
      event.sequence < (progressOf s.store client.jobId).length
  | .connect jobId lastEventId => ∀ cursor ∈ parseLastEventId lastEventId,
    cursor ≤ (progressOf s.store jobId).length ∧
      ∀ event ∈ progressOf s.store jobId, event.sequence = cursor → event.terminal = none
  | .appendAndPublish .. | .publish _ | .advance => True

instance : ∀ (s : LiveProgress) (input : LiveInput), Decidable (Informs s input)
  | s, .durable input => inferInstanceAs (Decidable (∀ client ∈ s.client,
    Rereads s.hub client.phase ∨
      (progressOf (progressStep s.store input) client.jobId).length =
        (progressOf s.store client.jobId).length))
  | s, .abandon index => inferInstanceAs (Decidable (∀ client ∈ s.client,
    ∀ event ∈ s.unpublished[index]?, event.jobId = client.jobId → Rereads s.hub client.phase ∨
      event.sequence ≤ reached client.phase ∨
      event.sequence < (progressOf s.store client.jobId).length))
  | s, .connect jobId lastEventId => inferInstanceAs (Decidable (
    ∀ cursor ∈ parseLastEventId lastEventId, cursor ≤ (progressOf s.store jobId).length ∧
      ∀ event ∈ progressOf s.store jobId, event.sequence = cursor → event.terminal = none))
  | _, .appendAndPublish .. => isTrue trivial
  | _, .publish _ => isTrue trivial
  | _, .advance => isTrue trivial

/-! ## The invariant -/

/-- The event is on its way: still to be published, or sent and not yet received. -/
def OnItsWay (s : LiveProgress) (receiver : ℕ) (event : ProgressEvent) : Prop :=
  event ∈ s.unpublished ∨ event ∈ s.hub.sent.drop receiver

/-- The stream has the last durable event in sight. -/
def InSight (s : LiveProgress) (client : Client) : Prop :=
  Rereads s.hub client.phase ∨ ∃ state, client.phase = .polling state ∧
    ((progressOf s.store client.jobId).length ≤ state.cursor + state.pending.length ∨
      ∃ event, OnItsWay s state.receiver event ∧ event.jobId = client.jobId ∧
        event.sequence = (progressOf s.store client.jobId).length)

/-- A running stream was sent no terminal event, and its receiver stands within
what was sent to the hub. -/
def Running (s : LiveProgress) (client : Client) : StreamPhase → Prop
  | .connecting _ _ receiver => receiver ≤ s.hub.sent.length
  | .polling state => state.receiver ≤ s.hub.sent.length ∧
    (state.done = false → ∀ event ∈ client.emitted, event.terminal = none)
  | .refilling state _ => state.receiver ≤ s.hub.sent.length ∧ state.done = false ∧
    ∀ event ∈ client.emitted, event.terminal = none
  | .closed => True

/-- What the client has not seen will reach it. -/
structure Client.Informed (s : LiveProgress) (client : Client) : Prop where
  within : client.lastEventId ≤ (progressOf s.store client.jobId).length
  opened : ∀ event ∈ progressOf s.store client.jobId, event.sequence = client.lastEventId →
    event.terminal = none
  running : Running s client client.phase
  inSight : InSight s client

variable {s s' : LiveProgress} {client : Client}

/-- A receiver that gets nothing did not lag and has received everything sent. -/
theorem drop_of_recv_nothing {hub : ProgressLiveHub} {receiver receiver' : ℕ}
    (h : hub.recv receiver = (.nothing, receiver')) :
    ¬ hub.capacity < hub.sent.length - receiver ∧ hub.sent.drop receiver = [] := by
  unfold ProgressLiveHub.recv at h
  by_cases hlag : hub.capacity < hub.sent.length - receiver
  · rw [if_pos hlag] at h
    cases h
  · rw [if_neg hlag] at h
    rcases hget : hub.sent[receiver]? with _ | event
    · exact ⟨hlag, List.drop_eq_nil_of_le (List.getElem?_eq_none_iff.mp hget)⟩
    · rw [hget] at h
      cases h

/-- A stream at rest that has the last durable event in sight was sent it. -/
theorem Client.Informed.upToDate (hs : Faithful s) (hclient : client ∈ s.client)
    (h : client.Informed s) (hrest : AtRest s client) : UpToDate s.store client := by
  obtain ⟨⟨state, hphase, hwaits⟩, hquiet⟩ := hrest
  have hnumbered := hs.numbered client.jobId
  have hfollows := hs.client client hclient
  have hcontinuing := hfollows.polling hphase
  have hrunning := h.running
  rw [hphase] at hrunning
  obtain ⟨hlag, hdrained⟩ := drop_of_recv_nothing hwaits.nothing
  have hlength : (progressOf s.store client.jobId).length ≤
      client.lastEventId + client.emitted.length := by
    rw [← hcontinuing.cursor]
    rcases h.inSight with hrereads | ⟨state', hphase', hreached | ⟨event, hway, hjob, _⟩⟩
    · rw [hphase, Rereads, hwaits.running, hwaits.replayed] at hrereads
      simp [hlag] at hrereads
    · rw [hphase] at hphase'
      cases hphase'
      rwa [hwaits.pending, List.length_nil, Nat.add_zero] at hreached
    · rw [hphase] at hphase'
      cases hphase'
      rcases hway with hunpublished | hsent
      · exact absurd hjob (hquiet event hunpublished)
      · rw [hdrained] at hsent
        cases hsent
  -- so the client was sent all that is behind its cursor
  have hall : client.emitted = (progressOf s.store client.jobId).drop client.lastEventId := by
    refine hfollows.1.eq_of_length_le ?_
    rw [List.length_drop]
    omega
  have hcomplete : ∀ event ∈ progressOf s.store client.jobId,
      client.lastEventId < event.sequence → event ∈ client.emitted := by
    intro event hevent hbehind
    rw [hall, ← hnumbered.filter_after, List.mem_filter, decide_eq_true_eq]
    exact ⟨hevent, hbehind⟩
  refine ⟨hcomplete, fun event hevent => ?_⟩
  by_cases hbehind : client.lastEventId < event.sequence
  · exact hrunning.2 hwaits.running event (hcomplete event hevent hbehind)
  · by_cases hcursor : event.sequence = client.lastEventId
    · exact h.opened event hevent hcursor
    · have hwithin := h.within
      have hopen := hnumbered.closes_eq_false hevent (by omega)
      rw [closesStream] at hopen
      simpa using hopen

/-! ## Commits and publications -/

/-- An event among the first `n` of a grown stream was among them before. -/
theorem Extends.mem_of_le {store store' : QueueStore} {jobId : JobId} {event : ProgressEvent}
    (h : Extends store store') (hs' : WellNumbered store')
    (hevent : event ∈ progressOf store' jobId)
    (hle : event.sequence ≤ (progressOf store jobId).length) : event ∈ progressOf store jobId := by
  obtain ⟨hpos, _, hget⟩ := (hs' jobId).getElem?_number hevent
  rw [List.prefix_iff_getElem?.mp (h jobId) (event.sequence - 1) (by omega)] at hget
  exact Option.some.inj hget ▸ List.getElem_mem _

/-- A commit keeps an informed client informed when the new events, if any, are
on their way to a stream that does not read them itself. -/
theorem Client.Informed.commit (h : client.Informed s) {store' : QueueStore}
    {unpublished' : List ProgressEvent} (hgrows : Extends s.store store')
    (hs' : WellNumbered store') (hkept : ∀ event ∈ s.unpublished, event ∈ unpublished')
    (hinforms : Rereads s.hub client.phase ∨
      (progressOf store' client.jobId).length = (progressOf s.store client.jobId).length ∨
      ∃ event ∈ unpublished', event.jobId = client.jobId ∧
        event.sequence = (progressOf store' client.jobId).length) :
    client.Informed { s with store := store', unpublished := unpublished' } where
  within := h.within.trans (hgrows client.jobId).length_le
  opened := fun event hevent hcursor => h.opened event
    (hgrows.mem_of_le hs' hevent (hcursor ▸ h.within)) hcursor
  running := h.running
  inSight := by
    rcases h.inSight with hrereads | ⟨state, hphase, hsight⟩
    · exact Or.inl hrereads
    · rcases hinforms with hrereads | hsame | ⟨event, hevent, hjob, hlast⟩
      · exact Or.inl hrereads
      · refine Or.inr ⟨state, hphase, ?_⟩
        rw [hsame]
        rcases hsight with hreached | ⟨event, hway, hlast⟩
        · exact Or.inl hreached
        · exact Or.inr ⟨event, hway.imp_left (hkept event), hlast⟩
      · exact Or.inr ⟨state, hphase, Or.inr ⟨event, Or.inl hevent, hjob, hlast⟩⟩

/-- Of the committed events one is taken and the others are kept. -/
theorem taken_or_kept {event : ProgressEvent} {events : List ProgressEvent} (index : ℕ)
    (h : event ∈ events) : events[index]? = some event ∨ event ∈ events.eraseIdx index := by
  obtain ⟨i, hget⟩ := List.mem_iff_getElem?.mp h
  by_cases hi : i = index
  · exact Or.inl (hi ▸ hget)
  · exact Or.inr (List.mem_eraseIdx_iff_getElem?.mpr ⟨i, hi, hget⟩)

/-- A publication takes an event from the committed to the sent ones. -/
theorem Client.Informed.publish (h : client.Informed s) {index : ℕ} {event : ProgressEvent}
    (hget : s.unpublished[index]? = some event) :
    client.Informed { s with
      hub := s.hub.publish event, unpublished := s.unpublished.eraseIdx index } where
  within := h.within
  opened := h.opened
  running := by
    have hrunning := h.running
    have hlonger : s.hub.sent.length ≤ (s.hub.publish event).sent.length := by
      simp [ProgressLiveHub.publish]
    revert hrunning
    cases client.phase with
    | connecting => exact fun hreceiver => Nat.le_trans hreceiver hlonger
    | polling => exact fun hstate => ⟨Nat.le_trans hstate.1 hlonger, hstate.2⟩
    | refilling => exact fun hstate => ⟨Nat.le_trans hstate.1 hlonger, hstate.2⟩
    | closed => exact id
  inSight := by
    have hlonger : (s.hub.publish event).sent.length = s.hub.sent.length + 1 := by
      simp [ProgressLiveHub.publish]
    rcases h.inSight with hrereads | ⟨state, hphase, hsight⟩
    · refine Or.inl ?_
      revert hrereads
      cases client.phase with
      | polling state =>
        intro hrereads
        refine hrereads.imp_right (Or.imp_right fun hlag => ?_)
        show s.hub.capacity < (s.hub.publish event).sent.length - state.receiver
        omega
      | _ => exact id
    · refine Or.inr ⟨state, hphase, hsight.imp_right ?_⟩
      rintro ⟨other, hway, hlast⟩
      have hrunning := h.running
      rw [hphase] at hrunning
      have hdrop : (s.hub.publish event).sent.drop state.receiver =
          s.hub.sent.drop state.receiver ++ [event] := by
        rw [ProgressLiveHub.publish, List.drop_append_of_le_length hrunning.1]
      refine ⟨other, ?_, hlast⟩
      unfold OnItsWay
      rw [hdrop, List.mem_append, List.mem_singleton]
      rcases hway with hunpublished | hsent
      · rcases taken_or_kept index hunpublished with htaken | hkept
        · rw [hget] at htaken
          exact Or.inr (Or.inr (Option.some.inj htaken).symm)
        · exact Or.inl hkept
      · exact Or.inr (Or.inl hsent)

/-- A dropped publication that is not the last word of the stream. -/
theorem Client.Informed.abandon (h : client.Informed s) {index : ℕ}
    (hinforms : ∀ event ∈ s.unpublished[index]?, event.jobId = client.jobId →
      Rereads s.hub client.phase ∨ event.sequence ≤ reached client.phase ∨
        event.sequence < (progressOf s.store client.jobId).length) :
    client.Informed { s with unpublished := s.unpublished.eraseIdx index } where
  within := h.within
  opened := h.opened
  running := h.running
  inSight := by
    rcases h.inSight with hrereads | ⟨state, hphase, hsight⟩
    · exact Or.inl hrereads
    · rcases hsight with hreached | ⟨event, hway, hjob, hlast⟩
      · exact Or.inr ⟨state, hphase, Or.inl hreached⟩
      · rcases hway with hunpublished | hsent
        · rcases taken_or_kept index hunpublished with htaken | hkept
          · rcases hinforms event htaken hjob with hrereads | hreached | hearlier
            · exact Or.inl hrereads
            · rw [hphase, hlast] at hreached
              exact Or.inr ⟨state, hphase, Or.inl hreached⟩
            · omega
          · exact Or.inr ⟨state, hphase, Or.inr ⟨event, Or.inl hkept, hjob, hlast⟩⟩
        · exact Or.inr ⟨state, hphase, Or.inr ⟨event, Or.inr hsent, hjob, hlast⟩⟩

/-! ## The stream itself -/

/-- A durable page brings the last event, or more is left to replay. -/
theorem inSight_of_page {events : List ProgressEvent} {replayMore : Bool} {cursor : ℕ}
    {jobId : JobId} {store : QueueStore}
    (hevents : events = ((progressOf store jobId).drop cursor).take replayPageSize)
    (hmore : replayMore = true ↔ replayPageSize < ((progressOf store jobId).drop cursor).length) :
    replayMore = true ∨ (progressOf store jobId).length ≤ cursor + events.length := by
  by_cases hlong : replayPageSize < ((progressOf store jobId).drop cursor).length
  · exact Or.inl (hmore.mpr hlong)
  · refine Or.inr ?_
    rw [hevents, List.length_take]
    rw [List.length_drop] at hlong ⊢
    omega

/-- What a stream that is not behind makes of a live notification. -/
theorem receive_inSight {state : ProgressStreamState} {jobId : JobId} {n : ℕ}
    (hjob : state.jobId = jobId) (hwithin : state.receiver ≤ s.hub.sent.length)
    (hsight : ¬ s.hub.capacity < s.hub.sent.length - state.receiver → n ≤ state.cursor ∨
      ∃ event, OnItsWay s state.receiver event ∧ event.jobId = jobId ∧ event.sequence = n) :
    (∃ state', receive s.hub state = .polling state' ∧ state'.done = state.done ∧
      state'.receiver ≤ s.hub.sent.length ∧ (n ≤ state'.cursor + state'.pending.length ∨
        ∃ event, OnItsWay s state'.receiver event ∧ event.jobId = jobId ∧ event.sequence = n)) ∨
    ∃ state' candidate, receive s.hub state = .refilling state' candidate ∧
      state'.done = state.done ∧ state'.receiver ≤ s.hub.sent.length := by
  unfold receive ProgressLiveHub.recv
  split_ifs with hlag
  · exact Or.inr ⟨_, none, rfl, rfl, Nat.sub_le _ _⟩
  · specialize hsight hlag
    rcases hget : s.hub.sent[state.receiver]? with _ | event
    · exact Or.inl ⟨state, rfl, rfl, hwithin, hsight.imp_left fun hle => by omega⟩
    · obtain ⟨hlt, hevent⟩ := List.getElem?_eq_some_iff.mp hget
      dsimp only
      -- the last event is the received one or behind it
      have hnext : ∀ other, OnItsWay s state.receiver other →
          other = event ∨ OnItsWay s (state.receiver + 1) other := by
        rintro other (hunpublished | hsent)
        · exact Or.inr (Or.inl hunpublished)
        · rw [List.drop_eq_getElem_cons hlt, hevent, List.mem_cons] at hsent
          exact hsent.imp_right Or.inr
      split_ifs with hother hexpected
      · refine Or.inl ⟨_, rfl, rfl, hlt, ?_⟩
        rcases hsight with hle | ⟨last, hway, hlast⟩
        · exact Or.inl (Nat.le_trans hle (Nat.le_add_right _ _))
        · rcases hnext last hway with rfl | hbehind
          · refine Or.inl (Nat.le_trans ?_ (Nat.le_add_right _ _))
            rcases hother with hne | hle
            · exact absurd (hlast.1.trans hjob.symm) hne
            · exact hlast.2 ▸ hle
          · exact Or.inr ⟨last, hbehind, hlast⟩
      · refine Or.inl ⟨_, rfl, rfl, hlt, ?_⟩
        rcases hsight with hle | ⟨last, hway, hlast⟩
        · exact Or.inl (Nat.le_trans hle (Nat.le_add_right _ _))
        · rcases hnext last hway with rfl | hbehind
          · refine Or.inl ?_
            show n ≤ state.cursor + 1
            rw [← hlast.2, hexpected.2]
          · exact Or.inr ⟨last, hbehind, hlast⟩
      · exact Or.inr ⟨_, some event, rfl, rfl, hlt⟩

/-- Every piece of the stream keeps the last durable event in sight. -/
theorem Client.Informed.advance (hs : WellNumbered s.store) (hfollows : client.Follows s.store)
    (h : client.Informed s) : (client.advance s.store s.hub).Informed s := by
  obtain ⟨jobId, lastEventId, phase, emitted⟩ := client
  obtain ⟨hwithin, hopened, hrunning, hsight⟩ := h
  obtain ⟨_, hstate⟩ := hfollows
  -- the cursor the client came with stays what it was
  suffices hnext : ∀ client',
      client' = Client.advance s.store s.hub ⟨jobId, lastEventId, phase, emitted⟩ →
      Running s client' client'.phase ∧ InSight s client' from
    ⟨hwithin, hopened, (hnext _ rfl).1, (hnext _ rfl).2⟩
  intro client' hclient'
  cases phase with
  | connecting job cursor receiver =>
    obtain ⟨rfl, rfl, hnone⟩ := hstate
    rcases hpage : replayRequest cursor >>= replay s.store job with e | page
    · simp only [Client.advance, nextProgressItem, hpage] at hclient'
      subst hclient'
      exact ⟨trivial, Or.inl trivial⟩
    · simp only [Client.advance, nextProgressItem, hpage] at hclient'
      subst hclient'
      obtain ⟨hevents, hmore⟩ := replay_cursor_eq_ok hs hpage
      refine ⟨⟨hrunning, fun _ event hevent => ?_⟩, ?_⟩
      · dsimp only at hnone hevent
        rw [hnone, List.append_nil] at hevent
        cases hevent
      · rcases inSight_of_page hevents hmore with hreplay | hreached
        · exact Or.inl (Or.inr (Or.inl hreplay))
        · exact Or.inr ⟨_, rfl, Or.inl hreached⟩
  | polling state =>
    by_cases hdone : state.done = true
    · simp only [Client.advance, nextProgressItem, hdone, if_true] at hclient'
      subst hclient'
      exact ⟨trivial, Or.inl trivial⟩
    · rcases hpending : state.pending with _ | ⟨event, pending⟩
      · by_cases hreplay : state.replayMore = true
        · simp only [Client.advance, nextProgressItem, hdone, hpending, hreplay, if_true,
            Bool.false_eq_true, if_false, List.append_nil] at hclient'
          subst hclient'
          exact ⟨⟨hrunning.1, by simpa using hdone, hrunning.2 (by simpa using hdone)⟩,
            Or.inl trivial⟩
        · simp only [Client.advance, nextProgressItem, hdone, hpending, hreplay,
            Bool.false_eq_true, if_false, List.append_nil] at hclient'
          subst hclient'
          have hrunning' := hrunning.2 (by simpa using hdone)
          -- without a lag the last event is behind the stream or on its way
          have hsight' : ¬ s.hub.capacity < s.hub.sent.length - state.receiver →
              (progressOf s.store jobId).length ≤ state.cursor ∨
              ∃ event, OnItsWay s state.receiver event ∧ event.jobId = jobId ∧
                event.sequence = (progressOf s.store jobId).length := by
            intro hlag
            rcases hsight with hrereads | ⟨state', hphase, hreached | hway⟩
            · rcases hrereads with hend | hmore | hlag'
              · exact absurd hend hdone
              · exact absurd hmore hreplay
              · exact absurd hlag' hlag
            · cases hphase
              rw [hpending, List.length_nil, Nat.add_zero] at hreached
              exact Or.inl hreached
            · cases hphase
              exact Or.inr hway
          rcases receive_inSight hstate.job hrunning.1 hsight' with
            ⟨state', hreceive, _, hreceiver, hreached⟩ | ⟨state', candidate, hreceive, hend, hreceiver⟩
          · rw [hreceive]
            exact ⟨⟨hreceiver, fun _ => hrunning'⟩, Or.inr ⟨state', rfl, hreached⟩⟩
          · rw [hreceive]
            exact ⟨⟨hreceiver, by rw [hend]; simpa using hdone, hrunning'⟩, Or.inl trivial⟩
      · have hnext := hstate.next hs hpending
        have hbehind : ¬ event.sequence ≤ state.cursor := by omega
        simp only [Client.advance, nextProgressItem, hdone, hpending, hbehind,
          Bool.false_eq_true, if_false] at hclient'
        subst hclient'
        refine ⟨⟨hrunning.1, fun hopen other hother => ?_⟩, ?_⟩
        · rw [List.mem_append, List.mem_singleton] at hother
          rcases hother with hother | rfl
          · exact hrunning.2 (by simpa using hdone) other hother
          · simpa using hopen
        · rcases hsight with hrereads | ⟨state', hphase, hreached | hway⟩
          · exact Or.inl (Or.inr (hrereads.resolve_left hdone))
          · cases hphase
            refine Or.inr ⟨_, rfl, Or.inl ?_⟩
            rw [hpending, List.length_cons] at hreached
            show (progressOf s.store jobId).length ≤ event.sequence + pending.length
            dsimp only at hreached
            omega
          · cases hphase
            exact Or.inr ⟨_, rfl, Or.inr hway⟩
  | refilling state liveCandidate =>
    obtain ⟨hcontinuing, hpending, hcandidate⟩ := hstate
    rcases hrefill : state.refillFromDurable s.store with e | state'
    · simp only [Client.advance, nextProgressItem, hrefill] at hclient'
      subst hclient'
      exact ⟨trivial, Or.inl trivial⟩
    · obtain ⟨_, hcursor, hreceiver, hdone, hpage, hmore⟩ := hcontinuing.refill hs hpending hrefill
      have hadopt := adopt_eq_self hs hcandidate hpage
      simp only [Client.advance, nextProgressItem, hrefill, hadopt, List.append_nil] at hclient'
      subst hclient'
      refine ⟨⟨hreceiver ▸ hrunning.1, fun _ => hrunning.2.2⟩, ?_⟩
      rcases inSight_of_page hpage hmore with hreplay | hreached
      · exact Or.inl (Or.inr (Or.inl hreplay))
      · exact Or.inr ⟨_, rfl, Or.inl (hcursor ▸ hreached)⟩
  | closed =>
    simp only [Client.advance, nextProgressItem] at hclient'
    subst hclient'
    exact ⟨trivial, Or.inl trivial⟩

/-! ## Runs -/

/-- Every client is informed. -/
structure Attentive (s : LiveProgress) : Prop where
  faithful : Faithful s
  informed : ∀ client ∈ s.client, client.Informed s

/-- Before there is a client. -/
theorem Attentive.start (hub : ProgressLiveHub) : Attentive (.start hub) where
  faithful := .start hub
  informed := fun _ h => by cases h

/-- An attentive client at rest is up to date. -/
theorem Attentive.completeAtRest (hs : Attentive s) : CompleteAtRest s :=
  fun client hclient hrest => (hs.informed client hclient).upToDate hs.faithful hclient hrest

/-- An input that withholds nothing keeps every client informed. -/
theorem Attentive.step (hs : Attentive s) {input : LiveInput} (hinforms : Informs s input) :
    Attentive (liveStep s input) := by
  have hfaithful := hs.faithful.step input
  refine ⟨hfaithful, ?_⟩
  cases input with
  | durable input =>
    intro client hclient
    exact (hs.informed client hclient).commit (progressStep_appends s.store input).grows
      hfaithful.numbered (fun _ hevent => hevent)
      ((hinforms client hclient).imp_right Or.inl)
  | appendAndPublish event createdAt =>
    rcases happend : appendAt event createdAt s.store with ⟨e | committed, store⟩
    · rw [liveStep, happend, appendAt_eq_error happend]
      exact hs.informed
    · have hgrows := (appendAt_appends event createdAt s.store).grows
      rw [liveStep, happend] at hfaithful ⊢
      rw [happend] at hgrows
      obtain ⟨hnext, hsame, hother⟩ := appendAt_eq_ok happend
      intro client hclient
      refine (hs.informed client hclient).commit hgrows hfaithful.numbered
        (fun _ hevent => List.mem_append_left _ hevent) (Or.inr ?_)
      by_cases hjob : committed.jobId = client.jobId
      · refine Or.inr ⟨committed, by simp, hjob, ?_⟩
        rw [hnext.sequence, hs.faithful.numbered.lastSequence_eq, ← hjob, hsame]
        simp
      · exact Or.inl (by rw [hother _ hjob])
  | publish index =>
    rcases hget : s.unpublished[index]? with _ | event
    · simpa [liveStep, hget] using hs.informed
    · have hinformed : ∀ client ∈ s.client, client.Informed { s with
          hub := s.hub.publish event, unpublished := s.unpublished.eraseIdx index } :=
        fun client hclient => (hs.informed client hclient).publish hget
      simpa [liveStep, hget] using hinformed
  | abandon index =>
    intro client hclient
    exact (hs.informed client hclient).abandon (hinforms client hclient)
  | connect jobId lastEventId =>
    rcases hparse : parseLastEventId lastEventId with _ | cursor
    · simpa [liveStep, hparse] using hs.informed
    · rw [liveStep, hparse]
      intro client hclient
      cases hclient
      obtain ⟨hwithin, hopened⟩ := hinforms cursor hparse
      exact ⟨hwithin, hopened, le_rfl, Or.inl trivial⟩
  | advance =>
    intro client hclient
    rw [liveStep, Option.mem_def, Option.map_eq_some_iff] at hclient
    obtain ⟨before, hbefore, rfl⟩ := hclient
    have hinformed := (hs.informed before hbefore).advance hs.faithful.numbered
      (hs.faithful.client before hbefore)
    exact ⟨hinformed.within, hinformed.opened, hinformed.running, hinformed.inSight⟩

/-- Live progress is complete at rest in every run that withholds no event from
the stream of its client. -/
theorem progress_completeAtRest_throughout (hub : ProgressLiveHub) (inputs : List LiveInput)
    (hinforms : Meets liveStep Informs (.start hub) inputs) :
    Throughout liveStep CompleteAtRest (.start hub) inputs := by
  have hattentive : Throughout liveStep Attentive (.start hub) inputs :=
    throughout_of_meets (I := fun _ => True) (fun _ _ _ => trivial)
      (fun s input _ hs hinput => hs.step hinput) trivial (.start hub) hinforms
  exact hattentive.mono fun s hs => hs.completeAtRest

/-- A production job that is executed, with a client that follows it. -/
def followedProduction : List LiveInput :=
  [.durable (.queue (.operation (.createProductionRun 1
      ⟨.productionRun, .crawlerVersion, 1, 1⟩
      ⟨1, .productionCrawl, 0, none, none, 0, 1⟩ 0))),
    .durable (.queue (.operation (.acquireNext "worker" 0 60 true ⟨1, 1⟩))),
    .connect 1 none, .advance]

/-- The service publishes the end of the job, and the client is told. -/
theorem progress_completeAtRest_throughout_published :
    Meets liveStep Informs (.start ⟨16, by decide, []⟩) (followedProduction ++
        [.appendAndPublish (terminalEvent 1 .succeeded) 1, .publish 0, .advance, .advance]) ∧
      Throughout liveStep CompleteAtRest (.start ⟨16, by decide, []⟩) (followedProduction ++
        [.appendAndPublish (terminalEvent 1 .succeeded) 1, .publish 0, .advance, .advance]) := by
  have hinforms : Meets liveStep Informs (.start ⟨16, by decide, []⟩) (followedProduction ++
      [.appendAndPublish (terminalEvent 1 .succeeded) 1, .publish 0, .advance, .advance]) := by
    decide +kernel
  exact ⟨hinforms, progress_completeAtRest_throughout _ _ hinforms⟩

/-- The queue fails the job and closes its stream, and nobody tells the client. -/
theorem progress_not_completeAtRest :
    ¬ Throughout liveStep CompleteAtRest (.start ⟨16, by decide, []⟩) (followedProduction ++
      [.durable (.queue (.operation (.failTerminalProduction 1 ⟨1, "worker", 1, 0, 60, 0⟩ 1
        .handlerFailed)))]) := by
  intro h
  exact absurd h.atEnd (by decide +kernel)

end Erabi.Progress
