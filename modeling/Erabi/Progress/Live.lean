/-
# Live progress

The replayable progress stream of one job.  Events are committed first and
published to a bounded live hub afterwards, late, out of order or not at all; a
client subscribes, replays the durable stream after its cursor, and then follows
the hub, reading the durable stream again whenever the hub left something out.

Every piece of the stream between two suspension points is one step here, so
commits and publications fall between any two of them.  Clients do not influence
each other, and one of them is modelled.
-/
import Mathlib
import Erabi.Progress.Stream

namespace Erabi.Progress

open Relational Transaction Queue Transition

/-! ## The live hub -/

/-- The bounded in-process fan-out.  A receiver stands at a position of the
events sent so far; the channel retains the last `capacity` of them. -/
structure ProgressLiveHub where
  capacity : ℕ
  retains : 0 < capacity
  sent : List ProgressEvent

namespace ProgressLiveHub

/-- A subscription starts behind everything that was sent. -/
def subscribe (hub : ProgressLiveHub) : ℕ := hub.sent.length

/-- An event is sent to the subscribers. -/
def publish (hub : ProgressLiveHub) (event : ProgressEvent) : ProgressLiveHub :=
  { hub with sent := hub.sent ++ [event] }

/-- What a receiver gets: an event, the notice that it lagged behind the retained
events, or nothing yet. -/
inductive Received : Type where
  | event (event : ProgressEvent)
  | lagged
  | nothing
  deriving DecidableEq

/-- A lagging receiver continues with the oldest retained event. -/
def recv (hub : ProgressLiveHub) (receiver : ℕ) : Received × ℕ :=
  if hub.capacity < hub.sent.length - receiver then
    (.lagged, hub.sent.length - hub.capacity)
  else
    match hub.sent[receiver]? with
    | some event => (.event event, receiver + 1)
    | none => (.nothing, receiver)

end ProgressLiveHub

/-! ## The stream of one client -/

/-- How many events a page of replay has. -/
def replayPageSize : ℕ := 256

/-- The cursor of a request: zero without the header, otherwise a positive decimal
number of 64 bits. -/
def parseLastEventId : Option String → Option ℕ
  | none => some 0
  | some value =>
    if !value.isEmpty && value.toList.all Char.isDigit then
      let cursor := value.toList.foldl (fun n c => 10 * n + (c.toNat - '0'.toNat)) 0
      if cursor ≤ u64Max ∧ cursor ≠ 0 then some cursor else none
    else none

/-- The request for the next page. -/
def replayRequest (cursor : ℕ) : Except ProgressRepositoryError ProgressReplayRequest :=
  ProgressReplayRequest.new (if cursor = 0 then none else some cursor) replayPageSize

/-- What a stream has still to emit. -/
structure ProgressStreamState where
  jobId : JobId
  receiver : ℕ
  cursor : ℕ
  pending : List ProgressEvent
  replayMore : Bool
  done : Bool

namespace ProgressStreamState

/-- Reads the next durable page behind the cursor. -/
def refillFromDurable (store : QueueStore) (state : ProgressStreamState) :
    Except ProgressRepositoryError ProgressStreamState := do
  let request ← replayRequest state.cursor
  let page ← replay store state.jobId request
  return { state with
    replayMore := page.nextAfter.isSome
    pending := state.pending ++ page.events.filter fun event => state.cursor < event.sequence }

/-- A live candidate that the durable page did not bring is taken as it came. -/
def adopt (state : ProgressStreamState) : Option ProgressEvent → ProgressStreamState
  | none => state
  | some candidate =>
    if state.pending.isEmpty ∧ state.cursor < candidate.sequence then
      { state with pending := [candidate] }
    else state

end ProgressStreamState

/-- Where a stream is suspended. -/
inductive StreamPhase : Type where
  /-- Subscribed, in front of the initial replay. -/
  | connecting (jobId : JobId) (cursor receiver : ℕ)
  /-- At the top of the loop of `next_progress_item`. -/
  | polling (state : ProgressStreamState)
  /-- In front of a durable read, with the live event that asked for it. -/
  | refilling (state : ProgressStreamState) (liveCandidate : Option ProgressEvent)
  | closed

/-- What follows the reception of a live notification. -/
def receive (hub : ProgressLiveHub) (state : ProgressStreamState) : StreamPhase :=
  match hub.recv state.receiver with
  | (.nothing, _) => .polling state
  | (.lagged, receiver) => .refilling { state with receiver } none
  | (.event event, receiver) =>
    if event.jobId ≠ state.jobId ∨ event.sequence ≤ state.cursor then
      .polling { state with receiver }
    else if state.cursor < u64Max ∧ event.sequence = state.cursor + 1 then
      .polling { state with receiver, pending := [event] }
    else .refilling { state with receiver } (some event)

/-- One piece of `next_progress_item`, and the events it emits. -/
def nextProgressItem (store : QueueStore) (hub : ProgressLiveHub) :
    StreamPhase → StreamPhase × List ProgressEvent
  | .connecting jobId cursor receiver =>
    match replayRequest cursor >>= replay store jobId with
    | .error _ => (.closed, [])
    | .ok page => (.polling
        { jobId, receiver, cursor, pending := page.events
          replayMore := page.nextAfter.isSome, done := false }, [])
  | .polling state =>
    if state.done then (.closed, [])
    else
      match state.pending with
      | event :: pending =>
        if event.sequence ≤ state.cursor then (.polling { state with pending }, [])
        else (.polling { state with
          cursor := event.sequence, pending, done := event.terminal.isSome }, [event])
      | [] => if state.replayMore then (.refilling state none, []) else (receive hub state, [])
  | .refilling state liveCandidate =>
    match state.refillFromDurable store with
    | .error _ => (.closed, [])
    | .ok state => (.polling (state.adopt liveCandidate), [])
  | .closed => (.closed, [])

/-! ## The system -/

/-- A client with the cursor it came with and the events it was sent. -/
structure Client where
  jobId : JobId
  lastEventId : ℕ
  phase : StreamPhase
  emitted : List ProgressEvent

/-- The store, the live hub and a client. -/
structure LiveProgress where
  store : QueueStore
  /-- Committed by `append_and_publish_at`, with the publication still to come. -/
  unpublished : List ProgressEvent
  hub : ProgressLiveHub
  client : Option Client

/-- What may happen next. -/
inductive LiveInput : Type where
  /-- A commit that nobody publishes. -/
  | durable (input : ProgressInput)
  /-- The commit of `append_and_publish_at`. -/
  | appendAndPublish (event : NewProgressEvent) (createdAt : ℤ)
  /-- The publication of one of the committed events. -/
  | publish (index : ℕ)
  /-- A publication that fails, or whose task ends before it. -/
  | abandon (index : ℕ)
  /-- A request for the stream of a job; it replaces the client. -/
  | connect (jobId : JobId) (lastEventId : Option String)
  /-- The client is scheduled. -/
  | advance

/-- One scheduled piece of the client's stream. -/
def Client.advance (store : QueueStore) (hub : ProgressLiveHub) (client : Client) : Client :=
  { client with
    phase := (nextProgressItem store hub client.phase).1
    emitted := client.emitted ++ (nextProgressItem store hub client.phase).2 }

/-- One input of the system. -/
def liveStep (s : LiveProgress) : LiveInput → LiveProgress
  | .durable input => { s with store := progressStep s.store input }
  | .appendAndPublish event createdAt =>
    match appendAt event createdAt s.store with
    | (.error _, store) => { s with store }
    | (.ok committed, store) => { s with store, unpublished := s.unpublished ++ [committed] }
  | .publish index =>
    match s.unpublished[index]? with
    | none => s
    | some event => { s with
        hub := s.hub.publish event, unpublished := s.unpublished.eraseIdx index }
  | .abandon index => { s with unpublished := s.unpublished.eraseIdx index }
  | .connect jobId lastEventId =>
    match parseLastEventId lastEventId with
    | none => s
    | some cursor =>
      let client : Client :=
        { jobId, lastEventId := cursor, phase := .connecting jobId cursor s.hub.subscribe
          emitted := [] }
      { s with client := some client }
  | .advance => { s with client := s.client.map (Client.advance s.store s.hub) }

/-- The system before any request, with a fresh hub of the same capacity. -/
def LiveProgress.start (hub : ProgressLiveHub) : LiveProgress where
  store := .empty
  unpublished := []
  hub := { hub with sent := [] }
  client := none

end Erabi.Progress
