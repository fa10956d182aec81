/-
# The robots cache and the fetches in flight

Clients that need the robots document of an origin look into the shared cache first
and into the table of running fetches afterwards; who finds neither fetches the
document.  The two tables have a lock each, so that every section under a lock is one
step of its client, and the steps of all clients interleave.  A client may go away at
every step that waits.
-/
import Mathlib
import Erabi.Pacing.System
import Erabi.Relational.Table
import Erabi.Transition.Run

namespace Erabi.Robots

open Pacing Relational Transition

/-- Ten minutes in nanoseconds. -/
def robotsCacheTtl : Duration := 600000000000

/-- How many documents the cache keeps. -/
def maxRobotsCacheEntries : ℕ := 256

/-- Where a policy came from. -/
inductive RobotsPolicyEvidence : Type where
  | networkPolicy | cache | notFound | accessDenied
  deriving DecidableEq, Repr

/-! ## The cache -/

/-- A cached document. -/
structure CacheEntry (Document : Type) where
  origin : OriginKey
  document : Document
  expiresAt : Instant
  evidence : RobotsPolicyEvidence
  deriving DecidableEq

/-- The cache, by origin. -/
abbrev RobotsCache (Document : Type) :=
  Table (CacheEntry Document) OriginKey CacheEntry.origin

namespace RobotsCache

variable {Document : Type}

/-- The entries that have not expired. -/
def retain (cache : RobotsCache Document) (now : Instant) : RobotsCache Document :=
  cache.delete fun entry => entry.expiresAt ≤ now

/-- Drops the expired entries; what is left of the origin is the result. -/
def get (cache : RobotsCache Document) (origin : OriginKey) (now : Instant) :
    RobotsCache Document × Option (CacheEntry Document) :=
  (cache.retain now, (cache.retain now).find? origin)

/-- The entry that expires first, the smallest origin among equals. -/
def eviction (cache : RobotsCache Document) : Option (CacheEntry Document) :=
  cache.rows.argmin fun entry => toLex (entry.expiresAt, entry.origin)

/-- Caches a document, in the place of another when the cache is full. -/
def insert (cache : RobotsCache Document) (entry : CacheEntry Document) (now : Instant) :
    RobotsCache Document :=
  let cache := cache.retain now
  if cache.find? entry.origin = none ∧ maxRobotsCacheEntries ≤ cache.rows.length then
    match cache.eviction with
    | some evicted => (cache.delete fun other => other.origin = evicted.origin).put entry
    | none => cache.put entry
  else cache.put entry

/-- No other entry comes in with an insertion. -/
theorem mem_insert {cache : RobotsCache Document} {entry other : CacheEntry Document}
    {now : Instant} (h : other ∈ (cache.insert entry now).rows) :
    other ∈ cache.rows ∨ other = entry := by
  have hretain : ∀ e ∈ (cache.retain now).rows, e ∈ cache.rows := fun e he =>
    (Table.mem_delete.mp he).1
  unfold insert at h
  dsimp only at h
  split at h
  · split at h
    · rcases Table.mem_put.mp h with ⟨hother, _⟩ | hother
      · exact Or.inl (hretain other (Table.mem_delete.mp hother).1)
      · exact Or.inr hother
    · rcases Table.mem_put.mp h with ⟨hother, _⟩ | hother
      · exact Or.inl (hretain other hother)
      · exact Or.inr hother
  · rcases Table.mem_put.mp h with ⟨hother, _⟩ | hother
    · exact Or.inl (hretain other hother)
    · exact Or.inr hother

end RobotsCache

/-! ## Clients -/

/-- Names a client. -/
abbrev ClientId := ℕ

/-- The channel on which the end of a fetch is announced. -/
abbrev FlightId := ℕ

/-- Where a client is in `cached_or_fetch_document`. -/
inductive ClientPhase (Document : Type) : Type where
  | idle
  /-- The clock has been read for the look into the cache. -/
  | reading (origin : OriginKey) (now : Instant)
  /-- The cache had no entry when it had been filled `seen` times. -/
  | missed (origin : OriginKey) (seen : ℕ)
  | following (origin : OriginKey) (flight : FlightId)
  | fetching (origin : OriginKey)
  /-- The response was accepted, and the clock has been read for its expiry. -/
  | filling (origin : OriginKey) (document : Document) (evidence : RobotsPolicyEvidence)
      (now : Instant)
  /-- The fetch is over; the guard of the flight is dropped next. -/
  | finishing (origin : OriginKey)
  deriving DecidableEq

/-- The origin a client holds the guard of the flight for. -/
def ClientPhase.flight {Document : Type} : ClientPhase Document → Option OriginKey
  | .fetching origin | .filling origin .. | .finishing origin => some origin
  | .idle | .reading .. | .missed .. | .following .. => none

/-- A fetch that was started, and whether the cache held an entry of its origin that
had not expired. -/
structure FetchStart where
  origin : OriginKey
  cached : Bool
  deriving DecidableEq, Repr

/-- The cache, the flights and the clients. -/
structure RobotsSystem (Document : Type) where
  clock : Instant
  maxInstant : Instant
  cache : RobotsCache Document
  inFlight : Table (OriginKey × FlightId) OriginKey Prod.fst
  nextFlight : FlightId
  clients : ClientId → ClientPhase Document
  /-- The origins for which the cache was filled, in order. -/
  fills : List OriginKey
  starts : List FetchStart

/-- Nothing cached and nobody asking. -/
def RobotsSystem.initial (Document : Type) (maxInstant : Instant) : RobotsSystem Document :=
  ⟨0, maxInstant, .empty, .empty, 0, fun _ => .idle, [], []⟩

/-! ## Steps -/

/-- What may happen next. -/
inductive Input (Document : Type) : Type where
  | tick (elapsed : Duration)
  | evaluate (client : ClientId) (origin : OriginKey)
  | consult (client : ClientId)
  | elect (client : ClientId)
  /-- The fetch that the client follows has ended. -/
  | wake (client : ClientId)
  | respond (client : ClientId) (document : Document) (evidence : RobotsPolicyEvidence)
  | fill (client : ClientId)
  /-- The fetch fails: the target, the pacing, the transport or the policy. -/
  | failed (client : ClientId)
  | finish (client : ClientId)
  /-- The client is cancelled, or its future is dropped. -/
  | abandon (client : ClientId)

namespace RobotsSystem

variable {Document : Type} (s : RobotsSystem Document)

/-- A client enters a phase. -/
def enter (client : ClientId) (phase : ClientPhase Document) : RobotsSystem Document :=
  { s with clients := Function.update s.clients client phase }

/-- The cache holds an entry of the origin that has not expired. -/
def holdsEntry (origin : OriginKey) : Bool :=
  (s.cache.find? origin).any fun entry => s.clock < entry.expiresAt

/-- Forgets the flight and goes on: the end of the guard. -/
def dropFlight (client : ClientId) (origin : OriginKey) : RobotsSystem Document :=
  { s with inFlight := s.inFlight.delete fun flight => flight.1 = origin }.enter client .idle

/-- The look into the cache. -/
def consult (client : ClientId) (origin : OriginKey) (now : Instant) : RobotsSystem Document :=
  match s.cache.get origin now with
  | (cache, some _) => { s with cache }.enter client .idle
  | (cache, none) => { s with cache }.enter client (.missed origin s.fills.length)

/-- The look into the table of running fetches: the client follows the one it finds,
or starts one. -/
def elect (client : ClientId) (origin : OriginKey) : RobotsSystem Document :=
  match s.inFlight.find? origin with
  | some flight => s.enter client (.following origin flight.2)
  | none =>
    let start : FetchStart := ⟨origin, s.holdsEntry origin⟩
    { s with
      inFlight := s.inFlight.put (origin, s.nextFlight)
      nextFlight := s.nextFlight + 1
      starts := s.starts ++ [start] }.enter client (.fetching origin)

/-- The end of a successful fetch, unless the expiry is past the clock. -/
def fill (client : ClientId) (origin : OriginKey) (document : Document)
    (evidence : RobotsPolicyEvidence) (now : Instant) : RobotsSystem Document :=
  if now + robotsCacheTtl ≤ s.maxInstant then
    let entry : CacheEntry Document := ⟨origin, document, now + robotsCacheTtl, evidence⟩
    { s with cache := s.cache.insert entry now, fills := s.fills ++ [origin] }.enter client
      (.finishing origin)
  else s.enter client (.finishing origin)

/-- One input of the system. -/
def step (s : RobotsSystem Document) : Input Document → RobotsSystem Document
  | .tick elapsed => { s with clock := s.clock + elapsed }
  | .evaluate client origin =>
    match s.clients client with
    | .idle => s.enter client (.reading origin s.clock)
    | _ => s
  | .consult client =>
    match s.clients client with
    | .reading origin now => s.consult client origin now
    | _ => s
  | .elect client =>
    match s.clients client with
    | .missed origin _ => s.elect client origin
    | _ => s
  | .wake client =>
    match s.clients client with
    | .following origin flight =>
      if s.inFlight.find? origin = some (origin, flight) then s
      else s.enter client (.reading origin s.clock)
    | _ => s
  | .respond client document evidence =>
    match s.clients client with
    | .fetching origin => s.enter client (.filling origin document evidence s.clock)
    | _ => s
  | .fill client =>
    match s.clients client with
    | .filling origin document evidence now => s.fill client origin document evidence now
    | _ => s
  | .failed client =>
    match s.clients client with
    | .fetching origin => s.enter client (.finishing origin)
    | _ => s
  | .finish client =>
    match s.clients client with
    | .finishing origin => s.dropFlight client origin
    | _ => s
  | .abandon client =>
    match (s.clients client).flight with
    | some origin => s.dropFlight client origin
    | none => s.enter client .idle

end RobotsSystem

end Erabi.Robots
