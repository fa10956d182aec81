/-
# The progress repository

The persistence boundary of user-facing job progress: one event is appended under
an immediate transaction that allocates its sequence, and events are replayed in
bounded pages after a cursor.
-/
import Mathlib
import Erabi.Queue.Statements

namespace Erabi.Progress

open Relational Transaction Queue

/-- Typed progress persistence failures. -/
inductive ProgressRepositoryError : Type where
  | database
  | invalidProgressSequence
  | invalidReplayRequest
  | jobNotFound
  | attemptNotFound
  | attemptJobMismatch
  | terminalStreamClosed
  | progressInvariant
  deriving DecidableEq, Repr

/-- One immediate transaction of the progress repository. -/
abbrev ProgressTx (α : Type) := Transaction QueueStore ProgressRepositoryError α

/-! ## Append -/

/-- The job is there. -/
def ensureJobExists (jobId : JobId) : ProgressTx Unit := do
  let store ← read
  require (store.jobs.find? jobId).isSome .jobNotFound

/-- A named attempt is one of the job. -/
def ensureAttemptBelongsToJob (event : NewProgressEvent) : ProgressTx Unit := do
  match event.attemptId with
  | none => return ()
  | some attemptId =>
    let store ← read
    let attempt ← orFail (store.attempts.find? attemptId) .attemptNotFound
    require (attempt.jobId = event.jobId) .attemptJobMismatch

/-- The stream is open while its last event is not terminal. -/
def ensureStreamOpen (jobId : JobId) : ProgressTx Unit := do
  let store ← read
  require ((store.progress.find? (jobId, lastSequence store jobId)).bind
    ProgressEvent.terminal = none) .terminalStreamClosed

/-- The next number of the stream. -/
def allocateSequence (jobId : JobId) : ProgressTx ℕ := do
  let store ← read
  let next ← orFail (checkedAddI64 (lastSequence store jobId) 1) .progressInvariant
  return next.toNat

/-- Appends one validated event to an existing transaction.  The queue shares it
for its terminal events. -/
def appendInTransaction (event : NewProgressEvent) (createdAt : ℤ) :
    ProgressTx ProgressEvent := do
  ensureJobExists event.jobId
  ensureAttemptBelongsToJob event
  ensureStreamOpen event.jobId
  let sequence ← allocateSequence event.jobId
  let committed := event.stored sequence createdAt
  let store ← read
  let progress ← orFail (store.progress.insert? committed) .database
  write fun s => { s with progress }
  return committed

/-- Appends one event in a transaction of its own. -/
def appendAt (event : NewProgressEvent) (createdAt : ℤ) (store : QueueStore) :
    Except ProgressRepositoryError ProgressEvent × QueueStore :=
  (appendInTransaction event createdAt).commit store

/-- The sole terminal event of a stream. -/
def terminalEvent (jobId : JobId) (terminal : ProgressTerminalState) : NewProgressEvent where
  jobId := jobId
  attemptId := none
  key := .completed
  metadata := []
  terminal := some terminal

/-! ## Replay -/

/-- How many events a page may have. -/
def maxReplayLimit : ℕ := 256

/-- Validated bounded replay input; `after` is exclusive. -/
structure ProgressReplayRequest where
  after : Option ℕ
  limit : ℕ
  bounded : 0 < limit ∧ limit ≤ maxReplayLimit

/-- A request within the limit. -/
def ProgressReplayRequest.new (after : Option ℕ) (limit : ℕ) :
    Except ProgressRepositoryError ProgressReplayRequest :=
  if h : 0 < limit ∧ limit ≤ maxReplayLimit then .ok ⟨after, limit, h⟩
  else .error .invalidReplayRequest

/-- One bounded page in sequence order. -/
structure ProgressReplayPage where
  events : List ProgressEvent
  /-- The exclusive cursor of a following page, when more events exist. -/
  nextAfter : Option ℕ

/-- The stored events of a job after a sequence, in sequence order. -/
def storedAfter (store : QueueStore) (jobId : JobId) (after : ℕ) : List ProgressEvent :=
  (store.progress.select fun event => event.jobId = jobId && after < event.sequence).insertionSort
    fun a b => a.sequence ≤ b.sequence

/-- Reads one page.  One row more than the page holds is fetched to see whether
more events exist. -/
def replay (store : QueueStore) (jobId : JobId) (request : ProgressReplayRequest) :
    Except ProgressRepositoryError ProgressReplayPage := do
  if (store.jobs.find? jobId).isNone then throw .jobNotFound
  let after := request.after.getD 0
  if i64Max < (after : ℤ) then throw .invalidReplayRequest
  let rows := (storedAfter store jobId after).take (request.limit + 1)
  let events := rows.take request.limit
  return ⟨events, if request.limit < rows.length then events.getLast?.map ProgressEvent.sequence
    else none⟩

/-! ## What an append does -/

variable {s s' : QueueStore} {event : NewProgressEvent} {createdAt : ℤ} {committed : ProgressEvent}

/-- The check of the attempt changes nothing. -/
theorem ensureAttemptBelongsToJob_eq_ok {u : Unit}
    (h : ensureAttemptBelongsToJob event s = .ok (u, s')) : s' = s := by
  unfold ensureAttemptBelongsToJob at h
  rcases hattempt : event.attemptId with _ | attemptId
  · rw [hattempt] at h
    cases h
    rfl
  · rw [hattempt] at h
    dsimp only at h
    rw [read_bind] at h
    obtain ⟨_, _, h⟩ := orFail_bind_eq_ok.mp h
    exact (require_eq_ok.mp h).2

/-- The next number follows the last one. -/
theorem allocateSequence_eq_ok {jobId : JobId} {sequence : ℕ}
    (h : allocateSequence jobId s = .ok (sequence, s')) :
    sequence = lastSequence s jobId + 1 ∧ (sequence : ℤ) ≤ i64Max ∧ s' = s := by
  rw [allocateSequence, read_bind] at h
  obtain ⟨next, hnext, h⟩ := orFail_bind_eq_ok.mp h
  cases h
  have hadd := checkedAddI64_eq_some hnext
  have hfits := checkedAddI64_le hnext
  exact ⟨by omega, by omega, rfl⟩

/-- A committed append adds the next event of an open stream. -/
theorem appendInTransaction_eq_ok
    (h : appendInTransaction event createdAt s = .ok (committed, s')) :
    ComesNext s committed ∧
      committed = event.stored (lastSequence s event.jobId + 1) createdAt ∧
      ∃ progress, s.progress.insert? committed = some progress ∧ s' = { s with progress } := by
  unfold appendInTransaction at h
  obtain ⟨_, s₁, hjob, hafterJob⟩ := bind_eq_ok.mp h
  rw [ensureJobExists, read_bind, require_eq_ok] at hjob
  obtain ⟨hjob, rfl⟩ := hjob
  obtain ⟨_, s₂, hattempt, hafterAttempt⟩ := bind_eq_ok.mp hafterJob
  obtain rfl := ensureAttemptBelongsToJob_eq_ok hattempt
  obtain ⟨_, s₃, hopen, hafterOpen⟩ := bind_eq_ok.mp hafterAttempt
  rw [ensureStreamOpen, read_bind, require_eq_ok] at hopen
  obtain ⟨hopen, rfl⟩ := hopen
  obtain ⟨sequence, s₄, hsequence, hinsert⟩ := bind_eq_ok.mp hafterOpen
  obtain ⟨rfl, hfits, rfl⟩ := allocateSequence_eq_ok hsequence
  rw [read_bind] at hinsert
  obtain ⟨progress, hprogress, hreturn⟩ := orFail_bind_eq_ok.mp hinsert
  rw [write_bind] at hreturn
  cases hreturn
  exact ⟨⟨hjob, rfl, hfits, hopen⟩, rfl, progress, hprogress, rfl⟩

/-- An append that names no attempt commits the next event of an open stream. -/
theorem appendInTransaction_of_comesNext {next : ℤ} {progress : Table ProgressEvent (JobId × ℕ)
      fun event => (event.jobId, event.sequence)}
    (hattempt : event.attemptId = none) (hjob : (s.jobs.find? event.jobId).isSome)
    (hopen : (s.progress.find? (event.jobId, lastSequence s event.jobId)).bind
      ProgressEvent.terminal = none)
    (hnext : checkedAddI64 (lastSequence s event.jobId) 1 = some next)
    (hinsert : s.progress.insert? (event.stored next.toNat createdAt) = some progress) :
    appendInTransaction event createdAt s =
      .ok (event.stored next.toNat createdAt, { s with progress }) := by
  have hfree : ensureAttemptBelongsToJob event s = .ok ((), s) := by
    unfold ensureAttemptBelongsToJob
    rw [hattempt]
    rfl
  have hexists : ensureJobExists event.jobId s = .ok ((), s) := by
    rw [ensureJobExists, read_bind, require_eq_ok]
    exact ⟨hjob, rfl⟩
  have hopened : ensureStreamOpen event.jobId s = .ok ((), s) := by
    rw [ensureStreamOpen, read_bind, require_eq_ok]
    exact ⟨hopen, rfl⟩
  have hallocated : allocateSequence event.jobId s = .ok (next.toNat, s) := by
    rw [allocateSequence, read_bind]
    exact orFail_bind_eq_ok.mpr ⟨next, hnext, rfl⟩
  rw [appendInTransaction, bind_of_ok hexists, bind_of_ok hfree, bind_of_ok hopened,
    bind_of_ok hallocated, read_bind]
  exact orFail_bind_eq_ok.mpr ⟨progress, hinsert, rfl⟩

/-- The queue appends its terminal events as the repository does. -/
theorem appendProgress_appends {jobId : JobId} {terminal : ProgressTerminalState} {now : ℤ}
    {u : Unit} (h : appendProgress jobId (some terminal) now s = .ok (u, s')) :
    ∃ committed, appendInTransaction (terminalEvent jobId terminal) now s = .ok (committed, s') := by
  obtain ⟨hjob, hopen, next, progress, hnext, hinsert, rfl⟩ := appendProgress_eq_ok h
  exact ⟨_, appendInTransaction_of_comesNext rfl hjob hopen hnext hinsert⟩

end Erabi.Progress
