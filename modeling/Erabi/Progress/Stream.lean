/-
# Durable progress streams

Progress events reach the store on several paths: the progress service, the
terminal failures of the queue, the repair of terminal progress and the startup
reconciliation.  Whatever the order of these paths, the events of one job form a
numbered log that only ever grows and that nothing follows once it is closed.
-/
import Mathlib
import Erabi.Log.Numbered
import Erabi.Progress.Repository

namespace Erabi.Progress

open Relational Transaction Queue Transition

/-! ## Streams -/

/-- The stored events of a job, in the order they were committed. -/
def progressOf (store : QueueStore) (jobId : JobId) : List ProgressEvent :=
  store.progress.select fun event => event.jobId = jobId

/-- The event is a terminal one. -/
def closesStream (event : ProgressEvent) : Bool := event.terminal.isSome

/-- The stream of every job is numbered `1, 2, …`, and only its last event may be
terminal. -/
def WellNumbered (store : QueueStore) : Prop :=
  ∀ jobId, Log.Numbered ProgressEvent.sequence closesStream (progressOf store jobId)

/-- From `s` to `s'` no stored event is changed, lost or preceded by another. -/
def Extends (s s' : QueueStore) : Prop := ∀ jobId, progressOf s jobId <+: progressOf s' jobId

variable {new : JobRecord → Prop} {s s' s'' : QueueStore} {jobId : JobId} {event : ProgressEvent}

/-- Streams are unchanged with their table. -/
theorem Extends.of_progress (h : s'.progress = s.progress) : Extends s s' := by
  intro jobId
  rw [progressOf, progressOf, h]

theorem Extends.refl (s : QueueStore) : Extends s s := .of_progress rfl

theorem Extends.trans (h : Extends s s') (h' : Extends s' s'') : Extends s s'' :=
  fun jobId => (h jobId).trans (h' jobId)

/-- The numbering depends on the table of progress. -/
theorem WellNumbered.of_progress (hs : WellNumbered s) (h : s'.progress = s.progress) :
    WellNumbered s' := by
  intro jobId
  rw [progressOf, h]
  exact hs jobId

theorem WellNumbered.empty : WellNumbered .empty := fun _ => .nil

/-- The events of a job. -/
theorem mem_progressOf : event ∈ progressOf s jobId ↔
    event ∈ s.progress.rows ∧ event.jobId = jobId := by
  rw [progressOf, Table.mem_select, decide_eq_true_eq]

/-- The largest stored sequence is the number of stored events. -/
theorem WellNumbered.lastSequence_eq (hs : WellNumbered s) (jobId : JobId) :
    lastSequence s jobId = (progressOf s jobId).length := (hs jobId).foldr_max

/-- The row of a sequence is the event at that position. -/
theorem WellNumbered.find?_eq_some (hs : WellNumbered s) {sequence : ℕ} :
    s.progress.find? (jobId, sequence) = some event ↔
      1 ≤ sequence ∧ (progressOf s jobId)[sequence - 1]? = some event := by
  rw [Table.find?_eq_some, Prod.mk.injEq]
  constructor
  · rintro ⟨hrow, hjob, rfl⟩
    have hevent := (hs jobId).getElem?_number (mem_progressOf.mpr ⟨hrow, hjob⟩)
    exact ⟨hevent.1, hevent.2.2⟩
  · rintro ⟨hpos, hget⟩
    obtain ⟨hlt, rfl⟩ := List.getElem?_eq_some_iff.mp hget
    have hmem := mem_progressOf.mp (List.getElem_mem hlt)
    exact ⟨hmem.1, hmem.2, by rw [(hs jobId).number_getElem hlt]; omega⟩

/-! ## One append -/

/-- The stream of a job after an insertion. -/
theorem progressOf_insert {progress : Table ProgressEvent (JobId × ℕ)
      fun event => (event.jobId, event.sequence)} (h : s.progress.insert? event = some progress) :
    progressOf { s with progress } jobId =
      if event.jobId = jobId then progressOf s jobId ++ [event] else progressOf s jobId := by
  rw [progressOf, progressOf, Table.select, Table.select, (Table.insert?_eq_some.mp h).2,
    List.filter_append]
  by_cases hjob : event.jobId = jobId
  · simp [hjob]
  · simp [hjob]

/-- The event that comes next continues the numbering of an open stream. -/
theorem WellNumbered.insert (hs : WellNumbered s) (hnext : ComesNext s event)
    {progress : Table ProgressEvent (JobId × ℕ) fun event => (event.jobId, event.sequence)}
    (h : s.progress.insert? event = some progress) : WellNumbered { s with progress } := by
  intro jobId
  rw [progressOf_insert h]
  by_cases hjob : event.jobId = jobId
  · subst hjob
    rw [if_pos rfl]
    have hlength := hs.lastSequence_eq event.jobId
    refine (hs event.jobId).append (by rw [hnext.sequence, hlength]) fun last hlast => ?_
    rw [List.getLast?_eq_getElem?] at hlast
    have hpos : 0 < (progressOf s event.jobId).length := by
      obtain ⟨hlt, _⟩ := List.getElem?_eq_some_iff.mp hlast
      omega
    have hopened := hnext.opened
    rw [hs.find?_eq_some.mpr ⟨by omega, by rw [hlength]; exact hlast⟩, Option.bind_some] at hopened
    rw [closesStream, hopened, Option.isSome_none]
  · rw [if_neg hjob]
    exact hs jobId

/-- An insertion extends a stream. -/
theorem Extends.insert {progress : Table ProgressEvent (JobId × ℕ)
      fun event => (event.jobId, event.sequence)} (h : s.progress.insert? event = some progress) :
    Extends s { s with progress } := by
  intro jobId
  rw [progressOf_insert h]
  split
  · exact List.prefix_append _ _
  · exact List.prefix_rfl

/-! ## Statements and operations -/

/-- The streams stay numbered and only grow. -/
structure Appends (s s' : QueueStore) : Prop where
  numbered : WellNumbered s → WellNumbered s'
  grows : Extends s s'

theorem Appends.of_progress (h : s'.progress = s.progress) : Appends s s' where
  numbered hs := hs.of_progress h
  grows := .of_progress h

theorem Appends.trans (h : Appends s s') (h' : Appends s' s'') : Appends s s'' where
  numbered hs := h'.numbered (h.numbered hs)
  grows := h.grows.trans h'.grows

/-- Appending the event that comes next. -/
theorem Appends.of_insert (hnext : ComesNext s event)
    {progress : Table ProgressEvent (JobId × ℕ) fun event => (event.jobId, event.sequence)}
    (h : s.progress.insert? event = some progress) : Appends s { s with progress } where
  numbered hs := hs.insert hnext h
  grows := .insert h

/-- A statement of the queue appends what comes next. -/
theorem Appends.of_statement (h : Statement new s s') : Appends s s' := by
  cases h with
  | insertProgress hnext hinsert => exact .of_insert hnext hinsert
  | _ => exact .of_progress rfl

/-- What every statement and every checkpoint append keeps, every operation keeps. -/
theorem apply_keeps {P : QueueStore → Prop}
    (hstatement : ∀ s s', Statement (fun _ => True) s s' → P s → P s')
    (hcheckpoint : ∀ s checkpoints, P s → P { s with checkpoints }) (op : Operation) (hs : P s) :
    P (apply s op) := by
  by_cases hop : op.appends = false
  · exact keeps_of_reflTransGen hstatement (apply_performs s hop fun _ _ => trivial) hs
  · cases op with
    | appendCheckpoint jobId attemptId lease identity createdAt =>
      show P ((appendCheckpoint jobId attemptId lease identity createdAt).commit s).2
      rcases h : appendCheckpoint jobId attemptId lease identity createdAt s with
        e | ⟨record, s'⟩
      · rw [commit_of_error h]
        exact hs
      · rw [commit_of_ok h]
        obtain ⟨_, _, _, _, _, rfl⟩ := appendCheckpoint_eq_ok h
        exact hcheckpoint s _ hs
    | _ => exact absurd rfl hop

/-- An append of the repository is one statement, or leaves the store alone. -/
theorem appendAt_statement (event : NewProgressEvent) (createdAt : ℤ) (s : QueueStore) :
    (appendAt event createdAt s).2 = s ∨
      Statement (fun _ => True) s (appendAt event createdAt s).2 := by
  unfold appendAt
  rcases h : appendInTransaction event createdAt s with e | ⟨committed, s'⟩
  · rw [commit_of_error h]
    exact Or.inl rfl
  · rw [commit_of_ok h]
    obtain ⟨hnext, _, progress, hinsert, rfl⟩ := appendInTransaction_eq_ok h
    exact Or.inr (.insertProgress hnext hinsert)

theorem appendAt_appends (event : NewProgressEvent) (createdAt : ℤ) (s : QueueStore) :
    Appends s (appendAt event createdAt s).2 := by
  rcases appendAt_statement event createdAt s with h | h
  · rw [h]
    exact .of_progress rfl
  · exact .of_statement h

/-! ## Runs -/

/-- One input of the system: an input of the queue, an append of the progress
service, or an explicit repair of terminal progress. -/
inductive ProgressInput : Type where
  | queue (input : Input)
  | append (event : NewProgressEvent) (createdAt : ℤ)
  | repairTerminal (jobId : JobId) (terminal : ProgressTerminalState) (now : ℤ)

/-- One input of the store. -/
def progressStep (s : QueueStore) : ProgressInput → QueueStore
  | .queue input => step s input
  | .append event createdAt => (appendAt event createdAt s).2
  | .repairTerminal jobId terminal now =>
    ((appendTerminalProgressIfMissing jobId terminal now).commit s).2

/-- What every statement and every checkpoint append keeps, every input keeps. -/
theorem progressStep_keeps {P : QueueStore → Prop}
    (hstatement : ∀ s s', Statement (fun _ => True) s s' → P s → P s')
    (hcheckpoint : ∀ s checkpoints, P s → P { s with checkpoints }) (input : ProgressInput)
    (hs : P s) : P (progressStep s input) := by
  cases input with
  | queue input => exact step_induction hs fun op _ => apply_keeps hstatement hcheckpoint op hs
  | append event createdAt =>
    rcases appendAt_statement event createdAt s with h | h
    · show P (appendAt event createdAt s).2
      rw [h]
      exact hs
    · exact hstatement _ _ h hs
  | repairTerminal jobId terminal now =>
    exact keeps_of_reflTransGen hstatement ((repair_performs jobId terminal now).commit s) hs

/-- Every step only appends. -/
theorem progressStep_appends (s : QueueStore) (input : ProgressInput) :
    Appends s (progressStep s input) :=
  progressStep_keeps (P := Appends s) (fun _ _ h hs => hs.trans (.of_statement h))
    (fun _ _ hs => hs.trans (.of_progress rfl)) input (.of_progress rfl)

theorem after_appends (s : QueueStore) (inputs : List ProgressInput) :
    Appends s (after progressStep s inputs) :=
  after_invariant (I := Appends s) (fun s₁ input hs => hs.trans (progressStep_appends s₁ input))
    (.of_progress rfl) inputs

/-- Whatever the order of appends, failures, cancellations, repairs and
recoveries, every stream stays numbered, ends with its terminal event, and keeps
what was stored. -/
theorem progress_wellNumbered_throughout (earlier later : List ProgressInput) :
    Throughout progressStep WellNumbered .empty (earlier ++ later) ∧
      Extends (after progressStep .empty earlier)
        (after progressStep .empty (earlier ++ later)) := by
  constructor
  · have hinvariant : ∀ s input, WellNumbered s → WellNumbered (progressStep s input) :=
      fun s input => (progressStep_appends s input).numbered
    exact throughout_of_meets (G := fun _ _ => True) hinvariant
      (fun s input _ hs _ => hinvariant s input hs) .empty .empty (meets_of_forall fun _ _ => trivial)
  · rw [after_append]
    exact (after_appends _ later).grows

end Erabi.Progress
