/-
# Checkpoints along the lineage of a job

The checkpoints of a job are an append-only log numbered from one.  Jobs are linked to
the jobs they continue; the links lead to earlier rows, so that the walk from a job
to the newest checkpoint of its nearest ancestor comes to an end.
-/
import Mathlib
import Erabi.Log.Numbered
import Erabi.Queue.Statements
import Erabi.Queue.System

namespace Erabi.Queue

open Relational Transaction Transition

/-! ## The walk -/

/-- The job and its ancestors, nearest first; `none` when the fuel runs out. -/
def lineageFrom (s : QueueStore) :
    ℕ → Option JobId → Option (Except JobRepositoryError (List JobId))
  | _, none => some (.ok [])
  | 0, some _ => none
  | fuel + 1, some id =>
    match s.jobs.find? id with
    | none => some (.error .notFound)
    | some job => (lineageFrom s fuel job.parentJobId).map fun lineage =>
        lineage.map fun ancestors => id :: ancestors

/-- The newest checkpoint of the nearest job that has one. -/
def latestCheckpointForLineage (s : QueueStore) (fuel : ℕ) (jobId : JobId) :
    Option (Except JobRepositoryError (Option CheckpointRecord)) :=
  (lineageFrom s fuel (some jobId)).map fun lineage =>
    lineage.map fun ids => ids.findSome? (latestCheckpoint s)

/-! ## What the walk is for -/

/-- The checkpoints of a job in the order in which they were appended. -/
def QueueStore.checkpointsOf (s : QueueStore) (j : JobId) : List CheckpointRecord :=
  s.checkpoints.filter fun c => c.jobId = j

/-- The job, the job it continues, and so on up to one that continues none. -/
inductive Lineage (s : QueueStore) : JobId → List JobId → Prop
  | root {job : JobRecord} : job ∈ s.jobs.rows → job.parentJobId = none → Lineage s job.id [job.id]
  | child {job : JobRecord} {p : JobId} {ancestors : List JobId} : job ∈ s.jobs.rows →
      job.parentJobId = some p → Lineage s p ancestors → Lineage s job.id (job.id :: ancestors)

/-- A lineage begins with its job. -/
theorem Lineage.head {s : QueueStore} {j : JobId} {lineage : List JobId} (h : Lineage s j lineage) :
    ∃ ancestors, lineage = j :: ancestors := by
  cases h with
  | root => exact ⟨[], rfl⟩
  | child => exact ⟨_, rfl⟩

/-- The last checkpoint of the first job that has any, if there is one. -/
def NearestCheckpoint (s : QueueStore) (lineage : List JobId)
    (result : Option CheckpointRecord) : Prop :=
  (result = none ∧ ∀ j ∈ lineage, s.checkpointsOf j = []) ∨
    ∃ before j after record, lineage = before ++ j :: after ∧
      (∀ i ∈ before, s.checkpointsOf i = []) ∧ (s.checkpointsOf j).getLast? = some record ∧
      result = some record

/-! ## The invariants -/

/-- The checkpoints of every job are numbered in the order of their appends. -/
def NumberedCheckpoints (s : QueueStore) : Prop :=
  ∀ j, Log.Numbered CheckpointRecord.sequence (fun _ => false) (s.checkpointsOf j)

/-- Every parent is an earlier row. -/
structure Rooted (s : QueueStore) : Prop where
  present : ∀ job ∈ s.jobs.rows, ∀ p ∈ job.parentJobId, ∃ parent ∈ s.jobs.rows, parent.id = p
  other : ∀ job ∈ s.jobs.rows, job.parentJobId ≠ some job.id
  earlier : s.jobs.rows.Pairwise fun a b => a.parentJobId ≠ some b.id

theorem Rooted.empty : Rooted .empty where
  present _ h := by cases h
  other _ h := by cases h
  earlier := List.Pairwise.nil

variable {s s' : QueueStore} {j : JobId} {new : JobRecord → Prop}

/-- A new row refers to earlier rows, and no row refers to it yet. -/
theorem Rooted.insert (hs : Rooted s) {job : JobRecord}
    {jobs : Table JobRecord JobId JobRecord.id}
    (hparent : ∀ p ∈ job.parentJobId, (s.jobs.find? p).isSome)
    (hinsert : s.jobs.insert? job = some jobs) : Rooted { s with jobs } := by
  obtain ⟨hfresh, hrows⟩ := Table.insert?_eq_some.mp hinsert
  have hnew := Table.find?_eq_none.mp hfresh
  have hold : ∀ p ∈ job.parentJobId, ∃ parent ∈ s.jobs.rows, parent.id = p := by
    intro p hp
    obtain ⟨parent, hfind⟩ := Option.isSome_iff_exists.mp (hparent p hp)
    exact ⟨parent, Table.mem_of_find? hfind, Table.key_of_find? hfind⟩
  have hnone : ∀ other ∈ s.jobs.rows, other.parentJobId ≠ some job.id := by
    intro other hother hlink
    obtain ⟨parent, hmem, hid⟩ := hs.present other hother job.id hlink
    exact hnew parent hmem hid
  constructor
  · intro child hchild p hp
    rcases (Table.mem_insert hinsert).mp hchild with hmem | rfl
    · obtain ⟨parent, hparent, hid⟩ := hs.present child hmem p hp
      exact ⟨parent, (Table.mem_insert hinsert).mpr (Or.inl hparent), hid⟩
    · obtain ⟨parent, hparent, hid⟩ := hold p hp
      exact ⟨parent, (Table.mem_insert hinsert).mpr (Or.inl hparent), hid⟩
  · intro child hchild
    rcases (Table.mem_insert hinsert).mp hchild with hmem | rfl
    · exact hs.other child hmem
    · intro hlink
      obtain ⟨parent, hmem, hid⟩ := hold child.id hlink
      exact hnew parent hmem hid
  · show jobs.rows.Pairwise _
    rw [hrows, List.pairwise_append]
    refine ⟨hs.earlier, List.pairwise_singleton _ _, ?_⟩
    intro other hother last hlast
    rw [List.mem_singleton.mp hlast]
    exact hnone other hother

/-- A row is deleted only when no row refers to it. -/
theorem Rooted.delete (hs : Rooted s) {k : JobId}
    (hchildren : ∀ child ∈ s.jobs.rows, child.parentJobId ≠ some k) :
    Rooted { s with jobs := s.jobs.delete fun job => job.id = k } where
  present := by
    intro job hjob p hp
    obtain ⟨hmem, _⟩ := Table.mem_delete.mp hjob
    obtain ⟨parent, hparent, hid⟩ := hs.present job hmem p hp
    refine ⟨parent, Table.mem_delete.mpr ⟨hparent, decide_eq_false ?_⟩, hid⟩
    rintro rfl
    exact hchildren job hmem (hid ▸ hp)
  other job hjob := hs.other job (Table.mem_delete.mp hjob).1
  earlier := hs.earlier.filter _

/-- An update that keeps identities and links. -/
theorem Rooted.update (hs : Rooted s) {p : JobRecord → Bool} {f : JobRecord → JobRecord}
    (hid : ∀ job, (f job).id = job.id)
    (hkept : ∀ job ∈ s.jobs.rows, p job = true → Continues job (f job)) :
    Rooted { s with jobs := s.jobs.update p f hid } := by
  have hsame : ∀ job ∈ s.jobs.rows, (if p job then f job else job).id = job.id ∧
      (if p job then f job else job).parentJobId = job.parentJobId := by
    intro job hjob
    split
    · rename_i hp
      exact ⟨hid job, (hkept job hjob hp).parent⟩
    · exact ⟨rfl, rfl⟩
  constructor
  · intro job' hjob' q hq
    obtain ⟨job, hjob, rfl⟩ := List.mem_map.mp hjob'
    rw [(hsame job hjob).2] at hq
    obtain ⟨parent, hparent, hq⟩ := hs.present job hjob q hq
    exact ⟨_, List.mem_map.mpr ⟨parent, hparent, rfl⟩, (hsame parent hparent).1.trans hq⟩
  · intro job' hjob'
    obtain ⟨job, hjob, rfl⟩ := List.mem_map.mp hjob'
    rw [(hsame job hjob).1, (hsame job hjob).2]
    exact hs.other job hjob
  · show (s.jobs.rows.map _).Pairwise _
    rw [List.pairwise_map]
    refine hs.earlier.imp_of_mem fun ha hb hab => ?_
    rw [(hsame _ ha).2, (hsame _ hb).1]
    exact hab

/-- A statement keeps parents in front of their children. -/
theorem Rooted.statement (hs : Rooted s) (h : Statement new s s') : Rooted s' := by
  cases h with
  | updateJobs hid hkept => exact hs.update hid hkept
  | insertJob _ hparent _ hinsert => exact hs.insert hparent hinsert
  | deleteJob _ _ _ hchildren => exact hs.delete hchildren
  | _ => exact ⟨hs.present, hs.other, hs.earlier⟩

/-! ## Appends -/

/-- An appended checkpoint takes the next number of its job. -/
theorem appendCheckpoint_sequence {attemptId : AttemptId} {lease : JobLease}
    {identity : CheckpointIdentity} {createdAt : ℤ} {record : CheckpointRecord}
    (h : appendCheckpoint j attemptId lease identity createdAt s = .ok (record, s')) :
    record.sequence = ((s.checkpointsOf j).map CheckpointRecord.sequence).foldr max 0 + 1 := by
  unfold appendCheckpoint at h
  rw [read_bind] at h
  obtain ⟨_, _, h⟩ := orFail_bind_eq_ok.mp h
  obtain ⟨_, h⟩ := require_bind_eq_ok.mp h
  obtain ⟨_, h⟩ := require_bind_eq_ok.mp h
  dsimp only at h
  obtain ⟨_, h⟩ := require_bind_eq_ok.mp h
  cases h
  rfl

/-- A checkpoint with the next number keeps the numbering. -/
theorem NumberedCheckpoints.append (hs : NumberedCheckpoints s) {record : CheckpointRecord}
    (hsequence : record.sequence =
      ((s.checkpointsOf record.jobId).map CheckpointRecord.sequence).foldr max 0 + 1) :
    NumberedCheckpoints { s with checkpoints := s.checkpoints ++ [record] } := by
  intro k
  show Log.Numbered _ _ ((s.checkpoints ++ [record]).filter fun c => c.jobId = k)
  rw [List.filter_append]
  by_cases hk : record.jobId = k
  · rw [List.filter_cons_of_pos (by simpa using hk), List.filter_nil]
    rw [hk, (hs k).foldr_max] at hsequence
    exact (hs k).append hsequence fun _ _ => rfl
  · rw [List.filter_cons_of_neg (by simpa using hk), List.filter_nil, List.append_nil]
    exact hs k

/-- What every operation keeps: old checkpoints stay, and the logs stay numbered. -/
structure Recorded (s s' : QueueStore) : Prop where
  rooted : Rooted s'
  numbered : NumberedCheckpoints s'
  appended : s.checkpoints <+: s'.checkpoints

/-- Statements remove no checkpoint. -/
theorem Recorded.of_statements (hrooted : Rooted s) (hnumbered : NumberedCheckpoints s)
    (h : Statements new s s') : Recorded s s' := by
  have hcheckpoints : s'.checkpoints = s.checkpoints := by
    induction h with
    | refl => rfl
    | tail _ hstep ih => exact (statement_checkpoints hstep).trans ih
  refine ⟨?_, ?_, ?_⟩
  · exact keeps_of_reflTransGen (Q := Rooted) (fun _ _ hstep ha => ha.statement hstep) h hrooted
  · intro k
    rw [QueueStore.checkpointsOf, hcheckpoints]
    exact hnumbered k
  · rw [hcheckpoints]

/-- An operation only appends checkpoints. -/
theorem apply_recorded (hrooted : Rooted s) (hnumbered : NumberedCheckpoints s)
    (op : Operation) : Recorded s (apply s op) := by
  by_cases hop : op.appends = false
  · exact .of_statements hrooted hnumbered (apply_performs s hop fun _ _ => trivial)
  · cases op with
    | appendCheckpoint jobId attemptId lease identity createdAt =>
      show Recorded s ((appendCheckpoint jobId attemptId lease identity createdAt).commit s).2
      rcases h : appendCheckpoint jobId attemptId lease identity createdAt s with
        e | ⟨record, s'⟩
      · rw [commit_of_error h]
        exact ⟨hrooted, hnumbered, List.prefix_refl _⟩
      · rw [commit_of_ok h]
        have hsequence := appendCheckpoint_sequence h
        obtain ⟨hjob, _, _, _, _, rfl⟩ := appendCheckpoint_eq_ok h
        refine ⟨⟨hrooted.present, hrooted.other, hrooted.earlier⟩, ?_, List.prefix_append _ _⟩
        exact hnumbered.append (hjob.symm ▸ hsequence)
    | _ => exact absurd rfl hop

theorem after_recorded (hrooted : Rooted s) (hnumbered : NumberedCheckpoints s)
    (inputs : List Input) : Recorded s (after step s inputs) := by
  refine after_invariant (I := Recorded s) (fun s₁ input hs => ?_)
    ⟨hrooted, hnumbered, List.prefix_refl _⟩ inputs
  refine step_induction (P := Recorded s) hs fun op _ => ?_
  have happly := apply_recorded hs.rooted hs.numbered op
  exact ⟨happly.rooted, happly.numbered, hs.appended.trans happly.appended⟩

/-! ## The newest checkpoint -/

/-- The last append is the checkpoint with the largest number. -/
theorem NumberedCheckpoints.latest (hs : NumberedCheckpoints s) (j : JobId) :
    latestCheckpoint s j = (s.checkpointsOf j).getLast? := by
  have hsorted : (s.checkpointsOf j).insertionSort (fun a b => a.sequence ≤ b.sequence) =
      s.checkpointsOf j :=
    List.Pairwise.insertionSort_eq ((hs j).pairwise_lt.imp fun hab => hab.le)
  show ((s.checkpointsOf j).insertionSort _).getLast? = _
  rw [hsorted]

/-- A job without checkpoints has no latest one. -/
theorem NumberedCheckpoints.latest_eq_none (hs : NumberedCheckpoints s) (j : JobId) :
    latestCheckpoint s j = none ↔ s.checkpointsOf j = [] := by
  rw [hs.latest j, List.getLast?_eq_none_iff]

/-- The first job of a lineage with a checkpoint gives the nearest. -/
theorem NumberedCheckpoints.nearest (hs : NumberedCheckpoints s) (lineage : List JobId) :
    NearestCheckpoint s lineage (lineage.findSome? (latestCheckpoint s)) := by
  rcases hfound : lineage.findSome? (latestCheckpoint s) with _ | record
  · refine Or.inl ⟨rfl, fun j hj => ?_⟩
    exact (hs.latest_eq_none j).mp (List.findSome?_eq_none_iff.mp hfound j hj)
  · obtain ⟨before, j, after, hlineage, hrecord, hbefore⟩ := List.findSome?_eq_some_iff.mp hfound
    refine Or.inr ⟨before, j, after, record, hlineage, fun i hi => ?_, ?_, rfl⟩
    · exact (hs.latest_eq_none i).mp (hbefore i hi)
    · rw [← hs.latest j]
      exact hrecord

/-! ## The end of the walk -/

/-- The parent of a row stands before it. -/
theorem Rooted.parent_before (hs : Rooted s) {i : ℕ} {job : JobRecord} {p : JobId}
    (hi : s.jobs.rows[i]? = some job) (hp : job.parentJobId = some p) :
    ∃ k parent, k < i ∧ s.jobs.rows[k]? = some parent ∧ parent.id = p := by
  obtain ⟨parent, hparent, hid⟩ := hs.present job (List.mem_of_getElem? hi) p hp
  obtain ⟨k, hk⟩ := List.mem_iff_getElem?.mp hparent
  refine ⟨k, parent, ?_, hk, hid⟩
  by_contra hle
  rcases Nat.lt_or_eq_of_le (Nat.le_of_not_lt hle) with hlt | rfl
  · obtain ⟨hk', hgetk⟩ := List.getElem?_eq_some_iff.mp hk
    obtain ⟨hi', hgeti⟩ := List.getElem?_eq_some_iff.mp hi
    have hlink := List.pairwise_iff_getElem.mp hs.earlier i k hi' hk' hlt
    rw [hgeti, hgetk, hid] at hlink
    exact hlink hp
  · rw [hi] at hk
    cases hk
    exact hs.other job (List.mem_of_getElem? hi) (hid ▸ hp)

/-- The walk from the row at position `i` takes at most `i + 1` rounds: each round
goes to an earlier row. -/
theorem Rooted.lineageFrom (hs : Rooted s) : ∀ (i : ℕ) {job : JobRecord},
    s.jobs.rows[i]? = some job → ∃ lineage, Lineage s job.id lineage ∧
      ∀ fuel, i < fuel → lineageFrom s fuel (some job.id) = some (.ok lineage) := by
  intro i
  induction i using Nat.strong_induction_on with
  | _ i ih =>
    intro job hi
    have hmem := List.mem_of_getElem? hi
    have hfind := Table.find?_key hmem
    rcases hp : job.parentJobId with _ | p
    · refine ⟨[job.id], .root hmem hp, fun fuel hfuel => ?_⟩
      obtain ⟨n, rfl⟩ := Nat.exists_eq_add_of_lt hfuel
      show Queue.lineageFrom s (i + n + 1) _ = _
      rw [Queue.lineageFrom, hfind]
      dsimp only
      rw [hp]
      cases i + n <;> rfl
    · obtain ⟨k, parent, hki, hk, hid⟩ := hs.parent_before hi hp
      obtain ⟨ancestors, hancestors, hwalk⟩ := ih k hki hk
      rw [hid] at hancestors hwalk
      refine ⟨job.id :: ancestors, .child hmem hp hancestors, fun fuel hfuel => ?_⟩
      obtain ⟨n, rfl⟩ := Nat.exists_eq_add_of_lt hfuel
      show Queue.lineageFrom s (i + n + 1) _ = _
      rw [Queue.lineageFrom, hfind]
      dsimp only
      rw [hp, hwalk (i + n) (by omega)]
      rfl

/-- In every state of the queue, the checkpoints of a job carry the numbers from one
on, later operations never change them, and the newest one is the last appended; the
walk along the lineage of a job ends after at most as many rounds as there are jobs,
with the newest checkpoint of the nearest job of the lineage that has one. -/
theorem checkpoints_of_lineage (inputs more : List Input) :
    (∀ j, ((after step .empty inputs).checkpointsOf j).map CheckpointRecord.sequence =
      List.range' 1 ((after step .empty inputs).checkpointsOf j).length) ∧
    (after step .empty inputs).checkpoints <+:
      (after step (after step .empty inputs) more).checkpoints ∧
    (∀ j, latestCheckpoint (after step .empty inputs) j =
      ((after step .empty inputs).checkpointsOf j).getLast?) ∧
    ∀ job ∈ (after step .empty inputs).jobs.rows, ∃ lineage result,
      Lineage (after step .empty inputs) job.id lineage ∧
      NearestCheckpoint (after step .empty inputs) lineage result ∧
      ∀ fuel, (after step .empty inputs).jobs.rows.length ≤ fuel →
        latestCheckpointForLineage (after step .empty inputs) fuel job.id = some (.ok result) := by
  have hempty : NumberedCheckpoints .empty := fun _ => .nil
  have hs := after_recorded .empty hempty inputs
  refine ⟨fun j => (hs.numbered j).numbers,
    (after_recorded hs.rooted hs.numbered more).appended, hs.numbered.latest, ?_⟩
  intro job hjob
  obtain ⟨i, hi⟩ := List.mem_iff_getElem?.mp hjob
  obtain ⟨lineage, hlineage, hwalk⟩ := hs.rooted.lineageFrom i hi
  refine ⟨lineage, _, hlineage, hs.numbered.nearest lineage, fun fuel hfuel => ?_⟩
  obtain ⟨hlt, _⟩ := List.getElem?_eq_some_iff.mp hi
  unfold latestCheckpointForLineage
  rw [hwalk fuel (by omega)]
  rfl

end Erabi.Queue
