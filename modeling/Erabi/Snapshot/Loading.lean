/-
# Loading stored snapshots

A stored snapshot is loaded when its document and the hashes that are stored with
it belong together.  What is loaded is then the snapshot that was stored.
-/
import Mathlib
import Erabi.Relational.Transaction
import Erabi.Snapshot.Record

namespace Erabi.Snapshot

open Json Relational.Transaction

variable {Url : Type} [Codec Url] {sha256 : ByteArray → List UInt8}

/-! ## Storing and loading -/

/-- Why a run cannot be loaded. -/
inductive CrawlRunRepositoryError where
  | notFound
  | malformedSnapshot
  | invalidSnapshot (error : SnapshotError)
  | invariant (message : String)

/-- The columns of a run from which its snapshot is loaded. -/
structure StoredSnapshot where
  snapshotJson : Json
  snapshotHash : String
  checkpointCompatibilityHash : String

namespace CrawlRunSnapshot

/-- A snapshot as it is stored. -/
def toWire (s : CrawlRunSnapshot Url sha256) : CrawlRunSnapshotWire Url where
  toCrawlRunSnapshotDraft := s.toCrawlRunSnapshotDraft
  snapshotHash := s.snapshotHash
  checkpointCompatibilityHash := s.checkpointCompatibilityHash

/-- A snapshot, written. -/
def serialize (s : CrawlRunSnapshot Url sha256) : Json := encode s.toWire

variable (sha256) in
/-- A snapshot, read back and checked. -/
def deserialize (document : Json) :
    Except CrawlRunRepositoryError (CrawlRunSnapshot Url sha256) :=
  match (decode document : Option (CrawlRunSnapshotWire Url)) with
  | none => .error .malformedSnapshot
  | some wire =>
      (rehydrate sha256 wire.toCrawlRunSnapshotDraft wire.snapshotHash
        wire.checkpointCompatibilityHash).mapError .invalidSnapshot

/-- The columns that are written when a run is created. -/
def stored (s : CrawlRunSnapshot Url sha256) : StoredSnapshot where
  snapshotJson := s.serialize
  snapshotHash := s.snapshotHash
  checkpointCompatibilityHash := s.checkpointCompatibilityHash

end CrawlRunSnapshot

variable (Url sha256) in
/-- Loads the snapshot from the row that is found for a run. -/
def snapshotByStoredId (row : Option StoredSnapshot) :
    Except CrawlRunRepositoryError (CrawlRunSnapshot Url sha256) := do
  let some row := row | throw .notFound
  let snapshot ← CrawlRunSnapshot.deserialize sha256 row.snapshotJson
  if snapshot.snapshotHash ≠ row.snapshotHash then
    throw (.invariant "stored CrawlRunSnapshot hash column does not match snapshot JSON")
  if snapshot.checkpointCompatibilityHash ≠ row.checkpointCompatibilityHash then
    throw (.invariant
      "stored CrawlRunSnapshot checkpoint hash column does not match snapshot JSON")
  return snapshot

/-! ## What a row holds -/

variable (Url) in
/-- The fields and the hashes that can be read from a row. -/
def StoredSnapshot.content (row : StoredSnapshot) :
    Option (CrawlRunSnapshotWire Url × String × String) :=
  (decode row.snapshotJson).map fun wire =>
    (wire, row.snapshotHash, row.checkpointCompatibilityHash)

/-- Something in the row is not what was stored for the snapshot, but all of its
fields are left, or a hash of the snapshot is. -/
def StoredSnapshot.Altered (row : StoredSnapshot) (s : CrawlRunSnapshot Url sha256) : Prop :=
  row.content Url ≠ s.stored.content Url ∧
    ∀ wire : CrawlRunSnapshotWire Url, decode row.snapshotJson = some wire →
      wire.toCrawlRunSnapshotDraft = s.toCrawlRunSnapshotDraft ∨
        wire.snapshotHash = s.snapshotHash ∨ row.snapshotHash = s.snapshotHash

/-- Two drafts agree on everything that a checkpoint depends on. -/
structure CrawlRunSnapshotDraft.Compatible (d d' : CrawlRunSnapshotDraft Url) : Prop where
  runType : d.runType = d'.runType
  configuration : d.configuration = d'.configuration
  selectedSeedIds : d.selectedSeedIds = d'.selectedSeedIds
  settings : d.settings = d'.settings
  robotsDecision : d.robots.decision = d'.robots.decision
  robotsScope : d.robots.affectedScope = d'.robots.affectedScope
  userAgent : d.robots.userAgent = d'.robots.userAgent

/-! ## Loading -/

namespace CrawlRunSnapshot

/-- A snapshot is determined by what it was created from. -/
theorem ext_draft {s t : CrawlRunSnapshot Url sha256}
    (h : s.toCrawlRunSnapshotDraft = t.toCrawlRunSnapshotDraft) : s = t := by
  have hhash : s.snapshotHash = t.snapshotHash := by
    rw [s.snapshotHash_eq, t.snapshotHash_eq, h]
  have hcompatibility : s.checkpointCompatibilityHash = t.checkpointCompatibilityHash := by
    rw [s.checkpointCompatibilityHash_eq, t.checkpointCompatibilityHash_eq, h]
  cases s
  cases t
  cases h
  cases hhash
  cases hcompatibility
  rfl

/-- A snapshot is made of its draft. -/
theorem new_eq_ok {draft : CrawlRunSnapshotDraft Url} {s : CrawlRunSnapshot Url sha256} :
    new sha256 draft = .ok s ↔ s.toCrawlRunSnapshotDraft = draft := by
  constructor
  · intro h
    unfold new at h
    split at h
    · cases h
    · cases h
      rfl
  · rintro rfl
    unfold new
    split
    · rename_i error herror
      exact absurd (herror.symm.trans s.valid) (by simp)
    · exact congrArg Except.ok (ext_draft rfl)

/-- A snapshot is taken up when its stored hashes are its own. -/
theorem rehydrate_eq_ok {draft : CrawlRunSnapshotDraft Url} {hash compatibility : String}
    {s : CrawlRunSnapshot Url sha256} :
    rehydrate sha256 draft hash compatibility = .ok s ↔
      s.toCrawlRunSnapshotDraft = draft ∧ s.snapshotHash = hash ∧
        s.checkpointCompatibilityHash = compatibility := by
  rw [rehydrate, except_bind_eq_ok]
  constructor
  · rintro ⟨t, hnew, h⟩
    by_cases hhash : t.snapshotHash = hash
    · by_cases hcompatibility : t.checkpointCompatibilityHash = compatibility
      · simp only [hhash, hcompatibility, ne_eq, not_true_eq_false, if_false] at h
        cases h
        exact ⟨new_eq_ok.mp hnew, hhash, hcompatibility⟩
      · simp [hhash, hcompatibility, bind, Except.bind, throw, throwThe, MonadExceptOf.throw] at h
    · simp [hhash, bind, Except.bind, throw, throwThe, MonadExceptOf.throw] at h
  · rintro ⟨hdraft, rfl, rfl⟩
    exact ⟨s, new_eq_ok.mpr hdraft, by simp [pure, Except.pure]⟩

/-- What is read back was stored. -/
theorem deserialize_eq_ok {document : Json} {s : CrawlRunSnapshot Url sha256} :
    deserialize sha256 document = .ok s ↔ decode document = some s.toWire := by
  unfold deserialize
  cases hdecode : (decode document : Option (CrawlRunSnapshotWire Url)) with
  | none =>
    constructor <;> intro h <;> cases h
  | some wire =>
    cases hrehydrate : rehydrate sha256 wire.toCrawlRunSnapshotDraft wire.snapshotHash
        wire.checkpointCompatibilityHash with
    | error error =>
      constructor
      · intro h
        simp only [hrehydrate] at h
        cases h
      · intro h
        cases h
        have hok : rehydrate sha256 s.toCrawlRunSnapshotDraft s.snapshotHash
            s.checkpointCompatibilityHash = .ok s := rehydrate_eq_ok.mpr ⟨rfl, rfl, rfl⟩
        exact absurd (hrehydrate.symm.trans hok) (by simp)
    | ok t =>
      obtain ⟨hdraft, hhash, hcompatibility⟩ := rehydrate_eq_ok.mp hrehydrate
      simp only [hrehydrate]
      constructor
      · intro h
        cases h
        cases wire
        cases hdraft
        cases hhash
        cases hcompatibility
        rfl
      · intro h
        cases h
        exact congrArg Except.ok (ext_draft hdraft)

end CrawlRunSnapshot

/-- A row is loaded when its content is that of a snapshot. -/
theorem snapshotByStoredId_eq_ok {row : StoredSnapshot} {s : CrawlRunSnapshot Url sha256} :
    snapshotByStoredId Url sha256 (some row) = .ok s ↔
      row.content Url = some (s.toWire, s.snapshotHash, s.checkpointCompatibilityHash) := by
  have hcontent :
      row.content Url = some (s.toWire, s.snapshotHash, s.checkpointCompatibilityHash) ↔
        decode row.snapshotJson = some s.toWire ∧ s.snapshotHash = row.snapshotHash ∧
          s.checkpointCompatibilityHash = row.checkpointCompatibilityHash := by
    rw [StoredSnapshot.content, Option.map_eq_some_iff]
    constructor
    · rintro ⟨wire, hwire, heq⟩
      obtain ⟨hsame, hhashes⟩ := Prod.mk.inj heq
      obtain ⟨hhash, hcompatibility⟩ := Prod.mk.inj hhashes
      exact ⟨hwire.trans (congrArg some hsame), hhash.symm, hcompatibility.symm⟩
    · rintro ⟨hwire, hhash, hcompatibility⟩
      exact ⟨s.toWire, hwire, by rw [hhash, hcompatibility]⟩
  rw [hcontent, snapshotByStoredId, ← CrawlRunSnapshot.deserialize_eq_ok, except_bind_eq_ok]
  constructor
  · rintro ⟨t, hread, h⟩
    by_cases hhash : t.snapshotHash = row.snapshotHash
    · by_cases hcompatibility :
        t.checkpointCompatibilityHash = row.checkpointCompatibilityHash
      · simp only [hhash, hcompatibility, ne_eq, not_true_eq_false, if_false] at h
        cases h
        exact ⟨hread, hhash, hcompatibility⟩
      · simp [hhash, hcompatibility, bind, Except.bind, throw, throwThe, MonadExceptOf.throw] at h
    · simp [hhash, bind, Except.bind, throw, throwThe, MonadExceptOf.throw] at h
  · rintro ⟨hread, hhash, hcompatibility⟩
    exact ⟨s, hread, by simp [hhash, hcompatibility, pure, Except.pure]⟩

/-- What is stored for a snapshot is loaded as that snapshot. -/
theorem snapshotByStoredId_stored (s : CrawlRunSnapshot Url sha256) :
    snapshotByStoredId Url sha256 (some s.stored) = .ok s := by
  rw [snapshotByStoredId_eq_ok, StoredSnapshot.content]
  show (decode (encode s.toWire)).map _ = _
  rw [Codec.decode_encode]
  rfl

/-! ## Where SHA-256 does not collide -/

/-- A snapshot is known by its hash. -/
theorem snapshotHash_inj (hsha : Function.Injective sha256) {s t : CrawlRunSnapshot Url sha256}
    (h : s.snapshotHash = t.snapshotHash) : s = t := by
  rw [s.snapshotHash_eq, t.snapshotHash_eq] at h
  have hdocument := canonicalSha256_injective hsha (Codec.ordered_encode _)
    (Codec.ordered_encode _) h
  exact CrawlRunSnapshot.ext_draft (encode_injective hdocument)

/-- A row that was altered is not loaded. -/
theorem snapshotByStoredId_altered (hsha : Function.Injective sha256)
    {s t : CrawlRunSnapshot Url sha256} {row : StoredSnapshot} (h : row.Altered s) :
    snapshotByStoredId Url sha256 (some row) ≠ .ok t := by
  intro hload
  have hcontent := snapshotByStoredId_eq_ok.mp hload
  obtain ⟨wire, hwire, heq⟩ := Option.map_eq_some_iff.mp hcontent
  obtain ⟨rfl, hhashes⟩ := Prod.mk.inj heq
  obtain ⟨hhash, -⟩ := Prod.mk.inj hhashes
  have hst : t = s := by
    rcases h.2 t.toWire hwire with hdraft | hkept | hcolumn
    · exact CrawlRunSnapshot.ext_draft hdraft
    · exact snapshotHash_inj hsha hkept
    · exact snapshotHash_inj hsha (hhash.symm.trans hcolumn)
  have hstored := snapshotByStoredId_eq_ok.mp (snapshotByStoredId_stored s)
  exact h.1 (hcontent.trans (by rw [hst, hstored]))

/-- What is compared is known by its text. -/
theorem CheckpointCompatibility.toJson_injective :
    Function.Injective (CheckpointCompatibility.toJson : CheckpointCompatibility Url → Json) := by
  intro c c' h
  have hfield : ∀ key, c.toJson.get? key = c'.toJson.get? key := fun key => by rw [h]
  simp only [CheckpointCompatibility.toJson, get?_ofFields] at hfield
  have hrunType : c.runType = c'.runType :=
    encode_injective (by simpa [lookup_cons_of_ne] using hfield "run_type")
  have hconfiguration : c.configuration = c'.configuration :=
    encode_injective (by simpa [lookup_cons_of_ne] using hfield "configuration")
  have hseeds : c.selectedSeedIds = c'.selectedSeedIds :=
    encode_injective (by simpa [lookup_cons_of_ne] using hfield "selected_seed_ids")
  have hsettings : c.settings = c'.settings :=
    encode_injective (by simpa [lookup_cons_of_ne] using hfield "settings")
  have hdecision : c.robotsDecision = c'.robotsDecision :=
    encode_injective (by simpa [lookup_cons_of_ne] using hfield "robots_decision")
  have hscope : c.robotsScope = c'.robotsScope :=
    encode_injective (by simpa [lookup_cons_of_ne] using hfield "robots_scope")
  have huserAgent : c.userAgent = c'.userAgent :=
    encode_injective (by simpa [lookup_cons_of_ne] using hfield "user_agent")
  cases c
  cases c'
  simp_all

/-- What is compared is in order. -/
theorem CheckpointCompatibility.ordered_toJson (c : CheckpointCompatibility Url) :
    c.toJson.ordered = true := ordered_document (by simp) (by simp)

/-- The hashes agree exactly for compatible snapshots. -/
theorem checkpointCompatibilityHash_eq_iff (hsha : Function.Injective sha256)
    (s t : CrawlRunSnapshot Url sha256) :
    s.checkpointCompatibilityHash = t.checkpointCompatibilityHash ↔
      s.toCrawlRunSnapshotDraft.Compatible t.toCrawlRunSnapshotDraft := by
  rw [s.checkpointCompatibilityHash_eq, t.checkpointCompatibilityHash_eq]
  constructor
  · intro h
    have hdocument := canonicalSha256_injective hsha
      (CheckpointCompatibility.ordered_toJson _) (CheckpointCompatibility.ordered_toJson _) h
    have hsame := CheckpointCompatibility.toJson_injective hdocument
    injection hsame with hrunType hconfiguration hseeds hsettings hdecision hscope huserAgent
    exact ⟨hrunType, hconfiguration, hseeds, hsettings, hdecision, hscope, huserAgent⟩
  · rintro ⟨hrunType, hconfiguration, hseeds, hsettings, hdecision, hscope, huserAgent⟩
    have hsame : s.checkpointCompatibility = t.checkpointCompatibility := by
      rw [CrawlRunSnapshotDraft.checkpointCompatibility, hrunType, hconfiguration, hseeds,
        hsettings, hdecision, hscope, huserAgent]
      rfl
    rw [CrawlRunSnapshotDraft.checkpointCompatibilityHash, hsame]
    rfl

/-! ## Verification -/

variable (Url) in
/-- A snapshot is read back from its document and its row, a row that was altered is
not loaded, and the hashes that are compared for a checkpoint are equal when
everything that it depends on is. -/
theorem snapshot_verified (hsha : Function.Injective sha256) :
    (∀ s : CrawlRunSnapshot Url sha256,
      CrawlRunSnapshot.deserialize sha256 s.serialize = .ok s ∧
        snapshotByStoredId Url sha256 (some s.stored) = .ok s) ∧
      (∀ (s : CrawlRunSnapshot Url sha256) (row : StoredSnapshot), row.Altered s →
        ∃ error, snapshotByStoredId Url sha256 (some row) = .error error) ∧
      ∀ s t : CrawlRunSnapshot Url sha256,
        s.checkpointCompatibilityHash = t.checkpointCompatibilityHash ↔
          s.toCrawlRunSnapshotDraft.Compatible t.toCrawlRunSnapshotDraft := by
  refine ⟨?_, ?_, checkpointCompatibilityHash_eq_iff hsha⟩
  · intro s
    refine ⟨?_, snapshotByStoredId_stored s⟩
    exact CrawlRunSnapshot.deserialize_eq_ok.mpr (Codec.decode_encode _)
  · intro s row h
    cases hload : snapshotByStoredId Url sha256 (some row) with
    | error error => exact ⟨error, rfl⟩
    | ok t => exact absurd hload (snapshotByStoredId_altered hsha h)

/-! ## A production run -/

/-- An identifier of sevens. -/
def sampleUuid : Uuid := ⟨List.replicate 32 ⟨7, by decide⟩, List.length_replicate⟩

/-- The settings of the sample. -/
def sampleSettings : SnapshotOperationalSettings where
  maxPages := ⟨100, .runProfile⟩
  maxDepth := ⟨3, .builtInDefault⟩
  maxDurationSeconds := ⟨3600, .builtInDefault⟩
  concurrency := ⟨2, .globalSetting⟩
  requestDelayMs := ⟨1000, .globalSetting⟩
  timeoutMs := ⟨30000, .builtInDefault⟩
  screenshot := ⟨false, .perRunOverride⟩
  assetDownloadLimitBytes := ⟨1048576, .builtInDefault⟩
  retainArtifacts := ⟨true, .builtInDefault⟩
  userAgent := ⟨"erabi", .builtInDefault⟩

/-- A draft by some actor. -/
def sampleDraft (actor : String) : CrawlRunSnapshotDraft String where
  runType := .productionRun
  configuration := .crawlerVersion sampleUuid sampleUuid (String.ofList (List.replicate 64 'a'))
  selectedSeedIds := [sampleUuid]
  runProfileId := some sampleUuid
  settings := sampleSettings
  robots := ⟨.override "owner's site", "operator", "2026-01-01", "site", "erabi", some sampleUuid⟩
  actor := actor
  createdAt := "2026-01-01"

/-- The operator's draft is valid. -/
theorem sampleDraft_valid : validateDraft (sampleDraft "operator") = .ok () := by
  decide +kernel

theorem sampleDraft_valid_other : validateDraft (sampleDraft "scheduler") = .ok () := by
  decide +kernel

/-- A hash that does not shorten anything. -/
def identityHash (bytes : ByteArray) : List UInt8 := bytes.data.toList

/-- The sample digest keeps texts apart. -/
theorem identityHash_injective : Function.Injective identityHash := by
  intro b c h
  exact ByteArray.ext (Array.toList_inj.mp h)

/-- The snapshot of a sample draft. -/
def sampleSnapshot (actor : String) (h : validateDraft (sampleDraft actor) = .ok ()) :
    CrawlRunSnapshot String identityHash where
  toCrawlRunSnapshotDraft := sampleDraft actor
  snapshotHash := (sampleDraft actor).snapshotHash identityHash
  checkpointCompatibilityHash := (sampleDraft actor).checkpointCompatibilityHash identityHash
  valid := h
  snapshotHash_eq := rfl
  checkpointCompatibilityHash_eq := rfl

/-- The row of a snapshot, with another actor in its document. -/
def StoredSnapshot.withActor (s : CrawlRunSnapshot String identityHash) (actor : String) :
    StoredSnapshot :=
  { s.stored with snapshotJson := encode { s.toWire with actor := actor } }

/-- The snapshot of a run is loaded, it is not loaded with another actor, and the run of
another actor may go on with its checkpoints. -/
theorem snapshot_verified_sample :
    snapshotByStoredId String identityHash
        (some (sampleSnapshot "operator" sampleDraft_valid).stored) =
      .ok (sampleSnapshot "operator" sampleDraft_valid) ∧
    (∃ error, snapshotByStoredId String identityHash
      (some (.withActor (sampleSnapshot "operator" sampleDraft_valid) "scheduler")) =
        .error error) ∧
    (sampleSnapshot "operator" sampleDraft_valid).checkpointCompatibilityHash =
      (sampleSnapshot "scheduler" sampleDraft_valid_other).checkpointCompatibilityHash := by
  obtain ⟨hload, haltered, hcompatible⟩ := snapshot_verified String identityHash_injective
  refine ⟨(hload _).2, ?_, ?_⟩
  · apply haltered (sampleSnapshot "operator" sampleDraft_valid)
    have hread : ∀ wire : CrawlRunSnapshotWire String, decode (encode wire) = some wire :=
      Codec.decode_encode
    constructor
    · intro h
      rw [StoredSnapshot.content, StoredSnapshot.content] at h
      simp only [StoredSnapshot.withActor, CrawlRunSnapshot.stored, CrawlRunSnapshot.serialize,
        hread, Option.map_some, Option.some.injEq] at h
      have hactor := congrArg CrawlRunSnapshotDraft.actor
        (congrArg CrawlRunSnapshotWire.toCrawlRunSnapshotDraft (Prod.mk.inj h).1)
      exact absurd hactor (by decide)
    · intro wire hwire
      exact Or.inr (Or.inr rfl)
  · exact (hcompatible _ _).mpr ⟨rfl, rfl, rfl, rfl, rfl, rfl, rfl⟩

end Erabi.Snapshot
