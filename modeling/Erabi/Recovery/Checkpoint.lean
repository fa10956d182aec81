/-
# Recovery checkpoints

The recovery control of a crawl is carried in a checkpoint envelope.  It names the run,
the hashes of its snapshot and the configuration of the crawler; when an envelope is read,
all of them are compared with the run that is recovered.
-/
import Mathlib
import Erabi.Json.Size
import Erabi.Snapshot.Record

namespace Erabi.Recovery

open Json Snapshot
open Queue (CrawlRunType)
open String (utf8Len)

/-! ## Envelopes -/

/-- Why an envelope is refused. -/
inductive CheckpointRepositoryError : Type where
  | unsupportedFormatVersion
  | invalidEnvelope
  | payloadTooLarge
  deriving DecidableEq, Repr

/-- The version of the envelope's format. -/
def checkpointEnvelopeFormatVersion : UInt16 := 1
/-- How large an envelope may be. -/
def maxCheckpointBytes : ℕ := 64 * 1024
/-- How long the kind of a payload may be. -/
def maxCheckpointPayloadKindBytes : ℕ := 64
/-- How long the identity of a snapshot may be. -/
def maxSnapshotIdBytes : ℕ := 128

/-- A text that is not blank and not too long. -/
def boundedNonEmpty (value : String) (maxBytes : ℕ) : Except CheckpointRepositoryError Unit :=
  if value.toList.all isWhitespace || maxBytes < value.utf8ByteSize then .error .invalidEnvelope
  else .ok ()

/-- The text of a SHA-256 digest. -/
def validHash (value : String) : Bool :=
  value.utf8ByteSize = 64 && value.toList.all isAsciiHexdigit

/-- The run and its configuration that a checkpoint was written for. -/
structure CheckpointIdentity where
  snapshotId : String
  snapshotHash : String
  compatibilityHash : String
  deriving DecidableEq, Repr

namespace CheckpointIdentity

/-- The checks on an identity. -/
def validate (identity : CheckpointIdentity) : Except CheckpointRepositoryError Unit :=
  match boundedNonEmpty identity.snapshotId maxSnapshotIdBytes with
  | .error error => .error error
  | .ok () =>
      if !validHash identity.snapshotHash || !validHash identity.compatibilityHash then
        .error .invalidEnvelope
      else .ok ()

/-- An identity that passes its checks. -/
def new (snapshotId snapshotHash compatibilityHash : String) :
    Except CheckpointRepositoryError CheckpointIdentity :=
  let identity := ⟨snapshotId, snapshotHash, compatibilityHash⟩
  (validate identity).map fun () => identity

end CheckpointIdentity

/-- The name of the subsystem that owns a payload. -/
structure CheckpointPayloadKind where
  name : String
  deriving DecidableEq, Repr

namespace CheckpointPayloadKind

/-- The checks on a payload kind. -/
def validate (kind : CheckpointPayloadKind) : Except CheckpointRepositoryError Unit :=
  if kind.name = "" || maxCheckpointPayloadKindBytes < kind.name.utf8ByteSize ||
      !kind.name.toList.all fun c => c.isUpper || c.isDigit || c = '_' then
    .error .invalidEnvelope
  else .ok ()

/-- A payload kind that passes its checks. -/
def new (name : String) : Except CheckpointRepositoryError CheckpointPayloadKind :=
  (validate ⟨name⟩).map fun () => ⟨name⟩

end CheckpointPayloadKind

/-- A payload under its identity. -/
structure CheckpointEnvelope where
  formatVersion : UInt16
  sequence : UInt64
  identity : CheckpointIdentity
  payloadKind : CheckpointPayloadKind
  payload : Json

/-- The value is an object. -/
def isObject : Json → Bool
  | .object _ => true
  | _ => false

namespace CheckpointEnvelope

/-- The checks on an envelope. -/
def validate (envelope : CheckpointEnvelope) : Except CheckpointRepositoryError Unit :=
  if envelope.formatVersion ≠ checkpointEnvelopeFormatVersion then
    .error .unsupportedFormatVersion
  else
    match envelope.identity.validate with
    | .error error => .error error
    | .ok () =>
        match envelope.payloadKind.validate with
        | .error error => .error error
        | .ok () => if !isObject envelope.payload then .error .invalidEnvelope else .ok ()

/-- An envelope of the current format that has no place in a sequence yet. -/
def new (identity : CheckpointIdentity) (payloadKind : CheckpointPayloadKind) (payload : Json) :
    Except CheckpointRepositoryError CheckpointEnvelope :=
  let envelope := ⟨checkpointEnvelopeFormatVersion, 0, identity, payloadKind, payload⟩
  (validate envelope).map fun () => envelope

/-- The fields of the envelope in the order of their declaration. -/
def text (envelope : CheckpointEnvelope) : List Char :=
  objectText
    [("format_version", write (encode envelope.formatVersion)),
      ("sequence", write (encode envelope.sequence)),
      ("identity", objectText
        [("snapshot_id", quote envelope.identity.snapshotId),
          ("snapshot_hash", quote envelope.identity.snapshotHash),
          ("compatibility_hash", quote envelope.identity.compatibilityHash)]),
      ("payload_kind", quote envelope.payloadKind.name),
      ("payload", write envelope.payload)]

/-- The text of an envelope within its bound. -/
def encode (envelope : CheckpointEnvelope) : Except CheckpointRepositoryError (List Char) :=
  match envelope.validate with
  | .error error => .error error
  | .ok () =>
      if maxCheckpointBytes < utf8Len envelope.text then .error .payloadTooLarge
      else .ok envelope.text

end CheckpointEnvelope

/-! ## Recovery control -/

/-- The version of the payload's format. -/
def crawlRecoveryFormatVersion : UInt16 := 1
/-- The kind of the payload. -/
def crawlRecoveryPayloadKind : String := "CRAWL_RECOVERY"
/-- How large the payload may be. -/
def maxCrawlRecoveryPayloadBytes : ℕ := 1024

/-- How far a crawl was. -/
inductive CrawlRecoveryPhase : Type where
  | initialized
  | traversing
  | finalizing
  deriving DecidableEq, Repr

namespace CrawlRecoveryPhase

/-- The word for a phase. -/
def name : CrawlRecoveryPhase → String
  | .initialized => "INITIALIZED"
  | .traversing => "TRAVERSING"
  | .finalizing => "FINALIZING"

/-- The phase for a word. -/
def parse : String → Option CrawlRecoveryPhase
  | "INITIALIZED" => some .initialized
  | "TRAVERSING" => some .traversing
  | "FINALIZING" => some .finalizing
  | _ => none

end CrawlRecoveryPhase

/-- Why a checkpoint is refused. -/
inductive CrawlRecoveryCheckpointError : Type where
  | unsupportedFormatVersion
  | unexpectedPayloadKind
  | malformedPayload
  | incompatibleRunIdentity
  | unsupportedRunType
  | serialization
  deriving DecidableEq, Repr

/-- What a crawl needs to be recovered. -/
structure CrawlRecoveryCheckpoint where
  formatVersion : UInt16
  crawlRunId : Uuid
  runType : CrawlRunType
  snapshotHash : String
  checkpointCompatibilityHash : String
  crawlerVersionId : Option Uuid
  semanticConfigHash : Option String
  recoveryPhase : CrawlRecoveryPhase
  deriving DecidableEq

/-- The types of runs that are recovered. -/
def isSupportedRunType : CrawlRunType → Bool
  | .productionRun | .quickScrape => true
  | .testRun | .discoveryPreview => false

namespace CrawlRecoveryCheckpoint

/-- The fields of the payload. -/
def fields (checkpoint : CrawlRecoveryCheckpoint) : List (String × Json) :=
  [("format_version", encode checkpoint.formatVersion),
    ("crawl_run_id", encode checkpoint.crawlRunId),
    ("run_type", .string (runTypeName checkpoint.runType)),
    ("snapshot_hash", encode checkpoint.snapshotHash),
    ("checkpoint_compatibility_hash", encode checkpoint.checkpointCompatibilityHash),
    ("crawler_version_id", encodeOption checkpoint.crawlerVersionId),
    ("semantic_config_hash", encodeOption checkpoint.semanticConfigHash),
    ("recovery_phase", .string checkpoint.recoveryPhase.name)]

/-- A checkpoint, written. -/
def toPayload (checkpoint : CrawlRecoveryCheckpoint) : Json := ofFields checkpoint.fields

/-- Fields that are not known are skipped. -/
def ofPayload (payload : Json) : Option CrawlRecoveryCheckpoint := do
  let formatVersion ← field payload "format_version"
  let crawlRunId ← field payload "crawl_run_id"
  let runType ← (payload.get? "run_type").bind (unitVariant parseRunType)
  let snapshotHash ← field payload "snapshot_hash"
  let checkpointCompatibilityHash ← field payload "checkpoint_compatibility_hash"
  let crawlerVersionId ← optionalField payload "crawler_version_id"
  let semanticConfigHash ← optionalField payload "semantic_config_hash"
  let recoveryPhase ← (payload.get? "recovery_phase").bind (unitVariant CrawlRecoveryPhase.parse)
  some { formatVersion, crawlRunId, runType, snapshotHash, checkpointCompatibilityHash,
         crawlerVersionId, semanticConfigHash, recoveryPhase }

/-- The checks on a checkpoint by itself. -/
def validateShape (checkpoint : CrawlRecoveryCheckpoint) :
    Except CrawlRecoveryCheckpointError Unit :=
  if checkpoint.formatVersion ≠ crawlRecoveryFormatVersion then .error .unsupportedFormatVersion
  else if !isSupportedRunType checkpoint.runType then .error .unsupportedRunType
  else if !validHash checkpoint.snapshotHash || !validHash checkpoint.checkpointCompatibilityHash
  then .error .incompatibleRunIdentity
  else
    match checkpoint.runType with
    | .productionRun =>
        if checkpoint.crawlerVersionId.isNone || checkpoint.semanticConfigHash.all (!validHash ·)
        then .error .incompatibleRunIdentity
        else .ok ()
    | .quickScrape =>
        if checkpoint.crawlerVersionId.isSome || checkpoint.semanticConfigHash.isSome then
          .error .incompatibleRunIdentity
        else .ok ()
    | .testRun | .discoveryPreview => .error .unsupportedRunType

section Snapshot

variable {Url : Type} [Codec Url] {sha256 : ByteArray → List UInt8}

/-- The configuration of the checkpoint is that of the run. -/
def sameConfiguration (configuration : RunConfiguration Url) (crawlerVersionId : Option Uuid)
    (semanticConfigHash : Option String) : Bool :=
  match configuration, crawlerVersionId, semanticConfigHash with
  | .crawlerVersion _ crawlerVersionId semanticConfigHash, some actualCrawlerVersionId,
      some actualSemanticConfigHash =>
        crawlerVersionId = actualCrawlerVersionId && semanticConfigHash = actualSemanticConfigHash
  | .quickScrape _ _, none, none => true
  | _, _, _ => false

/-- The checks on a checkpoint against its snapshot. -/
def validateAgainst (checkpoint : CrawlRecoveryCheckpoint)
    (snapshot : CrawlRunSnapshot Url sha256) : Except CrawlRecoveryCheckpointError Unit :=
  if !isSupportedRunType snapshot.runType then .error .unsupportedRunType
  else
    match checkpoint.validateShape with
    | .error error => .error error
    | .ok () =>
        if checkpoint.runType ≠ snapshot.runType ||
            checkpoint.snapshotHash ≠ snapshot.snapshotHash ||
            checkpoint.checkpointCompatibilityHash ≠ snapshot.checkpointCompatibilityHash then
          .error .incompatibleRunIdentity
        else if sameConfiguration snapshot.configuration checkpoint.crawlerVersionId
            checkpoint.semanticConfigHash then .ok ()
        else .error .incompatibleRunIdentity

/-- The crawler version of a run and the hash of its configuration. -/
def crawlerIdentity : RunConfiguration Url → Option Uuid × Option String
  | .crawlerVersion _ crawlerVersionId semanticConfigHash =>
      (some crawlerVersionId, some semanticConfigHash)
  | .quickScrape _ _ => (none, none)

/-- The recovery control of a run, before it is checked. -/
def ofSnapshot (crawlRunId : Uuid) (snapshot : CrawlRunSnapshot Url sha256)
    (recoveryPhase : CrawlRecoveryPhase) : CrawlRecoveryCheckpoint where
  formatVersion := crawlRecoveryFormatVersion
  crawlRunId := crawlRunId
  runType := snapshot.runType
  snapshotHash := snapshot.snapshotHash
  checkpointCompatibilityHash := snapshot.checkpointCompatibilityHash
  crawlerVersionId := (crawlerIdentity snapshot.configuration).1
  semanticConfigHash := (crawlerIdentity snapshot.configuration).2
  recoveryPhase := recoveryPhase

/-- A checkpoint of a snapshot that passes its checks. -/
def new (crawlRunId : Uuid) (snapshot : CrawlRunSnapshot Url sha256)
    (recoveryPhase : CrawlRecoveryPhase) :
    Except CrawlRecoveryCheckpointError CrawlRecoveryCheckpoint :=
  let checkpoint := ofSnapshot crawlRunId snapshot recoveryPhase
  (checkpoint.validateAgainst snapshot).map fun () => checkpoint

/-- What goes wrong in the repository is a serialization error of the crawler. -/
def serialized {α : Type} (result : Except CheckpointRepositoryError α) :
    Except CrawlRecoveryCheckpointError α := result.mapError fun _ => .serialization

/-- A checkpoint in its envelope. -/
def toEnvelope (checkpoint : CrawlRecoveryCheckpoint) :
    Except CrawlRecoveryCheckpointError CheckpointEnvelope := do
  checkpoint.validateShape
  let payload := checkpoint.toPayload
  if maxCrawlRecoveryPayloadBytes < utf8Len payload.write then throw .serialization
  let identity ← serialized (CheckpointIdentity.new checkpoint.crawlRunId.hyphenated
    checkpoint.snapshotHash checkpoint.checkpointCompatibilityHash)
  let payloadKind ← serialized (CheckpointPayloadKind.new crawlRecoveryPayloadKind)
  let envelope ← serialized (CheckpointEnvelope.new identity payloadKind payload)
  let _ ← serialized envelope.encode
  return envelope

/-- A number that is not the version is another version; what is no number is not a
version at all. -/
def otherFormatVersion : Json → Bool
  | .number n => n ≠ .posInt crawlRecoveryFormatVersion.toNat
  | _ => false

/-- The fields that a payload must have. -/
def requiredFields : List String :=
  ["crawl_run_id", "run_type", "snapshot_hash", "checkpoint_compatibility_hash",
    "crawler_version_id", "semantic_config_hash", "recovery_phase"]

/-- What is checked of a payload before it is decoded. -/
def checkPayload (payload : Json) : Except CrawlRecoveryCheckpointError Unit :=
  if !isObject payload then .error .malformedPayload
  else if (payload.get? "payload_version").isSome then .error .malformedPayload
  else
    match payload.get? "format_version" with
    | none => .error .malformedPayload
    | some formatVersion =>
        if otherFormatVersion formatVersion then .error .unsupportedFormatVersion
        else if requiredFields.any fun required => (payload.get? required).isNone then
          .error .malformedPayload
        else if maxCrawlRecoveryPayloadBytes < utf8Len payload.write then .error .malformedPayload
        else .ok ()

/-- The checkpoint in an envelope, when it fits the snapshot. -/
def fromEnvelope (envelope : CheckpointEnvelope) (snapshot : CrawlRunSnapshot Url sha256)
    (crawlRunId : Uuid) : Except CrawlRecoveryCheckpointError CrawlRecoveryCheckpoint :=
  if envelope.formatVersion ≠ checkpointEnvelopeFormatVersion then
    .error .unsupportedFormatVersion
  else if envelope.payloadKind.name ≠ crawlRecoveryPayloadKind then
    .error .unexpectedPayloadKind
  else
    match checkPayload envelope.payload with
    | .error error => .error error
    | .ok () =>
        match ofPayload envelope.payload with
        | none => .error .malformedPayload
        | some checkpoint =>
            match checkpoint.validateAgainst snapshot with
            | .error error => .error error
            | .ok () =>
                if checkpoint.crawlRunId ≠ crawlRunId ||
                    envelope.identity.snapshotId ≠ crawlRunId.hyphenated ||
                    envelope.identity.snapshotHash ≠ checkpoint.snapshotHash ||
                    envelope.identity.compatibilityHash ≠
                      checkpoint.checkpointCompatibilityHash then
                  .error .incompatibleRunIdentity
                else .ok checkpoint

end Snapshot

end CrawlRecoveryCheckpoint

end Erabi.Recovery
