/-
# Run snapshots

The configuration that is frozen when a crawl run is created: its checks, its two
hashes, and the JSON document in which it is stored.
-/
import Mathlib
import Erabi.Json.Codec
import Erabi.Json.Uuid
import Erabi.Queue.Job
import Erabi.Snapshot.CanonicalHash

namespace Erabi.Snapshot

open Json
open Queue (CrawlRunType)

/-! ## Settings -/

/-- The configuration layer that supplied a resolved setting value. -/
inductive SettingSource where
  | perRunOverride | runProfile | crawlerOperationalDefault | collectionOverride | globalSetting
  | builtInDefault
  deriving DecidableEq

/-- A resolved value together with the layer that effectively supplied it. -/
structure ResolvedValue (T : Type) where
  value : T
  source : SettingSource
  deriving DecidableEq

/-- The resolved operational settings frozen into a snapshot. -/
structure SnapshotOperationalSettings where
  maxPages : ResolvedValue UInt64
  maxDepth : ResolvedValue UInt32
  maxDurationSeconds : ResolvedValue UInt64
  concurrency : ResolvedValue UInt32
  requestDelayMs : ResolvedValue UInt64
  timeoutMs : ResolvedValue UInt64
  screenshot : ResolvedValue Bool
  assetDownloadLimitBytes : ResolvedValue UInt64
  retainArtifacts : ResolvedValue Bool
  userAgent : ResolvedValue String
  deriving DecidableEq

/-! ## Configuration and robots policy -/

/-- The immutable semantic configuration identity used by a run. -/
inductive RunConfiguration (Url : Type) where
  | crawlerVersion (crawlerId crawlerVersionId : Uuid) (semanticConfigHash : String)
  | quickScrape (targetUrl : Url) (adHocConfiguration : Json.Object)

/-- The robots-policy decision preserved with its audit context. -/
inductive RobotsDecision where
  | respect
  | override (reason : String)
  deriving DecidableEq

/-- Auditable robots-policy context for a run snapshot. -/
structure RobotsAudit where
  decision : RobotsDecision
  actor : String
  decidedAt : String
  affectedScope : String
  userAgent : String
  crawlerVersionId : Option Uuid
  deriving DecidableEq

/-- Input used once to build an immutable snapshot. -/
structure CrawlRunSnapshotDraft (Url : Type) where
  runType : CrawlRunType
  configuration : RunConfiguration Url
  selectedSeedIds : List Uuid
  runProfileId : Option Uuid
  settings : SnapshotOperationalSettings
  robots : RobotsAudit
  actor : String
  createdAt : String

/-! ## Checks -/

/-- Why a snapshot is refused. -/
inductive SnapshotError where
  | invalid (message : String)
  deriving DecidableEq

/-- The characters that are trimmed from a text. -/
def isWhitespace (c : Char) : Bool :=
  (9 ≤ c.toNat && c.toNat ≤ 13) || c.toNat = 0x20 || c.toNat = 0x85 || c.toNat = 0xA0 ||
    c.toNat = 0x1680 || (0x2000 ≤ c.toNat && c.toNat ≤ 0x200A) || c.toNat = 0x2028 ||
    c.toNat = 0x2029 || c.toNat = 0x202F || c.toNat = 0x205F || c.toNat = 0x3000

/-- The text is not blank. -/
def requireNonEmpty (label value : String) : Except SnapshotError Unit :=
  if value.toList.all isWhitespace then
    .error (.invalid (label ++ " must not be empty"))
  else .ok ()

/-- How long the reason for an override may be. -/
def maxRobotsOverrideReasonChars : ℕ := 1000

/-- The checks on the decision about robots. -/
def RobotsAudit.validate (robots : RobotsAudit) : Except SnapshotError Unit := do
  requireNonEmpty "robots actor" robots.actor
  requireNonEmpty "robots decision time" robots.decidedAt
  requireNonEmpty "robots affected scope" robots.affectedScope
  requireNonEmpty "robots user agent" robots.userAgent
  match robots.decision with
  | .override reason =>
      requireNonEmpty "robots override reason" reason
      if reason.length > maxRobotsOverrideReasonChars then
        throw (.invalid ("robots override reason must not exceed " ++
          toString maxRobotsOverrideReasonChars ++ " characters"))
  | .respect => pure ()

/-- A hexadecimal digit in either case. -/
def isAsciiHexdigit (c : Char) : Bool :=
  c.isDigit || ('a' ≤ c && c ≤ 'f') || ('A' ≤ c && c ≤ 'F')

/-- The checks on a draft. -/
def validateDraft {Url : Type} (draft : CrawlRunSnapshotDraft Url) : Except SnapshotError Unit := do
  requireNonEmpty "run actor" draft.actor
  requireNonEmpty "run creation time" draft.createdAt
  requireNonEmpty "resolved user agent" draft.settings.userAgent.value
  draft.robots.validate
  if draft.settings.userAgent.value ≠ draft.robots.userAgent then
    throw (.invalid "resolved user agent must match robots audit user agent")
  match draft.runType, draft.configuration with
  | .quickScrape, .quickScrape _ _ =>
      if draft.robots.crawlerVersionId.isSome then
        throw (.invalid "Quick Scrape robots audit cannot reference a CrawlerVersion")
  | .quickScrape, .crawlerVersion _ _ _ =>
      throw (.invalid "QUICK_SCRAPE requires an ad-hoc Quick Scrape configuration")
  | _, .quickScrape _ _ =>
      throw (.invalid "only QUICK_SCRAPE may use an ad-hoc Quick Scrape configuration")
  | _, .crawlerVersion _ crawlerVersionId semanticConfigHash =>
      if draft.robots.crawlerVersionId ≠ some crawlerVersionId then
        throw (.invalid "robots audit must reference the snapshotted CrawlerVersion")
      if semanticConfigHash.utf8ByteSize ≠ 64 ||
          !semanticConfigHash.toList.all isAsciiHexdigit then
        throw (.invalid "semantic configuration hash must be a SHA-256 hex value")

/-! ## JSON documents -/

/-- The word for a type of run. -/
def runTypeName : CrawlRunType → String
  | .quickScrape => "QUICK_SCRAPE"
  | .testRun => "TEST_RUN"
  | .discoveryPreview => "DISCOVERY_PREVIEW"
  | .productionRun => "PRODUCTION_RUN"

/-- The type of run for a word. -/
def parseRunType : String → Option CrawlRunType
  | "QUICK_SCRAPE" => some .quickScrape
  | "TEST_RUN" => some .testRun
  | "DISCOVERY_PREVIEW" => some .discoveryPreview
  | "PRODUCTION_RUN" => some .productionRun
  | _ => none

instance : Codec CrawlRunType :=
  Codec.ofText runTypeName parseRunType fun runType => by cases runType <;> rfl

/-- The word for where a setting comes from. -/
def settingSourceName : SettingSource → String
  | .perRunOverride => "PER_RUN_OVERRIDE"
  | .runProfile => "RUN_PROFILE"
  | .crawlerOperationalDefault => "CRAWLER_OPERATIONAL_DEFAULT"
  | .collectionOverride => "COLLECTION_OVERRIDE"
  | .globalSetting => "GLOBAL_SETTING"
  | .builtInDefault => "BUILT_IN_DEFAULT"

/-- Where a setting comes from, for a word. -/
def parseSettingSource : String → Option SettingSource
  | "PER_RUN_OVERRIDE" => some .perRunOverride
  | "RUN_PROFILE" => some .runProfile
  | "CRAWLER_OPERATIONAL_DEFAULT" => some .crawlerOperationalDefault
  | "COLLECTION_OVERRIDE" => some .collectionOverride
  | "GLOBAL_SETTING" => some .globalSetting
  | "BUILT_IN_DEFAULT" => some .builtInDefault
  | _ => none

instance : Codec SettingSource :=
  Codec.ofText settingSourceName parseSettingSource fun source => by cases source <;> rfl

/-- A document with one field for each key. -/
theorem ordered_document {fields : List (String × Json)} (hkeys : (fields.map Prod.fst).Nodup)
    (hvalues : ∀ value ∈ fields.map Prod.snd, value.ordered = true) :
    (ofFields fields).ordered = true :=
  ordered_ofFields hkeys fun _ hfield => hvalues _ (List.mem_map_of_mem hfield)

/-- An object is not null. -/
theorem ofFields_ne_null (fields : List (String × Json)) : ofFields fields ≠ .null := by
  intro h
  cases h

instance {T : Type} [Codec T] : Codec (ResolvedValue T) where
  encode resolved := ofFields [("value", encode resolved.value), ("source", encode resolved.source)]
  decode document := do
    let value ← field document "value"
    let source ← field document "source"
    some ⟨value, source⟩
  decode_encode resolved := by simp [lookup_cons_of_ne]
  ordered_encode resolved := ordered_document (by simp) (by simp)
  encode_ne_null _ := ofFields_ne_null _

instance : Codec SnapshotOperationalSettings where
  encode settings := ofFields
    [("max_pages", encode settings.maxPages),
      ("max_depth", encode settings.maxDepth),
      ("max_duration_seconds", encode settings.maxDurationSeconds),
      ("concurrency", encode settings.concurrency),
      ("request_delay_ms", encode settings.requestDelayMs),
      ("timeout_ms", encode settings.timeoutMs),
      ("screenshot", encode settings.screenshot),
      ("asset_download_limit_bytes", encode settings.assetDownloadLimitBytes),
      ("retain_artifacts", encode settings.retainArtifacts),
      ("user_agent", encode settings.userAgent)]
  decode document := do
    let maxPages ← field document "max_pages"
    let maxDepth ← field document "max_depth"
    let maxDurationSeconds ← field document "max_duration_seconds"
    let concurrency ← field document "concurrency"
    let requestDelayMs ← field document "request_delay_ms"
    let timeoutMs ← field document "timeout_ms"
    let screenshot ← field document "screenshot"
    let assetDownloadLimitBytes ← field document "asset_download_limit_bytes"
    let retainArtifacts ← field document "retain_artifacts"
    let userAgent ← field document "user_agent"
    some { maxPages, maxDepth, maxDurationSeconds, concurrency, requestDelayMs, timeoutMs,
           screenshot, assetDownloadLimitBytes, retainArtifacts, userAgent }
  decode_encode settings := by simp [lookup_cons_of_ne]
  ordered_encode settings := ordered_document (by simp) (by simp)
  encode_ne_null _ := ofFields_ne_null _

instance : Codec RobotsDecision where
  encode
    | .respect => ofFields [("decision", encode "RESPECT")]
    | .override reason => ofFields [("decision", encode "OVERRIDE"), ("reason", encode reason)]
  decode document := do
    let decision : String ← field document "decision"
    if decision = "RESPECT" then some .respect
    else if decision = "OVERRIDE" then some (.override (← field document "reason"))
    else none
  decode_encode decision := by cases decision <;> simp [lookup_cons_of_ne]
  ordered_encode decision := by
    cases decision
    · exact ordered_document (by simp) (by simp)
    · exact ordered_document (by simp) (by simp)
  encode_ne_null decision := by cases decision <;> exact ofFields_ne_null _

instance : Codec RobotsAudit where
  encode robots := ofFields
    [("decision", encode robots.decision),
      ("actor", encode robots.actor),
      ("decided_at", encode robots.decidedAt),
      ("affected_scope", encode robots.affectedScope),
      ("user_agent", encode robots.userAgent),
      ("crawler_version_id", encodeOption robots.crawlerVersionId)]
  decode document := do
    let decision ← field document "decision"
    let actor ← field document "actor"
    let decidedAt ← field document "decided_at"
    let affectedScope ← field document "affected_scope"
    let userAgent ← field document "user_agent"
    let crawlerVersionId ← optionalField document "crawler_version_id"
    some { decision, actor, decidedAt, affectedScope, userAgent, crawlerVersionId }
  decode_encode robots := by simp [lookup_cons_of_ne]
  ordered_encode robots := ordered_document (by simp) (by simp)
  encode_ne_null _ := ofFields_ne_null _

section Url

variable {Url : Type} [Codec Url]

instance : Codec (RunConfiguration Url) where
  encode
    | .crawlerVersion crawlerId crawlerVersionId semanticConfigHash => ofFields
        [("kind", encode "CRAWLER_VERSION"),
          ("crawler_id", encode crawlerId),
          ("crawler_version_id", encode crawlerVersionId),
          ("semantic_config_hash", encode semanticConfigHash)]
    | .quickScrape targetUrl adHocConfiguration => ofFields
        [("kind", encode "QUICK_SCRAPE"),
          ("target_url", encode targetUrl),
          ("ad_hoc_configuration", encode adHocConfiguration)]
  decode document := do
    let kind : String ← field document "kind"
    if kind = "CRAWLER_VERSION" then
      let crawlerId ← field document "crawler_id"
      let crawlerVersionId ← field document "crawler_version_id"
      let semanticConfigHash ← field document "semantic_config_hash"
      some (.crawlerVersion crawlerId crawlerVersionId semanticConfigHash)
    else if kind = "QUICK_SCRAPE" then
      let targetUrl ← field document "target_url"
      let adHocConfiguration ← field document "ad_hoc_configuration"
      some (.quickScrape targetUrl adHocConfiguration)
    else none
  decode_encode configuration := by cases configuration <;> simp [lookup_cons_of_ne]
  ordered_encode configuration := by
    cases configuration
    · exact ordered_document (by simp) (by simp)
    · exact ordered_document (by simp) (by simp)
  encode_ne_null configuration := by cases configuration <;> exact ofFields_ne_null _

/-- The fields that a draft and a snapshot share in their documents. -/
def CrawlRunSnapshotDraft.fields (draft : CrawlRunSnapshotDraft Url) : List (String × Json) :=
  [("run_type", encode draft.runType),
    ("configuration", encode draft.configuration),
    ("selected_seed_ids", encode draft.selectedSeedIds),
    ("run_profile_id", encodeOption draft.runProfileId),
    ("settings", encode draft.settings),
    ("robots", encode draft.robots),
    ("actor", encode draft.actor),
    ("created_at", encode draft.createdAt)]

/-- Reads a draft field by field. -/
def readDraft (document : Json) : Option (CrawlRunSnapshotDraft Url) := do
  let runType ← field document "run_type"
  let configuration ← field document "configuration"
  let selectedSeedIds ← field document "selected_seed_ids"
  let runProfileId ← optionalField document "run_profile_id"
  let settings ← field document "settings"
  let robots ← field document "robots"
  let actor ← field document "actor"
  let createdAt ← field document "created_at"
  some { runType, configuration, selectedSeedIds, runProfileId, settings, robots, actor,
         createdAt }

instance : Codec (CrawlRunSnapshotDraft Url) where
  encode draft := ofFields draft.fields
  decode := readDraft
  decode_encode draft := by simp [readDraft, CrawlRunSnapshotDraft.fields, lookup_cons_of_ne]
  ordered_encode draft := ordered_document (by simp [CrawlRunSnapshotDraft.fields])
    (by simp [CrawlRunSnapshotDraft.fields])
  encode_ne_null _ := ofFields_ne_null _

end Url

/-! ## Hashes -/

/-- What a checkpoint of a run depends on. -/
structure CheckpointCompatibility (Url : Type) where
  runType : CrawlRunType
  configuration : RunConfiguration Url
  selectedSeedIds : List Uuid
  settings : SnapshotOperationalSettings
  robotsDecision : RobotsDecision
  robotsScope : String
  userAgent : String

/-- What must agree for a checkpoint to be taken up. -/
def CrawlRunSnapshotDraft.checkpointCompatibility {Url : Type}
    (draft : CrawlRunSnapshotDraft Url) : CheckpointCompatibility Url where
  runType := draft.runType
  configuration := draft.configuration
  selectedSeedIds := draft.selectedSeedIds
  settings := draft.settings
  robotsDecision := draft.robots.decision
  robotsScope := draft.robots.affectedScope
  userAgent := draft.robots.userAgent

section Url

variable {Url : Type} [Codec Url]

/-- What must agree, written. -/
def CheckpointCompatibility.toJson (compatibility : CheckpointCompatibility Url) : Json :=
  ofFields
    [("run_type", encode compatibility.runType),
      ("configuration", encode compatibility.configuration),
      ("selected_seed_ids", encode compatibility.selectedSeedIds),
      ("settings", encode compatibility.settings),
      ("robots_decision", encode compatibility.robotsDecision),
      ("robots_scope", encode compatibility.robotsScope),
      ("user_agent", encode compatibility.userAgent)]

variable (sha256 : ByteArray → List UInt8)

/-- The hash of a draft. -/
def CrawlRunSnapshotDraft.snapshotHash (draft : CrawlRunSnapshotDraft Url) : String :=
  canonicalSha256 sha256 (encode draft)

/-- The hash of what must agree. -/
def CrawlRunSnapshotDraft.checkpointCompatibilityHash (draft : CrawlRunSnapshotDraft Url) :
    String :=
  canonicalSha256 sha256 draft.checkpointCompatibility.toJson

/-! ## Snapshots -/

variable (Url) in
/-- A fully resolved, immutable snapshot. -/
structure CrawlRunSnapshot extends CrawlRunSnapshotDraft Url where
  snapshotHash : String
  checkpointCompatibilityHash : String
  valid : validateDraft toCrawlRunSnapshotDraft = .ok ()
  snapshotHash_eq : snapshotHash = toCrawlRunSnapshotDraft.snapshotHash sha256
  checkpointCompatibilityHash_eq :
    checkpointCompatibilityHash = toCrawlRunSnapshotDraft.checkpointCompatibilityHash sha256

namespace CrawlRunSnapshot

/-- Freezes a fully resolved configuration into a deterministic snapshot. -/
def new (draft : CrawlRunSnapshotDraft Url) : Except SnapshotError (CrawlRunSnapshot Url sha256) :=
  match h : validateDraft draft with
  | .error error => .error error
  | .ok () => .ok
      { toCrawlRunSnapshotDraft := draft
        snapshotHash := draft.snapshotHash sha256
        checkpointCompatibilityHash := draft.checkpointCompatibilityHash sha256
        valid := h
        snapshotHash_eq := rfl
        checkpointCompatibilityHash_eq := rfl }

/-- A stored draft, when its hashes are its own. -/
def rehydrate (draft : CrawlRunSnapshotDraft Url)
    (storedSnapshotHash storedCheckpointCompatibilityHash : String) :
    Except SnapshotError (CrawlRunSnapshot Url sha256) := do
  let snapshot ← new sha256 draft
  if snapshot.snapshotHash ≠ storedSnapshotHash then
    throw (.invalid "stored snapshot hash does not match the canonical snapshot")
  if snapshot.checkpointCompatibilityHash ≠ storedCheckpointCompatibilityHash then
    throw (.invalid
      "stored checkpoint compatibility hash does not match the canonical snapshot")
  return snapshot

end CrawlRunSnapshot

variable (Url) in
/-- The fields of a stored snapshot, before they are checked. -/
structure CrawlRunSnapshotWire extends CrawlRunSnapshotDraft Url where
  snapshotHash : String
  checkpointCompatibilityHash : String

instance : Codec (CrawlRunSnapshotWire Url) where
  encode wire := ofFields (wire.fields ++
    [("snapshot_hash", encode wire.snapshotHash),
      ("checkpoint_compatibility_hash", encode wire.checkpointCompatibilityHash)])
  decode document := do
    let draft ← readDraft document
    let snapshotHash ← field document "snapshot_hash"
    let checkpointCompatibilityHash ← field document "checkpoint_compatibility_hash"
    some { toCrawlRunSnapshotDraft := draft, snapshotHash, checkpointCompatibilityHash }
  decode_encode wire := by simp [readDraft, CrawlRunSnapshotDraft.fields, lookup_cons_of_ne]
  ordered_encode wire := ordered_document (by simp [CrawlRunSnapshotDraft.fields])
    (by simp [CrawlRunSnapshotDraft.fields])
  encode_ne_null _ := ofFields_ne_null _

end Url

end Erabi.Snapshot
