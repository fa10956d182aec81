/-
# Recovery checkpoints are read back

The envelope that is written for a checkpoint is read back as that checkpoint, and only
envelopes of the run, of its snapshot and of the current formats are read.
-/
import Mathlib
import Erabi.Recovery.Checkpoint
import Erabi.Snapshot.Loading

namespace Erabi.Recovery

open Json Snapshot
open Queue (CrawlRunType)
open String (utf8Len)
open Relational.Transaction (except_bind_eq_ok)

variable {Url : Type} [Codec Url] {sha256 : ByteArray → List UInt8}

namespace CrawlRecoveryCheckpoint

variable {checkpoint : CrawlRecoveryCheckpoint} {snapshot : CrawlRunSnapshot Url sha256}
  {envelope : CheckpointEnvelope} {crawlRunId : Uuid} {recoveryPhase : CrawlRecoveryPhase}

/-! ## What is checked -/

/-- The fields of a checkpoint on their own. -/
structure Shaped (checkpoint : CrawlRecoveryCheckpoint) : Prop where
  formatVersion : checkpoint.formatVersion = crawlRecoveryFormatVersion
  snapshotHash : validHash checkpoint.snapshotHash = true
  checkpointCompatibilityHash : validHash checkpoint.checkpointCompatibilityHash = true
  semanticConfigHash : ∀ hash ∈ checkpoint.semanticConfigHash, validHash hash = true

/-- What the check of the shape guarantees. -/
theorem shaped_of_validateShape (h : checkpoint.validateShape = .ok ()) : checkpoint.Shaped := by
  rw [validateShape] at h
  split at h
  · cases h
  · rename_i hversion
    split at h
    · cases h
    · split at h
      · cases h
      · rename_i hhashes
        simp only [Bool.or_eq_true, Bool.not_eq_true', not_or, Bool.not_eq_false] at hhashes
        refine ⟨not_not.mp hversion, hhashes.1, hhashes.2, fun hash hhash => ?_⟩
        rw [Option.mem_def] at hhash
        cases hrun : checkpoint.runType with
        | productionRun =>
          simp only [hrun, hhash, Option.all_some, Bool.or_eq_true, Bool.not_eq_true'] at h
          by_contra hinvalid
          rw [if_pos (Or.inr (Bool.eq_false_of_not_eq_true hinvalid))] at h
          cases h
        | quickScrape => simp [hrun, hhash] at h
        | testRun => simp [hrun] at h
        | discoveryPreview => simp [hrun] at h

omit [Codec Url] in
/-- The check on the crawler's identity. -/
theorem sameConfiguration_iff {configuration : RunConfiguration Url} {version : Option Uuid}
    {hash : Option String} : sameConfiguration configuration version hash = true ↔
      (version, hash) = crawlerIdentity configuration := by
  cases configuration with
  | crawlerVersion crawler version' hash' =>
    cases version with
    | none => simp [sameConfiguration, crawlerIdentity]
    | some version =>
      cases hash with
      | none => simp [sameConfiguration, crawlerIdentity]
      | some hash =>
        simp only [sameConfiguration, crawlerIdentity, Bool.and_eq_true, decide_eq_true_eq,
          Prod.mk.injEq, Option.some.injEq]
        exact and_congr eq_comm eq_comm
  | quickScrape target adHoc =>
    cases version with
    | some version => simp [sameConfiguration, crawlerIdentity]
    | none =>
      cases hash with
      | some hash => simp [sameConfiguration, crawlerIdentity]
      | none => simp [sameConfiguration, crawlerIdentity]

/-- A checkpoint that fits the snapshot is that of the run at its phase. -/
theorem validateAgainst_eq_ok : checkpoint.validateAgainst snapshot = .ok () ↔
    checkpoint = ofSnapshot checkpoint.crawlRunId snapshot checkpoint.recoveryPhase ∧
      isSupportedRunType snapshot.runType = true ∧ checkpoint.validateShape = .ok () := by
  rw [validateAgainst]
  constructor
  · intro h
    -- each check of the source gives one part of the statement
    split at h
    · cases h
    · rename_i hsupported
      split at h
      · cases h
      · rename_i hshape
        split at h
        · cases h
        · rename_i hidentity
          split at h
          · rename_i hconfiguration
            have hversion := (shaped_of_validateShape hshape).formatVersion
            obtain ⟨hversionId, hsemantic⟩ :=
              Prod.ext_iff.mp (sameConfiguration_iff.mp hconfiguration)
            simp only [Bool.or_eq_true, decide_eq_true_eq, ne_eq, not_or, not_not] at hidentity
            obtain ⟨⟨hrunType, hhash⟩, hcompatibility⟩ := hidentity
            refine ⟨?_, by simpa using hsupported, hshape⟩
            rw [ofSnapshot, ← hversion, ← hrunType, ← hhash, ← hcompatibility, ← hversionId,
              ← hsemantic]
          · cases h
  · rintro ⟨hsame, hsupported, hshape⟩
    have hconfiguration : sameConfiguration snapshot.configuration checkpoint.crawlerVersionId
        checkpoint.semanticConfigHash = true := by
      rw [sameConfiguration_iff, hsame]
      rfl
    have hidentity : checkpoint.runType = snapshot.runType ∧
        checkpoint.snapshotHash = snapshot.snapshotHash ∧
          checkpoint.checkpointCompatibilityHash = snapshot.checkpointCompatibilityHash := by
      rw [hsame]
      exact ⟨rfl, rfl, rfl⟩
    simp [hsupported, hshape, hidentity, hconfiguration]

/-- A checkpoint is made of its snapshot. -/
theorem new_eq_ok : new crawlRunId snapshot recoveryPhase = .ok checkpoint ↔
    checkpoint = ofSnapshot crawlRunId snapshot recoveryPhase ∧
      checkpoint.validateAgainst snapshot = .ok () := by
  rw [new]
  cases hvalidate : (ofSnapshot crawlRunId snapshot recoveryPhase).validateAgainst snapshot with
  | error error =>
    constructor
    · intro h
      cases h
    · rintro ⟨rfl, hok⟩
      rw [hvalidate] at hok
      cases hok
  | ok _ =>
    constructor
    · intro h
      cases h
      exact ⟨rfl, hvalidate⟩
    · rintro ⟨rfl, _⟩
      rfl

/-! ## Sizes -/

/-- Hexadecimal digits are plain. -/
theorem plain_of_isAsciiHexdigit {c : Char} (h : isAsciiHexdigit c = true) : Plain c := by
  have hsmall : c.toNat < 128 := by
    have hle : ∀ {d : Char}, c ≤ d → c.toNat ≤ d.toNat := fun hcd => UInt32.le_iff_toNat_le.mp hcd
    rw [isAsciiHexdigit, Bool.or_eq_true, Bool.or_eq_true] at h
    rcases h with (h | h) | h
    · have hdigit := hle (of_decide_eq_true (Bool.and_eq_true_iff.mp h).2)
      exact lt_of_le_of_lt hdigit (by decide)
    · have hletter := hle (of_decide_eq_true (Bool.and_eq_true_iff.mp h).2)
      exact lt_of_le_of_lt hletter (by decide)
    · have hcapital := hle (of_decide_eq_true (Bool.and_eq_true_iff.mp h).2)
      exact lt_of_le_of_lt hcapital (by decide)
  have hall : ∀ n < 128, isAsciiHexdigit (Char.ofNat n) = true → Plain (Char.ofNat n) := by decide
  have hplain := hall c.toNat hsmall
  rw [Char.ofNat_toNat] at hplain
  exact hplain h

/-- The size of a quoted hash. -/
theorem utf8Len_quote_of_validHash {hash : String} (h : validHash hash = true) :
    utf8Len (quote hash) = 66 := by
  obtain ⟨hsize, hdigits⟩ := Bool.and_eq_true_iff.mp h
  have hplain : ∀ c ∈ hash.toList, Plain c := fun c hc =>
    plain_of_isAsciiHexdigit (List.all_eq_true.mp hdigits c hc)
  rw [utf8Len_quote hplain, ← utf8Len_of_plain hplain, String.utf8Len_toList,
    decide_eq_true_eq.mp hsize]

/-- Identifiers are plain. -/
theorem plain_hyphenated {u : Uuid} : ∀ c ∈ u.hyphenated.toList, Plain c := by
  have hhex : ∀ (digits : List (Fin 16)), ∀ c ∈ Uuid.hexText digits, Plain c := by
    intro digits c hc
    obtain ⟨d, _, rfl⟩ := List.mem_map.mp hc
    exact plain_hexDigit d.val d.isLt
  have hhyphen : Plain '-' := by decide
  intro c hc
  rw [Uuid.hyphenated, String.toList_ofList] at hc
  simp only [List.mem_append, List.mem_cons] at hc
  rcases hc with hc | rfl | hc | rfl | hc | rfl | hc | rfl | hc
  all_goals first | exact hhyphen | exact hhex _ c hc

/-- The length of an identifier. -/
theorem length_hyphenated (u : Uuid) : u.hyphenated.toList.length = 36 := by
  have hlength := u.length_digits
  rw [Uuid.hyphenated, String.toList_ofList]
  simp [Uuid.hexText, hlength]

/-- The size of a quoted identifier. -/
theorem utf8Len_quote_hyphenated (u : Uuid) : utf8Len (quote u.hyphenated) = 38 := by
  rw [utf8Len_quote plain_hyphenated, length_hyphenated]

/-- The size of an optional identifier. -/
theorem utf8Len_write_encodeOption_uuid (u : Option Uuid) :
    utf8Len (write (encodeOption u)) ≤ 38 := by
  cases u with
  | none => decide
  | some u => exact (utf8Len_quote_hyphenated u).le

/-- The size of an optional hash. -/
theorem utf8Len_write_encodeOption_hash {hash : Option String}
    (h : ∀ text ∈ hash, validHash text = true) : utf8Len (write (encodeOption hash)) ≤ 66 := by
  cases hash with
  | none => decide
  | some text => exact (utf8Len_quote_of_validHash (h text rfl)).le

/-- The payload of a checkpoint is small. -/
theorem Shaped.utf8Len_toPayload (h : checkpoint.Shaped) :
    utf8Len checkpoint.toPayload.write ≤ 512 := by
  have hversion : utf8Len (write (Codec.encode checkpoint.formatVersion)) = 1 := by
    rw [h.formatVersion]
    decide
  have hrun : utf8Len (write (Codec.encode checkpoint.crawlRunId)) = 38 :=
    utf8Len_quote_hyphenated checkpoint.crawlRunId
  have htype : utf8Len (write (.string (runTypeName checkpoint.runType))) ≤ 19 := by
    cases checkpoint.runType <;> decide
  have hhash : utf8Len (write (Codec.encode checkpoint.snapshotHash)) = 66 :=
    utf8Len_quote_of_validHash h.snapshotHash
  have hcompatibility : utf8Len (write (Codec.encode checkpoint.checkpointCompatibilityHash)) =
      66 := utf8Len_quote_of_validHash h.checkpointCompatibilityHash
  have hcrawler := utf8Len_write_encodeOption_uuid checkpoint.crawlerVersionId
  have hsemantic := utf8Len_write_encodeOption_hash h.semanticConfigHash
  have hphase : utf8Len (write (.string checkpoint.recoveryPhase.name)) ≤ 13 := by
    cases checkpoint.recoveryPhase <;> decide
  -- The keys with their quotes.
  have hkeys : ["format_version", "crawl_run_id", "run_type", "snapshot_hash",
      "checkpoint_compatibility_hash", "crawler_version_id", "semantic_config_hash",
      "recovery_phase"].map (fun key => utf8Len (quote key)) = [16, 14, 10, 15, 31, 20, 22, 16] := by
    decide
  simp only [List.map_cons, List.map_nil, List.cons.injEq] at hkeys
  refine (utf8Len_write_ofFields_le checkpoint.fields).trans ?_
  simp only [fields, List.map_cons, List.map_nil, List.sum_cons, List.sum_nil, fieldSize]
  omega

/-! ## Writing envelopes -/

/-- The envelope of a checkpoint. -/
def written (checkpoint : CrawlRecoveryCheckpoint) : CheckpointEnvelope where
  formatVersion := checkpointEnvelopeFormatVersion
  sequence := 0
  identity := ⟨checkpoint.crawlRunId.hyphenated, checkpoint.snapshotHash,
    checkpoint.checkpointCompatibilityHash⟩
  payloadKind := ⟨crawlRecoveryPayloadKind⟩
  payload := checkpoint.toPayload

/-- An identifier passes as the identity of a snapshot. -/
theorem boundedNonEmpty_hyphenated (u : Uuid) :
    boundedNonEmpty u.hyphenated maxSnapshotIdBytes = .ok () := by
  have hsize : u.hyphenated.utf8ByteSize = 36 := by
    rw [← String.utf8Len_toList, utf8Len_of_plain plain_hyphenated, length_hyphenated]
  have hhyphen : '-' ∈ u.hyphenated.toList := by simp [Uuid.hyphenated]
  have hvisible : u.hyphenated.toList.all isWhitespace = false := by
    rw [List.all_eq_false]
    exact ⟨'-', hhyphen, by decide⟩
  rw [boundedNonEmpty, hvisible, hsize]
  rfl

/-- The identity of a shaped checkpoint is valid. -/
theorem Shaped.validate_identity (h : checkpoint.Shaped) :
    checkpoint.written.identity.validate = .ok () := by
  rw [written, CheckpointIdentity.validate, boundedNonEmpty_hyphenated]
  simp [h.snapshotHash, h.checkpointCompatibilityHash]

/-- The envelope of a shaped checkpoint is valid. -/
theorem Shaped.validate_written (h : checkpoint.Shaped) :
    checkpoint.written.validate = .ok () := by
  have hkind : (⟨crawlRecoveryPayloadKind⟩ : CheckpointPayloadKind).validate = .ok () := by decide
  rw [CheckpointEnvelope.validate, h.validate_identity]
  simp [written, hkind, toPayload, ofFields, isObject]

/-- The envelope of a shaped checkpoint is small. -/
theorem Shaped.utf8Len_text (h : checkpoint.Shaped) :
    utf8Len checkpoint.written.text ≤ 1024 := by
  have hpayload := h.utf8Len_toPayload
  have hrun := utf8Len_quote_hyphenated checkpoint.crawlRunId
  have hhash := utf8Len_quote_of_validHash h.snapshotHash
  have hcompatibility := utf8Len_quote_of_validHash h.checkpointCompatibilityHash
  have hkeys : ["format_version", "sequence", "identity", "snapshot_id", "snapshot_hash",
      "compatibility_hash", "payload_kind", "payload", crawlRecoveryPayloadKind].map
        (fun key => utf8Len (quote key)) = [16, 10, 10, 13, 15, 20, 14, 9, 16] := by
    decide
  have hversion : utf8Len (write (Codec.encode checkpointEnvelopeFormatVersion)) = 1 := by decide
  have hsequence : utf8Len (write (Codec.encode (0 : UInt64))) = 1 := by decide
  simp only [List.map_cons, List.map_nil, List.cons.injEq] at hkeys
  have hidentity := utf8Len_objectText_le
    [("snapshot_id", quote checkpoint.crawlRunId.hyphenated),
      ("snapshot_hash", quote checkpoint.snapshotHash),
      ("compatibility_hash", quote checkpoint.checkpointCompatibilityHash)]
  simp only [List.map_cons, List.map_nil, List.sum_cons, List.sum_nil, fieldSize] at hidentity
  rw [CheckpointEnvelope.text]
  refine (utf8Len_objectText_le _).trans ?_
  simp only [written, List.map_cons, List.map_nil, List.sum_cons, List.sum_nil, fieldSize]
  omega

/-- Every checkpoint whose fields are valid is written. -/
theorem toEnvelope_eq_ok (h : checkpoint.validateShape = .ok ()) :
    checkpoint.toEnvelope = .ok checkpoint.written := by
  have hshaped := shaped_of_validateShape h
  have hpayload : ¬ maxCrawlRecoveryPayloadBytes < utf8Len checkpoint.toPayload.write := by
    have hsize := hshaped.utf8Len_toPayload
    rw [maxCrawlRecoveryPayloadBytes]
    omega
  have hidentity : CheckpointIdentity.new checkpoint.crawlRunId.hyphenated checkpoint.snapshotHash
      checkpoint.checkpointCompatibilityHash = .ok checkpoint.written.identity := by
    have hvalidate := hshaped.validate_identity
    rw [written] at hvalidate
    simp only [CheckpointIdentity.new, hvalidate]
    rfl
  have hkind : CheckpointPayloadKind.new crawlRecoveryPayloadKind =
      .ok ⟨crawlRecoveryPayloadKind⟩ := by decide
  have henvelope : CheckpointEnvelope.new checkpoint.written.identity ⟨crawlRecoveryPayloadKind⟩
      checkpoint.toPayload = .ok checkpoint.written := by
    have hvalidate := hshaped.validate_written
    rw [written] at hvalidate
    simp only [CheckpointEnvelope.new, written, hvalidate]
    rfl
  have hencode : checkpoint.written.encode = .ok checkpoint.written.text := by
    have hsize : ¬ maxCheckpointBytes < utf8Len checkpoint.written.text := by
      have htext := hshaped.utf8Len_text
      rw [maxCheckpointBytes]
      omega
    simp [CheckpointEnvelope.encode, hshaped.validate_written, hsize]
  simp [toEnvelope, h, hpayload, hidentity, hkind, henvelope, hencode, serialized, bind,
    Except.bind, Except.mapError, pure, Except.pure]

/-! ## Reading envelopes -/

/-- A payload is read back. -/
theorem ofPayload_toPayload : ofPayload checkpoint.toPayload = some checkpoint := by
  have htype : unitVariant parseRunType (.string (runTypeName checkpoint.runType)) =
      some checkpoint.runType := by
    cases checkpoint.runType <;> rfl
  have hphase : unitVariant CrawlRecoveryPhase.parse (.string checkpoint.recoveryPhase.name) =
      some checkpoint.recoveryPhase := by
    cases checkpoint.recoveryPhase <;> rfl
  simp [ofPayload, toPayload, fields, lookup_cons_of_ne, htype, hphase]

/-- The payload of a shaped checkpoint is valid. -/
theorem Shaped.checkPayload_toPayload (h : checkpoint.Shaped) :
    checkPayload checkpoint.toPayload = .ok () := by
  have hobject : isObject checkpoint.toPayload = true := rfl
  have hversion : otherFormatVersion (Codec.encode checkpoint.formatVersion) = false := by
    rw [h.formatVersion]
    decide
  have hpayload : ¬ maxCrawlRecoveryPayloadBytes < utf8Len checkpoint.toPayload.write := by
    have hsize := h.utf8Len_toPayload
    rw [maxCrawlRecoveryPayloadBytes]
    omega
  have hget : ∀ key, checkpoint.toPayload.get? key = checkpoint.fields.lookup key := fun key =>
    get?_ofFields checkpoint.fields key
  simp [checkPayload, hobject, hget, fields, lookup_cons_of_ne, hversion, hpayload,
    requiredFields]

/-- What is known of an envelope that is read for a run. -/
theorem fromEnvelope_eq_ok : fromEnvelope envelope snapshot crawlRunId = .ok checkpoint ↔
    envelope.formatVersion = checkpointEnvelopeFormatVersion ∧
      envelope.payloadKind.name = crawlRecoveryPayloadKind ∧
      checkPayload envelope.payload = .ok () ∧ ofPayload envelope.payload = some checkpoint ∧
      checkpoint.validateAgainst snapshot = .ok () ∧ checkpoint.crawlRunId = crawlRunId ∧
      envelope.identity = ⟨crawlRunId.hyphenated, checkpoint.snapshotHash,
        checkpoint.checkpointCompatibilityHash⟩ := by
  rw [fromEnvelope]
  constructor
  · intro h
    -- each check of the source gives one part of the statement
    split at h
    · cases h
    · rename_i hversion
      split at h
      · cases h
      · rename_i hkind
        split at h
        · cases h
        · rename_i hpayload
          split at h
          · cases h
          · rename_i decoded hdecoded
            split at h
            · cases h
            · rename_i hvalidate
              split at h
              · cases h
              · rename_i hidentity
                cases h
                simp only [Bool.or_eq_true, decide_eq_true_eq, ne_eq, not_or, not_not] at hidentity
                obtain ⟨⟨⟨hrun, hid⟩, hhash⟩, hcompatibility⟩ := hidentity
                refine ⟨not_not.mp hversion, not_not.mp hkind, hpayload, hdecoded, hvalidate,
                  hrun, ?_⟩
                rw [← hid, ← hhash, ← hcompatibility]
  · rintro ⟨hversion, hkind, hpayload, hdecoded, hvalidate, hrun, hidentity⟩
    simp [hversion, hkind, hpayload, hdecoded, hvalidate, hrun, hidentity]

/-! ## Which runs have checkpoints -/

/-- A text that is valid as a hash, from the conditions of a draft. -/
theorem validHash_of_not {hash : String}
    (h : ¬ (decide (hash.utf8ByteSize ≠ 64) || !hash.toList.all isAsciiHexdigit) = true) :
    validHash hash = true := by
  rw [Bool.or_eq_true, not_or] at h
  rw [validHash, Bool.and_eq_true]
  exact ⟨by simpa using h.1, by simpa using h.2⟩

omit [Codec Url] in
/-- The configuration of a valid draft is that of its run type. -/
theorem crawlerIdentity_of_valid {draft : CrawlRunSnapshotDraft Url}
    (h : validateDraft draft = .ok ()) :
    (draft.runType = .quickScrape ∧ crawlerIdentity draft.configuration = (none, none)) ∨
      draft.runType ≠ .quickScrape ∧ ∃ version hash,
        crawlerIdentity draft.configuration = (some version, some hash) ∧
          validHash hash = true := by
  simp only [validateDraft] at h
  obtain ⟨_, _, h⟩ := except_bind_eq_ok.mp h
  obtain ⟨_, _, h⟩ := except_bind_eq_ok.mp h
  obtain ⟨_, _, h⟩ := except_bind_eq_ok.mp h
  obtain ⟨_, _, h⟩ := except_bind_eq_ok.mp h
  split at h
  · cases h
  · split at h
    · rename_i hrun hconfiguration
      rw [hrun, hconfiguration]
      exact Or.inl ⟨rfl, rfl⟩
    · cases h
    · cases h
    · rename_i crawler version hash hconfiguration hrun
      split at h
      · cases h
      · split at h
        · cases h
        · rename_i hhash
          refine Or.inr ⟨hrun, version, hash, by rw [hconfiguration]; rfl, validHash_of_not hhash⟩

/-- A byte is written in hexadecimal digits. -/
theorem isAsciiHexdigit_hexByte (byte : UInt8) : ∀ c ∈ hexByte byte, isAsciiHexdigit c = true := by
  have hdigit : ∀ n < 16, isAsciiHexdigit (hexDigit n) = true := by decide
  have hhigh : byte.toNat >>> 4 < 16 := by
    have hbyte := byte.toNat_lt
    rw [Nat.shiftRight_eq_div_pow]
    omega
  have hlow : byte.toNat &&& 15 < 16 := Nat.lt_of_le_of_lt Nat.and_le_right (by omega)
  intro c hc
  rcases List.mem_pair.mp hc with rfl | rfl
  · exact hdigit _ hhigh
  · exact hdigit _ hlow

/-- The text of 32 bytes is valid as a hash. -/
theorem validHash_hexEncode {bytes : List UInt8} (h : bytes.length = 32) :
    validHash (hexEncode bytes) = true := by
  have hdigits : ∀ c ∈ bytes.flatMap hexByte, isAsciiHexdigit c = true := by
    intro c hc
    obtain ⟨byte, _, hmem⟩ := List.mem_flatMap.mp hc
    exact isAsciiHexdigit_hexByte byte c hmem
  have hlength : (bytes.flatMap hexByte).length = 64 := by
    have htwo : ∀ byte : UInt8, (hexByte byte).length = 2 := fun _ => rfl
    simp [List.length_flatMap, htwo, h]
  have hsize : (hexEncode bytes).utf8ByteSize = 64 := by
    rw [hexEncode, String.utf8ByteSize_ofList, utf8Len_of_plain, hlength]
    exact fun c hc => plain_of_isAsciiHexdigit (hdigits c hc)
  rw [validHash, hsize, hexEncode, String.toList_ofList, List.all_eq_true.mpr hdigits]
  rfl

/-- A run of a supported type has a checkpoint in each phase, as SHA-256 has 32 bytes. -/
theorem exists_new (hsha : ∀ bytes, (sha256 bytes).length = 32) (crawlRunId : Uuid)
    {snapshot : CrawlRunSnapshot Url sha256} (h : isSupportedRunType snapshot.runType = true)
    (recoveryPhase : CrawlRecoveryPhase) :
    ∃ checkpoint, new crawlRunId snapshot recoveryPhase = .ok checkpoint := by
  have hhash : validHash snapshot.snapshotHash = true := by
    rw [snapshot.snapshotHash_eq]
    exact validHash_hexEncode (hsha _)
  have hcompatibility : validHash snapshot.checkpointCompatibilityHash = true := by
    rw [snapshot.checkpointCompatibilityHash_eq]
    exact validHash_hexEncode (hsha _)
  refine ⟨ofSnapshot crawlRunId snapshot recoveryPhase, new_eq_ok.mpr ⟨rfl, ?_⟩⟩
  refine validateAgainst_eq_ok.mpr ⟨rfl, h, ?_⟩
  rw [validateShape]
  rcases crawlerIdentity_of_valid snapshot.valid with
    ⟨hrun, hidentity⟩ | ⟨hrun, version, hash, hidentity, hvalid⟩
  · simp [ofSnapshot, hrun, hidentity, hhash, hcompatibility, isSupportedRunType]
  · cases htype : snapshot.runType with
    | quickScrape => exact absurd htype hrun
    | productionRun =>
      simp [ofSnapshot, htype, hidentity, hhash, hcompatibility, isSupportedRunType, hvalid]
    | testRun =>
      rw [htype] at h
      cases h
    | discoveryPreview =>
      rw [htype] at h
      cases h

/-! ## The round trip -/

/-- The envelope that is written for a checkpoint of a run is read back as that
checkpoint; and what is read from any envelope is the checkpoint of the run and of its
snapshot at the phase that was read, and the envelope was written for them. -/
theorem checkpoint_round_trip (crawlRunId : Uuid) (snapshot : CrawlRunSnapshot Url sha256) :
    (∀ recoveryPhase checkpoint, new crawlRunId snapshot recoveryPhase = .ok checkpoint →
      ∃ envelope, checkpoint.toEnvelope = .ok envelope ∧
        fromEnvelope envelope snapshot crawlRunId = .ok checkpoint) ∧
      ∀ envelope checkpoint, fromEnvelope envelope snapshot crawlRunId = .ok checkpoint →
        new crawlRunId snapshot checkpoint.recoveryPhase = .ok checkpoint ∧
          envelope.formatVersion = checkpointEnvelopeFormatVersion ∧
          envelope.payloadKind.name = crawlRecoveryPayloadKind ∧
          envelope.identity = ⟨crawlRunId.hyphenated, snapshot.snapshotHash,
            snapshot.checkpointCompatibilityHash⟩ := by
  constructor
  · intro recoveryPhase checkpoint hnew
    obtain ⟨hsame, hvalidate⟩ := new_eq_ok.mp hnew
    obtain ⟨_, _, hshape⟩ := validateAgainst_eq_ok.mp hvalidate
    have hrun : checkpoint.crawlRunId = crawlRunId := by rw [hsame, ofSnapshot]
    refine ⟨checkpoint.written, toEnvelope_eq_ok hshape, fromEnvelope_eq_ok.mpr ?_⟩
    refine ⟨rfl, rfl, (shaped_of_validateShape hshape).checkPayload_toPayload,
      ofPayload_toPayload, hvalidate, hrun, ?_⟩
    rw [written, hrun]
  · intro envelope checkpoint hread
    obtain ⟨hversion, hkind, _, _, hvalidate, hrun, hidentity⟩ := fromEnvelope_eq_ok.mp hread
    obtain ⟨hsame, _, _⟩ := validateAgainst_eq_ok.mp hvalidate
    rw [hrun] at hsame
    refine ⟨new_eq_ok.mpr ⟨hsame, hvalidate⟩, hversion, hkind, ?_⟩
    rw [hidentity, hsame, ofSnapshot]

end CrawlRecoveryCheckpoint

end Erabi.Recovery
