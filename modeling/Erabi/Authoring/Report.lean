/-
# Reports of the core contributor

Every core issue is within the bounds of an issue, whatever the version.  The core
registry therefore fails on the number of issues only, and its report is publishable
exactly when no core issue is a blocker.
-/
import Mathlib
import Erabi.Authoring.Validation

namespace Erabi.Authoring

open Snapshot (hexEncode hexByte)

variable {lib : Libraries} {context : VersionValidationContext}

/-! ## Texts of bounded length -/

/-- A text within the bound is short and printable. -/
theorem boundedText_iff {max : ℕ} {value : String} :
    VersionValidationIssue.boundedText max value = true ↔ value.length ≤ max ∧ Printable value := by
  rw [VersionValidationIssue.boundedText, Bool.and_eq_true, decide_eq_true_eq,
    Bool.not_eq_true', hasControl_eq_false]

/-- A hexadecimal digit is printable. -/
theorem isControl_hexDigit (n : ℕ) : isControl (Json.hexDigit n) = false := by
  by_cases hn : n < 16
  · have hdigits : ∀ d : Fin 16, isControl (Json.hexDigit d) = false := by decide
    exact hdigits ⟨n, hn⟩
  · rw [Json.hexDigit, List.getD_eq_default _ _ (by simpa using hn)]
    decide

/-- Hexadecimal text is printable. -/
theorem isControl_of_mem_hexText {digits : List (Fin 16)} {c : Char}
    (hc : c ∈ Uuid.hexText digits) : isControl c = false := by
  obtain ⟨d, _, rfl⟩ := List.mem_map.mp hc
  exact isControl_hexDigit d

/-- An identifier is written in thirty-six characters. -/
theorem Id.length_text (id : Id) : id.text.length = 36 := by
  rw [Id.text, ← String.length_toList, Uuid.hyphenated, String.toList_ofList]
  simp [Uuid.hexText, id.uuid.length_digits]

/-- An identifier is written printably. -/
theorem Id.printable_text (id : Id) : Printable id.text := by
  intro c hc
  rw [Id.text, Uuid.hyphenated, String.toList_ofList] at hc
  have hhyphen : isControl '-' = false := by decide
  simp only [List.mem_append, List.mem_cons] at hc
  rcases hc with hc | rfl | hc | rfl | hc | rfl | hc | rfl | hc
  all_goals first | exact isControl_of_mem_hexText hc | exact hhyphen

/-- No identifier is written as the empty text. -/
theorem Id.text_ne_empty (id : Id) : id.text ≠ "" := by
  intro h
  have hlength := id.length_text
  rw [h] at hlength
  exact absurd hlength (by decide)

/-- Encoded bytes are printable. -/
theorem isControl_of_mem_hexEncode {bytes : List UInt8} {c : Char}
    (hc : c ∈ (hexEncode bytes).toList) : isControl c = false := by
  rw [hexEncode, String.toList_ofList, List.mem_flatMap] at hc
  obtain ⟨byte, _, hc⟩ := hc
  rw [hexByte, List.mem_cons, List.mem_singleton] at hc
  rcases hc with rfl | rfl
  · exact isControl_hexDigit _
  · exact isControl_hexDigit _

/-- A digest is written in sixty-four characters. -/
theorem length_sha256Hex (value : String) : (sha256Hex lib value).length = 64 := by
  rw [sha256Hex, hexEncode, ← String.length_toList, String.toList_ofList]
  simp [List.length_flatMap, hexByte]

/-! ## Core issues are within bounds -/

/-- A message that an issue may have. -/
def ValidMessage (message : String) : Prop :=
  message ≠ "" ∧ VersionValidationIssue.boundedText maxValidationMessageChars message = true

instance (message : String) : Decidable (ValidMessage message) :=
  inferInstanceAs (Decidable (_ ∧ _))

/-- A subject whose identifier an issue may have. -/
def ValidSubject (subject : Option VersionValidationSubject) : Prop :=
  ∀ id ∈ subject.bind VersionValidationSubject.id,
    id ≠ "" ∧ VersionValidationIssue.boundedText maxValidationDetailChars id = true

/-- An issue may name no subject. -/
theorem validSubject_none : ValidSubject none := fun _ hid => by cases hid

/-- A record may be the subject of an issue. -/
theorem validSubject_subject (kind : String) (id : Id) : ValidSubject (some (subject kind id)) := by
  intro text htext
  obtain rfl : id.text = text := Option.some.inj htext
  refine ⟨id.text_ne_empty, boundedText_iff.mpr ⟨?_, id.printable_text⟩⟩
  rw [id.length_text]
  decide

/-- A key that a detail may have. -/
def ValidKey (key : String) : Prop :=
  key ≠ "" ∧ VersionValidationIssue.boundedText maxValidationDetailChars key = true

instance (key : String) : Decidable (ValidKey key) := inferInstanceAs (Decidable (_ ∧ _))

/-- Details that an issue may have. -/
def ValidDetails (details : List (String × String)) : Prop :=
  ∀ detail ∈ details, ValidKey detail.1 ∧
    VersionValidationIssue.boundedText maxValidationDetailChars detail.2 = true

/-- An issue is within bounds when its message, details and subject are. -/
theorem withinBounds_of {issue : VersionValidationIssue} (hmessage : ValidMessage issue.message)
    (hlength : issue.details.length ≤ maxValidationDetails) (hdetails : ValidDetails issue.details)
    (hsubject : ValidSubject issue.subject) : issue.withinBounds = true := by
  have hid : (issue.subject.bind VersionValidationSubject.id).all (fun id =>
      id ≠ "" && VersionValidationIssue.boundedText maxValidationDetailChars id) = true := by
    rcases hi : issue.subject.bind VersionValidationSubject.id with _ | id
    · rfl
    · have hvalid := hsubject id hi
      simp [hvalid.1, hvalid.2]
  rw [VersionValidationIssue.withinBounds, hid]
  simp only [hmessage.1, hmessage.2, hlength, ne_eq, not_false_eq_true, decide_true,
    Bool.and_true, Bool.true_and, List.all_eq_true, Bool.and_eq_true, decide_eq_true_eq]
  intro detail hdetail
  obtain ⟨⟨hkey, hkeyBound⟩, hvalueBound⟩ := hdetails detail hdetail
  exact ⟨⟨hkey, hkeyBound⟩, hvalueBound⟩

/-- The core's issues are within bounds when their messages are. -/
theorem withinBounds_coreIssueWithSeverity {code message : String}
    {severity : VersionValidationSeverity} {subject : Option VersionValidationSubject}
    (hmessage : ValidMessage message) (hsubject : ValidSubject subject) :
    (coreIssueWithSeverity code severity message subject).withinBounds = true :=
  withinBounds_of hmessage (Nat.zero_le _) (fun _ hdetail => by cases hdetail) hsubject

/-- The ambiguity issue is within bounds at a printable witness. -/
theorem withinBounds_coreAmbiguityIssue (versionId : Id) {witness : String}
    (hwitness : Printable witness) :
    (coreAmbiguityIssue lib versionId witness).withinBounds = true := by
  have hmessage : ValidMessage
      "The canonical PageType resolver has an unresolved ambiguity for a known URL." := by decide
  have hlimit : 2 ≤ maxValidationDetails := by decide
  -- a short witness is given whole, a long one by its beginning and its hash
  rw [coreAmbiguityIssue]
  split
  · rename_i hshort
    have hkey : ValidKey "witness_url" := by decide
    refine withinBounds_of hmessage (le_trans (Nat.le_succ 1) hlimit) ?_
      (validSubject_subject _ versionId)
    intro detail hdetail
    obtain rfl : detail = ("witness_url", witness) := List.mem_singleton.mp hdetail
    exact ⟨hkey, boundedText_iff.mpr ⟨hshort, hwitness⟩⟩
  · have hbeginning : VersionValidationIssue.boundedText maxValidationDetailChars
        (String.ofList (witness.toList.take (maxValidationDetailChars - 64))) = true := by
      refine boundedText_iff.mpr ⟨?_, fun c hc => ?_⟩
      · rw [← String.length_toList, String.toList_ofList, List.length_take]
        exact le_trans (min_le_left _ _) (by decide)
      · rw [String.toList_ofList] at hc
        exact hwitness c (List.mem_of_mem_take hc)
    have hhash : VersionValidationIssue.boundedText maxValidationDetailChars
        (sha256Hex lib witness) = true := by
      refine boundedText_iff.mpr ⟨?_, fun c hc => isControl_of_mem_hexEncode hc⟩
      rw [length_sha256Hex]
      decide
    have hsorted : "witness_url_prefix" < "witness_url_sha256" := by decide
    have hback : ¬ "witness_url_sha256" < "witness_url_prefix" := by decide
    -- the two details are kept in the order of their keys
    have hdetails : ∀ (issue : VersionValidationIssue) (a b : String), issue.details = [] →
        ((issue.withDetail "witness_url_prefix" a).withDetail "witness_url_sha256" b).details =
          [("witness_url_prefix", a), ("witness_url_sha256", b)] := by
      intro issue a b hnone
      simp only [VersionValidationIssue.withDetail, hnone, List.filter_nil, List.nil_append,
        List.filter_cons, hsorted, hback, decide_true, decide_false, if_true]
      rfl
    have hkeys : ValidKey "witness_url_prefix" ∧ ValidKey "witness_url_sha256" := by decide
    refine withinBounds_of hmessage ?_ ?_ (validSubject_subject _ versionId)
    · rw [hdetails _ _ _ rfl]
      exact hlimit
    · rw [hdetails _ _ _ rfl]
      intro detail hdetail
      rcases List.mem_cons.mp hdetail with rfl | hdetail
      · exact ⟨hkeys.1, hbeginning⟩
      · obtain rfl := List.mem_singleton.mp hdetail
        exact ⟨hkeys.2, hhash⟩

namespace VersionValidationContext

/-- The witnesses of ambiguity are URLs, so printable. -/
theorem printable_of_mem_witnesses {witness : String}
    (h : witness ∈ context.designTimeAmbiguityWitnesses lib) : Printable witness := by
  rw [designTimeAmbiguityWitnesses, mem_dedup, List.mem_mergeSort, List.mem_filterMap] at h
  obtain ⟨url, _, hurl⟩ := h
  rw [ambiguousWitness] at hurl
  split at hurl
  · cases hurl
  · rename_i canonical _
    split at hurl
    · rw [← Option.some.inj hurl]
      exact canonical.canonicalUrl.printable
    · cases hurl

/-- An issue with a message of its own and a subject of the version. -/
theorem withinBounds_issue {code message : String} {severity : VersionValidationSeverity}
    (hmessage : ValidMessage message) (kind : String) (id : Id) :
    (coreIssueWithSeverity code severity message (some (subject kind id))).withinBounds = true :=
  withinBounds_coreIssueWithSeverity hmessage (validSubject_subject kind id)

theorem withinBounds_enabledSeedIssues :
    ∀ issue ∈ context.enabledSeedIssues, issue.withinBounds = true := by
  intro issue hissue
  rw [enabledSeedIssues] at hissue
  split at hissue
  · rw [List.mem_singleton.mp hissue]
    exact withinBounds_coreIssueWithSeverity (by decide) validSubject_none
  · cases hissue

theorem withinBounds_canonicalizationIssues :
    ∀ issue ∈ context.canonicalizationIssues lib, issue.withinBounds = true := by
  intro issue hissue
  rw [canonicalizationIssues] at hissue
  split at hissue
  · rw [List.mem_singleton.mp hissue]
    exact withinBounds_coreIssueWithSeverity (by decide) validSubject_none
  · obtain ⟨seed, _, hseed⟩ := List.mem_filterMap.mp hissue
    rw [seedCanonicalizationIssue] at hseed
    split at hseed
    · rw [← Option.some.inj hseed]
      exact withinBounds_issue (by decide) _ _
    · split at hseed
      · rw [← Option.some.inj hseed]
        exact withinBounds_issue (by decide) _ _
      · cases hseed

theorem withinBounds_seedHintIssues :
    ∀ issue ∈ context.seedHintIssues, issue.withinBounds = true := by
  intro issue hissue
  obtain ⟨seed, _, rfl⟩ := List.mem_map.mp hissue
  exact withinBounds_issue (by decide) _ _

theorem withinBounds_matcherIssues :
    ∀ issue ∈ context.matcherIssues lib, issue.withinBounds = true := by
  intro issue hissue
  obtain ⟨pageType, _, hissue⟩ := List.mem_flatMap.mp hissue
  obtain ⟨matcher, _, rfl⟩ := List.mem_map.mp hissue
  exact withinBounds_issue (by decide) _ _

theorem withinBounds_domainScopeIssues :
    ∀ issue ∈ context.domainScopeIssues lib, issue.withinBounds = true := by
  intro issue hissue
  rw [domainScopeIssues] at hissue
  split at hissue
  · cases hissue
  · rw [List.mem_singleton.mp hissue]
    exact withinBounds_coreIssueWithSeverity (by decide) validSubject_none

/-- An issue that names an error code is within bounds. -/
theorem withinBounds_coreGuardrailIssue (code : ErrorCode) :
    (coreGuardrailIssue code).withinBounds = true := by
  unfold coreGuardrailIssue
  split
  all_goals exact withinBounds_coreIssueWithSeverity (by decide) validSubject_none

theorem withinBounds_guardrailIssues :
    ∀ issue ∈ context.guardrailIssues, issue.withinBounds = true := by
  intro issue hissue
  rw [guardrailIssues] at hissue
  split at hissue
  · rw [List.mem_singleton.mp hissue]
    exact withinBounds_coreGuardrailIssue _
  · obtain ⟨budget, _, rfl⟩ := List.mem_map.mp hissue
    exact withinBounds_issue (by decide) _ _

theorem withinBounds_transitionIssues :
    ∀ issue ∈ context.transitionIssues, issue.withinBounds = true := by
  intro issue hissue
  obtain ⟨transition, _, hissue⟩ := List.mem_flatMap.mp hissue
  rw [transitionIssue, List.mem_append, List.mem_append] at hissue
  rcases hissue with (hissue | hissue) | hissue
  · split at hissue
    · cases hissue
    · rw [List.mem_singleton.mp hissue]
      exact withinBounds_issue (by decide) _ _
  · split at hissue
    · cases hissue
    · rw [List.mem_singleton.mp hissue]
      exact withinBounds_issue (by decide) _ _
  · split at hissue
    · cases hissue
    · rw [List.mem_singleton.mp hissue]
      exact withinBounds_issue (by decide) _ _

theorem withinBounds_ambiguityIssues :
    ∀ issue ∈ context.ambiguityIssues lib, issue.withinBounds = true := by
  intro issue hissue
  obtain ⟨witness, hwitness, rfl⟩ := List.mem_map.mp hissue
  exact withinBounds_coreAmbiguityIssue _ (printable_of_mem_witnesses hwitness)

theorem withinBounds_pageTypeEvidenceIssues :
    ∀ issue ∈ context.pageTypeEvidenceIssues, issue.withinBounds = true := by
  intro issue hissue
  obtain ⟨pageType, _, hissue⟩ := List.mem_flatMap.mp hissue
  rw [pageTypeEvidenceIssue, List.mem_append] at hissue
  rcases hissue with hissue | hissue
  · split at hissue
    · rw [List.mem_singleton.mp hissue]
      exact withinBounds_issue (by decide) _ _
    · cases hissue
  · split at hissue
    · rw [List.mem_singleton.mp hissue]
      exact withinBounds_issue (by decide) _ _
    · cases hissue

theorem withinBounds_transitionEvidenceIssues :
    ∀ issue ∈ context.transitionEvidenceIssues, issue.withinBounds = true := by
  intro issue hissue
  obtain ⟨transition, _, rfl⟩ := List.mem_map.mp hissue
  exact withinBounds_issue (by decide) _ _

/-- Every core issue is within the bounds of an issue. -/
theorem withinBounds_coreIssues :
    ∀ issue ∈ context.coreIssues lib, issue.withinBounds = true := by
  intro issue hissue
  simp only [coreIssues, List.mem_append] at hissue
  rcases hissue with ((((((((h | h) | h) | h) | h) | h) | h) | h) | h) | h
  · exact withinBounds_enabledSeedIssues issue h
  · exact withinBounds_canonicalizationIssues issue h
  · exact withinBounds_seedHintIssues issue h
  · exact withinBounds_matcherIssues issue h
  · exact withinBounds_domainScopeIssues issue h
  · exact withinBounds_guardrailIssues issue h
  · exact withinBounds_transitionIssues issue h
  · exact withinBounds_ambiguityIssues issue h
  · exact withinBounds_pageTypeEvidenceIssues issue h
  · exact withinBounds_transitionEvidenceIssues issue h

end VersionValidationContext

/-! ## The core registry -/

/-- Bounded issues that fit in are all taken over. -/
theorem contribute_eq_ok (key : String) {issues rest : List VersionValidationIssue}
    (hbounds : ∀ issue ∈ rest, issue.withinBounds = true)
    (hfit : issues.length + rest.length ≤ maxValidationIssues) :
    contribute key issues rest =
      .ok (issues ++ rest.map fun issue => issue.attributed key) := by
  induction rest generalizing issues with
  | nil => simp [contribute]
  | cons issue rest ih =>
    have hlength : (issues ++ [issue.attributed key]).length = issues.length + 1 := by simp
    rw [List.length_cons] at hfit
    rw [contribute, if_pos (hbounds issue List.mem_cons_self), if_neg (by omega),
      ih (fun i hi => hbounds i (List.mem_cons_of_mem _ hi)) (by omega), List.map_cons,
      List.append_assoc, List.singleton_append]

/-- The issues of a report: sorted, and each once. -/
def normalized (issues : List VersionValidationIssue) : List VersionValidationIssue :=
  dedup (issues.mergeSort fun a b => a.compare b ≠ .gt)

/-- The core issues of a contributor, as the report attributes them. -/
theorem mem_normalized_core {issues : List VersionValidationIssue}
    {issue : VersionValidationIssue} :
    issue ∈ normalized (issues.map fun issue => issue.attributed "core") ↔
      ∃ i ∈ issues, i.attributed "core" = issue := by
  rw [normalized, mem_dedup, List.mem_mergeSort, List.mem_map]

/-- The report of the core registry. -/
def coreReport (lib : Libraries) (context : VersionValidationContext) : VersionValidationReport :=
  let issues := normalized ((context.coreIssues lib).map fun issue => issue.attributed "core")
  .new context.version.id context.configHash
    (issues.filter fun issue => issue.severity = .blocker)
    (issues.filter fun issue => issue.severity = .warning)

/-- While the core's issues fit, validation returns its report. -/
theorem coreOnly_validate_of_le
    (hcount : (context.coreIssues lib).length ≤ maxValidationIssuesPerContributor) :
    (VersionValidationRegistry.coreOnly lib).validate context = .ok (coreReport lib context) := by
  have hkey : validIdentifier "core" = true := by decide
  have hfit : ([] : List VersionValidationIssue).length + (context.coreIssues lib).length ≤
      maxValidationIssues := le_trans (by simpa using hcount) (by decide)
  have hcollect : collect context [] [] [coreContributor lib] =
      .ok ((context.coreIssues lib).map fun issue => issue.attributed "core") := by
    have hcontribute := contribute_eq_ok "core"
      VersionValidationContext.withinBounds_coreIssues hfit
    rw [collect, if_neg List.not_mem_nil]
    show (if maxValidationIssuesPerContributor < (context.coreIssues lib).length then _
      else (do
        let issues ← contribute "core" [] (context.coreIssues lib)
        collect context ["core"] issues [])) = _
    rw [if_neg (by omega), hcontribute]
    rfl
  rw [VersionValidationRegistry.validate, if_pos]
  · show (do
      let issues ← collect context [] [] ([coreContributor lib].mergeSort fun a b => a.key ≤ b.key)
      _) = _
    rw [List.mergeSort_singleton, hcollect]
    rfl
  · intro contributor hcontributor
    rw [List.mem_singleton.mp hcontributor]
    exact hkey

/-- Beyond the cap, validation names the core as the offender. -/
theorem coreOnly_validate_of_lt
    (hcount : maxValidationIssuesPerContributor < (context.coreIssues lib).length) :
    (VersionValidationRegistry.coreOnly lib).validate context = .error (.tooManyIssues "core") := by
  have hkey : validIdentifier "core" = true := by decide
  have hcollect : collect context [] [] [coreContributor lib] = .error (.tooManyIssues "core") := by
    rw [collect, if_neg List.not_mem_nil]
    show (if maxValidationIssuesPerContributor < (context.coreIssues lib).length then _
      else _) = _
    rw [if_pos hcount]
    rfl
  rw [VersionValidationRegistry.validate, if_pos]
  · show (do
      let issues ← collect context [] [] ([coreContributor lib].mergeSort fun a b => a.key ≤ b.key)
      _) = _
    rw [List.mergeSort_singleton, hcollect]
    rfl
  · intro contributor hcontributor
    rw [List.mem_singleton.mp hcontributor]
    exact hkey

/-- The report is publishable exactly when no core issue is a blocker. -/
theorem coreReport_publishable : (coreReport lib context).publishable = true ↔
    ∀ issue ∈ context.coreIssues lib, issue.severity ≠ .blocker := by
  show ((normalized ((context.coreIssues lib).map fun issue => issue.attributed "core")).filter
    fun issue => issue.severity = .blocker).isEmpty = true ↔ _
  rw [List.isEmpty_iff, List.filter_eq_nil_iff]
  constructor
  · intro h issue hissue hblocker
    exact h _ (mem_normalized_core.mpr ⟨issue, hissue, rfl⟩) (decide_eq_true hblocker)
  · intro h issue hissue hblocker
    obtain ⟨i, hi, rfl⟩ := mem_normalized_core.mp hissue
    exact h i hi (of_decide_eq_true hblocker)

end Erabi.Authoring
