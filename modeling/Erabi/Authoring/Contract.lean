/-
# The semantic contract

Every operation on a version keeps its semantic contract: valid policies, and budgets
of its own page types only.  A clone has the contract because its page types are
renamed one to one.
-/
import Mathlib
import Erabi.Authoring.Version

namespace Erabi.Authoring

variable {lib : Libraries}

/-! ## Checks that succeed -/

/-- A guard passes exactly when its condition holds. -/
@[simp] theorem ensure_eq_ok {p : Prop} [Decidable p] {e : ProductError} {u : Unit} :
    ensure p e = .ok u ↔ p := by
  unfold ensure
  split
  · rename_i hp
    exact ⟨fun _ => hp, fun _ => rfl⟩
  · rename_i hp
    exact ⟨fun h => (by cases h), fun h => absurd h hp⟩

/-- A sequence succeeds when both of its steps do. -/
theorem bind_eq_ok {α β : Type} {x : Except ProductError α} {f : α → Except ProductError β}
    {b : β} : (x >>= f) = .ok b ↔ ∃ a, x = .ok a ∧ f a = .ok b := by
  rcases x with e | a
  · exact ⟨fun h => (by cases h), fun ⟨_, h, _⟩ => (by cases h)⟩
  · exact ⟨fun h => ⟨a, rfl, h⟩, fun ⟨_, ha, hf⟩ => (Except.ok.inj ha) ▸ hf⟩

/-- Checks in a row succeed when each of them does. -/
theorem check_bind_eq_ok {β : Type} {x : Except ProductError Unit}
    {f : Unit → Except ProductError β} {b : β} :
    (x >>= f) = .ok b ↔ x = .ok () ∧ f () = .ok b := by
  rw [bind_eq_ok]
  exact ⟨fun ⟨_, hx, hf⟩ => ⟨hx, hf⟩, fun ⟨hx, hf⟩ => ⟨(), hx, hf⟩⟩

/-- A pure value succeeds with itself. -/
theorem pure_eq_ok {α : Type} {a b : α} :
    (pure a : Except ProductError α) = .ok b ↔ a = b :=
  ⟨fun h => Except.ok.inj h, fun h => h ▸ rfl⟩

/-- A fallible map over a list, given its value at each element. -/
theorem mapM_eq_ok_of_forall {α β : Type} {f : α → Except ProductError β} {g : α → β} {l : List α}
    (h : ∀ a ∈ l, f a = .ok (g a)) : l.mapM f = .ok (l.map g) := by
  induction l with
  | nil => rfl
  | cons a l ih =>
    rw [List.mapM_cons, h a List.mem_cons_self, ih fun b hb => h b (List.mem_cons_of_mem _ hb)]
    rfl

/-! ## Guardrails -/

/-- A budget of a page type is positive, and its health contract is supported. -/
def ValidBudget (budget : PageTypeDiscoveryGuardrails) : Prop :=
  budget.pageBudget ≠ some 0 ∧ ∀ version ∈ budget.healthThreshold, version = 1

/-- Page-type budgets pass when they are valid and name each page type once. -/
theorem validatePageTypes_eq_ok {budgets : List PageTypeDiscoveryGuardrails} {seen : List Id} :
    validatePageTypes seen budgets = .ok () ↔
      (budgets.map PageTypeDiscoveryGuardrails.pageTypeId).Nodup ∧
        (∀ budget ∈ budgets, budget.pageTypeId ∉ seen) ∧ ∀ budget ∈ budgets, ValidBudget budget := by
  induction budgets generalizing seen with
  | nil => simp [validatePageTypes]
  | cons budget budgets ih =>
    rw [validatePageTypes, check_bind_eq_ok, check_bind_eq_ok, ensure_eq_ok, ensure_eq_ok, ih]
    rw [List.map_cons, List.nodup_cons, List.forall_mem_cons, List.forall_mem_cons]
    simp only [List.mem_map, not_exists, not_and, List.mem_cons, not_or, ValidBudget]
    constructor
    · rintro ⟨⟨hseen, hpositive⟩, hhealth, hnodup, hfresh, hvalid⟩
      exact ⟨⟨fun b hb heq => (hfresh b hb).1 heq, hnodup⟩,
        ⟨hseen, fun b hb => (hfresh b hb).2⟩, ⟨hpositive, hhealth⟩, hvalid⟩
    · rintro ⟨⟨hfresh, hnodup⟩, ⟨hseen, hrest⟩, ⟨hpositive, hhealth⟩, hvalid⟩
      exact ⟨⟨hseen, hpositive⟩, hhealth, hnodup, fun b hb => ⟨hfresh b hb, hrest b hb⟩, hvalid⟩

/-- The mandatory guardrails are positive. -/
def CrawlerVersionGuardrails.Positive (guardrails : CrawlerVersionGuardrails) : Prop :=
  guardrails.version = guardrailPolicyVersion ∧ guardrails.maxPages ≠ 0 ∧
    guardrails.maxDepth ≠ 0 ∧ guardrails.maxDurationSeconds ≠ 0 ∧
      guardrails.maxDownloadedBytes ≠ 0 ∧ guardrails.maxConcurrentRequestsPerDomain ≠ 0

/-- Guardrails pass when positive, with valid budgets for distinct page types. -/
theorem CrawlerVersionGuardrails.validate_eq_ok {guardrails : CrawlerVersionGuardrails} :
    guardrails.validate = .ok () ↔ guardrails.Positive ∧
      (guardrails.pageTypes.map PageTypeDiscoveryGuardrails.pageTypeId).Nodup ∧
        ∀ budget ∈ guardrails.pageTypes, ValidBudget budget := by
  rw [CrawlerVersionGuardrails.validate, check_bind_eq_ok, ensure_eq_ok, validatePageTypes_eq_ok]
  simp [Positive]

/-! ## The contract -/

namespace CrawlerVersion

/-- The semantic contract of a version. -/
structure Contract (lib : Libraries) (version : CrawlerVersion) : Prop where
  canonicalizationPolicy : version.canonicalizationPolicy.validate = .ok ()
  domainScope : version.domainScope.validate lib = .ok ()
  guardrails : version.guardrails.validate = .ok ()
  budgets : ∀ budget ∈ version.guardrails.pageTypes, budget.pageTypeId ∈ version.pageTypeIds

variable {version version' : CrawlerVersion}

/-- The check of a version decides the contract. -/
theorem validateSemanticContract_eq_ok :
    version.validateSemanticContract lib = .ok () ↔ version.Contract lib := by
  rw [validateSemanticContract, check_bind_eq_ok, check_bind_eq_ok, check_bind_eq_ok,
    budgetsWithin, ensure_eq_ok]
  constructor
  · rintro ⟨hpolicy, hscope, hguardrails, hbudgets⟩
    exact ⟨hpolicy, hscope, hguardrails, hbudgets⟩
  · rintro ⟨hpolicy, hscope, hguardrails, hbudgets⟩
    exact ⟨hpolicy, hscope, hguardrails, hbudgets⟩

/-- A fresh draft meets the contract. -/
theorem contract_draft (id crawlerId : Id) : (draft id crawlerId).Contract lib where
  canonicalizationPolicy := by rfl
  domainScope := by rfl
  guardrails := by rfl
  budgets := fun _ hbudget => by cases hbudget

/-- Adding a seed appends it. -/
theorem addSeed_eq_ok {seed : Seed} (h : version.addSeed seed = .ok version') :
    version' = { version with seeds := version.seeds ++ [seed] } :=
  (pure_eq_ok.mp (check_bind_eq_ok.mp h).2).symm

/-- A draft takes the page types that its budgets stay within. -/
theorem setPageTypeIds_eq_ok {ids : List Id} : version.setPageTypeIds ids = .ok version' ↔
    version.state ≠ .published ∧
      (∀ budget ∈ version.guardrails.pageTypes, budget.pageTypeId ∈ ids) ∧
        version' = { version with pageTypeIds := ids } := by
  rw [setPageTypeIds, check_bind_eq_ok, check_bind_eq_ok, ensureDraft, budgetsWithin,
    ensure_eq_ok, ensure_eq_ok, pure_eq_ok]
  exact ⟨fun ⟨hdraft, hbudgets, heq⟩ => ⟨hdraft, hbudgets, heq.symm⟩,
    fun ⟨hdraft, hbudgets, heq⟩ => ⟨hdraft, hbudgets, heq.symm⟩⟩

/-- A draft takes any transitions. -/
theorem setTransitionIds_eq_ok {ids : List Id} : version.setTransitionIds ids = .ok version' ↔
    version.state ≠ .published ∧ version' = { version with transitionIds := ids } := by
  rw [setTransitionIds, check_bind_eq_ok, ensureDraft, ensure_eq_ok, pure_eq_ok]
  exact ⟨fun ⟨hdraft, heq⟩ => ⟨hdraft, heq.symm⟩, fun ⟨hdraft, heq⟩ => ⟨hdraft, heq.symm⟩⟩

/-- A draft takes a valid policy. -/
theorem setCanonicalizationPolicy_eq_ok {policy : CanonicalizationPolicy}
    (h : version.setCanonicalizationPolicy policy = .ok version') :
    policy.validate = .ok () ∧ version' = { version with canonicalizationPolicy := policy } := by
  rw [setCanonicalizationPolicy, check_bind_eq_ok, check_bind_eq_ok, pure_eq_ok] at h
  exact ⟨h.2.1, h.2.2.symm⟩

/-- A draft takes a valid scope. -/
theorem setDomainScope_eq_ok {scope : DomainScopePolicy}
    (h : version.setDomainScope lib scope = .ok version') :
    scope.validate lib = .ok () ∧ version' = { version with domainScope := scope } := by
  rw [setDomainScope, check_bind_eq_ok, check_bind_eq_ok, pure_eq_ok] at h
  exact ⟨h.2.1, h.2.2.symm⟩

/-- A draft takes valid guardrails about its own page types. -/
theorem setGuardrails_eq_ok {guardrails : CrawlerVersionGuardrails}
    (h : version.setGuardrails guardrails = .ok version') :
    guardrails.validate = .ok () ∧
      (∀ budget ∈ guardrails.pageTypes, budget.pageTypeId ∈ version.pageTypeIds) ∧
        version' = { version with guardrails := guardrails } := by
  rw [setGuardrails, check_bind_eq_ok, check_bind_eq_ok, check_bind_eq_ok, pure_eq_ok,
    budgetsWithin, ensure_eq_ok] at h
  exact ⟨h.2.1, h.2.2.1, h.2.2.2.symm⟩

/-- Publication changes the state of a draft alone. -/
theorem publish_eq_ok : version.publish = .ok version' ↔
    version.state ≠ .published ∧ version' = { version with state := .published } := by
  rw [publish, check_bind_eq_ok, ensureDraft, ensure_eq_ok, pure_eq_ok]
  exact ⟨fun ⟨hdraft, heq⟩ => ⟨hdraft, heq.symm⟩, fun ⟨hdraft, heq⟩ => ⟨hdraft, heq.symm⟩⟩

/-! ## Clones -/

/-- The page type of the clone that a page type of the source becomes. -/
def clonedPageType (version : CrawlerVersion) (generated : Generated) (id : Id) : Id :=
  generated.pageType (version.pageTypeIds.idxOf id)

/-- The clone of a version. -/
def cloned (version : CrawlerVersion) (generated : Generated) : CrawlerVersion :=
  { version with
    id := generated.version
    state := .draft
    seeds := version.seeds.mapIdx fun index seed => { seed with
      id := generated.seed index
      entryPageTypeHint := seed.entryPageTypeHint.bind (version.remapPageType generated) }
    pageTypeIds := version.pageTypeIds.mapIdx fun index _ => generated.pageType index
    transitionIds := version.transitionIds.mapIdx fun index _ => generated.transition index
    guardrails := { version.guardrails with
      pageTypes := version.guardrails.pageTypes.map fun budget =>
        { budget with pageTypeId := version.clonedPageType generated budget.pageTypeId } } }

/-- A published version that meets the contract is cloned, seeds' hints included. -/
theorem draftFromPublished_eq_ok {generated : Generated} :
    version.draftFromPublished lib generated = .ok version' ↔
      version.Contract lib ∧ version.state = .published ∧
        (∀ seed ∈ version.seeds, ∀ hint ∈ seed.entryPageTypeHint, hint ∈ version.pageTypeIds) ∧
          version' = version.cloned generated := by
  rw [draftFromPublished, check_bind_eq_ok, check_bind_eq_ok, check_bind_eq_ok, ensure_eq_ok,
    ensure_eq_ok, validateSemanticContract_eq_ok]
  refine and_congr_right fun hcontract => and_congr_right fun _ => and_congr_right fun _ => ?_
  have hbudgets : version.guardrails.pageTypes.mapM (version.cloneBudget generated) =
      .ok (version.guardrails.pageTypes.map fun budget =>
        { budget with pageTypeId := version.clonedPageType generated budget.pageTypeId }) := by
    refine mapM_eq_ok_of_forall fun budget hbudget => ?_
    rw [cloneBudget, remapPageType, if_pos (hcontract.budgets budget hbudget)]
    rfl
  rw [hbudgets]
  exact ⟨fun h => (pure_eq_ok.mp h).symm, fun h => pure_eq_ok.mpr h.symm⟩

/-- Distinct page types are cloned to distinct ones. -/
theorem clonedPageType_injective {generated : Generated}
    (hgenerated : Function.Injective generated.pageType) {a b : Id} (ha : a ∈ version.pageTypeIds)
    (h : version.clonedPageType generated a = version.clonedPageType generated b) : a = b :=
  (List.idxOf_inj ha).mp (hgenerated h)

/-- A clone has the clones of the page types. -/
theorem clonedPageType_mem {generated : Generated} {id : Id} (hid : id ∈ version.pageTypeIds) :
    version.clonedPageType generated id ∈ (version.cloned generated).pageTypeIds := by
  have hlt := List.idxOf_lt_length_iff.mpr hid
  refine List.mem_iff_getElem.mpr ⟨version.pageTypeIds.idxOf id, ?_, ?_⟩
  · simpa [cloned] using hlt
  · simp [cloned, clonedPageType]

/-- The clone meets the contract too. -/
theorem Contract.cloned {generated : Generated} (h : version.Contract lib)
    (hgenerated : Function.Injective generated.pageType) :
    (version.cloned generated).Contract lib where
  canonicalizationPolicy := h.canonicalizationPolicy
  domainScope := h.domainScope
  guardrails := by
    obtain ⟨hpositive, hnodup, hvalid⟩ := CrawlerVersionGuardrails.validate_eq_ok.mp h.guardrails
    refine CrawlerVersionGuardrails.validate_eq_ok.mpr ⟨hpositive, ?_, ?_⟩
    · show ((version.guardrails.pageTypes.map fun budget : PageTypeDiscoveryGuardrails =>
        { budget with pageTypeId := version.clonedPageType generated budget.pageTypeId }).map
          PageTypeDiscoveryGuardrails.pageTypeId).Nodup
      rw [List.map_map]
      refine List.Nodup.map_on (fun a ha b hb heq => ?_) (List.Nodup.of_map _ hnodup)
      have hid := clonedPageType_injective hgenerated (h.budgets a ha) heq
      exact List.inj_on_of_nodup_map hnodup ha hb hid
    · intro budget hbudget
      obtain ⟨b, hb, rfl⟩ := List.mem_map.mp hbudget
      exact hvalid b hb
  budgets budget hbudget := by
    obtain ⟨b, hb, rfl⟩ := List.mem_map.mp hbudget
    exact clonedPageType_mem (h.budgets b hb)

/-! ## Versions that the operations admit -/

/-- The versions that are made by the operations, from a fresh draft on. -/
inductive Edited (lib : Libraries) : CrawlerVersion → Prop
  | draft (id crawlerId : Id) : Edited lib (draft id crawlerId)
  | addSeed {version version' : CrawlerVersion} (seed : Seed) : Edited lib version →
      version.addSeed seed = .ok version' → Edited lib version'
  | setPageTypeIds {version version' : CrawlerVersion} (ids : List Id) : Edited lib version →
      version.setPageTypeIds ids = .ok version' → Edited lib version'
  | setTransitionIds {version version' : CrawlerVersion} (ids : List Id) : Edited lib version →
      version.setTransitionIds ids = .ok version' → Edited lib version'
  | setCanonicalizationPolicyId {version version' : CrawlerVersion} (id : Option Id) :
      Edited lib version → version.setCanonicalizationPolicyId id = .ok version' →
        Edited lib version'
  | setDomainScopeId {version version' : CrawlerVersion} (id : Option Id) :
      Edited lib version → version.setDomainScopeId id = .ok version' → Edited lib version'
  | setCanonicalizationPolicy {version version' : CrawlerVersion}
      (policy : CanonicalizationPolicy) : Edited lib version →
        version.setCanonicalizationPolicy policy = .ok version' → Edited lib version'
  | setDomainScope {version version' : CrawlerVersion} (scope : DomainScopePolicy) :
      Edited lib version → version.setDomainScope lib scope = .ok version' → Edited lib version'
  | setGuardrails {version version' : CrawlerVersion} (guardrails : CrawlerVersionGuardrails) :
      Edited lib version → version.setGuardrails guardrails = .ok version' → Edited lib version'
  | publish {version version' : CrawlerVersion} : Edited lib version →
      version.publish = .ok version' → Edited lib version'
  | draftFromPublished {version version' : CrawlerVersion} (generated : Generated) :
      Edited lib version → Function.Injective generated.pageType →
        version.draftFromPublished lib generated = .ok version' → Edited lib version'

/-- Whatever the operations make has the semantic contract. -/
theorem Edited.contract (h : Edited lib version) : version.Contract lib := by
  induction h with
  | draft id crawlerId => exact contract_draft id crawlerId
  | addSeed seed _ hok ih =>
    rw [addSeed_eq_ok hok]
    exact ⟨ih.canonicalizationPolicy, ih.domainScope, ih.guardrails, ih.budgets⟩
  | setPageTypeIds ids _ hok ih =>
    obtain ⟨_, hbudgets, rfl⟩ := setPageTypeIds_eq_ok.mp hok
    exact ⟨ih.canonicalizationPolicy, ih.domainScope, ih.guardrails, hbudgets⟩
  | setTransitionIds ids _ hok ih =>
    obtain ⟨_, rfl⟩ := setTransitionIds_eq_ok.mp hok
    exact ⟨ih.canonicalizationPolicy, ih.domainScope, ih.guardrails, ih.budgets⟩
  | setCanonicalizationPolicyId id _ hok ih =>
    rw [← pure_eq_ok.mp (check_bind_eq_ok.mp hok).2]
    exact ⟨ih.canonicalizationPolicy, ih.domainScope, ih.guardrails, ih.budgets⟩
  | setDomainScopeId id _ hok ih =>
    rw [← pure_eq_ok.mp (check_bind_eq_ok.mp hok).2]
    exact ⟨ih.canonicalizationPolicy, ih.domainScope, ih.guardrails, ih.budgets⟩
  | setCanonicalizationPolicy policy _ hok ih =>
    obtain ⟨hpolicy, rfl⟩ := setCanonicalizationPolicy_eq_ok hok
    exact ⟨hpolicy, ih.domainScope, ih.guardrails, ih.budgets⟩
  | setDomainScope scope _ hok ih =>
    obtain ⟨hscope, rfl⟩ := setDomainScope_eq_ok hok
    exact ⟨ih.canonicalizationPolicy, hscope, ih.guardrails, ih.budgets⟩
  | setGuardrails guardrails _ hok ih =>
    obtain ⟨hguardrails, hbudgets, rfl⟩ := setGuardrails_eq_ok hok
    exact ⟨ih.canonicalizationPolicy, ih.domainScope, hguardrails, hbudgets⟩
  | publish _ hok ih =>
    obtain ⟨_, rfl⟩ := publish_eq_ok.mp hok
    exact ⟨ih.canonicalizationPolicy, ih.domainScope, ih.guardrails, ih.budgets⟩
  | draftFromPublished generated _ hgenerated hok ih =>
    obtain ⟨_, _, _, rfl⟩ := draftFromPublished_eq_ok.mp hok
    exact ih.cloned hgenerated

end CrawlerVersion

end Erabi.Authoring
