/-
# The registry of contributors

The issues of a report are sorted by an order in which only equal issues are alike, and
each is kept once: a report depends on which issues there are and not on the order in which
they were found.  The contributors run in the order of their keys, which the registry
keeps apart, so that the order of their registration does not matter either.
-/
import Mathlib
import Erabi.Authoring.Ranking
import Erabi.Authoring.Report
import Erabi.Relational.Transaction

namespace Erabi.Authoring

open Sorting
open Relational.Transaction (except_bind_eq_ok)

variable {lib : Libraries} {context context' : VersionValidationContext}

/-! ## The order of issues -/

namespace VersionValidationIssue

instance : Std.TransCmp compareText := inferInstanceAs (Std.TransOrd String)

instance : Std.LawfulEqCmp compareText := inferInstanceAs (Std.LawfulEqOrd String)

/-- Optional texts are compared in the library's order. -/
theorem compareOption_eq : compareOption = (Ord.compare : Option String → _ → Ordering) := by
  funext a b
  rcases a with _ | a <;> rcases b with _ | b <;> rfl

instance : Std.TransCmp compareOption := by
  rw [compareOption_eq]
  infer_instance

instance : Std.LawfulEqCmp compareOption := by
  rw [compareOption_eq]
  infer_instance

/-- Lists of texts are compared text by text. -/
def compareTexts (s t : List String) : Ordering := compareOfLessAndEq s t

instance : Std.TransCmp compareTexts :=
  @Std.TransOrd.compareOfLessAndEq_of_antisymm_of_trans_of_total_of_not_le (List String)
    List.instLT List.instLE _ _ _ List.le_antisymm List.le_trans List.le_total List.not_le

/-- Only equal lists of texts compare equal. -/
theorem eq_of_compareTexts {s t : List String} (h : compareTexts s t = .eq) : s = t :=
  (@compareOfLessAndEq_eq_eq (List String) List.instLT List.instLE _ _ _ List.le_refl List.not_le
    s t).mp h

instance : Std.TransCmp (Ord.compare : VersionValidationSeverity → _ → Ordering) where
  eq_swap {a b} := by cases a <;> cases b <;> rfl
  isLE_trans {a b c} hab hbc := by cases a <;> cases b <;> cases c <;> trivial

/-- Only equal severities compare equal. -/
theorem eq_of_compareSeverity {a b : VersionValidationSeverity} (h : Ord.compare a b = .eq) :
    a = b := by
  cases a <;> cases b <;> first | rfl | cases h

/-- Issues are compared by something they have. -/
def comparing {β : Type} (cmp : β → β → Ordering) (f : VersionValidationIssue → β)
    (a b : VersionValidationIssue) : Ordering := cmp (f a) (f b)

instance {β : Type} {cmp : β → β → Ordering} [Std.TransCmp cmp] {f : VersionValidationIssue → β} :
    Std.TransCmp (comparing cmp f) := transCmp_on f

/-- Issues are compared field by field. -/
theorem compare_eq : compare = compareLex (comparing compareText code)
    (compareLex (comparing Ord.compare severity) (compareLex (comparing compareOption contributor)
      (compareLex (comparing compareText message)
        (compareLex (comparing compareOption fun issue => issue.subject.map (·.kind))
          (compareLex (comparing compareOption fun issue => issue.subject.bind (·.id))
            (comparing compareTexts fun issue => texts issue.details)))))) := rfl

instance : Std.TransCmp compare := by
  rw [compare_eq]
  infer_instance

/-- Details are known by their texts. -/
theorem texts_injective : Function.Injective texts := by
  intro details details' h
  induction details generalizing details' with
  | nil =>
    rcases details' with _ | ⟨detail, rest⟩
    · rfl
    · cases h
  | cons detail rest ih =>
    rcases details' with _ | ⟨detail', rest'⟩
    · cases h
    · simp only [texts, List.flatMap_cons, List.cons_append, List.nil_append, List.cons.injEq] at h
      obtain ⟨hkey, hvalue, hrest⟩ := h
      rw [ih hrest, Prod.ext hkey hvalue]

/-- Only equal issues are alike. -/
theorem eq_of_compare {a b : VersionValidationIssue} (h : a.compare b = .eq) : a = b := by
  simp only [compare, Ordering.then_eq_eq] at h
  obtain ⟨hcode, hseverity, hcontributor, hmessage, hkind, hid, hdetails⟩ := h
  have hsubject : a.subject = b.subject := by
    have hkind := Std.LawfulEqCmp.eq_of_compare hkind
    have hid := Std.LawfulEqCmp.eq_of_compare hid
    rcases ha : a.subject with _ | s <;> rcases hb : b.subject with _ | t <;>
      rw [ha, hb] at hkind hid
    · cases hkind
    · cases hkind
    · obtain ⟨kind, id⟩ := s
      obtain ⟨kind', id'⟩ := t
      obtain rfl : kind = kind' := Option.some.inj hkind
      obtain rfl : id = id' := hid
      rfl
  obtain ⟨code, severity, contributor, message, subject, details⟩ := a
  obtain ⟨code', severity', contributor', message', subject', details'⟩ := b
  obtain rfl : code = code' := Std.LawfulEqCmp.eq_of_compare hcode
  obtain rfl : severity = severity' := eq_of_compareSeverity hseverity
  obtain rfl : contributor = contributor' := Std.LawfulEqCmp.eq_of_compare hcontributor
  obtain rfl : message = message' := Std.LawfulEqCmp.eq_of_compare hmessage
  obtain rfl : subject = subject' := hsubject
  obtain rfl : details = details' := texts_injective (eq_of_compareTexts hdetails)
  rfl

end VersionValidationIssue

/-- The order in which the issues were found does not matter. -/
theorem normalized_perm {issues issues' : List VersionValidationIssue} (h : issues.Perm issues') :
    normalized issues = normalized issues' := by
  have hle : ∀ a b : VersionValidationIssue,
      decide (a.compare b ≠ .gt) = true ↔ (a.compare b).isLE = true := by
    intro a b
    rw [decide_eq_true_eq, Ordering.isLE_iff_ne_gt]
  rw [normalized, normalized]
  congr 1
  refine mergeSort_eq_of_perm ?_ ?_ ?_ h
  · intro a b c hab hbc
    rw [hle] at *
    exact Std.TransCmp.isLE_trans hab hbc
  · intro a b
    rw [Bool.or_eq_true, hle, hle]
    rcases hab : a.compare b with _ | _ | _
    · exact Or.inl rfl
    · exact Or.inl rfl
    · right
      rw [Std.OrientedCmp.lt_of_gt hab]
      rfl
  · intro a _ b _ hab hba
    rw [hle] at hab hba
    exact VersionValidationIssue.eq_of_compare (Std.OrientedCmp.isLE_antisymm hab hba)

/-! ## Registration -/

namespace VersionValidationRegistry

/-- A contributor needs a valid key of its own. -/
def register (registry : VersionValidationRegistry) (contributor : VersionValidationContributor) :
    Except VersionValidationError VersionValidationRegistry :=
  if ¬ validIdentifier contributor.key then .error .invalidContributorKey
  else if registry.contributors.any fun registered => registered.key = contributor.key then
    .error (.duplicateContributorKey contributor.key)
  else .ok ⟨registry.contributors ++ [contributor]⟩

/-- The core contributor, and then contributors of a kind. -/
inductive Registered (lib : Libraries) (Kind : VersionValidationContributor → Prop) :
    VersionValidationRegistry → Prop where
  | new : Registered lib Kind (coreOnly lib)
  | register {registry registry' : VersionValidationRegistry}
      {contributor : VersionValidationContributor} (h : Registered lib Kind registry)
      (hkind : Kind contributor) (hregister : registry.register contributor = .ok registry') :
      Registered lib Kind registry'

/-- Registration appends a contributor under a valid new key. -/
theorem register_eq_ok {registry registry' : VersionValidationRegistry}
    {contributor : VersionValidationContributor} :
    registry.register contributor = .ok registry' ↔ validIdentifier contributor.key = true ∧
      contributor.key ∉ registry.contributors.map (·.key) ∧
        registry' = ⟨registry.contributors ++ [contributor]⟩ := by
  unfold register
  by_cases hvalid : validIdentifier contributor.key = true
  · rw [if_neg (not_not.mpr hvalid)]
    by_cases hregistered :
        (registry.contributors.any fun registered => registered.key = contributor.key) = true
    · rw [if_pos hregistered]
      refine ⟨fun h => (by cases h), fun h => absurd ?_ h.2.1⟩
      obtain ⟨registered, hmem, hkey⟩ := List.any_eq_true.mp hregistered
      exact List.mem_map.mpr ⟨registered, hmem, of_decide_eq_true hkey⟩
    · rw [if_neg hregistered, Except.ok.injEq]
      refine ⟨fun h => ⟨hvalid, fun hmem => hregistered ?_, h.symm⟩, fun h => h.2.2.symm⟩
      obtain ⟨registered, hmem, hkey⟩ := List.mem_map.mp hmem
      exact List.any_eq_true.mpr ⟨registered, hmem, decide_eq_true hkey⟩
  · rw [if_pos hvalid]
    exact ⟨fun h => (by cases h), fun h => absurd h.1 hvalid⟩

variable {Kind : VersionValidationContributor → Prop} {registry registry' : VersionValidationRegistry}

/-- No two contributors of a registry share a key. -/
theorem Registered.nodup_keys (h : Registered lib Kind registry) :
    (registry.contributors.map (·.key)).Nodup := by
  induction h with
  | new => exact List.nodup_singleton _
  | register _ _ hregister ih =>
    obtain ⟨-, hfresh, rfl⟩ := register_eq_ok.mp hregister
    rw [List.map_append, List.map_singleton]
    exact List.nodup_append.mpr ⟨ih, List.nodup_singleton _, fun key hkey key' hkey' => by
      rw [List.mem_singleton.mp hkey']
      exact fun heq => hfresh (heq ▸ hkey)⟩

/-- The contributors of a registry are the core and those of the kind. -/
theorem Registered.core_or_kind (h : Registered lib Kind registry) :
    ∀ contributor ∈ registry.contributors, contributor = coreContributor lib ∨ Kind contributor := by
  induction h with
  | new => exact fun contributor hmem => Or.inl (List.mem_singleton.mp hmem)
  | register _ hkind hregister ih =>
    obtain ⟨-, -, rfl⟩ := register_eq_ok.mp hregister
    intro contributor hmem
    rcases List.mem_append.mp hmem with hmem | hmem
    · exact ih contributor hmem
    · rw [List.mem_singleton.mp hmem]
      exact Or.inr hkind

/-- The order of registration does not matter, for reports and for errors. -/
theorem validate_perm (h : (registry.contributors.map (·.key)).Nodup)
    (hperm : registry.contributors.Perm registry'.contributors)
    (context : VersionValidationContext) : registry.validate context = registry'.validate context := by
  have hkeys : (∀ contributor ∈ registry.contributors, validIdentifier contributor.key = true) ↔
      ∀ contributor ∈ registry'.contributors, validIdentifier contributor.key = true := by
    simp only [hperm.mem_iff]
  have hsorted : registry.contributors.mergeSort (fun a b => a.key ≤ b.key) =
      registry'.contributors.mergeSort fun a b => a.key ≤ b.key := by
    refine mergeSort_eq_of_perm ?_ ?_ ?_ hperm
    · intro a b c hab hbc
      rw [decide_eq_true_eq] at *
      exact le_trans hab hbc
    · intro a b
      rw [Bool.or_eq_true, decide_eq_true_eq, decide_eq_true_eq]
      exact le_total a.key b.key
    · intro a ha b hb hab hba
      rw [decide_eq_true_eq] at hab hba
      exact List.inj_on_of_nodup_map h ha hb (le_antisymm hab hba)
  rw [VersionValidationRegistry.validate, VersionValidationRegistry.validate, hsorted]
  simp only [hkeys]

end VersionValidationRegistry

/-! ## Rearranged contexts -/

/-- The same version and the same evidence in another order. -/
structure VersionValidationContext.Reordered (context context' : VersionValidationContext) :
    Prop where
  seeds : context.version.seeds.Perm context'.version.seeds
  version : context'.version = { context.version with seeds := context'.version.seeds }
  pageTypes : context.pageTypes.Perm context'.pageTypes
  transitions : context.transitions.Perm context'.transitions
  testEvidence : context.testEvidence.Perm context'.testEvidence
  configHash : context'.configHash = context.configHash

/-- Reordering is mutual. -/
theorem VersionValidationContext.Reordered.symm (h : context.Reordered context') :
    context'.Reordered context where
  seeds := h.seeds.symm
  version := by
    rw [h.version]
  pageTypes := h.pageTypes.symm
  transitions := h.transitions.symm
  testEvidence := h.testEvidence.symm
  configHash := h.configHash.symm

/-- What the contributor finds in the one context it finds in the other, in some order. -/
def VersionValidationContributor.FindsIn (contributor : VersionValidationContributor)
    (context context' : VersionValidationContext) : Prop :=
  ∀ issues, contributor.validate context = .ok issues →
    ∃ issues', contributor.validate context' = .ok issues' ∧ issues.Perm issues'

/-- A contribution is taken when its issues are within bounds and fit the cap. -/
theorem contribute_eq_ok_iff {key : String} {issues rest result : List VersionValidationIssue}
    (hlength : issues.length ≤ maxValidationIssues) : contribute key issues rest = .ok result ↔
      (∀ issue ∈ rest, issue.withinBounds = true) ∧
        issues.length + rest.length ≤ maxValidationIssues ∧
          result = issues ++ rest.map fun issue => issue.attributed key := by
  constructor
  · intro h
    induction rest generalizing issues with
    | nil =>
      cases h
      exact ⟨fun _ hmem => absurd hmem List.not_mem_nil, hlength, by simp⟩
    | cons issue rest ih =>
      rw [contribute] at h
      split at h
      · rename_i hbounds
        split at h
        · cases h
        · rename_i hfit
          obtain ⟨hrest, htotal, rfl⟩ := ih (not_lt.mp hfit) h
          rw [List.length_append, List.length_singleton] at htotal
          refine ⟨List.forall_mem_cons.mpr ⟨hbounds, hrest⟩, ?_, by simp⟩
          rw [List.length_cons]
          omega
      · cases h
  · rintro ⟨hbounds, hfit, rfl⟩
    exact contribute_eq_ok key hbounds hfit

/-- A run over contributors that find the same issues collects the same issues. -/
theorem collect_perm {contributors : List VersionValidationContributor}
    (hfinds : ∀ contributor ∈ contributors, contributor.FindsIn context context')
    {seen : List String} {issues issues' result : List VersionValidationIssue}
    (hissues : issues.Perm issues') (hlength : issues.length ≤ maxValidationIssues)
    (h : collect context seen issues contributors = .ok result) :
    ∃ result', collect context' seen issues' contributors = .ok result' ∧ result.Perm result' := by
  induction contributors generalizing seen issues issues' with
  | nil =>
    cases h
    exact ⟨issues', rfl, hissues⟩
  | cons contributor rest ih =>
    obtain ⟨hcontributor, hrest⟩ := List.forall_mem_cons.mp hfinds
    rw [collect] at h ⊢
    by_cases hseen : contributor.key ∈ seen
    · rw [if_pos hseen] at h
      cases h
    rw [if_neg hseen] at h ⊢
    rcases hvalidate : contributor.validate context with (_ | _) | contribution
    · rw [hvalidate] at h
      cases h
    · rw [hvalidate] at h
      cases h
    · obtain ⟨contribution', hvalidate', hperm⟩ := hcontributor contribution hvalidate
      rw [hvalidate] at h
      rw [hvalidate']
      dsimp only at h ⊢
      rw [← hperm.length_eq]
      -- the bounds are on numbers of issues, which a permutation keeps
      by_cases hmany : maxValidationIssuesPerContributor < contribution.length
      · rw [if_pos hmany] at h
        cases h
      rw [if_neg hmany] at h ⊢
      obtain ⟨joined, hjoined, h⟩ := except_bind_eq_ok.mp h
      obtain ⟨hbounds, hfit, rfl⟩ := (contribute_eq_ok_iff hlength).mp hjoined
      have hjoined' : contribute contributor.key issues' contribution' =
          .ok (issues' ++ contribution'.map fun issue => issue.attributed contributor.key) := by
        apply contribute_eq_ok
        · intro issue hissue
          exact hbounds issue (hperm.mem_iff.mpr hissue)
        · rw [← hissues.length_eq, ← hperm.length_eq]
          exact hfit
      obtain ⟨result', hresult', hresult⟩ := ih hrest (hissues.append (hperm.map _))
        (by rw [List.length_append, List.length_map]; exact hfit) h
      exact ⟨result', except_bind_eq_ok.mpr ⟨_, hjoined', hresult'⟩, hresult⟩

/-- A report on the one context is a report on the other. -/
theorem VersionValidationRegistry.validate_of_findsIn {registry : VersionValidationRegistry}
    {report : VersionValidationReport} (hreordered : context.Reordered context')
    (hfinds : ∀ contributor ∈ registry.contributors, contributor.FindsIn context context')
    (h : registry.validate context = .ok report) : registry.validate context' = .ok report := by
  rw [VersionValidationRegistry.validate] at h ⊢
  split at h
  · rename_i hkeys
    rw [if_pos hkeys]
    obtain ⟨issues, hissues, hreport⟩ := except_bind_eq_ok.mp h
    have hsorted : ∀ contributor ∈ registry.contributors.mergeSort (fun a b => a.key ≤ b.key),
        contributor.FindsIn context context' :=
      fun contributor hmem => hfinds contributor (List.mem_mergeSort.mp hmem)
    obtain ⟨issues', hissues', hperm⟩ :=
      collect_perm hsorted (List.Perm.refl []) (Nat.zero_le _) hissues
    refine except_bind_eq_ok.mpr ⟨issues', hissues', ?_⟩
    have hversion : context'.version.id = context.version.id := by rw [hreordered.version]
    have hnormalized : dedup (issues.mergeSort fun a b => a.compare b ≠ .gt) =
        dedup (issues'.mergeSort fun a b => a.compare b ≠ .gt) := normalized_perm hperm
    rw [hversion, hreordered.configHash]
    dsimp only at hreport ⊢
    rw [← hnormalized]
    exact hreport
  · cases h

end Erabi.Authoring
