/-
# The robots decision

The access decision is that of a longest matching rule of the groups with the most
specific matching user agent; stars and a final `$` do not count.  It does not depend on
the order of the groups, nor on the order inside them.
-/
import Mathlib
import Erabi.Robots.Comments

namespace Erabi.Robots

open Authoring (UrlCrate Url plainUrlCrate isControl)
open Pacing (Duration)

/-! ## Parsed documents -/

/-- The number of bytes of the pattern that are not stars. -/
def literalLength (rule : RobotsRule) : ℕ := String.utf8Len (rule.pattern.filter (· ≠ '*'))

/-- The number of bytes of the pattern as it is written. -/
def writtenLength (rule : RobotsRule) : ℕ :=
  String.utf8Len rule.pattern + if rule.endAnchored then 1 else 0

/-- No user agent is empty, and every rule knows its length. -/
structure RobotsGroup.Parsed (group : RobotsGroup) : Prop where
  userAgents : ∀ selector ∈ group.userAgents, selector ≠ []
  rules : ∀ rule ∈ group.rules, rule.specificity = literalLength rule

/-- What parsing guarantees of a document. -/
structure RobotsDocument.Parsed (document : RobotsDocument) : Prop where
  allowAll : document.allowAll = false
  denyAll : document.denyAll = false
  groups : ∀ group ∈ document.groups, group.Parsed

/-- A rule that is read has the length of its literals. -/
theorem specificity_readRule {allow : Bool} {value : List Char} {rule : RobotsRule}
    (h : readRule allow value = some rule) : rule.specificity = literalLength rule := by
  simp only [readRule, Option.ite_none_left_eq_some, Option.some.injEq] at h
  obtain ⟨_, rfl⟩ := h
  rfl

theorem specificity_directiveRules {allow : Bool} {value : List Char} {rules : List RobotsRule}
    (h : ParserState.directiveRules allow value = .ok rules) :
    ∀ rule ∈ rules, rule.specificity = literalLength rule := by
  intro rule hrule
  rw [ParserState.directiveRules] at h
  split at h
  · cases h
    cases hrule
  · split at h
    · cases h
    · cases h
      exact specificity_readRule (Option.mem_toList.mp hrule)

namespace ParserState

variable {float : FloatLibrary} {state state' : ParserState} {d : Directive}

/-- The complete groups and the open one are as a parsed document has them. -/
structure Parsed (state : ParserState) : Prop where
  groups : ∀ group ∈ state.groups, group.Parsed
  current : ∀ group ∈ state.current, group.Parsed

/-- Closing a group keeps the state as parsed. -/
theorem Parsed.closeGroup (h : state.Parsed) : state.closeGroup.Parsed := by
  constructor
  · intro group hgroup
    rcases List.mem_append.mp hgroup with hgroup | hgroup
    · exact h.groups group hgroup
    · exact h.current group (Option.mem_toList.mp (List.mem_filter.mp hgroup).1)
  · intro group hgroup
    cases hgroup

/-- Joining a user agent keeps the state as parsed. -/
theorem Parsed.joinUserAgent {value : List Char} (h : state.Parsed) (hvalue : value ≠ []) :
    (state.joinUserAgent value).Parsed := by
  -- The user agent joins a state that closed its group where that was complete.
  have hjoin : ∀ {before : ParserState}, before.Parsed →
      ∀ group ∈ some { before.current.getD ⟨[], [], []⟩ with
        userAgents := (before.current.getD ⟨[], [], []⟩).userAgents ++ [asciiLowercase value] },
        group.Parsed := by
    intro before hbefore group hgroup
    cases hgroup
    have hopen : (before.current.getD ⟨[], [], []⟩).Parsed := by
      cases hcurrent : before.current with
      | none => exact ⟨fun _ h => (by cases h), fun _ h => (by cases h)⟩
      | some group => exact hbefore.current group hcurrent
    constructor
    · intro selector hselector
      rcases List.mem_append.mp hselector with hselector | hselector
      · exact hopen.userAgents selector hselector
      · rw [List.mem_singleton.mp hselector, asciiLowercase]
        simpa using hvalue
    · exact hopen.rules
  rw [ParserState.joinUserAgent]
  by_cases hpolicy : state.groupHasPolicyDirective = true
  · simp only [hpolicy, if_true]
    exact ⟨h.closeGroup.groups, hjoin h.closeGroup⟩
  · simp only [hpolicy]
    exact ⟨h.groups, hjoin h⟩

/-- Extending the group keeps the state as parsed. -/
theorem Parsed.extendGroup {group : RobotsGroup} {rules : List RobotsRule} (h : state.Parsed)
    (hgroup : state.current = some group)
    (hrules : ∀ rule ∈ rules, rule.specificity = literalLength rule) (delays : List Duration) :
    (state.extendGroup group rules delays).Parsed := by
  have hopen := h.current group hgroup
  refine ⟨h.groups, fun extended hextended => ?_⟩
  cases hextended
  refine ⟨hopen.userAgents, fun rule hrule => ?_⟩
  rcases List.mem_append.mp hrule with hrule | hrule
  · exact hopen.rules rule hrule
  · exact hrules rule hrule

/-- A directive keeps the state as parsed. -/
theorem Parsed.readDirective (h : state.Parsed) (hok : state.readDirective float d = .ok state') :
    state'.Parsed := by
  cases d with
  | blank =>
    cases hok
    exact h.closeGroup
  | userAgent value =>
    obtain ⟨hvalue, rfl⟩ := readUserAgent_eq_ok hok
    exact h.joinUserAgent fun hnil => hvalue (Or.inl hnil)
  | rule allow value =>
    obtain ⟨group, rules, hgroup, hrules, rfl⟩ := addRule_eq_ok.mp hok
    exact h.extendGroup hgroup (specificity_directiveRules hrules) []
  | crawlDelay value =>
    obtain ⟨group, delay, hgroup, _, rfl⟩ := addCrawlDelay_eq_ok.mp hok
    exact h.extendGroup hgroup (fun _ hrule => (by cases hrule)) [delay]
  | other =>
    cases hok
    exact h

end ParserState

/-- A document that was parsed. -/
theorem parsed_of_parseRobotsDocument {float : FloatLibrary} {text : List Char}
    {document : RobotsDocument} (h : parseRobotsDocument float text = .ok document) :
    document.Parsed := by
  obtain ⟨final, hfinal, rfl⟩ := parseRobotsDocument_eq_ok.mp h
  have hparsed : final.Parsed := by
    refine ParserState.readLines_keeps (motive := ParserState.Parsed) ?_ ?_ hfinal
    · exact fun hstate hread => hstate.readDirective hread
    · exact ⟨fun _ h => (by cases h), fun _ h => (by cases h)⟩
  exact ⟨rfl, rfl, hparsed.closeGroup.groups⟩

/-! ## What decides -/

section Reference

variable (length : RobotsRule → ℕ) (document : RobotsDocument) (userAgent path : List Char)

/-- The selector is `*`, or the user agent up to a version or a comment. -/
def Names (userAgent selector : List Char) : Prop :=
  selector = ['*'] ∨ ∃ rest, asciiLowercase userAgent = selector ++ rest ∧
    ∀ c ∈ rest.head?, c = '/' ∨ isAsciiWhitespace c = true

/-- Any selector is more specific than `*`. -/
def selectorRank (selector : List Char) : ℕ :=
  if selector = ['*'] then 0 else String.utf8Len selector

/-- The group has a most specific selector of those that name the user agent. -/
def Selected (group : RobotsGroup) : Prop :=
  group ∈ document.groups ∧ ∃ selector ∈ group.userAgents, Names userAgent selector ∧
    ∀ other ∈ document.groups, ∀ selector' ∈ other.userAgents, Names userAgent selector' →
      selectorRank selector' ≤ selectorRank selector

/-- A rule of a selected group that matches the path. -/
def Applies (rule : RobotsRule) : Prop :=
  ∃ group, Selected document userAgent group ∧ rule ∈ group.rules ∧ ruleMatches rule path = true

/-- No rule applies, or a longest one allows; and the greatest crawl delay counts. -/
structure Decides (evaluation : RobotsRuleEvaluation) : Prop where
  allowed : evaluation.allowed = true ↔
    (∀ rule, ¬ Applies document userAgent path rule) ∨
      ∃ rule, Applies document userAgent path rule ∧ rule.allow = true ∧
        ∀ other, Applies document userAgent path other → length other ≤ length rule
  crawlDelay : ∀ delay, evaluation.crawlDelay = some delay ↔
    IsGreatest {d | ∃ group, Selected document userAgent group ∧ d ∈ group.crawlDelays} delay

end Reference

variable {length : RobotsRule → ℕ} {document document' : RobotsDocument}
  {userAgent path : List Char} {group : RobotsGroup} {rule : RobotsRule}

/-- The rules leave one decision. -/
theorem Decides.unique {evaluation evaluation' : RobotsRuleEvaluation}
    (h : Decides length document userAgent path evaluation)
    (h' : Decides length document userAgent path evaluation') : evaluation = evaluation' := by
  obtain ⟨allowed, delay⟩ := evaluation
  obtain ⟨allowed', delay'⟩ := evaluation'
  have hallowed : allowed = allowed' := Bool.eq_iff_iff.mpr (h.allowed.trans h'.allowed.symm)
  have hdelay : delay = delay' := by
    apply Option.ext
    intro d
    exact (h.crawlDelay d).trans (h'.crawlDelay d).symm
  rw [hallowed, hdelay]

/-! ## The selected groups -/

/-- A selector matches the agents that begin with it, at a boundary. -/
theorem userAgentMatches_iff {active selector : List Char} :
    userAgentMatches active selector = true ↔
      ∃ rest, active = selector ++ rest ∧ ∀ c ∈ rest.head?, c = '/' ∨ isAsciiWhitespace c = true := by
  rw [userAgentMatches]
  constructor
  · intro h
    rcases Bool.or_eq_true_iff.mp h with h | h
    · exact ⟨[], by simpa using h, fun _ hc => (by cases hc)⟩
    · obtain ⟨hbegins, hhead⟩ := Bool.and_eq_true_iff.mp h
      obtain ⟨rest, rfl⟩ := List.isPrefixOf_iff_prefix.mp hbegins
      rw [List.drop_left] at hhead
      refine ⟨rest, rfl, fun c hc => ?_⟩
      rw [Option.mem_def.mp hc] at hhead
      simpa using hhead
  · rintro ⟨rest, rfl, hrest⟩
    cases rest with
    | nil => simp
    | cons c rest =>
      have hc := hrest c rfl
      simp [hc]

/-- The selectors that name an agent. -/
theorem names_iff {selector : List Char} : Names userAgent selector ↔
    selector = ['*'] ∨ userAgentMatches (asciiLowercase userAgent) selector = true := by
  rw [userAgentMatches_iff]
  rfl

/-- The specificity of a group is attained by a selector, and no other one is longer. -/
theorem groupSpecificity_eq_some {active : List Char} {specificity : ℕ} :
    groupSpecificity active group = some specificity ↔
      (∃ selector ∈ group.userAgents, selector ≠ ['*'] ∧ userAgentMatches active selector = true ∧
        String.utf8Len selector = specificity) ∧
      ∀ selector ∈ group.userAgents, selector ≠ ['*'] → userAgentMatches active selector = true →
        String.utf8Len selector ≤ specificity := by
  rw [groupSpecificity, List.max?_eq_some_iff]
  constructor
  · rintro ⟨hmem, hall⟩
    constructor
    · simpa [and_assoc, and_left_comm] using hmem
    · intro selector hselector hne hmatches
      apply hall
      apply List.mem_map_of_mem
      simp [hselector, hne, hmatches]
  · rintro ⟨hmem, hall⟩
    constructor
    · simpa [and_assoc, and_left_comm] using hmem
    · intro value hvalue
      obtain ⟨selector, hselector, rfl⟩ := List.mem_map.mp hvalue
      obtain ⟨hselector, hmatches⟩ := List.mem_filter.mp hselector
      obtain ⟨hselector, hne⟩ := List.mem_filter.mp hselector
      exact hall selector hselector (by simpa using hne) hmatches

/-- A selector that matches gives its group a specificity. -/
theorem exists_groupSpecificity {active selector : List Char} (h : selector ∈ group.userAgents)
    (hne : selector ≠ ['*']) (hmatches : userAgentMatches active selector = true) :
    ∃ specificity, groupSpecificity active group = some specificity ∧
      String.utf8Len selector ≤ specificity := by
  cases hspecificity : groupSpecificity active group with
  | none =>
    rw [groupSpecificity, List.max?_eq_none_iff, List.map_eq_nil_iff] at hspecificity
    have hmem : selector ∈ (group.userAgents.filter (· ≠ ['*'])).filter (userAgentMatches active) := by
      simp [h, hne, hmatches]
    rw [hspecificity] at hmem
    cases hmem
  | some specificity =>
    exact ⟨specificity, rfl, (groupSpecificity_eq_some.mp hspecificity).2 selector h hne hmatches⟩

/-- The groups that name the agent, with their rank. -/
theorem mem_exactMatches {active : List Char} {groups : List RobotsGroup} {specificity : ℕ} :
    (specificity, group) ∈ exactMatches active groups ↔
      group ∈ groups ∧ groupSpecificity active group = some specificity := by
  simp [exactMatches]

/-- A selector ranks by its length. -/
theorem selectorRank_of_ne {selector : List Char} (h : selector ≠ ['*']) :
    selectorRank selector = String.utf8Len selector := if_neg h

/-- Without a selector that names the user agent, the groups of `*` are selected. -/
theorem selected_of_exactMatches_nil
    (h : exactMatches (asciiLowercase userAgent) document.groups = []) :
    Selected document userAgent group ↔
      group ∈ document.groups.filter fun group => group.userAgents.any (· = ['*']) := by
  -- Nothing but the star can name the user agent.
  have hstar : ∀ other ∈ document.groups, ∀ selector ∈ other.userAgents,
      Names userAgent selector → selector = ['*'] := by
    intro other hother selector hselector hnames
    by_contra hne
    have hmatches := (names_iff.mp hnames).resolve_left hne
    obtain ⟨specificity, hspecificity, _⟩ := exists_groupSpecificity hselector hne hmatches
    have hmem := mem_exactMatches.mpr ⟨hother, hspecificity⟩
    rw [h] at hmem
    cases hmem
  rw [List.mem_filter]
  constructor
  · rintro ⟨hgroup, selector, hselector, hnames, _⟩
    rw [hstar group hgroup selector hselector hnames] at hselector
    exact ⟨hgroup, by simpa using hselector⟩
  · rintro ⟨hgroup, hany⟩
    have hselector : ['*'] ∈ group.userAgents := by simpa using hany
    refine ⟨hgroup, ['*'], hselector, Or.inl rfl, ?_⟩
    intro other hother selector hselector hnames
    rw [hstar other hother selector hselector hnames]

/-- The groups of the highest specificity are selected. -/
theorem selected_of_highest {highest : ℕ} (hpos : 0 < highest)
    (h : ((exactMatches (asciiLowercase userAgent) document.groups).map Prod.fst).max? =
      some highest) :
    Selected document userAgent group ↔ group ∈ document.groups ∧
      groupSpecificity (asciiLowercase userAgent) group = some highest := by
  obtain ⟨hmem, hhighest⟩ := List.max?_eq_some_iff.mp h
  have hle : ∀ other ∈ document.groups, ∀ specificity,
      groupSpecificity (asciiLowercase userAgent) other = some specificity →
        specificity ≤ highest := by
    intro other hother specificity hspecificity
    apply hhighest
    exact List.mem_map_of_mem (f := Prod.fst) (mem_exactMatches.mpr ⟨hother, hspecificity⟩)
  have hrank : ∀ other ∈ document.groups, ∀ selector ∈ other.userAgents,
      Names userAgent selector → selectorRank selector ≤ highest := by
    intro other hother selector hselector hnames
    by_cases hne : selector = ['*']
    · rw [selectorRank, if_pos hne]
      omega
    · rw [selectorRank_of_ne hne]
      have hmatches := (names_iff.mp hnames).resolve_left hne
      obtain ⟨specificity, hspecificity, hlong⟩ := exists_groupSpecificity hselector hne hmatches
      exact hlong.trans (hle other hother specificity hspecificity)
  -- Some selector has the highest specificity.
  obtain ⟨⟨_, best⟩, hbest, rfl⟩ := List.mem_map.mp hmem
  obtain ⟨hbest, hbestSpecificity⟩ := mem_exactMatches.mp hbest
  obtain ⟨⟨selector₀, hselector₀, hne₀, hmatches₀, hlength₀⟩, _⟩ :=
    groupSpecificity_eq_some.mp hbestSpecificity
  constructor
  · rintro ⟨hgroup, selector, hselector, hnames, hmost⟩
    have hlong := hmost best hbest selector₀ hselector₀ (names_iff.mpr (Or.inr hmatches₀))
    rw [selectorRank_of_ne hne₀, hlength₀] at hlong
    have hne : selector ≠ ['*'] := by
      intro hstar
      rw [selectorRank, if_pos hstar] at hlong
      omega
    rw [selectorRank_of_ne hne] at hlong
    have hmatches := (names_iff.mp hnames).resolve_left hne
    obtain ⟨specificity, hspecificity, hlength⟩ := exists_groupSpecificity hselector hne hmatches
    have hupper := hle group hgroup specificity hspecificity
    refine ⟨hgroup, ?_⟩
    rw [hspecificity, Option.some_inj]
    omega
  · rintro ⟨hgroup, hspecificity⟩
    obtain ⟨⟨selector, hselector, hne, hmatches, hlength⟩, _⟩ :=
      groupSpecificity_eq_some.mp hspecificity
    refine ⟨hgroup, selector, hselector, names_iff.mpr (Or.inr hmatches), ?_⟩
    intro other hother selector' hselector' hnames
    rw [selectorRank_of_ne hne, hlength]
    exact hrank other hother selector' hselector' hnames

/-- The groups that the code selects. -/
theorem mem_selectGroups (h : document.Parsed) :
    group ∈ selectGroups document.groups userAgent ↔ Selected document userAgent group := by
  simp only [selectGroups]
  cases hmax : ((exactMatches (asciiLowercase userAgent) document.groups).map Prod.fst).max? with
  | none =>
    have hnil := List.map_eq_nil_iff.mp (List.max?_eq_none_iff.mp hmax)
    rw [selected_of_exactMatches_nil hnil, hnil]
    rfl
  | some highest =>
    have hfold : ((exactMatches (asciiLowercase userAgent) document.groups).map Prod.fst).foldl
        max 0 = highest := by
      rw [List.foldl_max, hmax]
      exact Nat.zero_max highest
    -- A selector that matches is not empty, so that the highest specificity is positive.
    have hpos : 0 < highest := by
      obtain ⟨⟨_, best⟩, hbest, rfl⟩ := List.mem_map.mp (List.max?_mem hmax)
      obtain ⟨hbest, hspecificity⟩ := mem_exactMatches.mp hbest
      obtain ⟨⟨selector, hselector, _, _, hlength⟩, _⟩ := groupSpecificity_eq_some.mp hspecificity
      rw [← hlength]
      apply Nat.pos_of_ne_zero
      rw [ne_eq, String.utf8Len_eq_zero]
      exact (h.groups best hbest).userAgents selector hselector
    rw [hfold, if_pos hpos, selected_of_highest hpos hmax, ← mem_exactMatches]
    simp

/-! ## The best rule and the crawl delay -/

/-- The specificity and the verdict are those of a rule; no rule is longer, and none of
that length allows where the verdict does not. -/
structure IsBest (rules : List RobotsRule) (best : ℕ × Bool) : Prop where
  attained : ∃ rule ∈ rules, rule.specificity = best.1 ∧ rule.allow = best.2
  longest : ∀ rule ∈ rules, rule.specificity ≤ best.1
  allows : ∀ rule ∈ rules, rule.specificity = best.1 → rule.allow = true → best.2 = true

/-- A rule alone is best. -/
theorem isBest_singleton (rule : RobotsRule) : IsBest [rule] (rule.specificity, rule.allow) := by
  constructor
  · exact ⟨rule, List.mem_singleton_self rule, rfl, rfl⟩
  · intro other hother
    rw [List.mem_singleton.mp hother]
  · intro other hother _ hallow
    rw [List.mem_singleton.mp hother] at hallow
    exact hallow

/-- The better of two rules is best among both. -/
theorem IsBest.betterRule {rules : List RobotsRule} {best : ℕ × Bool} (h : IsBest rules best)
    (rule : RobotsRule) :
    ∃ best', betterRule (some best) rule = some best' ∧ IsBest (rules ++ [rule]) best' := by
  obtain ⟨specificity, allow⟩ := best
  obtain ⟨first, hfirst, hspecificity, hallow⟩ := h.attained
  have hlongest := h.longest
  rw [Robots.betterRule]
  split
  · -- The rule is shorter, or ties with one that allows.
    rename_i hkeep
    refine ⟨_, rfl, ⟨first, List.mem_append_left _ hfirst, hspecificity, hallow⟩, ?_, ?_⟩
    · intro other hother
      rcases List.mem_append.mp hother with hother | hother
      · exact hlongest other hother
      · rw [List.mem_singleton.mp hother]
        simp only
        omega
    · intro other hother hlength hother'
      rcases List.mem_append.mp hother with hother | hother
      · exact h.allows other hother hlength hother'
      · rw [List.mem_singleton.mp hother] at hlength
        simp only at hlength
        exact (hkeep.resolve_left (by omega)).2
  · rename_i hreplace
    push Not at hreplace
    refine ⟨_, rfl, ⟨rule, by simp, rfl, rfl⟩, ?_, ?_⟩
    · intro other hother
      rcases List.mem_append.mp hother with hother | hother
      · have := hlongest other hother
        simp only at this ⊢
        omega
      · rw [List.mem_singleton.mp hother]
    · intro other hother hlength hother'
      rcases List.mem_append.mp hother with hother | hother
      · -- A tie is only taken over from a rule that does not allow.
        have hle := hlongest other hother
        simp only at hle hlength
        have htie : specificity = rule.specificity := by omega
        have hallowed := h.allows other hother (by omega) hother'
        exact absurd hallowed (hreplace.2 htie)
      · rw [List.mem_singleton.mp hother] at hother'
        exact hother'

/-- The fold keeps the best rule. -/
theorem IsBest.foldl_betterRule {seen : List RobotsRule} {best : ℕ × Bool}
    (h : IsBest seen best) (rules : List RobotsRule) :
    ∃ best', rules.foldl Robots.betterRule (some best) = some best' ∧
      IsBest (seen ++ rules) best' := by
  induction rules generalizing seen best with
  | nil => exact ⟨best, rfl, by rwa [List.append_nil]⟩
  | cons rule rules ih =>
    obtain ⟨best', hbest', hbetter⟩ := h.betterRule rule
    obtain ⟨last, hlast, hfinal⟩ := ih hbetter
    refine ⟨last, ?_, ?_⟩
    · rw [List.foldl_cons, hbest', hlast]
    · rwa [List.append_cons]

/-- No rule is the best of no rules only. -/
theorem foldl_betterRule (rules : List RobotsRule) :
    (rules = [] ∧ rules.foldl betterRule none = none) ∨
      ∃ best, rules.foldl betterRule none = some best ∧ IsBest rules best := by
  cases rules with
  | nil => exact Or.inl ⟨rfl, rfl⟩
  | cons rule rules => exact Or.inr ((isBest_singleton rule).foldl_betterRule rules)

/-- The best rule allows, or there is none. -/
theorem all_foldl_betterRule (rules : List RobotsRule) :
    (rules.foldl betterRule none).all Prod.snd = true ↔ rules = [] ∨
      ∃ rule ∈ rules, rule.allow = true ∧ ∀ other ∈ rules, other.specificity ≤ rule.specificity := by
  rcases foldl_betterRule rules with ⟨hnil, hnone⟩ | ⟨best, hbest, hisBest⟩
  · rw [hnone]
    exact ⟨fun _ => Or.inl hnil, fun _ => rfl⟩
  · rw [hbest]
    obtain ⟨rule, hrule, hspecificity, hallow⟩ := hisBest.attained
    constructor
    · intro hallowed
      refine Or.inr ⟨rule, hrule, hallow.trans hallowed, fun other hother => ?_⟩
      rw [hspecificity]
      exact hisBest.longest other hother
    · rintro (hnil | ⟨other, hother, hallows, hlongest⟩)
      · rw [hnil] at hrule
        cases hrule
      · -- The allowing rule is as long as the best one.
        have hge := hlongest rule hrule
        have hle := hisBest.longest other hother
        exact hisBest.allows other hother (by omega) hallows

/-- The fold of delays is the greatest. -/
theorem foldl_laterDelay (delays : List Duration) : delays.foldl laterDelay none = delays.max? := by
  have hsome : ∀ (delays : List Duration) (current : Duration),
      delays.foldl laterDelay (some current) = some (delays.foldl max current) := by
    intro delays
    induction delays with
    | nil => intro current; rfl
    | cons delay delays ih => intro current; exact ih (max current delay)
  cases delays with
  | nil => rfl
  | cons delay delays => exact hsome delays delay

/-- Joining groups folds their rules and their delays. -/
theorem foldl_joinGroup (groups : List RobotsGroup) (best : Option (ℕ × Bool) × Option Duration) :
    groups.foldl (RobotsDocument.joinGroup path) best =
      ((groups.flatMap fun group => group.rules.filter fun rule => ruleMatches rule path).foldl
        betterRule best.1, (groups.flatMap RobotsGroup.crawlDelays).foldl laterDelay best.2) := by
  induction groups generalizing best with
  | nil => rfl
  | cons group groups ih =>
    rw [List.foldl_cons, ih, List.flatMap_cons, List.flatMap_cons, List.foldl_append,
      List.foldl_append]
    rfl

/-! ## The decision -/

/-- The matching rules of the selected groups. -/
theorem mem_selectedRules (h : document.Parsed) :
    rule ∈ (selectGroups document.groups userAgent).flatMap (fun group =>
      group.rules.filter fun rule => ruleMatches rule path) ↔
        Applies document userAgent path rule := by
  simp only [List.mem_flatMap, List.mem_filter, mem_selectGroups h]
  rfl

/-- The delays of the selected groups. -/
theorem mem_selectedDelays (h : document.Parsed) {delay : Duration} :
    delay ∈ (selectGroups document.groups userAgent).flatMap RobotsGroup.crawlDelays ↔
      ∃ group, Selected document userAgent group ∧ delay ∈ group.crawlDelays := by
  simp only [List.mem_flatMap, mem_selectGroups h]

/-- The specificity of a rule that applies. -/
theorem Applies.specificity (h : document.Parsed) (hrule : Applies document userAgent path rule) :
    rule.specificity = literalLength rule := by
  obtain ⟨group, hgroup, hmem, _⟩ := hrule
  exact (h.groups group hgroup.1).rules rule hmem

/-- The evaluation is the decision of the rules. -/
theorem decides_evaluate (h : document.Parsed) (url : UrlCrate) (target : Url)
    (userAgent : List Char) :
    Decides literalLength document userAgent (requestPathForRobots url target)
      (document.evaluate url target userAgent) := by
  rw [RobotsDocument.evaluate, if_neg (by simp [h.allowAll]), if_neg (by simp [h.denyAll]),
    foldl_joinGroup, foldl_laterDelay]
  constructor
  · simp only [all_foldl_betterRule, List.eq_nil_iff_forall_not_mem, mem_selectedRules h]
    apply or_congr Iff.rfl
    constructor
    · rintro ⟨rule, hrule, hallow, hlongest⟩
      refine ⟨rule, hrule, hallow, fun other hother => ?_⟩
      rw [← hother.specificity h, ← hrule.specificity h]
      exact hlongest other hother
    · rintro ⟨rule, hrule, hallow, hlongest⟩
      refine ⟨rule, hrule, hallow, fun other hother => ?_⟩
      rw [hother.specificity h, hrule.specificity h]
      exact hlongest other hother
  · intro delay
    simp only [List.max?_eq_some_iff, mem_selectedDelays h]
    rfl

/-! ## Rearranged documents -/

/-- What a group holds, in no order. -/
def RobotsGroup.contents (group : RobotsGroup) :
    Multiset (List Char) × Multiset RobotsRule × Multiset Duration :=
  (group.userAgents, group.rules, group.crawlDelays)

/-- The same groups in any order, and each in any order inside. -/
structure RobotsDocument.Rearranged (document document' : RobotsDocument) : Prop where
  allowAll : document.allowAll = document'.allowAll
  denyAll : document.denyAll = document'.denyAll
  groups : (document.groups.map RobotsGroup.contents).Perm
    (document'.groups.map RobotsGroup.contents)

namespace RobotsDocument.Rearranged

/-- Rearranging is mutual. -/
theorem symm (h : document.Rearranged document') : document'.Rearranged document :=
  ⟨h.allowAll.symm, h.denyAll.symm, h.groups.symm⟩

/-- Each group is found in the rearranged document. -/
theorem exists_group (h : document.Rearranged document') (hgroup : group ∈ document.groups) :
    ∃ group' ∈ document'.groups, group'.userAgents.Perm group.userAgents ∧
      group'.rules.Perm group.rules ∧ group'.crawlDelays.Perm group.crawlDelays := by
  have hmem := h.groups.mem_iff.mp (List.mem_map_of_mem (f := RobotsGroup.contents) hgroup)
  obtain ⟨group', hgroup', hcontents⟩ := List.mem_map.mp hmem
  obtain ⟨huserAgents, hrest⟩ := Prod.ext_iff.mp hcontents
  obtain ⟨hrules, hdelays⟩ := Prod.ext_iff.mp hrest
  exact ⟨group', hgroup', Quotient.exact huserAgents, Quotient.exact hrules,
    Quotient.exact hdelays⟩

/-- A rearranged document is as if parsed. -/
theorem parsed (h : document.Rearranged document') (hparsed : document.Parsed) :
    document'.Parsed := by
  refine ⟨h.allowAll ▸ hparsed.allowAll, h.denyAll ▸ hparsed.denyAll, fun group hgroup => ?_⟩
  obtain ⟨group', hgroup', huserAgents, hrules, _⟩ := h.symm.exists_group hgroup
  have hgroupParsed := hparsed.groups group' hgroup'
  constructor
  · intro selector hselector
    exact hgroupParsed.userAgents selector (huserAgents.mem_iff.mpr hselector)
  · intro rule hrule
    exact hgroupParsed.rules rule (hrules.mem_iff.mpr hrule)

/-- A selected group is selected in any arrangement. -/
theorem selected (h : document.Rearranged document')
    (hselected : Selected document userAgent group) :
    ∃ group', Selected document' userAgent group' ∧ group'.rules.Perm group.rules ∧
      group'.crawlDelays.Perm group.crawlDelays := by
  obtain ⟨hgroup, selector, hselector, hnames, hmost⟩ := hselected
  obtain ⟨group', hgroup', huserAgents, hrules, hdelays⟩ := h.exists_group hgroup
  refine ⟨group', ⟨hgroup', selector, huserAgents.mem_iff.mpr hselector, hnames, ?_⟩, hrules,
    hdelays⟩
  intro other hother selector' hselector' hnames'
  obtain ⟨other', hother', hagents, _, _⟩ := h.symm.exists_group hother
  exact hmost other' hother' selector' (hagents.mem_iff.mpr hselector') hnames'

/-- A rule that applies still does. -/
theorem applies (h : document.Rearranged document')
    (hrule : Applies document userAgent path rule) : Applies document' userAgent path rule := by
  obtain ⟨group, hgroup, hmem, hmatches⟩ := hrule
  obtain ⟨group', hgroup', hrules, _⟩ := h.selected hgroup
  exact ⟨group', hgroup', hrules.mem_iff.mpr hmem, hmatches⟩

/-- The same rules apply. -/
theorem applies_iff (h : document.Rearranged document') :
    Applies document' userAgent path rule ↔ Applies document userAgent path rule :=
  ⟨h.symm.applies, h.applies⟩

/-- The same delays are selected. -/
theorem delays_eq (h : document.Rearranged document') :
    {d | ∃ group, Selected document' userAgent group ∧ d ∈ group.crawlDelays} =
      {d | ∃ group, Selected document userAgent group ∧ d ∈ group.crawlDelays} := by
  have hsub : ∀ {document document' : RobotsDocument}, document.Rearranged document' →
      {d | ∃ group, Selected document userAgent group ∧ d ∈ group.crawlDelays} ⊆
        {d | ∃ group, Selected document' userAgent group ∧ d ∈ group.crawlDelays} := by
    rintro document document' h delay ⟨group, hgroup, hdelay⟩
    obtain ⟨group', hgroup', _, hdelays⟩ := h.selected hgroup
    exact ⟨group', hgroup', hdelays.mem_iff.mpr hdelay⟩
  exact Set.Subset.antisymm (hsub h.symm) (hsub h)

/-- The decision stays. -/
theorem decides (h : document.Rearranged document') {evaluation : RobotsRuleEvaluation}
    (hdecides : Decides length document' userAgent path evaluation) :
    Decides length document userAgent path evaluation := by
  constructor
  · rw [hdecides.allowed]
    simp only [h.applies_iff]
  · intro delay
    rw [hdecides.crawlDelay, h.delays_eq]

theorem evaluate_eq (h : document.Rearranged document') (hparsed : document.Parsed)
    (url : UrlCrate) (target : Url) (userAgent : List Char) :
    document'.evaluate url target userAgent = document.evaluate url target userAgent := by
  have hdecides := decides_evaluate (h.parsed hparsed) url target userAgent
  exact (h.decides hdecides).unique (decides_evaluate hparsed url target userAgent)

end RobotsDocument.Rearranged

/-- A parsed document decides by a longest matching rule of the groups with the most
specific matching user agent, and by their greatest crawl delay, in any order of the
groups and inside them. -/
theorem evaluate_decides {float : FloatLibrary} {text : List Char} (url : UrlCrate) (target : Url)
    (userAgent : List Char) (h : parseRobotsDocument float text = .ok document) :
    Decides literalLength document userAgent (requestPathForRobots url target)
        (document.evaluate url target userAgent) ∧
      ∀ document', document.Rearranged document' →
        document'.evaluate url target userAgent = document.evaluate url target userAgent := by
  have hparsed := parsed_of_parseRobotsDocument h
  refine ⟨decides_evaluate hparsed url target userAgent, fun document' hrearranged => ?_⟩
  exact hrearranged.evaluate_eq hparsed url target userAgent

/-- A document whose pattern has stars. -/
def starredText : List Char := "User-agent: *\nDisallow: /ab\nAllow: /*/*".toList

/-- That document, parsed. -/
def starredDocument : RobotsDocument :=
  ⟨[⟨["*".toList], [⟨"/ab".toList, false, 3, false⟩, ⟨"/*/*".toList, true, 2, false⟩], []⟩],
    false, false⟩

/-- A page below `/ab`. -/
def starredUrl : Url := ⟨"https://h/ab/c", by simp [Authoring.Printable, isControl]⟩

/-- Parsing gives it. -/
theorem parse_starredText : parseRobotsDocument wholeSeconds starredText = .ok starredDocument := by
  decide

/-- The path that it is asked about. -/
theorem path_starredUrl : requestPathForRobots plainUrlCrate starredUrl = "/ab/c".toList := by
  simp [requestPathForRobots, plainUrlCrate, Url.plain, starredUrl, Authoring.plainParts,
    Authoring.splitOnce]

/-- The rule without stars decides. -/
theorem evaluate_decides_starred :
    Decides literalLength starredDocument "erabi".toList
        (requestPathForRobots plainUrlCrate starredUrl)
        (starredDocument.evaluate plainUrlCrate starredUrl "erabi".toList) ∧
      ∀ document', starredDocument.Rearranged document' →
        document'.evaluate plainUrlCrate starredUrl "erabi".toList =
          starredDocument.evaluate plainUrlCrate starredUrl "erabi".toList :=
  evaluate_decides plainUrlCrate starredUrl "erabi".toList parse_starredText

/-- With its stars, the rule that allows is the longest one. -/
theorem written_length_not_decisive : ¬ ∀ (float : FloatLibrary) (text : List Char)
    (document : RobotsDocument) (url : UrlCrate) (target : Url) (userAgent : List Char),
      parseRobotsDocument float text = .ok document →
        Decides writtenLength document userAgent (requestPathForRobots url target)
          (document.evaluate url target userAgent) := by
  intro h
  have hdecides := h wholeSeconds starredText starredDocument plainUrlCrate starredUrl
    "erabi".toList parse_starredText
  have hdenied : (starredDocument.evaluate plainUrlCrate starredUrl "erabi".toList).allowed =
      false := by
    rw [RobotsDocument.evaluate, path_starredUrl]
    decide
  rw [path_starredUrl] at hdecides
  have hselected : Selected starredDocument "erabi".toList
      ⟨["*".toList], [⟨"/ab".toList, false, 3, false⟩, ⟨"/*/*".toList, true, 2, false⟩], []⟩ := by
    refine ⟨List.mem_singleton_self _, ['*'], List.mem_singleton_self _, Or.inl rfl, ?_⟩
    intro other hother selector hselector _
    rw [List.mem_singleton.mp hother] at hselector
    rw [List.mem_singleton.mp hselector]
    exact le_rfl
  have hallowed := hdecides.allowed.mpr (Or.inr ⟨⟨"/*/*".toList, true, 2, false⟩,
    ⟨_, hselected, by decide, by decide⟩, rfl, ?_⟩)
  · rw [hdenied] at hallowed
    cases hallowed
  · rintro other ⟨group, ⟨hgroup, _⟩, hother, _⟩
    rw [List.mem_singleton.mp hgroup] at hother
    rcases List.mem_pair.mp hother with rfl | rfl
    · decide
    · decide

end Erabi.Robots
