/-
# Robots rules as wildcard expressions

The value of a rule is a wildcard expression over the characters of a path: a star
stands for any string, and a final `$` for the end of the path.  A rule matches a path
where the expression stands for a prefix of it.
-/
import Mathlib
import Erabi.Robots.Document

namespace Erabi.Robots

open Wildcard (Matches)

variable {allow : Bool} {value path : List Char} {rule : RobotsRule}

/-- A prefix of the path is what the value stands for; where the value ends with `$`, it
is the whole path. -/
inductive Expresses (value path : List Char) : Prop
  | anchored (expression : List Char) : value = expression ++ ['$'] →
      Matches '*' expression path → Expresses value path
  | plain (matched rest : List Char) : value.getLast? ≠ some '$' → path = matched ++ rest →
      Matches '*' value matched → Expresses value path

/-- An anchored rule expresses the whole path. -/
theorem expresses_anchored_iff {expression : List Char} :
    Expresses (expression ++ ['$']) path ↔ Matches '*' expression path := by
  constructor
  · rintro (⟨e, he, h⟩ | ⟨matched, rest, hlast, _, _⟩)
    · rwa [List.append_cancel_right he]
    · simp at hlast
  · intro h
    exact .anchored expression rfl h

/-- A rule without an anchor expresses a beginning of the path. -/
theorem expresses_plain_iff (hlast : value.getLast? ≠ some '$') :
    Expresses value path ↔ ∃ matched rest, path = matched ++ rest ∧ Matches '*' value matched := by
  constructor
  · rintro (⟨e, rfl, _⟩ | ⟨matched, rest, _, hpath, h⟩)
    · simp at hlast
    · exact ⟨matched, rest, hpath, h⟩
  · rintro ⟨matched, rest, hpath, h⟩
    exact .plain matched rest hlast hpath h

/-- A rule matches a path with a prefix that its pattern stands for. -/
theorem ruleMatches_iff_starts : ruleMatches rule path = true ↔
    ∃ matched rest, path = matched ++ rest ∧ Matches '*' rule.pattern matched ∧
      (rule.endAnchored = true → rest = []) := by
  rw [ruleMatches]
  cases hsplit : rule.pattern.splitOn '*' with
  | nil => exact absurd hsplit (List.splitOn_ne_nil _ _)
  | cons first parts => exact Wildcard.search_prefix_iff hsplit

/-- What the rule of a value has: the value, or what stands in front of its final `$`. -/
theorem readRule_eq_some (h : readRule allow value = some rule) :
    rule.allow = allow ∧
      (rule.endAnchored = true ∧ value = rule.pattern ++ ['$'] ∨
        rule.endAnchored = false ∧ value = rule.pattern ∧ value.getLast? ≠ some '$') := by
  rw [readRule] at h
  by_cases hlast : value.getLast? = some '$'
  · simp only [decide_eq_true hlast, if_true] at h
    split at h
    · cases h
    · cases h
      obtain ⟨expression, rfl⟩ := List.getLast?_eq_some_iff.mp hlast
      exact ⟨rfl, Or.inl ⟨rfl, by simp⟩⟩
  · simp only [decide_eq_false hlast, Bool.false_eq_true, if_false] at h
    split at h
    · cases h
    · cases h
      exact ⟨rfl, Or.inr ⟨rfl, rfl, hlast⟩⟩

/-- A rule matches exactly the paths with a prefix that its value stands for as a
wildcard expression. -/
theorem ruleMatches_iff (h : readRule allow value = some rule) :
    ruleMatches rule path = true ↔ Expresses value path := by
  obtain ⟨_, ⟨hanchored, rfl⟩ | ⟨hplain, rfl, hlast⟩⟩ := readRule_eq_some h
  · rw [ruleMatches_iff_starts, expresses_anchored_iff]
    constructor
    · rintro ⟨matched, rest, rfl, hmatches, hrest⟩
      rwa [hrest hanchored, List.append_nil]
    · intro hmatches
      exact ⟨path, [], by simp, hmatches, fun _ => rfl⟩
  · rw [ruleMatches_iff_starts, expresses_plain_iff hlast]
    constructor
    · rintro ⟨matched, rest, hpath, hmatches, _⟩
      exact ⟨matched, rest, hpath, hmatches⟩
    · rintro ⟨matched, rest, hpath, hmatches⟩
      refine ⟨matched, rest, hpath, hmatches, fun hanchored => ?_⟩
      rw [hplain] at hanchored
      cases hanchored

/-- A repeated suffix is found at the end of the path, not at its first place. -/
theorem ruleMatches_iff_repeated :
    ruleMatches ⟨"/a*.php".toList, true, 6, true⟩ "/a.php.php".toList = true ↔
      Expresses "/a*.php$".toList "/a.php.php".toList := by
  have hrule : readRule true "/a*.php$".toList = some ⟨"/a*.php".toList, true, 6, true⟩ := by
    decide
  exact ruleMatches_iff hrule

end Erabi.Robots
