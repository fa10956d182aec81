/-
# Wildcard expressions

Expressions over any alphabet in which one letter, the star, stands for any string.
The search for the parts between the stars, each at its first place, finds a string
that the expression stands for whenever there is one.
-/
import Mathlib

namespace Wildcard

variable {α : Type*}

/-! ## Expressions -/

/-- The strings that an expression stands for. -/
inductive Matches (star : α) : List α → List α → Prop
  | nil : Matches star [] []
  | letter {a : α} {expression s : List α} : a ≠ star → Matches star expression s →
      Matches star (a :: expression) (a :: s)
  | star {expression s : List α} (skipped : List α) : Matches star expression s →
      Matches star (star :: expression) (skipped ++ s)

/-- The parts occur one behind the other, the last of them at the end of the string. -/
def Spread : List (List α) → List α → Prop
  | [], s => s = []
  | part :: parts, s => ∃ skipped rest, s = skipped ++ (part ++ rest) ∧ Spread parts rest

/-- The empty expression matches nothing more. -/
theorem matches_nil_iff {star : α} {s : List α} : Matches star [] s ↔ s = [] := by
  constructor
  · intro h
    cases h
    rfl
  · rintro rfl
    exact .nil

/-- A letter matches itself. -/
theorem matches_letter_iff {star a : α} {expression s : List α} (ha : a ≠ star) :
    Matches star (a :: expression) s ↔ ∃ rest, s = a :: rest ∧ Matches star expression rest := by
  constructor
  · intro h
    cases h with
    | letter _ h => exact ⟨_, rfl, h⟩
    | star _ _ => exact absurd rfl ha
  · rintro ⟨rest, rfl, h⟩
    exact .letter ha h

/-- A star matches anything. -/
theorem matches_star_iff {star : α} {expression s : List α} :
    Matches star (star :: expression) s ↔
      ∃ skipped rest, s = skipped ++ rest ∧ Matches star expression rest := by
  constructor
  · intro h
    cases h with
    | letter hstar _ => exact absurd rfl hstar
    | star skipped h => exact ⟨skipped, _, rfl, h⟩
  · rintro ⟨skipped, rest, rfl, h⟩
    exact .star skipped h

/-! ## Parts one behind the other -/

/-- The parts occur one behind the other in the string, the last of them at the end of
it where the expression is anchored. -/
def Reaches (anchored : Bool) (parts : List (List α)) (s : List α) : Prop :=
  ∃ matched rest, s = matched ++ rest ∧ Spread parts matched ∧ (anchored = true → rest = [])

/-- The parts are reached one after another. -/
theorem reaches_cons {anchored : Bool} {part : List α} {parts : List (List α)} {s : List α} :
    Reaches anchored (part :: parts) s ↔
      ∃ skipped rest, s = skipped ++ (part ++ rest) ∧ Reaches anchored parts rest := by
  constructor
  · rintro ⟨matched, behind, rfl, ⟨skipped, rest, rfl, hrest⟩, hanchored⟩
    exact ⟨skipped, rest ++ behind, by simp, rest, behind, rfl, hrest, hanchored⟩
  · rintro ⟨skipped, rest, rfl, matched, behind, rfl, hmatched, hanchored⟩
    exact ⟨skipped ++ (part ++ matched), behind, by simp, ⟨skipped, matched, rfl, hmatched⟩,
      hanchored⟩

/-- What is reached behind a suffix is reached in the whole. -/
theorem Reaches.of_suffix {anchored : Bool} {part : List α} {parts : List (List α)}
    {s t : List α} (h : Reaches anchored (part :: parts) s) (hsuffix : s <:+ t) :
    Reaches anchored (part :: parts) t := by
  obtain ⟨front, rfl⟩ := hsuffix
  obtain ⟨skipped, rest, rfl, hrest⟩ := reaches_cons.mp h
  exact reaches_cons.mpr ⟨front ++ skipped, rest, by simp, hrest⟩

section Search

variable [DecidableEq α]

/-- An expression stands for its first part and then the others, anything between. -/
theorem matches_iff {star : α} {expression s : List α} :
    Matches star expression s ↔ ∃ first parts rest, expression.splitOn star = first :: parts ∧
      s = first ++ rest ∧ Spread parts rest := by
  induction expression generalizing s with
  | nil =>
    rw [matches_nil_iff, List.splitOn_nil]
    constructor
    · rintro rfl
      exact ⟨[], [], [], rfl, rfl, rfl⟩
    · rintro ⟨first, parts, rest, hsplit, rfl, hrest⟩
      cases hsplit
      rw [show rest = [] from hrest]
      rfl
  | cons a expression ih =>
    rw [List.splitOn_cons_eq_if_modifyHead]
    by_cases ha : a = star
    · subst ha
      rw [beq_self_eq_true, if_pos rfl, matches_star_iff]
      constructor
      · rintro ⟨skipped, rest, rfl, h⟩
        obtain ⟨first, parts, tail, hsplit, rfl, htail⟩ := ih.mp h
        exact ⟨[], _, _, rfl, rfl, by rw [hsplit]; exact ⟨skipped, tail, rfl, htail⟩⟩
      · rintro ⟨first, parts, rest, hsplit, rfl, hrest⟩
        obtain ⟨rfl, rfl⟩ := List.cons.inj hsplit
        cases hparts : expression.splitOn a with
        | nil => exact absurd hparts (List.splitOn_ne_nil _ _)
        | cons part parts =>
          rw [hparts] at hrest
          obtain ⟨skipped, tail, rfl, htail⟩ := hrest
          exact ⟨skipped, part ++ tail, rfl, ih.mpr ⟨part, parts, tail, hparts, rfl, htail⟩⟩
    · rw [beq_false_of_ne ha, if_neg (by decide), matches_letter_iff ha]
      constructor
      · rintro ⟨rest, rfl, h⟩
        obtain ⟨first, parts, tail, hsplit, rfl, htail⟩ := ih.mp h
        exact ⟨a :: first, parts, tail, by rw [hsplit]; rfl, rfl, htail⟩
      · rintro ⟨first, parts, rest, hsplit, rfl, hrest⟩
        cases hparts : expression.splitOn star with
        | nil => exact absurd hparts (List.splitOn_ne_nil _ _)
        | cons part others =>
          rw [hparts] at hsplit
          obtain ⟨rfl, rfl⟩ := List.cons.inj hsplit
          exact ⟨part ++ rest, rfl, ih.mpr ⟨part, _, rest, hparts, rfl, hrest⟩⟩

/-! ## Searching for the parts -/

/-- What follows the first place of a part. -/
def afterFirst (part : List α) : List α → Option (List α)
  | [] => if part = [] then some [] else none
  | a :: s => if part.isPrefixOf (a :: s) then some ((a :: s).drop part.length)
      else afterFirst part s

/-- Looks for each part behind the one before.  The last part may lie anywhere, or at
the end where the expression is anchored. -/
def search (anchored : Bool) : List (List α) → List α → Bool
  | [], s => !anchored || s.isEmpty
  | [part], s => if anchored then part.isSuffixOf s else (afterFirst part s).isSome
  | part :: next :: parts, s =>
      match afterFirst part s with
      | none => false
      | some rest => search anchored (next :: parts) rest

/-- What follows an occurrence of the part. -/
theorem afterFirst_eq_some {part s rest : List α} (h : afterFirst part s = some rest) :
    ∃ skipped, s = skipped ++ (part ++ rest) := by
  induction s with
  | nil =>
    rw [afterFirst] at h
    split at h
    · rename_i hpart
      cases h
      exact ⟨[], by rw [hpart]; rfl⟩
    · cases h
  | cons a s ih =>
    rw [afterFirst] at h
    split at h
    · rename_i hprefix
      obtain ⟨tail, htail⟩ := List.isPrefixOf_iff_prefix.mp hprefix
      rw [← htail, List.drop_left] at h
      exact ⟨[], by rw [← htail, Option.some.inj h]; rfl⟩
    · obtain ⟨skipped, hskipped⟩ := ih h
      exact ⟨a :: skipped, by rw [hskipped]; rfl⟩

/-- The first place of a part leaves the most behind it. -/
theorem afterFirst_of_append (part rest skipped : List α) :
    ∃ found, afterFirst part (skipped ++ (part ++ rest)) = some found ∧ rest <:+ found := by
  induction skipped with
  | nil =>
    refine ⟨rest, ?_, List.suffix_rfl⟩
    rw [List.nil_append]
    cases hs : part ++ rest with
    | nil =>
      obtain ⟨hpart, hrest⟩ := List.append_eq_nil_iff.mp hs
      rw [afterFirst, if_pos hpart, hrest]
    | cons a s =>
      rw [← hs]
      have hprefix : part.isPrefixOf (part ++ rest) = true :=
        List.isPrefixOf_iff_prefix.mpr (List.prefix_append part rest)
      rw [hs] at hprefix ⊢
      rw [afterFirst, if_pos hprefix, ← hs, List.drop_left]
  | cons a skipped ih =>
    obtain ⟨found, hfound, hsuffix⟩ := ih
    rw [List.cons_append, afterFirst]
    by_cases hprefix : part.isPrefixOf (a :: (skipped ++ (part ++ rest))) = true
    · rw [if_pos hprefix]
      refine ⟨_, rfl, ?_⟩
      -- An earlier place leaves everything that a later place leaves.
      obtain ⟨tail, htail⟩ := List.isPrefixOf_iff_prefix.mp hprefix
      have hall : rest <:+ part ++ tail := by
        rw [htail]
        exact ⟨a :: (skipped ++ part), by simp⟩
      have hlength := congrArg List.length htail
      simp only [List.length_append, List.length_cons] at hlength
      rw [← htail, List.drop_left]
      exact List.suffix_of_suffix_length_le hall (List.suffix_append part tail) (by omega)
    · rw [if_neg hprefix]
      exact ⟨found, hfound, hsuffix⟩

/-- A part occurs when something follows it. -/
theorem isSome_afterFirst {part s : List α} :
    (afterFirst part s).isSome = true ↔ part <:+: s := by
  constructor
  · intro h
    obtain ⟨rest, hrest⟩ := Option.isSome_iff_exists.mp h
    obtain ⟨skipped, rfl⟩ := afterFirst_eq_some hrest
    exact ⟨skipped, rest, by simp⟩
  · rintro ⟨skipped, rest, rfl⟩
    obtain ⟨found, hfound, _⟩ := afterFirst_of_append part rest skipped
    rw [List.append_assoc, hfound]
    rfl

/-- The search finds what is reached. -/
theorem search_iff {anchored : Bool} {parts : List (List α)} {s : List α} :
    search anchored parts s = true ↔ Reaches anchored parts s := by
  induction parts generalizing s with
  | nil =>
    rw [search, Bool.or_eq_true, Bool.not_eq_true', List.isEmpty_iff]
    constructor
    · intro h
      refine ⟨[], s, rfl, rfl, fun hanchored => ?_⟩
      rcases h with h | h
      · rw [hanchored] at h
        cases h
      · exact h
    · rintro ⟨matched, rest, rfl, hmatched, hanchored⟩
      rw [show matched = [] from hmatched, List.nil_append]
      cases anchored with
      | false => exact Or.inl rfl
      | true => exact Or.inr (hanchored rfl)
  | cons part parts ih =>
    cases parts with
    | nil =>
      rw [search, reaches_cons]
      cases anchored with
      | false =>
        rw [if_neg (by decide), isSome_afterFirst]
        constructor
        · rintro ⟨skipped, rest, rfl⟩
          exact ⟨skipped, rest, by simp, [], rest, rfl, rfl, fun h => (by cases h)⟩
        · rintro ⟨skipped, rest, rfl, _⟩
          exact ⟨skipped, rest, by simp⟩
      | true =>
        rw [if_pos rfl, List.isSuffixOf_iff_suffix]
        constructor
        · rintro ⟨skipped, rfl⟩
          exact ⟨skipped, [], by simp, [], [], rfl, rfl, fun _ => rfl⟩
        · rintro ⟨skipped, rest, rfl, matched, behind, rfl, hmatched, hanchored⟩
          rw [show matched = [] from hmatched, hanchored rfl]
          exact ⟨skipped, by simp⟩
    | cons next parts =>
      rw [search, reaches_cons]
      constructor
      · intro h
        split at h
        · cases h
        · rename_i rest hrest
          obtain ⟨skipped, hskipped⟩ := afterFirst_eq_some hrest
          exact ⟨skipped, rest, hskipped, ih.mp h⟩
      · rintro ⟨skipped, rest, rfl, hrest⟩
        -- The first place of the part leaves room for what follows any other place.
        obtain ⟨found, hfound, hsuffix⟩ := afterFirst_of_append part rest skipped
        rw [hfound]
        exact ih.mpr (hrest.of_suffix hsuffix)

/-- The first part stands in front and the others are found behind it exactly where the
string has a prefix that the expression stands for; the whole string is the only prefix
that an anchored expression may stand for. -/
theorem search_prefix_iff {star : α} {anchored : Bool} {expression first s : List α}
    {parts : List (List α)} (hsplit : expression.splitOn star = first :: parts) :
    (first.isPrefixOf s && search anchored parts (s.drop first.length)) = true ↔
      ∃ matched rest, s = matched ++ rest ∧ Matches star expression matched ∧
        (anchored = true → rest = []) := by
  rw [Bool.and_eq_true, List.isPrefixOf_iff_prefix, search_iff]
  constructor
  · rintro ⟨⟨tail, rfl⟩, hreaches⟩
    rw [List.drop_left] at hreaches
    obtain ⟨matched, rest, rfl, hmatched, hanchored⟩ := hreaches
    exact ⟨first ++ matched, rest, by simp,
      matches_iff.mpr ⟨first, parts, matched, hsplit, rfl, hmatched⟩, hanchored⟩
  · rintro ⟨matched, rest, rfl, hmatches, hanchored⟩
    obtain ⟨first', parts', tail, hsplit', rfl, htail⟩ := matches_iff.mp hmatches
    rw [hsplit] at hsplit'
    obtain ⟨rfl, rfl⟩ := List.cons.inj hsplit'
    rw [List.append_assoc]
    refine ⟨List.prefix_append _ _, ?_⟩
    rw [List.drop_left]
    exact ⟨tail, rest, rfl, htail, hanchored⟩

end Search

end Wildcard
