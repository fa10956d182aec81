/-
# Comments in robots documents

A line that holds only a comment is read like a blank line, which closes the open
group.  The comment is ignored exactly where no group is open, or where the next line
that the parser takes notice of closes the group anyway.
-/
import Mathlib
import Erabi.Robots.Document

namespace Erabi.Robots

open Authoring (splitOnce splitOnce_append parseDigits)
open Snapshot (isWhitespace)
open Pacing (Duration)

/-! ## Comment lines -/

/-- Optional blanks and a comment. -/
def IsComment (line : List Char) : Prop :=
  ∃ blanks text, line = blanks ++ '#' :: text ∧ ∀ c ∈ blanks, isWhitespace c = true

/-- White space alone is trimmed to nothing. -/
theorem trimmed_eq_nil {s : List Char} (h : ∀ c ∈ s, isWhitespace c = true) : trimmed s = [] := by
  rw [trimmed, List.dropWhile_eq_nil_iff.mpr h]
  rfl

/-- A comment is read like a blank line. -/
theorem directive_of_isComment {line : List Char} (h : IsComment line) :
    directive line = .blank := by
  obtain ⟨blanks, text, rfl, hblanks⟩ := h
  have hhash : '#' ∉ blanks := by
    intro hmem
    exact absurd (hblanks '#' hmem) (by decide)
  have hline : withoutComment (blanks ++ '#' :: text) = blanks := by
    rw [withoutComment, splitOnce_append hhash]
    rfl
  rw [directive, hline, trimmed_eq_nil hblanks]
  rfl

/-- A comment is one without its carriage return. -/
theorem IsComment.withoutReturn {line : List Char} (h : IsComment line) :
    IsComment (withoutReturn line) := by
  obtain ⟨blanks, text, rfl, hblanks⟩ := h
  rw [Robots.withoutReturn]
  split
  · rename_i hlast
    cases text with
    | nil =>
      rw [List.getLast?_append_cons] at hlast
      cases hlast
    | cons c text =>
      refine ⟨blanks, (c :: text).dropLast, ?_, hblanks⟩
      rw [List.dropLast_append_of_ne_nil (List.cons_ne_nil _ _), List.dropLast_cons_cons]
  · exact ⟨blanks, text, rfl, hblanks⟩

/-! ## The parser state -/

namespace ParserState

variable {float : FloatLibrary} {state state' ahead final : ParserState}
  {before after : List (List Char)} {d : Directive}

/-- Only an open group has policy directives, and it has a user agent. -/
structure Sound (state : ParserState) : Prop where
  policy : state.groupHasPolicyDirective = true → state.current.isSome = true
  named : ∀ group ∈ state.current, group.userAgents ≠ []

/-- The initial state. -/
theorem sound_initial : initial.Sound := ⟨fun h => (by cases h), fun _ h => (by cases h)⟩

/-- A state whose group is closed. -/
theorem sound_closeGroup (state : ParserState) : state.closeGroup.Sound :=
  ⟨fun h => (by cases h), fun _ h => (by cases h)⟩

/-- Closing twice is closing once. -/
theorem closeGroup_closeGroup (state : ParserState) :
    state.closeGroup.closeGroup = state.closeGroup := by
  simp [closeGroup]

/-- Without an open group there is nothing to close. -/
theorem Sound.closeGroup_of_none (h : state.Sound) (hnone : state.current = none) :
    state.closeGroup = state := by
  obtain ⟨groups, current, policy⟩ := state
  cases hnone
  cases policy with
  | false => simp [closeGroup]
  | true => exact absurd (h.policy rfl) Bool.false_ne_true

/-- Closing takes an open group over. -/
theorem Sound.length_closeGroup (h : state.Sound) : state.closeGroup.groups.length =
    state.groups.length + if state.current.isSome then 1 else 0 := by
  obtain ⟨groups, current, policy⟩ := state
  cases current with
  | none => simp [closeGroup]
  | some group => simp [closeGroup, h.named group rfl]

/-- Extending the group. -/
theorem Sound.extendGroup {group : RobotsGroup} (h : state.Sound)
    (hgroup : state.current = some group) (rules : List RobotsRule) (delays : List Duration) :
    (state.extendGroup group rules delays).Sound := by
  refine ⟨fun _ => rfl, fun g hg => ?_⟩
  cases hg
  exact h.named group hgroup

/-- Every line keeps the state sound. -/
theorem Sound.readDirective (h : state.Sound) (hok : state.readDirective float d = .ok state') :
    state'.Sound := by
  cases d with
  | blank =>
    cases hok
    exact sound_closeGroup state
  | userAgent value =>
    obtain ⟨_, rfl⟩ := readUserAgent_eq_ok hok
    refine ⟨fun htrue => ?_, fun g hg => ?_⟩
    · rw [groupHasPolicyDirective_joinUserAgent] at htrue
      cases htrue
    · cases hg
      exact List.append_ne_nil_of_right_ne_nil _ (List.cons_ne_nil _ _)
  | rule allow value =>
    obtain ⟨group, rules, hgroup, _, rfl⟩ := addRule_eq_ok.mp hok
    exact h.extendGroup hgroup rules []
  | crawlDelay value =>
    obtain ⟨group, delay, hgroup, _, rfl⟩ := addCrawlDelay_eq_ok.mp hok
    exact h.extendGroup hgroup [] [delay]
  | other =>
    cases hok
    exact h

/-- Reading lines. -/
theorem Sound.readLines (h : state.Sound) (hok : state.readLines float before = .ok state') :
    state'.Sound :=
  readLines_keeps (motive := Sound) (fun hsound hread => hsound.readDirective hread) h hok

/-! ## A group that is closed too early -/

/-- One group more is complete, and otherwise the states read on alike. -/
structure Ahead (state ahead : ParserState) : Prop where
  sound : state.Sound
  sound_ahead : ahead.Sound
  policy : ahead.groupHasPolicyDirective = state.groupHasPolicyDirective
  current : ahead.current.isSome = state.current.isSome
  groups : ahead.groups.length = state.groups.length + 1

/-- The state ahead has one group more. -/
theorem Ahead.length_closeGroup (h : Ahead state ahead) :
    ahead.closeGroup.groups.length = state.closeGroup.groups.length + 1 := by
  rw [h.sound_ahead.length_closeGroup, h.sound.length_closeGroup, h.current, h.groups]
  omega

/-- It stays ahead when both groups are extended. -/
theorem Ahead.extendGroup {group group' : RobotsGroup} (h : Ahead state ahead)
    (hgroup : state.current = some group) (hgroup' : ahead.current = some group')
    (rules : List RobotsRule) (delays : List Duration) :
    Ahead (state.extendGroup group rules delays) (ahead.extendGroup group' rules delays) where
  sound := h.sound.extendGroup hgroup rules delays
  sound_ahead := h.sound_ahead.extendGroup hgroup' rules delays
  policy := rfl
  current := rfl
  groups := h.groups

/-- Where one state has an open group, so has the other. -/
theorem Ahead.current_eq_some {group : RobotsGroup} (h : Ahead state ahead)
    (hgroup : state.current = some group) : ∃ group', ahead.current = some group' := by
  apply Option.isSome_iff_exists.mp
  rw [h.current, hgroup]
  rfl

/-- What one state reads, the other reads too, and stays one group ahead. -/
theorem Ahead.readDirective (h : Ahead state ahead)
    (hok : state.readDirective float d = .ok state') :
    ∃ ahead', ahead.readDirective float d = .ok ahead' ∧ Ahead state' ahead' := by
  cases d with
  | blank =>
    cases hok
    exact ⟨ahead.closeGroup, rfl, sound_closeGroup state, sound_closeGroup ahead, rfl, rfl,
      h.length_closeGroup⟩
  | userAgent value =>
    obtain ⟨hvalue, rfl⟩ := readUserAgent_eq_ok hok
    have hread : ahead.readDirective float (.userAgent value) = .ok (ahead.joinUserAgent value) :=
      if_neg hvalue
    refine ⟨ahead.joinUserAgent value, hread, h.sound.readDirective hok,
      h.sound_ahead.readDirective hread, ?_, rfl, ?_⟩
    · rw [groupHasPolicyDirective_joinUserAgent, groupHasPolicyDirective_joinUserAgent]
    · rw [groups_joinUserAgent, groups_joinUserAgent, h.policy]
      split
      · exact h.length_closeGroup
      · exact h.groups
  | rule allow value =>
    obtain ⟨group, rules, hgroup, hrules, rfl⟩ := addRule_eq_ok.mp hok
    obtain ⟨group', hgroup'⟩ := h.current_eq_some hgroup
    exact ⟨ahead.extendGroup group' rules [], addRule_eq_ok.mpr ⟨group', rules, hgroup', hrules, rfl⟩,
      h.extendGroup hgroup hgroup' rules []⟩
  | crawlDelay value =>
    obtain ⟨group, delay, hgroup, hdelay, rfl⟩ := addCrawlDelay_eq_ok.mp hok
    obtain ⟨group', hgroup'⟩ := h.current_eq_some hgroup
    exact ⟨ahead.extendGroup group' [] [delay],
      addCrawlDelay_eq_ok.mpr ⟨group', delay, hgroup', hdelay, rfl⟩,
      h.extendGroup hgroup hgroup' [] [delay]⟩
  | other =>
    cases hok
    exact ⟨ahead, rfl, h⟩

/-- It stays ahead over the lines that follow. -/
theorem Ahead.readLines (h : Ahead state ahead) (hok : state.readLines float after = .ok state') :
    ∃ ahead', ahead.readLines float after = .ok ahead' ∧ Ahead state' ahead' := by
  induction after generalizing state ahead with
  | nil =>
    cases hok
    exact ⟨ahead, rfl, h⟩
  | cons line rest ih =>
    obtain ⟨next, hnext, hrest⟩ := readLines_cons_eq_ok.mp hok
    obtain ⟨next', hnext', hahead⟩ := h.readDirective hnext
    obtain ⟨ahead', hahead', hfinal⟩ := ih hahead hrest
    exact ⟨ahead', readLines_cons_eq_ok.mpr ⟨next', hnext', hahead'⟩, hfinal⟩

/-- The documents differ. -/
theorem Ahead.document_ne (h : Ahead state ahead) : ahead.document ≠ state.document := by
  intro heq
  have hlength := congrArg (fun document => document.groups.length) heq
  have hahead := h.length_closeGroup
  simp only [document] at hlength
  omega

/-! ## The line behind a comment -/

/-- The next line that the parser takes notice of closes the open group: the text ends,
the line is blank, or it names a user agent behind policy directives. -/
def closesGroup (groupHasPolicyDirective : Bool) : List (List Char) → Bool
  | [] => true
  | line :: rest =>
      match directive line with
      | .blank => true
      | .userAgent _ => groupHasPolicyDirective
      | .rule _ _ | .crawlDelay _ => false
      | .other => closesGroup groupHasPolicyDirective rest

/-- Where the group would be closed anyway, it may be closed before. -/
theorem readLines_closeGroup (hcloses : closesGroup state.groupHasPolicyDirective after = true)
    (hok : state.readLines float after = .ok final) :
    ∃ final', state.closeGroup.readLines float after = .ok final' ∧
      final'.document = final.document := by
  induction after with
  | nil =>
    cases hok
    refine ⟨state.closeGroup, rfl, ?_⟩
    rw [document, document, closeGroup_closeGroup]
  | cons line rest ih =>
    obtain ⟨next, hnext, hrest⟩ := readLines_cons_eq_ok.mp hok
    rw [closesGroup] at hcloses
    cases hdirective : directive line with
    | blank =>
      rw [hdirective] at hnext
      cases hnext
      refine ⟨final, readLines_cons_eq_ok.mpr ⟨state.closeGroup, ?_, hrest⟩, rfl⟩
      rw [hdirective, ParserState.readDirective, closeGroup_closeGroup]
    -- an agent line closes the open group itself, so it makes no difference
    | userAgent value =>
      rw [hdirective] at hnext hcloses
      refine ⟨final, readLines_cons_eq_ok.mpr ⟨next, ?_, hrest⟩, rfl⟩
      rw [hdirective, ← hnext]
      simp only [ParserState.readDirective, readUserAgent]
      simp [show state.groupHasPolicyDirective = true from hcloses, closeGroup]
    | rule allow value =>
      rw [hdirective] at hcloses
      cases hcloses
    | crawlDelay value =>
      rw [hdirective] at hcloses
      cases hcloses
    -- other lines change nothing, so the next one decides
    | other =>
      rw [hdirective] at hnext hcloses
      cases hnext
      obtain ⟨final', hfinal', hdocument⟩ := ih hcloses hrest
      exact ⟨final', readLines_cons_eq_ok.mpr
        ⟨state.closeGroup, by rw [hdirective]; rfl, hfinal'⟩, hdocument⟩

/-- Where the open group would go on, it may not be closed. -/
theorem readLines_closeGroup_ne (h : state.Sound) (hopen : state.current.isSome = true)
    (hcloses : closesGroup state.groupHasPolicyDirective after = false)
    (hok : state.readLines float after = .ok final) {final' : ParserState}
    (hok' : state.closeGroup.readLines float after = .ok final') :
    final'.document ≠ final.document := by
  induction after with
  | nil => cases hcloses
  | cons line rest ih =>
    obtain ⟨next, hnext, hrest⟩ := readLines_cons_eq_ok.mp hok
    obtain ⟨next', hnext', hrest'⟩ := readLines_cons_eq_ok.mp hok'
    rw [closesGroup] at hcloses
    cases hdirective : directive line with
    | blank =>
      rw [hdirective] at hcloses
      cases hcloses
    | userAgent value =>
      -- The user agent joins the open group, or else begins a group of its own.
      rw [hdirective] at hnext hnext' hcloses
      obtain ⟨_, rfl⟩ := readUserAgent_eq_ok hnext
      obtain ⟨_, rfl⟩ := readUserAgent_eq_ok hnext'
      have hahead : Ahead (state.joinUserAgent value) (state.closeGroup.joinUserAgent value) := by
        refine ⟨h.readDirective (d := .userAgent value) hnext,
          (sound_closeGroup state).readDirective (d := .userAgent value) hnext', ?_, rfl, ?_⟩
        · rw [groupHasPolicyDirective_joinUserAgent, groupHasPolicyDirective_joinUserAgent]
        · have hlength := h.length_closeGroup
          rw [if_pos hopen] at hlength
          rw [groups_joinUserAgent, groups_joinUserAgent,
            show state.groupHasPolicyDirective = false from hcloses]
          exact hlength
      obtain ⟨last, hlast, hfinal⟩ := hahead.readLines hrest
      rw [hrest'] at hlast
      cases hlast
      exact hfinal.document_ne
    | rule allow value =>
      rw [hdirective] at hnext'
      cases hnext'
    | crawlDelay value =>
      rw [hdirective] at hnext'
      cases hnext'
    | other =>
      rw [hdirective] at hnext hnext' hcloses
      cases hnext
      cases hnext'
      exact ih hcloses hrest hrest'

end ParserState

/-! ## Inserted comments -/

/-- The second text has the lines of the first one and a comment between them. -/
structure CommentInserted (text text' : List Char) (before : List (List Char)) (line : List Char)
    (after : List (List Char)) : Prop where
  comment : IsComment line
  lines : bodyLines text = before ++ after
  lines' : bodyLines text' = before ++ line :: after

variable {float : FloatLibrary} {text text' line : List Char} {before after : List (List Char)}
  {document : RobotsDocument}

/-- The lines of a text up to a line break and after it. -/
theorem lines_newline (s rest : List Char) :
    lines (s ++ '\n' :: rest) = (s.splitOn '\n').map withoutReturn ++ lines rest := by
  have hne := List.splitOn_ne_nil '\n' rest
  rw [lines, lines, List.splitOn_append_cons_self, List.dropLast_append_of_ne_nil hne,
    List.getLast?_append_of_ne_nil _ hne, List.map_append, List.append_assoc]

/-- A byte order mark does not reach over the end of a line. -/
theorem bodyLines_newline (s rest : List Char) : bodyLines (s ++ '\n' :: rest) =
    ((s.dropWhile (· = '\ufeff')).splitOn '\n').map withoutReturn ++ lines rest := by
  rw [bodyLines, List.dropWhile_append]
  split
  · rename_i hempty
    rw [List.isEmpty_iff.mp hempty]
    exact lines_newline [] rest
  · exact lines_newline _ rest

/-- A comment at the end of any line of a text. -/
theorem commentInserted_newline {front rest comment : List Char} (hcomment : IsComment comment)
    (hline : '\n' ∉ comment) :
    CommentInserted (front ++ '\n' :: rest) (front ++ '\n' :: (comment ++ '\n' :: rest))
      (((front.dropWhile (· = '\ufeff')).splitOn '\n').map withoutReturn)
      (withoutReturn comment) (lines rest) where
  comment := hcomment.withoutReturn
  lines := bodyLines_newline front rest
  lines' := by
    rw [bodyLines_newline, lines_newline, List.splitOn_eq_singleton hline]
    rfl

/-- A comment yields the same document exactly where no group is open in front of it, or
the next line that the parser takes notice of closes the group. -/
theorem comment_ignored_iff (h : CommentInserted text text' before line after)
    (hparse : parseRobotsDocument float text = .ok document) :
    parseRobotsDocument float text' = .ok document ↔
      ∀ state, ParserState.initial.readLines float before = .ok state →
        state.current = none ∨
          ParserState.closesGroup state.groupHasPolicyDirective after = true := by
  obtain ⟨final, hfinal, rfl⟩ := parseRobotsDocument_eq_ok.mp hparse
  rw [h.lines] at hfinal
  obtain ⟨state, hstate, hrest⟩ := ParserState.readLines_append.mp hfinal
  have hsound := ParserState.sound_initial.readLines hstate
  -- The comment closes the group that is open in front of it.
  have hcomment : ∀ {final' : ParserState},
      ParserState.initial.readLines float (bodyLines text') = .ok final' ↔
        state.closeGroup.readLines float after = .ok final' := by
    intro final'
    rw [h.lines', ParserState.readLines_append]
    constructor
    · rintro ⟨middle, hmiddle, hline⟩
      rw [hstate] at hmiddle
      cases hmiddle
      obtain ⟨next, hnext, hafter⟩ := ParserState.readLines_cons_eq_ok.mp hline
      rw [directive_of_isComment h.comment] at hnext
      cases hnext
      exact hafter
    · intro hafter
      refine ⟨state, hstate, ParserState.readLines_cons_eq_ok.mpr ⟨state.closeGroup, ?_, hafter⟩⟩
      rw [directive_of_isComment h.comment]
      rfl
  rw [parseRobotsDocument_eq_ok]
  constructor
  · rintro ⟨final', hfinal', hdocument⟩ other hother
    rw [hstate] at hother
    cases hother
    cases hcurrent : state.current with
    | none => exact Or.inl rfl
    | some group =>
      right
      by_contra hcloses
      rw [Bool.not_eq_true] at hcloses
      exact ParserState.readLines_closeGroup_ne hsound (by rw [hcurrent]; rfl) hcloses hrest
        (hcomment.mp hfinal') hdocument
  · intro hall
    rcases hall state hstate with hnone | hcloses
    · refine ⟨final, hcomment.mpr ?_, rfl⟩
      rw [hsound.closeGroup_of_none hnone]
      exact hrest
    · obtain ⟨final', hfinal', hdocument⟩ := ParserState.readLines_closeGroup hcloses hrest
      exact ⟨final', hcomment.mpr hfinal', hdocument⟩

/-- Whole numbers of seconds. -/
def wholeSeconds : FloatLibrary where
  Number := ℕ
  parse := parseDigits (2 ^ 64)
  isFinite _ := true
  isSignNegative _ := false
  tryFromSecs n := some (Pacing.secs n)

/-- A line that begins with a number sign. -/
theorem isComment_plain (text : List Char) : IsComment ('#' :: text) :=
  ⟨[], text, rfl, fun _ h => (by cases h)⟩

/-- A comment behind the rules of a group, in front of the next group. -/
theorem comment_ignored_iff_between :
    parseRobotsDocument wholeSeconds "User-agent: a\nDisallow: /\n#\nUser-agent: b".toList =
        .ok ⟨[⟨["a".toList], [⟨"/".toList, false, 1, false⟩], []⟩, ⟨["b".toList], [], []⟩],
          false, false⟩ ↔
      ∀ state, ParserState.initial.readLines wholeSeconds
        ["User-agent: a".toList, "Disallow: /".toList] = .ok state →
          state.current = none ∨ ParserState.closesGroup state.groupHasPolicyDirective
            ["User-agent: b".toList] = true := by
  have hinserted : CommentInserted "User-agent: a\nDisallow: /\nUser-agent: b".toList
      "User-agent: a\nDisallow: /\n#\nUser-agent: b".toList
      ["User-agent: a".toList, "Disallow: /".toList] ['#'] ["User-agent: b".toList] :=
    @commentInserted_newline "User-agent: a\nDisallow: /".toList "User-agent: b".toList ['#']
      (isComment_plain []) (by decide)
  exact comment_ignored_iff hinserted (by decide)

/-- A comment between a user agent and its rules. -/
theorem comment_not_ignored : ¬ ∀ (float : FloatLibrary) (text text' line : List Char)
    (before after : List (List Char)) (document : RobotsDocument),
      CommentInserted text text' before line after →
        parseRobotsDocument float text = .ok document →
          parseRobotsDocument float text' = .ok document := by
  intro h
  have hparse := h wholeSeconds "User-agent: *\nDisallow: /".toList
    "User-agent: *\n# all\nDisallow: /".toList _ _ _
    ⟨[⟨["*".toList], [⟨"/".toList, false, 1, false⟩], []⟩], false, false⟩
    (@commentInserted_newline "User-agent: *".toList "Disallow: /".toList _
      (isComment_plain " all".toList) (by decide)) (by decide)
  exact absurd hparse (by decide)

end Erabi.Robots
