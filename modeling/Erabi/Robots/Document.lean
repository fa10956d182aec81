/-
# Robots documents

A robots.txt text is read line by line into groups of user agents with their rules and
crawl delays.  A request is decided by the rules of the groups that name its user agent
most specifically.  Texts are lists of characters; the floating point numbers of the
crawl delays are those of the standard library.
-/
import Mathlib
import Erabi.Authoring.Text
import Erabi.Pacing.Origin
import Erabi.Wildcard.Search

namespace Erabi.Robots

open Authoring (UrlCrate Url splitOnce isControl)
open Pacing (Duration maxPacingDelay)
open Snapshot (isWhitespace)

/-! ## Texts -/

/-- Without the white space at both ends. -/
def trimmed (s : List Char) : List Char := (s.dropWhile isWhitespace).rdropWhile isWhitespace

/-- A text with its ASCII letters in lower case. -/
def asciiLowercase (s : List Char) : List Char := s.map Char.toLower

/-- A line without a carriage return at its end. -/
def withoutReturn (line : List Char) : List Char :=
  if line.getLast? = some '\r' then line.dropLast else line

/-- The lines of a text, each without its line ending. -/
def lines (s : List Char) : List (List Char) :=
  let pieces := s.splitOn '\n'
  pieces.dropLast.map withoutReturn ++ pieces.getLast?.toList.filter (· ≠ [])

/-! ## Documents -/

/-- Why a document is invalid. -/
inductive RobotsInvalidPolicy : Type where
  | responseTooLarge
  | invalidEncoding
  | malformedDirective
  | invalidCrawlDelay
  deriving DecidableEq, Repr

/-- A rule of a group. -/
structure RobotsRule where
  pattern : List Char
  allow : Bool
  specificity : ℕ
  endAnchored : Bool
  deriving DecidableEq, Repr

/-- The rules for some user agents. -/
structure RobotsGroup where
  userAgents : List (List Char)
  rules : List RobotsRule
  crawlDelays : List Duration
  deriving DecidableEq, Repr

/-- A robots document. -/
structure RobotsDocument where
  groups : List RobotsGroup
  allowAll : Bool
  denyAll : Bool
  deriving DecidableEq, Repr

namespace RobotsDocument

/-- The policy of an origin without a robots.txt. -/
def allowEverything : RobotsDocument := ⟨[], true, false⟩

/-- The policy of an origin that denies access to its robots.txt. -/
def denyEverything : RobotsDocument := ⟨[], false, true⟩

end RobotsDocument

/-- What the standard library makes of a number of seconds. -/
structure FloatLibrary where
  Number : Type
  parse : List Char → Option Number
  isFinite : Number → Bool
  isSignNegative : Number → Bool
  tryFromSecs : Number → Option Duration

/-! ## Parsing -/

/-- What a line says. -/
inductive Directive : Type where
  | blank
  | userAgent (value : List Char)
  | rule (allow : Bool) (value : List Char)
  | crawlDelay (value : List Char)
  /-- A line that is not understood, or without a colon. -/
  | other
  deriving DecidableEq, Repr

/-- A line up to its comment. -/
def withoutComment (line : List Char) : List Char :=
  ((splitOnce ['#'] line).map Prod.fst).getD line

/-- The directive on a line. -/
def directive (rawLine : List Char) : Directive :=
  let line := trimmed (withoutComment rawLine)
  if line = [] then .blank
  else
    match splitOnce [':'] line with
    | none => .other
    | some (name, value) =>
        let name := asciiLowercase (trimmed name)
        let value := trimmed value
        if name = "user-agent".toList then .userAgent value
        else if name = "allow".toList then .rule true value
        else if name = "disallow".toList then .rule false value
        else if name = "crawl-delay".toList then .crawlDelay value
        else .other

/-- The rule that the value of a directive stands for.  A final `$` anchors it; an
empty pattern is no rule. -/
def readRule (allow : Bool) (value : List Char) : Option RobotsRule :=
  let endAnchored := decide (value.getLast? = some '$')
  let pattern := if endAnchored then value.dropLast else value
  if pattern = [] then none
  else some ⟨pattern, allow, String.utf8Len (pattern.filter (· ≠ '*')), endAnchored⟩

section Parsing

variable (float : FloatLibrary)

/-- A delay in seconds, cut at the greatest permitted. -/
def parseCrawlDelay (value : List Char) : Except RobotsInvalidPolicy Duration :=
  match float.parse value with
  | none => .error .invalidCrawlDelay
  | some seconds =>
      if !float.isFinite seconds || float.isSignNegative seconds then .error .invalidCrawlDelay
      else
        match float.tryFromSecs seconds with
        | none => .error .invalidCrawlDelay
        | some duration => .ok (min duration maxPacingDelay)

/-- What the loop over the lines carries along. -/
structure ParserState where
  groups : List RobotsGroup
  current : Option RobotsGroup
  groupHasPolicyDirective : Bool
  deriving DecidableEq, Repr

namespace ParserState

/-- The state in front of the first line. -/
def initial : ParserState := ⟨[], none, false⟩

/-- The open group is complete. -/
def closeGroup (state : ParserState) : ParserState :=
  ⟨state.groups ++ state.current.toList.filter (·.userAgents ≠ []), none, false⟩

/-- Joins a user agent to the group, or begins one. -/
def readUserAgent (state : ParserState) (value : List Char) :
    Except RobotsInvalidPolicy ParserState :=
  if value = [] ∨ value.any isControl then .error .malformedDirective
  else
    let state := if state.groupHasPolicyDirective then state.closeGroup else state
    let group := state.current.getD ⟨[], [], []⟩
    .ok { state with
      current := some { group with userAgents := group.userAgents ++ [asciiLowercase value] } }

/-- Adds a rule to the open group. -/
def addRule (state : ParserState) (allow : Bool) (value : List Char) :
    Except RobotsInvalidPolicy ParserState :=
  match state.current with
  | none => .error .malformedDirective
  | some group =>
      if value = [] then .ok { state with groupHasPolicyDirective := true }
      else if value.any isControl then .error .malformedDirective
      else .ok { state with
        current := some { group with rules := group.rules ++ (readRule allow value).toList }
        groupHasPolicyDirective := true }

/-- Adds a delay to the open group. -/
def addCrawlDelay (state : ParserState) (value : List Char) :
    Except RobotsInvalidPolicy ParserState :=
  match state.current with
  | none => .error .malformedDirective
  | some group =>
      match parseCrawlDelay float value with
      | .error error => .error error
      | .ok delay => .ok { state with
          current := some { group with crawlDelays := group.crawlDelays ++ [delay] }
          groupHasPolicyDirective := true }

/-- One directive. -/
def readDirective (state : ParserState) : Directive → Except RobotsInvalidPolicy ParserState
  | .blank => .ok state.closeGroup
  | .userAgent value => state.readUserAgent value
  | .rule allow value => state.addRule allow value
  | .crawlDelay value => state.addCrawlDelay float value
  | .other => .ok state

/-- The lines one after another. -/
def readLines (state : ParserState) : List (List Char) → Except RobotsInvalidPolicy ParserState
  | [] => .ok state
  | line :: rest =>
      match state.readDirective float (directive line) with
      | .error error => .error error
      | .ok state => readLines state rest

/-- The document at the end of the text. -/
def document (state : ParserState) : RobotsDocument := ⟨state.closeGroup.groups, false, false⟩

end ParserState

/-- The lines of the text behind its byte order mark. -/
def bodyLines (body : List Char) : List (List Char) := lines (body.dropWhile (· = '\ufeff'))

/-- A whole document. -/
def parseRobotsDocument (body : List Char) : Except RobotsInvalidPolicy RobotsDocument :=
  (ParserState.initial.readLines float (bodyLines body)).map ParserState.document

end Parsing

/-! ## What a line does -/

namespace ParserState

variable {float : FloatLibrary} {state state' final : ParserState}
  {before after : List (List Char)}

/-- A user agent joins the open group, or begins a group behind policy directives. -/
def joinUserAgent (state : ParserState) (value : List Char) : ParserState :=
  let state := if state.groupHasPolicyDirective then state.closeGroup else state
  let group := state.current.getD ⟨[], [], []⟩
  { state with
    current := some { group with userAgents := group.userAgents ++ [asciiLowercase value] } }

/-- The open group with further rules and crawl delays. -/
def extendGroup (state : ParserState) (group : RobotsGroup) (rules : List RobotsRule)
    (delays : List Duration) : ParserState :=
  { state with
    current := some { group with
      rules := group.rules ++ rules
      crawlDelays := group.crawlDelays ++ delays }
    groupHasPolicyDirective := true }

/-- A group joined by a user agent has no rule yet. -/
theorem groupHasPolicyDirective_joinUserAgent (state : ParserState) (value : List Char) :
    (state.joinUserAgent value).groupHasPolicyDirective = false := by
  rw [joinUserAgent]
  cases hpolicy : state.groupHasPolicyDirective
  · simp [hpolicy]
  · simp [closeGroup]

/-- The closed groups after a user agent. -/
theorem groups_joinUserAgent (state : ParserState) (value : List Char) :
    (state.joinUserAgent value).groups =
      if state.groupHasPolicyDirective then state.closeGroup.groups else state.groups := by
  rw [joinUserAgent]
  cases state.groupHasPolicyDirective
  · rfl
  · rfl

/-- A user agent is joined when it is printable and not empty. -/
theorem readUserAgent_eq_ok {value : List Char} (h : state.readUserAgent value = .ok state') :
    ¬ (value = [] ∨ value.any isControl) ∧ state' = state.joinUserAgent value := by
  rw [readUserAgent] at h
  split at h
  · cases h
  · rename_i hvalue
    exact ⟨hvalue, (Except.ok.inj h).symm⟩

/-- The rules that the value of a directive stands for, in any state. -/
def directiveRules (allow : Bool) (value : List Char) :
    Except RobotsInvalidPolicy (List RobotsRule) :=
  if value = [] then .ok []
  else if value.any isControl then .error .malformedDirective
  else .ok (readRule allow value).toList

/-- A rule extends the open group. -/
theorem addRule_eq_ok {allow : Bool} {value : List Char} :
    state.addRule allow value = .ok state' ↔
      ∃ group rules, state.current = some group ∧ directiveRules allow value = .ok rules ∧
        state' = state.extendGroup group rules [] := by
  rw [addRule, directiveRules]
  cases hgroup : state.current with
  | none => simp
  | some group =>
    by_cases hvalue : value = []
    · simp [hvalue, extendGroup, eq_comm]
    · by_cases hcontrol : value.any isControl = true
      · simp [hvalue, hcontrol]
      · simp [hvalue, hcontrol, extendGroup, eq_comm]

/-- A delay extends the open group. -/
theorem addCrawlDelay_eq_ok {value : List Char} :
    state.addCrawlDelay float value = .ok state' ↔
      ∃ group delay, state.current = some group ∧ parseCrawlDelay float value = .ok delay ∧
        state' = state.extendGroup group [] [delay] := by
  rw [addCrawlDelay]
  cases hgroup : state.current with
  | none => simp
  | some group =>
    cases hdelay : parseCrawlDelay float value with
    | error e => simp
    | ok delay => simp [extendGroup, eq_comm]

/-- Lines are read when the first and the others are. -/
theorem readLines_cons_eq_ok {line : List Char} {rest : List (List Char)} :
    state.readLines float (line :: rest) = .ok final ↔
      ∃ next, state.readDirective float (directive line) = .ok next ∧
        next.readLines float rest = .ok final := by
  rw [readLines]
  cases hread : state.readDirective float (directive line) with
  | error e => simp
  | ok next => simp

/-- Lines are read in two parts. -/
theorem readLines_append : state.readLines float (before ++ after) = .ok final ↔
    ∃ middle, state.readLines float before = .ok middle ∧
      middle.readLines float after = .ok final := by
  induction before generalizing state with
  | nil => simp [ParserState.readLines]
  | cons line rest ih =>
    rw [List.cons_append, readLines_cons_eq_ok]
    constructor
    · rintro ⟨next, hnext, hrest⟩
      obtain ⟨middle, hmiddle, hafter⟩ := ih.mp hrest
      exact ⟨middle, readLines_cons_eq_ok.mpr ⟨next, hnext, hmiddle⟩, hafter⟩
    · rintro ⟨middle, hmiddle, hafter⟩
      obtain ⟨next, hnext, hrest⟩ := readLines_cons_eq_ok.mp hmiddle
      exact ⟨next, hnext, ih.mpr ⟨middle, hrest, hafter⟩⟩

/-- What every line keeps holds at the end of the lines. -/
theorem readLines_keeps {motive : ParserState → Prop}
    (hstep : ∀ {state next : ParserState} {line : List Char}, motive state →
      state.readDirective float (directive line) = .ok next → motive next)
    (h : motive state) (hok : state.readLines float before = .ok final) : motive final := by
  induction before generalizing state with
  | nil =>
    cases hok
    exact h
  | cons line rest ih =>
    obtain ⟨next, hnext, hrest⟩ := readLines_cons_eq_ok.mp hok
    exact ih (hstep h hnext) hrest

end ParserState

/-- A document is what its lines leave. -/
theorem parseRobotsDocument_eq_ok {float : FloatLibrary} {text : List Char}
    {document : RobotsDocument} : parseRobotsDocument float text = .ok document ↔
      ∃ final, ParserState.initial.readLines float (bodyLines text) = .ok final ∧
        final.document = document := by
  rw [parseRobotsDocument]
  cases ParserState.initial.readLines float (bodyLines text) with
  | error e => simp [Except.map]
  | ok final => simp [Except.map]

/-! ## Evaluation -/

/-- The white space of ASCII. -/
def isAsciiWhitespace (c : Char) : Bool := [' ', '\t', '\n', '\x0c', '\r'].contains c

/-- The selector is the user agent, or the product in front of its version or comment. -/
def userAgentMatches (active selector : List Char) : Bool :=
  active = selector ||
    (selector.isPrefixOf active &&
      (active.drop selector.length).head?.any fun c => c = '/' || isAsciiWhitespace c)

/-- The length of the longest selector of the group that matches. -/
def groupSpecificity (active : List Char) (group : RobotsGroup) : Option ℕ :=
  (((group.userAgents.filter (· ≠ ['*'])).filter (userAgentMatches active)).map String.utf8Len).max?

/-- The groups that name the agent, with their rank. -/
def exactMatches (active : List Char) (groups : List RobotsGroup) : List (ℕ × RobotsGroup) :=
  groups.filterMap fun group => (groupSpecificity active group).map fun specificity =>
    (specificity, group)

/-- The groups of the highest rank, or those for any agent. -/
def selectGroups (groups : List RobotsGroup) (userAgent : List Char) : List RobotsGroup :=
  let matching := exactMatches (asciiLowercase userAgent) groups
  let highestSpecificity := (matching.map Prod.fst).foldl max 0
  if 0 < highestSpecificity then
    (matching.filter fun entry => entry.1 = highestSpecificity).map Prod.snd
  else groups.filter fun group => group.userAgents.any (· = ['*'])

/-- The path and the query of a URL. -/
def requestPathForRobots (url : UrlCrate) (target : Url) : List Char :=
  match url.query target with
  | some query => (url.path target).toList ++ '?' :: query.toList
  | none => (url.path target).toList

/-- The parts of the pattern between its stars, each looked for behind the one before. -/
def ruleMatches (rule : RobotsRule) (requestPath : List Char) : Bool :=
  match rule.pattern.splitOn '*' with
  | [] => false
  | first :: parts =>
      first.isPrefixOf requestPath &&
        Wildcard.search rule.endAnchored parts (requestPath.drop first.length)

/-- Whether a URL may be fetched, and with what delay. -/
structure RobotsRuleEvaluation where
  allowed : Bool
  crawlDelay : Option Duration
  deriving DecidableEq, Repr

/-- The best rule so far, by its specificity and whether it allows. -/
def betterRule (best : Option (ℕ × Bool)) (rule : RobotsRule) : Option (ℕ × Bool) :=
  match best with
  | some (specificity, allow) =>
      if rule.specificity < specificity ∨ specificity = rule.specificity ∧ allow then
        some (specificity, allow)
      else some (rule.specificity, rule.allow)
  | none => some (rule.specificity, rule.allow)

/-- The longer of two delays. -/
def laterDelay (crawlDelay : Option Duration) (delay : Duration) : Option Duration :=
  some (crawlDelay.elim delay fun current => max current delay)

namespace RobotsDocument

/-- One selected group joins the best rule and the crawl delay. -/
def joinGroup (requestPath : List Char) (best : Option (ℕ × Bool) × Option Duration)
    (group : RobotsGroup) : Option (ℕ × Bool) × Option Duration :=
  ((group.rules.filter fun rule => ruleMatches rule requestPath).foldl betterRule best.1,
    group.crawlDelays.foldl laterDelay best.2)

/-- What a document says about a URL. -/
def evaluate (url : UrlCrate) (document : RobotsDocument) (target : Url) (userAgent : List Char) :
    RobotsRuleEvaluation :=
  if document.allowAll then ⟨true, none⟩
  else if document.denyAll then ⟨false, none⟩
  else
    let (bestRule, crawlDelay) := (selectGroups document.groups userAgent).foldl
      (joinGroup (requestPathForRobots url target)) (none, none)
    ⟨bestRule.all Prod.snd, crawlDelay⟩

end RobotsDocument

end Erabi.Robots
