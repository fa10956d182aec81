/-
# Single flight

No two clients ever fetch the robots document of one origin at the same time: who
holds the guard of a flight is registered in the table, and nobody else is.  A fetch
may start although the cache has been filled: when another client's fetch ends between
the two looks of a client, which does not look into the cache again.
-/
import Mathlib
import Erabi.Robots.Flight

namespace Erabi.Robots

open Pacing Relational Transition

variable {Document : Type} {s : RobotsSystem Document} {c d : ClientId} {o : OriginKey}

/-! ## The properties -/

/-- At most one fetch of an origin is in flight. -/
def SingleFlight (s : RobotsSystem Document) : Prop :=
  ∀ c d o, (s.clients c).flight = some o → (s.clients d).flight = some o → c = d

/-- No fetch was started while the cache held an entry that had not expired. -/
def NoFetchWhileCached (s : RobotsSystem Document) : Prop :=
  ∀ start ∈ s.starts, start.cached = false

/-- The client is about to fetch although, since it looked into the cache, the fetch
of another client has filled it with an entry that still holds. -/
def overtaken (s : RobotsSystem Document) (client : ClientId) : Bool :=
  match s.clients client with
  | .missed origin seen =>
    decide (s.inFlight.find? origin = none) && decide (origin ∈ s.fills.drop seen) &&
      s.holdsEntry origin
  | _ => false

/-- No client that has been overtaken is elected. -/
def NotOvertaken (s : RobotsSystem Document) : Input Document → Prop
  | .elect client => overtaken s client = false
  | _ => True

instance (s : RobotsSystem Document) : ∀ input, Decidable (NotOvertaken s input)
  | .elect client => inferInstanceAs (Decidable (overtaken s client = false))
  | .tick _ | .evaluate .. | .consult _ | .wake _ | .respond .. | .fill _ | .failed _ | .finish _
  | .abandon _ => inferInstanceAs (Decidable True)

/-! ## The invariant -/

/-- The flights, the clients and the cache agree. -/
structure Guarded (s : RobotsSystem Document) : Prop where
  single : SingleFlight s
  /-- The flight of every guard is in the table. -/
  registered : ∀ c o, (s.clients c).flight = some o → s.inFlight.find? o ≠ none
  /-- No reading of the clock is from the future. -/
  read : ∀ c o now, s.clients c = .reading o now → now ≤ s.clock
  counted : ∀ c o seen, s.clients c = .missed o seen → seen ≤ s.fills.length
  /-- An entry that a client has missed came in after its look. -/
  filled : ∀ c o seen, s.clients c = .missed o seen → s.holdsEntry o = true →
    o ∈ s.fills.drop seen

theorem guarded_initial (maxInstant : Instant) : Guarded (.initial Document maxInstant) where
  single c d o h := by cases h
  registered c o h := by cases h
  read c o now h := by cases h
  counted c o seen h := by cases h
  filled c o seen h := by cases h

/-- The cache holds a document that has not expired. -/
theorem holdsEntry_iff : s.holdsEntry o = true ↔
    ∃ entry ∈ s.cache.rows, entry.origin = o ∧ s.clock < entry.expiresAt := by
  unfold RobotsSystem.holdsEntry
  rw [Option.any_eq_true]
  constructor
  · rintro ⟨entry, hfind, hclock⟩
    exact ⟨entry, Table.mem_of_find? hfind, Table.key_of_find? hfind, by simpa using hclock⟩
  · rintro ⟨entry, hmem, rfl, hclock⟩
    exact ⟨entry, Table.find?_key hmem, by simpa using hclock⟩

/-- The clients after one entered a phase. -/
theorem clients_enter (phase : ClientPhase Document) :
    (s.enter c phase).clients d = if d = c then phase else s.clients d :=
  Function.update_apply _ _ _ _

/-- A client that holds no guard goes on, and takes none. -/
theorem Guarded.enter (hs : Guarded s) {phase : ClientPhase Document}
    (hflight : phase.flight = none ∨ phase.flight = (s.clients c).flight)
    (hread : ∀ o now, phase = .reading o now → now ≤ s.clock)
    (hcounted : ∀ o seen, phase = .missed o seen → seen ≤ s.fills.length)
    (hfilled : ∀ o seen, phase = .missed o seen → s.holdsEntry o = true → o ∈ s.fills.drop seen) :
    Guarded (s.enter c phase) := by
  -- a client that enters such a phase takes no flight it did not hold
  have hold : ∀ d o, ((s.enter c phase).clients d).flight = some o →
      (s.clients d).flight = some o := by
    intro d o h
    rw [clients_enter] at h
    split at h
    · rename_i hdc
      rcases hflight with hnone | hsame
      · rw [hnone] at h
        cases h
      · rw [hdc, ← hsame]
        exact h
    · exact h
  constructor
  · intro d e o hd he
    exact hs.single d e o (hold d o hd) (hold e o he)
  · intro d o h
    exact hs.registered d o (hold d o h)
  · intro d o now h
    rw [clients_enter] at h
    split at h
    · exact hread o now h
    · exact hs.read d o now h
  · intro d o seen h
    rw [clients_enter] at h
    split at h
    · exact hcounted o seen h
    · exact hs.counted d o seen h
  · intro d o seen h hentry
    rw [clients_enter] at h
    split at h
    · exact hfilled o seen h hentry
    · exact hs.filled d o seen h hentry

/-- Entries may leave the cache and time may pass. -/
theorem Guarded.age (hs : Guarded s) {cache : RobotsCache Document} {clock : Instant}
    (hcache : ∀ entry ∈ cache.rows, entry ∈ s.cache.rows) (hclock : s.clock ≤ clock) :
    Guarded { s with cache, clock } where
  single := hs.single
  registered := hs.registered
  read c o now h := (hs.read c o now h).trans hclock
  counted := hs.counted
  filled c o seen h hentry := by
    obtain ⟨entry, hmem, horigin, hlive⟩ := holdsEntry_iff.mp hentry
    exact hs.filled c o seen h (holdsEntry_iff.mpr
      ⟨entry, hcache entry hmem, horigin, lt_of_le_of_lt hclock hlive⟩)

/-- The guard of a flight is dropped with the flight. -/
theorem Guarded.dropFlight (hs : Guarded s) (hc : (s.clients c).flight = some o) :
    Guarded (s.dropFlight c o) := by
  -- only the owner gives the flight up, and nobody else flies to that origin
  have hold : ∀ d p, ((s.dropFlight c o).clients d).flight = some p →
      (s.clients d).flight = some p ∧ d ≠ c := by
    intro d p h
    unfold RobotsSystem.dropFlight at h
    rw [clients_enter] at h
    split at h
    · cases h
    · rename_i hdc
      exact ⟨h, hdc⟩
  have hphase : ∀ d phase, (s.dropFlight c o).clients d = phase → phase ≠ .idle →
      s.clients d = phase := by
    intro d phase h hidle
    unfold RobotsSystem.dropFlight at h
    rw [clients_enter] at h
    split at h
    · exact absurd h.symm hidle
    · exact h
  constructor
  · intro d e p hd he
    exact hs.single d e p (hold d p hd).1 (hold e p he).1
  · intro d p h
    obtain ⟨hd, hdc⟩ := hold d p h
    have hpo : p ≠ o := by
      rintro rfl
      exact hdc (hs.single d c p hd hc)
    show (s.inFlight.delete _).find? p ≠ none
    rw [Table.find?_delete]
    rcases hfind : s.inFlight.find? p with _ | flight
    · exact absurd hfind (hs.registered d p hd)
    · have hkey : flight.1 = p := Table.key_of_find? hfind
      rw [Option.filter_some_pos (by simp [hkey, hpo])]
      simp
  · intro d p now h
    exact hs.read d p now (hphase d _ h (by simp))
  · intro d p seen h
    exact hs.counted d p seen (hphase d _ h (by simp))
  · intro d p seen h hentry
    exact hs.filled d p seen (hphase d _ h (by simp)) hentry

/-- A look that finds nothing leaves no entry of the origin. -/
theorem Guarded.consult (hs : Guarded s) (now : Instant) : Guarded (s.consult c o now) := by
  have hretain : ∀ entry ∈ (RobotsCache.retain s.cache now).rows,
      entry ∈ s.cache.rows := fun entry hmem => (Table.mem_delete.mp hmem).1
  have hs' : Guarded { s with cache := RobotsCache.retain s.cache now } :=
    hs.age hretain le_rfl
  unfold RobotsSystem.consult RobotsCache.get
  rcases hfind : (RobotsCache.retain s.cache now).find? o with _ | entry
  · refine hs'.enter (Or.inl rfl) (by simp) (by rintro p seen ⟨⟩; exact le_rfl) ?_
    rintro p seen ⟨⟩ hentry
    obtain ⟨entry, hmem, horigin, _⟩ := holdsEntry_iff.mp hentry
    exact absurd horigin (Table.find?_eq_none.mp hfind entry hmem)
  · exact hs'.enter (Or.inl rfl) (by simp) (by simp) (by simp)

/-- Who finds no flight starts one, and is its only client. -/
theorem Guarded.elect (hs : Guarded s) (o : OriginKey) : Guarded (s.elect c o) := by
  unfold RobotsSystem.elect
  rcases hfind : s.inFlight.find? o with _ | flight
  · dsimp only
    -- no flight to the origin is registered, so nobody flies there
    have hother : ∀ d p, (s.clients d).flight = some p → p ≠ o := by
      rintro d p hd rfl
      exact hs.registered d p hd hfind
    have hphase : ∀ d, (if d = c then ClientPhase.fetching o else s.clients d).flight =
        if d = c then some o else (s.clients d).flight := by
      intro d
      split <;> rfl
    constructor
    · intro d e p hd he
      rw [clients_enter, hphase] at hd he
      split at hd <;> split at he
      · rename_i hdc hec
        exact hdc.trans hec.symm
      · cases hd
        exact absurd rfl (hother e o he)
      · cases he
        exact absurd rfl (hother d o hd)
      · exact hs.single d e p hd he
    · intro d p hd
      rw [clients_enter, hphase] at hd
      show (s.inFlight.put (o, s.nextFlight)).find? p ≠ none
      rw [Table.find?_put]
      split
      · simp
      · rename_i hop
        split at hd
        · cases hd
          exact absurd rfl hop
        · exact hs.registered d p hd
    · intro d p now hd
      rw [clients_enter] at hd
      split at hd
      · cases hd
      · exact hs.read d p now hd
    · intro d p seen hd
      rw [clients_enter] at hd
      split at hd
      · cases hd
      · exact hs.counted d p seen hd
    · intro d p seen hd hentry
      rw [clients_enter] at hd
      split at hd
      · cases hd
      · exact hs.filled d p seen hd hentry
  · exact hs.enter (Or.inl rfl) (by simp) (by simp) (by simp)

/-- Whoever has missed an entry that comes in now, missed it before it came in. -/
theorem Guarded.fill (hs : Guarded s) {document : Document} {evidence : RobotsPolicyEvidence}
    {now : Instant} (hc : s.clients c = .filling o document evidence now) :
    Guarded (s.fill c o document evidence now) := by
  have hflight : (ClientPhase.finishing o : ClientPhase Document).flight = (s.clients c).flight := by
    rw [hc]
    rfl
  unfold RobotsSystem.fill
  split
  · have hs' : Guarded { s with
        cache := RobotsCache.insert s.cache ⟨o, document, now + robotsCacheTtl, evidence⟩ now
        fills := s.fills ++ [o] } := by
      refine ⟨hs.single, hs.registered, hs.read, ?_, ?_⟩
      · intro d p seen hd
        show seen ≤ (s.fills ++ [o]).length
        rw [List.length_append]
        exact (hs.counted d p seen hd).trans (Nat.le_add_right _ _)
      · intro d p seen hd hentry
        show p ∈ (s.fills ++ [o]).drop seen
        rw [List.drop_append_of_le_length (hs.counted d p seen hd), List.mem_append,
          List.mem_singleton]
        obtain ⟨entry, hmem, horigin, hlive⟩ := holdsEntry_iff.mp hentry
        rcases RobotsCache.mem_insert hmem with hold | rfl
        · exact Or.inl (hs.filled d p seen hd (holdsEntry_iff.mpr ⟨entry, hold, horigin, hlive⟩))
        · exact Or.inr horigin.symm
    exact hs'.enter (Or.inr hflight) (by simp) (by simp) (by simp)
  · exact hs.enter (Or.inr hflight) (by simp) (by simp) (by simp)

/-! ## Runs -/

/-- A step keeps flights, clients and cache in agreement. -/
theorem step_guarded (s : RobotsSystem Document) (input : Input Document) (hs : Guarded s) :
    Guarded (s.step input) := by
  cases input with
  | tick elapsed => exact hs.age (fun _ h => h) (Nat.le_add_right _ _)
  | evaluate client origin =>
    dsimp only [RobotsSystem.step]
    split
    · exact hs.enter (Or.inl rfl) (by rintro o now ⟨⟩; exact le_rfl) (by simp) (by simp)
    · exact hs
  | consult client =>
    dsimp only [RobotsSystem.step]
    split
    · exact hs.consult _
    · exact hs
  | elect client =>
    dsimp only [RobotsSystem.step]
    split
    · exact hs.elect _
    · exact hs
  | wake client =>
    dsimp only [RobotsSystem.step]
    split
    · split
      · exact hs
      · exact hs.enter (Or.inl rfl) (by rintro o now ⟨⟩; exact le_rfl) (by simp) (by simp)
    · exact hs
  | respond client document evidence =>
    dsimp only [RobotsSystem.step]
    split
    · rename_i hc
      exact hs.enter (Or.inr (by rw [hc]; rfl)) (by simp) (by simp) (by simp)
    · exact hs
  | fill client =>
    dsimp only [RobotsSystem.step]
    split
    · rename_i hc
      exact hs.fill hc
    · exact hs
  | failed client =>
    dsimp only [RobotsSystem.step]
    split
    · rename_i hc
      exact hs.enter (Or.inr (by rw [hc]; rfl)) (by simp) (by simp) (by simp)
    · exact hs
  | finish client =>
    dsimp only [RobotsSystem.step]
    split
    · rename_i hc
      exact hs.dropFlight (by rw [hc]; rfl)
    · exact hs
  | abandon client =>
    dsimp only [RobotsSystem.step]
    split
    · rename_i hc
      exact hs.dropFlight hc
    · exact hs.enter (Or.inl rfl) (by simp) (by simp) (by simp)

/-- Only an election starts a fetch. -/
theorem starts_step (s : RobotsSystem Document) (input : Input Document)
    (h : ∀ client, input ≠ .elect client) : (s.step input).starts = s.starts := by
  cases input with
  | elect client => exact absurd rfl (h client)
  | tick elapsed => rfl
  | consult client =>
    dsimp only [RobotsSystem.step, RobotsSystem.consult]
    split
    · split <;> rfl
    · rfl
  | wake client =>
    dsimp only [RobotsSystem.step]
    split
    · split <;> rfl
    · rfl
  | fill client =>
    dsimp only [RobotsSystem.step, RobotsSystem.fill]
    split
    · split <;> rfl
    · rfl
  | evaluate | respond | failed | finish | abandon =>
    dsimp only [RobotsSystem.step]
    split <;> rfl

/-- An election starts no fetch for a cached document exactly if its client has not
been overtaken: an entry the client has missed came in after its look. -/
theorem step_noFetchWhileCached (s : RobotsSystem Document) (input : Input Document)
    (hs : Guarded s) (hstarts : NoFetchWhileCached s) :
    NoFetchWhileCached (s.step input) ↔ NotOvertaken s input := by
  -- only an election starts a fetch
  by_cases helect : ∃ client, input = .elect client
  · obtain ⟨client, rfl⟩ := helect
    show NoFetchWhileCached (s.step (.elect client)) ↔ overtaken s client = false
    dsimp only [RobotsSystem.step, overtaken]
    rcases hc : s.clients client with _ | _ | ⟨origin, seen⟩ | _ | _ | _ | _
    · exact iff_of_true hstarts rfl
    · exact iff_of_true hstarts rfl
    · dsimp only [RobotsSystem.elect]
      rcases hfind : s.inFlight.find? origin with _ | flight
      -- the client saw no entry when it looked, so an entry now came later
      · have hlate : (decide (origin ∈ s.fills.drop seen) && s.holdsEntry origin) =
            s.holdsEntry origin := by
          rcases hentry : s.holdsEntry origin with _ | _
          · exact Bool.and_false _
          · rw [Bool.and_true, decide_eq_true_eq]
            exact hs.filled client origin seen hc hentry
        simp only [decide_true, Bool.true_and, hlate]
        show (∀ start ∈ s.starts ++ [_], start.cached = false) ↔ _
        constructor
        · intro h
          exact h ⟨origin, s.holdsEntry origin⟩ (by simp)
        · intro hentry start hmem
          rcases List.mem_append.mp hmem with hmem | hmem
          · exact hstarts start hmem
          · rw [List.mem_singleton.mp hmem]
            exact hentry
      · exact iff_of_true hstarts (by simp)
    · exact iff_of_true hstarts rfl
    · exact iff_of_true hstarts rfl
    · exact iff_of_true hstarts rfl
    · exact iff_of_true hstarts rfl
  · have hnot : ∀ client, input ≠ .elect client := fun client h => helect ⟨client, h⟩
    have hsame : NoFetchWhileCached (s.step input) := by
      intro start hmem
      rw [starts_step s input hnot] at hmem
      exact hstarts start hmem
    refine iff_of_true hsame ?_
    cases input with
    | elect client => exact absurd rfl (hnot client)
    | _ => trivial

/-- In every interleaving, at most one fetch of an origin is in flight; and no fetch
starts while an entry of its origin holds exactly if no client is elected after it has
been overtaken. -/
theorem robots_single_flight (maxInstant : Instant) (inputs : List (Input Document)) :
    Throughout RobotsSystem.step SingleFlight (.initial Document maxInstant) inputs ∧
    (Throughout RobotsSystem.step (fun s => SingleFlight s ∧ NoFetchWhileCached s)
        (.initial Document maxInstant) inputs ↔
      Meets RobotsSystem.step NotOvertaken (.initial Document maxInstant) inputs) := by
  have hguarded : Throughout RobotsSystem.step Guarded (.initial Document maxInstant) inputs :=
    throughout_of_meets (I := fun _ => True) (G := fun _ _ => True) (fun _ _ _ => trivial)
      (fun s input _ hs _ => step_guarded s input hs) trivial (guarded_initial maxInstant)
      (meets_of_forall fun _ _ => trivial)
  refine ⟨hguarded.mono fun s hs => hs.single, ?_⟩
  refine throughout_iff_meets (I := Guarded) step_guarded (fun s input hs hP => ?_)
    (guarded_initial maxInstant) ⟨(guarded_initial maxInstant).single, fun _ h => by cases h⟩
  rw [← step_noFetchWhileCached s input hs hP.2]
  exact ⟨fun h => h.2, fun h => ⟨(step_guarded s input hs).single, h⟩⟩

/-- Client 1 looks into the empty cache; client 0 fetches, fills the cache and ends its
flight; client 1 finds no flight and fetches again. -/
def overtakenClient (origin : OriginKey) : List (Input Unit) :=
  [.evaluate 0 origin, .consult 0, .evaluate 1 origin, .consult 1, .elect 0,
    .respond 0 () .networkPolicy, .fill 0, .finish 0, .elect 1]

/-- The overtaken client fetches although the document is cached. -/
theorem overtakenClient_fetches :
    ¬ Throughout RobotsSystem.step (fun s => SingleFlight s ∧ NoFetchWhileCached s)
      (.initial Unit 1000000000000) (overtakenClient ⟨"https", "example.com", 443⟩) := by
  intro h
  have hstart := h.atEnd.2 ⟨⟨"https", "example.com", 443⟩, true⟩ (by decide +kernel)
  cases hstart

end Erabi.Robots
