/-
# One state for every origin

As long as a registration, an acquisition or a permit of an origin lives, the
registry keeps the state it holds, and everything of the origin holds that one
state: a registration is listed in its state, an acquisition borrows a
registration, and the permits of a state are counted in it, so none of them is
ever retired under its owner.
-/
import Mathlib
import Erabi.Pacing.System

namespace Erabi.Pacing

open Relational Transition OriginPacingState

/-! ## Sharing -/

/-- The origin and the state of every live registration, acquisition and permit. -/
def PacingSystem.uses (s : PacingSystem) : List (OriginKey × StateId) :=
  (s.registrations.rows.map fun registration => (registration.origin, registration.state)) ++
    (s.waiters.rows.map fun waiter => (waiter.origin, waiter.state)) ++
    s.permits.rows.map fun permit => (permit.origin, permit.state)

/-- Everything of an origin holds the state of the registry, which is no larger than
its capacity. -/
def SharesStates (s : PacingSystem) : Prop :=
  (∀ held ∈ s.uses, s.registry.stateOf held.1 = some held.2) ∧
    s.registry.states.rows.length ≤ s.registry.capacity

/-! ## What is kept -/

/-- Registrations, waiters and permits share the state of their origin. -/
structure Shared (s : PacingSystem) : Prop where
  room : s.registry.states.rows.length ≤ s.registry.capacity
  allocated : ∀ entry ∈ s.registry.states.rows, entry.2 < s.nextState
  registered : ∀ r ∈ s.registrations.rows, s.registry.stateOf r.origin = some r.state ∧
    (r.registrationId, r.configuration.concurrency) ∈ (s.heap r.state).registrations
  issued : ∀ r ∈ s.registrations.rows, ∀ next ∈ s.registry.nextRegistrationId,
    r.registrationId < next
  waiting : ∀ w ∈ s.waiters.rows, ∃ r, s.registrations.find? w.registrationId = some r ∧
    r.origin = w.origin ∧ r.state = w.state
  permitted : ∀ p ∈ s.permits.rows, s.registry.stateOf p.origin = some p.state
  counted : ∀ id, (s.permits.select fun p => p.state = id).length ≤ (s.heap id).inFlight

variable {s : PacingSystem} {id : StateId}

/-- The state of an origin is the one registered. -/
theorem OriginRegistry.stateOf_eq_some {registry : OriginRegistry} {origin : OriginKey} :
    registry.stateOf origin = some id ↔ (origin, id) ∈ registry.states.rows := by
  unfold stateOf
  rw [Option.map_eq_some_iff]
  constructor
  · rintro ⟨⟨origin', id'⟩, hfind, rfl⟩
    have hkey : origin' = origin := Table.key_of_find? hfind
    subst hkey
    exact Table.mem_of_find? hfind
  · intro hmem
    exact ⟨(origin, id), Table.find?_key hmem, rfl⟩

theorem Shared.initial (capacity : ℕ) (maxInstant : Instant) :
    Shared (.initial capacity maxInstant) where
  room := Nat.zero_le _
  allocated := fun _ h => by cases h
  registered := fun _ h => by cases h
  issued := fun _ h => by cases h
  waiting := fun _ h => by cases h
  permitted := fun _ h => by cases h
  counted := fun _ => Nat.zero_le _

/-- Holders at one origin share one state. -/
theorem Shared.sharesStates (h : Shared s) : SharesStates s := by
  refine ⟨fun held hheld => ?_, h.room⟩
  unfold PacingSystem.uses at hheld
  rw [List.mem_append, List.mem_append] at hheld
  rcases hheld with (hheld | hheld) | hheld
  · obtain ⟨r, hr, rfl⟩ := List.mem_map.mp hheld
    exact (h.registered r hr).1
  · obtain ⟨w, hw, rfl⟩ := List.mem_map.mp hheld
    obtain ⟨r, hr, horigin, hstate⟩ := h.waiting w hw
    rw [← horigin, ← hstate]
    exact (h.registered r (Table.mem_of_find? hr)).1
  · obtain ⟨p, hp, rfl⟩ := List.mem_map.mp hheld
    exact h.permitted p hp

/-! ## Changes of states -/

/-- States that still serve may take the place of all states. -/
theorem Shared.withHeap (h : Shared s) {heap : StateId → OriginPacingState}
    (hheap : ∀ id, Serves (s.heap id) (heap id)) : Shared { s with heap } :=
  { h with
    registered := fun r hr => by
      refine ⟨(h.registered r hr).1, ?_⟩
      show _ ∈ (heap r.state).registrations
      rw [(hheap r.state).registrations]
      exact (h.registered r hr).2
    counted := fun id => (h.counted id).trans (hheap id).inFlight }

/-- Changing one state keeps serving when it does. -/
theorem update_serves {heap : StateId → OriginPacingState} {pacing : OriginPacingState}
    (h : Serves (heap id) pacing) (other : StateId) :
    Serves (heap other) (Function.update heap id pacing other) := by
  by_cases hother : other = id
  · subst hother
    rwa [Function.update_self]
  · rw [Function.update_of_ne hother]
    exact .refl _

/-- A change that keeps serving keeps states shared. -/
theorem Shared.onState (h : Shared s) {f : OriginPacingState → OriginPacingState}
    (hf : Serves (s.heap id) (f (s.heap id))) : Shared (s.onState id f) :=
  h.withHeap (update_serves hf)

/-- The state of a live registration. -/
theorem Shared.entry (h : Shared s) {w : WaiterGuard} (hw : w ∈ s.waiters.rows) :
    ∃ entry ∈ (s.heap w.state).registrations, entry.2 ≤ maxU32 := by
  obtain ⟨r, hr, _, hstate⟩ := h.waiting w hw
  refine ⟨(r.registrationId, r.configuration.concurrency), ?_, r.configuration.representable⟩
  rw [← hstate]
  exact (h.registered r (Table.mem_of_find? hr)).2

/-- The state of a live permit counts it. -/
theorem Shared.inFlight_pos (h : Shared s) {p : AdmissionPermit} (hp : p ∈ s.permits.rows) :
    0 < (s.heap p.state).inFlight := by
  refine lt_of_lt_of_le ?_ (h.counted p.state)
  exact List.length_pos_of_mem (Table.mem_select.mpr ⟨hp, decide_eq_true rfl⟩)

/-! ## Pruning -/

/-- Forgetting in all states keeps serving. -/
theorem normalizeStates_serves (now : Instant) (entries : List (OriginKey × StateId))
    (heap : StateId → OriginPacingState) (id : StateId) :
    Serves (heap id) (normalizeStates now entries heap id) := by
  induction entries generalizing heap with
  | nil => exact .refl _
  | cons entry entries ih => exact (update_serves normalize_serves id).trans (ih _)

theorem retireStates_rows (capacity : ℕ) (removable : List (OriginKey × StateId))
    (states : Table (OriginKey × StateId) OriginKey Prod.fst) :
    (retireStates capacity removable states).rows.length ≤ states.rows.length ∧
    (∀ entry ∈ (retireStates capacity removable states).rows, entry ∈ states.rows) ∧
    ∀ entry ∈ states.rows, entry ∈ (retireStates capacity removable states).rows ∨
      ∃ removed ∈ removable, removed.1 = entry.1 := by
  induction removable generalizing states with
  | nil => exact ⟨le_rfl, fun _ h => h, fun _ h => Or.inl h⟩
  | cons removed removable ih =>
    unfold retireStates
    rw [List.foldl_cons]
    by_cases hroom : states.rows.length < capacity
    · rw [if_pos hroom]
      obtain ⟨hlength, hback, hkept⟩ := ih states
      exact ⟨hlength, hback, fun entry hentry => (hkept entry hentry).imp_right
        fun ⟨r, hr, hkey⟩ => ⟨r, List.mem_cons_of_mem _ hr, hkey⟩⟩
    · rw [if_neg hroom]
      obtain ⟨hlength, hback, hkept⟩ := ih (states.delete fun other => other.1 = removed.1)
      refine ⟨hlength.trans (List.length_filter_le _ _), fun entry hentry =>
        (Table.mem_delete.mp (hback entry hentry)).1, fun entry hentry => ?_⟩
      by_cases hkey : removed.1 = entry.1
      · exact Or.inr ⟨removed, List.mem_cons_self, hkey⟩
      · have hstays := (Table.mem_delete (p := fun other => decide (other.1 = removed.1))).mpr
          ⟨hentry, decide_eq_false fun e => hkey (Eq.symm e)⟩
        exact (hkept entry hstays).imp_right
          fun ⟨r, hr, hkey⟩ => ⟨r, List.mem_cons_of_mem _ hr, hkey⟩

/-- A state that is retired has no registration and no request in flight. -/
theorem isSafeToRetire_iff {pacing : OriginPacingState} : pacing.isSafeToRetire = true ↔
    pacing.registrations = [] ∧ pacing.inFlight = 0 ∧ pacing.waitingAdmissions = 0 ∧
      pacing.nextRequestAt = none ∧ pacing.backoffUntil = none ∧
        pacing.retryAfterUntil = none := by
  unfold isSafeToRetire
  simp only [Bool.and_eq_true, List.isEmpty_iff, decide_eq_true_eq, Option.isNone_iff_eq_none,
    and_assoc]

/-- Pruning removes states that are safe to retire alone. -/
theorem pruneSafeStates_rows (now : Instant) (s : PacingSystem) :
    (pruneSafeStates now s).registry.states.rows.length ≤ s.registry.states.rows.length ∧
    (∀ entry ∈ (pruneSafeStates now s).registry.states.rows, entry ∈ s.registry.states.rows) ∧
    ∀ entry ∈ s.registry.states.rows,
      entry ∈ (pruneSafeStates now s).registry.states.rows ∨
        ∃ removed ∈ (orderedStates s).filter fun entry =>
          ((pruneSafeStates now s).heap entry.2).isSafeToRetire, removed.1 = entry.1 :=
  retireStates_rows _ _ _

/-- What pruning makes of the registry: an origin keeps its state, or its state is
safe to retire. -/
theorem pruneSafeStates_stateOf (now : Instant) {origin : OriginKey}
    (hstate : s.registry.stateOf origin = some id) :
    (pruneSafeStates now s).registry.stateOf origin = some id ∨
      ((pruneSafeStates now s).registry.stateOf origin = none ∧
        ((pruneSafeStates now s).heap id).isSafeToRetire = true) := by
  rw [OriginRegistry.stateOf_eq_some] at hstate ⊢
  obtain ⟨_, hback, hkept⟩ := pruneSafeStates_rows now s
  by_cases hstays : (origin, id) ∈ (pruneSafeStates now s).registry.states.rows
  · exact Or.inl hstays
  · obtain ⟨removed, hremoved, hkey⟩ := (hkept _ hstate).resolve_left hstays
    obtain ⟨hmem, hsafe⟩ := List.mem_filter.mp hremoved
    -- the removed entry is the one of the origin
    have hentry : removed = (origin, id) :=
      s.registry.states.eq_of_key_eq ((List.mem_insertionSort _).mp hmem) hstate hkey
    subst hentry
    refine Or.inr ⟨?_, hsafe⟩
    by_contra hsome
    obtain ⟨other, hother⟩ := Option.ne_none_iff_exists'.mp hsome
    have hmem' := OriginRegistry.stateOf_eq_some.mp hother
    have hsame : (origin, other) = (origin, id) :=
      s.registry.states.eq_of_key_eq (hback _ hmem') hstate rfl
    rw [hsame] at hmem'
    exact hstays hmem'

/-- Pruning keeps states shared. -/
theorem Shared.prune (h : Shared s) (now : Instant) : Shared (pruneSafeStates now s) := by
  have hserves : ∀ id, Serves (s.heap id) ((pruneSafeStates now s).heap id) :=
    normalizeStates_serves now _ s.heap
  obtain ⟨hlength, hback, _⟩ := pruneSafeStates_rows now s
  have hheap := h.withHeap hserves
  refine { hheap with
    room := hlength.trans h.room
    allocated := fun entry hentry => h.allocated entry (hback entry hentry)
    registered := fun r hr => ⟨?_, (hheap.registered r hr).2⟩
    permitted := fun p hp => ?_ }
  · rcases pruneSafeStates_stateOf now (h.registered r hr).1 with hstays | ⟨_, hsafe⟩
    · exact hstays
    · have hlisted := (hheap.registered r hr).2
      rw [show _ = ([] : List (RegistrationId × ℕ)) from (isSafeToRetire_iff.mp hsafe).1] at hlisted
      cases hlisted
  · rcases pruneSafeStates_stateOf now (h.permitted p hp) with hstays | ⟨_, hsafe⟩
    · exact hstays
    · have hpositive := hheap.inFlight_pos hp
      exact absurd (isSafeToRetire_iff.mp hsafe).2.1 (Nat.pos_iff_ne_zero.mp hpositive)

/-! ## Registrations -/

/-- A new state takes a free place for an origin that has none. -/
theorem Shared.create (h : Shared s) {origin : OriginKey}
    (hnone : s.registry.stateOf origin = none)
    (hroom : s.registry.states.rows.length < s.registry.capacity) :
    Shared { s with
      heap := Function.update s.heap s.nextState .initial
      registry := { s.registry with states := s.registry.states.put (origin, s.nextState) }
      nextState := s.nextState + 1 } := by
  have hne : ∀ entry ∈ s.registry.states.rows, entry.1 ≠ origin := by
    intro entry hentry hkey
    subst hkey
    rw [OriginRegistry.stateOf_eq_some.mpr hentry] at hnone
    cases hnone
  have hstateOf : ∀ o i, s.registry.stateOf o = some i →
      ((s.registry.states.put (origin, s.nextState)).find? o).map Prod.snd = some i := by
    intro o i hi
    have hmem := OriginRegistry.stateOf_eq_some.mp hi
    rw [Table.find?_put, if_neg fun e => hne _ hmem (Eq.symm e)]
    exact hi
  refine ⟨?_, ?_, ?_, h.issued, h.waiting, ?_, ?_⟩
  · show ((s.registry.states.delete _).rows ++ [(origin, s.nextState)]).length ≤ _
    rw [List.length_append, List.length_singleton]
    have hle : (s.registry.states.delete fun other => decide (other.1 = origin)).rows.length ≤
        s.registry.states.rows.length := List.length_filter_le _ _
    exact Nat.lt_of_le_of_lt hle hroom
  · intro entry hentry
    show entry.2 < s.nextState + 1
    rcases Table.mem_put.mp hentry with ⟨hentry, _⟩ | rfl
    · exact (h.allocated entry hentry).trans (Nat.lt_succ_self _)
    · exact Nat.lt_succ_self _
  · intro r hr
    obtain ⟨hstate, hlisted⟩ := h.registered r hr
    have hlt := h.allocated _ (OriginRegistry.stateOf_eq_some.mp hstate)
    refine ⟨hstateOf _ _ hstate, ?_⟩
    show _ ∈ (Function.update s.heap s.nextState .initial r.state).registrations
    rwa [Function.update_of_ne (Nat.ne_of_lt hlt)]
  · intro p hp
    exact hstateOf _ _ (h.permitted p hp)
  · intro i
    show (s.permits.select fun p => p.state = i).length ≤
      (Function.update s.heap s.nextState .initial i).inFlight
    by_cases hi : i = s.nextState
    · subst hi
      -- no permit holds a state that was not allocated yet
      have hempty : (s.permits.select fun p => p.state = s.nextState) = [] := by
        refine List.filter_eq_nil_iff.mpr fun p hp hstate => ?_
        have hlt := h.allocated _ (OriginRegistry.stateOf_eq_some.mp (h.permitted p hp))
        rw [decide_eq_true_eq] at hstate
        exact absurd hlt (by rw [hstate]; exact lt_irrefl _)
      rw [hempty]
      exact Nat.zero_le _
    · rw [Function.update_of_ne hi]
      exact h.counted i

/-- How a state is found or made for an origin. -/
theorem originState_cases (origin : OriginKey) (now : Instant) (s : PacingSystem) :
    (∃ id, s.registry.stateOf origin = some id ∧ originState origin now s = (.ok id, s)) ∨
    ∃ t, s.registry.stateOf origin = none ∧ (t = s ∨ t = pruneSafeStates now s) ∧
      (originState origin now s = (.error .originCapacityExhausted, t) ∨
        (t.registry.states.rows.length < t.registry.capacity ∧
          originState origin now s = (.ok t.nextState, { t with
            heap := Function.update t.heap t.nextState .initial
            registry := { t.registry with states := t.registry.states.put (origin, t.nextState) }
            nextState := t.nextState + 1 }))) := by
  unfold originState
  rcases s.registry.stateOf origin with _ | id
  · refine Or.inr ⟨if s.registry.capacity ≤ s.registry.states.rows.length then
      pruneSafeStates now s else s, rfl, ?_, ?_⟩
    · split
      · exact Or.inr rfl
      · exact Or.inl rfl
    · dsimp only
      by_cases hfull : (if s.registry.capacity ≤ s.registry.states.rows.length then
          pruneSafeStates now s else s).registry.capacity ≤
          (if s.registry.capacity ≤ s.registry.states.rows.length then
            pruneSafeStates now s else s).registry.states.rows.length
      · exact Or.inl (if_pos hfull)
      · exact Or.inr ⟨not_le.mp hfull, if_neg hfull⟩
  · exact Or.inl ⟨id, rfl, rfl⟩

/-- Pruning registers no state. -/
theorem pruneSafeStates_stateOf_none (now : Instant) {origin : OriginKey}
    (hnone : s.registry.stateOf origin = none) :
    (pruneSafeStates now s).registry.stateOf origin = none := by
  by_contra hsome
  obtain ⟨other, hother⟩ := Option.ne_none_iff_exists'.mp hsome
  have hmem := (pruneSafeStates_rows now s).2.1 _ (OriginRegistry.stateOf_eq_some.mp hother)
  rw [OriginRegistry.stateOf_eq_some.mpr hmem] at hnone
  cases hnone

/-- Finding or creating a state keeps states shared. -/
theorem Shared.originState (h : Shared s) (origin : OriginKey) (now : Instant) :
    Shared (originState origin now s).2 ∧ ∀ id, (Pacing.originState origin now s).1 = .ok id →
      (Pacing.originState origin now s).2.registry.stateOf origin = some id := by
  rcases originState_cases origin now s with ⟨known, hknown, heq⟩ | ⟨t, hnone, ht, heq | ⟨hroom, heq⟩⟩
  · rw [heq]
    refine ⟨h, fun id hok => ?_⟩
    cases hok
    exact hknown
  · rw [heq]
    refine ⟨?_, fun id hok => by cases hok⟩
    rcases ht with rfl | rfl
    · exact h
    · exact h.prune now
  · rw [heq]
    have hshared : Shared t ∧ t.registry.stateOf origin = none := by
      rcases ht with rfl | rfl
      · exact ⟨h, hnone⟩
      · exact ⟨h.prune now, pruneSafeStates_stateOf_none now hnone⟩
    refine ⟨hshared.1.create hshared.2 hroom, fun id hok => ?_⟩
    cases hok
    show ((t.registry.states.put (origin, t.nextState)).find? origin).map Prod.snd = _
    rw [Table.find?_put, if_pos rfl]
    rfl

/-- A registration under a new identifier is listed in its state. -/
theorem Shared.list (h : Shared s) {origin : OriginKey} {next : RegistrationId}
    (configuration : ResolvedPacingConfiguration) (hstate : s.registry.stateOf origin = some id)
    (hnext : s.registry.nextRegistrationId = some next) :
    Shared { s.onState id fun pacing => pacing.addRegistration next configuration.concurrency with
      registry := { s.registry with
        nextRegistrationId := if next < maxU64 then some (next + 1) else none }
      registrations := s.registrations.put ⟨origin, id, next, configuration⟩ } := by
  -- identifiers are given out in order, so the new one is not in use
  have hnew : ∀ r ∈ s.registrations.rows, r.registrationId < next :=
    fun r hr => h.issued r hr next hnext
  refine ⟨h.room, h.allocated, ?_, ?_, ?_, h.permitted, ?_⟩
  · intro r hr
    show s.registry.stateOf r.origin = some r.state ∧
      _ ∈ (Function.update s.heap id _ r.state).registrations
    rcases Table.mem_put.mp hr with ⟨hr, _⟩ | rfl
    · refine ⟨(h.registered r hr).1, ?_⟩
      by_cases hid : r.state = id
      · rw [hid, Function.update_self]
        refine List.mem_cons_of_mem _ (List.mem_filter.mpr ⟨?_, ?_⟩)
        · rw [← hid]
          exact (h.registered r hr).2
        · exact decide_eq_true (Nat.ne_of_lt (hnew r hr))
      · rw [Function.update_of_ne hid]
        exact (h.registered r hr).2
    · refine ⟨hstate, ?_⟩
      rw [Function.update_self]
      exact List.mem_cons_self
  · intro r hr fresh hfresh
    have hfresh : (if next < maxU64 then some (next + 1) else none) = some fresh := hfresh
    split at hfresh
    · cases hfresh
      rcases Table.mem_put.mp hr with ⟨hr, _⟩ | rfl
      · exact (hnew r hr).trans (Nat.lt_succ_self _)
      · exact Nat.lt_succ_self _
    · cases hfresh
  -- what waiters borrow was registered before
  · intro w hw
    obtain ⟨r, hr, horigin, hheld⟩ := h.waiting w hw
    refine ⟨r, ?_, horigin, hheld⟩
    have hlt := hnew r (Table.mem_of_find? hr)
    rw [Table.key_of_find? hr] at hlt
    show (s.registrations.put _).find? w.registrationId = some r
    rw [Table.find?_put, if_neg fun e => Nat.ne_of_lt hlt (Eq.symm e), hr]
  · intro i
    show _ ≤ (Function.update s.heap id _ i).inFlight
    by_cases hi : i = id
    · subst hi
      rw [Function.update_self]
      exact h.counted i
    · rw [Function.update_of_ne hi]
      exact h.counted i

/-- A registration finds or makes a state and is then listed in it, unless it is
refused. -/
theorem register_cases (origin : OriginKey) (configuration : ResolvedPacingConfiguration)
    (now : Instant) (s : PacingSystem) :
    (register origin configuration now s).2 = (originState origin now s).2 ∨
    ∃ state next, (originState origin now s).1 = .ok state ∧
      (originState origin now s).2.registry.nextRegistrationId = some next ∧
      (register origin configuration now s).2 =
        { (originState origin now s).2.onState state fun pacing =>
            pacing.addRegistration next configuration.concurrency with
          registry := { (originState origin now s).2.registry with
            nextRegistrationId := if next < maxU64 then some (next + 1) else none }
          registrations := (originState origin now s).2.registrations.put
            ⟨origin, state, next, configuration⟩ } := by
  unfold register
  rcases originState origin now s with ⟨e | state, t⟩
  · exact Or.inl rfl
  · dsimp only
    rcases t.registry.nextRegistrationId with _ | next
    · exact Or.inl rfl
    · exact Or.inr ⟨state, next, rfl, rfl, rfl⟩

/-- A registration keeps states shared. -/
theorem Shared.register (h : Shared s) (origin : OriginKey)
    (configuration : ResolvedPacingConfiguration) (now : Instant) :
    Shared (register origin configuration now s).2 := by
  obtain ⟨hshared, hstate⟩ := h.originState origin now
  rcases register_cases origin configuration now s with heq | ⟨state, next, hok, hnext, heq⟩
  · rw [heq]
    exact hshared
  · rw [heq]
    exact hshared.list configuration (hstate state hok) hnext

theorem Shared.dropRegistration (h : Shared s) (dropped : RegistrationId) :
    Shared (dropRegistration dropped s) := by
  unfold Pacing.dropRegistration
  rcases hfind : s.registrations.find? dropped with _ | registration
  · exact h
  · dsimp only
    split
    · exact h
    · rename_i hfree
      refine ⟨h.room, h.allocated, ?_, ?_, ?_, h.permitted, ?_⟩
      · intro r hr
        obtain ⟨hr, hother⟩ := Table.mem_delete.mp hr
        rw [decide_eq_false_iff_not] at hother
        refine ⟨(h.registered r hr).1, ?_⟩
        show _ ∈ (Function.update s.heap registration.state _ r.state).registrations
        by_cases hid : r.state = registration.state
        · rw [hid, Function.update_self]
          refine List.mem_filter.mpr ⟨?_, decide_eq_true hother⟩
          rw [← hid]
          exact (h.registered r hr).2
        · rw [Function.update_of_ne hid]
          exact (h.registered r hr).2
      · intro r hr
        exact h.issued r (Table.mem_delete.mp hr).1
      · intro w hw
        obtain ⟨r, hr, hheld⟩ := h.waiting w hw
        refine ⟨r, ?_, hheld⟩
        -- a borrowed registration cannot be dropped
        have hother : w.registrationId ≠ dropped := by
          intro hborrows
          exact hfree (List.any_eq_true.mpr ⟨w, hw, decide_eq_true hborrows⟩)
        show (s.registrations.delete _).find? w.registrationId = some r
        rw [Table.find?_delete, hr, Option.filter_some_pos]
        have hkey := Table.key_of_find? hr
        simpa [hkey] using hother
      · intro i
        show _ ≤ (Function.update s.heap registration.state _ i).inFlight
        by_cases hi : i = registration.state
        · subst hi
          rw [Function.update_self]
          exact h.counted _
        · rw [Function.update_of_ne hi]
          exact h.counted i

/-! ## Acquisitions -/

/-- Acquisitions that borrow as before may take the place of all acquisitions. -/
theorem Shared.withWaiters (h : Shared s) {waiters : Table WaiterGuard WaiterId WaiterGuard.id}
    (hwaiters : ∀ w ∈ waiters.rows, ∃ r, s.registrations.find? w.registrationId = some r ∧
      r.origin = w.origin ∧ r.state = w.state) : Shared { s with waiters } :=
  { h with waiting := hwaiters }

theorem Shared.acquire (h : Shared s) (borrowed : RegistrationId) (waiter : WaiterId)
    (robots : Option RobotsAdmission) : Shared (acquire borrowed waiter robots s).2 := by
  unfold Pacing.acquire
  rcases hfind : s.registrations.find? borrowed with _ | registration
  · exact h
  · dsimp only
    split
    · exact h
    · split
      · exact h
      · rename_i waiters hinsert
        refine (h.onState registerWaiter_serves).withWaiters fun w hw => ?_
        rcases (Table.mem_insert hinsert).mp hw with hw | rfl
        · exact h.waiting w hw
        · exact ⟨registration, hfind, rfl, rfl⟩

/-- What one round of an acquisition does: it changes its state, may decide the
acquisition, and creates a permit exactly when the request was admitted. -/
theorem attempt_effect (waiter : WaiterId) (permit : PermitId) (s : PacingSystem) :
    attempt waiter permit s = s ∨
    ∃ guarded ∈ s.waiters.rows, ∃ waiters : Table WaiterGuard WaiterId WaiterGuard.id,
      (∀ w ∈ waiters.rows, ∃ w' ∈ s.waiters.rows, w'.registrationId = w.registrationId ∧
        w'.origin = w.origin ∧ w'.state = w.state) ∧
      (((s.heap guarded.state).attempt s.maxInstant s.clock guarded.effectiveDelay).1 ≠ .ok .acquired ∧
        attempt waiter permit s = { s.onState guarded.state fun pacing =>
          (pacing.attempt s.maxInstant s.clock guarded.effectiveDelay).2 with waiters } ∨
      ((s.heap guarded.state).attempt s.maxInstant s.clock guarded.effectiveDelay).1 = .ok .acquired ∧
        ∃ permits, s.permits.insert? ⟨permit, guarded.origin, guarded.state, false⟩ = some permits ∧
          attempt waiter permit s = { s.onState guarded.state fun pacing =>
            (pacing.attempt s.maxInstant s.clock guarded.effectiveDelay).2 with
              waiters
              permits
              log := s.log ++ [.admitted ⟨guarded.origin, s.clock, guarded.effectiveDelay,
                (permits.select fun p => p.origin = guarded.origin).length,
                s.concurrencies guarded.origin⟩] }) := by
  unfold attempt
  rcases hfind : (s.waiters.find? waiter).filter WaiterGuard.pending with _ | guarded
  · exact Or.inl rfl
  · dsimp only
    have hguarded : guarded ∈ s.waiters.rows :=
      Table.mem_of_find? (Option.filter_eq_some_iff.mp hfind).1
    -- only the flag of the attempting waiter changes
    have hupdated : ∀ w ∈ (s.waiters.update (fun w => decide (w.id = waiter))
        (fun w => { w with pending := false }) fun _ => rfl).rows, ∃ w' ∈ s.waiters.rows,
          w'.registrationId = w.registrationId ∧ w'.origin = w.origin ∧ w'.state = w.state := by
      intro w hw
      obtain ⟨w', hw', rfl⟩ := Table.mem_update.mp hw
      refine ⟨w', hw', ?_⟩
      split <;> exact ⟨rfl, rfl, rfl⟩
    rcases hinsert : s.permits.insert? ⟨permit, guarded.origin, guarded.state, false⟩ with
      _ | permits
    · exact Or.inl rfl
    · refine Or.inr ⟨guarded, hguarded, ?_⟩
      dsimp only
      -- an error and an admission end the waiting; a refused attempt leaves the waiter pending
      rcases hresult : (s.heap guarded.state).attempt s.maxInstant s.clock
        guarded.effectiveDelay with ⟨e | result, pacing⟩
      · refine ⟨_, hupdated, Or.inl ⟨by simp, ?_⟩⟩
        simp only [PacingSystem.onState, hresult]
      · cases result with
        | acquired =>
          refine ⟨_, hupdated, Or.inr ⟨rfl, permits, hinsert, ?_⟩⟩
          simp only [PacingSystem.onState, PacingSystem.inFlight, PacingSystem.concurrencies, hresult]
        | waitUntil deadline =>
          refine ⟨s.waiters, fun w hw => ⟨w, hw, rfl, rfl, rfl⟩, Or.inl ⟨by simp, ?_⟩⟩
          simp only [PacingSystem.onState, hresult]
        | waitForPermit =>
          refine ⟨s.waiters, fun w hw => ⟨w, hw, rfl, rfl, rfl⟩, Or.inl ⟨by simp, ?_⟩⟩
          simp only [PacingSystem.onState, hresult]

/-- An admitted request is counted. -/
theorem attempt_inFlight {pacing : OriginPacingState} {maxInstant now : Instant} {delay : Duration}
    {entry : RegistrationId × ℕ} (hacquired : (pacing.attempt maxInstant now delay).1 = .ok .acquired)
    (hentry : entry ∈ pacing.registrations) (hle : entry.2 ≤ maxU32) :
    (pacing.attempt maxInstant now delay).2.inFlight = pacing.inFlight + 1 := by
  rcases attempt_cases pacing maxInstant now delay with
    ⟨hnot, _⟩ | ⟨c, hc, hroom, _, ⟨hnot, _⟩ | heq⟩
  · exact absurd hacquired hnot
  · exact absurd hacquired hnot
  · have hcle := effectiveConcurrency_le hc hentry
    rw [heq]
    show min (pacing.inFlight + 1) maxU32 = _
    rw [min_eq_left (by omega)]

theorem Shared.attempt (h : Shared s) (waiter : WaiterId) (permit : PermitId) :
    Shared (attempt waiter permit s) := by
  rcases attempt_effect waiter permit s with heq |
    ⟨guarded, hguarded, waiters, hwaiters, ⟨_, heq⟩ | ⟨hacquired, permits, hinsert, heq⟩⟩
  · rw [heq]
    exact h
  all_goals
    obtain ⟨entry, hentry, hle⟩ := h.entry hguarded
    have hstate : Shared (s.onState guarded.state fun pacing =>
        (pacing.attempt s.maxInstant s.clock guarded.effectiveDelay).2) :=
      h.onState (attempt_serves hentry hle)
    have hborrows : ∀ w ∈ waiters.rows, ∃ r, s.registrations.find? w.registrationId = some r ∧
        r.origin = w.origin ∧ r.state = w.state := by
      intro w hw
      obtain ⟨w', hw', hregistration, horigin, hheld⟩ := hwaiters w hw
      rw [← hregistration, ← horigin, ← hheld]
      exact h.waiting w' hw'
    have hborrowed := hstate.withWaiters hborrows
    rw [heq]
  · exact hborrowed
  · obtain ⟨r, hr, horigin, hheld⟩ := h.waiting guarded hguarded
    have hregistered := (h.registered r (Table.mem_of_find? hr)).1
    rw [horigin, hheld] at hregistered
    refine { hborrowed with permitted := fun p hp => ?_, counted := fun i => ?_ }
    · rcases (Table.mem_insert hinsert).mp hp with hp | rfl
      · exact h.permitted p hp
      · exact hregistered
    · show (permits.rows.filter _).length ≤ (Function.update s.heap guarded.state _ i).inFlight
      rw [(Table.insert?_eq_some.mp hinsert).2, List.filter_append, List.length_append]
      by_cases hi : i = guarded.state
      · subst hi
        rw [Function.update_self, attempt_inFlight hacquired hentry hle]
        exact Nat.add_le_add (h.counted guarded.state) (List.length_filter_le _ _)
      · rw [Function.update_of_ne hi, List.filter_cons_of_neg (by simpa using fun e => hi (Eq.symm e))]
        exact h.counted i

theorem Shared.dropWaiter (h : Shared s) (waiter : WaiterId) : Shared (dropWaiter waiter s) := by
  unfold Pacing.dropWaiter
  split
  · exact h
  · exact (h.onState releaseWaiter_serves).withWaiters fun w hw =>
      h.waiting w (Table.mem_delete.mp hw).1

/-! ## Permits -/

theorem Shared.recordOutcome (h : Shared s) (permit : PermitId) (outcome : PacingOutcome)
    (now : Instant) : Shared (recordOutcome permit outcome now s) := by
  unfold Pacing.recordOutcome
  split
  · exact h
  · rename_i held _
    have hstate : Shared (s.onState held.state fun pacing =>
        (pacing.recordOutcome s.maxInstant outcome now).2) := h.onState recordOutcome_serves
    have hsame : ∀ p : AdmissionPermit,
        (if decide (p.id = permit) then { p with outcomeRecorded := true } else p).state = p.state ∧
        (if decide (p.id = permit) then { p with outcomeRecorded := true } else p).origin =
          p.origin := by
      intro p
      split <;> exact ⟨rfl, rfl⟩
    refine { hstate with permitted := fun p hp => ?_, counted := fun i => ?_ }
    · obtain ⟨p', hp', rfl⟩ := List.mem_map.mp hp
      rw [(hsame p').1, (hsame p').2]
      exact h.permitted p' hp'
    · refine le_trans (le_of_eq ?_) (hstate.counted i)
      show (List.filter _ (List.map _ _)).length = (List.filter _ _).length
      rw [List.filter_map, List.length_map]
      congr 1
      refine List.filter_congr fun p _ => ?_
      show decide (_ = i) = decide (_ = i)
      rw [(hsame p).1]

/-- The drop of a permit takes it from the permits of its state. -/
theorem select_delete_permit {held : AdmissionPermit} (hheld : held ∈ s.permits.rows) (i : StateId) :
    ((s.permits.delete fun p => p.id = held.id).select fun p => p.state = i).length +
      (if held.state = i then 1 else 0) ≤ (s.permits.select fun p => p.state = i).length := by
  show (List.filter _ (List.filter _ _)).length + _ ≤ (List.filter _ _).length
  rw [List.filter_comm]
  by_cases hi : held.state = i
  · rw [if_pos hi]
    refine Nat.succ_le_of_lt (List.length_filter_lt_length_iff_exists.mpr ⟨held, ?_, by simp⟩)
    exact List.mem_filter.mpr ⟨hheld, decide_eq_true hi⟩
  · rw [if_neg hi]
    exact List.length_filter_le _ _

theorem Shared.dropPermit (h : Shared s) (permit : PermitId) : Shared (dropPermit permit s) := by
  unfold Pacing.dropPermit
  rcases hfind : s.permits.find? permit with _ | held
  · exact h
  · have hheld := Table.mem_of_find? hfind
    have hkey := Table.key_of_find? hfind
    refine ⟨h.room, h.allocated, fun r hr => ⟨(h.registered r hr).1, ?_⟩, h.issued, h.waiting,
      fun p hp => h.permitted p (Table.mem_delete.mp hp).1, fun i => ?_⟩
    · show _ ∈ (Function.update s.heap held.state _ r.state).registrations
      by_cases hid : r.state = held.state
      · rw [hid, Function.update_self, ← hid]
        exact (h.registered r hr).2
      · rw [Function.update_of_ne hid]
        exact (h.registered r hr).2
    · have hdeleted := select_delete_permit hheld i
      rw [hkey] at hdeleted
      have hcounted := h.counted i
      show ((s.permits.delete fun p => decide (p.id = permit)).select _).length ≤
        (Function.update s.heap held.state _ i).inFlight
      by_cases hi : held.state = i
      · subst hi
        rw [Function.update_self]
        show _ ≤ (s.heap held.state).inFlight - 1
        rw [if_pos rfl] at hdeleted
        omega
      · rw [Function.update_of_ne (Ne.symm hi)]
        rw [if_neg hi] at hdeleted
        omega

/-! ## Runs -/

theorem pacingStep_shared (s : PacingSystem) (input : PacingInput) (h : Shared s) :
    Shared (pacingStep s input) := by
  cases input with
  | register origin configuration reading =>
    unfold pacingStep
    dsimp only
    split
    · exact h.register origin configuration reading
    · exact h
  | dropRegistration id => exact h.dropRegistration id
  | acquire id waiter robots => exact h.acquire id waiter robots
  | attempt waiter permit => exact h.attempt waiter permit
  | dropWaiter waiter => exact h.dropWaiter waiter
  | recordOutcome permit outcome reading =>
    unfold pacingStep
    dsimp only
    split
    · exact h.recordOutcome permit outcome reading
    · exact h
  | dropPermit permit => exact h.dropPermit permit
  | tick duration => exact { h with }

/-- In every run states are shared. -/
theorem after_shared (capacity : ℕ) (maxInstant : Instant) (inputs : List PacingInput) :
    Shared (after pacingStep (.initial capacity maxInstant) inputs) :=
  after_invariant pacingStep_shared (.initial capacity maxInstant) inputs

/-- A registration, with the pruning it may need, takes nothing from the others. -/
theorem Shared.register_uses (h : Shared s) (origin : OriginKey)
    (configuration : ResolvedPacingConfiguration) (now : Instant) :
    ∀ held ∈ s.uses, held ∈ (Pacing.register origin configuration now s).2.uses := by
  have hframe : (Pacing.originState origin now s).2.registrations = s.registrations ∧
      (Pacing.originState origin now s).2.waiters = s.waiters ∧
      (Pacing.originState origin now s).2.permits = s.permits := by
    rcases originState_cases origin now s with ⟨_, _, heq⟩ | ⟨t, _, rfl | rfl, heq | ⟨_, heq⟩⟩ <;>
      rw [heq] <;> exact ⟨rfl, rfl, rfl⟩
  intro held hheld
  have hheld' : held ∈ (Pacing.originState origin now s).2.uses := by
    unfold PacingSystem.uses
    rw [hframe.1, hframe.2.1, hframe.2.2]
    exact hheld
  have hshared := (h.originState origin now).1
  rcases register_cases origin configuration now s with heq | ⟨state, next, _, hnext, heq⟩
  · rw [heq]
    exact hheld'
  · rw [heq]
    unfold PacingSystem.uses at hheld' ⊢
    rw [List.mem_append, List.mem_append] at hheld' ⊢
    refine hheld'.imp_left (Or.imp_left fun hmem => ?_)
    obtain ⟨r, hr, rfl⟩ := List.mem_map.mp hmem
    have hlt := hshared.issued r hr next hnext
    exact List.mem_map.mpr ⟨r, Table.mem_put.mpr (Or.inl ⟨hr, Nat.ne_of_lt hlt⟩), rfl⟩

/-- In every state reached, whatever lives of an origin holds the one state the
registry has for it, the registry is within its capacity, and no registration
retires a state that is held. -/
theorem states_shared (capacity : ℕ) (maxInstant : Instant) (inputs : List PacingInput)
    (origin : OriginKey) (configuration : ResolvedPacingConfiguration) (reading : Instant) :
    SharesStates (after pacingStep (.initial capacity maxInstant) inputs) ∧
    ∀ held ∈ (after pacingStep (.initial capacity maxInstant) inputs).uses,
      (Pacing.register origin configuration reading
        (after pacingStep (.initial capacity maxInstant) inputs)).2.registry.stateOf held.1 =
          some held.2 := by
  have hshared := after_shared capacity maxInstant inputs
  refine ⟨hshared.sharesStates, fun held hheld => ?_⟩
  exact (hshared.register origin configuration reading).sharesStates.1 held
    (hshared.register_uses origin configuration reading held hheld)

end Erabi.Pacing
