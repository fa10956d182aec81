/-
# Numbered logs

An append-only log whose events carry the numbers `1, 2, …` in order, and in
which only the last event may close the log.  A reader that stands at number `c`
reads on with `log.drop c`, in pages of any size.
-/
import Mathlib

namespace Log

variable {ε : Type*} {number : ε → ℕ} {closes : ε → Bool} {log : List ε} {event : ε}

/-- The events of the log are numbered from one, and at most the last one closes
the log. -/
structure Numbered (number : ε → ℕ) (closes : ε → Bool) (log : List ε) : Prop where
  numbers : log.map number = List.range' 1 log.length
  closing : ∀ event ∈ log.dropLast, closes event = false

theorem Numbered.nil : Numbered number closes [] where
  numbers := rfl
  closing := by simp

/-- An open log is continued by the event of the next number. -/
theorem Numbered.append (h : Numbered number closes log) (hnumber : number event = log.length + 1)
    (hopen : ∀ last ∈ log.getLast?, closes last = false) :
    Numbered number closes (log ++ [event]) where
  numbers := by
    rw [List.map_append, h.numbers, List.length_append, List.length_singleton, List.range'_concat]
    simp [hnumber, Nat.add_comm]
  closing := by
    rw [List.dropLast_concat]
    intro earlier hearlier
    by_cases hlast : earlier ∈ log.dropLast
    · exact h.closing earlier hlast
    · rcases List.eq_nil_or_concat log with rfl | ⟨init, last, rfl⟩
      · cases hearlier
      · rw [List.concat_eq_append, List.dropLast_concat] at hlast
        rw [List.concat_eq_append, List.mem_append, List.mem_singleton] at hearlier
        rcases hearlier with hinit | rfl
        · exact absurd hinit hlast
        · apply hopen
          simp

/-- Entries are numbered from one. -/
theorem Numbered.number_getElem (h : Numbered number closes log) {i : ℕ} (hi : i < log.length) :
    number log[i] = i + 1 := by
  have hget : (log.map number)[i]? = (List.range' 1 log.length)[i]? := by
    rw [h.numbers]
  rw [List.getElem?_map, List.getElem?_eq_getElem hi, List.getElem?_range' hi] at hget
  simp only [Option.map_some, Option.some.injEq] at hget
  omega

/-- The number of an event is its position. -/
theorem Numbered.getElem?_number (h : Numbered number closes log) (hevent : event ∈ log) :
    1 ≤ number event ∧ number event ≤ log.length ∧ log[number event - 1]? = some event := by
  obtain ⟨i, hi, rfl⟩ := List.mem_iff_getElem.mp hevent
  rw [h.number_getElem hi]
  refine ⟨by omega, by omega, ?_⟩
  simp [hi]

/-- What is in front of the last event does not close the log. -/
theorem Numbered.closes_eq_false (h : Numbered number closes log) (hevent : event ∈ log)
    (hlt : number event < log.length) : closes event = false := by
  obtain ⟨hpos, _, hget⟩ := h.getElem?_number hevent
  refine h.closing event (List.mem_of_getElem? (i := number event - 1) ?_)
  rw [List.getElem?_dropLast, if_pos (by omega), hget]

/-- The last number is the length of the log. -/
theorem Numbered.foldr_max (h : Numbered number closes log) :
    (log.map number).foldr max 0 = log.length := by
  rw [h.numbers]
  apply le_antisymm
  · refine List.max_le_of_forall_le _ _ fun n hn => ?_
    rw [List.mem_range'_1] at hn
    omega
  · rcases log.length with _ | n
    · exact Nat.zero_le _
    · refine List.le_max_of_le' 0 (x := n + 1) ?_ le_rfl
      rw [List.mem_range'_1]
      omega

/-- Numbers increase. -/
theorem Numbered.pairwise_lt (h : Numbered number closes log) :
    log.Pairwise fun a b => number a < number b := by
  rw [← List.pairwise_map (f := number) (R := (· < ·)), h.numbers]
  exact List.pairwise_lt_range' 1 (by omega)

/-! ## Reading on -/

/-- The events after number `c` are the log without its first `c` events. -/
theorem Numbered.filter_after (h : Numbered number closes log) (c : ℕ) :
    log.filter (fun event => c < number event) = log.drop c := by
  have hsplit := List.take_append_drop c log
  conv_lhs => rw [← hsplit]
  rw [List.filter_append]
  have htake : (log.take c).filter (fun event => c < number event) = [] := by
    rw [List.filter_eq_nil_iff]
    intro event hevent
    obtain ⟨i, hi, rfl⟩ := List.mem_iff_getElem.mp hevent
    rw [List.length_take] at hi
    rw [List.getElem_take, h.number_getElem (by omega)]
    simp only [decide_eq_true_eq]
    omega
  have hdrop : (log.drop c).filter (fun event => c < number event) = log.drop c := by
    rw [List.filter_eq_self]
    intro event hevent
    obtain ⟨i, hi, rfl⟩ := List.mem_iff_getElem.mp hevent
    rw [List.length_drop] at hi
    rw [List.getElem_drop, h.number_getElem (by omega)]
    simp only [decide_eq_true_eq]
    omega
  rw [htake, hdrop, List.nil_append]

/-- Every page after number `c` continues the numbers from there. -/
theorem Numbered.numbers_page (h : Numbered number closes log) (c limit : ℕ) :
    ((log.drop c).take limit).map number =
      List.range' (c + 1) ((log.drop c).take limit).length := by
  apply List.ext_getElem
  · simp
  · intro i hi hi'
    simp only [List.length_map, List.length_take, List.length_drop] at hi
    rw [List.getElem_map, List.getElem_take, List.getElem_drop,
      h.number_getElem (by omega), List.getElem_range']
    omega

end Log
