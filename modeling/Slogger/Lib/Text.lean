import Mathlib.Data.List.DropRight
import Mathlib.Data.List.TakeWhile

set_option autoImplicit false

namespace Slogger.Lib

section Stop

variable {α : Type} (passes : α → Bool) (stop : α)

theorem terminated_take (list : List α) (stops : passes stop = false) :
    (list ++ [stop]).takeWhile passes = list.takeWhile passes := by
  rw [List.takeWhile_append]
  split
  · rename_i whole
    rw [(List.takeWhile_prefix passes).eq_of_length whole]
    simp [stops]
  · rfl

theorem terminated_split (list : List α) (stops : passes stop = false) :
    ∃ first rest, list ++ [stop] = list.takeWhile passes ++ first :: rest := by
  have split := List.takeWhile_append_dropWhile (p := passes) (l := list ++ [stop])
  rw [terminated_take passes stop list stops] at split
  cases tail : (list ++ [stop]).dropWhile passes with
  | nil =>
      rw [tail, List.append_nil] at split
      have inside : stop ∈ list.takeWhile passes := by
        rw [split]
        simp
      exact absurd (List.mem_takeWhile_imp inside) (by simp [stops])
  | cons first rest =>
      rw [tail] at split
      exact ⟨first, rest, split.symm⟩

end Stop

section Until

variable {α : Type} [BEq α] [LawfulBEq α] (stop : α)

theorem take_until_whole (list : List α) :
    (list.takeWhile fun element => element != stop) = list ↔ stop ∉ list := by
  rw [List.takeWhile_eq_self_iff]
  constructor
  · intro clean member
    simpa using clean stop member
  · intro absent element member
    simpa using fun same : element = stop => absent (same ▸ member)

theorem take_until_append (front tail : List α) (absent : stop ∉ front) :
    ((front ++ tail).takeWhile fun element => element != stop) =
      front ++ tail.takeWhile fun element => element != stop :=
  List.takeWhile_append_of_pos (List.takeWhile_eq_self_iff.mp ((take_until_whole stop front).mpr absent))

theorem take_until_exact (front tail : List α) (ends : stop ∈ front ++ tail) :
    ((front ++ tail).takeWhile fun element => element != stop) = front ↔
      stop ∉ front ∧ tail.head? = some stop := by
  constructor
  · intro same
    have absent : stop ∉ front := by
      intro member
      rw [← same] at member
      simpa using List.mem_takeWhile_imp member
    rw [take_until_append stop front tail absent, List.append_right_eq_self] at same
    cases tail with
    | nil => simp [absent] at ends
    | cons head rest =>
        have stops : head = stop := by
          by_contra goes
          simp [goes] at same
        exact ⟨absent, congrArg some stops⟩
  · intro both
    obtain ⟨rest, split⟩ := List.head?_eq_some_iff.mp both.2
    rw [take_until_append stop front tail both.1, split]
    simp

end Until

section Behind

variable {α : Type} (marks : α → Bool)

def behindLast (list : List α) : List α := list.rtakeWhile fun element => !marks element

theorem behind_last_clean (list : List α) (element : α) (member : element ∈ behindLast marks list) :
    marks element = false := by
  simpa using List.mem_rtakeWhile_imp member

theorem behind_last_unmarked (list : List α) (clean : ∀ element ∈ list, marks element = false) :
    behindLast marks list = list := by
  rw [behindLast, List.rtakeWhile_eq_self_iff]
  intro element member
  simp [clean element member]

theorem behind_last_marked (front : List α) (mark : α) (marked : marks mark = true) :
    behindLast marks (front ++ [mark]) = [] :=
  List.rtakeWhile_concat_neg _ _ mark (by simp [marked])

theorem behind_last_concat (front : List α) (last : α) (unmarked : marks last = false) :
    behindLast marks (front ++ [last]) = behindLast marks front ++ [last] :=
  List.rtakeWhile_concat_pos _ _ last (by simp [unmarked])

theorem behind_last_append (front tail : List α) (clean : ∀ element ∈ tail, marks element = false) :
    behindLast marks (front ++ tail) = behindLast marks front ++ tail := by
  induction tail using List.reverseRecOn with
  | nil => simp
  | append_singleton tail last ih =>
      have earlier : ∀ element ∈ tail, marks element = false :=
        fun element member => clean element (List.mem_append_left _ member)
      rw [← List.append_assoc, behind_last_concat marks _ last (clean last (by simp)), ih earlier, List.append_assoc]

theorem behind_last_split (front tail : List α) (mark : α) (marked : marks mark = true)
    (clean : ∀ element ∈ tail, marks element = false) : behindLast marks (front ++ mark :: tail) = tail := by
  have regroup : front ++ mark :: tail = (front ++ [mark]) ++ tail := by simp
  rw [regroup, behind_last_append marks _ tail clean, behind_last_marked marks front mark marked, List.nil_append]

theorem behind_last_cases (list : List α) :
    (∀ element ∈ list, marks element = false) ∨
      ∃ front mark tail, list = front ++ mark :: tail ∧ marks mark = true ∧
        ∀ element ∈ tail, marks element = false := by
  induction list with
  | nil => exact .inl (by simp)
  | cons head rest ih =>
      rcases ih with clean | ⟨front, mark, tail, whole, marked, clean⟩
      · by_cases marked : marks head = true
        · exact .inr ⟨[], head, rest, rfl, marked, clean⟩
        · refine .inl fun element member => ?_
          rcases List.mem_cons.mp member with same | later
          · rw [same]
            exact Bool.not_eq_true _ ▸ marked
          · exact clean element later
      · exact .inr ⟨head :: front, mark, tail, by rw [whole]; rfl, marked, clean⟩

end Behind

end Slogger.Lib
