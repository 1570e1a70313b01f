import Mathlib.Data.List.Dedup
import Slogger.Lib.Sequence

set_option autoImplicit false

namespace Slogger.Lib

section Recent

variable {Entry : Type}

theorem rtake_append_right (cap : Nat) (left right : List Entry) (enough : cap ≤ right.length) :
    (left ++ right).rtake cap = right.rtake cap := by
  rw [List.rtake, List.rtake, List.drop_append, List.length_append]
  rw [List.drop_of_length_le (by omega), List.nil_append]
  congr 1
  omega

theorem rtake_short (cap : Nat) (entries : List Entry) (short : entries.length ≤ cap) : entries.rtake cap = entries := by
  rw [List.rtake, Nat.sub_eq_zero_of_le short, List.drop_zero]

variable [DecidableEq Entry]

-- An entry that is used again moves to the end; a full sequence gives up the
-- one that was not used for longest.
def touch (cap : Nat) (entries : List Entry) (fresh : Entry) : List Entry :=
  pushLast cap (entries.erase fresh) fresh

theorem dedup_snoc (entries : List Entry) (last : Entry) :
    (entries ++ [last]).dedup = entries.dedup.erase last ++ [last] := by
  induction entries with
  | nil => rfl
  | cons entry rest ih =>
      rw [List.cons_append]
      by_cases again : entry ∈ rest
      · rw [List.dedup_cons_of_mem again, List.dedup_cons_of_mem (List.mem_append_left _ again), ih]
      · rw [List.dedup_cons_of_notMem again]
        by_cases same : entry = last
        · subst same
          have absent : entry ∉ rest.dedup := fun member => again (List.mem_dedup.mp member)
          rw [List.dedup_cons_of_mem (by simp), ih, List.erase_cons_head, List.erase_of_not_mem absent]
        · have apart : entry ∉ rest ++ [last] := by simp [again, same]
          rw [List.dedup_cons_of_notMem apart, ih, List.erase_cons_tail (by simpa using same), List.cons_append]

-- What is kept of the newest entries does not depend on the older ones.
theorem rtake_erase (cap : Nat) (entries : List Entry) (used : Entry) (distinct : entries.Nodup) :
    ((entries.rtake (cap + 1)).erase used).rtake cap = (entries.erase used).rtake cap := by
  by_cases short : entries.length ≤ cap + 1
  · rw [rtake_short (cap + 1) entries short]
  · obtain ⟨older, newer, rfl, length⟩ : ∃ older newer, entries = older ++ newer ∧ newer.length = cap + 1 := by
      refine ⟨_, _, (List.take_append_drop (entries.length - (cap + 1)) entries).symm, ?_⟩
      rw [List.length_drop]
      omega
    rw [rtake_append_right (cap + 1) older newer (Nat.le_of_eq length.symm),
      rtake_short (cap + 1) newer (Nat.le_of_eq length)]
    by_cases recent : used ∈ newer
    · have absent : used ∉ older := fun early => List.disjoint_of_nodup_append distinct early recent
      have shorter := List.length_erase_of_mem recent
      rw [List.erase_append_right _ absent, rtake_append_right cap older _ (by omega)]
    · rw [List.erase_of_not_mem recent]
      by_cases early : used ∈ older
      · rw [List.erase_append_left _ early, rtake_append_right cap _ newer (by omega)]
      · rw [List.erase_append_right _ early, List.erase_of_not_mem recent, rtake_append_right cap older newer (by omega)]

theorem touch_rtake (cap : Nat) (entries : List Entry) (used : Entry) (positive : 0 < cap) (distinct : entries.Nodup) :
    touch cap (entries.rtake cap) used = (entries.erase used ++ [used]).rtake cap := by
  obtain ⟨shorter, rfl⟩ := Nat.exists_eq_succ_of_ne_zero (Nat.ne_of_gt positive)
  have within : ((entries.rtake (shorter + 1)).erase used).length ≤ shorter + 1 := by
    have erased := List.length_erase_le (l := entries.rtake (shorter + 1)) (a := used)
    have taken : (entries.rtake (shorter + 1)).length ≤ shorter + 1 := by
      rw [List.rtake, List.length_drop]
      omega
    omega
  have pushed := rtake_push_last (shorter + 1) ((entries.rtake (shorter + 1)).erase used) used positive
  rw [rtake_short (shorter + 1) _ within] at pushed
  rw [touch, ← pushed, List.rtake_concat_succ, List.rtake_concat_succ, rtake_erase shorter entries used distinct]

end Recent

end Slogger.Lib
