import Mathlib.Data.Nat.Choose.Basic
import Slogger.Lib.Sequence

set_option autoImplicit false

namespace Slogger.Lib

section Adjacent

variable {Entry : Type}

theorem swap_adjacent_perm (entries : List Entry) (position : Nat) : (swapAdjacent entries position).Perm entries := by
  fun_induction swapAdjacent entries position with
  | case1 first second rest => exact List.Perm.swap first second rest
  | case2 first rest position ih => exact ih.cons first
  | case3 entries => exact List.Perm.refl entries

def toFront : Nat → List Nat
  | 0 => []
  | position + 1 => position :: toFront position

theorem to_front_length (position : Nat) : (toFront position).length = position := by
  induction position with
  | zero => rfl
  | succ position ih => rw [toFront, List.length_cons, ih]

theorem to_front_below (position : Nat) : ∀ exchanged ∈ toFront position, exchanged < position := by
  induction position with
  | zero => simp [toFront]
  | succ position ih =>
      intro exchanged member
      rcases List.mem_cons.mp member with rfl | later
      · exact Nat.lt_succ_self _
      · exact Nat.lt_succ_of_lt (ih exchanged later)

theorem to_front_moves (left right : List Entry) (entry : Entry) :
    (toFront left.length).foldl swapAdjacent (left ++ entry :: right) = entry :: (left ++ right) := by
  induction left using List.reverseRecOn generalizing right with
  | nil => rfl
  | append_singleton left last ih =>
      rw [List.length_append, List.length_singleton, toFront, List.foldl_cons, List.append_assoc, List.singleton_append,
        swap_adjacent_append, ih]
      simp

theorem exchanges_behind (first : Entry) (rest : List Entry) (positions : List Nat) :
    (positions.map (· + 1)).foldl swapAdjacent (first :: rest) = first :: positions.foldl swapAdjacent rest := by
  induction positions generalizing rest with
  | nil => rfl
  | cons position positions ih =>
      rw [List.map_cons, List.foldl_cons, List.foldl_cons, ← ih]
      cases rest <;> rfl

-- Every order of the entries can be reached, with an exchange for each pair at
-- most.
theorem exchanges_reach (entries target : List Entry) (perm : entries.Perm target) :
    ∃ positions : List Nat, positions.length ≤ entries.length.choose 2 ∧
      (∀ position ∈ positions, position + 1 < entries.length) ∧ positions.foldl swapAdjacent entries = target := by
  induction target generalizing entries with
  | nil => exact ⟨[], Nat.zero_le _, by simp, perm.eq_nil⟩
  | cons first rest ih =>
      obtain ⟨left, right, rfl⟩ := List.append_of_mem (perm.mem_iff.mpr List.mem_cons_self)
      have others : (left ++ right).Perm rest := (List.perm_middle.symm.trans perm).cons_inv
      obtain ⟨positions, few, inside, reached⟩ := ih (left ++ right) others
      have length : (left ++ first :: right).length = (left ++ right).length + 1 := by
        simp only [List.length_append, List.length_cons]
        omega
      refine ⟨toFront left.length ++ positions.map (· + 1), ?_, ?_, ?_⟩
      · have pairs : (left ++ first :: right).length.choose 2 =
            (left ++ right).length + (left ++ right).length.choose 2 := by
          rw [length, Nat.choose_succ_succ, Nat.choose_one_right]
        rw [pairs, List.length_append, List.length_map, to_front_length, List.length_append]
        rw [List.length_append] at few
        omega
      · intro position member
        rw [length]
        rcases List.mem_append.mp member with early | late
        · have below := to_front_below left.length position early
          rw [List.length_append]
          omega
        · obtain ⟨before, here, rfl⟩ := List.mem_map.mp late
          exact Nat.succ_lt_succ (inside before here)
      · rw [List.foldl_append, to_front_moves, exchanges_behind, reached]

end Adjacent

end Slogger.Lib
