import Mathlib.Data.Nat.ModEq
import Mathlib.Data.List.Basic

set_option autoImplicit false

namespace Slogger.Lib

section Ring

variable {Entry : Type}

-- A circular buffer holds these entries, the oldest at front; the other slots
-- hold anything, also nothing yet.
structure Window (slots : List (Option Entry)) (front : Nat) (entries : List Entry) : Prop where
  inside : front < slots.length
  within : entries.length ≤ slots.length
  holds : ∀ offset entry, entries[offset]? = some entry →
    slots[(front + offset) % slots.length]? = some (some entry)

theorem window_empty (slots : List (Option Entry)) (front : Nat) (inside : front < slots.length) :
    Window slots front [] :=
  ⟨inside, Nat.zero_le _, fun _ _ absent => by simp at absent⟩

theorem window_front (slots : List (Option Entry)) (front : Nat) (entry : Entry) (rest : List Entry)
    (window : Window slots front (entry :: rest)) : slots[front]? = some (some entry) := by
  have read := window.holds 0 entry rfl
  rwa [Nat.add_zero, Nat.mod_eq_of_lt window.inside] at read

theorem ring_apart (capacity front near far : Nat) (before : near < far) (below : far < capacity) :
    (front + near) % capacity ≠ (front + far) % capacity := by
  intro same
  have congruent : near ≡ far [MOD capacity] := Nat.ModEq.add_left_cancel' front same
  have equal := congruent.eq_of_lt_of_lt (Nat.lt_trans before below) below
  exact Nat.ne_of_lt before equal

theorem window_push (slots : List (Option Entry)) (front : Nat) (entries : List Entry) (fresh : Entry)
    (window : Window slots front entries) (space : entries.length < slots.length) :
    Window (slots.set ((front + entries.length) % slots.length) (some fresh)) front (entries ++ [fresh]) := by
  constructor
  · simpa using window.inside
  · simpa using Nat.succ_le_of_lt space
  · intro offset entry found
    rw [List.length_set]
    by_cases old : offset < entries.length
    · rw [List.getElem?_append_left old] at found
      rw [List.getElem?_set_ne (Ne.symm (ring_apart slots.length front offset entries.length old space))]
      exact window.holds offset entry found
    · have last : offset = entries.length := by
        have bound := (List.getElem?_eq_some_iff.mp found).1
        simp only [List.length_append, List.length_singleton] at bound
        omega
      subst last
      have same : fresh = entry := by simpa using found
      rw [same, List.getElem?_set_self (Nat.mod_lt _ (Nat.zero_lt_of_lt space))]

theorem window_pop (slots : List (Option Entry)) (front : Nat) (entry : Entry) (rest : List Entry)
    (window : Window slots front (entry :: rest)) : Window slots ((front + 1) % slots.length) rest := by
  constructor
  · exact Nat.mod_lt _ (Nat.zero_lt_of_lt window.inside)
  · exact Nat.le_of_succ_le window.within
  · intro offset later found
    have read := window.holds (offset + 1) later (by simpa using found)
    rwa [Nat.mod_add_mod, Nat.add_assoc, Nat.add_comm 1 offset]

end Ring

end Slogger.Lib
