import Mathlib.Data.List.Induction
import Slogger.Lib.Memory

set_option autoImplicit false

namespace Slogger.Lib

structure Cells (α : Type) (size : Nat) where
  values : List α
  sized : values.length = size

def Cells.replicate {α : Type} (size : Nat) (value : α) : Cells α size where
  values := List.replicate size value
  sized := List.length_replicate

section Overlay

variable {α : Type}

-- What a list leaves of a longer one when it is copied to its start.
def overlay (memory values : List α) : List α := values ++ memory.drop values.length

theorem overlay_length (memory values : List α) (within : values.length ≤ memory.length) :
    (overlay memory values).length = memory.length := by
  rw [overlay, List.length_append, List.length_drop]
  omega

theorem overlay_inside (memory values : List α) (index : Nat) (inside : index < values.length) :
    (overlay memory values)[index]? = values[index]? :=
  List.getElem?_append_left inside

theorem overlay_behind (memory values : List α) (index : Nat) (behind : values.length ≤ index) :
    (overlay memory values)[index]? = memory[index]? := by
  rw [overlay, List.getElem?_append_right behind, List.getElem?_drop, Nat.add_sub_cancel' behind]

-- The value of one cell after some copies, the newest of them first: the newest
-- that reached it put it there.
def lastPut (memory : List α) : List (List α) → Nat → Option α
  | [], index => memory[index]?
  | newest :: earlier, index => if index < newest.length then newest[index]? else lastPut memory earlier index

theorem overlays_last_put (memory : List α) (copies : List (List α)) (index : Nat) :
    (copies.foldl overlay memory)[index]? = lastPut memory copies.reverse index := by
  induction copies using List.reverseRecOn with
  | nil => rfl
  | append_singleton copies newest ih =>
      rw [List.foldl_concat, List.reverse_concat, lastPut]
      by_cases inside : index < newest.length
      · rw [overlay_inside _ newest index inside, if_pos inside]
      · rw [overlay_behind _ newest index (Nat.le_of_not_lt inside), if_neg inside, ih]

theorem last_put_stop (memory : List α) (copies : List (List α)) (index : Nat) (stop : α)
    (absent : ∀ copy ∈ copies, stop ∉ copy) :
    lastPut memory copies index = some stop ↔
      (∀ copy ∈ copies, copy.length ≤ index) ∧ memory[index]? = some stop := by
  induction copies with
  | nil => simp [lastPut]
  | cons newest earlier ih =>
      have later := ih fun copy member => absent copy (List.mem_cons_of_mem newest member)
      rw [lastPut]
      by_cases inside : index < newest.length
      · rw [if_pos inside]
        constructor
        · intro put
          exact absurd (List.mem_of_getElem? put) (absent newest List.mem_cons_self)
        · intro short
          exact absurd (short.1 newest List.mem_cons_self) (Nat.not_le_of_lt inside)
      · rw [if_neg inside, later, List.forall_mem_cons]
        simp only [Nat.le_of_not_lt inside, true_and]

end Overlay

section Fill

variable {α : Type} {size : Nat}

def Cells.fill (memory : Cells α size) (values : List α) (within : values.length ≤ size) : Cells α size where
  values := overlay memory.values values
  sized := (overlay_length memory.values values (Nat.le_trans within (Nat.le_of_eq memory.sized.symm))).trans memory.sized

theorem fill_values (memory : Cells α size) (values : List α) (within : values.length ≤ size) :
    (memory.fill values within).values = overlay memory.values values := rfl

end Fill

section Put

variable {α : Type}

def put (memory : List α) (offset : Nat) (values : List α) : Except Fault (List α) :=
  if offset + values.length ≤ memory.length then
    .ok (memory.take offset ++ values ++ memory.drop (offset + values.length))
  else .error .outside

theorem put_fits (front tail values : List α) (fits : values.length ≤ tail.length) :
    put (front ++ tail) front.length values = .ok (front ++ overlay tail values) := by
  have room : front.length + values.length ≤ (front ++ tail).length := by
    rw [List.length_append]
    omega
  rw [put, if_pos room, List.take_left, List.drop_append, List.append_assoc, overlay]
  simp

theorem put_outside (front tail values : List α) (long : tail.length < values.length) :
    put (front ++ tail) front.length values = .error .outside := by
  have beyond : ¬front.length + values.length ≤ (front ++ tail).length := by
    rw [List.length_append]
    omega
  rw [put, if_neg beyond]

end Put

end Slogger.Lib
