import Mathlib.Data.List.Nodup
import Slogger.Lib.Memory

set_option autoImplicit false

namespace Slogger.Lib

namespace Heap

variable {Cell : Type}

def live (heap : Heap Cell) : List Nat := (List.range heap.bound).filter fun address => (heap.cell address).isSome

theorem mem_live (heap : Heap Cell) (address : Nat) : address ∈ heap.live ↔ (heap.cell address).isSome = true := by
  rw [live, List.mem_filter, List.mem_range]
  constructor
  · exact fun both => both.2
  · intro here
    obtain ⟨cell, read⟩ := Option.isSome_iff_exists.mp here
    exact ⟨heap.allocated_below address cell read, here⟩

theorem live_distinct (heap : Heap Cell) : heap.live.Nodup := List.nodup_range.filter _

theorem alloc_live (heap : Heap Cell) (fresh : Cell) : (heap.alloc fresh).live.length = heap.live.length + 1 := by
  have older : ∀ address ∈ List.range heap.bound,
      ((heap.alloc fresh).cell address).isSome = (heap.cell address).isSome := by
    intro address below
    have different : address ≠ heap.bound := Nat.ne_of_lt (List.mem_range.mp below)
    simp [alloc, different]
  have bound : (heap.alloc fresh).bound = heap.bound + 1 := rfl
  rw [live, bound, List.range_succ, List.filter_append, List.filter_congr older, List.length_append,
    List.filter_cons_of_pos (by simp)]
  rfl

theorem modify_live (heap : Heap Cell) (target : Nat) (change : Cell → Cell) :
    (heap.modify target change).live = heap.live := by
  apply List.filter_congr
  intro address _
  by_cases same : address = target <;> simp [modify, same]

theorem erase_live (heap : Heap Cell) (target : Nat) (cell : Cell) (read : heap.cell target = some cell) :
    (heap.erase target).live.length + 1 = heap.live.length := by
  have here : target ∈ heap.live := (heap.mem_live target).mpr (by rw [read]; rfl)
  have erased : (heap.erase target).live = heap.live.erase target := by
    rw [heap.live_distinct.erase_eq_filter, live, live, List.filter_filter]
    apply List.filter_congr
    intro address _
    by_cases same : address = target <;> simp [erase, same]
  have some : 0 < heap.live.length := List.length_pos_of_mem here
  rw [erased, List.length_erase_of_mem here]
  omega

theorem assign_live (heap next : Heap Cell) (target : Pointer) (change : Cell → Cell)
    (ran : heap.assign target change = .ok next) : next.live.length = heap.live.length := by
  cases target with
  | none => cases ran
  | some address =>
      simp only [assign] at ran
      split at ran
      · cases ran
      · obtain rfl := Except.ok.inj ran
        rw [modify_live]

theorem release_live (heap next : Heap Cell) (address : Nat) (ran : heap.release (some address) = .ok next) :
    next.live.length + 1 = heap.live.length := by
  simp only [release] at ran
  split at ran
  · cases ran
  · rename_i cell read
    obtain rfl := Except.ok.inj ran
    exact erase_live heap address cell read

-- As many objects as are known: these are all.
theorem live_exactly (heap : Heap Cell) (known : List Nat) (distinct : known.Nodup)
    (present : ∀ address ∈ known, (heap.cell address).isSome = true) (count : heap.live.length = known.length)
    (address : Nat) : (heap.cell address).isSome = true ↔ address ∈ known := by
  have inside : known ⊆ heap.live := fun other member => (heap.mem_live other).mpr (present other member)
  have same := (List.subperm_of_subset distinct inside).perm_of_length_le (Nat.le_of_eq count)
  rw [← mem_live]
  exact same.mem_iff.symm

theorem none_live (heap : Heap Cell) (nothing : heap.live.length = 0) (address : Nat) : heap.cell address = none := by
  have absent := live_exactly heap [] List.nodup_nil (by simp) nothing address
  simpa using absent

end Heap

end Slogger.Lib
