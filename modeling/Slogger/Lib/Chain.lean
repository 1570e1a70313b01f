import Slogger.Lib.Linked

set_option autoImplicit false

namespace Slogger.Lib

section Chain

variable {Cell Value : Type}

-- A stretch of a list as it is read in one direction: nothing is asked of the
-- links back.
def Chain (layout : Layout Cell Value) (heap : Heap Cell) : List (Nat × Value) → Pointer → Prop
  | [], _ => True
  | (address, value) :: rest, after =>
      (∃ cell, heap.cell address = some cell ∧ layout.value cell = value ∧ layout.next cell = firstOf rest after) ∧
      Chain layout heap rest after

structure Forward (layout : Layout Cell Value) (heap : Heap Cell) (head : Pointer) (cells : List (Nat × Value)) :
    Prop where
  entry : head = firstOf cells none
  distinct : (addresses cells).Nodup
  chain : Chain layout heap cells none

variable {layout : Layout Cell Value} {heap : Heap Cell}

theorem chain_append (after : Pointer) (left right : List (Nat × Value)) :
    Chain layout heap (left ++ right) after ↔
      Chain layout heap left (firstOf right after) ∧ Chain layout heap right after := by
  induction left with
  | nil => simp [Chain]
  | cons cell rest ih => simp only [List.cons_append, Chain, first_of_append, ih, and_assoc]

theorem chain_frame (other : Heap Cell) (after : Pointer) (cells : List (Nat × Value))
    (chain : Chain layout heap cells after) (agree : ∀ address ∈ addresses cells, other.cell address = heap.cell address) :
    Chain layout other cells after := by
  induction cells with
  | nil => trivial
  | cons cell rest ih =>
      obtain ⟨⟨node, read, links⟩, tail⟩ := chain
      refine ⟨⟨node, (agree cell.1 (by simp)).trans read, links⟩, ih tail ?_⟩
      exact fun address member => agree address (by simp [member])

theorem chain_read (after : Pointer) (left right : List (Nat × Value)) (address : Nat) (value : Value)
    (chain : Chain layout heap (left ++ (address, value) :: right) after) :
    ∃ cell, heap.cell address = some cell ∧ layout.value cell = value ∧ layout.next cell = firstOf right after :=
  ((chain_append after left _).mp chain).2.1

theorem chain_below (after : Pointer) (cells : List (Nat × Value)) (chain : Chain layout heap cells after)
    (address : Nat) (member : address ∈ addresses cells) : address < heap.bound := by
  obtain ⟨cell, inCells, rfl⟩ := List.mem_map.mp member
  obtain ⟨left, right, rfl⟩ := List.append_of_mem inCells
  obtain ⟨node, read, _⟩ := chain_read after left right cell.1 cell.2 chain
  exact heap.allocated_below cell.1 node read

theorem chain_modify_frame (after : Pointer) (cells : List (Nat × Value)) (target : Nat) (change : Cell → Cell)
    (chain : Chain layout heap cells after) (outside : target ∉ addresses cells) :
    Chain layout (heap.modify target change) cells after := by
  apply chain_frame _ after cells chain
  intro address member
  exact heap.modify_other target address change fun same => outside (same ▸ member)

theorem chain_erase_frame (after : Pointer) (cells : List (Nat × Value)) (target : Nat)
    (chain : Chain layout heap cells after) (outside : target ∉ addresses cells) :
    Chain layout (heap.erase target) cells after := by
  apply chain_frame _ after cells chain
  intro address member
  exact heap.erase_other target address fun same => outside (same ▸ member)

theorem chain_alloc_frame (after : Pointer) (cells : List (Nat × Value)) (fresh : Cell)
    (chain : Chain layout heap cells after) : Chain layout (heap.alloc fresh) cells after := by
  apply chain_frame _ after cells chain
  intro address member
  have below := chain_below after cells chain address member
  simp [Heap.alloc, Nat.ne_of_lt below]

theorem chain_set_back (after : Pointer) (address : Nat) (value : Value) (rest : List (Nat × Value))
    (change : Cell → Cell) (chain : Chain layout heap ((address, value) :: rest) after) (outside : address ∉ addresses rest)
    (changed : ∀ cell, layout.value (change cell) = layout.value cell ∧ layout.next (change cell) = layout.next cell) :
    Chain layout (heap.modify address change) ((address, value) :: rest) after := by
  obtain ⟨⟨node, read, carried, follows⟩, tail⟩ := chain
  obtain ⟨sameValue, sameNext⟩ := changed node
  refine ⟨⟨change node, by simp [read], sameValue.trans carried, sameNext.trans follows⟩, ?_⟩
  exact chain_modify_frame after rest address change tail outside

theorem chain_set_next (after fresh : Pointer) (left : List (Nat × Value)) (address : Nat) (value : Value)
    (change : Cell → Cell) (chain : Chain layout heap (left ++ [(address, value)]) after)
    (outside : address ∉ addresses left)
    (changed : ∀ cell, layout.value (change cell) = layout.value cell ∧ layout.next (change cell) = fresh) :
    Chain layout (heap.modify address change) (left ++ [(address, value)]) fresh := by
  rw [chain_append] at chain ⊢
  obtain ⟨front, ⟨node, read, carried, _⟩, _⟩ := chain
  obtain ⟨sameValue, newNext⟩ := changed node
  refine ⟨chain_modify_frame (some address) left address change front outside, ?_, trivial⟩
  exact ⟨change node, by simp [read], sameValue.trans carried, newNext⟩

theorem forward_length_bound (head : Pointer) (cells : List (Nat × Value)) (forward : Forward layout heap head cells) :
    cells.length ≤ heap.bound := by
  have inside : addresses cells ⊆ List.range heap.bound := by
    intro address member
    exact List.mem_range.mpr (chain_below none cells forward.chain address member)
  have counted := (List.subperm_of_subset forward.distinct inside).length_le
  simpa [addresses] using counted

end Chain

end Slogger.Lib
