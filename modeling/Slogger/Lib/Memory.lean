import Mathlib.Data.List.Basic
import Mathlib.Data.List.Perm.Subperm

set_option autoImplicit false

namespace Slogger.Lib

-- An address is the identity of one allocation, not a physical location: it is
-- never handed out twice, so a pointer to a freed object stays recognisable.
abbrev Pointer := Option Nat

-- What a C run can do instead of going on: read through NULL, use an object
-- that was freed, leave an array, read a slot nothing was stored in, divide by
-- zero, leave the range of an int, store into memory that is only to be read,
-- or stay for ever in a loop.
inductive Fault where
  | nullDeref
  | dangling
  | outside
  | unwritten
  | divideByZero
  | overflow
  | readOnly
  | loops
deriving DecidableEq, Repr

structure Heap (Cell : Type) where
  cell : Nat → Option Cell
  bound : Nat
  unallocated : ∀ address, bound ≤ address → cell address = none

namespace Heap

variable {Cell : Type}

def empty : Heap Cell := ⟨fun _ => none, 0, fun _ _ => rfl⟩

def alloc (heap : Heap Cell) (fresh : Cell) : Heap Cell where
  cell address := if address = heap.bound then some fresh else heap.cell address
  bound := heap.bound + 1
  unallocated address above := by
    have different : address ≠ heap.bound := Nat.ne_of_gt above
    rw [if_neg different]
    exact heap.unallocated address (Nat.le_of_succ_le above)

def modify (heap : Heap Cell) (target : Nat) (change : Cell → Cell) : Heap Cell where
  cell address := if address = target then (heap.cell address).map change else heap.cell address
  bound := heap.bound
  unallocated address above := by
    simp [heap.unallocated address above]

def erase (heap : Heap Cell) (target : Nat) : Heap Cell where
  cell address := if address = target then none else heap.cell address
  bound := heap.bound
  unallocated address above := by
    simp [heap.unallocated address above]

def deref (heap : Heap Cell) : Pointer → Except Fault Cell
  | none => .error .nullDeref
  | some address =>
      match heap.cell address with
      | none => .error .dangling
      | some cell => .ok cell

def assign (heap : Heap Cell) (target : Pointer) (change : Cell → Cell) : Except Fault (Heap Cell) :=
  match target with
  | none => .error .nullDeref
  | some address =>
      match heap.cell address with
      | none => .error .dangling
      | some _ => .ok (heap.modify address change)

-- free; free(NULL) does nothing.
def release (heap : Heap Cell) : Pointer → Except Fault (Heap Cell)
  | none => .ok heap
  | some address =>
      match heap.cell address with
      | none => .error .dangling
      | some _ => .ok (heap.erase address)

theorem allocated_below (heap : Heap Cell) (address : Nat) (cell : Cell)
    (read : heap.cell address = some cell) : address < heap.bound := by
  by_contra outside
  have absent := heap.unallocated address (by omega)
  rw [read] at absent
  cases absent

@[simp] theorem alloc_here (heap : Heap Cell) (fresh : Cell) :
    (heap.alloc fresh).cell heap.bound = some fresh := by
  simp [alloc]

theorem alloc_other (heap : Heap Cell) (fresh : Cell) (address : Nat) (cell : Cell)
    (read : heap.cell address = some cell) : (heap.alloc fresh).cell address = some cell := by
  have below := heap.allocated_below address cell read
  simp [alloc, Nat.ne_of_lt below, read]

@[simp] theorem modify_here (heap : Heap Cell) (target : Nat) (change : Cell → Cell) :
    (heap.modify target change).cell target = (heap.cell target).map change := by
  simp [modify]

theorem modify_other (heap : Heap Cell) (target address : Nat) (change : Cell → Cell)
    (different : address ≠ target) : (heap.modify target change).cell address = heap.cell address := by
  simp [modify, different]

theorem erase_other (heap : Heap Cell) (target address : Nat)
    (different : address ≠ target) : (heap.erase target).cell address = heap.cell address := by
  simp [erase, different]

theorem deref_read (heap : Heap Cell) (address : Nat) (cell : Cell)
    (read : heap.cell address = some cell) : heap.deref (some address) = .ok cell := by
  simp [deref, read]

@[simp] theorem assign_null (heap : Heap Cell) (change : Cell → Cell) :
    heap.assign none change = .error .nullDeref := rfl

theorem assign_read (heap : Heap Cell) (address : Nat) (cell : Cell) (change : Cell → Cell)
    (read : heap.cell address = some cell) :
    heap.assign (some address) change = .ok (heap.modify address change) := by
  simp [assign, read]

theorem release_read (heap : Heap Cell) (address : Nat) (cell : Cell)
    (read : heap.cell address = some cell) : heap.release (some address) = .ok (heap.erase address) := by
  simp [release, read]

end Heap

@[simp] theorem ok_bind {Failure α β : Type} (value : α) (rest : α → Except Failure β) :
    (Except.ok value >>= rest) = rest value := rfl

@[simp] theorem error_bind {Failure α β : Type} (fault : Failure) (rest : α → Except Failure β) :
    ((Except.error fault : Except Failure α) >>= rest) = .error fault := rfl

theorem bind_ok_iff {Failure α β : Type} (first : Except Failure α) (rest : α → Except Failure β) (result : β) :
    first >>= rest = .ok result ↔ ∃ value, first = .ok value ∧ rest value = .ok result := by
  cases first with
  | error fault => simp
  | ok value => simp

end Slogger.Lib
