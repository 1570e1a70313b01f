import Mathlib.Logic.Equiv.Basic
import Slogger.Lib.Memory

set_option autoImplicit false

namespace Slogger.Lib

theorem heap_ext {Cell : Type} (first second : Heap Cell) (cells : ∀ address, first.cell address = second.cell address)
    (bounds : first.bound = second.bound) : first = second := by
  obtain ⟨cell, bound, _⟩ := first
  obtain ⟨other, limit, _⟩ := second
  obtain rfl : cell = other := funext cells
  obtain rfl : bound = limit := bounds
  rfl

theorem alloc_elsewhere {Cell : Type} (heap : Heap Cell) (fresh : Cell) (address : Nat) (different : address ≠ heap.bound) :
    (heap.alloc fresh).cell address = heap.cell address := if_neg different

section Owned

variable {Slot Cell : Type} (heap : Heap Cell) (slots : Slot → Pointer)

structure Owns : Prop where
  apart : ∀ slot other address, slots slot = some address → slots other = some address → slot = other
  exactly : ∀ address, (heap.cell address).isSome = true ↔ ∃ slot, slots slot = some address

variable {heap slots} (owns : Owns heap slots)

include owns

theorem slot_live (slot : Slot) (address : Nat) (here : slots slot = some address) :
    ∃ cell, heap.cell address = some cell :=
  Option.isSome_iff_exists.mp ((owns.exactly address).mpr ⟨slot, here⟩)

theorem slot_below (slot : Slot) (address : Nat) (here : slots slot = some address) : address < heap.bound := by
  obtain ⟨cell, read⟩ := slot_live owns slot address here
  exact heap.allocated_below address cell read

theorem owns_once (address : Nat) (cell : Cell) (live : heap.cell address = some cell) :
    ∃! slot, slots slot = some address := by
  obtain ⟨slot, here⟩ := (owns.exactly address).mp (Option.isSome_iff_exists.mpr ⟨cell, live⟩)
  exact ⟨slot, here, fun other there => owns.apart other slot address there here⟩

theorem owns_exchange (places : Equiv.Perm Slot) : Owns heap (slots ∘ places) where
  apart first second address here there := places.injective (owns.apart _ _ address here there)
  exactly address := by
    rw [owns.exactly]
    constructor
    · rintro ⟨holder, here⟩
      exact ⟨places.symm holder, by simpa using here⟩
    · rintro ⟨holder, here⟩
      exact ⟨places holder, here⟩

variable [DecidableEq Slot]

theorem owns_alloc (slot : Slot) (fresh : Cell) (free : slots slot = none) :
    Owns (heap.alloc fresh) (Function.update slots slot (some heap.bound)) where
  apart first second address here there := by
    by_cases new : first = slot <;> by_cases also : second = slot
    · rw [new, also]
    · rw [new, Function.update_self] at here
      rw [Function.update_of_ne also] at there
      have below := slot_below owns second address there
      obtain rfl := Option.some.inj here
      omega
    · rw [also, Function.update_self] at there
      rw [Function.update_of_ne new] at here
      have below := slot_below owns first address here
      obtain rfl := Option.some.inj there
      omega
    · rw [Function.update_of_ne new] at here
      rw [Function.update_of_ne also] at there
      exact owns.apart first second address here there
  exactly address := by
    by_cases new : address = heap.bound
    · subst new
      simp only [heap.alloc_here, Option.isSome_some, true_iff]
      exact ⟨slot, Function.update_self _ _ _⟩
    · rw [alloc_elsewhere heap fresh address new, owns.exactly]
      constructor
      · rintro ⟨holder, here⟩
        refine ⟨holder, ?_⟩
        rw [Function.update_of_ne (by rintro rfl; rw [free] at here; cases here)]
        exact here
      · rintro ⟨holder, here⟩
        by_cases same : holder = slot
        · rw [same, Function.update_self] at here
          exact absurd (Option.some.inj here).symm new
        · rw [Function.update_of_ne same] at here
          exact ⟨holder, here⟩

theorem emptied_slots (slot : Slot) (target : Nat) (full : slots slot = some target) (holder : Slot) (address : Nat) :
    Function.update slots slot none holder = some address ↔ slots holder = some address ∧ address ≠ target := by
  by_cases same : holder = slot
  · subst same
    rw [Function.update_self, full]
    simp [eq_comm]
  · rw [Function.update_of_ne same]
    refine ⟨fun here => ⟨here, fun alike => same (owns.apart holder slot target (alike ▸ here) full)⟩, fun both => both.1⟩

theorem owns_release (slot : Slot) (target : Nat) (full : slots slot = some target) :
    Owns (heap.erase target) (Function.update slots slot none) where
  apart first second address here there := by
    rw [emptied_slots owns slot target full] at here there
    exact owns.apart first second address here.1 there.1
  exactly address := by
    simp only [emptied_slots owns slot target full]
    by_cases same : address = target
    · simp [Heap.erase, same]
    · rw [heap.erase_other target address same, owns.exactly]
      simp [same]

end Owned

end Slogger.Lib
