import Mathlib.Logic.Basic

set_option autoImplicit false

namespace Slogger.Lib

abbrev Table (Object : Type) := Nat → Option Object

namespace Table

variable {Object : Type}

def install (table : Table Object) (fd : Nat) (object : Object) : Table Object :=
  fun other => if other = fd then some object else table other

def close (table : Table Object) (fd : Nat) : Table Object := fun other => if other = fd then none else table other

-- dup2 of a descriptor that is not open fails and changes nothing.
def dup2 (table : Table Object) (old new : Nat) : Table Object :=
  match table old with
  | some object => table.install new object
  | none => table

def Holds (table : Table Object) (object : Object) : Prop := ∃ fd, table fd = some object

def Single (table : Table Object) (object : Object) : Prop :=
  ∀ fd other, table fd = some object → table other = some object → fd = other

theorem install_here (table : Table Object) (fd : Nat) (object : Object) : table.install fd object fd = some object :=
  if_pos rfl

theorem install_other (table : Table Object) (fd other : Nat) (object : Object) (different : other ≠ fd) :
    table.install fd object other = table other := if_neg different

theorem close_here (table : Table Object) (fd : Nat) : table.close fd fd = none := if_pos rfl

theorem close_other (table : Table Object) (fd other : Nat) (different : other ≠ fd) :
    table.close fd other = table other := if_neg different

theorem install_some (table : Table Object) (fd other : Nat) (object sought : Object) :
    table.install fd object other = some sought ↔
      (other = fd ∧ object = sought) ∨ (other ≠ fd ∧ table other = some sought) := by
  by_cases same : other = fd
  · rw [same, table.install_here]
    simp
  · rw [table.install_other fd other object same]
    simp [same]

theorem close_some (table : Table Object) (fd other : Nat) (sought : Object) :
    table.close fd other = some sought ↔ other ≠ fd ∧ table other = some sought := by
  by_cases same : other = fd
  · rw [same, table.close_here]
    simp
  · rw [table.close_other fd other same]
    simp [same]

theorem install_free (table : Table Object) (fd other : Nat) (object sought : Object) (free : table fd = none) :
    table.install fd object other = some sought ↔ (other = fd ∧ object = sought) ∨ table other = some sought := by
  rw [table.install_some]
  constructor
  · exact Or.imp_right And.right
  · rintro (here | before)
    · exact Or.inl here
    · refine Or.inr ⟨?_, before⟩
      rintro rfl
      cases free.symm.trans before

theorem install_holds (table : Table Object) (fd : Nat) (object sought : Object) (kept : table fd ≠ some sought) :
    (table.install fd object).Holds sought ↔ object = sought ∨ table.Holds sought := by
  constructor
  · rintro ⟨other, read⟩
    rcases (table.install_some fd other object sought).mp read with ⟨_, same⟩ | ⟨_, before⟩
    · exact Or.inl same
    · exact Or.inr ⟨other, before⟩
  · rintro (rfl | ⟨other, before⟩)
    · exact ⟨fd, table.install_here fd object⟩
    · have different : other ≠ fd := by
        rintro rfl
        exact kept before
      exact ⟨other, (table.install_some fd other object sought).mpr (Or.inr ⟨different, before⟩)⟩

theorem close_holds (table : Table Object) (fd : Nat) (object sought : Object) (here : table fd = some object)
    (single : table.Single object) : (table.close fd).Holds sought ↔ table.Holds sought ∧ sought ≠ object := by
  constructor
  · rintro ⟨other, read⟩
    obtain ⟨different, before⟩ := (table.close_some fd other sought).mp read
    refine ⟨⟨other, before⟩, ?_⟩
    rintro rfl
    exact different (single other fd before here)
  · rintro ⟨⟨other, before⟩, different⟩
    refine ⟨other, (table.close_some fd other sought).mpr ⟨?_, before⟩⟩
    rintro rfl
    exact different (Option.some.inj (before.symm.trans here))

theorem dup2_holds (table : Table Object) (old new : Nat) (object sought : Object) (here : table old = some object)
    (kept : table new ≠ some sought) : (table.dup2 old new).Holds sought ↔ table.Holds sought := by
  rw [dup2, here]
  rw [table.install_holds new object sought kept]
  constructor
  · rintro (rfl | before)
    · exact ⟨old, here⟩
    · exact before
  · exact Or.inr

theorem close_single (table : Table Object) (fd : Nat) (sought : Object) (single : table.Single sought) :
    (table.close fd).Single sought := by
  intro first second readFirst readSecond
  have one := (table.close_some fd first sought).mp readFirst
  have two := (table.close_some fd second sought).mp readSecond
  exact single first second one.2 two.2

end Table

end Slogger.Lib
