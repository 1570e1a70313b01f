import Mathlib.Tactic.ByContra

set_option autoImplicit false

namespace Slogger.Lib

section Mutex

variable {Party : Type}

def Guards (mutex : Option Party) (inside : Party → Bool) : Prop := ∀ party, inside party = true ↔ mutex = some party

theorem guards_alone (mutex : Option Party) (inside : Party → Bool) (guards : Guards mutex inside)
    (party other : Party) (here : inside party = true) (there : inside other = true) : party = other :=
  Option.some.inj (((guards party).mp here).symm.trans ((guards other).mp there))

theorem guards_kept (mutex : Option Party) (inside after : Party → Bool) (mover : Party) (guards : Guards mutex inside)
    (same : after mover = inside mover) (others : ∀ party, party ≠ mover → after party = inside party) :
    Guards mutex after := by
  intro party
  by_cases moves : party = mover
  · rw [moves, same]
    exact guards mover
  · rw [others party moves]
    exact guards party

theorem guards_entered (inside after : Party → Bool) (mover : Party) (guards : Guards none inside)
    (entered : after mover = true) (others : ∀ party, party ≠ mover → after party = inside party) :
    Guards (some mover) after := by
  intro party
  rw [Option.some.injEq]
  constructor
  · intro here
    by_contra different
    have before := (guards party).mp ((others party (Ne.symm different)).symm.trans here)
    cases before
  · intro same
    rw [← same]
    exact entered

theorem guards_left (mutex : Option Party) (inside after : Party → Bool) (mover : Party) (guards : Guards mutex inside)
    (held : inside mover = true) (left : after mover = false)
    (others : ∀ party, party ≠ mover → after party = inside party) : Guards none after := by
  intro party
  have outside : after party = false := by
    by_cases moves : party = mover
    · rw [moves, left]
    · rw [others party moves]
      by_contra here
      exact moves (guards_alone mutex inside guards party mover (by simpa using here) held)
  simp [outside]

end Mutex

end Slogger.Lib
