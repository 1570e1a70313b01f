import Mathlib.Tactic.ByContra

set_option autoImplicit false

namespace Slogger.Lib

section Runs

variable {State Label : Type}

abbrev Run (State Label : Type) := List (Label × State)

def IsRun (step : State → Label → State → Prop) : State → Run State Label → Prop
  | _, [] => True
  | state, (label, next) :: rest => step state label next ∧ IsRun step next rest

def Always (good : State → Prop) : State → Run State Label → Prop
  | state, [] => good state
  | state, (_, next) :: rest => good state ∧ Always good next rest

def EveryStep (allowed : State → Label → Prop) : State → Run State Label → Prop
  | _, [] => True
  | state, (label, next) :: rest => allowed state label ∧ EveryStep allowed next rest

instance alwaysDecidable (good : State → Prop) [DecidablePred good] :
    (state : State) → (run : Run State Label) → Decidable (Always good state run)
  | state, [] => inferInstanceAs (Decidable (good state))
  | state, (_, next) :: rest =>
      haveI := alwaysDecidable good next rest
      inferInstanceAs (Decidable (good state ∧ Always good next rest))

instance everyStepDecidable (allowed : State → Label → Prop) [∀ state label, Decidable (allowed state label)] :
    (state : State) → (run : Run State Label) → Decidable (EveryStep allowed state run)
  | _, [] => isTrue trivial
  | state, (label, next) :: rest =>
      haveI := everyStepDecidable allowed next rest
      inferInstanceAs (Decidable (allowed state label ∧ EveryStep allowed next rest))

def finish : State → Run State Label → State
  | state, [] => state
  | _, (_, next) :: rest => finish next rest

def under (allowed : State → Label → Bool) (exec : State → Label → Option State) (state : State) (label : Label) :
    Option State :=
  if allowed state label then exec state label else none

theorem under_some (allowed : State → Label → Bool) (exec : State → Label → Option State) (state next : State)
    (label : Label) : under allowed exec state label = some next ↔ allowed state label = true ∧ exec state label = some next :=
  Option.ite_none_right_eq_some

-- The run a deterministic system makes on these labels, up to the first one it
-- cannot take.
def trace (exec : State → Label → Option State) : State → List Label → Run State Label
  | _, [] => []
  | state, label :: rest =>
      match exec state label with
      | some next => (label, next) :: trace exec next rest
      | none => []

theorem trace_is_run (exec : State → Label → Option State) (state : State) (labels : List Label) :
    IsRun (fun state label next => exec state label = some next) state (trace exec state labels) := by
  induction labels generalizing state with
  | nil => trivial
  | cons label rest ih =>
      rw [trace]
      split
      · rename_i next ran
        exact ⟨ran, ih next⟩
      · trivial

theorem finish_trace (exec : State → Label → Option State) (state last : State) (labels : List Label)
    (ran : labels.foldlM exec state = some last) : finish state (trace exec state labels) = last := by
  induction labels generalizing state with
  | nil => exact Option.some.inj ran
  | cons label rest ih =>
      rw [List.foldlM_cons] at ran
      obtain ⟨next, stepped, later⟩ := Option.bind_eq_some_iff.mp ran
      rw [trace, stepped]
      exact ih next later

theorem always_first (good : State → Prop) (state : State) (run : Run State Label)
    (always : Always good state run) : good state := by
  cases run with
  | nil => exact always
  | cons entry rest => exact always.1

theorem always_finish (good : State → Prop) (state : State) (run : Run State Label)
    (always : Always good state run) : good (finish state run) := by
  induction run generalizing state with
  | nil => exact always
  | cons entry rest ih => exact ih entry.2 always.2

theorem run_invariant (step : State → Label → State → Prop) (good : State → Prop)
    (keep : ∀ state label next, good state → step state label next → good next)
    (state : State) (run : Run State Label) (isRun : IsRun step state run) (start : good state) :
    Always good state run := by
  induction run generalizing state with
  | nil => exact start
  | cons entry rest ih =>
      exact ⟨start, ih entry.2 isRun.2 (keep state entry.1 entry.2 start isRun.1)⟩

theorem every_step_invariant (step : State → Label → State → Prop) (good : State → Prop)
    (allowed : State → Label → Prop)
    (keep : ∀ state label next, good state → step state label next → allowed state label → good next)
    (state : State) (run : Run State Label) (isRun : IsRun step state run) (start : good state)
    (every : EveryStep allowed state run) : Always good state run := by
  induction run generalizing state with
  | nil => exact start
  | cons entry rest ih =>
      have next := keep state entry.1 entry.2 start isRun.1 every.1
      exact ⟨start, ih entry.2 isRun.2 next every.2⟩

theorem always_imp (strong weak : State → Prop) (weaken : ∀ state, strong state → weak state) (state : State)
    (run : Run State Label) (always : Always strong state run) : Always weak state run := by
  induction run generalizing state with
  | nil => exact weaken state always
  | cons entry rest ih => exact ⟨weaken state always.1, ih entry.2 always.2⟩

theorem run_follows (step law : State → Label → State → Prop) (inv : State → Prop)
    (keep : ∀ state label next, inv state → step state label next → inv next)
    (obey : ∀ state label next, inv state → step state label next → law state label next)
    (state : State) (run : Run State Label) (isRun : IsRun step state run) (start : inv state) :
    IsRun law state run := by
  induction run generalizing state with
  | nil => trivial
  | cons entry rest ih =>
      have next := keep state entry.1 entry.2 start isRun.1
      exact ⟨obey state entry.1 entry.2 start isRun.1, ih entry.2 isRun.2 next⟩

theorem always_every_step (step : State → Label → State → Prop) (good : State → Prop) (allowed : State → Label → Prop)
    (permits : ∀ state label next, good state → step state label next → allowed state label) (state : State)
    (run : Run State Label) (isRun : IsRun step state run) (always : Always good state run) :
    EveryStep allowed state run := by
  induction run generalizing state with
  | nil => trivial
  | cons entry rest ih =>
      exact ⟨permits state entry.1 entry.2 always.1 isRun.1, ih entry.2 isRun.2 always.2⟩

theorem every_step_imp (step : State → Label → State → Prop) (good : State → Prop) (allowed permitted : State → Label → Prop)
    (imp : ∀ state label next, good state → step state label next → allowed state label → permitted state label)
    (state : State) (run : Run State Label) (isRun : IsRun step state run) (always : Always good state run)
    (every : EveryStep allowed state run) : EveryStep permitted state run := by
  induction run generalizing state with
  | nil => trivial
  | cons entry rest ih =>
      exact ⟨imp state entry.1 entry.2 always.1 isRun.1 every.1, ih entry.2 isRun.2 always.2 every.2⟩

theorem always_invariant (step : State → Label → State → Prop) (inv good : State → Prop)
    (invariant : ∀ state label next, inv state → good state → step state label next → inv next)
    (state : State) (run : Run State Label) (isRun : IsRun step state run) (start : inv state)
    (always : Always good state run) : Always inv state run := by
  induction run generalizing state with
  | nil => exact start
  | cons entry rest ih =>
      have next := invariant state entry.1 entry.2 start always.1 isRun.1
      exact ⟨start, ih entry.2 isRun.2 next always.2⟩

-- The exact condition for a property of all states: under an invariant, each
-- allowed step keeps the property and each other step breaks it.
theorem always_iff_every_step (step : State → Label → State → Prop) (inv good : State → Prop)
    (allowed : State → Label → Prop)
    (invariant : ∀ state label next, inv state → good state → step state label next → inv next)
    (keep : ∀ state label next, inv state → good state → step state label next →
      allowed state label → good next)
    (lose : ∀ state label next, inv state → good state → step state label next →
      ¬ allowed state label → ¬ good next)
    (state : State) (run : Run State Label) (isRun : IsRun step state run)
    (start : inv state) (first : good state) :
    Always good state run ↔ EveryStep allowed state run := by
  induction run generalizing state with
  | nil => exact ⟨fun _ => trivial, fun _ => first⟩
  | cons entry rest ih =>
      have next := invariant state entry.1 entry.2 start first isRun.1
      constructor
      · intro always
        have kept := always_first good entry.2 rest always.2
        have permitted : allowed state entry.1 := by
          by_contra refused
          exact lose state entry.1 entry.2 start first isRun.1 refused kept
        exact ⟨permitted, (ih entry.2 isRun.2 next kept).mp always.2⟩
      · intro every
        have kept := keep state entry.1 entry.2 start first isRun.1 every.1
        exact ⟨first, (ih entry.2 isRun.2 next kept).mpr every.2⟩

end Runs

end Slogger.Lib
