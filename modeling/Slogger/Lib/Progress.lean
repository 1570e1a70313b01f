import Slogger.Lib.Runs

set_option autoImplicit false

namespace Slogger.Lib

section Progress

variable {State Label : Type}

def countSteps (counted : Label → Bool) : Run State Label → Nat
  | [] => 0
  | (label, _) :: rest => (if counted label then 1 else 0) + countSteps counted rest

-- Each step but the charged ones pays for itself out of the measure, and a
-- charged one puts at most its price back.
theorem paid_steps (step : State → Label → State → Prop) (inv : State → Prop) (measure : State → Nat)
    (charged : Label → Bool) (price : Nat)
    (keep : ∀ state label next, inv state → step state label next → inv next)
    (charge : ∀ state label next, inv state → step state label next → charged label = true →
      measure next ≤ measure state + price)
    (pay : ∀ state label next, inv state → step state label next → charged label = false →
      measure next < measure state)
    (state : State) (run : Run State Label) (isRun : IsRun step state run) (start : inv state) :
    countSteps (fun label => !charged label) run + measure (finish state run) ≤
      measure state + price * countSteps charged run := by
  induction run generalizing state with
  | nil => simp [countSteps, finish]
  | cons entry rest ih =>
      obtain ⟨label, next⟩ := entry
      have later := ih next isRun.2 (keep state label next start isRun.1)
      cases kind : charged label with
      | true =>
          have added := charge state label next start isRun.1 kind
          simp only [countSteps, finish, kind, Bool.not_true, Bool.false_eq_true, if_false, if_true, Nat.mul_add]
          omega
      | false =>
          have spent := pay state label next start isRun.1 kind
          simp only [countSteps, finish, kind, Bool.not_false, Bool.false_eq_true, if_false, if_true, Nat.zero_add]
          omega

end Progress

end Slogger.Lib
