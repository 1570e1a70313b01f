import Slogger.Lib.Memory

set_option autoImplicit false

namespace Slogger.Lib

section Agreement

variable {State Model Label Failure : Type}

-- Two runs end the same way: both with related results, or with one fault.
def Agree (related : State → Model → Prop) : Except Failure State → Except Failure Model → Prop
  | .ok state, .ok model => related state model
  | .error fault, .error other => fault = other
  | _, _ => False

theorem agree_bind {After Later : Type} (related : State → Model → Prop) (afterwards : After → Later → Prop)
    (first : Except Failure State) (second : Except Failure Model) (next : State → Except Failure After)
    (other : Model → Except Failure Later) (agree : Agree related first second)
    (rest : ∀ state model, related state model → Agree afterwards (next state) (other model)) :
    Agree afterwards (first >>= next) (second >>= other) := by
  cases first with
  | error fault =>
      cases second with
      | error same => exact agree
      | ok model => exact absurd agree id
  | ok state =>
      cases second with
      | error fault => exact absurd agree id
      | ok model => exact rest state model agree

theorem agree_runs (exec : State → Label → Except Failure State) (model : Model → Label → Except Failure Model)
    (allowed : Label → Prop) (related : State → Model → Prop)
    (step : ∀ state shadow label, allowed label → related state shadow →
      Agree related (exec state label) (model shadow label))
    (state : State) (shadow : Model) (labels : List Label) (all : ∀ label ∈ labels, allowed label)
    (start : related state shadow) : Agree related (labels.foldlM exec state) (labels.foldlM model shadow) := by
  induction labels generalizing state shadow with
  | nil => exact start
  | cons label rest ih =>
      rw [List.foldlM_cons, List.foldlM_cons]
      apply agree_bind related related _ _ _ _ (step state shadow label (all label List.mem_cons_self) start)
      intro next after here
      exact ih next after (fun later member => all later (List.mem_cons_of_mem label member)) here

theorem agree_map (related : State → Model → Prop) (image : Model → State)
    (determined : ∀ state model, related state model → state = image model) (first : Except Failure State)
    (second : Except Failure Model) (agree : Agree related first second) : first = second.map image := by
  cases first with
  | error fault =>
      cases second with
      | error same => exact congrArg Except.error agree
      | ok model => exact absurd agree id
  | ok state =>
      cases second with
      | error fault => exact absurd agree id
      | ok model => exact congrArg Except.ok (determined state model agree)

end Agreement

end Slogger.Lib
