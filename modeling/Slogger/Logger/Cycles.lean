import Slogger.Logger.Delivery

set_option autoImplicit false

namespace Slogger.Logger

open Slogger.Lib

-- Pushes come between slog_start's return and slog_stop, with room in the queue.
def polite (capacity : Nat) (state : LoggerState) : Label → Bool
  | .openLog opened => opened
  | .enqueue _ _ => state.main == .running && state.queue.size < capacity
  | _ => true

def Delivered (state : LoggerState) : Prop :=
  state.pushed = state.accepted ∧ (state.main = .stopped → state.file = fileBytes state.pushed)

instance : DecidablePred Delivered := fun state =>
  inferInstanceAs (Decidable (state.pushed = state.accepted ∧ (state.main = .stopped → state.file = fileBytes state.pushed)))

def PushesInFirstCycle (state : LoggerState) : Label → Prop
  | .enqueue _ _ => state.cycle = 0
  | _ => True

instance (state : LoggerState) : (label : Label) → Decidable (PushesInFirstCycle state label)
  | .enqueue _ _ => inferInstanceAs (Decidable (state.cycle = 0))
  | .createThread | .setCapacity | .allocate | .setShutdown | .signalDestroy | .join | .freeData | .again
  | .openLog _ | .dequeue | .write | .close | .report _ => isTrue trivial

def Valid (capacity : Nat) (state : LoggerState) : Prop := ∃ pending, LoggerInv capacity state pending

theorem polite_orderly (capacity : Nat) (state : LoggerState) (label : Label)
    (allowed : polite capacity state label = true) : orderly state label = true := by
  cases label with
  | openLog opened => exact allowed
  | enqueue thread data =>
      simp only [polite, Bool.and_eq_true, beq_iff_eq] at allowed
      rw [orderly, allowed.1]
      rfl
  | _ => rfl

theorem polite_step_valid (capacity : Nat) (state next : LoggerState) (label : Label) (valid : Valid capacity state)
    (stepped : under (polite capacity) (step capacity) state label = some next) : Valid capacity next := by
  obtain ⟨pending, inv⟩ := valid
  obtain ⟨allowed, stepped⟩ := (under_some _ _ state next label).mp stepped
  exact orderly_step_keeps capacity state next label pending inv (polite_orderly capacity state label allowed) stepped

theorem delivered_iff (capacity : Nat) (state : LoggerState) (valid : Valid capacity state) :
    Delivered state ↔ state.pushed = state.accepted := by
  obtain ⟨pending, inv⟩ := valid
  constructor
  · exact fun delivered => delivered.1
  · intro same
    refine ⟨same, fun stopped => ?_⟩
    rw [same]
    exact ended_complete capacity state pending inv (inv.joined (.inr stopped))

-- slog_stop sets the flag and slog_start does not clear it: in the first cycle a
-- push is stored, in every later one it is refused.
theorem push_stored_iff (capacity thread : Nat) (data : QueueData) (state next : LoggerState)
    (valid : Valid capacity state) (same : state.pushed = state.accepted)
    (stepped : under (polite capacity) (step capacity) state (.enqueue thread data) = some next) :
    next.pushed = next.accepted ↔ state.cycle = 0 := by
  obtain ⟨pending, inv⟩ := valid
  obtain ⟨allowed, stepped⟩ := (under_some _ _ state next _).mp stepped
  have started := polite_orderly capacity state _ allowed
  have taken := enqueue_refused_iff capacity state pending inv started
  simp only [polite, Bool.and_eq_true, beq_iff_eq, decide_eq_true_eq, inv.counted] at allowed
  have notFull : pending.length ≠ capacity := Nat.ne_of_lt allowed.2
  have stopping : state.queue.shutdown = true ↔ 0 < state.cycle := by
    simpa [allowed.1, stopRequested] using inv.stopping
  obtain ⟨pushed, ⟨refused, _, accepted, _, _⟩ | ⟨stored, accepted, _, _⟩⟩ :=
    enqueue_keeps capacity state next thread data pending inv started stepped
  · have shutdown := (taken.mp refused).resolve_left notFull
    have later := stopping.mp shutdown
    rw [pushed, accepted, same]
    constructor
    · intro equal
      simp at equal
    · intro first
      omega
  · rw [pushed, accepted, same]
    refine ⟨fun _ => ?_, fun _ => rfl⟩
    by_contra later
    have refused := taken.mpr (.inr (stopping.mpr (Nat.pos_of_ne_zero later)))
    rw [stored] at refused
    cases refused

theorem other_steps_deliver (capacity : Nat) (state next : LoggerState) (label : Label)
    (same : state.pushed = state.accepted) (other : ∀ thread data, label ≠ .enqueue thread data)
    (stepped : step capacity state label = some next) : next.pushed = next.accepted := by
  by_cases restarts : label = .again
  · subst restarts
    simp only [step, stepMain, Option.ite_none_right_eq_some, Option.some.injEq] at stepped
    obtain ⟨_, rfl⟩ := stepped
    rfl
  · obtain ⟨pushed, accepted⟩ := (step_frame capacity state next label restarts stepped).given other
    rw [pushed, accepted, same]

theorem delivered_step_iff (capacity : Nat) (state next : LoggerState) (label : Label) (valid : Valid capacity state)
    (delivered : Delivered state) (stepped : under (polite capacity) (step capacity) state label = some next) :
    Delivered next ↔ PushesInFirstCycle state label := by
  rw [delivered_iff capacity next (polite_step_valid capacity state next label valid stepped)]
  cases label with
  | enqueue thread data => exact push_stored_iff capacity thread data state next valid delivered.1 stepped
  | _ =>
      have ran := ((under_some _ _ state next _).mp stepped).2
      exact ⟨fun _ => trivial, fun _ => other_steps_deliver capacity state next _ delivered.1 (by simp) ran⟩

theorem cycles_deliver_iff_first (capacity : Nat) (labels : List Label) (positive : 0 < capacity) :
    Always Delivered LoggerState.initial
        (trace (under (polite capacity) (step capacity)) LoggerState.initial labels) ↔
      EveryStep PushesInFirstCycle LoggerState.initial
        (trace (under (polite capacity) (step capacity)) LoggerState.initial labels) := by
  apply always_iff_every_step
    (fun state label next => under (polite capacity) (step capacity) state label = some next) (Valid capacity)
  · intro state label next valid _ stepped
    exact polite_step_valid capacity state next label valid stepped
  · intro state label next valid delivered stepped allowed
    exact (delivered_step_iff capacity state next label valid delivered stepped).mpr allowed
  · intro state label next valid delivered stepped refused kept
    exact refused ((delivered_step_iff capacity state next label valid delivered stepped).mp kept)
  · exact trace_is_run (under (polite capacity) (step capacity)) LoggerState.initial labels
  · exact ⟨[], initial_inv capacity positive⟩
  · exact ⟨rfl, fun stopped => nomatch stopped⟩

def firstCycle : List Label :=
  slogStart ++ [.openLog true, .enqueue 0 (oneByte 97), .dequeue, .write] ++
    [.setShutdown, .signalDestroy, .dequeue, .close, .join, .freeData]

theorem first_cycle_delivered :
    Always Delivered LoggerState.initial
      (trace (under (polite queueCapacity) (step queueCapacity)) LoggerState.initial firstCycle) := by
  apply (cycles_deliver_iff_first queueCapacity firstCycle (by decide)).mpr
  decide +kernel

theorem second_cycle_refused :
    ¬ Always Delivered LoggerState.initial (trace (under (polite queueCapacity) (step queueCapacity)) LoggerState.initial
      (firstCycle ++ .again :: slogStart ++ [.enqueue 0 (oneByte 98)])) := by
  decide +kernel

end Slogger.Logger
