import Slogger.Lib.Simulation
import Slogger.Logger.Delivery

set_option autoImplicit false

namespace Slogger.Logger

open Slogger.Lib

-- One life of the log system whose file does not open: logging_thread returns at
-- once.
def unopened (state : LoggerState) : Label → Bool
  | .openLog opened => !opened
  | .enqueue _ _ => slogStarted state.main
  | .again => false
  | _ => true

-- To the other threads the logging thread that has returned is one that has not
-- come to its fopen.
def notYetOpened (state : LoggerState) : LoggerState :=
  { state with logger := if state.logger = .ended then .opening else state.logger }

def behindJoin (main : MainPc) : Bool :=
  match main with
  | .freeing | .stopped => true
  | _ => false

structure UnopenedInv (capacity : Nat) (state : LoggerState) : Prop where
  safe : state.fault = none
  file : state.file = []
  logger : state.logger = .absent ∨ state.logger = .opening ∨ state.logger = .ended
  running : behindJoin state.main = false → LoggerInv capacity (notYetOpened state) state.accepted
  stopped : behindJoin state.main = true → state.queue.shutdown = true
  order : state.accepted <+: state.pushed
  within : state.accepted.length ≤ capacity
  filled : state.queue.shutdown = false → state.accepted.length = min capacity state.pushed.length

theorem initial_unopened_inv (capacity : Nat) (positive : 0 < capacity) : UnopenedInv capacity LoggerState.initial where
  safe := rfl
  file := rfl
  logger := Or.inl rfl
  running := fun _ => initial_inv capacity positive
  stopped := nofun
  order := List.prefix_refl _
  within := Nat.zero_le _
  filled := fun _ => (Nat.min_zero capacity).symm

theorem producer_unaware (state next : LoggerState) (label : Label) (stepped : stepProducer state label = some next) :
    next.logger = state.logger ∧ next.main = state.main ∧ next.file = state.file ∧
      stepProducer (notYetOpened state) label = some (notYetOpened next) := by
  have moves : ∀ thread pc, setProducer (notYetOpened state) thread pc = setProducer state thread pc := fun _ _ => rfl
  cases label with
  | enqueue thread data =>
      simp only [stepProducer, notYetOpened] at stepped moves ⊢
      repeat' split at stepped
      all_goals cases stepped
      all_goals simp_all
  | report thread =>
      simp only [stepProducer, notYetOpened] at stepped moves ⊢
      split at stepped
      all_goals cases stepped
      all_goals simp_all
  | _ => cases stepped

section Steps

variable (capacity : Nat) (state next : LoggerState)

theorem refused_unopened (data : QueueData) (inv : UnopenedInv capacity state)
    (running : behindJoin next.main = false → LoggerInv capacity (notYetOpened next) next.accepted)
    (logger : next.logger = state.logger) (main : next.main = state.main) (file : next.file = state.file)
    (safe : next.fault = none) (queue : next.queue = state.queue) (accepted : next.accepted = state.accepted)
    (pushed : next.pushed = state.pushed ++ [data])
    (full : state.queue.shutdown = false → state.accepted.length = capacity) : UnopenedInv capacity next where
  safe := safe
  file := file.trans inv.file
  logger := by rw [logger]; exact inv.logger
  running := running
  stopped := by rw [main, queue]; exact inv.stopped
  order := by rw [accepted, pushed]; exact inv.order.trans (List.prefix_append _ _)
  within := by rw [accepted]; exact inv.within
  filled := by
    intro going
    rw [queue] at going
    have before := inv.filled going
    have here := full going
    rw [accepted, pushed, List.length_append]
    omega

theorem stored_unopened (data : QueueData) (inv : UnopenedInv capacity state)
    (running : LoggerInv capacity (notYetOpened next) next.accepted) (logger : next.logger = state.logger)
    (main : next.main = state.main) (file : next.file = state.file) (going : state.queue.shutdown = false)
    (accepted : next.accepted = state.accepted ++ [data]) (pushed : next.pushed = state.pushed ++ [data])
    (space : state.accepted.length < capacity) : UnopenedInv capacity next := by
  have filled := inv.filled going
  have all : state.accepted = state.pushed := inv.order.eq_of_length (by omega)
  refine ⟨running.safe, file.trans inv.file, ?_, fun _ => running, ?_, ?_, ?_, fun _ => ?_⟩
  · rw [logger]
    exact inv.logger
  · rw [main]
    intro behind
    cases going.symm.trans (inv.stopped behind)
  · have same : next.accepted = next.pushed := by rw [accepted, pushed, all]
    exact ⟨[], (List.append_nil _).trans same⟩
  · rw [accepted, List.length_append]
    exact space
  · rw [accepted, pushed, List.length_append, List.length_append]
    simp only [List.length_singleton]
    omega

theorem enqueue_unopened (thread : Nat) (data : QueueData) (inv : UnopenedInv capacity state)
    (started : slogStarted state.main = true) (stepped : stepProducer state (.enqueue thread data) = some next) :
    UnopenedInv capacity next := by
  obtain ⟨logger, main, file, unaware⟩ := producer_unaware state next _ stepped
  cases behind : behindJoin state.main with
  | false =>
      have held := inv.running behind
      have open' := enqueue_refused_iff capacity (notYetOpened state) state.accepted held started
      obtain ⟨pushed, ⟨refused, queue, accepted, _, kept⟩ | ⟨stored, accepted, _, kept⟩⟩ :=
        enqueue_keeps capacity (notYetOpened state) (notYetOpened next) thread data state.accepted held started unaware
      · have same : next.accepted = state.accepted := accepted
        refine refused_unopened capacity state next data inv (fun _ => by rw [same]; exact kept) logger main file
          kept.safe queue accepted pushed fun going => ?_
        exact (open'.mp refused).resolve_right (by rw [notYetOpened, going]; exact Bool.false_ne_true)
      · have longer : next.accepted = state.accepted ++ [data] := accepted
        have both := mt open'.mpr (by rw [stored]; exact Bool.false_ne_true)
        obtain ⟨notFull, going⟩ := not_or.mp both
        exact stored_unopened capacity state next data inv (by rw [longer]; exact kept) logger main file
          (by simpa [notYetOpened] using going) accepted pushed (Nat.lt_of_le_of_ne inv.within notFull)
  | true =>
      have shutdown := inv.stopped behind
      have refused : refuses state.queue = true := by simp [refuses, shutdown]
      simp only [stepProducer] at stepped
      split at stepped
      · cases stepped
      · rw [if_pos refused] at stepped
        cases stepped
        refine refused_unopened capacity state _ data inv (fun early => ?_) rfl rfl rfl inv.safe rfl rfl rfl
          fun going => ?_
        · cases behind.symm.trans early
        · cases going.symm.trans shutdown

theorem report_unopened (thread : Nat) (inv : UnopenedInv capacity state)
    (stepped : stepProducer state (.report thread) = some next) : UnopenedInv capacity next := by
  obtain ⟨_, _, _, unaware⟩ := producer_unaware state next _ stepped
  have kept : behindJoin state.main = false → LoggerInv capacity (notYetOpened next) state.accepted := fun early =>
    report_keeps capacity (notYetOpened state) (notYetOpened next) thread state.accepted (inv.running early) unaware
  simp only [stepProducer] at stepped
  split at stepped
  · cases stepped
    exact { inv with running := kept }
  · cases stepped

-- main goes on as if the thread had not come to its fopen, until its join finds
-- that it has returned.
theorem main_unopened (label : Label) (inv : UnopenedInv capacity state) (other : label ≠ .again)
    (stepped : stepMain capacity state label = some next) : UnopenedInv capacity next := by
  cases label with
  | createThread =>
      simp only [stepMain, Option.ite_none_right_eq_some, Option.some.injEq] at stepped
      obtain ⟨here, rfl⟩ := stepped
      have held := inv.running (by rw [here]; rfl)
      have kept := create_keeps capacity (notYetOpened state) state.accepted held here
      exact
        { inv with
          logger := Or.inr (Or.inl rfl)
          running := fun _ => kept
          stopped := fun behind => absurd behind Bool.false_ne_true }
  | setCapacity =>
      simp only [stepMain, Option.ite_none_right_eq_some, Option.some.injEq] at stepped
      obtain ⟨here, rfl⟩ := stepped
      have held := inv.running (by rw [here]; rfl)
      have kept := set_capacity_keeps capacity (notYetOpened state) state.accepted held here
      exact { inv with running := fun _ => kept, stopped := fun behind => absurd behind Bool.false_ne_true }
  | allocate =>
      simp only [stepMain, Option.ite_none_right_eq_some, Option.some.injEq] at stepped
      obtain ⟨here, rfl⟩ := stepped
      have held := inv.running (by rw [here]; rfl)
      have kept := allocate_keeps capacity (notYetOpened state) state.accepted held here
      exact { inv with running := fun _ => kept, stopped := fun behind => absurd behind Bool.false_ne_true }
  | setShutdown =>
      simp only [stepMain, Option.ite_none_right_eq_some, Option.some.injEq] at stepped
      obtain ⟨here, rfl⟩ := stepped
      have held := inv.running (by rw [here]; rfl)
      have kept := set_shutdown_keeps capacity (notYetOpened state) state.accepted held here
      exact
        { inv with
          running := fun _ => kept
          stopped := fun behind => absurd behind Bool.false_ne_true
          filled := fun going => absurd going.symm Bool.false_ne_true }
  | signalDestroy =>
      simp only [stepMain, Option.ite_none_right_eq_some, Option.some.injEq] at stepped
      obtain ⟨here, rfl⟩ := stepped
      have held := inv.running (by rw [here]; rfl)
      have kept := main_keeps capacity (notYetOpened state) { notYetOpened state with main := .joining } .signalDestroy
        state.accepted held (if_pos here)
      exact { inv with running := fun _ => kept, stopped := fun behind => absurd behind Bool.false_ne_true }
  | join =>
      simp only [stepMain, Option.ite_none_right_eq_some, Option.some.injEq] at stepped
      obtain ⟨⟨here, _⟩, rfl⟩ := stepped
      have held := inv.running (by rw [here]; rfl)
      have shutdown : state.queue.shutdown = true := held.stopping.mpr (Or.inr (by rw [notYetOpened, here]; rfl))
      exact { inv with running := fun early => absurd early.symm Bool.false_ne_true, stopped := fun _ => shutdown }
  | freeData =>
      simp only [stepMain, Option.ite_none_right_eq_some, Option.some.injEq] at stepped
      obtain ⟨here, rfl⟩ := stepped
      have shutdown := inv.stopped (by rw [here]; rfl)
      exact { inv with running := fun early => absurd early.symm Bool.false_ne_true, stopped := fun _ => shutdown }
  | again => exact absurd rfl other
  | openLog | dequeue | write | close | enqueue | report => cases stepped

theorem logger_unopened (label : Label) (inv : UnopenedInv capacity state) (failing : label ≠ .openLog true)
    (stepped : stepLogger state label = some next) : UnopenedInv capacity next := by
  cases label with
  | openLog opened =>
      cases opened with
      | true => exact absurd rfl failing
      | false =>
          simp only [stepLogger, Option.ite_none_right_eq_some, Bool.false_eq_true, if_false, Option.some.injEq]
            at stepped
          obtain ⟨here, rfl⟩ := stepped
          have same : notYetOpened { state with logger := .ended } = notYetOpened state := by simp [notYetOpened, here]
          exact
            { inv with
              logger := Or.inr (Or.inr rfl)
              running := fun early => by rw [same]; exact inv.running early }
  | dequeue | write | close =>
      rcases inv.logger with here | here | here <;> simp [stepLogger, here] at stepped
  | _ => cases stepped

end Steps

theorem unopened_step_keeps (capacity : Nat) (state : LoggerState) (label : Label) (next : LoggerState)
    (inv : UnopenedInv capacity state) (stepped : under unopened (step capacity) state label = some next) :
    UnopenedInv capacity next := by
  obtain ⟨allowed, moved⟩ := (under_some _ _ _ _ _).mp stepped
  cases label with
  | enqueue thread data => exact enqueue_unopened capacity state next thread data inv allowed moved
  | report thread => exact report_unopened capacity state next thread inv moved
  | openLog opened =>
      refine logger_unopened capacity state next (.openLog opened) inv ?_ moved
      rintro ⟨⟩
      cases allowed
  | dequeue => exact logger_unopened capacity state next .dequeue inv nofun moved
  | write => exact logger_unopened capacity state next .write inv nofun moved
  | close => exact logger_unopened capacity state next .close inv nofun moved
  | again => cases allowed
  | createThread => exact main_unopened capacity state next .createThread inv nofun moved
  | setCapacity => exact main_unopened capacity state next .setCapacity inv nofun moved
  | allocate => exact main_unopened capacity state next .allocate inv nofun moved
  | setShutdown => exact main_unopened capacity state next .setShutdown inv nofun moved
  | signalDestroy => exact main_unopened capacity state next .signalDestroy inv nofun moved
  | join => exact main_unopened capacity state next .join inv nofun moved
  | freeData => exact main_unopened capacity state next .freeData inv nofun moved

theorem flag_refuses (capacity : Nat) (state next : LoggerState) (label : Label) (inv : UnopenedInv capacity state)
    (flag : state.queue.shutdown = true) (stepped : under unopened (step capacity) state label = some next) :
    next.accepted = state.accepted ∧ next.queue.shutdown = true := by
  obtain ⟨allowed, moved⟩ := (under_some _ _ _ _ _).mp stepped
  cases label with
  | enqueue thread data =>
      have refused : refuses state.queue = true := by simp [refuses, flag]
      simp only [step, stepProducer] at moved
      split at moved
      · cases moved
      · rw [if_pos refused] at moved
        cases moved
        exact ⟨rfl, flag⟩
  | report thread =>
      simp only [step, stepProducer] at moved
      split at moved
      · cases moved
        exact ⟨rfl, flag⟩
      · cases moved
  | openLog opened =>
      simp only [step, stepLogger, Option.ite_none_right_eq_some, Option.some.injEq] at moved
      obtain ⟨_, rfl⟩ := moved
      cases opened <;> exact ⟨rfl, flag⟩
  | dequeue | write | close => rcases inv.logger with here | here | here <;> simp [step, stepLogger, here] at moved
  | again => cases allowed
  | createThread | setCapacity | allocate | signalDestroy | join | freeData =>
      simp only [step, stepMain, Option.ite_none_right_eq_some, Option.some.injEq] at moved
      obtain ⟨_, rfl⟩ := moved
      exact ⟨rfl, flag⟩
  | setShutdown =>
      simp only [step, stepMain, Option.ite_none_right_eq_some, Option.some.injEq] at moved
      obtain ⟨_, rfl⟩ := moved
      exact ⟨rfl, rfl⟩

-- A log file that does not open costs no more than the messages: there is no
-- fault in any run, nothing is written, the queue takes the first messages up to
-- its capacity that come before the flag and refuses every other one.
theorem unopened_log_exact (capacity : Nat) (labels : List Label) (state : LoggerState) (positive : 0 < capacity)
    (ran : labels.foldlM (under unopened (step capacity)) LoggerState.initial = some state) :
    state.fault = none ∧ state.file = [] ∧ state.accepted <+: state.pushed ∧ state.accepted.length ≤ capacity ∧
      (state.queue.shutdown = false → state.accepted = state.pushed.take capacity) ∧
      ∀ before after flagged, labels = before ++ after →
        before.foldlM (under unopened (step capacity)) LoggerState.initial = some flagged →
        flagged.queue.shutdown = true → state.accepted = flagged.accepted := by
  have reached := initial_unopened_inv capacity positive
  have inv := reaches_invariant (under unopened (step capacity)) (UnopenedInv capacity)
    (unopened_step_keeps capacity) LoggerState.initial state ⟨labels, ran⟩ reached
  refine ⟨inv.safe, inv.file, inv.order, inv.within, fun going => ?_, ?_⟩
  · have filled := inv.filled going
    have first := List.prefix_iff_eq_take.mp inv.order
    rw [filled, ← List.take_eq_take_min] at first
    exact first
  · intro before after flagged split sofar flag
    rw [split, List.foldlM_append, sofar] at ran
    have there := reaches_invariant (under unopened (step capacity)) (UnopenedInv capacity)
      (unopened_step_keeps capacity) LoggerState.initial flagged ⟨before, sofar⟩ reached
    have kept := reaches_invariant (under unopened (step capacity))
      (fun here => UnopenedInv capacity here ∧ here.accepted = flagged.accepted ∧ here.queue.shutdown = true)
      (fun here label next good stepped => by
        obtain ⟨same, still⟩ := flag_refuses capacity here next label good.1 good.2.2 stepped
        exact ⟨unopened_step_keeps capacity here label next good.1 stepped, same.trans good.2.1, still⟩)
      flagged state ⟨after, ran⟩ ⟨there, rfl, flag⟩
    exact kept.2.1

def unopenedLife : List Label :=
  slogStart ++ [.openLog false, .enqueue 0 (oneByte 97), .enqueue 1 (oneByte 98), .report 1, .setShutdown,
    .enqueue 0 (oneByte 99)]

theorem unopened_life_keeps_first : ∃ state,
    unopenedLife.foldlM (under unopened (step 1)) LoggerState.initial = some state ∧
      state.file = [] ∧ state.accepted <+: state.pushed := by
  have runs : (unopenedLife.foldlM (under unopened (step 1)) LoggerState.initial).isSome = true := by decide +kernel
  obtain ⟨state, ran⟩ := Option.isSome_iff_exists.mp runs
  have exactly := unopened_log_exact 1 unopenedLife state (by decide) ran
  exact ⟨state, ran, exactly.2.1, exactly.2.2.1⟩

end Slogger.Logger
