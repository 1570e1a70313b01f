import Slogger.Lib.Progress
import Slogger.Logger.Atomicity

set_option autoImplicit false

namespace Slogger.Logger

open Slogger.Lib

-- The statements a thread still has before it when no message comes in any
-- more; a message in the queue costs the logging thread five of them.
def DequeuePc.work : DequeuePc → Nat
  | .ended => 0
  | .leavingEmpty => 1
  | .checking => 2
  | .testing => 3
  | .away | .woken => 4
  | .waiting | .leaving _ => 5
  | .aboutToWait => 6

-- A producer past its test brings one more message in.
def EnqueuePc.work : EnqueuePc → Nat
  | .away => 0
  | .leaving => 1
  | .signalling => 2
  | .testing _ => 4
  | .storing _ => 8

def StopPc.work : StopPc → Nat
  | .running => 5
  | .locking => 4
  | .signalling => 3
  | .destroying => 2
  | .leaving => 1
  | .joining => 0

def holderWork (state : WakeState) : Nat :=
  match state.mutex with
  | some (.producer thread) => (state.producers thread).work
  | _ => 0

def remainingWork (state : WakeState) : Nat :=
  5 * state.queue.size + state.logger.work + state.stopper.work + holderWork state

def beginsPush : WakeLabel → Bool
  | .pushLock _ _ => true
  | _ => false

def Reached (capacity : Nat) (state : WakeState) : Prop :=
  MatchedFrom (atomicStep capacity) (Atomic capacity) LoggerState.initial state

theorem reached_inv (capacity : Nat) (state : WakeState) (reached : Reached capacity state) :
    WakeInv state ∧ state.fault = none := by
  obtain ⟨coarse, _, atomic⟩ := reached
  exact ⟨atomic.inv, atomic.safe⟩

theorem reached_next (capacity : Nat) (state : WakeState) (label : WakeLabel) (next : WakeState)
    (reached : Reached capacity state) (stepped : wakeStep state label = some next) : Reached capacity next :=
  matched_next wakeStep (atomicStep capacity) (Atomic capacity) (sections_simulated capacity) LoggerState.initial
    state label next reached stepped

theorem run_reached (capacity : Nat) (labels : List WakeLabel) (state : WakeState) (positive : 0 < capacity)
    (ran : labels.foldlM wakeStep (WakeState.initial capacity) = some state) : Reached capacity state := by
  have matched := matched_always wakeStep (atomicStep capacity) (Atomic capacity) (sections_simulated capacity)
    LoggerState.initial (WakeState.initial capacity) (started_matched capacity positive) labels
  have last := always_finish _ _ _ matched
  rw [finish_trace wakeStep (WakeState.initial capacity) state labels ran] at last
  exact last

def Stopping (capacity : Nat) (state : WakeState) : Prop := Reached capacity state ∧ state.stopper ≠ .running

theorem stopping_inv (capacity : Nat) (state : WakeState) (stopping : Stopping capacity state) :
    WakeInv state ∧ state.fault = none ∧ state.queue.shutdown = true := by
  obtain ⟨inv, safe⟩ := reached_inv capacity state stopping.1
  exact ⟨inv, safe, inv.flag.mpr stopping.2⟩

theorem stopping_mutex (capacity : Nat) (state : WakeState) (stopping : Stopping capacity state) (party : Party)
    (here : isInside state party = true) : state.mutex = some party :=
  ((stopping_inv capacity state stopping).1.holder party).mp here

theorem signalled_work (logger : DequeuePc) : (signalled logger).work ≤ logger.work := by
  cases logger <;> simp [signalled, DequeuePc.work]

theorem stop_stays (state next : WakeState) (label : WakeLabel) (stopped : state.stopper ≠ .running)
    (stepped : wakeStep state label = some next) : next.stopper ≠ .running := by
  cases label with
  | stopFlag | stopLock | stopSignal | stopDestroy | stopUnlock =>
      simp only [wakeStep, wakeStopper, Option.ite_none_right_eq_some, Option.some.injEq] at stepped
      obtain ⟨_, rfl⟩ := stepped
      simp
  | lock | test | wait | wakeSpuriously | relock =>
      simp only [wakeStep, wakeLogger, Option.ite_none_right_eq_some, Option.some.injEq] at stepped
      obtain ⟨_, rfl⟩ := stepped
      exact stopped
  | pushLock | pushSignal | pushUnlock =>
      simp only [wakeStep, wakeProducer, Option.ite_none_right_eq_some, Option.some.injEq] at stepped
      obtain ⟨_, rfl⟩ := stepped
      exact stopped
  | take | unlock | pushTest | pushStore =>
      simp only [wakeStep, wakeLogger, wakeProducer] at stepped
      repeat' split at stepped
      all_goals cases stepped
      all_goals exact stopped

theorem stopping_kept (capacity : Nat) (state : WakeState) (label : WakeLabel) (next : WakeState)
    (stopping : Stopping capacity state) (stepped : wakeStep state label = some next) : Stopping capacity next :=
  ⟨reached_next capacity state label next stopping.1 stepped, stop_stays state next label stopping.2 stepped⟩

theorem logger_pays (capacity : Nat) (state next : WakeState) (label : WakeLabel) (stopping : Stopping capacity state)
    (after : next.fault = none) (stepped : wakeLogger state label = some next) :
    remainingWork next < remainingWork state := by
  obtain ⟨inv, _, flag⟩ := stopping_inv capacity state stopping
  cases label with
  | lock | relock =>
      simp only [wakeLogger, Option.ite_none_right_eq_some, Option.some.injEq] at stepped
      obtain ⟨⟨here, free⟩, rfl⟩ := stepped
      simp [remainingWork, holderWork, here, free, DequeuePc.work]
  | test =>
      simp only [wakeLogger, Option.ite_none_right_eq_some, Option.some.injEq] at stepped
      obtain ⟨here, rfl⟩ := stepped
      have goes : mustWait state.queue = false := by simp [mustWait, flag]
      simp [remainingWork, holderWork, here, goes, DequeuePc.work]
  | wait =>
      simp only [wakeLogger, Option.ite_none_right_eq_some, Option.some.injEq] at stepped
      obtain ⟨here, rfl⟩ := stepped
      have held := stopping_mutex capacity state stopping .logger (by rw [isInside, here]; rfl)
      simp [remainingWork, holderWork, here, held, DequeuePc.work]
  | wakeSpuriously =>
      simp only [wakeLogger, Option.ite_none_right_eq_some, Option.some.injEq] at stepped
      obtain ⟨here, rfl⟩ := stepped
      simp [remainingWork, holderWork, here, DequeuePc.work]
  | take =>
      simp only [wakeLogger, Option.ite_none_right_eq_some] at stepped
      obtain ⟨here, stepped⟩ := stepped
      split at stepped
      · obtain rfl := Option.some.inj stepped
        simp [remainingWork, holderWork, here, DequeuePc.work]
      · rename_i more
        have some : state.queue.size ≠ 0 := fun empty => more ((is_drained_iff state.queue).mpr ⟨empty, flag⟩)
        split at stepped
        · obtain rfl := Option.some.inj stepped
          cases after
        · rename_i data queue taken
          obtain rfl := Option.some.inj stepped
          have shorter := (take_front_size state.queue queue data taken).1
          simp only [remainingWork, holderWork, here, shorter, DequeuePc.work]
          omega
  | unlock =>
      simp only [wakeLogger] at stepped
      split at stepped
      · rename_i data here
        obtain rfl := Option.some.inj stepped
        have held := stopping_mutex capacity state stopping .logger (by rw [isInside, here]; rfl)
        simp [remainingWork, holderWork, here, held, DequeuePc.work]
      · rename_i here
        obtain rfl := Option.some.inj stepped
        have held := stopping_mutex capacity state stopping .logger (by rw [isInside, here]; rfl)
        simp [remainingWork, holderWork, here, held, DequeuePc.work]
      · cases stepped
  | _ => cases stepped

-- Past its lock a producer is on its way out: the flag has it refused, and only
-- one that tested before the flag still stores.
theorem producer_pays (capacity : Nat) (state next : WakeState) (label : WakeLabel) (stopping : Stopping capacity state)
    (after : next.fault = none) (past : beginsPush label = false) (stepped : wakeProducer state label = some next) :
    remainingWork next < remainingWork state := by
  obtain ⟨inv, _, flag⟩ := stopping_inv capacity state stopping
  cases label with
  | pushLock => cases past
  | pushTest thread =>
      simp only [wakeProducer] at stepped
      split at stepped
      · rename_i data here
        obtain rfl := Option.some.inj stepped
        have held := stopping_mutex capacity state stopping (.producer thread) (by rw [isInside, here]; rfl)
        simp [remainingWork, holderWork, here, held, refuses_shutdown state.queue flag, EnqueuePc.work]
      · cases stepped
  | pushStore thread =>
      simp only [wakeProducer] at stepped
      split at stepped
      · rename_i data here
        have held := stopping_mutex capacity state stopping (.producer thread) (by rw [isInside, here]; rfl)
        split at stepped
        · obtain rfl := Option.some.inj stepped
          cases after
        · rename_i queue stored
          obtain rfl := Option.some.inj stepped
          have longer := (store_rear_size state.queue queue data stored).1
          simp only [remainingWork, holderWork, here, held, longer, set_pusher_same, EnqueuePc.work]
          omega
      · cases stepped
  | pushSignal thread =>
      simp only [wakeProducer, Option.ite_none_right_eq_some, Option.some.injEq] at stepped
      obtain ⟨here, rfl⟩ := stepped
      have held := stopping_mutex capacity state stopping (.producer thread) (by rw [isInside, here]; rfl)
      have woken := signalled_work state.logger
      simp only [remainingWork, holderWork, here, held, set_pusher_same, EnqueuePc.work]
      omega
  | pushUnlock thread =>
      simp only [wakeProducer, Option.ite_none_right_eq_some, Option.some.injEq] at stepped
      obtain ⟨here, rfl⟩ := stepped
      have held := stopping_mutex capacity state stopping (.producer thread) (by rw [isInside, here]; rfl)
      simp [remainingWork, holderWork, here, held, EnqueuePc.work]
  | _ => cases stepped

theorem stopper_pays (capacity : Nat) (state next : WakeState) (label : WakeLabel) (stopping : Stopping capacity state)
    (stepped : wakeStopper state label = some next) : remainingWork next < remainingWork state := by
  cases label with
  | stopFlag =>
      simp only [wakeStopper, Option.ite_none_right_eq_some] at stepped
      exact absurd stepped.1 stopping.2
  | stopLock =>
      simp only [wakeStopper, Option.ite_none_right_eq_some, Option.some.injEq] at stepped
      obtain ⟨⟨here, free⟩, rfl⟩ := stepped
      simp [remainingWork, holderWork, here, free, StopPc.work]
  | stopSignal =>
      simp only [wakeStopper, Option.ite_none_right_eq_some, Option.some.injEq] at stepped
      obtain ⟨here, rfl⟩ := stepped
      have woken := signalled_work state.logger
      simp only [remainingWork, holderWork, here, StopPc.work]
      omega
  | stopDestroy =>
      simp only [wakeStopper, Option.ite_none_right_eq_some, Option.some.injEq] at stepped
      obtain ⟨here, rfl⟩ := stepped
      simp [remainingWork, holderWork, here, StopPc.work]
  | stopUnlock =>
      simp only [wakeStopper, Option.ite_none_right_eq_some, Option.some.injEq] at stepped
      obtain ⟨here, rfl⟩ := stepped
      have held := stopping_mutex capacity state stopping .stopper (by rw [isInside, here]; rfl)
      simp [remainingWork, holderWork, here, held, StopPc.work]
  | _ => cases stepped

theorem step_pays (capacity : Nat) (state : WakeState) (label : WakeLabel) (next : WakeState)
    (stopping : Stopping capacity state) (stepped : wakeStep state label = some next) (past : beginsPush label = false) :
    remainingWork next < remainingWork state := by
  have after := (stopping_inv capacity next (stopping_kept capacity state label next stopping stepped)).2.1
  cases label with
  | lock | test | wait | wakeSpuriously | relock | take | unlock =>
      simp only [wakeStep] at stepped
      exact logger_pays capacity state next _ stopping after stepped
  | pushLock | pushTest | pushStore | pushSignal | pushUnlock =>
      simp only [wakeStep] at stepped
      exact producer_pays capacity state next _ stopping after past stepped
  | stopFlag | stopLock | stopSignal | stopDestroy | stopUnlock =>
      simp only [wakeStep] at stepped
      exact stopper_pays capacity state next _ stopping stepped

theorem push_charged (state next : WakeState) (label : WakeLabel) (stepped : wakeStep state label = some next)
    (begins : beginsPush label = true) : remainingWork next ≤ remainingWork state + 4 := by
  cases label with
  | pushLock thread data =>
      simp only [wakeStep, wakeProducer, Option.ite_none_right_eq_some, Option.some.injEq] at stepped
      obtain ⟨⟨_, free⟩, rfl⟩ := stepped
      simp [remainingWork, holderWork, free, EnqueuePc.work]
  | _ => cases begins

theorem remaining_bounded (state : WakeState) (stopped : state.stopper ≠ .running) :
    remainingWork state ≤ 5 * state.queue.size + 18 := by
  have logger : state.logger.work ≤ 6 := by
    cases state.logger <;> simp [DequeuePc.work]
  have stopper : state.stopper.work ≤ 4 := by
    cases pc : state.stopper <;> simp [StopPc.work]
    exact stopped pc
  have holder : holderWork state ≤ 8 := by
    rw [holderWork]
    split
    · rename_i thread _
      cases state.producers thread <;> simp [EnqueuePc.work]
    · exact Nat.zero_le 8
  rw [remainingWork]
  omega

-- From the moment slog_stop has set its flag the threads have a bounded number
-- of steps left, whatever the schedule: 4 more for every push that still begins.
theorem shutdown_bounded (capacity : Nat) (labels later : List WakeLabel) (state : WakeState) (positive : 0 < capacity)
    (ran : labels.foldlM wakeStep (WakeState.initial capacity) = some state) (stopped : state.stopper ≠ .running) :
    countSteps (fun label => !beginsPush label) (trace wakeStep state later) ≤
      5 * state.queue.size + 18 + 4 * countSteps beginsPush (trace wakeStep state later) := by
  have paid := paid_steps (fun before label next => wakeStep before label = some next) (Stopping capacity)
    remainingWork beginsPush 4 (stopping_kept capacity)
    (fun before label next _ stepped begins => push_charged before next label stepped begins)
    (step_pays capacity) state _ (trace_is_run wakeStep state later)
    ⟨run_reached capacity labels state positive ran, stopped⟩
  have bounded := remaining_bounded state stopped
  omega

theorem shutdown_bounded_one : countSteps (fun label => !beginsPush label)
    (trace wakeStep { WakeState.initial 1 with
      stopper := .locking, queue := { (WakeState.initial 1).queue with shutdown := true } } [.lock, .test]) ≤ 18 :=
  shutdown_bounded 1 [.stopFlag] [.lock, .test] _ (by decide) rfl (by simp)

def isEnabled (state : WakeState) (label : WakeLabel) : Bool := (wakeStep state label).isSome

-- What a thread does by itself: no new message, no wake-up out of nothing, and
-- no call of slog_stop.
def isOwnStep : WakeLabel → Bool
  | .pushLock _ _ | .wakeSpuriously | .stopFlag => false
  | _ => true

def CanGoOn (state : WakeState) : Prop := ∃ label, isOwnStep label = true ∧ isEnabled state label = true

structure ShutDown (state : WakeState) : Prop where
  ended : state.logger = .ended
  joining : state.stopper = .joining
  free : state.mutex = none
  drained : state.queue.size = 0
  safe : state.fault = none

theorem producer_goes_on (state : WakeState) (thread : Nat) (inside : (state.producers thread).holds = true) :
    CanGoOn state := by
  cases here : state.producers thread with
  | away =>
      rw [here] at inside
      cases inside
  | testing data => exact ⟨.pushTest thread, rfl, by simp [isEnabled, wakeStep, wakeProducer, here]⟩
  | storing data =>
      refine ⟨.pushStore thread, rfl, ?_⟩
      cases stored : storeRear state.queue data <;> simp [isEnabled, wakeStep, wakeProducer, here, stored]
  | signalling => exact ⟨.pushSignal thread, rfl, by simp [isEnabled, wakeStep, wakeProducer, here]⟩
  | leaving => exact ⟨.pushUnlock thread, rfl, by simp [isEnabled, wakeStep, wakeProducer, here]⟩

theorem taking_goes_on (state : WakeState) (here : state.logger = .checking) : CanGoOn state := by
  refine ⟨.take, rfl, ?_⟩
  cases drained : isDrained state.queue with
  | true => simp [isEnabled, wakeStep, wakeLogger, here, drained]
  | false => cases taken : takeFront state.queue <;> simp [isEnabled, wakeStep, wakeLogger, here, drained, taken]

theorem logger_goes_on (state : WakeState) (inside : state.logger.holds = true) : CanGoOn state := by
  cases here : state.logger with
  | away | waiting | woken | ended =>
      rw [here] at inside
      cases inside
  | testing => exact ⟨.test, rfl, by simp [isEnabled, wakeStep, wakeLogger, here]⟩
  | aboutToWait => exact ⟨.wait, rfl, by simp [isEnabled, wakeStep, wakeLogger, here]⟩
  | checking => exact taking_goes_on state here
  | leaving data => exact ⟨.unlock, rfl, by simp [isEnabled, wakeStep, wakeLogger, here]⟩
  | leavingEmpty => exact ⟨.unlock, rfl, by simp [isEnabled, wakeStep, wakeLogger, here]⟩

theorem stopper_goes_on (state : WakeState) (inside : state.stopper.holds = true) : CanGoOn state := by
  cases here : state.stopper with
  | running | locking | joining =>
      rw [here] at inside
      cases inside
  | signalling => exact ⟨.stopSignal, rfl, by simp [isEnabled, wakeStep, wakeStopper, here]⟩
  | destroying => exact ⟨.stopDestroy, rfl, by simp [isEnabled, wakeStep, wakeStopper, here]⟩
  | leaving => exact ⟨.stopUnlock, rfl, by simp [isEnabled, wakeStep, wakeStopper, here]⟩

-- Nobody is inside a critical section: the logging thread can only be asleep
-- while slog_stop still has its signal to give.
theorem outside_goes_on (state : WakeState) (inv : WakeInv state) (free : state.mutex = none) (safe : state.fault = none)
    (stopped : state.stopper ≠ .running) : CanGoOn state ∨ ShutDown state := by
  have out : ∀ party, isInside state party ≠ true := by
    intro party inside
    have held := (inv.holder party).mp inside
    rw [free] at held
    cases held
  cases stopper : state.stopper with
  | running => exact absurd stopper stopped
  | signalling | destroying | leaving => exact absurd (by rw [isInside, stopper]; rfl) (out .stopper)
  | locking => exact .inl ⟨.stopLock, rfl, by simp [isEnabled, wakeStep, wakeStopper, stopper, free]⟩
  | joining =>
      cases logger : state.logger with
      | testing | aboutToWait | checking | leaving | leavingEmpty =>
          exact absurd (by rw [isInside, logger]; rfl) (out .logger)
      | away => exact .inl ⟨.lock, rfl, by simp [isEnabled, wakeStep, wakeLogger, logger, free]⟩
      | woken => exact .inl ⟨.relock, rfl, by simp [isEnabled, wakeStep, wakeLogger, logger, free]⟩
      | waiting =>
          have early := (inv.asleep logger).1
          rw [stopper] at early
          cases early
      | ended => exact .inr ⟨logger, stopper, free, (inv.drained (by rw [logger]; rfl)).1, safe⟩

-- After the flag the threads that are there are never all blocked: one of them
-- can go on until slog_stop's join finds the logging thread ended.
theorem shutdown_never_stuck (capacity : Nat) (labels : List WakeLabel) (state : WakeState) (positive : 0 < capacity)
    (ran : labels.foldlM wakeStep (WakeState.initial capacity) = some state) (stopped : state.stopper ≠ .running) :
    CanGoOn state ∨ ShutDown state := by
  obtain ⟨inv, safe, _⟩ := stopping_inv capacity state ⟨run_reached capacity labels state positive ran, stopped⟩
  cases held : state.mutex with
  | none => exact outside_goes_on state inv held safe stopped
  | some party =>
      have inside := (inv.holder party).mpr held
      cases party with
      | logger => exact .inl (logger_goes_on state inside)
      | producer thread => exact .inl (producer_goes_on state thread inside)
      | stopper => exact .inl (stopper_goes_on state inside)

theorem flag_never_stuck :
    CanGoOn { WakeState.initial 1 with
      stopper := .locking, queue := { (WakeState.initial 1).queue with shutdown := true } } ∨
    ShutDown { WakeState.initial 1 with
      stopper := .locking, queue := { (WakeState.initial 1).queue with shutdown := true } } :=
  shutdown_never_stuck 1 [.stopFlag] _ (by decide) rfl (by simp)

end Slogger.Logger
