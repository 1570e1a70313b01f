import Slogger.Logger.Shutdown

set_option autoImplicit false

namespace Slogger.Logger

open Slogger.Lib

-- What a thread still does until it sleeps or leaves, whatever slog_stop does
-- meanwhile. A signal costs the logging thread one more round, so whoever has
-- one to give has that round in its account.
def DequeuePc.due : DequeuePc → Nat
  | .waiting | .ended => 0
  | .aboutToWait | .leavingEmpty => 1
  | .checking => 2
  | .testing => 3
  | .away | .woken => 4
  | .leaving _ => 5

def EnqueuePc.due : EnqueuePc → Nat
  | .away => 0
  | .leaving => 1
  | .signalling => 6
  | .storing _ => 11
  | .testing _ => 12

def StopPc.due : StopPc → Nat
  | .joining => 0
  | .leaving => 1
  | .destroying => 2
  | .signalling => 7
  | .locking => 8
  | .running => 9

def holderDue (state : WakeState) : Nat :=
  match state.mutex with
  | some (.producer thread) => (state.producers thread).due
  | _ => 0

def stepsDue (state : WakeState) : Nat := 4 * state.queue.size + state.logger.due + state.stopper.due + holderDue state

def fromOutside : WakeLabel → Bool
  | .pushLock _ _ | .wakeSpuriously => true
  | _ => false

theorem inside_holds (capacity : Nat) (state : WakeState) (reached : Reached capacity state) (party : Party)
    (here : isInside state party = true) : state.mutex = some party :=
  ((reached_inv capacity state reached).1.holder party).mp here

theorem signalled_due (logger : DequeuePc) : (signalled logger).due ≤ logger.due + 4 := by
  cases logger <;> simp [signalled, DequeuePc.due]

theorem logger_due (capacity : Nat) (state next : WakeState) (label : WakeLabel) (reached : Reached capacity state)
    (after : next.fault = none) (own : fromOutside label = false) (stepped : wakeLogger state label = some next) :
    stepsDue next < stepsDue state := by
  cases label with
  | lock | relock =>
      simp only [wakeLogger, Option.ite_none_right_eq_some, Option.some.injEq] at stepped
      obtain ⟨⟨here, free⟩, rfl⟩ := stepped
      simp [stepsDue, holderDue, here, free, DequeuePc.due]
  | test =>
      simp only [wakeLogger, Option.ite_none_right_eq_some, Option.some.injEq] at stepped
      obtain ⟨here, rfl⟩ := stepped
      cases waits : mustWait state.queue <;> simp [stepsDue, holderDue, here, DequeuePc.due]
  | wait =>
      simp only [wakeLogger, Option.ite_none_right_eq_some, Option.some.injEq] at stepped
      obtain ⟨here, rfl⟩ := stepped
      have held := inside_holds capacity state reached .logger (by rw [isInside, here]; rfl)
      simp [stepsDue, holderDue, here, held, DequeuePc.due]
  | wakeSpuriously => cases own
  | take =>
      simp only [wakeLogger, Option.ite_none_right_eq_some] at stepped
      obtain ⟨here, stepped⟩ := stepped
      split at stepped
      · obtain rfl := Option.some.inj stepped
        simp [stepsDue, holderDue, here, DequeuePc.due]
      · rename_i more
        obtain ⟨coarse, _, atomic⟩ := reached
        have awake := atomic.checked here
        have some : state.queue.size ≠ 0 := by
          intro empty
          cases flag : state.queue.shutdown <;> simp_all [mustWait, isDrained]
        split at stepped
        · obtain rfl := Option.some.inj stepped
          cases after
        · rename_i data queue taken
          obtain rfl := Option.some.inj stepped
          have shorter := (take_front_size state.queue queue data taken).1
          simp only [stepsDue, holderDue, here, shorter, DequeuePc.due]
          omega
  | unlock =>
      simp only [wakeLogger] at stepped
      split at stepped
      · rename_i data here
        obtain rfl := Option.some.inj stepped
        have held := inside_holds capacity state reached .logger (by rw [isInside, here]; rfl)
        simp [stepsDue, holderDue, here, held, DequeuePc.due]
      · rename_i here
        obtain rfl := Option.some.inj stepped
        have held := inside_holds capacity state reached .logger (by rw [isInside, here]; rfl)
        simp [stepsDue, holderDue, here, held, DequeuePc.due]
      · cases stepped
  | _ => cases stepped

theorem producer_due (capacity : Nat) (state next : WakeState) (label : WakeLabel) (reached : Reached capacity state)
    (after : next.fault = none) (own : fromOutside label = false) (stepped : wakeProducer state label = some next) :
    stepsDue next < stepsDue state := by
  cases label with
  | pushLock => cases own
  | pushTest thread =>
      simp only [wakeProducer] at stepped
      split at stepped
      · rename_i data here
        obtain rfl := Option.some.inj stepped
        have held := inside_holds capacity state reached (.producer thread) (by rw [isInside, here]; rfl)
        cases refused : refuses state.queue <;> simp [stepsDue, holderDue, here, held, EnqueuePc.due]
      · cases stepped
  | pushStore thread =>
      simp only [wakeProducer] at stepped
      split at stepped
      · rename_i data here
        have held := inside_holds capacity state reached (.producer thread) (by rw [isInside, here]; rfl)
        split at stepped
        · obtain rfl := Option.some.inj stepped
          cases after
        · rename_i queue stored
          obtain rfl := Option.some.inj stepped
          have longer := (store_rear_size state.queue queue data stored).1
          simp only [stepsDue, holderDue, here, held, longer, set_pusher_same, EnqueuePc.due]
          omega
      · cases stepped
  | pushSignal thread =>
      simp only [wakeProducer, Option.ite_none_right_eq_some, Option.some.injEq] at stepped
      obtain ⟨here, rfl⟩ := stepped
      have held := inside_holds capacity state reached (.producer thread) (by rw [isInside, here]; rfl)
      have woken := signalled_due state.logger
      simp only [stepsDue, holderDue, here, held, set_pusher_same, EnqueuePc.due]
      omega
  | pushUnlock thread =>
      simp only [wakeProducer, Option.ite_none_right_eq_some, Option.some.injEq] at stepped
      obtain ⟨here, rfl⟩ := stepped
      have held := inside_holds capacity state reached (.producer thread) (by rw [isInside, here]; rfl)
      simp [stepsDue, holderDue, here, held, EnqueuePc.due]
  | _ => cases stepped

theorem stopper_due (capacity : Nat) (state next : WakeState) (label : WakeLabel) (reached : Reached capacity state)
    (stepped : wakeStopper state label = some next) : stepsDue next < stepsDue state := by
  cases label with
  | stopFlag | stopDestroy =>
      simp only [wakeStopper, Option.ite_none_right_eq_some, Option.some.injEq] at stepped
      obtain ⟨here, rfl⟩ := stepped
      simp [stepsDue, holderDue, here, StopPc.due]
  | stopLock =>
      simp only [wakeStopper, Option.ite_none_right_eq_some, Option.some.injEq] at stepped
      obtain ⟨⟨here, free⟩, rfl⟩ := stepped
      simp [stepsDue, holderDue, here, free, StopPc.due]
  | stopSignal =>
      simp only [wakeStopper, Option.ite_none_right_eq_some, Option.some.injEq] at stepped
      obtain ⟨here, rfl⟩ := stepped
      have woken := signalled_due state.logger
      simp only [stepsDue, holderDue, here, StopPc.due]
      omega
  | stopUnlock =>
      simp only [wakeStopper, Option.ite_none_right_eq_some, Option.some.injEq] at stepped
      obtain ⟨here, rfl⟩ := stepped
      have held := inside_holds capacity state reached .stopper (by rw [isInside, here]; rfl)
      simp [stepsDue, holderDue, here, held, StopPc.due]
  | _ => cases stepped

theorem step_due (capacity : Nat) (state : WakeState) (label : WakeLabel) (next : WakeState)
    (reached : Reached capacity state) (stepped : wakeStep state label = some next) (own : fromOutside label = false) :
    stepsDue next < stepsDue state := by
  have after := (reached_inv capacity next (reached_next capacity state label next reached stepped)).2
  cases label with
  | lock | test | wait | wakeSpuriously | relock | take | unlock =>
      simp only [wakeStep] at stepped
      exact logger_due capacity state next _ reached after own stepped
  | pushLock | pushTest | pushStore | pushSignal | pushUnlock =>
      simp only [wakeStep] at stepped
      exact producer_due capacity state next _ reached after own stepped
  | stopFlag | stopLock | stopSignal | stopDestroy | stopUnlock =>
      simp only [wakeStep] at stepped
      exact stopper_due capacity state next _ reached stepped

theorem outside_charged (state next : WakeState) (label : WakeLabel) (stepped : wakeStep state label = some next)
    (outside : fromOutside label = true) : stepsDue next ≤ stepsDue state + 12 := by
  cases label with
  | pushLock thread data =>
      simp only [wakeStep, wakeProducer, Option.ite_none_right_eq_some, Option.some.injEq] at stepped
      obtain ⟨⟨_, free⟩, rfl⟩ := stepped
      simp [stepsDue, holderDue, free, EnqueuePc.due]
  | wakeSpuriously =>
      simp only [wakeStep, wakeLogger, Option.ite_none_right_eq_some, Option.some.injEq] at stepped
      obtain ⟨here, rfl⟩ := stepped
      simp only [stepsDue, holderDue, here, DequeuePc.due]
      omega
  | _ => cases outside

theorem due_bounded (state : WakeState) : stepsDue state ≤ 4 * state.queue.size + 26 := by
  have logger : state.logger.due ≤ 5 := by cases state.logger <;> simp [DequeuePc.due]
  have stopper : state.stopper.due ≤ 9 := by cases state.stopper <;> simp [StopPc.due]
  have holder : holderDue state ≤ 12 := by
    rw [holderDue]
    split
    · rename_i thread _
      cases state.producers thread <;> simp [EnqueuePc.due]
    · exact Nat.zero_le 12
  rw [stepsDue]
  omega

structure AtRest (state : WakeState) : Prop where
  free : state.mutex = none
  drained : state.queue.size = 0
  safe : state.fault = none
  logger : (state.stopper = .running ∧ state.logger = .waiting) ∨ (state.stopper = .joining ∧ state.logger = .ended)

theorem running_goes_on (state : WakeState) (inv : WakeInv state) (free : state.mutex = none) (safe : state.fault = none)
    (running : state.stopper = .running) : CanGoOn state ∨ AtRest state := by
  have out : ∀ party, isInside state party ≠ true := by
    intro party inside
    have held := (inv.holder party).mp inside
    rw [free] at held
    cases held
  cases logger : state.logger with
  | testing | aboutToWait | checking | leaving | leavingEmpty =>
      exact absurd (by rw [isInside, logger]; rfl) (out .logger)
  | away => exact .inl ⟨.lock, rfl, by simp [isEnabled, wakeStep, wakeLogger, logger, free]⟩
  | woken => exact .inl ⟨.relock, rfl, by simp [isEnabled, wakeStep, wakeLogger, logger, free]⟩
  | waiting =>
      rcases (inv.asleep logger).2 with drained | ⟨thread, signalling⟩
      · exact .inr ⟨free, drained, safe, .inl ⟨running, logger⟩⟩
      · exact absurd (by rw [isInside, signalling]; rfl) (out (.producer thread))
  | ended =>
      have flag := (inv.drained (by rw [logger]; rfl)).2.1
      exact absurd running (inv.flag.mp flag)

theorem never_stuck (capacity : Nat) (state : WakeState) (reached : Reached capacity state) :
    CanGoOn state ∨ AtRest state := by
  obtain ⟨inv, safe⟩ := reached_inv capacity state reached
  cases held : state.mutex with
  | none =>
      by_cases running : state.stopper = .running
      · exact running_goes_on state inv held safe running
      · rcases outside_goes_on state inv held safe running with moves | finished
        · exact .inl moves
        · exact .inr ⟨held, finished.drained, safe, .inr ⟨finished.joining, finished.ended⟩⟩
  | some party =>
      have inside := (inv.holder party).mpr held
      cases party with
      | logger => exact .inl (logger_goes_on state inside)
      | producer thread => exact .inl (producer_goes_on state thread inside)
      | stopper => exact .inl (stopper_goes_on state inside)

-- The threads beside what enqueue has stored and what logging_thread has written:
-- the message dequeue gave it, at the latest before it calls dequeue again.
structure FilledLog where
  wake : WakeState
  stored : List QueueData
  hand : Option QueueData
  file : List UInt8

def FilledLog.initial (capacity : Nat) : FilledLog := ⟨WakeState.initial capacity, [], none, []⟩

def storedBy (state : WakeState) : WakeLabel → List QueueData
  | .pushStore thread =>
      match state.producers thread with
      | .storing data => [data]
      | _ => []
  | _ => []

def leftWith : DequeuePc → Option QueueData
  | .leaving data => some data
  | _ => none

def filledStep (log : FilledLog) (label : WakeLabel) : Option FilledLog :=
  (wakeStep log.wake label).map fun next =>
    match label with
    | .lock => ⟨next, log.stored, none, log.file ++ fileBytes log.hand.toList⟩
    | .unlock => ⟨next, log.stored, leftWith log.wake.logger, log.file⟩
    | _ => ⟨next, log.stored ++ storedBy log.wake label, log.hand, log.file⟩

structure FilledInv (capacity : Nat) (log : FilledLog) : Prop where
  reached : Reached capacity log.wake
  idle : log.hand ≠ none → log.wake.logger = .away
  accounted : ∃ done pending, QueueRep capacity log.wake.queue pending ∧
    log.stored = done ++ (log.hand.toList ++ (leftWith log.wake.logger).toList) ++ pending ∧ log.file = fileBytes done

theorem storing_space (capacity : Nat) (state : WakeState) (reached : Reached capacity state) (thread : Nat)
    (data : QueueData) (here : state.producers thread = .storing data) : state.queue.size < capacity := by
  obtain ⟨coarse, _, atomic⟩ := reached
  have longer := (store_rear_size state.queue coarse.queue data (atomic.stored thread data here)).1
  obtain ⟨⟨pending, inv⟩, _⟩ := atomic.cycle
  have counted := inv.counted
  have within := inv.within
  omega

theorem unmoved_filled (capacity : Nat) (log : FilledLog) (next : WakeState) (inv : FilledInv capacity log)
    (reached : Reached capacity next)
    (queue : ∀ pending, QueueRep capacity log.wake.queue pending → QueueRep capacity next.queue pending)
    (left : leftWith next.logger = leftWith log.wake.logger) (away : log.wake.logger = .away → next.logger = .away) :
    FilledInv capacity ⟨next, log.stored ++ [], log.hand, log.file⟩ := by
  obtain ⟨done, pending, rep, stored, file⟩ := inv.accounted
  refine ⟨reached, fun busy => away (inv.idle busy), done, pending, queue pending rep, ?_, file⟩
  rw [List.append_nil, left]
  exact stored

theorem signalled_left (logger : DequeuePc) : leftWith (signalled logger) = leftWith logger := by
  cases logger <;> rfl

theorem filled_logger (capacity : Nat) (log : FilledLog) (label : WakeLabel) (next : WakeState)
    (inv : FilledInv capacity log) (reached : Reached capacity next) (stepped : wakeLogger log.wake label = some next)
    (other : label ≠ .lock ∧ label ≠ .unlock) :
    FilledInv capacity ⟨next, log.stored ++ storedBy log.wake label, log.hand, log.file⟩ := by
  cases label with
  | lock => exact absurd rfl other.1
  | unlock => exact absurd rfl other.2
  | test =>
      simp only [wakeLogger, Option.ite_none_right_eq_some, Option.some.injEq] at stepped
      obtain ⟨here, rfl⟩ := stepped
      refine unmoved_filled capacity log _ inv reached (fun _ => id) ?_ (by simp [here])
      cases waits : mustWait log.wake.queue <;> simp [here, leftWith]
  | wait | wakeSpuriously =>
      simp only [wakeLogger, Option.ite_none_right_eq_some, Option.some.injEq] at stepped
      obtain ⟨here, rfl⟩ := stepped
      exact unmoved_filled capacity log _ inv reached (fun _ => id) (by rw [here]; rfl) (by simp [here])
  | relock =>
      simp only [wakeLogger, Option.ite_none_right_eq_some, Option.some.injEq] at stepped
      obtain ⟨⟨here, _⟩, rfl⟩ := stepped
      exact unmoved_filled capacity log _ inv reached (fun _ => id) (by rw [here]; rfl) (by simp [here])
  | take =>
      simp only [wakeLogger, Option.ite_none_right_eq_some] at stepped
      obtain ⟨here, stepped⟩ := stepped
      have busy : log.hand = none := by
        by_contra busy
        cases here.symm.trans (inv.idle busy)
      split at stepped
      · obtain rfl := Option.some.inj stepped
        exact unmoved_filled capacity log _ inv reached (fun _ => id) (by rw [here]; rfl) (by simp [here])
      · rename_i more
        obtain ⟨done, pending, rep, stored, file⟩ := inv.accounted
        obtain ⟨coarse, _, atomic⟩ := inv.reached
        have awake := atomic.checked here
        cases pending with
        | nil =>
            have empty : log.wake.queue.size = 0 := rep.counted
            cases flag : log.wake.queue.shutdown <;> simp_all [mustWait, isDrained]
        | cons data rest =>
            obtain ⟨queue, taken, shorter, _⟩ := take_front_rep capacity log.wake.queue data rest rep
            rw [taken] at stepped
            obtain rfl := Option.some.inj stepped
            refine ⟨reached, fun nonempty => absurd busy nonempty, done, rest, shorter, ?_, file⟩
            rw [stored, busy, here]
            simp [leftWith, storedBy]
  | _ => cases stepped

theorem filled_producer (capacity : Nat) (log : FilledLog) (label : WakeLabel) (next : WakeState)
    (inv : FilledInv capacity log) (reached : Reached capacity next) (stepped : wakeProducer log.wake label = some next) :
    FilledInv capacity ⟨next, log.stored ++ storedBy log.wake label, log.hand, log.file⟩ := by
  cases label with
  | pushLock | pushUnlock =>
      simp only [wakeProducer, Option.ite_none_right_eq_some, Option.some.injEq] at stepped
      obtain ⟨_, rfl⟩ := stepped
      exact unmoved_filled capacity log _ inv reached (fun _ => id) rfl id
  | pushSignal =>
      simp only [wakeProducer, Option.ite_none_right_eq_some, Option.some.injEq] at stepped
      obtain ⟨_, rfl⟩ := stepped
      refine unmoved_filled capacity log _ inv reached (fun _ => id) (signalled_left log.wake.logger) fun away => ?_
      simp [away, signalled]
  | pushTest thread =>
      simp only [wakeProducer] at stepped
      split at stepped
      · obtain rfl := Option.some.inj stepped
        exact unmoved_filled capacity log _ inv reached (fun _ => id) rfl id
      · cases stepped
  | pushStore thread =>
      simp only [wakeProducer] at stepped
      split at stepped
      · rename_i data here
        obtain ⟨done, pending, rep, stored, file⟩ := inv.accounted
        have space := storing_space capacity log.wake inv.reached thread data here
        rw [rep.counted] at space
        obtain ⟨queue, ran, longer, _⟩ := store_rear_rep capacity log.wake.queue pending data rep space
        rw [ran] at stepped
        obtain rfl := Option.some.inj stepped
        refine ⟨reached, inv.idle, done, pending ++ [data], longer, ?_, file⟩
        simp only [storedBy, here, stored, List.append_assoc]
      · cases stepped
  | _ => cases stepped

theorem filled_stopper (capacity : Nat) (log : FilledLog) (label : WakeLabel) (next : WakeState)
    (inv : FilledInv capacity log) (reached : Reached capacity next) (stepped : wakeStopper log.wake label = some next) :
    FilledInv capacity ⟨next, log.stored ++ storedBy log.wake label, log.hand, log.file⟩ := by
  cases label with
  | stopFlag =>
      simp only [wakeStopper, Option.ite_none_right_eq_some, Option.some.injEq] at stepped
      obtain ⟨_, rfl⟩ := stepped
      exact unmoved_filled capacity log _ inv reached (fun _ rep => ⟨rep.allocated, rep.counted, rep.sized⟩) rfl id
  | stopSignal =>
      simp only [wakeStopper, Option.ite_none_right_eq_some, Option.some.injEq] at stepped
      obtain ⟨_, rfl⟩ := stepped
      refine unmoved_filled capacity log _ inv reached (fun _ => id) (signalled_left log.wake.logger) fun away => ?_
      simp [away, signalled]
  | stopLock | stopDestroy | stopUnlock =>
      simp only [wakeStopper, Option.ite_none_right_eq_some, Option.some.injEq] at stepped
      obtain ⟨_, rfl⟩ := stepped
      exact unmoved_filled capacity log _ inv reached (fun _ => id) rfl id
  | _ => cases stepped

theorem filled_keeps (capacity : Nat) (log : FilledLog) (label : WakeLabel) (next : FilledLog)
    (inv : FilledInv capacity log) (stepped : filledStep log label = some next) : FilledInv capacity next := by
  obtain ⟨wake, moved, rfl⟩ := Option.map_eq_some_iff.mp stepped
  have reached := reached_next capacity log.wake label wake inv.reached moved
  obtain ⟨done, pending, rep, stored, file⟩ := inv.accounted
  cases label with
  | lock =>
      simp only [wakeStep, wakeLogger, Option.ite_none_right_eq_some, Option.some.injEq] at moved
      obtain ⟨⟨here, _⟩, rfl⟩ := moved
      refine ⟨reached, fun busy => absurd rfl busy, done ++ log.hand.toList, pending, rep, ?_, ?_⟩
      · rw [stored, here]
        simp [leftWith]
      · rw [file, fileBytes, fileBytes, fileBytes, List.flatMap_append]
  | unlock =>
      have free : log.hand = none := by
        by_contra busy
        simp [wakeStep, wakeLogger, inv.idle busy] at moved
      simp only [wakeStep, wakeLogger] at moved
      split at moved
      · rename_i data here
        obtain rfl := Option.some.inj moved
        refine ⟨reached, fun _ => rfl, done, pending, rep, ?_, file⟩
        rw [stored, free, here]
        rfl
      · rename_i here
        obtain rfl := Option.some.inj moved
        refine ⟨reached, fun busy => ?_, done, pending, rep, ?_, file⟩
        · rw [here] at busy
          exact absurd rfl busy
        · rw [stored, free, here]
          rfl
      · cases moved
  | test | wait | wakeSpuriously | relock | take =>
      exact filled_logger capacity log _ wake inv reached moved ⟨by simp, by simp⟩
  | pushLock | pushTest | pushStore | pushSignal | pushUnlock =>
      exact filled_producer capacity log _ wake inv reached moved
  | stopFlag | stopLock | stopSignal | stopDestroy | stopUnlock =>
      exact filled_stopper capacity log _ wake inv reached moved

theorem initial_filled (capacity : Nat) (positive : 0 < capacity) : FilledInv capacity (FilledLog.initial capacity) := by
  refine ⟨run_reached capacity [] _ positive rfl, fun busy => absurd rfl busy, [], [], ?_, rfl, rfl⟩
  exact fresh_queue_rep capacity (WakeState.initial capacity).queue rfl positive rfl

theorem rest_written (capacity : Nat) (log : FilledLog) (inv : FilledInv capacity log) (rest : AtRest log.wake) :
    log.file = fileBytes log.stored := by
  obtain ⟨done, pending, rep, stored, file⟩ := inv.accounted
  have empty : pending = [] := List.eq_nil_of_length_eq_zero (rep.counted.symm.trans rest.drained)
  have free : log.hand = none := by
    by_contra busy
    have away := inv.idle busy
    rcases rest.logger with ⟨_, here⟩ | ⟨_, here⟩ <;> cases away.symm.trans here
  have left : leftWith log.wake.logger = none := by
    rcases rest.logger with ⟨_, here⟩ | ⟨_, here⟩ <;> rw [here] <;> rfl
  rw [file, stored, empty, free, left]
  simp

-- In any state of any run, slog_stop called or not: left alone, the threads come
-- to rest after a bounded number of steps, and where they rest the log file
-- holds every message that was accepted, in that order.
theorem log_system_settles (capacity : Nat) (labels : List WakeLabel) (log : FilledLog) (positive : 0 < capacity)
    (ran : labels.foldlM filledStep (FilledLog.initial capacity) = some log) :
    (∀ later, countSteps (fun label => !fromOutside label) (trace wakeStep log.wake later) ≤
      4 * log.wake.queue.size + 26 + 12 * countSteps fromOutside (trace wakeStep log.wake later)) ∧
    (CanGoOn log.wake ∨ (AtRest log.wake ∧ log.file = fileBytes log.stored)) := by
  have filled := reaches_invariant filledStep (FilledInv capacity) (filled_keeps capacity) _ log ⟨labels, ran⟩
    (initial_filled capacity positive)
  constructor
  · intro later
    have paid := paid_steps (fun before label next => wakeStep before label = some next) (Reached capacity) stepsDue
      fromOutside 12 (reached_next capacity)
      (fun before label next _ stepped outside => outside_charged before next label stepped outside)
      (step_due capacity) log.wake _ (trace_is_run wakeStep log.wake later) filled.reached
    have bounded := due_bounded log.wake
    omega
  · exact (never_stuck capacity log.wake filled.reached).imp_right fun rest => ⟨rest, rest_written capacity log filled rest⟩

-- Where nobody is inside the mutex and the logging thread sleeps, every step is
-- one from outside.
theorem asleep_still (capacity : Nat) (state : WakeState) (reached : Reached capacity state) (free : state.mutex = none)
    (running : state.stopper = .running) (asleep : state.logger = .waiting) : ¬ CanGoOn state := by
  have inv := (reached_inv capacity state reached).1
  have away : ∀ thread, state.producers thread = .away := by
    intro thread
    have outside : isInside state (.producer thread) ≠ true := by
      intro inside
      cases free.symm.trans ((inv.holder _).mp inside)
    rw [isInside] at outside
    cases here : state.producers thread with
    | away => rfl
    | testing | storing | signalling | leaving =>
        rw [here] at outside
        exact absurd rfl outside
  rintro ⟨label, own, enabled⟩
  cases label with
  | lock | test | wait | relock | take | unlock => simp [isEnabled, wakeStep, wakeLogger, asleep] at enabled
  | pushTest | pushStore | pushSignal | pushUnlock => simp [isEnabled, wakeStep, wakeProducer, away] at enabled
  | stopLock | stopSignal | stopDestroy | stopUnlock => simp [isEnabled, wakeStep, wakeStopper, running] at enabled
  | pushLock | wakeSpuriously | stopFlag => cases own

-- The thread falls asleep, is woken for one message, finds a second one behind it
-- and falls asleep again; a third one comes too early and is refused.
def restingRun : List WakeLabel :=
  [.lock, .test, .wait, .pushLock 0 (oneByte 97), .pushTest 0, .pushStore 0, .pushSignal 0, .pushUnlock 0,
    .pushLock 1 (oneByte 99), .pushTest 1, .pushUnlock 1, .relock, .test, .take, .unlock,
    .pushLock 1 (oneByte 98), .pushTest 1, .pushStore 1, .pushSignal 1, .pushUnlock 1, .lock, .test, .take,
    .unlock, .lock, .test, .wait]

theorem two_messages_settle : ∃ log, restingRun.foldlM filledStep (FilledLog.initial 1) = some log ∧
    log.stored.map QueueData.message = [[97], [98]] ∧ ¬ CanGoOn log.wake ∧ AtRest log.wake ∧
    log.file = fileBytes log.stored := by
  have runs : (restingRun.foldlM filledStep (FilledLog.initial 1)).map
      (fun log => (log.wake.mutex, log.wake.stopper, log.wake.logger, log.stored.map QueueData.message)) =
        some (none, .running, .waiting, [[97], [98]]) := by
    decide +kernel
  obtain ⟨log, ran, same⟩ := Option.map_eq_some_iff.mp runs
  simp only [Prod.mk.injEq] at same
  obtain ⟨free, running, asleep, stored⟩ := same
  have filled := reaches_invariant filledStep (FilledInv 1) (filled_keeps 1) _ log ⟨restingRun, ran⟩
    (initial_filled 1 (by decide))
  have still := asleep_still 1 log.wake filled.reached free running asleep
  exact ⟨log, ran, stored, still, (log_system_settles 1 restingRun log (by decide) ran).2.resolve_left still⟩

end Slogger.Logger
