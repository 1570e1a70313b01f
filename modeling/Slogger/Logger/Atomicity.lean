import Slogger.Lib.Simulation
import Slogger.Logger.Delivery
import Slogger.Logger.Wakeup

set_option autoImplicit false

namespace Slogger.Logger

open Slogger.Lib

-- Where the logging thread and slog_stop are in the system whose critical
-- sections are single steps. A message is in the file once dequeue returns it.
def atomicLogger : DequeuePc → LoggerPc
  | .leaving data => .writing data
  | .leavingEmpty => .closing
  | .ended => .ended
  | _ => .dequeuing

def atomicMain : StopPc → MainPc
  | .running => .running
  | .locking | .signalling | .destroying => .signalling
  | .leaving | .joining => .joining

abbrev atomicStep (capacity : Nat) := under singleCycle (step capacity)

-- enqueue takes effect at its test and dequeue when it takes: the atomic queue
-- is ahead by the message that a producer is about to store.
structure Atomic (capacity : Nat) (fine : WakeState) (coarse : LoggerState) : Prop where
  inv : WakeInv fine
  cycle : InSingleCycle capacity coarse
  safe : fine.fault = none
  settled : (∀ thread data, fine.producers thread ≠ .storing data) → coarse.queue = fine.queue
  stored : ∀ thread data, fine.producers thread = .storing data → storeRear fine.queue data = .ok coarse.queue
  logger : coarse.logger = atomicLogger fine.logger
  main : coarse.main = atomicMain fine.stopper
  called : ∀ thread data, fine.producers thread = .testing data → coarse.producers thread = .idle
  checked : fine.logger = .checking → mustWait fine.queue = false

theorem silent_keeps (capacity : Nat) (fine next : WakeState) (coarse : LoggerState)
    (atomic : Atomic capacity fine coarse) (inv : WakeInv next) (queue : next.queue = fine.queue)
    (fault : next.fault = fine.fault) (logger : atomicLogger next.logger = atomicLogger fine.logger)
    (main : atomicMain next.stopper = atomicMain fine.stopper)
    (storing : ∀ thread data, next.producers thread = .storing data ↔ fine.producers thread = .storing data)
    (called : ∀ thread data, next.producers thread = .testing data → coarse.producers thread = .idle)
    (checked : next.logger = .checking → mustWait fine.queue = false) : Atomic capacity next coarse where
  inv := inv
  cycle := atomic.cycle
  safe := by rw [fault, atomic.safe]
  settled nobody := by
    rw [queue]
    exact atomic.settled fun thread data here => nobody thread data ((storing thread data).mpr here)
  stored thread data here := by
    rw [queue]
    exact atomic.stored thread data ((storing thread data).mp here)
  logger := by rw [logger, atomic.logger]
  main := by rw [main, atomic.main]
  called := called
  checked there := by
    rw [queue]
    exact checked there

theorem nobody_storing (state : WakeState) (inv : WakeInv state) (party : Party) (here : isInside state party = true)
    (notProducer : ∀ thread, party ≠ .producer thread) (thread : Nat) (data : QueueData) :
    state.producers thread ≠ .storing data := by
  intro storing
  have nobody := nobody_stores state inv party here notProducer thread
  rw [storing] at nobody
  cases nobody

theorem cycle_safe (capacity : Nat) (coarse : LoggerState) (cycle : InSingleCycle capacity coarse) :
    coarse.fault = none := by
  obtain ⟨⟨pending, inv⟩, _⟩ := cycle
  exact inv.safe

-- A call that was refused before looks at the size a second time at the latest
-- before its thread calls again.
theorem report_if_refused (capacity : Nat) (fine : WakeState) (coarse : LoggerState) (thread : Nat)
    (atomic : Atomic capacity fine coarse) (away : fine.producers thread = .away) :
    ∃ after, Reaches (atomicStep capacity) coarse after ∧ Atomic capacity fine after ∧
      after.producers thread = .idle := by
  cases pc : coarse.producers thread with
  | idle => exact ⟨coarse, reaches_here _ coarse, atomic, pc⟩
  | refused data full =>
      have stepped : atomicStep capacity coarse (.report thread) = some { coarse with
          producers := setProducer coarse thread .idle
          calls := coarse.calls ++ [⟨data, true, full, isFull coarse.queue⟩] } := by
        simp [under, singleCycle, orderly, step, stepProducer, pc]
      refine ⟨_, reaches_step _ coarse _ _ stepped, ?_, if_pos rfl⟩
      exact { atomic with
        cycle := single_cycle_keeps capacity coarse _ _ atomic.cycle stepped
        called := fun other message testing => by
          by_cases same : other = thread
          · rw [same, away] at testing
            cases testing
          · exact (if_neg same).trans (atomic.called other message testing) }

theorem push_lock_matched (capacity : Nat) (fine : WakeState) (coarse : LoggerState) (thread : Nat) (data : QueueData)
    (atomic : Atomic capacity fine coarse) (away : fine.producers thread = .away) (free : fine.mutex = none) :
    ∃ after, Reaches (atomicStep capacity) coarse after ∧ Atomic capacity { fine with
      producers := setPusher fine thread (.testing data), mutex := some (.producer thread) } after := by
  obtain ⟨after, reached, there, idle⟩ := report_if_refused capacity fine coarse thread atomic away
  refine ⟨after, reached, ?_⟩
  apply silent_keeps capacity fine _ after there (push_lock_keeps fine thread data atomic.inv away free) rfl rfl rfl rfl
  · intro other message
    by_cases same : other = thread
    · simp [same, away]
    · simp only [set_pusher_other fine thread other _ same]
  · intro other message testing
    by_cases same : other = thread
    · rw [same]
      exact idle
    · exact there.called other message ((set_pusher_other fine thread other _ same).symm.trans testing)
  · exact there.checked

theorem others_away (fine : WakeState) (inv : WakeInv fine) (thread other : Nat)
    (here : (fine.producers thread).holds = true) (different : other ≠ thread) : fine.producers other = .away := by
  cases pc : fine.producers other with
  | away => rfl
  | testing | storing | signalling | leaving =>
      have same := alone_inside fine inv (.producer thread) (.producer other) here (by rw [isInside, pc]; rfl)
      exact absurd (Party.producer.inj same).symm different

theorem pusher_moved (fine : WakeState) (inv : WakeInv fine) (thread other : Nat) (pc shown : EnqueuePc)
    (here : (fine.producers thread).holds = true) (moved : setPusher fine thread pc other = shown)
    (inside : shown ≠ .away) : other = thread ∧ pc = shown := by
  by_cases same : other = thread
  · rw [same, set_pusher_same] at moved
    exact ⟨same, moved⟩
  · rw [set_pusher_other fine thread other pc same, others_away fine inv thread other here same] at moved
    exact absurd moved.symm inside

theorem started_always (stopper : StopPc) : slogStarted (atomicMain stopper) = true := by
  cases stopper <;> rfl

-- The refusal and the acceptance of a call are both decided by its test.
theorem push_test_matched (capacity : Nat) (fine : WakeState) (coarse : LoggerState) (thread : Nat) (data : QueueData)
    (atomic : Atomic capacity fine coarse) (here : fine.producers thread = .testing data) :
    ∃ after, Reaches (atomicStep capacity) coarse after ∧ Atomic capacity { fine with
      producers := setPusher fine thread (if refuses fine.queue then .leaving else .storing data) } after := by
  have inv := push_test_keeps fine thread data atomic.inv here
  have inside : (fine.producers thread).holds = true := by
    rw [here]
    rfl
  have queue : coarse.queue = fine.queue := atomic.settled fun other message => by
    by_cases same : other = thread
    · simp [same, here]
    · simp [others_away fine atomic.inv thread other inside same]
  have idle := atomic.called thread data here
  have started : slogStarted coarse.main = true := by
    rw [atomic.main]
    exact started_always fine.stopper
  cases refused : refuses fine.queue with
  | true =>
      have stepped : atomicStep capacity coarse (.enqueue thread data) = some { coarse with
          producers := setProducer coarse thread (.refused data (isFull coarse.queue))
          pushed := coarse.pushed ++ [data] } := by
        simp [under, singleCycle, orderly, step, stepProducer, idle, started, queue, refused]
      refine ⟨_, reaches_step _ coarse _ _ stepped, ?_⟩
      rw [refused] at inv
      exact { atomic with
        inv := inv
        cycle := single_cycle_keeps capacity coarse _ _ atomic.cycle stepped
        settled := fun _ => queue
        stored := fun other message moved => by
          cases (pusher_moved fine atomic.inv thread other _ _ inside moved (by simp)).2
        called := fun other message moved => by
          cases (pusher_moved fine atomic.inv thread other _ _ inside moved (by simp)).2 }
  | false =>
      rw [refused] at inv
      cases stored : storeRear fine.queue data with
      | error fault =>
          have stepped : atomicStep capacity coarse (.enqueue thread data) = some { coarse with fault := some fault } := by
            simp [under, singleCycle, orderly, step, stepProducer, idle, started, queue, refused, stored]
          cases cycle_safe capacity _ (single_cycle_keeps capacity coarse _ _ atomic.cycle stepped)
      | ok longer =>
          have stepped : atomicStep capacity coarse (.enqueue thread data) = some { coarse with
              queue := longer
              pushed := coarse.pushed ++ [data]
              accepted := coarse.accepted ++ [data]
              calls := coarse.calls ++ [⟨data, false, false, false⟩] } := by
            simp [under, singleCycle, orderly, step, stepProducer, idle, started, queue, refused, stored]
          refine ⟨_, reaches_step _ coarse _ _ stepped, ?_⟩
          exact { atomic with
            inv := inv
            cycle := single_cycle_keeps capacity coarse _ _ atomic.cycle stepped
            settled := fun nobody => absurd (set_pusher_same fine thread (.storing data)) (nobody thread data)
            stored := fun other message moved => by
              cases (pusher_moved fine atomic.inv thread other _ _ inside moved (by simp)).2
              exact stored
            called := fun other message moved => by
              cases (pusher_moved fine atomic.inv thread other _ _ inside moved (by simp)).2 }

theorem push_store_matched (capacity : Nat) (fine next : WakeState) (coarse : LoggerState) (thread : Nat)
    (atomic : Atomic capacity fine coarse) (stepped : wakeProducer fine (.pushStore thread) = some next) :
    Atomic capacity next coarse := by
  have inv := push_store_keeps fine next thread atomic.inv stepped
  simp only [wakeProducer] at stepped
  split at stepped
  · rename_i data here
    have inside : (fine.producers thread).holds = true := by
      rw [here]
      rfl
    rw [atomic.stored thread data here] at stepped
    obtain rfl := Option.some.inj stepped
    exact { atomic with
      inv := inv
      settled := fun _ => rfl
      stored := fun other message moved => by
        cases (pusher_moved fine atomic.inv thread other _ _ inside moved (by simp)).2
      called := fun other message moved => by
        cases (pusher_moved fine atomic.inv thread other _ _ inside moved (by simp)).2
      checked := fun checking => by
        have logger : isInside fine .logger = true := by
          rw [isInside, checking]
          rfl
        cases alone_inside fine atomic.inv .logger (.producer thread) logger inside }
  · cases stepped

theorem take_matched (capacity : Nat) (fine next : WakeState) (coarse : LoggerState)
    (atomic : Atomic capacity fine coarse) (stepped : wakeLogger fine .take = some next) :
    ∃ after, Reaches (atomicStep capacity) coarse after ∧ Atomic capacity next after := by
  have inv := take_keeps fine next atomic.inv stepped
  simp only [wakeLogger, Option.ite_none_right_eq_some] at stepped
  obtain ⟨here, stepped⟩ := stepped
  have inside : isInside fine .logger = true := by
    rw [isInside, here]
    rfl
  have nobody := nobody_storing fine atomic.inv .logger inside (by simp)
  have queue := atomic.settled nobody
  have awake := atomic.checked here
  have ready : coarse.logger = .dequeuing := by
    rw [atomic.logger, here]
    rfl
  cases drained : isDrained fine.queue with
  | true =>
      have closed : atomicStep capacity coarse .dequeue = some { coarse with logger := .closing } := by
        simp [under, singleCycle, orderly, step, stepLogger, ready, queue, awake, drained]
      rw [if_pos drained] at stepped
      obtain rfl := Option.some.inj stepped
      refine ⟨_, reaches_step _ coarse _ _ closed, ?_⟩
      exact { atomic with
        inv := inv
        cycle := single_cycle_keeps capacity coarse _ _ atomic.cycle closed
        logger := rfl
        checked := fun there => by cases there }
  | false =>
      rw [drained] at stepped
      cases taken : takeFront fine.queue with
      | error fault =>
          have broken : atomicStep capacity coarse .dequeue = some { coarse with fault := some fault } := by
            simp [under, singleCycle, orderly, step, stepLogger, ready, queue, awake, drained, taken]
          cases cycle_safe capacity _ (single_cycle_keeps capacity coarse _ _ atomic.cycle broken)
      | ok message =>
          obtain ⟨data, shorter⟩ := message
          have dequeued : atomicStep capacity coarse .dequeue = some { coarse with
              queue := shorter, logger := .writing data, consumed := coarse.consumed ++ [data] } := by
            simp [under, singleCycle, orderly, step, stepLogger, ready, queue, awake, drained, taken]
          rw [taken] at stepped
          obtain rfl := Option.some.inj stepped
          refine ⟨_, reaches_step _ coarse _ _ dequeued, ?_⟩
          exact { atomic with
            inv := inv
            cycle := single_cycle_keeps capacity coarse _ _ atomic.cycle dequeued
            settled := fun _ => rfl
            stored := fun other message storing => absurd storing (nobody other message)
            logger := rfl
            checked := fun there => by cases there }

theorem unlock_matched (capacity : Nat) (fine next : WakeState) (coarse : LoggerState)
    (atomic : Atomic capacity fine coarse) (stepped : wakeLogger fine .unlock = some next) :
    ∃ after, Reaches (atomicStep capacity) coarse after ∧ Atomic capacity next after := by
  have inv := unlock_keeps fine next atomic.inv stepped
  have logger := atomic.logger
  simp only [wakeLogger] at stepped
  split at stepped
  · rename_i data here
    obtain rfl := Option.some.inj stepped
    rw [here, atomicLogger] at logger
    have written : atomicStep capacity coarse .write = some { coarse with
        logger := .dequeuing, file := coarse.file ++ data.message } := by
      simp [under, singleCycle, orderly, step, stepLogger, logger]
    refine ⟨_, reaches_step _ coarse _ _ written, ?_⟩
    exact { atomic with
      inv := inv
      cycle := single_cycle_keeps capacity coarse _ _ atomic.cycle written
      logger := rfl
      checked := fun there => by cases there }
  · rename_i here
    obtain rfl := Option.some.inj stepped
    rw [here, atomicLogger] at logger
    have closed : atomicStep capacity coarse .close = some { coarse with logger := .ended } := by
      simp [under, singleCycle, orderly, step, stepLogger, logger]
    refine ⟨_, reaches_step _ coarse _ _ closed, ?_⟩
    exact { atomic with
      inv := inv
      cycle := single_cycle_keeps capacity coarse _ _ atomic.cycle closed
      logger := rfl
      checked := fun there => by cases there }
  · cases stepped

-- The flag is the one write outside the mutex: it may fall between the test of
-- a producer and its store, which then counts as made before.
theorem stop_flag_matched (capacity : Nat) (fine : WakeState) (coarse : LoggerState)
    (atomic : Atomic capacity fine coarse) (here : fine.stopper = .running) :
    ∃ after, Reaches (atomicStep capacity) coarse after ∧ Atomic capacity { fine with
      stopper := .locking, queue := { fine.queue with shutdown := true } } after := by
  have inv := stop_flag_keeps fine atomic.inv here
  have main := atomic.main
  rw [here, atomicMain] at main
  have stopped : atomicStep capacity coarse .setShutdown = some { coarse with
      main := .signalling, queue := { coarse.queue with shutdown := true } } := by
    simp [under, singleCycle, orderly, step, stepMain, main]
  refine ⟨_, reaches_step _ coarse _ _ stopped, ?_⟩
  exact { atomic with
    inv := inv
    cycle := single_cycle_keeps capacity coarse _ _ atomic.cycle stopped
    settled := fun nobody => by rw [atomic.settled nobody]
    stored := fun thread data storing => store_rear_stopped fine.queue coarse.queue data (atomic.stored thread data storing)
    main := rfl
    checked := fun _ => by simp [mustWait] }

theorem stop_destroy_matched (capacity : Nat) (fine next : WakeState) (coarse : LoggerState)
    (atomic : Atomic capacity fine coarse) (stepped : wakeStopper fine .stopDestroy = some next) :
    ∃ after, Reaches (atomicStep capacity) coarse after ∧ Atomic capacity next after := by
  have inv := stopper_keeps fine next .stopDestroy atomic.inv stepped
  simp only [wakeStopper, Option.ite_none_right_eq_some, Option.some.injEq] at stepped
  obtain ⟨here, rfl⟩ := stepped
  have main := atomic.main
  rw [here, atomicMain] at main
  have destroyed : atomicStep capacity coarse .signalDestroy = some { coarse with main := .joining } := by
    simp [under, singleCycle, orderly, step, stepMain, main]
  refine ⟨_, reaches_step _ coarse _ _ destroyed, ?_⟩
  exact { atomic with
    inv := inv
    cycle := single_cycle_keeps capacity coarse _ _ atomic.cycle destroyed
    main := rfl }

theorem signalled_silent (logger : DequeuePc) : atomicLogger (signalled logger) = atomicLogger logger ∧
    (signalled logger = .checking → logger = .checking) := by
  cases logger <;> simp [signalled, atomicLogger]

theorem logger_matched (capacity : Nat) (fine next : WakeState) (coarse : LoggerState) (label : WakeLabel)
    (atomic : Atomic capacity fine coarse) (stepped : wakeLogger fine label = some next) :
    ∃ after, Reaches (atomicStep capacity) coarse after ∧ Atomic capacity next after := by
  have inv := logger_keeps fine next label atomic.inv stepped
  cases label with
  | lock | relock =>
      simp only [wakeLogger, Option.ite_none_right_eq_some, Option.some.injEq] at stepped
      obtain ⟨⟨here, _⟩, rfl⟩ := stepped
      refine ⟨coarse, reaches_here _ coarse, ?_⟩
      exact silent_keeps capacity fine _ coarse atomic inv rfl rfl (by rw [here]; rfl) rfl
        (fun _ _ => Iff.rfl) atomic.called (fun there => by cases there)
  | test =>
      simp only [wakeLogger, Option.ite_none_right_eq_some, Option.some.injEq] at stepped
      obtain ⟨here, rfl⟩ := stepped
      refine ⟨coarse, reaches_here _ coarse, ?_⟩
      apply silent_keeps capacity fine _ coarse atomic inv rfl rfl ?_ rfl (fun _ _ => Iff.rfl) atomic.called
      · intro checking
        by_contra waits
        simp [waits] at checking
      · rw [here]
        dsimp only
        split <;> rfl
  | wait | wakeSpuriously =>
      simp only [wakeLogger, Option.ite_none_right_eq_some, Option.some.injEq] at stepped
      obtain ⟨here, rfl⟩ := stepped
      refine ⟨coarse, reaches_here _ coarse, ?_⟩
      exact silent_keeps capacity fine _ coarse atomic inv rfl rfl (by rw [here]; rfl) rfl
        (fun _ _ => Iff.rfl) atomic.called (fun there => by cases there)
  | take => exact take_matched capacity fine next coarse atomic stepped
  | unlock => exact unlock_matched capacity fine next coarse atomic stepped
  | _ => cases stepped

-- A producer past its store moves on without any other thread seeing it.
theorem leaving_matched (capacity : Nat) (fine next : WakeState) (coarse : LoggerState) (thread : Nat) (pc : EnqueuePc)
    (atomic : Atomic capacity fine coarse) (inv : WakeInv next) (queue : next.queue = fine.queue)
    (fault : next.fault = fine.fault) (logger : atomicLogger next.logger = atomicLogger fine.logger)
    (checked : next.logger = .checking → fine.logger = .checking) (main : next.stopper = fine.stopper)
    (moved : next.producers = setPusher fine thread pc) (before : ∀ data, fine.producers thread ≠ .storing data)
    (after : (∀ data, pc ≠ .storing data) ∧ ∀ data, pc ≠ .testing data) : Atomic capacity next coarse := by
  apply silent_keeps capacity fine next coarse atomic inv queue fault logger (by rw [main])
  · intro other data
    rw [moved]
    by_cases same : other = thread
    · simp [same, before, after.1]
    · rw [set_pusher_other fine thread other pc same]
  · intro other data testing
    rw [moved] at testing
    by_cases same : other = thread
    · rw [same, set_pusher_same] at testing
      exact absurd testing (after.2 data)
    · exact atomic.called other data ((set_pusher_other fine thread other pc same).symm.trans testing)
  · exact fun checking => atomic.checked (checked checking)

theorem producer_matched (capacity : Nat) (fine next : WakeState) (coarse : LoggerState) (label : WakeLabel)
    (atomic : Atomic capacity fine coarse) (stepped : wakeProducer fine label = some next) :
    ∃ after, Reaches (atomicStep capacity) coarse after ∧ Atomic capacity next after := by
  have inv := producer_keeps fine next label atomic.inv stepped
  cases label with
  | pushLock thread data =>
      simp only [wakeProducer, Option.ite_none_right_eq_some, Option.some.injEq] at stepped
      obtain ⟨⟨away, free⟩, rfl⟩ := stepped
      exact push_lock_matched capacity fine coarse thread data atomic away free
  | pushTest thread =>
      simp only [wakeProducer] at stepped
      split at stepped
      · rename_i data here
        obtain rfl := Option.some.inj stepped
        exact push_test_matched capacity fine coarse thread data atomic here
      · cases stepped
  | pushStore thread =>
      exact ⟨coarse, reaches_here _ coarse, push_store_matched capacity fine next coarse thread atomic stepped⟩
  | pushSignal thread =>
      simp only [wakeProducer, Option.ite_none_right_eq_some, Option.some.injEq] at stepped
      obtain ⟨here, rfl⟩ := stepped
      obtain ⟨silent, checked⟩ := signalled_silent fine.logger
      exact ⟨coarse, reaches_here _ coarse, leaving_matched capacity fine _ coarse thread .leaving atomic inv rfl rfl
        silent checked rfl rfl (by simp [here]) (by simp)⟩
  | pushUnlock thread =>
      simp only [wakeProducer, Option.ite_none_right_eq_some, Option.some.injEq] at stepped
      obtain ⟨here, rfl⟩ := stepped
      exact ⟨coarse, reaches_here _ coarse, leaving_matched capacity fine _ coarse thread .away atomic inv rfl rfl
        rfl id rfl rfl (by simp [here]) (by simp)⟩
  | _ => cases stepped

theorem stopper_matched (capacity : Nat) (fine next : WakeState) (coarse : LoggerState) (label : WakeLabel)
    (atomic : Atomic capacity fine coarse) (stepped : wakeStopper fine label = some next) :
    ∃ after, Reaches (atomicStep capacity) coarse after ∧ Atomic capacity next after := by
  have inv := stopper_keeps fine next label atomic.inv stepped
  cases label with
  | stopFlag =>
      simp only [wakeStopper, Option.ite_none_right_eq_some, Option.some.injEq] at stepped
      obtain ⟨here, rfl⟩ := stepped
      exact stop_flag_matched capacity fine coarse atomic here
  | stopLock =>
      simp only [wakeStopper, Option.ite_none_right_eq_some, Option.some.injEq] at stepped
      obtain ⟨⟨here, _⟩, rfl⟩ := stepped
      refine ⟨coarse, reaches_here _ coarse, ?_⟩
      exact silent_keeps capacity fine _ coarse atomic inv rfl rfl rfl (by rw [here]; rfl)
        (fun _ _ => Iff.rfl) atomic.called atomic.checked
  | stopSignal =>
      simp only [wakeStopper, Option.ite_none_right_eq_some, Option.some.injEq] at stepped
      obtain ⟨here, rfl⟩ := stepped
      obtain ⟨silent, checked⟩ := signalled_silent fine.logger
      refine ⟨coarse, reaches_here _ coarse, ?_⟩
      exact silent_keeps capacity fine _ coarse atomic inv rfl rfl silent (by rw [here]; rfl)
        (fun _ _ => Iff.rfl) atomic.called (fun checking => atomic.checked (checked checking))
  | stopDestroy => exact stop_destroy_matched capacity fine next coarse atomic stepped
  | stopUnlock =>
      simp only [wakeStopper, Option.ite_none_right_eq_some, Option.some.injEq] at stepped
      obtain ⟨here, rfl⟩ := stepped
      refine ⟨coarse, reaches_here _ coarse, ?_⟩
      exact silent_keeps capacity fine _ coarse atomic inv rfl rfl rfl (by rw [here]; rfl)
        (fun _ _ => Iff.rfl) atomic.called atomic.checked
  | _ => cases stepped

theorem sections_simulated (capacity : Nat) : Simulates wakeStep (atomicStep capacity) (Atomic capacity) := by
  intro fine label next coarse atomic stepped
  cases label with
  | lock | test | wait | wakeSpuriously | relock | take | unlock =>
      simp only [wakeStep] at stepped
      exact logger_matched capacity fine next coarse _ atomic stepped
  | pushLock | pushTest | pushStore | pushSignal | pushUnlock =>
      simp only [wakeStep] at stepped
      exact producer_matched capacity fine next coarse _ atomic stepped
  | stopFlag | stopLock | stopSignal | stopDestroy | stopUnlock =>
      simp only [wakeStep] at stepped
      exact stopper_matched capacity fine next coarse _ atomic stepped

def startedState (capacity : Nat) : LoggerState where
  queue := (WakeState.initial capacity).queue
  main := .running
  logger := .dequeuing
  producers _ := .idle
  file := []
  cycle := 0
  pushed := []
  accepted := []
  consumed := []
  calls := []
  fault := none

theorem started_matched (capacity : Nat) (positive : 0 < capacity) :
    MatchedFrom (atomicStep capacity) (Atomic capacity) LoggerState.initial (WakeState.initial capacity) := by
  have reached : Reaches (atomicStep capacity) LoggerState.initial (startedState capacity) :=
    ⟨slogStart ++ [.openLog true], rfl⟩
  have cycle := reaches_invariant (atomicStep capacity) (InSingleCycle capacity) (single_cycle_keeps capacity)
    LoggerState.initial (startedState capacity) reached (initial_single_cycle capacity positive)
  refine ⟨startedState capacity, reached, ?_⟩
  exact {
    inv := initial_wake_inv capacity
    cycle := cycle
    safe := rfl
    settled := fun _ => rfl
    stored := fun _ _ storing => nomatch storing
    logger := rfl
    main := rfl
    called := fun _ _ testing => nomatch testing
    checked := fun there => nomatch there }

theorem free_settled (capacity : Nat) (fine : WakeState) (coarse : LoggerState) (atomic : Atomic capacity fine coarse)
    (free : fine.mutex = none) : coarse.queue = fine.queue := by
  apply atomic.settled
  intro thread data storing
  have inside := (atomic.inv.holder (.producer thread)).mp (by rw [isInside, storing]; rfl)
  rw [free] at inside
  cases inside

-- Whatever the threads do inside their critical sections, the queue that others
-- find is one of the atomic system, and no statement fails.
def LooksAtomic (capacity : Nat) (fine : WakeState) : Prop :=
  fine.fault = none ∧ ∃ coarse, Reaches (atomicStep capacity) LoggerState.initial coarse ∧
    LogConsistent capacity coarse ∧ (fine.mutex = none → coarse.queue = fine.queue) ∧
    coarse.logger = atomicLogger fine.logger ∧ coarse.main = atomicMain fine.stopper

theorem critical_sections_atomic (capacity : Nat) (labels : List WakeLabel) (positive : 0 < capacity) :
    Always (LooksAtomic capacity) (WakeState.initial capacity) (trace wakeStep (WakeState.initial capacity) labels) := by
  have matched := matched_always wakeStep (atomicStep capacity) (Atomic capacity) (sections_simulated capacity)
    LoggerState.initial (WakeState.initial capacity) (started_matched capacity positive) labels
  apply always_imp _ _ _ _ _ matched
  rintro fine ⟨coarse, reached, atomic⟩
  obtain ⟨⟨pending, inv⟩, first⟩ := atomic.cycle
  exact ⟨atomic.safe, coarse, reached, inv_consistent capacity coarse pending inv first,
    free_settled capacity fine coarse atomic, atomic.logger, atomic.main⟩

end Slogger.Logger
