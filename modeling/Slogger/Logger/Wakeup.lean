import Slogger.Lib.Mutex
import Slogger.Lib.Runs
import Slogger.Logger.Queue

set_option autoImplicit false

namespace Slogger.Logger

open Slogger.Lib

inductive Party where
  | logger
  | producer (thread : Nat)
  | stopper
deriving DecidableEq

-- The logging thread in and around dequeue: about to wait it still holds the
-- mutex, woken it has to take it again.
inductive DequeuePc where
  | away
  | testing
  | aboutToWait
  | waiting
  | woken
  | checking
  | leaving (data : QueueData)
  | leavingEmpty
  | ended
deriving DecidableEq

inductive EnqueuePc where
  | away
  | testing (data : QueueData)
  | storing (data : QueueData)
  | signalling
  | leaving
deriving DecidableEq

inductive StopPc where
  | running
  | locking
  | signalling
  | destroying
  | leaving
  | joining
deriving DecidableEq

def DequeuePc.holds : DequeuePc → Bool
  | .testing | .aboutToWait | .checking | .leaving _ | .leavingEmpty => true
  | _ => false

def EnqueuePc.holds : EnqueuePc → Bool
  | .away => false
  | _ => true

def StopPc.holds : StopPc → Bool
  | .signalling | .destroying | .leaving => true
  | _ => false

structure WakeState where
  queue : Queue
  mutex : Option Party
  logger : DequeuePc
  producers : Nat → EnqueuePc
  stopper : StopPc
  destroyed : Bool
  fault : Option Fault

-- slog_start has returned.
def WakeState.initial (capacity : Nat) : WakeState where
  queue := ⟨0, 0, false, .live (List.replicate capacity none), capacity⟩
  mutex := none
  logger := .away
  producers _ := .away
  stopper := .running
  destroyed := false
  fault := none

inductive WakeLabel where
  | lock
  | test
  | wait
  | wakeSpuriously
  | relock
  | take
  | unlock
  | pushLock (thread : Nat) (data : QueueData)
  | pushTest (thread : Nat)
  | pushStore (thread : Nat)
  | pushSignal (thread : Nat)
  | pushUnlock (thread : Nat)
  | stopFlag
  | stopLock
  | stopSignal
  | stopDestroy
  | stopUnlock
deriving DecidableEq

def signalled (logger : DequeuePc) : DequeuePc := if logger = .waiting then .woken else logger

def setPusher (state : WakeState) (thread : Nat) (pc : EnqueuePc) : Nat → EnqueuePc :=
  fun other => if other = thread then pc else state.producers other

-- dequeue; pthread_cond_wait gives the mutex back and falls asleep in one step.
def wakeLogger (state : WakeState) : WakeLabel → Option WakeState
  | .lock =>
      if state.logger = .away ∧ state.mutex = none then
        some { state with logger := .testing, mutex := some .logger }
      else none
  | .test =>
      if state.logger = .testing then
        some { state with logger := if mustWait state.queue then .aboutToWait else .checking }
      else none
  | .wait => if state.logger = .aboutToWait then some { state with logger := .waiting, mutex := none } else none
  | .wakeSpuriously => if state.logger = .waiting then some { state with logger := .woken } else none
  | .relock =>
      if state.logger = .woken ∧ state.mutex = none then
        some { state with logger := .testing, mutex := some .logger }
      else none
  | .take =>
      if state.logger = .checking then
        if isDrained state.queue then some { state with logger := .leavingEmpty }
        else
          match takeFront state.queue with
          | .error fault => some { state with fault := some fault }
          | .ok (data, queue) => some { state with queue := queue, logger := .leaving data }
      else none
  | .unlock =>
      match state.logger with
      | .leaving _ => some { state with logger := .away, mutex := none }
      | .leavingEmpty => some { state with logger := .ended, mutex := none }
      | _ => none
  | _ => none

def wakeProducer (state : WakeState) : WakeLabel → Option WakeState
  | .pushLock thread data =>
      if state.producers thread = .away ∧ state.mutex = none then
        some { state with producers := setPusher state thread (.testing data), mutex := some (.producer thread) }
      else none
  | .pushTest thread =>
      match state.producers thread with
      | .testing data =>
          some { state with
            producers := setPusher state thread (if refuses state.queue then .leaving else .storing data) }
      | _ => none
  | .pushStore thread =>
      match state.producers thread with
      | .storing data =>
          match storeRear state.queue data with
          | .error fault => some { state with fault := some fault }
          | .ok queue => some { state with queue := queue, producers := setPusher state thread .signalling }
      | _ => none
  | .pushSignal thread =>
      if state.producers thread = .signalling then
        some { state with logger := signalled state.logger, producers := setPusher state thread .leaving }
      else none
  | .pushUnlock thread =>
      if state.producers thread = .leaving then
        some { state with producers := setPusher state thread .away, mutex := none }
      else none
  | _ => none

def wakeStopper (state : WakeState) : WakeLabel → Option WakeState
  | .stopFlag =>
      if state.stopper = .running then
        some { state with stopper := .locking, queue := { state.queue with shutdown := true } }
      else none
  | .stopLock =>
      if state.stopper = .locking ∧ state.mutex = none then
        some { state with stopper := .signalling, mutex := some .stopper }
      else none
  | .stopSignal =>
      if state.stopper = .signalling then
        some { state with stopper := .destroying, logger := signalled state.logger }
      else none
  | .stopDestroy => if state.stopper = .destroying then some { state with stopper := .leaving, destroyed := true } else none
  | .stopUnlock => if state.stopper = .leaving then some { state with stopper := .joining, mutex := none } else none
  | _ => none

def wakeStep (state : WakeState) (label : WakeLabel) : Option WakeState :=
  match label with
  | .lock | .test | .wait | .wakeSpuriously | .relock | .take | .unlock => wakeLogger state label
  | .pushLock _ _ | .pushTest _ | .pushStore _ | .pushSignal _ | .pushUnlock _ => wakeProducer state label
  | _ => wakeStopper state label

def signalExecuted : StopPc → Bool
  | .destroying | .leaving | .joining => true
  | _ => false

def returnsNull : DequeuePc → Bool
  | .leavingEmpty | .ended => true
  | _ => false

def EnqueuePc.stores : EnqueuePc → Bool
  | .storing _ | .signalling => true
  | _ => false

def isInside (state : WakeState) : Party → Bool
  | .logger => state.logger.holds
  | .producer thread => (state.producers thread).holds
  | .stopper => state.stopper.holds

structure WakeInv (state : WakeState) : Prop where
  holder : ∀ party, isInside state party = true ↔ state.mutex = some party
  flag : state.queue.shutdown = true ↔ state.stopper ≠ .running
  drowsy : state.logger = .aboutToWait → state.queue.size = 0 ∧ signalExecuted state.stopper = false
  asleep : state.logger = .waiting → signalExecuted state.stopper = false ∧
    (state.queue.size = 0 ∨ ∃ thread, state.producers thread = .signalling)
  drained : returnsNull state.logger = true → state.queue.size = 0 ∧ state.queue.shutdown = true ∧
    ∀ thread, (state.producers thread).stores = false
  quiet : signalExecuted state.stopper = true → ∀ thread, (state.producers thread).stores = false
  retired : state.destroyed = true → signalExecuted state.stopper = true

@[simp] theorem set_pusher_same (state : WakeState) (thread : Nat) (pc : EnqueuePc) :
    setPusher state thread pc thread = pc := if_pos rfl

theorem set_pusher_other (state : WakeState) (thread other : Nat) (pc : EnqueuePc) (different : other ≠ thread) :
    setPusher state thread pc other = state.producers other := if_neg different

theorem alone_inside (state : WakeState) (inv : WakeInv state) (party other : Party)
    (here : isInside state party = true) (there : isInside state other = true) : party = other :=
  guards_alone state.mutex (isInside state) inv.holder party other here there

theorem holder_kept (state next : WakeState) (mover : Party) (inv : WakeInv state) (mutex : next.mutex = state.mutex)
    (inside : isInside next mover = isInside state mover)
    (others : ∀ party, party ≠ mover → isInside next party = isInside state party) (party : Party) :
    isInside next party = true ↔ next.mutex = some party := by
  rw [mutex]
  exact guards_kept state.mutex (isInside state) (isInside next) mover inv.holder inside others party

theorem holder_entered (state next : WakeState) (mover : Party) (inv : WakeInv state) (free : state.mutex = none)
    (mutex : next.mutex = some mover) (entered : isInside next mover = true)
    (others : ∀ party, party ≠ mover → isInside next party = isInside state party) (party : Party) :
    isInside next party = true ↔ next.mutex = some party := by
  rw [mutex]
  exact guards_entered (isInside state) (isInside next) mover (free ▸ inv.holder) entered others party

theorem holder_left (state next : WakeState) (mover : Party) (inv : WakeInv state)
    (held : isInside state mover = true) (mutex : next.mutex = none) (left : isInside next mover = false)
    (others : ∀ party, party ≠ mover → isInside next party = isInside state party) (party : Party) :
    isInside next party = true ↔ next.mutex = some party := by
  rw [mutex]
  exact guards_left state.mutex (isInside state) (isInside next) mover inv.holder held left others party

theorem logger_moved (state next : WakeState) (producers : next.producers = state.producers)
    (stopper : next.stopper = state.stopper) (party : Party) (other : party ≠ .logger) :
    isInside next party = isInside state party := by
  cases party with
  | logger => exact absurd rfl other
  | producer thread => rw [isInside, isInside, producers]
  | stopper => rw [isInside, isInside, stopper]

theorem producer_moved (state next : WakeState) (thread : Nat) (pc : EnqueuePc)
    (producers : next.producers = setPusher state thread pc) (logger : next.logger.holds = state.logger.holds)
    (stopper : next.stopper = state.stopper) (party : Party) (other : party ≠ .producer thread) :
    isInside next party = isInside state party := by
  cases party with
  | logger => exact logger
  | producer mover =>
      have different : mover ≠ thread := fun same => other (by rw [same])
      rw [isInside, isInside, producers, set_pusher_other state thread mover pc different]
  | stopper => rw [isInside, isInside, stopper]

theorem pusher_inside (state next : WakeState) (thread : Nat) (pc : EnqueuePc)
    (producers : next.producers = setPusher state thread pc) : isInside next (.producer thread) = pc.holds := by
  rw [isInside, producers, set_pusher_same]

theorem stopper_moved (state next : WakeState) (producers : next.producers = state.producers)
    (logger : next.logger.holds = state.logger.holds) (party : Party) (other : party ≠ .stopper) :
    isInside next party = isInside state party := by
  cases party with
  | logger => exact logger
  | producer thread => rw [isInside, isInside, producers]
  | stopper => exact absurd rfl other

theorem signalled_cases (logger : DequeuePc) : signalled logger ≠ .waiting ∧
    (signalled logger).holds = logger.holds ∧ returnsNull (signalled logger) = returnsNull logger ∧
    (signalled logger = .aboutToWait → logger = .aboutToWait) := by
  cases logger <;> simp [signalled, DequeuePc.holds, returnsNull]

theorem stores_nowhere (state : WakeState) (thread : Nat) (pc : EnqueuePc)
    (nobody : ∀ other, (state.producers other).stores = false) (moved : pc.stores = false) (other : Nat) :
    (setPusher state thread pc other).stores = false := by
  by_cases same : other = thread
  · rw [same, set_pusher_same]
    exact moved
  · rw [set_pusher_other state thread other pc same]
    exact nobody other

theorem signalling_elsewhere (state : WakeState) (thread : Nat) (pc : EnqueuePc)
    (here : state.producers thread ≠ .signalling)
    (pending : state.queue.size = 0 ∨ ∃ other, state.producers other = .signalling) :
    state.queue.size = 0 ∨ ∃ other, setPusher state thread pc other = .signalling := by
  refine pending.imp id fun ⟨other, signals⟩ => ⟨other, ?_⟩
  rw [set_pusher_other state thread other pc (fun same => here (same ▸ signals))]
  exact signals

theorem nobody_stores (state : WakeState) (inv : WakeInv state) (party : Party) (here : isInside state party = true)
    (notProducer : ∀ thread, party ≠ .producer thread) (thread : Nat) : (state.producers thread).stores = false := by
  cases pc : state.producers thread with
  | away | testing | leaving => rfl
  | storing | signalling =>
      have inside : isInside state (.producer thread) = true := by
        rw [isInside, pc]
        rfl
      exact absurd (alone_inside state inv party (.producer thread) here inside) (notProducer thread)

theorem executed_running (state : WakeState) (inv : WakeInv state) (executed : signalExecuted state.stopper = true) :
    state.queue.shutdown = true := by
  rw [inv.flag]
  intro running
  rw [running] at executed
  cases executed

theorem lock_keeps (state : WakeState) (inv : WakeInv state) (free : state.mutex = none) :
    WakeInv { state with logger := .testing, mutex := some .logger } where
  holder := holder_entered state _ .logger inv free rfl rfl (logger_moved state _ rfl rfl)
  flag := inv.flag
  drowsy there := nomatch there
  asleep there := nomatch there
  drained there := nomatch there
  quiet := inv.quiet
  retired := inv.retired

-- A loop that decides to wait has read the flag clear: slog_stop has not even
-- asked for the mutex that it holds while it signals.
theorem test_keeps (state : WakeState) (inv : WakeInv state) (here : state.logger = .testing) :
    WakeInv { state with logger := if mustWait state.queue then .aboutToWait else .checking } where
  holder := by
    refine holder_kept state _ .logger inv rfl ?_ (logger_moved state _ rfl rfl)
    rw [isInside, isInside, here]
    dsimp only
    split <;> rfl
  flag := inv.flag
  drowsy there := by
    have waits : mustWait state.queue = true := by
      by_contra goes
      simp [goes] at there
    obtain ⟨empty, clear⟩ := (must_wait_iff state.queue).mp waits
    refine ⟨empty, ?_⟩
    by_contra executed
    have shutdown := executed_running state inv (by simpa using executed)
    rw [clear] at shutdown
    cases shutdown
  asleep there := by
    split at there <;> cases there
  drained there := by
    dsimp only at there
    split at there <;> cases there
  quiet := inv.quiet
  retired := inv.retired

-- The queue is still empty when the thread falls asleep: it has held the mutex
-- since its test.
theorem wait_keeps (state : WakeState) (inv : WakeInv state) (here : state.logger = .aboutToWait) :
    WakeInv { state with logger := .waiting, mutex := none } where
  holder := holder_left state _ .logger inv (by rw [isInside, here]; rfl) rfl rfl (logger_moved state _ rfl rfl)
  flag := inv.flag
  drowsy there := nomatch there
  asleep _ := ⟨(inv.drowsy here).2, .inl (inv.drowsy here).1⟩
  drained there := nomatch there
  quiet := inv.quiet
  retired := inv.retired

theorem wake_keeps (state : WakeState) (inv : WakeInv state) (here : state.logger = .waiting) :
    WakeInv { state with logger := .woken } where
  holder := holder_kept state _ .logger inv rfl (by rw [isInside, isInside, here]; rfl) (logger_moved state _ rfl rfl)
  flag := inv.flag
  drowsy there := nomatch there
  asleep there := nomatch there
  drained there := nomatch there
  quiet := inv.quiet
  retired := inv.retired

theorem take_keeps (state next : WakeState) (inv : WakeInv state) (stepped : wakeLogger state .take = some next) :
    WakeInv next := by
  simp only [wakeLogger, Option.ite_none_right_eq_some] at stepped
  obtain ⟨here, stepped⟩ := stepped
  have inside : isInside state .logger = true := by
    rw [isInside, here]
    rfl
  have nobody := nobody_stores state inv .logger inside (by simp)
  split at stepped
  · rename_i drained
    obtain rfl := Option.some.inj stepped
    obtain ⟨empty, shutdown⟩ := (is_drained_iff state.queue).mp drained
    exact { inv with
      holder := holder_kept state _ .logger inv rfl inside.symm (logger_moved state _ rfl rfl)
      drowsy := fun there => nomatch there
      asleep := fun there => nomatch there
      drained := fun _ => ⟨empty, shutdown, nobody⟩ }
  · split at stepped
    · obtain rfl := Option.some.inj stepped
      exact { inv with }
    · rename_i data queue taken
      obtain rfl := Option.some.inj stepped
      have same := (take_front_size state.queue queue data taken).2
      exact { inv with
        holder := holder_kept state _ .logger inv rfl inside.symm (logger_moved state _ rfl rfl)
        flag := by rw [same]; exact inv.flag
        drowsy := fun there => nomatch there
        asleep := fun there => nomatch there
        drained := fun there => nomatch there }

theorem unlock_keeps (state next : WakeState) (inv : WakeInv state) (stepped : wakeLogger state .unlock = some next) :
    WakeInv next := by
  simp only [wakeLogger] at stepped
  split at stepped
  · rename_i data here
    obtain rfl := Option.some.inj stepped
    exact { inv with
      holder := holder_left state _ .logger inv (by rw [isInside, here]; rfl) rfl rfl (logger_moved state _ rfl rfl)
      drowsy := fun there => nomatch there
      asleep := fun there => nomatch there
      drained := fun there => nomatch there }
  · rename_i here
    obtain rfl := Option.some.inj stepped
    have drained := inv.drained (by rw [here]; rfl)
    exact { inv with
      holder := holder_left state _ .logger inv (by rw [isInside, here]; rfl) rfl rfl (logger_moved state _ rfl rfl)
      drowsy := fun there => nomatch there
      asleep := fun there => nomatch there
      drained := fun _ => drained }
  · cases stepped

theorem logger_keeps (state next : WakeState) (label : WakeLabel) (inv : WakeInv state)
    (stepped : wakeLogger state label = some next) : WakeInv next := by
  cases label with
  | lock =>
      simp only [wakeLogger, Option.ite_none_right_eq_some, Option.some.injEq] at stepped
      obtain ⟨⟨_, free⟩, rfl⟩ := stepped
      exact lock_keeps state inv free
  | test =>
      simp only [wakeLogger, Option.ite_none_right_eq_some, Option.some.injEq] at stepped
      obtain ⟨here, rfl⟩ := stepped
      exact test_keeps state inv here
  | wait =>
      simp only [wakeLogger, Option.ite_none_right_eq_some, Option.some.injEq] at stepped
      obtain ⟨here, rfl⟩ := stepped
      exact wait_keeps state inv here
  | wakeSpuriously =>
      simp only [wakeLogger, Option.ite_none_right_eq_some, Option.some.injEq] at stepped
      obtain ⟨here, rfl⟩ := stepped
      exact wake_keeps state inv here
  | relock =>
      simp only [wakeLogger, Option.ite_none_right_eq_some, Option.some.injEq] at stepped
      obtain ⟨⟨_, free⟩, rfl⟩ := stepped
      exact lock_keeps state inv free
  | take => exact take_keeps state next inv stepped
  | unlock => exact unlock_keeps state next inv stepped
  | _ => cases stepped

-- A producer that had no signal to give moves; once the flag is set it does not
-- go on to store.
theorem push_moves_keeps (state : WakeState) (thread : Nat) (pc : EnqueuePc) (mutex : Option Party) (inv : WakeInv state)
    (holder : ∀ party, isInside { state with producers := setPusher state thread pc, mutex := mutex } party = true ↔
      mutex = some party)
    (silent : state.producers thread ≠ .signalling) (stores : state.queue.shutdown = true → pc.stores = false) :
    WakeInv { state with producers := setPusher state thread pc, mutex := mutex } where
  holder := holder
  flag := inv.flag
  drowsy := inv.drowsy
  asleep there := by
    obtain ⟨early, pending⟩ := inv.asleep there
    exact ⟨early, signalling_elsewhere state thread pc silent pending⟩
  drained there := by
    obtain ⟨empty, shutdown, nobody⟩ := inv.drained there
    exact ⟨empty, shutdown, stores_nowhere state thread pc nobody (stores shutdown)⟩
  quiet executed := by
    have shutdown := executed_running state inv executed
    exact stores_nowhere state thread pc (inv.quiet executed) (stores shutdown)
  retired := inv.retired

theorem push_lock_keeps (state : WakeState) (thread : Nat) (data : QueueData) (inv : WakeInv state)
    (away : state.producers thread = .away) (free : state.mutex = none) :
    WakeInv { state with
      producers := setPusher state thread (.testing data), mutex := some (.producer thread) } := by
  apply push_moves_keeps state thread (.testing data) (some (.producer thread)) inv
  · exact holder_entered state _ (.producer thread) inv free rfl (pusher_inside state _ thread (.testing data) rfl)
      (producer_moved state _ thread _ rfl rfl rfl)
  · simp [away]
  · exact fun _ => rfl

-- A producer that goes on to store has read the flag clear inside its section:
-- no later enqueue comes this far.
theorem push_test_keeps (state : WakeState) (thread : Nat) (data : QueueData) (inv : WakeInv state)
    (here : state.producers thread = .testing data) :
    WakeInv { state with
      producers := setPusher state thread (if refuses state.queue then .leaving else .storing data) } := by
  apply push_moves_keeps state thread _ state.mutex inv
  · refine holder_kept state _ (.producer thread) inv rfl ?_ (producer_moved state _ thread _ rfl rfl rfl)
    rw [pusher_inside state _ thread _ rfl, isInside, here]
    split <;> rfl
  · simp [here]
  · intro shutdown
    rw [if_pos (refuses_shutdown state.queue shutdown)]
    rfl

theorem push_store_keeps (state next : WakeState) (thread : Nat) (inv : WakeInv state)
    (stepped : wakeProducer state (.pushStore thread) = some next) : WakeInv next := by
  simp only [wakeProducer] at stepped
  split at stepped
  · rename_i data here
    split at stepped
    · obtain rfl := Option.some.inj stepped
      exact { inv with }
    · rename_i queue stored
      obtain rfl := Option.some.inj stepped
      have same := (store_rear_size state.queue queue data stored).2
      have inside : isInside state (.producer thread) = true := by
        rw [isInside, here]
        rfl
      have storing : (state.producers thread).stores = true := by
        rw [here]
        rfl
      exact
        { holder := holder_kept state _ (.producer thread) inv rfl
            ((pusher_inside state _ thread .signalling rfl).trans inside.symm) (producer_moved state _ thread _ rfl rfl rfl)
          flag := by rw [same]; exact inv.flag
          drowsy := fun there => by
            have logger : isInside state .logger = true := by
              rw [isInside, there]
              rfl
            cases alone_inside state inv .logger (.producer thread) logger inside
          asleep := fun there => ⟨(inv.asleep there).1, .inr ⟨thread, set_pusher_same state thread .signalling⟩⟩
          drained := fun there => by
            have nobody := (inv.drained there).2.2 thread
            rw [storing] at nobody
            cases nobody
          quiet := fun executed => by
            have nobody := inv.quiet executed thread
            rw [storing] at nobody
            cases nobody
          retired := inv.retired }
  · cases stepped

theorem push_signal_keeps (state : WakeState) (thread : Nat) (inv : WakeInv state)
    (here : state.producers thread = .signalling) :
    WakeInv { state with logger := signalled state.logger, producers := setPusher state thread .leaving } := by
  obtain ⟨awake, holds, returns, waits⟩ := signalled_cases state.logger
  exact
    { holder := holder_kept state _ (.producer thread) inv rfl
        ((pusher_inside state _ thread _ rfl).trans (by rw [isInside, here]; rfl)) (producer_moved state _ thread _ rfl holds rfl)
      flag := inv.flag
      drowsy := fun there => inv.drowsy (waits there)
      asleep := fun there => absurd there awake
      drained := fun there => by
        obtain ⟨empty, shutdown, nobody⟩ := inv.drained (returns.symm.trans there)
        exact ⟨empty, shutdown, stores_nowhere state thread _ nobody rfl⟩
      quiet := fun executed => stores_nowhere state thread _ (inv.quiet executed) rfl
      retired := inv.retired }

theorem push_unlock_keeps (state : WakeState) (thread : Nat) (inv : WakeInv state)
    (here : state.producers thread = .leaving) :
    WakeInv { state with producers := setPusher state thread .away, mutex := none } := by
  apply push_moves_keeps state thread .away none inv
  · exact holder_left state _ (.producer thread) inv (by rw [isInside, here]; rfl) rfl
      (pusher_inside state _ thread .away rfl) (producer_moved state _ thread _ rfl rfl rfl)
  · simp [here]
  · exact fun _ => rfl

theorem producer_keeps (state next : WakeState) (label : WakeLabel) (inv : WakeInv state)
    (stepped : wakeProducer state label = some next) : WakeInv next := by
  cases label with
  | pushLock thread data =>
      simp only [wakeProducer, Option.ite_none_right_eq_some, Option.some.injEq] at stepped
      obtain ⟨⟨away, free⟩, rfl⟩ := stepped
      exact push_lock_keeps state thread data inv away free
  | pushTest thread =>
      simp only [wakeProducer] at stepped
      split at stepped
      · rename_i data here
        obtain rfl := Option.some.inj stepped
        exact push_test_keeps state thread data inv here
      · cases stepped
  | pushStore thread => exact push_store_keeps state next thread inv stepped
  | pushSignal thread =>
      simp only [wakeProducer, Option.ite_none_right_eq_some, Option.some.injEq] at stepped
      obtain ⟨here, rfl⟩ := stepped
      exact push_signal_keeps state thread inv here
  | pushUnlock thread =>
      simp only [wakeProducer, Option.ite_none_right_eq_some, Option.some.injEq] at stepped
      obtain ⟨here, rfl⟩ := stepped
      exact push_unlock_keeps state thread inv here
  | _ => cases stepped

theorem stop_flag_keeps (state : WakeState) (inv : WakeInv state) (here : state.stopper = .running) :
    WakeInv { state with stopper := .locking, queue := { state.queue with shutdown := true } } where
  holder := holder_kept state _ .stopper inv rfl (by rw [isInside, isInside, here]; rfl) (stopper_moved state _ rfl rfl)
  flag := by simp
  drowsy there := ⟨(inv.drowsy there).1, rfl⟩
  asleep there := ⟨rfl, (inv.asleep there).2⟩
  drained there := ⟨(inv.drained there).1, rfl, (inv.drained there).2.2⟩
  quiet executed := nomatch executed
  retired destroyed := by
    have executed := inv.retired destroyed
    rw [here] at executed
    cases executed

theorem stop_lock_keeps (state : WakeState) (inv : WakeInv state) (here : state.stopper = .locking)
    (free : state.mutex = none) : WakeInv { state with stopper := .signalling, mutex := some .stopper } where
  holder := holder_entered state _ .stopper inv free rfl rfl (stopper_moved state _ rfl rfl)
  flag := by
    have flag := inv.flag
    rw [here] at flag
    simpa using flag
  drowsy there := ⟨(inv.drowsy there).1, rfl⟩
  asleep there := ⟨rfl, (inv.asleep there).2⟩
  drained := inv.drained
  quiet executed := nomatch executed
  retired destroyed := by
    have executed := inv.retired destroyed
    rw [here] at executed
    cases executed

-- The stopper signals inside its section: nobody else is between a test and
-- what follows from it, and a sleeping thread wakes.
theorem stop_signal_keeps (state : WakeState) (inv : WakeInv state) (here : state.stopper = .signalling) :
    WakeInv { state with stopper := .destroying, logger := signalled state.logger } := by
  obtain ⟨awake, holds, returns, waits⟩ := signalled_cases state.logger
  have inside : isInside state .stopper = true := by
    rw [isInside, here]
    rfl
  exact
    { holder := holder_kept state _ .stopper inv rfl inside.symm (stopper_moved state _ rfl holds)
      flag := by
        have flag := inv.flag
        rw [here] at flag
        simpa using flag
      drowsy := fun there => by
        have logger : isInside state .logger = true := by
          rw [isInside, waits there]
          rfl
        cases alone_inside state inv .logger .stopper logger inside
      asleep := fun there => absurd there awake
      drained := fun there => inv.drained (returns.symm.trans there)
      quiet := fun _ => nobody_stores state inv .stopper inside (by simp)
      retired := fun _ => rfl }

theorem stop_moves (state : WakeState) (inv : WakeInv state) (stopper : StopPc) (destroyed : Bool)
    (mutex : Option Party) (before : signalExecuted state.stopper = true) (after : signalExecuted stopper = true)
    (held : isInside state .stopper = true) (moved : (stopper.holds = true ∧ mutex = state.mutex) ∨
      (stopper.holds = false ∧ mutex = none)) :
    WakeInv { state with stopper := stopper, destroyed := destroyed, mutex := mutex } where
  holder := by
    rcases moved with ⟨inside, rfl⟩ | ⟨outside, rfl⟩
    · exact holder_kept state _ .stopper inv rfl (inside.trans held.symm) (stopper_moved state _ rfl rfl)
    · exact holder_left state _ .stopper inv held rfl outside (stopper_moved state _ rfl rfl)
  flag := by
    have shutdown := executed_running state inv before
    have past : stopper ≠ .running := by
      rintro rfl
      cases after
    simp [shutdown, past]
  drowsy there := by
    have early := (inv.drowsy there).2
    rw [before] at early
    cases early
  asleep there := by
    have early := (inv.asleep there).1
    rw [before] at early
    cases early
  drained := inv.drained
  quiet _ := inv.quiet before
  retired _ := after

theorem stopper_keeps (state next : WakeState) (label : WakeLabel) (inv : WakeInv state)
    (stepped : wakeStopper state label = some next) : WakeInv next := by
  cases label with
  | stopFlag =>
      simp only [wakeStopper, Option.ite_none_right_eq_some, Option.some.injEq] at stepped
      obtain ⟨here, rfl⟩ := stepped
      exact stop_flag_keeps state inv here
  | stopLock =>
      simp only [wakeStopper, Option.ite_none_right_eq_some, Option.some.injEq] at stepped
      obtain ⟨⟨here, free⟩, rfl⟩ := stepped
      exact stop_lock_keeps state inv here free
  | stopSignal =>
      simp only [wakeStopper, Option.ite_none_right_eq_some, Option.some.injEq] at stepped
      obtain ⟨here, rfl⟩ := stepped
      exact stop_signal_keeps state inv here
  | stopDestroy =>
      simp only [wakeStopper, Option.ite_none_right_eq_some, Option.some.injEq] at stepped
      obtain ⟨here, rfl⟩ := stepped
      exact stop_moves state inv .leaving true state.mutex (by rw [here]; rfl) rfl (by rw [isInside, here]; rfl)
        (.inl ⟨rfl, rfl⟩)
  | stopUnlock =>
      simp only [wakeStopper, Option.ite_none_right_eq_some, Option.some.injEq] at stepped
      obtain ⟨here, rfl⟩ := stepped
      exact stop_moves state inv .joining state.destroyed none (by rw [here]; rfl) rfl (by rw [isInside, here]; rfl)
        (.inr ⟨rfl, rfl⟩)
  | _ => cases stepped

theorem wake_step_keeps (state next : WakeState) (label : WakeLabel) (inv : WakeInv state)
    (stepped : wakeStep state label = some next) : WakeInv next := by
  cases label with
  | lock | test | wait | wakeSpuriously | relock | take | unlock =>
      simp only [wakeStep] at stepped
      exact logger_keeps state next _ inv stepped
  | pushLock | pushTest | pushStore | pushSignal | pushUnlock =>
      simp only [wakeStep] at stepped
      exact producer_keeps state next _ inv stepped
  | stopFlag | stopLock | stopSignal | stopDestroy | stopUnlock =>
      simp only [wakeStep] at stepped
      exact stopper_keeps state next _ inv stepped

theorem initial_wake_inv (capacity : Nat) : WakeInv (WakeState.initial capacity) where
  holder party := by
    cases party <;> simp [isInside, WakeState.initial, DequeuePc.holds, EnqueuePc.holds, StopPc.holds]
  flag := by simp [WakeState.initial]
  drowsy there := nomatch there
  asleep there := nomatch there
  drained there := nomatch there
  quiet there := nomatch there
  retired there := nomatch there

-- The thread has been woken, or the producer that holds the mutex is about to
-- wake it with the signal that belongs to the message it has just stored.
def WakeupPending (state : WakeState) : Prop :=
  state.logger = .woken ∨ ∃ thread, (wakeStep state (.pushSignal thread)).map WakeState.logger = some .woken

structure WakeupSafe (state : WakeState) : Prop where
  asleep : state.logger = .waiting → ¬ WakeupPending state →
    state.queue.size = 0 ∧ signalExecuted state.stopper = false
  unlocked : state.logger = .waiting → state.mutex = none →
    state.queue.size = 0 ∧ signalExecuted state.stopper = false
  empty : returnsNull state.logger = true → state.queue.size = 0 ∧ state.queue.shutdown = true
  retired : state.destroyed = true → state.logger ≠ .waiting

def usesCond : WakeLabel → Bool
  | .wait | .pushSignal _ | .stopSignal => true
  | _ => false

theorem signal_wakes (state : WakeState) (thread : Nat) (asleep : state.logger = .waiting)
    (here : state.producers thread = .signalling) : WakeupPending state := by
  apply Or.inr
  exact ⟨thread, by simp [wakeStep, wakeProducer, here, signalled, asleep]⟩

theorem wake_inv_safe (state : WakeState) (inv : WakeInv state) : WakeupSafe state where
  asleep there unwoken := by
    obtain ⟨early, empty | ⟨thread, here⟩⟩ := inv.asleep there
    · exact ⟨empty, early⟩
    · exact absurd (signal_wakes state thread there here) unwoken
  unlocked there free := by
    obtain ⟨early, empty | ⟨thread, here⟩⟩ := inv.asleep there
    · exact ⟨empty, early⟩
    · have held := (inv.holder (.producer thread)).mp (by rw [isInside, here]; rfl)
      rw [free] at held
      cases held
  empty there := ⟨(inv.drained there).1, (inv.drained there).2.1⟩
  retired destroyed there := by
    have executed := inv.retired destroyed
    rw [(inv.asleep there).1] at executed
    cases executed

-- After the destruction nobody waits or signals: to wait a thread must have
-- read the flag clear, and so must a producer to signal.
theorem cond_unused (state next : WakeState) (label : WakeLabel) (inv : WakeInv state)
    (stepped : wakeStep state label = some next) (destroyed : state.destroyed = true) : usesCond label = false := by
  have executed := inv.retired destroyed
  cases label with
  | wait =>
      simp only [wakeStep, wakeLogger, Option.ite_none_right_eq_some] at stepped
      rw [(inv.drowsy stepped.1).2] at executed
      cases executed
  | pushSignal thread =>
      simp only [wakeStep, wakeProducer, Option.ite_none_right_eq_some] at stepped
      have nobody := inv.quiet executed thread
      rw [stepped.1] at nobody
      cases nobody
  | stopSignal =>
      simp only [wakeStep, wakeStopper, Option.ite_none_right_eq_some] at stepped
      rw [stepped.1] at executed
      cases executed
  | _ => rfl

theorem no_wakeup_lost (capacity : Nat) (labels : List WakeLabel) :
    Always WakeupSafe (WakeState.initial capacity) (trace wakeStep (WakeState.initial capacity) labels) ∧
      IsRun (fun state label _ => state.destroyed = true → usesCond label = false) (WakeState.initial capacity)
        (trace wakeStep (WakeState.initial capacity) labels) := by
  have isRun := trace_is_run wakeStep (WakeState.initial capacity) labels
  have keep : ∀ state label next, WakeInv state → wakeStep state label = some next → WakeInv next :=
    fun state label next inv stepped => wake_step_keeps state next label inv stepped
  constructor
  · exact always_imp _ _ wake_inv_safe _ _ (run_invariant _ _ keep _ _ isRun (initial_wake_inv capacity))
  · apply run_follows _ _ _ keep _ _ _ isRun (initial_wake_inv capacity)
    intro state label next inv stepped destroyed
    exact cond_unused state next label inv stepped destroyed

end Slogger.Logger
