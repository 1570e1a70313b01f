import Slogger.Lib.Runs
import Slogger.Logger.Queue

set_option autoImplicit false

namespace Slogger.Logger

open Slogger.Lib

-- The main thread between its steps: three of slog_start, running, four of
-- slog_stop, and stopped. The Slogger may be started again after that.
inductive MainPc where
  | create
  | setCapacity
  | allocate
  | running
  | signalling
  | joining
  | freeing
  | stopped
deriving DecidableEq

inductive LoggerPc where
  | absent
  | opening
  | dequeuing
  | writing (data : QueueData)
  | closing
  | ended
deriving DecidableEq

-- A producer outside enqueue, or between its refusal in the critical section
-- and the second look at the size; full is whether the queue was full then.
inductive ProducerPc where
  | idle
  | refused (data : QueueData) (full : Bool)
deriving DecidableEq

structure Returned where
  data : QueueData
  refused : Bool
  full : Bool
  reported : Bool
deriving DecidableEq

-- The histories pushed, accepted and consumed are those of the current cycle;
-- fault is the first thing a C run would not survive.
structure LoggerState where
  queue : Queue
  main : MainPc
  logger : LoggerPc
  producers : Nat → ProducerPc
  file : List UInt8
  cycle : Nat
  pushed : List QueueData
  accepted : List QueueData
  consumed : List QueueData
  calls : List Returned
  fault : Option Fault

def LoggerState.initial : LoggerState where
  queue := Queue.initial
  main := .create
  logger := .absent
  producers _ := .idle
  file := []
  cycle := 0
  pushed := []
  accepted := []
  consumed := []
  calls := []
  fault := none

inductive Label where
  | createThread
  | setCapacity
  | allocate
  | setShutdown
  | signalDestroy
  | join
  | freeData
  | again
  | openLog (opened : Bool)
  | dequeue
  | write
  | close
  | enqueue (thread : Nat) (data : QueueData)
  | report (thread : Nat)
deriving DecidableEq

def setProducer (state : LoggerState) (thread : Nat) (pc : ProducerPc) : Nat → ProducerPc :=
  fun other => if other = thread then pc else state.producers other

-- slog_start and slog_stop, one label for each statement that others can see.
def stepMain (capacity : Nat) (state : LoggerState) : Label → Option LoggerState
  | .createThread => if state.main = .create then some { state with main := .setCapacity, logger := .opening } else none
  | .setCapacity =>
      if state.main = .setCapacity then
        some { state with main := .allocate, queue := { state.queue with capacity := capacity } }
      else none
  | .allocate =>
      if state.main = .allocate then
        some { state with
          main := .running
          queue := { state.queue with data := .live (List.replicate state.queue.capacity none) } }
      else none
  | .setShutdown =>
      if state.main = .running then
        some { state with main := .signalling, queue := { state.queue with shutdown := true } }
      else none
  | .signalDestroy => if state.main = .signalling then some { state with main := .joining } else none
  | .join => if state.main = .joining ∧ state.logger = .ended then some { state with main := .freeing } else none
  | .freeData =>
      if state.main = .freeing then
        some { state with main := .stopped, queue := { state.queue with data := .freed } }
      else none
  | .again =>
      if state.main = .stopped then
        some { state with
          main := .create
          logger := .absent
          cycle := state.cycle + 1
          pushed := []
          accepted := []
          consumed := [] }
      else none
  | _ => none

-- logging_thread; fopen(.., "w+") empties the file. A dequeue that has to wait
-- does not take place.
def stepLogger (state : LoggerState) : Label → Option LoggerState
  | .openLog opened =>
      if state.logger = .opening then
        some (if opened then { state with logger := .dequeuing, file := [] } else { state with logger := .ended })
      else none
  | .dequeue =>
      if state.logger = .dequeuing then
        if mustWait state.queue then none
        else if isDrained state.queue then some { state with logger := .closing }
        else
          match takeFront state.queue with
          | .error fault => some { state with fault := some fault }
          | .ok (data, queue) =>
              some { state with queue := queue, logger := .writing data, consumed := state.consumed ++ [data] }
      else none
  | .write =>
      match state.logger with
      | .writing data => some { state with logger := .dequeuing, file := state.file ++ data.message }
      | _ => none
  | .close => if state.logger = .closing then some { state with logger := .ended } else none
  | _ => none

-- enqueue in two steps: its critical section, and the second look at the size
-- by a call that was refused.
def stepProducer (state : LoggerState) : Label → Option LoggerState
  | .enqueue thread data =>
      match state.producers thread with
      | .refused _ _ => none
      | .idle =>
          if refuses state.queue then
            some { state with
              producers := setProducer state thread (.refused data (isFull state.queue))
              pushed := state.pushed ++ [data] }
          else
            match storeRear state.queue data with
            | .error fault => some { state with fault := some fault }
            | .ok queue =>
                some { state with
                  queue := queue
                  pushed := state.pushed ++ [data]
                  accepted := state.accepted ++ [data]
                  calls := state.calls ++ [⟨data, false, false, false⟩] }
  | .report thread =>
      match state.producers thread with
      | .refused data full =>
          some { state with
            producers := setProducer state thread .idle
            calls := state.calls ++ [⟨data, true, full, isFull state.queue⟩] }
      | .idle => none
  | _ => none

def step (capacity : Nat) (state : LoggerState) (label : Label) : Option LoggerState :=
  match label with
  | .openLog _ | .dequeue | .write | .close => stepLogger state label
  | .enqueue _ _ | .report _ => stepProducer state label
  | _ => stepMain capacity state label

def isEnqueue : Label → Bool
  | .enqueue _ _ => true
  | _ => false

end Slogger.Logger
