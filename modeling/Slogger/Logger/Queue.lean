import Slogger.Lib.Memory
import Slogger.Lib.Ring

set_option autoImplicit false

namespace Slogger.Logger

open Slogger.Lib

-- CAPACITY; the results hold for every capacity.
def queueCapacity : Nat := 2048

-- One message as pushMessage wraps it: the caller's buffer and how many of its
-- bytes are the message.
structure QueueData where
  str : List UInt8
  size : Nat
  covered : size ≤ str.length
deriving DecidableEq

-- fwrite(str, 1, size, file)
def QueueData.message (data : QueueData) : List UInt8 := data.str.take data.size

-- queue.data: NULL, what malloc returned (no slot holds anything yet), or a
-- pointer that free has taken back.
inductive SlotArray where
  | null
  | live (slots : List (Option QueueData))
  | freed

def SlotArray.read (data : SlotArray) (index : Nat) : Except Fault QueueData :=
  match data with
  | .null => .error .nullDeref
  | .freed => .error .dangling
  | .live slots =>
      match slots[index]? with
      | none => .error .outside
      | some none => .error .unwritten
      | some (some entry) => .ok entry

def SlotArray.write (data : SlotArray) (index : Nat) (entry : QueueData) : Except Fault SlotArray :=
  match data with
  | .null => .error .nullDeref
  | .freed => .error .dangling
  | .live slots => if index < slots.length then .ok (.live (slots.set index (some entry))) else .error .outside

structure Queue where
  front : Nat
  size : Nat
  shutdown : Bool
  data : SlotArray
  capacity : Nat

def Queue.initial : Queue := ⟨0, 0, false, .null, 0⟩

def wrap (capacity index : Nat) : Except Fault Nat :=
  if capacity = 0 then .error .divideByZero else .ok (index % capacity)

def isFull (queue : Queue) : Bool := queue.size == queue.capacity

def refuses (queue : Queue) : Bool := isFull queue || queue.shutdown

def storeRear (queue : Queue) (data : QueueData) : Except Fault Queue := do
  let rear ← wrap queue.capacity (queue.front + queue.size)
  let slots ← queue.data.write rear data
  .ok { queue with data := slots, size := queue.size + 1 }

def mustWait (queue : Queue) : Bool := queue.size == 0 && !queue.shutdown
def isDrained (queue : Queue) : Bool := queue.size == 0 && queue.shutdown

def takeFront (queue : Queue) : Except Fault (QueueData × Queue) := do
  let data ← queue.data.read queue.front
  let front ← wrap queue.capacity (queue.front + 1)
  .ok (data, { queue with front := front, size := queue.size - 1 })

structure QueueRep (capacity : Nat) (queue : Queue) (pending : List QueueData) : Prop where
  allocated : ∃ slots, queue.data = .live slots ∧ slots.length = capacity ∧ Window slots queue.front pending
  counted : queue.size = pending.length
  sized : queue.capacity = capacity

theorem queue_rep_bounds (capacity : Nat) (queue : Queue) (pending : List QueueData)
    (rep : QueueRep capacity queue pending) : queue.front < capacity ∧ pending.length ≤ capacity := by
  obtain ⟨slots, _, length, window⟩ := rep.allocated
  exact ⟨length ▸ window.inside, length ▸ window.within⟩

theorem fresh_queue_rep (capacity : Nat) (queue : Queue) (sized : queue.capacity = capacity)
    (inside : queue.front < capacity) (empty : queue.size = 0) :
    QueueRep capacity { queue with data := .live (List.replicate queue.capacity none) } [] := by
  refine ⟨⟨List.replicate queue.capacity none, rfl, ?_, ?_⟩, empty, sized⟩
  · rw [List.length_replicate, sized]
  · apply window_empty
    rw [List.length_replicate, sized]
    exact inside

theorem store_rear_rep (capacity : Nat) (queue : Queue) (pending : List QueueData) (data : QueueData)
    (rep : QueueRep capacity queue pending) (space : pending.length < capacity) :
    ∃ next, storeRear queue data = .ok next ∧ QueueRep capacity next (pending ++ [data]) ∧
      next.shutdown = queue.shutdown := by
  obtain ⟨slots, live, length, window⟩ := rep.allocated
  have positive : queue.capacity ≠ 0 := by
    rw [rep.sized]
    exact Nat.ne_of_gt (Nat.zero_lt_of_lt space)
  have inside : (queue.front + queue.size) % queue.capacity < slots.length := by
    rw [rep.sized, length]
    exact Nat.mod_lt _ (Nat.zero_lt_of_lt space)
  let rear := (queue.front + queue.size) % queue.capacity
  refine ⟨{ queue with data := .live (slots.set rear (some data)), size := queue.size + 1 }, ?_,
    ⟨⟨slots.set rear (some data), rfl, ?_, ?_⟩, ?_, rep.sized⟩, rfl⟩
  · simp only [storeRear, wrap, if_neg positive, ok_bind, live, SlotArray.write, if_pos inside, rear]
  · simp only [List.length_set, length]
  · have pushed := window_push slots queue.front pending data window (by rw [length]; exact space)
    simp only [rear, rep.counted, rep.sized, ← length]
    exact pushed
  · simp [rep.counted]

theorem front_slot_read (capacity : Nat) (queue : Queue) (data : QueueData) (rest : List QueueData)
    (rep : QueueRep capacity queue (data :: rest)) : queue.data.read queue.front = .ok data := by
  obtain ⟨slots, live, _, window⟩ := rep.allocated
  simp only [live, SlotArray.read, window_front slots queue.front data rest window]

theorem take_front_rep (capacity : Nat) (queue : Queue) (data : QueueData) (rest : List QueueData)
    (rep : QueueRep capacity queue (data :: rest)) :
    ∃ next, takeFront queue = .ok (data, next) ∧ QueueRep capacity next rest ∧ next.shutdown = queue.shutdown := by
  have read := front_slot_read capacity queue data rest rep
  obtain ⟨slots, live, length, window⟩ := rep.allocated
  have positive : queue.capacity ≠ 0 := by
    rw [rep.sized, ← length]
    exact Nat.ne_of_gt (Nat.zero_lt_of_lt window.inside)
  refine ⟨{ queue with front := (queue.front + 1) % queue.capacity, size := queue.size - 1 }, ?_,
    ⟨⟨slots, live, length, ?_⟩, ?_, rep.sized⟩, rfl⟩
  · simp only [takeFront, read, ok_bind, wrap, if_neg positive]
  · have popped := window_pop slots queue.front data rest window
    simp only [rep.sized, ← length]
    exact popped
  · simp [rep.counted]

theorem must_wait_iff (queue : Queue) : mustWait queue = true ↔ queue.size = 0 ∧ queue.shutdown = false := by
  simp [mustWait]

theorem is_drained_iff (queue : Queue) : isDrained queue = true ↔ queue.size = 0 ∧ queue.shutdown = true := by
  simp [isDrained]

theorem refuses_shutdown (queue : Queue) (shutdown : queue.shutdown = true) : refuses queue = true := by
  simp [refuses, shutdown]

theorem store_rear_cases (queue next : Queue) (data : QueueData) (stored : storeRear queue data = .ok next) :
    ∃ rear slots, wrap queue.capacity (queue.front + queue.size) = .ok rear ∧
      queue.data.write rear data = .ok slots ∧ next = { queue with data := slots, size := queue.size + 1 } := by
  simp only [storeRear] at stored
  cases placed : wrap queue.capacity (queue.front + queue.size) with
  | error fault => simp [placed] at stored
  | ok rear =>
      cases written : queue.data.write rear data with
      | error fault => simp [placed, written] at stored
      | ok slots =>
          simp only [placed, written, ok_bind, Except.ok.injEq] at stored
          exact ⟨rear, slots, rfl, written, stored.symm⟩

theorem store_rear_size (queue next : Queue) (data : QueueData) (stored : storeRear queue data = .ok next) :
    next.size = queue.size + 1 ∧ next.shutdown = queue.shutdown := by
  obtain ⟨rear, slots, _, _, rfl⟩ := store_rear_cases queue next data stored
  exact ⟨rfl, rfl⟩

-- A store and the write of the flag can be made in either order.
theorem store_rear_stopped (queue next : Queue) (data : QueueData) (stored : storeRear queue data = .ok next) :
    storeRear { queue with shutdown := true } data = .ok { next with shutdown := true } := by
  obtain ⟨rear, slots, placed, written, rfl⟩ := store_rear_cases queue next data stored
  simp only [storeRear, placed, written, ok_bind]

theorem take_front_size (queue next : Queue) (data : QueueData) (taken : takeFront queue = .ok (data, next)) :
    next.size = queue.size - 1 ∧ next.shutdown = queue.shutdown := by
  simp only [takeFront] at taken
  cases read : queue.data.read queue.front with
  | error fault => simp [read] at taken
  | ok entry =>
      cases moved : wrap queue.capacity (queue.front + 1) with
      | error fault => simp [read, moved] at taken
      | ok front =>
          simp only [read, moved, ok_bind, Except.ok.injEq, Prod.mk.injEq] at taken
          obtain ⟨_, rfl⟩ := taken
          exact ⟨rfl, rfl⟩

theorem refuses_iff (capacity : Nat) (queue : Queue) (pending : List QueueData) (rep : QueueRep capacity queue pending) :
    refuses queue = true ↔ pending.length = capacity ∨ queue.shutdown = true := by
  simp [refuses, isFull, rep.counted, rep.sized]

end Slogger.Logger
