import Slogger.Logger.System

set_option autoImplicit false

namespace Slogger.Logger

open Slogger.Lib

def slogStarted : MainPc → Bool
  | .create | .setCapacity | .allocate => false
  | _ => true

def hasArray : MainPc → Bool
  | .running | .signalling | .joining | .freeing => true
  | _ => false

def stopRequested : MainPc → Bool
  | .signalling | .joining | .freeing | .stopped => true
  | _ => false

def hasOpened : LoggerPc → Bool
  | .absent | .opening => false
  | _ => true

def isLeaving : LoggerPc → Bool
  | .closing | .ended => true
  | _ => false

def inFlight : LoggerPc → List QueueData
  | .writing data => [data]
  | _ => []

def fileBytes (entries : List QueueData) : List UInt8 := entries.flatMap QueueData.message

-- What holds between any two steps of any cycle, with the messages pending in
-- the queue: finished is what keeps slots from being touched after the free.
structure LoggerInv (capacity : Nat) (state : LoggerState) (pending : List QueueData) : Prop where
  safe : state.fault = none
  accounted : state.accepted = state.consumed ++ pending
  front : state.queue.front < capacity
  counted : state.queue.size = pending.length
  within : pending.length ≤ capacity
  stopping : state.queue.shutdown = true ↔ 0 < state.cycle ∨ stopRequested state.main = true
  array : hasArray state.main = true → QueueRep capacity state.queue pending
  noArray : hasArray state.main = false → pending = []
  sized : state.main = .allocate → state.queue.capacity = capacity
  created : state.main = .create → state.logger = .absent
  unopened : hasOpened state.logger = false → state.consumed = [] ∧ (state.cycle = 0 → state.file = [])
  written : hasOpened state.logger = true →
    ∃ done, state.consumed = done ++ inFlight state.logger ∧ state.file = fileBytes done
  finished : isLeaving state.logger = true → pending = [] ∧ state.queue.shutdown = true
  joined : state.main = .freeing ∨ state.main = .stopped → state.logger = .ended
  later : 0 < state.cycle → state.accepted = []

-- Files open, and nobody pushes before slog_start has returned.
def orderly (state : LoggerState) : Label → Bool
  | .openLog opened => opened
  | .enqueue _ _ => slogStarted state.main
  | _ => true

theorem initial_inv (capacity : Nat) (positive : 0 < capacity) : LoggerInv capacity LoggerState.initial [] where
  safe := rfl
  accounted := rfl
  front := positive
  counted := rfl
  within := Nat.zero_le _
  stopping := by simp [LoggerState.initial, Queue.initial, stopRequested]
  array here := by simp [LoggerState.initial, hasArray] at here
  noArray _ := rfl
  sized here := by simp [LoggerState.initial] at here
  created _ := rfl
  unopened _ := ⟨rfl, fun _ => rfl⟩
  written here := by simp [LoggerState.initial, hasOpened] at here
  finished here := by simp [LoggerState.initial, isLeaving] at here
  joined here := by simp [LoggerState.initial] at here
  later _ := rfl

theorem create_keeps (capacity : Nat) (state : LoggerState) (pending : List QueueData)
    (inv : LoggerInv capacity state pending) (here : state.main = .create) :
    LoggerInv capacity { state with main := .setCapacity, logger := .opening } pending := by
  have unopened := inv.unopened (by rw [inv.created here]; rfl)
  have stopping := inv.stopping
  have noArray := inv.noArray (by rw [here]; rfl)
  rw [here] at stopping
  exact { inv with
    stopping := stopping
    array := fun has => nomatch has
    noArray := fun _ => noArray
    sized := fun there => nomatch there
    created := fun there => nomatch there
    unopened := fun _ => unopened
    written := fun has => nomatch has
    finished := fun has => nomatch has
    joined := fun there => by simp at there }

theorem set_capacity_keeps (capacity : Nat) (state : LoggerState) (pending : List QueueData)
    (inv : LoggerInv capacity state pending) (here : state.main = .setCapacity) :
    LoggerInv capacity { state with main := .allocate, queue := { state.queue with capacity := capacity } } pending := by
  have stopping := inv.stopping
  have noArray := inv.noArray (by rw [here]; rfl)
  rw [here] at stopping
  exact { inv with
    stopping := stopping
    array := fun has => nomatch has
    noArray := fun _ => noArray
    sized := fun _ => rfl
    created := fun there => nomatch there
    joined := fun there => by simp at there }

theorem allocate_keeps (capacity : Nat) (state : LoggerState) (pending : List QueueData)
    (inv : LoggerInv capacity state pending) (here : state.main = .allocate) :
    LoggerInv capacity
      { state with
        main := .running
        queue := { state.queue with data := .live (List.replicate state.queue.capacity none) } } pending := by
  have stopping := inv.stopping
  rw [here] at stopping
  have none := inv.noArray (by rw [here]; rfl)
  subst none
  have fresh := fresh_queue_rep capacity state.queue (inv.sized here) inv.front inv.counted
  exact { inv with
    stopping := stopping
    array := fun _ => fresh
    noArray := fun has => nomatch has
    sized := fun there => nomatch there
    created := fun there => nomatch there
    joined := fun there => by simp at there }

theorem set_shutdown_keeps (capacity : Nat) (state : LoggerState) (pending : List QueueData)
    (inv : LoggerInv capacity state pending) (here : state.main = .running) :
    LoggerInv capacity { state with main := .signalling, queue := { state.queue with shutdown := true } } pending := by
  have array := inv.array (by rw [here]; rfl)
  exact { inv with
    stopping := ⟨fun _ => .inr rfl, fun _ => rfl⟩
    array := fun _ => ⟨array.allocated, array.counted, array.sized⟩
    noArray := fun has => nomatch has
    sized := fun there => nomatch there
    created := fun there => nomatch there
    finished := fun has => ⟨(inv.finished has).1, rfl⟩
    joined := fun there => by simp at there }

theorem stop_moves_keeps (capacity : Nat) (state : LoggerState) (pending : List QueueData) (main : MainPc)
    (inv : LoggerInv capacity state pending) (stopping : stopRequested state.main = true)
    (held : hasArray state.main = true) (stopped : main = .joining ∨ main = .freeing)
    (joined : main = .freeing → state.logger = .ended) :
    LoggerInv capacity { state with main := main } pending := by
  have array := inv.array held
  have shutdown := inv.stopping.mpr (.inr stopping)
  have requested : stopRequested main = true ∧ hasArray main = true ∧ main ≠ .allocate ∧ main ≠ .create ∧ main ≠ .stopped := by
    rcases stopped with rfl | rfl <;> decide
  obtain ⟨requests, has, notAllocate, notCreate, notStopped⟩ := requested
  exact { inv with
    stopping := ⟨fun _ => .inr requests, fun _ => shutdown⟩
    array := fun _ => array
    noArray := fun hasNot => absurd (has.symm.trans hasNot) (by decide)
    sized := fun there => absurd there notAllocate
    created := fun there => absurd there notCreate
    joined := fun there => joined (there.resolve_right notStopped) }

theorem free_keeps (capacity : Nat) (state : LoggerState) (pending : List QueueData)
    (inv : LoggerInv capacity state pending) (here : state.main = .freeing) :
    LoggerInv capacity { state with main := .stopped, queue := { state.queue with data := .freed } } pending := by
  have ended := inv.joined (.inl here)
  have finished := inv.finished (by rw [ended]; rfl)
  exact { inv with
    stopping := ⟨fun _ => .inr rfl, fun _ => finished.2⟩
    array := fun has => nomatch has
    noArray := fun _ => finished.1
    sized := fun there => nomatch there
    created := fun there => nomatch there
    joined := fun _ => ended }

theorem again_keeps (capacity : Nat) (state : LoggerState) (pending : List QueueData)
    (inv : LoggerInv capacity state pending) (here : state.main = .stopped) :
    LoggerInv capacity
      { state with
        main := .create
        logger := .absent
        cycle := state.cycle + 1
        pushed := []
        accepted := []
        consumed := [] } pending := by
  have none := inv.noArray (by rw [here]; rfl)
  have shutdown := inv.stopping.mpr (.inr (by rw [here]; rfl))
  exact { inv with
    accounted := none.symm
    stopping := ⟨fun _ => .inl (Nat.succ_pos _), fun _ => shutdown⟩
    array := fun has => nomatch has
    noArray := fun _ => none
    sized := fun there => nomatch there
    created := fun _ => rfl
    unopened := fun _ => ⟨rfl, fun first => absurd first (Nat.succ_ne_zero _)⟩
    written := fun has => nomatch has
    finished := fun has => nomatch has
    joined := fun there => by simp at there
    later := fun _ => rfl }

theorem main_keeps (capacity : Nat) (state next : LoggerState) (label : Label) (pending : List QueueData)
    (inv : LoggerInv capacity state pending) (stepped : stepMain capacity state label = some next) :
    LoggerInv capacity next pending := by
  cases label with
  | createThread =>
      simp only [stepMain, Option.ite_none_right_eq_some, Option.some.injEq] at stepped
      obtain ⟨here, rfl⟩ := stepped
      exact create_keeps capacity state pending inv here
  | setCapacity =>
      simp only [stepMain, Option.ite_none_right_eq_some, Option.some.injEq] at stepped
      obtain ⟨here, rfl⟩ := stepped
      exact set_capacity_keeps capacity state pending inv here
  | allocate =>
      simp only [stepMain, Option.ite_none_right_eq_some, Option.some.injEq] at stepped
      obtain ⟨here, rfl⟩ := stepped
      exact allocate_keeps capacity state pending inv here
  | setShutdown =>
      simp only [stepMain, Option.ite_none_right_eq_some, Option.some.injEq] at stepped
      obtain ⟨here, rfl⟩ := stepped
      exact set_shutdown_keeps capacity state pending inv here
  | signalDestroy =>
      simp only [stepMain, Option.ite_none_right_eq_some, Option.some.injEq] at stepped
      obtain ⟨here, rfl⟩ := stepped
      exact stop_moves_keeps capacity state pending .joining inv (by rw [here]; rfl) (by rw [here]; rfl) (.inl rfl)
        (fun there => nomatch there)
  | join =>
      simp only [stepMain, Option.ite_none_right_eq_some, Option.some.injEq] at stepped
      obtain ⟨⟨here, ended⟩, rfl⟩ := stepped
      exact stop_moves_keeps capacity state pending .freeing inv (by rw [here]; rfl) (by rw [here]; rfl) (.inr rfl)
        (fun _ => ended)
  | freeData =>
      simp only [stepMain, Option.ite_none_right_eq_some, Option.some.injEq] at stepped
      obtain ⟨here, rfl⟩ := stepped
      exact free_keeps capacity state pending inv here
  | again =>
      simp only [stepMain, Option.ite_none_right_eq_some, Option.some.injEq] at stepped
      obtain ⟨here, rfl⟩ := stepped
      exact again_keeps capacity state pending inv here
  | openLog | dequeue | write | close | enqueue | report => cases stepped

theorem busy_logger (capacity : Nat) (state : LoggerState) (pending : List QueueData)
    (inv : LoggerInv capacity state pending) (present : state.logger ≠ .absent) (alive : state.logger ≠ .ended) :
    state.main ≠ .create ∧ ¬ (state.main = .freeing ∨ state.main = .stopped) :=
  ⟨fun there => present (inv.created there), fun there => alive (inv.joined there)⟩

theorem open_keeps (capacity : Nat) (state next : LoggerState) (pending : List QueueData)
    (inv : LoggerInv capacity state pending) (stepped : stepLogger state (.openLog true) = some next) :
    LoggerInv capacity next pending := by
  simp only [stepLogger, if_true, Option.ite_none_right_eq_some, Option.some.injEq] at stepped
  obtain ⟨here, rfl⟩ := stepped
  have busy := busy_logger capacity state pending inv (by rw [here]; decide) (by rw [here]; decide)
  have unopened := inv.unopened (by rw [here]; rfl)
  exact { inv with
    created := fun there => absurd there busy.1
    unopened := fun has => nomatch has
    written := fun _ => ⟨[], unopened.1, rfl⟩
    finished := fun has => nomatch has
    joined := fun there => absurd there busy.2 }

theorem write_keeps (capacity : Nat) (state next : LoggerState) (pending : List QueueData)
    (inv : LoggerInv capacity state pending) (stepped : stepLogger state .write = some next) :
    LoggerInv capacity next pending := by
  simp only [stepLogger] at stepped
  cases here : state.logger with
  | writing data =>
      rw [here] at stepped
      obtain rfl := Option.some.inj stepped
      have busy := busy_logger capacity state pending inv (by rw [here]; simp) (by rw [here]; simp)
      obtain ⟨done, consumed, file⟩ := inv.written (by rw [here]; rfl)
      rw [here] at consumed
      exact { inv with
        created := fun there => absurd there busy.1
        unopened := fun has => nomatch has
        written := fun _ => ⟨done ++ [data], by simpa [inFlight] using consumed, by simp [fileBytes, file]⟩
        finished := fun has => nomatch has
        joined := fun there => absurd there busy.2 }
  | absent | opening | dequeuing | closing | ended =>
      rw [here] at stepped
      cases stepped

theorem close_keeps (capacity : Nat) (state next : LoggerState) (pending : List QueueData)
    (inv : LoggerInv capacity state pending) (stepped : stepLogger state .close = some next) :
    LoggerInv capacity next pending := by
  simp only [stepLogger, Option.ite_none_right_eq_some, Option.some.injEq] at stepped
  obtain ⟨here, rfl⟩ := stepped
  have busy := busy_logger capacity state pending inv (by rw [here]; decide) (by rw [here]; decide)
  have written := inv.written (by rw [here]; rfl)
  have finished := inv.finished (by rw [here]; rfl)
  rw [here] at written
  exact { inv with
    created := fun there => absurd there busy.1
    unopened := fun has => nomatch has
    written := fun _ => written
    finished := fun _ => finished
    joined := fun there => absurd there busy.2 }

theorem dequeue_keeps (capacity : Nat) (state next : LoggerState) (pending : List QueueData)
    (inv : LoggerInv capacity state pending) (stepped : stepLogger state .dequeue = some next) :
    (pending = [] ∧ next.queue = state.queue ∧ next.consumed = state.consumed ∧ LoggerInv capacity next []) ∨
    ∃ data rest, pending = data :: rest ∧ state.queue.data.read state.queue.front = .ok data ∧
      next.consumed = state.consumed ++ [data] ∧ LoggerInv capacity next rest := by
  simp only [stepLogger, Option.ite_none_right_eq_some, Option.ite_none_left_eq_some] at stepped
  obtain ⟨here, waits, stepped⟩ := stepped
  have busy := busy_logger capacity state pending inv (by rw [here]; decide) (by rw [here]; decide)
  have written := inv.written (by rw [here]; rfl)
  rw [here] at written
  cases pending with
  | nil =>
      have drained : isDrained state.queue = true := by
        simpa [mustWait, isDrained, inv.counted] using waits
      rw [if_pos drained, Option.some.injEq] at stepped
      subst stepped
      have shutdown : state.queue.shutdown = true := by
        simpa [isDrained, inv.counted] using drained
      refine .inl ⟨rfl, rfl, rfl, ?_⟩
      exact { inv with
        created := fun there => absurd there busy.1
        unopened := fun has => by cases has
        written := fun _ => written
        finished := fun _ => ⟨rfl, shutdown⟩
        joined := fun there => absurd there busy.2 }
  | cons data rest =>
      have held : hasArray state.main = true := by
        by_contra without
        exact List.cons_ne_nil data rest (inv.noArray (by simpa using without))
      have rep := inv.array held
      have drained : ¬ isDrained state.queue = true := by
        simp [isDrained, inv.counted]
      obtain ⟨queue, taken, shorter, shutdown⟩ := take_front_rep capacity state.queue data rest rep
      rw [if_neg drained, taken, Option.some.injEq] at stepped
      subst stepped
      have read := front_slot_read capacity state.queue data rest rep
      have bounds := queue_rep_bounds capacity queue rest shorter
      obtain ⟨done, consumed, file⟩ := written
      refine .inr ⟨data, rest, rfl, read, rfl, ?_⟩
      exact { inv with
        accounted := by simp [inv.accounted]
        front := bounds.1
        counted := shorter.counted
        within := bounds.2
        stopping := by rw [shutdown]; exact inv.stopping
        array := fun _ => shorter
        noArray := fun has => absurd (held.symm.trans has) (by decide)
        sized := fun _ => shorter.sized
        created := fun there => absurd there busy.1
        unopened := fun has => by cases has
        written := fun _ => ⟨done, by simpa [inFlight] using consumed, file⟩
        finished := fun has => by cases has
        joined := fun there => absurd there busy.2 }

theorem report_keeps (capacity : Nat) (state next : LoggerState) (thread : Nat) (pending : List QueueData)
    (inv : LoggerInv capacity state pending) (stepped : stepProducer state (.report thread) = some next) :
    LoggerInv capacity next pending := by
  simp only [stepProducer] at stepped
  cases here : state.producers thread with
  | idle =>
      rw [here] at stepped
      cases stepped
  | refused data full =>
      rw [here] at stepped
      obtain rfl := Option.some.inj stepped
      exact { inv with }

theorem started_main (main : MainPc) (started : slogStarted main = true) :
    hasArray main = true ∨ stopRequested main = true := by
  cases main <;> simp_all [slogStarted, hasArray, stopRequested]

-- After slog_start a call is refused when the queue is full or being shut down;
-- else there is an array with a slot to spare.
theorem enqueue_refused_iff (capacity : Nat) (state : LoggerState) (pending : List QueueData)
    (inv : LoggerInv capacity state pending) (started : slogStarted state.main = true) :
    refuses state.queue = true ↔ pending.length = capacity ∨ state.queue.shutdown = true := by
  cases held : hasArray state.main with
  | true => exact refuses_iff capacity state.queue pending (inv.array held)
  | false =>
      have stopped := (started_main state.main started).resolve_left (by rw [held]; decide)
      have shutdown := inv.stopping.mpr (.inr stopped)
      simp [refuses, shutdown]

theorem enqueue_keeps (capacity : Nat) (state next : LoggerState) (thread : Nat) (data : QueueData)
    (pending : List QueueData) (inv : LoggerInv capacity state pending) (started : slogStarted state.main = true)
    (stepped : stepProducer state (.enqueue thread data) = some next) :
    next.pushed = state.pushed ++ [data] ∧
      ((refuses state.queue = true ∧ next.queue = state.queue ∧ next.accepted = state.accepted ∧
          next.producers thread = .refused data (isFull state.queue) ∧ LoggerInv capacity next pending) ∨
        (refuses state.queue = false ∧ next.accepted = state.accepted ++ [data] ∧ next.producers thread = .idle ∧
          LoggerInv capacity next (pending ++ [data]))) := by
  simp only [stepProducer] at stepped
  cases here : state.producers thread with
  | refused other full =>
      rw [here] at stepped
      cases stepped
  | idle =>
      rw [here] at stepped
      cases refused : refuses state.queue with
      | true =>
          simp only [refused, if_true, Option.some.injEq] at stepped
          subst stepped
          exact ⟨rfl, .inl ⟨rfl, rfl, rfl, by simp [setProducer], { inv with }⟩⟩
      | false =>
          have taken := enqueue_refused_iff capacity state pending inv started
          rw [refused] at taken
          have open' : ¬ (pending.length = capacity ∨ state.queue.shutdown = true) := by
            rw [← taken]
            decide
          obtain ⟨notFull, running⟩ := not_or.mp open'
          have notStopping : ¬ (0 < state.cycle ∨ stopRequested state.main = true) := by
            rw [← inv.stopping]
            exact running
          have held := (started_main state.main started).resolve_right (not_or.mp notStopping).2
          have space := Nat.lt_of_le_of_ne inv.within notFull
          obtain ⟨queue, stored, longer, shutdown⟩ :=
            store_rear_rep capacity state.queue pending data (inv.array held) space
          have bounds := queue_rep_bounds capacity queue _ longer
          simp only [refused, Bool.false_eq_true, if_false, stored, Option.some.injEq] at stepped
          subst stepped
          refine ⟨rfl, .inr ⟨rfl, rfl, here, ?_⟩⟩
          exact { inv with
            accounted := by simp [inv.accounted]
            front := bounds.1
            counted := longer.counted
            within := bounds.2
            stopping := by rw [shutdown]; exact inv.stopping
            array := fun _ => longer
            noArray := fun has => absurd (held.symm.trans has) (by decide)
            sized := fun _ => longer.sized
            finished := fun has => absurd (inv.finished has).2 running
            later := fun later => absurd later (not_or.mp notStopping).1 }

theorem orderly_step_keeps (capacity : Nat) (state next : LoggerState) (label : Label) (pending : List QueueData)
    (inv : LoggerInv capacity state pending) (allowed : orderly state label = true)
    (stepped : step capacity state label = some next) : ∃ after, LoggerInv capacity next after := by
  cases label with
  | openLog opened =>
      cases allowed
      exact ⟨pending, open_keeps capacity state next pending inv stepped⟩
  | dequeue =>
      rcases dequeue_keeps capacity state next pending inv stepped with ⟨_, _, _, kept⟩ | ⟨_, rest, _, _, _, kept⟩
      · exact ⟨[], kept⟩
      · exact ⟨rest, kept⟩
  | write => exact ⟨pending, write_keeps capacity state next pending inv stepped⟩
  | close => exact ⟨pending, close_keeps capacity state next pending inv stepped⟩
  | enqueue thread data =>
      obtain ⟨_, ⟨_, _, _, _, kept⟩ | ⟨_, _, _, kept⟩⟩ :=
        enqueue_keeps capacity state next thread data pending inv allowed stepped
      · exact ⟨pending, kept⟩
      · exact ⟨pending ++ [data], kept⟩
  | report thread => exact ⟨pending, report_keeps capacity state next thread pending inv stepped⟩
  | createThread | setCapacity | allocate | setShutdown | signalDestroy | join | freeData | again =>
      simp only [step] at stepped
      exact ⟨pending, main_keeps capacity state next _ pending inv stepped⟩

structure StepFrame (state next : LoggerState) (label : Label) : Prop where
  cycle : next.cycle = state.cycle
  given : (∀ thread data, label ≠ .enqueue thread data) →
    next.pushed = state.pushed ∧ next.accepted = state.accepted
  taken : label ≠ .dequeue → next.consumed = state.consumed
  told : (∀ thread data, label ≠ .enqueue thread data) → (∀ thread, label ≠ .report thread) →
    next.calls = state.calls

theorem step_frame (capacity : Nat) (state next : LoggerState) (label : Label) (other : label ≠ .again)
    (stepped : step capacity state label = some next) : StepFrame state next label := by
  cases label with
  | again => exact absurd rfl other
  | enqueue thread data =>
      simp only [step, stepProducer] at stepped
      repeat' split at stepped
      all_goals cases stepped
      all_goals exact ⟨rfl, fun none => absurd rfl (none thread data), fun _ => rfl,
        fun none => absurd rfl (none thread data)⟩
  | report thread =>
      simp only [step, stepProducer] at stepped
      split at stepped
      all_goals cases stepped
      exact ⟨rfl, fun _ => ⟨rfl, rfl⟩, fun _ => rfl, fun _ none => absurd rfl (none thread)⟩
  | dequeue =>
      simp only [step, stepLogger] at stepped
      repeat' split at stepped
      all_goals cases stepped
      all_goals exact ⟨rfl, fun _ => ⟨rfl, rfl⟩, fun none => absurd rfl none, fun _ _ => rfl⟩
  | _ =>
      simp only [step, stepMain, stepLogger] at stepped
      repeat' split at stepped
      all_goals cases stepped
      all_goals exact ⟨rfl, fun _ => ⟨rfl, rfl⟩, fun _ => rfl, fun _ _ => rfl⟩

def singleCycle (state : LoggerState) (label : Label) : Bool := orderly state label && label != .again

structure LogConsistent (capacity : Nat) (state : LoggerState) : Prop where
  written : ∃ count, state.file = fileBytes (state.accepted.take count)
  front : state.queue.front < capacity
  size : state.queue.size ≤ capacity
  complete : state.logger = .ended → state.file = fileBytes state.accepted
  safe : state.fault = none

def MustRefuse (capacity : Nat) (state : LoggerState) : Prop :=
  state.accepted.length = state.consumed.length + capacity ∨ state.queue.shutdown = true

def QueueLaw (capacity : Nat) (state : LoggerState) (label : Label) (next : LoggerState) : Prop :=
  match label with
  | .enqueue thread data =>
      (MustRefuse capacity state → (∃ full, next.producers thread = .refused data full) ∧
        next.queue = state.queue ∧ next.accepted = state.accepted) ∧
      (¬ MustRefuse capacity state → next.producers thread = .idle ∧ next.accepted = state.accepted ++ [data])
  | .dequeue =>
      next.consumed = state.consumed ∨
        ∃ data, state.queue.data.read state.queue.front = .ok data ∧
          state.accepted[state.consumed.length]? = some data ∧ next.consumed = state.consumed ++ [data]
  | _ => next.consumed = state.consumed ∧ next.accepted = state.accepted

theorem ended_complete (capacity : Nat) (state : LoggerState) (pending : List QueueData)
    (inv : LoggerInv capacity state pending) (ended : state.logger = .ended) :
    state.file = fileBytes state.accepted := by
  obtain ⟨done, consumed, file⟩ := inv.written (by rw [ended]; rfl)
  have finished := inv.finished (by rw [ended]; rfl)
  rw [inv.accounted, consumed, finished.1, ended, file]
  simp [inFlight]

theorem inv_consistent (capacity : Nat) (state : LoggerState) (pending : List QueueData)
    (inv : LoggerInv capacity state pending) (first : state.cycle = 0) : LogConsistent capacity state where
  written := by
    cases has : hasOpened state.logger with
    | false =>
        obtain ⟨_, empty⟩ := inv.unopened has
        exact ⟨0, by simp [empty first, fileBytes]⟩
    | true =>
        obtain ⟨done, consumed, file⟩ := inv.written has
        exact ⟨done.length, by simp [inv.accounted, consumed, file]⟩
  front := inv.front
  size := inv.counted ▸ inv.within
  complete := ended_complete capacity state pending inv
  safe := inv.safe

theorem must_refuse_iff (capacity : Nat) (state : LoggerState) (pending : List QueueData)
    (inv : LoggerInv capacity state pending) (started : slogStarted state.main = true) :
    MustRefuse capacity state ↔ refuses state.queue = true := by
  have length : state.accepted.length = state.consumed.length + pending.length := by
    rw [inv.accounted, List.length_append]
  rw [enqueue_refused_iff capacity state pending inv started, MustRefuse, length, Nat.add_left_cancel_iff]

theorem inv_law (capacity : Nat) (state next : LoggerState) (label : Label) (pending : List QueueData)
    (inv : LoggerInv capacity state pending) (allowed : singleCycle state label = true)
    (stepped : step capacity state label = some next) : QueueLaw capacity state label next := by
  obtain ⟨ordered, other⟩ := Bool.and_eq_true_iff.mp allowed
  cases label with
  | enqueue thread data =>
      have taken := must_refuse_iff capacity state pending inv ordered
      obtain ⟨_, ⟨refused, queue, accepted, producer, _⟩ | ⟨stored, accepted, producer, _⟩⟩ :=
        enqueue_keeps capacity state next thread data pending inv ordered stepped
      · exact ⟨fun _ => ⟨⟨_, producer⟩, queue, accepted⟩, fun open' => absurd (taken.mpr refused) open'⟩
      · refine ⟨fun must => ?_, fun _ => ⟨producer, accepted⟩⟩
        have refused := taken.mp must
        rw [stored] at refused
        cases refused
  | dequeue =>
      rcases dequeue_keeps capacity state next pending inv stepped with ⟨_, _, same, _⟩ | ⟨data, rest, rfl, read, taken, _⟩
      · exact .inl same
      · exact .inr ⟨data, read, by simp [inv.accounted], taken⟩
  | again => simp at other
  | _ =>
      have frame := step_frame capacity state next _ (by simp) stepped
      exact ⟨frame.taken (by simp), (frame.given (by simp)).2⟩

def InSingleCycle (capacity : Nat) (state : LoggerState) : Prop :=
  (∃ pending, LoggerInv capacity state pending) ∧ state.cycle = 0

theorem initial_single_cycle (capacity : Nat) (positive : 0 < capacity) : InSingleCycle capacity LoggerState.initial :=
  ⟨⟨[], initial_inv capacity positive⟩, rfl⟩

theorem single_cycle_keeps (capacity : Nat) (state : LoggerState) (label : Label) (next : LoggerState)
    (here : InSingleCycle capacity state) (stepped : under singleCycle (step capacity) state label = some next) :
    InSingleCycle capacity next := by
  obtain ⟨⟨pending, inv⟩, first⟩ := here
  obtain ⟨allowed, stepped⟩ := (under_some _ _ state next label).mp stepped
  obtain ⟨ordered, other⟩ := Bool.and_eq_true_iff.mp allowed
  refine ⟨orderly_step_keeps capacity state next label pending inv ordered stepped, ?_⟩
  rw [(step_frame capacity state next label (by simpa using other) stepped).cycle, first]

theorem log_consistent_in_every_run (capacity : Nat) (labels : List Label) (positive : 0 < capacity) :
    Always (LogConsistent capacity) LoggerState.initial
        (trace (under singleCycle (step capacity)) LoggerState.initial labels) ∧
      IsRun (QueueLaw capacity) LoggerState.initial
        (trace (under singleCycle (step capacity)) LoggerState.initial labels) := by
  have isRun := trace_is_run (under singleCycle (step capacity)) LoggerState.initial labels
  have start := initial_single_cycle capacity positive
  have keep := single_cycle_keeps capacity
  constructor
  · apply always_imp _ _ _ _ _ (run_invariant _ _ keep _ _ isRun start)
    rintro state ⟨⟨pending, inv⟩, first⟩
    exact inv_consistent capacity state pending inv first
  · apply run_follows _ _ _ keep _ _ _ isRun start
    rintro state label next ⟨⟨pending, inv⟩, _⟩ stepped
    obtain ⟨allowed, stepped⟩ := (under_some _ _ state next label).mp stepped
    exact inv_law capacity state next label pending inv allowed stepped

def slogStart : List Label := [.createThread, .setCapacity, .allocate]
def oneByte (byte : UInt8) : QueueData := ⟨[byte], 1, Nat.le_refl 1⟩

def shortLife : List Label :=
  slogStart ++ [.enqueue 0 (oneByte 97), .enqueue 1 (oneByte 98), .openLog true, .dequeue, .report 1, .write,
    .enqueue 1 (oneByte 98), .setShutdown, .dequeue, .signalDestroy, .write, .dequeue, .close, .join, .freeData]

theorem short_life_consistent :
    LogConsistent 1 (finish LoggerState.initial (trace (under singleCycle (step 1)) LoggerState.initial shortLife)) ∧
      (finish LoggerState.initial (trace (under singleCycle (step 1)) LoggerState.initial shortLife)).file = [97, 98] := by
  constructor
  · exact always_finish _ _ _ (log_consistent_in_every_run 1 shortLife (by decide)).1
  · decide +kernel

end Slogger.Logger
