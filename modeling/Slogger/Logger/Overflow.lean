import Slogger.Logger.Delivery

set_option autoImplicit false

namespace Slogger.Logger

open Slogger.Lib

def beforeStop (state : LoggerState) : Label → Bool
  | .setShutdown => false
  | .enqueue _ _ => slogStarted state.main
  | _ => true

def LossReported (state : LoggerState) : Prop :=
  ∀ call ∈ state.calls, (call.full = true → call.reported = true) ∧ (call.reported = true → call.refused = true)

-- A call refused for a full queue finds the queue full again when it looks at
-- the size for its report.
def StillFull (state : LoggerState) : Label → Prop
  | .report thread => (∃ data, state.producers thread = .refused data true) → isFull state.queue = true
  | _ => True

theorem report_step_iff (capacity thread : Nat) (state next : LoggerState) (reported : LossReported state)
    (stepped : step capacity state (.report thread) = some next) :
    LossReported next ↔ StillFull state (.report thread) := by
  simp only [step, stepProducer] at stepped
  cases here : state.producers thread with
  | idle =>
      rw [here] at stepped
      cases stepped
  | refused data full =>
      rw [here] at stepped
      obtain rfl := Option.some.inj stepped
      simp only [LossReported, StillFull, List.mem_append, List.mem_singleton, here, ProducerPc.refused.injEq]
      constructor
      · rintro all ⟨_, rfl, rfl⟩
        exact (all _ (.inr rfl)).1 rfl
      · rintro still call (earlier | rfl)
        · exact reported call earlier
        · exact ⟨fun wasFull => still ⟨data, rfl, wasFull⟩, fun _ => rfl⟩

theorem other_steps_report (capacity : Nat) (state next : LoggerState) (label : Label)
    (reported : LossReported state) (other : ∀ thread, label ≠ .report thread)
    (stepped : step capacity state label = some next) : LossReported next := by
  cases label with
  | report thread => exact absurd rfl (other thread)
  | enqueue thread data =>
      simp only [step, stepProducer] at stepped
      repeat' split at stepped
      all_goals cases stepped
      · exact reported
      · exact reported
      · intro call member
        rcases List.mem_append.mp member with earlier | last
        · exact reported call earlier
        · rw [List.mem_singleton.mp last]
          exact ⟨fun full => Bool.noConfusion full, fun said => Bool.noConfusion said⟩
  | again =>
      simp only [step, stepMain, Option.ite_none_right_eq_some, Option.some.injEq] at stepped
      obtain ⟨_, rfl⟩ := stepped
      exact reported
  | _ =>
      rw [LossReported, (step_frame capacity state next _ (by simp) stepped).told (by simp) other]
      exact reported

theorem loss_step_iff (capacity : Nat) (state next : LoggerState) (label : Label) (reported : LossReported state)
    (stepped : under beforeStop (step capacity) state label = some next) :
    LossReported next ↔ StillFull state label := by
  have ran := ((under_some _ _ state next _).mp stepped).2
  cases label with
  | report thread => exact report_step_iff capacity thread state next reported ran
  | _ => exact ⟨fun _ => trivial, fun _ => other_steps_report capacity state next _ reported (by simp) ran⟩

theorem loss_reported_iff_still_full (capacity : Nat) (labels : List Label) :
    Always LossReported LoggerState.initial (trace (under beforeStop (step capacity)) LoggerState.initial labels) ↔
      EveryStep StillFull LoggerState.initial (trace (under beforeStop (step capacity)) LoggerState.initial labels) := by
  apply always_iff_every_step
    (fun state label next => under beforeStop (step capacity) state label = some next) (fun _ => True)
  · exact fun _ _ _ _ _ _ => trivial
  · intro state label next _ reported stepped still
    exact (loss_step_iff capacity state next label reported stepped).mpr still
  · intro state label next _ reported stepped room kept
    exact room ((loss_step_iff capacity state next label reported stepped).mp kept)
  · exact trace_is_run (under beforeStop (step capacity)) LoggerState.initial labels
  · trivial
  · exact fun call member => nomatch member

structure Filling (capacity : Nat) (state : LoggerState) (pending : List QueueData) : Prop where
  inv : LoggerInv capacity state pending
  main : state.main = .running
  logger : state.logger = .dequeuing
  first : state.cycle = 0
  idle : ∀ thread, state.producers thread = .idle

theorem filling_open (capacity : Nat) (state : LoggerState) (pending : List QueueData)
    (filling : Filling capacity state pending) : state.queue.shutdown = false := by
  have stopping := filling.inv.stopping
  rw [filling.main, filling.first] at stopping
  simpa [stopRequested] using stopping

def startSteps : List Label := slogStart ++ [.openLog true]

theorem start_filling (capacity : Nat) (positive : 0 < capacity) :
    ∃ state, startSteps.foldlM (under beforeStop (step capacity)) LoggerState.initial = some state ∧
      Filling capacity state [] := by
  have created := create_keeps capacity _ [] (initial_inv capacity positive) rfl
  have sized := set_capacity_keeps capacity _ [] created rfl
  have allocated := allocate_keeps capacity _ [] sized rfl
  have opened := open_keeps capacity _ _ [] allocated rfl
  exact ⟨_, rfl, opened, rfl, rfl, rfl, fun _ => rfl⟩

theorem filling_push (capacity : Nat) (state : LoggerState) (pending : List QueueData) (data : QueueData)
    (filling : Filling capacity state pending) (space : pending.length < capacity) :
    ∃ next, under beforeStop (step capacity) state (.enqueue 0 data) = some next ∧
      Filling capacity next (pending ++ [data]) := by
  have started : slogStarted state.main = true := by
    rw [filling.main]
    rfl
  have held : hasArray state.main = true := by
    rw [filling.main]
    rfl
  have accepts : refuses state.queue = false := by
    rw [← Bool.not_eq_true, enqueue_refused_iff capacity state pending filling.inv started,
      filling_open capacity state pending filling]
    simp [Nat.ne_of_lt space]
  obtain ⟨queue, stored, _, _⟩ :=
    store_rear_rep capacity state.queue pending data (filling.inv.array held) space
  have stepped : stepProducer state (.enqueue 0 data) = some { state with
      queue := queue
      pushed := state.pushed ++ [data]
      accepted := state.accepted ++ [data]
      calls := state.calls ++ [⟨data, false, false, false⟩] } := by
    simp only [stepProducer, filling.idle 0, accepts, Bool.false_eq_true, if_false, stored]
  refine ⟨_, (under_some _ _ _ _ _).mpr ⟨started, stepped⟩, ?_⟩
  obtain ⟨_, ⟨refused, _⟩ | ⟨_, _, _, kept⟩⟩ :=
    enqueue_keeps capacity state _ 0 data pending filling.inv started stepped
  · rw [accepts] at refused
    cases refused
  · exact ⟨kept, filling.main, filling.logger, filling.first, filling.idle⟩

theorem filling_run (capacity count : Nat) (state : LoggerState) (pending : List QueueData) (data : QueueData)
    (filling : Filling capacity state pending) (filled : pending.length + count = capacity) :
    ∃ last full, (List.replicate count (.enqueue 0 data)).foldlM (under beforeStop (step capacity)) state = some last ∧
      Filling capacity last full ∧ full.length = capacity := by
  induction count generalizing state pending with
  | zero => exact ⟨state, pending, rfl, filling, filled⟩
  | succ count ih =>
      obtain ⟨next, stepped, further⟩ := filling_push capacity state pending data filling (by omega)
      obtain ⟨last, full, ran, whole, length⟩ := ih next (pending ++ [data]) further (by
        rw [List.length_append, List.length_singleton]
        omega)
      refine ⟨last, full, ?_, whole, length⟩
      rw [List.replicate_succ, List.foldlM_cons, stepped]
      exact ran

theorem full_refuses (capacity thread : Nat) (state : LoggerState) (pending : List QueueData) (data : QueueData)
    (filling : Filling capacity state pending) (full : pending.length = capacity) :
    ∃ next, under beforeStop (step capacity) state (.enqueue thread data) = some next ∧
      next.queue = state.queue ∧ next.logger = state.logger ∧ next.producers thread = .refused data true := by
  have rep := filling.inv.array (by rw [filling.main]; rfl)
  have wasFull : isFull state.queue = true := by
    simp [isFull, rep.counted, rep.sized, full]
  have started : beforeStop state (.enqueue thread data) = true := by
    rw [beforeStop, filling.main]
    rfl
  have stepped : step capacity state (.enqueue thread data) = some { state with
      producers := setProducer state thread (.refused data true)
      pushed := state.pushed ++ [data] } := by
    simp only [step, stepProducer, filling.idle thread, refuses, wasFull, Bool.true_or, if_true]
  exact ⟨_, (under_some _ _ _ _ _).mpr ⟨started, stepped⟩, rfl, rfl, by simp [setProducer]⟩

theorem dequeue_makes_room (capacity : Nat) (state : LoggerState) (pending : List QueueData) (positive : 0 < capacity)
    (rep : QueueRep capacity state.queue pending) (full : pending.length = capacity)
    (ready : state.logger = .dequeuing) :
    ∃ next, under beforeStop (step capacity) state .dequeue = some next ∧
      isFull next.queue = false ∧ next.producers = state.producers := by
  obtain ⟨oldest, rest, rfl⟩ := List.exists_cons_of_length_pos (full ▸ positive)
  obtain ⟨queue, taken, shorter, _⟩ := take_front_rep capacity state.queue oldest rest rep
  have waits : mustWait state.queue = false := by
    simp [mustWait, rep.counted]
  have drained : isDrained state.queue = false := by
    simp [isDrained, rep.counted]
  have stepped : step capacity state .dequeue = some { state with
      queue := queue
      logger := .writing oldest
      consumed := state.consumed ++ [oldest] } := by
    simp only [step, stepLogger, ready, waits, drained, taken, if_true, Bool.false_eq_true, if_false]
  have room : isFull queue = false := by
    simp only [List.length_cons] at full
    simp only [isFull, shorter.counted, shorter.sized, beq_eq_false_iff_ne]
    omega
  exact ⟨_, (under_some _ _ _ _ _).mpr ⟨rfl, stepped⟩, room, rfl⟩

theorem late_report_silent (capacity thread : Nat) (state : LoggerState) (data : QueueData)
    (waits : state.producers thread = .refused data true) (room : isFull state.queue = false) :
    ∃ next, under beforeStop (step capacity) state (.report thread) = some next ∧
      ⟨data, true, true, false⟩ ∈ next.calls := by
  have stepped : step capacity state (.report thread) = some { state with
      producers := setProducer state thread .idle
      calls := state.calls ++ [⟨data, true, true, isFull state.queue⟩] } := by
    simp only [step, stepProducer, waits]
  exact ⟨_, (under_some _ _ _ _ _).mpr ⟨rfl, stepped⟩, by simp [room]⟩

-- A message fills each slot of the queue, and the message of thread 1 is
-- refused; before thread 1 looks again the logging thread takes a message.
def racyReport (capacity : Nat) : List Label :=
  startSteps ++ List.replicate capacity (.enqueue 0 (oneByte 97)) ++ [.enqueue 1 (oneByte 98), .dequeue, .report 1]

theorem racy_report_runs (capacity : Nat) (positive : 0 < capacity) :
    ∃ last, (racyReport capacity).foldlM (under beforeStop (step capacity)) LoggerState.initial = some last ∧
      ⟨oneByte 98, true, true, false⟩ ∈ last.calls := by
  obtain ⟨started, ranStart, ready⟩ := start_filling capacity positive
  obtain ⟨filled, pending, ranFill, filling, full⟩ :=
    filling_run capacity capacity started [] (oneByte 97) ready (Nat.zero_add capacity)
  obtain ⟨refused, ranRefused, queue, logger, waits⟩ := full_refuses capacity 1 filled pending (oneByte 98) filling full
  have rep := filling.inv.array (by rw [filling.main]; rfl)
  obtain ⟨taken, ranTaken, room, producers⟩ := dequeue_makes_room capacity refused pending positive
    (queue ▸ rep) full (logger.trans filling.logger)
  obtain ⟨last, ranLast, silent⟩ := late_report_silent capacity 1 taken (oneByte 98) (producers ▸ waits) room
  refine ⟨last, ?_, silent⟩
  simp only [racyReport, List.foldlM_append, ranStart, ranFill, Option.bind_eq_bind, Option.bind_some,
    List.foldlM_cons, ranRefused, ranTaken, ranLast, List.foldlM_nil]
  rfl

theorem loss_unreported :
    ¬ Always LossReported LoggerState.initial
      (trace (under beforeStop (step queueCapacity)) LoggerState.initial (racyReport queueCapacity)) := by
  intro always
  obtain ⟨last, ran, lost⟩ := racy_report_runs queueCapacity (by decide)
  have reported := always_finish LossReported LoggerState.initial _ always
  rw [finish_trace _ _ last _ ran] at reported
  exact absurd ((reported _ lost).1 rfl) (by decide)

end Slogger.Logger
