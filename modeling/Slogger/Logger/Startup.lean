import Slogger.Logger.Delivery
import Slogger.Logger.Wakeup

set_option autoImplicit false

namespace Slogger.Logger

open Slogger.Lib

-- slog_start between its statements; granted is whether malloc gave the array.
inductive StartPc where
  | create
  | setCapacity
  | allocate
  | started (granted : Bool)
deriving DecidableEq

structure StartState where
  threads : WakeState
  main : StartPc

-- Before slog_start: the static queue, usable at once.
def StartState.initial : StartState := ⟨{ WakeState.initial 0 with queue := Queue.initial }, .create⟩

inductive StartLabel where
  | createThread
  | setCapacity
  | allocate (granted : Bool)
  | thread (label : WakeLabel)
deriving DecidableEq

-- Producers may push at any time, the logging thread runs once it is created,
-- and nobody stops the logger.
def mayRun (main : StartPc) : WakeLabel → Bool
  | .pushLock _ _ | .pushTest _ | .pushStore _ | .pushSignal _ | .pushUnlock _ => true
  | .lock | .test | .wait | .wakeSpuriously | .relock | .take | .unlock => main != .create
  | _ => false

def startStep (state : StartState) : StartLabel → Option StartState
  | .createThread => if state.main = .create then some { state with main := .setCapacity } else none
  | .setCapacity =>
      if state.main = .setCapacity then
        some ⟨{ state.threads with queue := { state.threads.queue with capacity := queueCapacity } }, .allocate⟩
      else none
  | .allocate granted =>
      if state.main = .allocate then
        let data := if granted then .live (List.replicate state.threads.queue.capacity none) else .null
        some ⟨{ state.threads with queue := { state.threads.queue with data := data } }, .started granted⟩
      else none
  | .thread label =>
      if mayRun state.main label then (wakeStep state.threads label).map fun threads => { state with threads := threads }
      else none

def Ready (queue : Queue) (index : Nat) : Prop :=
  queue.capacity ≠ 0 ∧ ∃ slots, queue.data = .live slots ∧ index < slots.length

-- The slot that enqueue is about to write, and the one dequeue is about to read
-- unless it returns without reading.
def SlotReady (state : StartState) : StartLabel → Prop
  | .thread (.pushStore _) =>
      Ready state.threads.queue ((state.threads.queue.front + state.threads.queue.size) % state.threads.queue.capacity)
  | .thread .take => isDrained state.threads.queue = true ∨ Ready state.threads.queue state.threads.queue.front
  | _ => True

-- No producer comes to its store between the two assignments of slog_start, nor
-- ever after a malloc that failed.
def StoresLate (state : StartState) : StartLabel → Prop
  | .thread (.pushStore _) => state.main = .started true
  | _ => True

structure StartInv (state : StartState) : Prop where
  wake : WakeInv state.threads
  running : state.threads.stopper = .running
  checking : state.threads.logger = .checking → state.threads.queue.size ≠ 0
  storing : ∀ thread data, state.threads.producers thread = .storing data →
    state.threads.queue.size ≠ state.threads.queue.capacity
  fresh : state.main ≠ .started true →
    state.threads.queue.front = 0 ∧ state.threads.queue.size = 0 ∧ state.threads.queue.data = .null
  sized : state.main = .allocate → state.threads.queue.capacity = queueCapacity
  stored : state.main = .started true → ∃ pending, QueueRep queueCapacity state.threads.queue pending

theorem initial_start_inv : StartInv StartState.initial where
  wake := { initial_wake_inv 0 with }
  running := rfl
  checking there := by cases there
  storing thread data there := by cases there
  fresh _ := ⟨rfl, rfl, rfl⟩
  sized there := by cases there
  stored there := by cases there

-- A step of a thread that leaves the queue as it is: it can only come to the
-- read or the store by its own test.
structure QuietStep (state next : WakeState) : Prop where
  queue : next.queue = state.queue
  stopper : next.stopper = state.stopper
  checking : next.logger = .checking → state.logger = .checking ∨ mustWait state.queue = false
  storing : ∀ thread data, next.producers thread = .storing data →
    state.producers thread = .storing data ∨ refuses state.queue = false

inductive ThreadStep (state : WakeState) : WakeLabel → WakeState → Prop where
  | quiet (label : WakeLabel) (next : WakeState) (quiet : QuietStep state next) : ThreadStep state label next
  | store (thread : Nat) (data : QueueData) (next : WakeState) (here : state.producers thread = .storing data)
      (stored : wakeProducer state (.pushStore thread) = some next) : ThreadStep state (.pushStore thread) next
  | take (next : WakeState) (here : state.logger = .checking) (taken : wakeLogger state .take = some next) :
      ThreadStep state .take next

theorem pusher_moved_quiet (state next : WakeState) (thread : Nat) (pc : EnqueuePc) (queue : next.queue = state.queue)
    (stopper : next.stopper = state.stopper) (logger : next.logger = .checking → state.logger = .checking)
    (producers : next.producers = setPusher state thread pc)
    (stores : ∀ data, pc = .storing data → refuses state.queue = false) : QuietStep state next := by
  refine ⟨queue, stopper, fun there => .inl (logger there), fun other data there => ?_⟩
  rw [producers] at there
  by_cases same : other = thread
  · rw [same, set_pusher_same] at there
    exact .inr (stores data there)
  · rw [set_pusher_other state thread other pc same] at there
    exact .inl there

theorem logger_moved_quiet (state next : WakeState) (queue : next.queue = state.queue)
    (stopper : next.stopper = state.stopper) (producers : next.producers = state.producers)
    (logger : next.logger = .checking → mustWait state.queue = false) : QuietStep state next := by
  refine ⟨queue, stopper, fun there => .inr (logger there), fun thread data there => .inl ?_⟩
  rw [← producers]
  exact there

theorem logger_step_cases (state next : WakeState) (label : WakeLabel) (stepped : wakeLogger state label = some next) :
    ThreadStep state label next := by
  cases label with
  | lock | relock =>
      simp only [wakeLogger, Option.ite_none_right_eq_some, Option.some.injEq] at stepped
      obtain ⟨_, rfl⟩ := stepped
      exact .quiet _ _ (logger_moved_quiet state _ rfl rfl rfl fun there => by cases there)
  | wait | wakeSpuriously =>
      simp only [wakeLogger, Option.ite_none_right_eq_some, Option.some.injEq] at stepped
      obtain ⟨_, rfl⟩ := stepped
      exact .quiet _ _ (logger_moved_quiet state _ rfl rfl rfl fun there => by cases there)
  | test =>
      simp only [wakeLogger, Option.ite_none_right_eq_some, Option.some.injEq] at stepped
      obtain ⟨_, rfl⟩ := stepped
      refine .quiet _ _ (logger_moved_quiet state _ rfl rfl rfl fun there => ?_)
      by_contra waits
      simp [waits] at there
  | take =>
      have here := stepped
      simp only [wakeLogger, Option.ite_none_right_eq_some] at here
      exact .take next here.1 stepped
  | unlock =>
      simp only [wakeLogger] at stepped
      split at stepped
      · obtain rfl := Option.some.inj stepped
        exact .quiet _ _ (logger_moved_quiet state _ rfl rfl rfl fun there => by cases there)
      · obtain rfl := Option.some.inj stepped
        exact .quiet _ _ (logger_moved_quiet state _ rfl rfl rfl fun there => by cases there)
      · cases stepped
  | _ => cases stepped

theorem producer_step_cases (state next : WakeState) (label : WakeLabel)
    (stepped : wakeProducer state label = some next) : ThreadStep state label next := by
  cases label with
  | pushLock thread data =>
      simp only [wakeProducer, Option.ite_none_right_eq_some, Option.some.injEq] at stepped
      obtain ⟨_, rfl⟩ := stepped
      exact .quiet _ _ (pusher_moved_quiet state _ thread _ rfl rfl id rfl fun _ there => by cases there)
  | pushTest thread =>
      simp only [wakeProducer] at stepped
      split at stepped
      · rename_i data _
        obtain rfl := Option.some.inj stepped
        refine .quiet _ _ (pusher_moved_quiet state _ thread (if refuses state.queue then .leaving else .storing data)
          rfl rfl id rfl fun _ there => ?_)
        by_contra refused
        rw [if_pos (by simpa using refused)] at there
        cases there
      · cases stepped
  | pushStore thread =>
      cases here : state.producers thread with
      | storing data => exact .store thread data next here stepped
      | _ => simp [wakeProducer, here] at stepped
  | pushSignal thread =>
      simp only [wakeProducer, Option.ite_none_right_eq_some, Option.some.injEq] at stepped
      obtain ⟨_, rfl⟩ := stepped
      refine .quiet _ _ (pusher_moved_quiet state _ thread _ rfl rfl (fun there => ?_) rfl fun _ there => by cases there)
      dsimp only [signalled] at there
      split at there
      · cases there
      · exact there
  | pushUnlock thread =>
      simp only [wakeProducer, Option.ite_none_right_eq_some, Option.some.injEq] at stepped
      obtain ⟨_, rfl⟩ := stepped
      exact .quiet _ _ (pusher_moved_quiet state _ thread _ rfl rfl id rfl fun _ there => by cases there)
  | _ => cases stepped

theorem thread_step_cases (state : WakeState) (main : StartPc) (label : WakeLabel) (next : WakeState)
    (allowed : mayRun main label = true) (stepped : wakeStep state label = some next) :
    ThreadStep state label next := by
  cases label with
  | lock | test | wait | wakeSpuriously | relock | take | unlock => exact logger_step_cases state next _ stepped
  | pushLock | pushTest | pushStore | pushSignal | pushUnlock => exact producer_step_cases state next _ stepped
  | _ => cases allowed

theorem quiet_keeps (main : StartPc) (state next : WakeState) (inv : StartInv ⟨state, main⟩) (wake : WakeInv next)
    (quiet : QuietStep state next) : StartInv ⟨next, main⟩ where
  wake := wake
  running := quiet.stopper.trans inv.running
  checking there := by
    have flag : state.queue.shutdown = false := by
      by_contra set
      exact inv.wake.flag.mp (by simpa using set) inv.running
    rw [quiet.queue]
    rcases quiet.checking there with before | goes
    · exact inv.checking before
    · intro empty
      rw [(must_wait_iff state.queue).mpr ⟨empty, flag⟩] at goes
      cases goes
  storing thread data there := by
    rw [quiet.queue]
    rcases quiet.storing thread data there with before | passed
    · exact inv.storing thread data before
    · intro full
      simp [refuses, isFull, full] at passed
  fresh early := by
    rw [quiet.queue]
    exact inv.fresh early
  sized there := by
    rw [quiet.queue]
    exact inv.sized there
  stored there := by
    rw [quiet.queue]
    exact inv.stored there

theorem storing_alone (state : WakeState) (wake : WakeInv state) (thread other : Nat) (data entry : QueueData)
    (here : state.producers thread = .storing data) (there : state.producers other = .storing entry) :
    other = thread := by
  have inside (pusher : Nat) (stored : QueueData) (stores : state.producers pusher = .storing stored) :
      isInside state (.producer pusher) = true := by
    rw [isInside, stores]
    rfl
  exact Party.producer.inj (alone_inside state wake (.producer other) (.producer thread) (inside other entry there)
    (inside thread data here))

theorem ready_started (state : StartState) (inv : StartInv state) (index : Nat)
    (ready : Ready state.threads.queue index) : state.main = .started true := by
  by_contra early
  obtain ⟨_, _, null⟩ := inv.fresh early
  obtain ⟨_, slots, live, _⟩ := ready
  rw [null] at live
  cases live

theorem rear_ready (queue : Queue) (pending : List QueueData) (rep : QueueRep queueCapacity queue pending)
    (index : Nat) : Ready queue (index % queue.capacity) := by
  obtain ⟨slots, live, length, _⟩ := rep.allocated
  refine ⟨?_, slots, live, ?_⟩
  · rw [rep.sized]
    decide
  · rw [length, rep.sized]
    exact Nat.mod_lt _ (by decide)

theorem store_keeps (main : StartPc) (state next : WakeState) (thread : Nat) (data : QueueData)
    (inv : StartInv ⟨state, main⟩) (wake : WakeInv next) (here : state.producers thread = .storing data)
    (stepped : wakeProducer state (.pushStore thread) = some next) (started : main = .started true) :
    StartInv ⟨next, main⟩ := by
  obtain ⟨pending, rep⟩ := inv.stored started
  have space : pending.length < queueCapacity := by
    have within := (queue_rep_bounds queueCapacity state.queue pending rep).2
    have room := inv.storing thread data here
    dsimp only at room
    rw [rep.counted, rep.sized] at room
    exact Nat.lt_of_le_of_ne within room
  obtain ⟨queue, ran, grown, _⟩ := store_rear_rep queueCapacity state.queue pending data rep space
  simp only [wakeProducer, here, ran, Option.some.injEq] at stepped
  subst stepped
  refine ⟨wake, inv.running, fun there => ?_, fun other entry there => ?_, fun early => absurd started early,
    fun there => ?_, fun _ => ⟨_, grown⟩⟩
  · rw [(store_rear_size state.queue queue data ran).1]
    exact Nat.succ_ne_zero _
  · dsimp only at there
    by_cases same : other = thread
    · rw [same, set_pusher_same] at there
      cases there
    · rw [set_pusher_other state thread other _ same] at there
      exact absurd (storing_alone state inv.wake thread other data entry here there) same
  · rw [started] at there
    cases there

theorem checking_pending (main : StartPc) (state : WakeState) (inv : StartInv ⟨state, main⟩)
    (here : state.logger = .checking) :
    main = .started true ∧ ∃ data rest, QueueRep queueCapacity state.queue (data :: rest) := by
  have some := inv.checking here
  have started : main = .started true := by
    by_contra early
    exact some (inv.fresh early).2.1
  obtain ⟨pending, rep⟩ := inv.stored started
  cases pending with
  | nil => exact absurd rep.counted some
  | cons data rest => exact ⟨started, data, rest, rep⟩

theorem take_keeps_started (main : StartPc) (state next : WakeState) (inv : StartInv ⟨state, main⟩)
    (wake : WakeInv next) (here : state.logger = .checking) (stepped : wakeLogger state .take = some next) :
    StartInv ⟨next, main⟩ := by
  obtain ⟨started, data, rest, rep⟩ := checking_pending main state inv here
  obtain ⟨queue, taken, shorter, _⟩ := take_front_rep queueCapacity state.queue data rest rep
  have goes : isDrained state.queue = false := by simp [isDrained, rep.counted]
  have nobody := nobody_stores state inv.wake .logger (by rw [isInside, here]; rfl) (by simp)
  simp only [wakeLogger, here, if_true, goes, Bool.false_eq_true, if_false, taken, Option.some.injEq] at stepped
  subst stepped
  refine ⟨wake, inv.running, fun there => ?_, fun thread entry there => ?_, fun early => absurd started early,
    fun there => ?_, fun _ => ⟨rest, shorter⟩⟩
  · cases there
  · have stores := nobody thread
    rw [there] at stores
    cases stores
  · rw [started] at there
    cases there

theorem start_inv_kept (state : StartState) (label : StartLabel) (next : StartState) (inv : StartInv state)
    (stepped : startStep state label = some next) (ready : SlotReady state label) : StartInv next := by
  obtain ⟨threads, main⟩ := state
  cases label with
  | createThread =>
      simp only [startStep, Option.ite_none_right_eq_some, Option.some.injEq] at stepped
      obtain ⟨here, rfl⟩ := stepped
      exact { inv with
        fresh := fun _ => inv.fresh (by simp [here])
        sized := fun there => by cases there
        stored := fun there => by cases there }
  | setCapacity =>
      simp only [startStep, Option.ite_none_right_eq_some, Option.some.injEq] at stepped
      obtain ⟨here, rfl⟩ := stepped
      obtain ⟨front, empty, null⟩ := inv.fresh (by simp [here])
      exact
        { wake := { inv.wake with }
          running := inv.running
          checking := inv.checking
          storing := fun thread data there => by
            dsimp only at empty ⊢
            rw [empty]
            decide
          fresh := fun _ => ⟨front, empty, null⟩
          sized := fun _ => rfl
          stored := fun there => by cases there }
  | allocate granted =>
      simp only [startStep, Option.ite_none_right_eq_some, Option.some.injEq] at stepped
      obtain ⟨here, rfl⟩ := stepped
      obtain ⟨front, empty, null⟩ := inv.fresh (by simp [here])
      refine ⟨{ inv.wake with }, inv.running, inv.checking, inv.storing, fun early => ⟨front, empty, ?_⟩,
        fun there => StartPc.noConfusion there, fun given => ⟨[], ?_⟩⟩
      · cases granted with
        | false => rfl
        | true => exact absurd rfl early
      · obtain rfl : granted = true := by simpa using given
        exact fresh_queue_rep queueCapacity threads.queue (inv.sized here) (by rw [front]; decide) empty
  | thread label =>
      simp only [startStep, Option.ite_none_right_eq_some] at stepped
      obtain ⟨allowed, stepped⟩ := stepped
      obtain ⟨moved, ran, rfl⟩ := Option.map_eq_some_iff.mp stepped
      have wake := wake_step_keeps threads moved label inv.wake ran
      cases thread_step_cases threads main label moved allowed ran with
      | quiet _ _ quiet => exact quiet_keeps main threads moved inv wake quiet
      | store thread data _ here stored =>
          exact store_keeps main threads moved thread data inv wake here stored (ready_started _ inv _ ready)
      | take _ here taken => exact take_keeps_started main threads moved inv wake here taken

theorem late_slot_ready (state : StartState) (label : StartLabel) (next : StartState) (inv : StartInv state)
    (stepped : startStep state label = some next) (late : StoresLate state label) : SlotReady state label := by
  obtain ⟨threads, main⟩ := state
  cases label with
  | thread label =>
      cases label with
      | pushStore thread =>
          obtain ⟨pending, rep⟩ := inv.stored late
          exact rear_ready threads.queue pending rep _
      | take =>
          simp only [startStep, Option.ite_none_right_eq_some] at stepped
          obtain ⟨moved, ran, _⟩ := Option.map_eq_some_iff.mp stepped.2
          have here := ran
          simp only [wakeStep, wakeLogger, Option.ite_none_right_eq_some] at here
          obtain ⟨_, data, rest, rep⟩ := checking_pending main threads inv here.1
          have bounds := queue_rep_bounds queueCapacity threads.queue _ rep
          obtain ⟨slots, live, length, _⟩ := rep.allocated
          exact .inr ⟨by rw [rep.sized]; decide, slots, live, length ▸ bounds.1⟩
      | _ => trivial
  | _ => trivial

theorem ready_stores_late (state : StartState) (label : StartLabel) (next : StartState) (inv : StartInv state)
    (_ : startStep state label = some next) (ready : SlotReady state label) : StoresLate state label := by
  cases label with
  | thread label =>
      cases label with
      | pushStore thread => exact ready_started state inv _ ready
      | _ => trivial
  | _ => trivial

theorem slots_ready_exact (labels : List StartLabel) :
    EveryStep SlotReady StartState.initial (trace startStep StartState.initial labels) ↔
      EveryStep StoresLate StartState.initial (trace startStep StartState.initial labels) := by
  have isRun := trace_is_run startStep StartState.initial labels
  constructor
  · intro ready
    have inv := every_step_invariant _ StartInv SlotReady start_inv_kept _ _ isRun initial_start_inv ready
    exact every_step_imp _ StartInv SlotReady StoresLate ready_stores_late _ _ isRun inv ready
  · intro late
    have inv := every_step_invariant _ StartInv StoresLate
      (fun state label next inv stepped late =>
        start_inv_kept state label next inv stepped (late_slot_ready state label next inv stepped late))
      _ _ isRun initial_start_inv late
    exact every_step_imp _ StartInv StoresLate SlotReady late_slot_ready _ _ isRun inv late

-- A push that finds the capacity and not yet the array writes through NULL.
def pushBetween : List StartLabel :=
  [.createThread, .setCapacity, .thread (.pushLock 0 (oneByte 97)), .thread (.pushTest 0), .thread (.pushStore 0)]

theorem push_between_not_ready :
    ¬EveryStep SlotReady StartState.initial (trace startStep StartState.initial pushBetween) := by
  simp [pushBetween, trace, EveryStep, SlotReady, Ready, startStep, mayRun, wakeStep, wakeProducer,
    StartState.initial, WakeState.initial, Queue.initial, refuses, isFull, storeRear, wrap, SlotArray.write, queueCapacity]

end Slogger.Logger
