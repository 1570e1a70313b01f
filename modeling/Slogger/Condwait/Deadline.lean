import Slogger.Condwait.Timeout
import Slogger.Lib.Runs

set_option autoImplicit false

namespace Slogger.Condwait

open Slogger.Lib

def CondwaitState.initialised (clock : Nat) : CondwaitState :=
  { CondwaitState.initial clock with timeout := clockGettime clock }

-- Beside the object, the thread inside condwait_wait, and for each thread when
-- the wait it called last is to end: its clock at the call and the time asked for.
structure DeadlineState where
  object : CondwaitState
  waiter : Option Nat
  requested : Nat → Int

def DeadlineState.initial (clock : Nat) : DeadlineState := ⟨CondwaitState.initialised clock, none, fun _ => 0⟩

-- The calls of condwait_wait come one after another, from any threads: they
-- write th->timeout before they lock, so two side by side race on it. Signals
-- come whenever they like.
def sensible (state : DeadlineState) : Label → Bool
  | .wait _ timeInSec timeInMs => decide (0 ≤ timeInSec.toInt ∧ 0 ≤ timeInMs.toInt) && state.waiter.isNone
  | .init _ | .stopLock _ | .destroy _ | .stopUnlock _ => false
  | _ => true

def request (state : DeadlineState) (object : CondwaitState) : Label → DeadlineState
  | .wait thread timeInSec timeInMs =>
      ⟨object, some thread,
        Function.update state.requested thread (state.object.clock + duration timeInSec timeInMs)⟩
  | .unlock _ => { state with object := object, waiter := none }
  | _ => { state with object := object }

def deadlineStep : DeadlineState → Label → Option DeadlineState :=
  under sensible fun state label => (condwaitStep state.object label).map fun object => request state object label

-- What a thread has to do with its time: the deadline it will hand over, the
-- one it has handed over, and how it timed out.
def PcKept (timeout : Int) (clock : Nat) (requested : Int) : ThreadPc → Prop
  | .locking | .entering => timeout = requested
  | .asleep deadline => deadline = requested
  | .relocking result | .unlocking result => result = ETIMEDOUT → requested ≤ clock
  | _ => True

def DeadlineKept (state : DeadlineState) : Prop :=
  ∀ thread, PcKept state.object.timeout.nanoseconds state.object.clock (state.requested thread)
    (state.object.threads thread)

def Pending (pc : ThreadPc) : Prop := pc = .locking ∨ pc = .entering

def ThreadPc.waits : ThreadPc → Bool
  | .locking | .entering | .asleep _ | .relocking _ | .unlocking _ => true
  | _ => false

-- A call that finds its clock in the timeout and reaches no further than 2^63
-- seconds.
def OnTime (state : DeadlineState) : Label → Prop
  | .wait _ timeInSec timeInMs =>
      state.object.timeout.nanoseconds = state.object.clock ∧
        state.object.clock + duration timeInSec timeInMs < 2 ^ 63 * 1000000000
  | _ => True

structure DeadlineInv (state : DeadlineState) : Prop where
  range : state.object.timeout.InRange
  alone : ∀ thread, (state.object.threads thread).waits = true → state.waiter = some thread
  sleeps : ∀ sleeper ∈ state.object.sleepers, state.object.sleepers = [sleeper] ∧
    ∃ deadline, state.object.threads sleeper = .asleep deadline

theorem initialised_by_init (clock thread : Nat) :
    condwaitStep (CondwaitState.initial clock) (.init thread) = some (CondwaitState.initialised clock) := rfl

theorem clock_in_range (clock : Nat) : (clockGettime clock).InRange := by
  have part := Nat.mod_lt clock (by omega : 1000000000 > 0)
  have value : (BitVec.ofNat 64 (clock % 1000000000)).toNat = clock % 1000000000 := by
    rw [BitVec.toNat_ofNat, Nat.mod_eq_of_lt (by omega)]
  rw [Timespec.InRange, clockGettime]
  rcases word_cases (BitVec.ofNat 64 (clock % 1000000000)) with ⟨_, same⟩ | ⟨large, _⟩ <;> dsimp only <;> omega

theorem kept_moved (timeout : Int) (clock : Nat) (requested : Nat → Int) (threads : Nat → ThreadPc) (thread : Nat)
    (pc : ThreadPc) (kept : ∀ other, PcKept timeout clock (requested other) (threads other))
    (here : PcKept timeout clock (requested thread) pc) (other : Nat) :
    PcKept timeout clock (requested other) (Function.update threads thread pc other) := by
  by_cases same : other = thread
  · subst same
    rwa [Function.update_self]
  · rw [Function.update_of_ne same]
    exact kept other

theorem kept_later (timeout : Int) (clock passed : Nat) (requested : Int) (pc : ThreadPc)
    (kept : PcKept timeout clock requested pc) : PcKept timeout (clock + passed) requested pc := by
  cases pc with
  | relocking result | unlocking result =>
      intro expired
      have now := kept expired
      omega
  | _ => exact kept

theorem kept_settled (timeout other : Int) (clock : Nat) (requested : Int) (pc : ThreadPc) (settled : pc.waits = false)
    (kept : PcKept timeout clock requested pc) : PcKept other clock requested pc := by
  cases pc with
  | locking | entering => cases settled
  | _ => exact kept

theorem deadline_step_cases (state next : DeadlineState) (label : Label)
    (stepped : deadlineStep state label = some next) :
    sensible state label = true ∧
      ∃ object, CondwaitStep state.object label object ∧ next = request state object label := by
  obtain ⟨allowed, ran⟩ := (under_some _ _ _ _ _).mp stepped
  obtain ⟨object, moved, same⟩ := Option.map_eq_some_iff.mp ran
  exact ⟨allowed, object, condwait_step_cases state.object object label moved, same.symm⟩

theorem alone_moved (waiter : Option Nat) (threads : Nat → ThreadPc) (thread : Nat) (pc : ThreadPc)
    (alone : ∀ other, (threads other).waits = true → waiter = some other) (here : pc.waits = true → waiter = some thread)
    (other : Nat) (waits : (Function.update threads thread pc other).waits = true) : waiter = some other := by
  by_cases same : other = thread
  · subst same
    rw [Function.update_self] at waits
    exact here waits
  · rw [Function.update_of_ne same] at waits
    exact alone other waits

theorem sleeps_moved (sleepers : List Nat) (threads : Nat → ThreadPc) (thread : Nat) (pc : ThreadPc)
    (sleeps : ∀ sleeper ∈ sleepers, sleepers = [sleeper] ∧ ∃ deadline, threads sleeper = .asleep deadline)
    (awake : ∀ deadline, threads thread ≠ .asleep deadline) (sleeper : Nat) (member : sleeper ∈ sleepers) :
    sleepers = [sleeper] ∧ ∃ deadline, Function.update threads thread pc sleeper = .asleep deadline := by
  obtain ⟨only, deadline, here⟩ := sleeps sleeper member
  have different : sleeper ≠ thread := by
    rintro rfl
    exact awake deadline here
  exact ⟨only, deadline, by rw [Function.update_of_ne different, here]⟩

theorem nobody_left (state : DeadlineState) (inv : DeadlineInv state) (thread : Nat)
    (waits : (state.object.threads thread).waits = true) : state.object.sleepers.erase thread = [] := by
  cases listed : state.object.sleepers with
  | nil => rfl
  | cons sleeper rest =>
      obtain ⟨only, deadline, here⟩ := inv.sleeps sleeper (listed ▸ List.mem_cons_self)
      have first := inv.alone thread waits
      have second := inv.alone sleeper (by rw [here]; rfl)
      obtain rfl : thread = sleeper := Option.some.inj (first.symm.trans second)
      rw [← listed, only, List.erase_cons_head]

theorem unblocked_inv (state : DeadlineState) (inv : DeadlineInv state) (thread result : Nat)
    (waits : (state.object.threads thread).waits = true) :
    DeadlineInv { state with object := state.object.unblock thread result } where
  range := inv.range
  alone := alone_moved state.waiter _ thread _ inv.alone fun _ => inv.alone thread waits
  sleeps sleeper member := by
    rw [CondwaitState.unblock, nobody_left state inv thread waits] at member
    cases member

theorem moved_inv (state : DeadlineState) (inv : DeadlineInv state) (thread : Nat) (pc : ThreadPc) (mutex : Option Nat)
    (here : pc.waits = true → state.waiter = some thread)
    (awake : ∀ deadline, state.object.threads thread ≠ .asleep deadline) :
    DeadlineInv { state with object := { state.object.move thread pc with mutex := mutex } } where
  range := inv.range
  alone := alone_moved state.waiter _ thread pc inv.alone here
  sleeps := sleeps_moved _ _ thread pc inv.sleeps awake

theorem deadline_inv_kept (state : DeadlineState) (label : Label) (next : DeadlineState) (inv : DeadlineInv state)
    (stepped : deadlineStep state label = some next) : DeadlineInv next := by
  obtain ⟨allowed, object, moved, rfl⟩ := deadline_step_cases state next label stepped
  cases moved with
  | tick => exact ⟨inv.range, inv.alone, inv.sleeps⟩
  | init | stopLock | destroy | stopUnlock => cases allowed
  | wait thread timeInSec timeInMs timeout here sets =>
      obtain ⟨nonneg, nobody⟩ := (Bool.and_eq_true_iff ..).mp allowed
      have signs := of_decide_eq_true nonneg
      rw [Option.isNone_iff_eq_none] at nobody
      refine ⟨sets ▸ (advance_value _ timeInSec timeInMs inv.range signs.1 signs.2).1, ?_, ?_⟩
      · refine alone_moved (some thread) _ thread .locking (fun other waits => ?_) fun _ => rfl
        have waiter := inv.alone other waits
        rw [nobody] at waiter
        cases waiter
      · exact sleeps_moved _ _ thread .locking inv.sleeps (by simp [here])
  | lock thread here =>
      exact moved_inv state inv thread .entering _ (fun _ => inv.alone thread (by rw [here]; rfl)) (by simp [here])
  | block thread here =>
      have waits : (state.object.threads thread).waits = true := by rw [here]; rfl
      have nobody : state.object.sleepers = [] := by
        rw [← nobody_left state inv thread waits, List.erase_of_not_mem]
        intro member
        obtain ⟨_, deadline, asleep⟩ := inv.sleeps thread member
        rw [here] at asleep
        cases asleep
      refine ⟨inv.range, alone_moved state.waiter _ thread _ inv.alone fun _ => inv.alone thread waits, ?_⟩
      intro sleeper member
      simp only [request, nobody, List.nil_append, List.mem_singleton] at member ⊢
      exact ⟨by rw [member], _, by rw [member, move_here]⟩
  | expire thread deadline here | spurious thread deadline here =>
      exact unblocked_inv state inv thread _ (by rw [here]; rfl)
  | relock thread result here =>
      exact moved_inv state inv thread (.unlocking result) _ (fun _ => inv.alone thread (by rw [here]; rfl))
        (by simp [here])
  | unlock thread result here =>
      have mine := inv.alone thread (by rw [here]; rfl)
      refine ⟨inv.range, fun other waits => ?_, sleeps_moved _ _ thread .idle inv.sleeps (by simp [here])⟩
      have also := alone_moved state.waiter _ thread .idle inv.alone nofun other waits
      obtain rfl : other = thread := Option.some.inj (also.symm.trans mine)
      simp [request, ThreadPc.waits] at waits
  | release thread here => exact moved_inv state inv thread .signalling _ nofun (by simp [here])
  | unheard thread here => exact moved_inv state inv thread .releasing _ nofun (by simp [here])
  | heard thread sleeper here member =>
      obtain ⟨_, deadline, asleep⟩ := inv.sleeps sleeper member
      have woken := unblocked_inv state inv sleeper 0 (by rw [asleep]; rfl)
      have different : thread ≠ sleeper := by
        rintro rfl
        rw [here] at asleep
        cases asleep
      exact moved_inv _ woken thread .releasing _ nofun (by
        simp [CondwaitState.unblock, CondwaitState.move, Function.update_of_ne different, here])
  | releaseAgain thread here => exact moved_inv state inv thread .idle _ nofun (by simp [here])

theorem deadline_kept (state : DeadlineState) (label : Label) (next : DeadlineState)
    (inv : DeadlineInv state) (kept : DeadlineKept state)
    (stepped : deadlineStep state label = some next) (onTime : OnTime state label) : DeadlineKept next := by
  obtain ⟨allowed, object, moved, rfl⟩ := deadline_step_cases state next label stepped
  cases moved with
  | tick nanoseconds => exact fun thread => kept_later _ _ nanoseconds _ _ (kept thread)
  | init | stopLock | destroy | stopUnlock => cases allowed
  | wait thread timeInSec timeInMs timeout here sets =>
      obtain ⟨nonneg, nobody⟩ := (Bool.and_eq_true_iff ..).mp allowed
      have signs := of_decide_eq_true nonneg
      have value := (advance_value state.object.timeout timeInSec timeInMs inv.range signs.1 signs.2).2
      obtain ⟨found, fits⟩ := onTime
      rw [← sets, found] at value
      intro other
      by_cases same : other = thread
      · subst same
        simp only [request, CondwaitState.move, Function.update_self, PcKept]
        omega
      · simp only [request, CondwaitState.move, Function.update_of_ne same]
        have settled : (state.object.threads other).waits = false := by
          rw [← Bool.not_eq_true]
          intro waits
          rw [inv.alone other waits] at nobody
          cases nobody
        exact kept_settled _ _ _ _ _ settled (kept other)
  | lock thread here =>
      have mine := kept thread
      rw [here] at mine
      exact kept_moved _ _ _ _ thread .entering kept mine
  | block thread here =>
      have mine := kept thread
      rw [here] at mine
      exact kept_moved _ _ _ _ thread (.asleep _) kept mine
  | expire thread deadline here late =>
      have mine : deadline = state.requested thread := by
        have mine := kept thread
        rwa [here] at mine
      exact kept_moved _ _ _ _ thread (.relocking ETIMEDOUT) kept fun _ => mine ▸ late
  | spurious thread => exact kept_moved _ _ _ _ thread (.relocking 0) kept fun expired => by cases expired
  | relock thread result here =>
      have mine := kept thread
      rw [here] at mine
      exact kept_moved _ _ _ _ thread (.unlocking result) kept mine
  | heard thread sleeper =>
      have woken := kept_moved _ _ _ _ sleeper (.relocking 0) kept fun expired => by cases expired
      exact kept_moved _ _ _ _ thread .releasing woken trivial
  | unlock thread | release thread | unheard thread | releaseAgain thread =>
      exact kept_moved _ _ _ _ thread _ kept trivial

theorem deadline_lost (state : DeadlineState) (label : Label) (next : DeadlineState)
    (inv : DeadlineInv state) (_ : DeadlineKept state)
    (stepped : deadlineStep state label = some next) (late : ¬OnTime state label) : ¬DeadlineKept next := by
  obtain ⟨allowed, object, moved, rfl⟩ := deadline_step_cases state next label stepped
  cases moved with
  | wait thread timeInSec timeInMs timeout here sets =>
      obtain ⟨nonneg, _⟩ := (Bool.and_eq_true_iff ..).mp allowed
      have signs := of_decide_eq_true nonneg
      have value := (advance_value state.object.timeout timeInSec timeInMs inv.range signs.1 signs.2).2
      have bound := nanoseconds_below state.object.timeout inv.range
      rw [← sets] at value
      intro after
      have mine : timeout.nanoseconds = state.object.clock + duration timeInSec timeInMs := by
        have mine := after thread
        simpa only [request, CondwaitState.move, Function.update_self, PcKept] using mine
      exact late ⟨by omega, by omega⟩
  | _ => exact absurd trivial late

theorem initial_deadline_inv (clock : Nat) : DeadlineInv (DeadlineState.initial clock) :=
  ⟨clock_in_range clock, nofun, nofun⟩

theorem deadlines_kept_exact (clock : Nat) (labels : List Label) :
    Always DeadlineKept (DeadlineState.initial clock) (trace deadlineStep (DeadlineState.initial clock) labels) ↔
      EveryStep OnTime (DeadlineState.initial clock) (trace deadlineStep (DeadlineState.initial clock) labels) :=
  always_iff_every_step (fun state label next => deadlineStep state label = some next)
    DeadlineInv DeadlineKept OnTime
    (fun state label next inv _ stepped => deadline_inv_kept state label next inv stepped)
    deadline_kept deadline_lost (DeadlineState.initial clock) _ (trace_is_run deadlineStep _ labels)
    (initial_deadline_inv clock) (fun _ => trivial)

-- A second's wait two seconds after condwait_int times out at once.
def waitAfterWork : List Label := [.tick 2000000000, .wait 0 1 0, .lock 0, .block 0, .expire 0]

theorem wait_after_work_times_out :
    ¬Always DeadlineKept (DeadlineState.initial 0) (trace deadlineStep (DeadlineState.initial 0) waitAfterWork) := by
  intro always
  have past : (advance (clockGettime 0) 1#32 0#32).nanoseconds ≤ 2000000000 := by decide +kernel
  have ran : ∃ state, waitAfterWork.foldlM deadlineStep (DeadlineState.initial 0) = some state ∧
      state.object.threads 0 = .relocking ETIMEDOUT ∧ state.object.clock = 2000000000 ∧
      state.requested 0 = 2000000000 + duration 1 0 := by
    simp [waitAfterWork, List.foldlM, deadlineStep, under, sensible, condwaitStep, stepWait, request,
      DeadlineState.initial, CondwaitState.initialised, CondwaitState.initial, CondwaitState.move,
      CondwaitState.unblock, past]
  obtain ⟨state, ran, late, clock, asked⟩ := ran
  have kept := always_finish DeadlineKept _ _ always
  rw [finish_trace _ _ state _ ran] at kept
  have mine := kept 0
  rw [late, clock, asked] at mine
  exact absurd (mine rfl) (by decide)

end Slogger.Condwait
