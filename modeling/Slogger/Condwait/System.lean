import Mathlib.Data.List.Basic
import Mathlib.Logic.Function.Basic

set_option autoImplicit false

namespace Slogger.Condwait

def ETIMEDOUT : Nat := 110

-- struct timespec with 64-bit time_t and long.
structure Timespec where
  tvSec : BitVec 64
  tvNsec : BitVec 64
deriving DecidableEq

def Timespec.nanoseconds (time : Timespec) : Int := time.tvSec.toInt * 1000000000 + time.tvNsec.toInt

-- The clock is CLOCK_REALTIME in nanoseconds.
def clockGettime (clock : Nat) : Timespec where
  tvSec := BitVec.ofNat 64 (clock / 1000000000)
  tvNsec := BitVec.ofNat 64 (clock % 1000000000)

-- What condwait_wait does to th->timeout. The sum is a long that becomes a
-- u_int64_t, and timeInSec becomes one where it is added to the quotient.
def advance (timeout : Timespec) (timeInSec timeInMs : BitVec 32) : Timespec :=
  let futureNs := timeout.tvNsec + timeInMs.signExtend 64 * 1000000
  { tvSec := timeout.tvSec + (timeInSec.signExtend 64 + futureNs / 1000000000)
    tvNsec := futureNs % 1000000000 }

-- A thread between the statements of condwait_wait, condwait_signal and
-- condwait_stop. It is asleep inside pthread_cond_timedwait, which gives the
-- mutex away when it blocks and locks it again before it returns.
inductive ThreadPc where
  | idle
  | locking
  | entering
  | asleep (deadline : Int)
  | relocking (result : Nat)
  | unlocking (result : Nat)
  | signalling
  | releasing
  | destroying
  | leaving
deriving DecidableEq

-- sleepers are the threads blocked on the condition variable. Nothing else of a
-- signal is kept anywhere.
structure CondwaitState where
  mutex : Option Nat
  sleepers : List Nat
  timeout : Timespec
  clock : Nat
  threads : Nat → ThreadPc

def CondwaitState.initial (clock : Nat) : CondwaitState where
  mutex := none
  sleepers := []
  timeout := ⟨0, 0⟩
  clock := clock
  threads _ := .idle

inductive Label where
  | tick (nanoseconds : Nat)
  | init (thread : Nat)
  | wait (thread : Nat) (timeInSec timeInMs : BitVec 32)
  | lock (thread : Nat)
  | block (thread : Nat)
  | expire (thread : Nat)
  | spurious (thread : Nat)
  | relock (thread : Nat)
  | unlock (thread : Nat)
  | release (thread : Nat)
  | signal (thread : Nat) (woken : Option Nat)
  | releaseAgain (thread : Nat)
  | stopLock (thread : Nat)
  | destroy (thread : Nat)
  | stopUnlock (thread : Nat)
deriving DecidableEq

def CondwaitState.move (state : CondwaitState) (thread : Nat) (pc : ThreadPc) : CondwaitState :=
  { state with threads := Function.update state.threads thread pc }

def CondwaitState.unblock (state : CondwaitState) (thread : Nat) (result : Nat) : CondwaitState :=
  { state.move thread (.relocking result) with sleepers := state.sleepers.erase thread }

@[simp] theorem move_here (state : CondwaitState) (thread : Nat) (pc : ThreadPc) :
    (state.move thread pc).threads thread = pc := by
  simp [CondwaitState.move]

theorem move_elsewhere (state : CondwaitState) (thread other : Nat) (pc : ThreadPc) (ne : other ≠ thread) :
    (state.move thread pc).threads other = state.threads other := by
  simp [CondwaitState.move, ne]

@[simp] theorem unblock_here (state : CondwaitState) (thread result : Nat) :
    (state.unblock thread result).threads thread = .relocking result := by
  simp [CondwaitState.unblock]

-- condwait_wait, with the three ways out of pthread_cond_timedwait: a signal,
-- the deadline, and for no reason.
def stepWait (state : CondwaitState) : Label → Option CondwaitState
  | .wait thread timeInSec timeInMs =>
      if state.threads thread = .idle then
        some { state.move thread .locking with timeout := advance state.timeout timeInSec timeInMs }
      else none
  | .lock thread =>
      if state.threads thread = .locking ∧ state.mutex = none then
        some { state.move thread .entering with mutex := some thread }
      else none
  | .block thread =>
      if state.threads thread = .entering then
        some { state.move thread (.asleep state.timeout.nanoseconds) with
          mutex := none
          sleepers := state.sleepers ++ [thread] }
      else none
  | .expire thread =>
      match state.threads thread with
      | .asleep deadline => if deadline ≤ state.clock then some (state.unblock thread ETIMEDOUT) else none
      | _ => none
  | .spurious thread =>
      match state.threads thread with
      | .asleep _ => some (state.unblock thread 0)
      | _ => none
  | .relock thread =>
      match state.threads thread with
      | .relocking result =>
          if state.mutex = none then some { state.move thread (.unlocking result) with mutex := some thread } else none
      | _ => none
  | .unlock thread =>
      match state.threads thread with
      | .unlocking _ => some { state.move thread .idle with mutex := none }
      | _ => none
  | _ => none

-- condwait_signal: pthread_mutex_unlock, pthread_cond_signal and again
-- pthread_mutex_unlock, which frees the mutex whoever has locked it. The signal
-- wakes one of the sleepers, if there are any.
def stepSignal (state : CondwaitState) : Label → Option CondwaitState
  | .release thread =>
      if state.threads thread = .idle then some { state.move thread .signalling with mutex := none } else none
  | .signal thread woken =>
      if state.threads thread = .signalling then
        match woken with
        | none => if state.sleepers = [] then some (state.move thread .releasing) else none
        | some sleeper =>
            if sleeper ∈ state.sleepers then some ((state.unblock sleeper 0).move thread .releasing) else none
      else none
  | .releaseAgain thread =>
      if state.threads thread = .releasing then some { state.move thread .idle with mutex := none } else none
  | _ => none

def stepStop (state : CondwaitState) : Label → Option CondwaitState
  | .stopLock thread =>
      if state.threads thread = .idle ∧ state.mutex = none then
        some { state.move thread .destroying with mutex := some thread }
      else none
  | .destroy thread => if state.threads thread = .destroying then some (state.move thread .leaving) else none
  | .stopUnlock thread =>
      if state.threads thread = .leaving then some { state.move thread .idle with mutex := none } else none
  | _ => none

-- condwait_int is one step here, and the clock only moves forward.
def condwaitStep (state : CondwaitState) (label : Label) : Option CondwaitState :=
  match label with
  | .tick nanoseconds => some { state with clock := state.clock + nanoseconds }
  | .init thread =>
      if state.threads thread = .idle then
        some { state with mutex := none, sleepers := [], timeout := clockGettime state.clock }
      else none
  | .release _ | .signal _ _ | .releaseAgain _ => stepSignal state label
  | .stopLock _ | .destroy _ | .stopUnlock _ => stepStop state label
  | _ => stepWait state label

-- The timeout of wait is a variable, so that no proof about the threads unfolds
-- the arithmetic.
inductive CondwaitStep (state : CondwaitState) : Label → CondwaitState → Prop where
  | tick (nanoseconds : Nat) : CondwaitStep state (.tick nanoseconds) { state with clock := state.clock + nanoseconds }
  | init (thread : Nat) (here : state.threads thread = .idle) :
      CondwaitStep state (.init thread)
        { state with mutex := none, sleepers := [], timeout := clockGettime state.clock }
  | wait (thread : Nat) (timeInSec timeInMs : BitVec 32) (timeout : Timespec) (here : state.threads thread = .idle)
      (sets : timeout = advance state.timeout timeInSec timeInMs) :
      CondwaitStep state (.wait thread timeInSec timeInMs) { state.move thread .locking with timeout := timeout }
  | lock (thread : Nat) (here : state.threads thread = .locking) (free : state.mutex = none) :
      CondwaitStep state (.lock thread) { state.move thread .entering with mutex := some thread }
  | block (thread : Nat) (here : state.threads thread = .entering) :
      CondwaitStep state (.block thread)
        { state.move thread (.asleep state.timeout.nanoseconds) with
          mutex := none
          sleepers := state.sleepers ++ [thread] }
  | expire (thread : Nat) (deadline : Int) (here : state.threads thread = .asleep deadline)
      (late : deadline ≤ state.clock) : CondwaitStep state (.expire thread) (state.unblock thread ETIMEDOUT)
  | spurious (thread : Nat) (deadline : Int) (here : state.threads thread = .asleep deadline) :
      CondwaitStep state (.spurious thread) (state.unblock thread 0)
  | relock (thread result : Nat) (here : state.threads thread = .relocking result) (free : state.mutex = none) :
      CondwaitStep state (.relock thread) { state.move thread (.unlocking result) with mutex := some thread }
  | unlock (thread result : Nat) (here : state.threads thread = .unlocking result) :
      CondwaitStep state (.unlock thread) { state.move thread .idle with mutex := none }
  | release (thread : Nat) (here : state.threads thread = .idle) :
      CondwaitStep state (.release thread) { state.move thread .signalling with mutex := none }
  | unheard (thread : Nat) (here : state.threads thread = .signalling) (nobody : state.sleepers = []) :
      CondwaitStep state (.signal thread none) (state.move thread .releasing)
  | heard (thread sleeper : Nat) (here : state.threads thread = .signalling) (member : sleeper ∈ state.sleepers) :
      CondwaitStep state (.signal thread (some sleeper)) ((state.unblock sleeper 0).move thread .releasing)
  | releaseAgain (thread : Nat) (here : state.threads thread = .releasing) :
      CondwaitStep state (.releaseAgain thread) { state.move thread .idle with mutex := none }
  | stopLock (thread : Nat) (here : state.threads thread = .idle) (free : state.mutex = none) :
      CondwaitStep state (.stopLock thread) { state.move thread .destroying with mutex := some thread }
  | destroy (thread : Nat) (here : state.threads thread = .destroying) :
      CondwaitStep state (.destroy thread) (state.move thread .leaving)
  | stopUnlock (thread : Nat) (here : state.threads thread = .leaving) :
      CondwaitStep state (.stopUnlock thread) { state.move thread .idle with mutex := none }

theorem wait_step_cases (state next : CondwaitState) (label : Label) (stepped : stepWait state label = some next) :
    CondwaitStep state label next := by
  cases label with
  | wait thread timeInSec timeInMs =>
      simp only [stepWait, Option.ite_none_right_eq_some, Option.some.injEq] at stepped
      obtain ⟨here, rfl⟩ := stepped
      exact .wait thread timeInSec timeInMs _ here rfl
  | lock thread =>
      simp only [stepWait, Option.ite_none_right_eq_some, Option.some.injEq] at stepped
      obtain ⟨⟨here, free⟩, rfl⟩ := stepped
      exact .lock thread here free
  | block thread =>
      simp only [stepWait, Option.ite_none_right_eq_some, Option.some.injEq] at stepped
      obtain ⟨here, rfl⟩ := stepped
      exact .block thread here
  | expire thread =>
      dsimp only [stepWait] at stepped
      split at stepped
      · rename_i deadline here
        rw [Option.ite_none_right_eq_some, Option.some.injEq] at stepped
        obtain ⟨late, rfl⟩ := stepped
        exact .expire thread deadline here late
      · cases stepped
  | spurious thread =>
      dsimp only [stepWait] at stepped
      split at stepped
      · rename_i deadline here
        obtain rfl := Option.some.inj stepped
        exact .spurious thread deadline here
      · cases stepped
  | relock thread =>
      dsimp only [stepWait] at stepped
      split at stepped
      · rename_i result here
        rw [Option.ite_none_right_eq_some, Option.some.injEq] at stepped
        obtain ⟨free, rfl⟩ := stepped
        exact .relock thread result here free
      · cases stepped
  | unlock thread =>
      dsimp only [stepWait] at stepped
      split at stepped
      · rename_i result here
        obtain rfl := Option.some.inj stepped
        exact .unlock thread result here
      · cases stepped
  | _ => cases stepped

theorem signal_step_cases (state next : CondwaitState) (label : Label) (stepped : stepSignal state label = some next) :
    CondwaitStep state label next := by
  cases label with
  | release thread =>
      simp only [stepSignal, Option.ite_none_right_eq_some, Option.some.injEq] at stepped
      obtain ⟨here, rfl⟩ := stepped
      exact .release thread here
  | signal thread woken =>
      simp only [stepSignal, Option.ite_none_right_eq_some] at stepped
      obtain ⟨here, stepped⟩ := stepped
      cases woken with
      | none =>
          simp only [Option.ite_none_right_eq_some, Option.some.injEq] at stepped
          obtain ⟨nobody, rfl⟩ := stepped
          exact .unheard thread here nobody
      | some sleeper =>
          simp only [Option.ite_none_right_eq_some, Option.some.injEq] at stepped
          obtain ⟨member, rfl⟩ := stepped
          exact .heard thread sleeper here member
  | releaseAgain thread =>
      simp only [stepSignal, Option.ite_none_right_eq_some, Option.some.injEq] at stepped
      obtain ⟨here, rfl⟩ := stepped
      exact .releaseAgain thread here
  | _ => cases stepped

theorem stop_step_cases (state next : CondwaitState) (label : Label) (stepped : stepStop state label = some next) :
    CondwaitStep state label next := by
  cases label with
  | stopLock thread =>
      simp only [stepStop, Option.ite_none_right_eq_some, Option.some.injEq] at stepped
      obtain ⟨⟨here, free⟩, rfl⟩ := stepped
      exact .stopLock thread here free
  | destroy thread =>
      simp only [stepStop, Option.ite_none_right_eq_some, Option.some.injEq] at stepped
      obtain ⟨here, rfl⟩ := stepped
      exact .destroy thread here
  | stopUnlock thread =>
      simp only [stepStop, Option.ite_none_right_eq_some, Option.some.injEq] at stepped
      obtain ⟨here, rfl⟩ := stepped
      exact .stopUnlock thread here
  | _ => cases stepped

theorem condwait_step_cases (state next : CondwaitState) (label : Label)
    (stepped : condwaitStep state label = some next) : CondwaitStep state label next := by
  cases label with
  | tick nanoseconds =>
      obtain rfl := Option.some.inj stepped
      exact .tick nanoseconds
  | init thread =>
      simp only [condwaitStep, Option.ite_none_right_eq_some, Option.some.injEq] at stepped
      obtain ⟨here, rfl⟩ := stepped
      exact .init thread here
  | release | signal | releaseAgain => exact signal_step_cases state next _ stepped
  | stopLock | destroy | stopUnlock => exact stop_step_cases state next _ stepped
  | _ => exact wait_step_cases state next _ stepped

end Slogger.Condwait
