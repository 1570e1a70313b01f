import Slogger.Condwait.Deadline
import Slogger.Lib.Mutex

set_option autoImplicit false

namespace Slogger.Condwait

open Slogger.Lib

-- Between a pthread_mutex_lock of condwait_wait or condwait_stop and what gives
-- the mutex away again. condwait_signal locks nothing.
def ThreadPc.inside : ThreadPc → Bool
  | .entering | .unlocking _ | .destroying | .leaving => true
  | _ => false

-- Threads, and their signal handlers, on an object that is not initialised again.
def useStep : CondwaitState → Label → Option CondwaitState :=
  under (fun _ label => match label with | .init _ => false | _ => true) condwaitStep

-- Every statement that unlocks the mutex, pthread_cond_timedwait included.
def UnlocksOwn (state : CondwaitState) : Label → Prop
  | .block thread | .unlock thread | .release thread | .releaseAgain thread | .stopUnlock thread =>
      state.mutex = some thread
  | _ => True

def MutexGuards (state : CondwaitState) : Prop := Guards state.mutex fun thread => (state.threads thread).inside

def OwnsMutex (state : CondwaitState) (run : Run CondwaitState Label) : Prop :=
  EveryStep UnlocksOwn state run ∧ Always MutexGuards state run

def NoSignal (_ : CondwaitState) : Label → Prop
  | .release _ => False
  | _ => True

-- Where nobody signals, no thread is ever inside condwait_signal.
structure OwnInv (state : CondwaitState) : Prop where
  guards : MutexGuards state
  quiet : ∀ thread, state.threads thread ≠ .signalling ∧ state.threads thread ≠ .releasing

theorem use_step_cases (state next : CondwaitState) (label : Label) (stepped : useStep state label = some next) :
    (∀ thread, label ≠ .init thread) ∧ CondwaitStep state label next := by
  obtain ⟨allowed, ran⟩ := (under_some _ _ _ _ _).mp stepped
  refine ⟨fun thread same => ?_, condwait_step_cases state next label ran⟩
  subst same
  cases allowed

theorem quiet_moved (state : CondwaitState) (thread : Nat) (pc : ThreadPc)
    (quiet : ∀ thread, state.threads thread ≠ .signalling ∧ state.threads thread ≠ .releasing)
    (here : pc ≠ .signalling ∧ pc ≠ .releasing) (other : Nat) :
    (state.move thread pc).threads other ≠ .signalling ∧ (state.move thread pc).threads other ≠ .releasing := by
  by_cases same : other = thread
  · rw [same, move_here]
    exact here
  · rw [move_elsewhere state thread other pc same]
    exact quiet other

theorem guards_same (state : CondwaitState) (thread : Nat) (pc : ThreadPc) (guards : MutexGuards state)
    (same : pc.inside = (state.threads thread).inside) :
    Guards state.mutex fun other => ((state.move thread pc).threads other).inside := by
  apply guards_kept state.mutex _ _ thread guards
  · rw [move_here, same]
  · intro other different
    rw [move_elsewhere state thread other pc different]

theorem guards_taken (state : CondwaitState) (thread : Nat) (pc : ThreadPc) (guards : MutexGuards state)
    (free : state.mutex = none) (entered : pc.inside = true) :
    Guards (some thread) fun other => ((state.move thread pc).threads other).inside := by
  have unheld : Guards none fun other => (state.threads other).inside := by
    rw [← free]
    exact guards
  apply guards_entered _ _ thread unheld
  · rw [move_here, entered]
  · intro other different
    rw [move_elsewhere state thread other pc different]

theorem guards_given (state : CondwaitState) (thread : Nat) (pc : ThreadPc) (guards : MutexGuards state)
    (held : (state.threads thread).inside = true) (left : pc.inside = false) :
    Guards none fun other => ((state.move thread pc).threads other).inside := by
  apply guards_left state.mutex _ _ thread guards held
  · rw [move_here, left]
  · intro other different
    rw [move_elsewhere state thread other pc different]

theorem own_inv_kept (state : CondwaitState) (label : Label) (next : CondwaitState) (inv : OwnInv state)
    (stepped : useStep state label = some next) (noSignal : NoSignal state label) : OwnInv next := by
  obtain ⟨started, moved⟩ := use_step_cases state next label stepped
  obtain ⟨guards, quiet⟩ := inv
  have apart (pc : ThreadPc) (thread : Nat) := quiet_moved state thread pc quiet
  cases moved with
  | tick => exact ⟨guards, quiet⟩
  | init thread => exact absurd rfl (started thread)
  | wait thread _ _ _ here => exact ⟨guards_same state thread _ guards (by rw [here]; rfl), apart _ thread (by simp)⟩
  | lock thread _ free => exact ⟨guards_taken state thread _ guards free rfl, apart _ thread (by simp)⟩
  | block thread here => exact ⟨guards_given state thread _ guards (by rw [here]; rfl) rfl, apart _ thread (by simp)⟩
  | expire thread _ here | spurious thread _ here =>
      exact ⟨guards_same state thread _ guards (by rw [here]; rfl), apart _ thread (by simp)⟩
  | relock thread _ _ free => exact ⟨guards_taken state thread _ guards free rfl, apart _ thread (by simp)⟩
  | unlock thread _ here => exact ⟨guards_given state thread _ guards (by rw [here]; rfl) rfl, apart _ thread (by simp)⟩
  | release => exact absurd noSignal id
  | unheard thread here | heard thread _ here => exact absurd here (quiet thread).1
  | releaseAgain thread here => exact absurd here (quiet thread).2
  | stopLock thread _ free => exact ⟨guards_taken state thread _ guards free rfl, apart _ thread (by simp)⟩
  | destroy thread here => exact ⟨guards_same state thread _ guards (by rw [here]; rfl), apart _ thread (by simp)⟩
  | stopUnlock thread here => exact ⟨guards_given state thread _ guards (by rw [here]; rfl) rfl, apart _ thread (by simp)⟩

theorem own_inv_unlocks (state : CondwaitState) (label : Label) (next : CondwaitState) (inv : OwnInv state)
    (stepped : useStep state label = some next) (noSignal : NoSignal state label) : UnlocksOwn state label := by
  obtain ⟨_, moved⟩ := use_step_cases state next label stepped
  have holder (thread : Nat) : (state.threads thread).inside = true → state.mutex = some thread :=
    (inv.guards thread).mp
  cases moved with
  | block thread here | unlock thread _ here | stopUnlock thread here => exact holder thread (by rw [here]; rfl)
  | release => exact absurd noSignal id
  | releaseAgain thread here => exact absurd here (inv.quiet thread).2
  | _ => trivial

theorem signal_unlocks_other (state : CondwaitState) (label : Label) (next : CondwaitState)
    (guards : MutexGuards state) (stepped : useStep state label = some next) (owns : UnlocksOwn state label) :
    NoSignal state label := by
  obtain ⟨_, moved⟩ := use_step_cases state next label stepped
  cases moved with
  | release thread here =>
      have inside := (guards thread).mpr owns
      dsimp only at inside
      rw [here] at inside
      cases inside
  | _ => trivial

theorem initialised_own_inv (clock : Nat) : OwnInv (CondwaitState.initialised clock) := by
  constructor
  · intro thread
    simp [CondwaitState.initialised, CondwaitState.initial, ThreadPc.inside]
  · intro thread
    simp [CondwaitState.initialised, CondwaitState.initial]

theorem mutex_owned_exact (clock : Nat) (labels : List Label) :
    OwnsMutex (CondwaitState.initialised clock) (trace useStep (CondwaitState.initialised clock) labels) ↔
      EveryStep NoSignal (CondwaitState.initialised clock) (trace useStep (CondwaitState.initialised clock) labels) := by
  have isRun := trace_is_run useStep (CondwaitState.initialised clock) labels
  constructor
  · intro owns
    exact every_step_imp _ MutexGuards UnlocksOwn NoSignal signal_unlocks_other _ _ isRun owns.2 owns.1
  · intro noSignal
    have inv := every_step_invariant _ OwnInv NoSignal own_inv_kept _ _ isRun (initialised_own_inv clock) noSignal
    exact ⟨every_step_imp _ OwnInv NoSignal UnlocksOwn own_inv_unlocks _ _ isRun inv noSignal,
      always_imp OwnInv MutexGuards (fun _ inv => inv.guards) _ _ inv⟩

-- A signal while another thread is between its lock and its timed wait opens
-- that section to a third one.
def signalIntoSection : List Label := [.wait 0 5 10, .lock 0, .release 1, .stopLock 2]

theorem signal_opens_section :
    ¬OwnsMutex (CondwaitState.initialised 0) (trace useStep (CondwaitState.initialised 0) signalIntoSection) := by
  intro owns
  have unlocks := owns.1
  simp [signalIntoSection, trace, EveryStep, UnlocksOwn, useStep, under, condwaitStep, stepWait, stepSignal, stepStop,
    CondwaitState.initialised, CondwaitState.initial, CondwaitState.move] at unlocks

end Slogger.Condwait
