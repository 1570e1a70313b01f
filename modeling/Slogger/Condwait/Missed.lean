import Slogger.Condwait.System
import Slogger.Lib.Runs

set_option autoImplicit false

namespace Slogger.Condwait

open Slogger.Lib

-- A call of condwait_signal: which wait its pthread_cond_signal has ended, and
-- when it returned.
structure Call where
  woke : Option Nat
  time : Nat
deriving DecidableEq

-- A wait that has returned, with the calls that returned after the one before
-- it (or condwait_int) did.
structure Wait where
  deadline : Int
  result : Nat
  calls : List Call
deriving DecidableEq

-- One thread initialises the object and waits; any others, or its own signal
-- handler, signal. woke is about calls that have not returned.
structure WatchState where
  object : CondwaitState
  initialised : Bool
  deadline : Int
  woke : Nat → Option Nat
  calls : List Call
  waits : List Wait

def WatchState.initial (clock : Nat) : WatchState where
  object := CondwaitState.initial clock
  initialised := false
  deadline := 0
  woke _ := none
  calls := []
  waits := []

def permitted (main : Nat) (state : WatchState) : Label → Bool
  | .tick _ => true
  | .wait thread _ _ => thread == main && state.initialised
  | .init thread | .lock thread | .block thread | .expire thread | .spurious thread | .relock thread
  | .unlock thread => thread == main
  | .release thread | .signal thread _ | .releaseAgain thread => thread != main
  | .stopLock _ | .destroy _ | .stopUnlock _ => false

-- The waits are numbered in the order in which they return.
def watch (state : WatchState) (object : CondwaitState) : Label → WatchState
  | .init _ => { state with object := object, initialised := true, calls := [] }
  | .block _ => { state with object := object, deadline := state.object.timeout.nanoseconds }
  | .unlock thread =>
      match state.object.threads thread with
      | .unlocking result =>
          { state with object := object, calls := [], waits := state.waits ++ [⟨state.deadline, result, state.calls⟩] }
      | _ => { state with object := object }
  | .signal thread woken =>
      { state with
        object := object
        woke := Function.update state.woke thread (woken.map fun _ => state.waits.length) }
  | .releaseAgain thread =>
      { state with object := object, calls := state.calls ++ [⟨state.woke thread, state.object.clock⟩] }
  | _ => { state with object := object }

def watchStep (main : Nat) : WatchState → Label → Option WatchState :=
  under (permitted main) fun state label => (condwaitStep state.object label).map fun object => watch state object label

-- A call that returned before the deadline ends the wait with 0, unless it had
-- already ended an earlier one.
def Wait.Received (number : Nat) (wait : Wait) : Prop :=
  ∀ call ∈ wait.calls, (∀ earlier, call.woke = some earlier → number ≤ earlier) →
    call.time < wait.deadline → wait.result = 0

def AllReceived (state : WatchState) : Prop :=
  ∀ (number : Nat) (wait : Wait), state.waits[number]? = some wait → wait.Received number

-- The calls that have made their pthread_cond_signal and are still on their way
-- out, or returned after the last wait did.
def Outstanding (state : WatchState) (woke : Option Nat) : Prop :=
  (∃ call ∈ state.calls, call.woke = woke) ∨
    ∃ thread, state.object.threads thread = .releasing ∧ state.woke thread = woke

-- When the thread blocks, no outstanding call made its signal while nobody was
-- asleep.
def BlocksHeard (state : WatchState) : Label → Prop
  | .block _ => ¬ Outstanding state none
  | _ => True

inductive WatchStep (main : Nat) (state : WatchState) : Label → WatchState → Prop where
  | tick (nanoseconds : Nat) :
      WatchStep main state (.tick nanoseconds)
        { state with object := { state.object with clock := state.object.clock + nanoseconds } }
  | init (here : state.object.threads main = .idle) :
      WatchStep main state (.init main)
        { state with
          object := { state.object with mutex := none, sleepers := [], timeout := clockGettime state.object.clock }
          initialised := true
          calls := [] }
  | wait (timeInSec timeInMs : BitVec 32) (timeout : Timespec) (here : state.object.threads main = .idle)
      (sets : timeout = advance state.object.timeout timeInSec timeInMs) :
      WatchStep main state (.wait main timeInSec timeInMs)
        { state with object := { state.object.move main .locking with timeout := timeout } }
  | lock (here : state.object.threads main = .locking) :
      WatchStep main state (.lock main)
        { state with object := { state.object.move main .entering with mutex := some main } }
  | block (here : state.object.threads main = .entering) :
      WatchStep main state (.block main)
        { state with
          object := { state.object.move main (.asleep state.object.timeout.nanoseconds) with
            mutex := none
            sleepers := state.object.sleepers ++ [main] }
          deadline := state.object.timeout.nanoseconds }
  | expire (deadline : Int) (here : state.object.threads main = .asleep deadline) (late : deadline ≤ state.object.clock) :
      WatchStep main state (.expire main) { state with object := state.object.unblock main ETIMEDOUT }
  | spurious (deadline : Int) (here : state.object.threads main = .asleep deadline) :
      WatchStep main state (.spurious main) { state with object := state.object.unblock main 0 }
  | relock (result : Nat) (here : state.object.threads main = .relocking result) :
      WatchStep main state (.relock main)
        { state with object := { state.object.move main (.unlocking result) with mutex := some main } }
  | unlock (result : Nat) (here : state.object.threads main = .unlocking result) :
      WatchStep main state (.unlock main)
        { state with
          object := { state.object.move main .idle with mutex := none }
          calls := []
          waits := state.waits ++ [⟨state.deadline, result, state.calls⟩] }
  | release (thread : Nat) (other : thread ≠ main) :
      WatchStep main state (.release thread)
        { state with object := { state.object.move thread .signalling with mutex := none } }
  | unheard (thread : Nat) (other : thread ≠ main) (nobody : state.object.sleepers = []) :
      WatchStep main state (.signal thread none)
        { state with object := state.object.move thread .releasing, woke := Function.update state.woke thread none }
  | heard (thread sleeper : Nat) (other : thread ≠ main) (member : sleeper ∈ state.object.sleepers) :
      WatchStep main state (.signal thread (some sleeper))
        { state with
          object := (state.object.unblock sleeper 0).move thread .releasing
          woke := Function.update state.woke thread (some state.waits.length) }
  | releaseAgain (thread : Nat) (other : thread ≠ main) (here : state.object.threads thread = .releasing) :
      WatchStep main state (.releaseAgain thread)
        { state with
          object := { state.object.move thread .idle with mutex := none }
          calls := state.calls ++ [⟨state.woke thread, state.object.clock⟩] }

theorem watch_step_cases (main : Nat) (state next : WatchState) (label : Label)
    (stepped : watchStep main state label = some next) : WatchStep main state label next := by
  rw [watchStep, under_some, Option.map_eq_some_iff] at stepped
  obtain ⟨allowed, object, ran, rfl⟩ := stepped
  cases condwait_step_cases state.object object label ran with
  | tick nanoseconds => exact .tick nanoseconds
  | init thread here =>
      obtain rfl := beq_iff_eq.mp allowed
      exact .init here
  | wait thread timeInSec timeInMs timeout here sets =>
      obtain rfl := beq_iff_eq.mp (Bool.and_eq_true_iff.mp allowed).1
      exact .wait timeInSec timeInMs timeout here sets
  | lock thread here =>
      obtain rfl := beq_iff_eq.mp allowed
      exact .lock here
  | block thread here =>
      obtain rfl := beq_iff_eq.mp allowed
      exact .block here
  | expire thread deadline here late =>
      obtain rfl := beq_iff_eq.mp allowed
      exact .expire deadline here late
  | spurious thread deadline here =>
      obtain rfl := beq_iff_eq.mp allowed
      exact .spurious deadline here
  | relock thread result here =>
      obtain rfl := beq_iff_eq.mp allowed
      exact .relock result here
  | unlock thread result here =>
      obtain rfl := beq_iff_eq.mp allowed
      simp only [watch, here]
      exact .unlock result here
  | release thread => exact .release thread (bne_iff_ne.mp allowed)
  | unheard thread _ nobody => exact .unheard thread (bne_iff_ne.mp allowed) nobody
  | heard thread sleeper _ member => exact .heard thread sleeper (bne_iff_ne.mp allowed) member
  | releaseAgain thread here => exact .releaseAgain thread (bne_iff_ne.mp allowed) here
  | stopLock | destroy | stopUnlock => cases allowed

theorem releasing_before (threads : Nat → ThreadPc) (moved thread : Nat) (pc : ThreadPc) (moves : pc ≠ .releasing)
    (releasing : Function.update threads moved pc thread = .releasing) : threads thread = .releasing := by
  by_cases same : thread = moved
  · rw [same, Function.update_self] at releasing
    exact absurd releasing moves
  · rwa [Function.update_of_ne same] at releasing

theorem outstanding_moved (state next : WatchState) (woke : Option Nat) (outstanding : Outstanding next woke)
    (thread : Nat) (pc : ThreadPc) (threads : next.object.threads = Function.update state.object.threads thread pc)
    (moves : pc ≠ .releasing) (calls : next.calls ⊆ state.calls) (kept : next.woke = state.woke) :
    Outstanding state woke := by
  rcases outstanding with ⟨call, member, same⟩ | ⟨other, releasing, same⟩
  · exact .inl ⟨call, calls member, same⟩
  · rw [threads] at releasing
    rw [kept] at same
    exact .inr ⟨other, releasing_before state.object.threads thread other pc moves releasing, same⟩

theorem outstanding_signalled (state next : WatchState) (woke : Option Nat) (outstanding : Outstanding next woke)
    (thread : Nat) (mark : Option Nat) (marked : next.woke = Function.update state.woke thread mark)
    (threads : ∀ other, other ≠ thread → next.object.threads other = .releasing →
      state.object.threads other = .releasing)
    (calls : next.calls = state.calls) : Outstanding state woke ∨ woke = mark := by
  rcases outstanding with ⟨call, member, same⟩ | ⟨other, releasing, same⟩
  · exact .inl (.inl ⟨call, calls ▸ member, same⟩)
  · rw [marked] at same
    by_cases signaller : other = thread
    · rw [signaller, Function.update_self] at same
      exact .inr same.symm
    · rw [Function.update_of_ne signaller] at same
      exact .inl (.inr ⟨other, threads other signaller releasing, same⟩)

theorem outstanding_completed (state next : WatchState) (woke : Option Nat) (outstanding : Outstanding next woke)
    (thread time : Nat) (here : state.object.threads thread = .releasing)
    (threads : next.object.threads = Function.update state.object.threads thread .idle)
    (calls : next.calls = state.calls ++ [⟨state.woke thread, time⟩]) (kept : next.woke = state.woke) :
    Outstanding state woke := by
  rcases outstanding with ⟨call, member, same⟩ | ⟨other, releasing, same⟩
  · rw [calls, List.mem_append, List.mem_singleton] at member
    rcases member with earlier | rfl
    · exact .inl ⟨call, earlier, same⟩
    · exact .inr ⟨thread, here, same⟩
  · rw [threads] at releasing
    rw [kept] at same
    exact .inr ⟨other, releasing_before state.object.threads thread other .idle nofun releasing, same⟩

theorem outstanding_before (main : Nat) (state next : WatchState) (label : Label)
    (stepped : WatchStep main state label next) (woke : Option Nat) (outstanding : Outstanding next woke) :
    Outstanding state woke ∨
      ∃ thread woken, label = .signal thread woken ∧ woke = woken.map fun _ => state.waits.length := by
  cases stepped with
  | tick => exact .inl outstanding
  | init =>
      rcases outstanding with ⟨_, member, _⟩ | releasing
      · cases member
      · exact .inl (.inr releasing)
  | wait | lock | block | expire | spurious | relock =>
      exact .inl (outstanding_moved state _ woke outstanding main _ rfl nofun (List.Subset.refl _) rfl)
  | unlock => exact .inl (outstanding_moved state _ woke outstanding main _ rfl nofun (List.nil_subset _) rfl)
  | release thread =>
      exact .inl (outstanding_moved state _ woke outstanding thread _ rfl nofun (List.Subset.refl _) rfl)
  | releaseAgain thread _ here =>
      exact .inl (outstanding_completed state _ woke outstanding thread _ here rfl rfl rfl)
  | unheard thread =>
      refine (outstanding_signalled state _ woke outstanding thread none rfl ?_ rfl).imp id ?_
      · intro other ne releasing
        exact (Function.update_of_ne ne _ _).symm.trans releasing
      · intro same
        exact ⟨thread, none, rfl, same⟩
  | heard thread sleeper =>
      refine (outstanding_signalled state _ woke outstanding thread _ rfl ?_ rfl).imp id ?_
      · intro other ne releasing
        have unblocked := (Function.update_of_ne ne _ _).symm.trans releasing
        exact releasing_before state.object.threads sleeper other (.relocking 0) nofun unblocked
      · intro same
        exact ⟨thread, some sleeper, rfl, same⟩

-- pthread_cond_timedwait has been ended by a signal, or for no reason.
def Woken (pc : ThreadPc) : Prop := pc = .relocking 0 ∨ pc = .unlocking 0

structure WatchInv (main : Nat) (state : WatchState) : Prop where
  numbers : ∀ number, Outstanding state (some number) →
    number < state.waits.length ∨ number = state.waits.length ∧ Woken (state.object.threads main)
  alone : ∀ sleeper ∈ state.object.sleepers, sleeper = main
  blocked : ∀ deadline, state.object.threads main = .asleep deadline →
    main ∈ state.object.sleepers ∧ state.deadline = deadline ∧ ¬ Outstanding state none
  late : ∀ result, state.object.threads main = .relocking result ∨ state.object.threads main = .unlocking result →
    result ≠ 0 → state.deadline ≤ state.object.clock ∧
      ∀ call ∈ state.calls, call.time < state.deadline →
        ∃ earlier, call.woke = some earlier ∧ earlier < state.waits.length
  received : AllReceived state

theorem heard_wakes (state : CondwaitState) (main thread : Nat) (other : thread ≠ main) :
    ((state.unblock main 0).move thread .releasing).threads main = .relocking 0 := by
  rw [move_elsewhere _ thread main _ other.symm, unblock_here]

theorem numbers_kept (main : Nat) (state next : WatchState) (label : Label) (inv : WatchInv main state)
    (stepped : WatchStep main state label next) (number : Nat) (outstanding : Outstanding next (some number)) :
    number < next.waits.length ∨ number = next.waits.length ∧ Woken (next.object.threads main) := by
  rcases outstanding_before main state next label stepped _ outstanding with before | ⟨thread, woken, rfl, same⟩
  · have known := inv.numbers number before
    cases stepped with
    | tick | init => exact known
    | wait _ _ _ here | lock here | block here | expire _ here | spurious _ here =>
        rw [here] at known
        exact .inl (by simpa [Woken] using known)
    | relock result here =>
        rw [here] at known
        simpa [Woken] using known
    | unlock result here =>
        refine .inl ?_
        rw [List.length_append]
        rcases known with earlier | ⟨rfl, _⟩
        · exact Nat.lt_add_right 1 earlier
        · exact Nat.lt_succ_self _
    | release thread other | unheard thread other | releaseAgain thread other =>
        simpa [move_elsewhere _ thread main _ other.symm] using known
    | heard thread sleeper other member =>
        obtain rfl := inv.alone sleeper member
        exact known.imp id fun last => ⟨last.1, .inl (heard_wakes state.object sleeper thread other)⟩
  · cases stepped with
    | unheard => cases same
    | heard thread sleeper other member =>
        obtain rfl := inv.alone sleeper member
        obtain rfl := Option.some.inj same
        exact .inr ⟨rfl, .inl (heard_wakes state.object sleeper thread other)⟩

theorem alone_kept (main : Nat) (state next : WatchState) (label : Label) (inv : WatchInv main state)
    (stepped : WatchStep main state label next) (sleeper : Nat) (member : sleeper ∈ next.object.sleepers) :
    sleeper = main := by
  cases stepped with
  | init => cases member
  | block =>
      rw [List.mem_append, List.mem_singleton] at member
      exact member.elim (inv.alone sleeper) id
  | expire | spurious | heard => exact inv.alone sleeper (List.mem_of_mem_erase member)
  | _ => exact inv.alone sleeper member

theorem blocked_kept (main : Nat) (state next : WatchState) (label : Label) (inv : WatchInv main state)
    (stepped : WatchStep main state label next) (heard : BlocksHeard state label) (deadline : Int)
    (asleep : next.object.threads main = .asleep deadline) :
    main ∈ next.object.sleepers ∧ next.deadline = deadline ∧ ¬ Outstanding next none := by
  have quiet : ¬ Outstanding state none → (∀ thread, label ≠ .signal thread none) → ¬ Outstanding next none := by
    intro none_before other outstanding
    rcases outstanding_before main state next label stepped none outstanding with before | ⟨thread, woken, rfl, same⟩
    · exact none_before before
    · obtain rfl := Option.map_eq_none_iff.mp same.symm
      exact other thread rfl
  cases stepped with
  | tick => exact inv.blocked deadline asleep
  | init here => cases here.symm.trans asleep
  | wait | lock | expire | spurious | relock | unlock => simp at asleep
  | block =>
      simp only [move_here, ThreadPc.asleep.injEq] at asleep
      exact ⟨List.mem_append_right _ (List.mem_singleton_self main), asleep, quiet heard nofun⟩
  | release thread other | releaseAgain thread other =>
      obtain ⟨member, same, unheard⟩ := inv.blocked deadline
        ((move_elsewhere state.object thread main _ other.symm).symm.trans asleep)
      exact ⟨member, same, quiet unheard nofun⟩
  | unheard thread other nobody =>
      have before := inv.blocked deadline ((move_elsewhere state.object thread main _ other.symm).symm.trans asleep)
      rw [nobody] at before
      cases before.1
  | heard thread sleeper other member =>
      obtain rfl := inv.alone sleeper member
      cases (heard_wakes state.object sleeper thread other).symm.trans asleep

theorem asleep_settled (main : Nat) (state : WatchState) (inv : WatchInv main state) (deadline : Int)
    (asleep : state.object.threads main = .asleep deadline) (call : Call) (member : call ∈ state.calls) :
    ∃ earlier, call.woke = some earlier ∧ earlier < state.waits.length := by
  obtain ⟨_, _, unheard⟩ := inv.blocked deadline asleep
  cases woke : call.woke with
  | none => exact absurd (.inl ⟨call, member, woke⟩) unheard
  | some number =>
      have known := inv.numbers number (.inl ⟨call, member, woke⟩)
      rw [asleep] at known
      exact ⟨number, rfl, by simpa [Woken] using known⟩

theorem late_kept (main : Nat) (state next : WatchState) (label : Label) (inv : WatchInv main state)
    (stepped : WatchStep main state label next) (result : Nat)
    (out : next.object.threads main = .relocking result ∨ next.object.threads main = .unlocking result)
    (nonzero : result ≠ 0) :
    next.deadline ≤ next.object.clock ∧
      ∀ call ∈ next.calls, call.time < next.deadline →
        ∃ earlier, call.woke = some earlier ∧ earlier < next.waits.length := by
  cases stepped with
  | tick nanoseconds =>
      obtain ⟨late, settled⟩ := inv.late result out nonzero
      exact ⟨Int.le_trans late (Int.ofNat_le.mpr (Nat.le_add_right _ nanoseconds)), settled⟩
  | init here =>
      rcases out with relocking | unlocking
      · cases here.symm.trans relocking
      · cases here.symm.trans unlocking
  | wait | lock | block | unlock => simp at out
  | expire deadline here late =>
      have same := (inv.blocked deadline here).2.1
      exact ⟨Int.le_trans (Int.le_of_eq same) late, fun call member _ => asleep_settled main state inv deadline here call member⟩
  | spurious =>
      have zero : 0 = result := by simpa using out
      exact absurd zero.symm nonzero
  | relock outcome here =>
      obtain rfl : outcome = result := by simpa using out
      exact inv.late outcome (.inl here) nonzero
  | release thread other | unheard thread other =>
      simp only [move_elsewhere _ thread main _ other.symm] at out
      exact inv.late result out nonzero
  | releaseAgain thread other =>
      simp only [move_elsewhere _ thread main _ other.symm] at out
      obtain ⟨late, settled⟩ := inv.late result out nonzero
      refine ⟨late, fun call member early => ?_⟩
      rw [List.mem_append, List.mem_singleton] at member
      rcases member with earlier | rfl
      · exact settled call earlier early
      · exact absurd early (Int.not_lt.mpr late)
  | heard thread sleeper other member =>
      obtain rfl := inv.alone sleeper member
      rw [heard_wakes state.object sleeper thread other] at out
      have zero : 0 = result := by simpa using out
      exact absurd zero.symm nonzero

theorem received_kept (main : Nat) (state next : WatchState) (label : Label) (inv : WatchInv main state)
    (stepped : WatchStep main state label next) : AllReceived next := by
  cases stepped with
  | unlock result here =>
      intro number wait found
      by_cases last : number < state.waits.length
      · rw [List.getElem?_append_left last] at found
        exact inv.received number wait found
      · have at_end : number = state.waits.length := by
          have bound := (List.getElem?_eq_some_iff.mp found).1
          rw [List.length_append, List.length_singleton] at bound
          omega
        subst at_end
        rw [List.getElem?_concat_length, Option.some.injEq] at found
        subst found
        intro call member counts early
        by_contra nonzero
        obtain ⟨earlier, woke, before⟩ := (inv.late result (.inr here) nonzero).2 call member early
        exact absurd (counts earlier woke) (Nat.not_le.mpr before)
  | _ => exact inv.received

theorem watch_step_keeps (main : Nat) (state : WatchState) (label : Label) (next : WatchState)
    (inv : WatchInv main state) (stepped : watchStep main state label = some next) (heard : BlocksHeard state label) :
    WatchInv main next := by
  have cased := watch_step_cases main state next label stepped
  exact {
    numbers := numbers_kept main state next label inv cased
    alone := alone_kept main state next label inv cased
    blocked := blocked_kept main state next label inv cased heard
    late := late_kept main state next label inv cased
    received := received_kept main state next label inv cased }

theorem initial_watch_inv (main clock : Nat) : WatchInv main (WatchState.initial clock) where
  numbers _ outstanding := by
    rcases outstanding with ⟨_, member, _⟩ | ⟨_, releasing, _⟩
    · cases member
    · cases releasing
  alone := nofun
  blocked := nofun
  late _ out := by rcases out with relocking | unlocking <;> contradiction
  received := nofun

-- No request is lost as long as the thread never blocks while a call that found
-- it awake is outstanding: nothing else remembers that call.
theorem signals_received (main clock : Nat) (labels : List Label)
    (heard : EveryStep BlocksHeard (WatchState.initial clock) (trace (watchStep main) (WatchState.initial clock) labels)) :
    Always AllReceived (WatchState.initial clock) (trace (watchStep main) (WatchState.initial clock) labels) := by
  have kept := every_step_invariant _ (WatchInv main) BlocksHeard (watch_step_keeps main) _ _
    (trace_is_run (watchStep main) (WatchState.initial clock) labels) (initial_watch_inv main clock) heard
  exact always_imp (WatchInv main) AllReceived (fun _ inv => inv.received) _ _ kept

def requestWhileAsleep : List Label :=
  [.init 0, .wait 0 5 10, .lock 0, .block 0, .release 1, .signal 1 (some 0), .releaseAgain 1, .relock 0, .unlock 0]

theorem request_while_asleep_received :
    Always AllReceived (WatchState.initial 0) (trace (watchStep 0) (WatchState.initial 0) requestWhileAsleep) := by
  refine signals_received 0 0 requestWhileAsleep ?_
  simp [requestWhileAsleep, trace, EveryStep, BlocksHeard, Outstanding, watchStep, under, permitted, condwaitStep,
    stepWait, stepSignal, watch, WatchState.initial, CondwaitState.initial, CondwaitState.move, CondwaitState.unblock]
  intro thread releasing
  cases releasing_before _ 0 thread .entering (by simp) releasing

def timesOut (main nanoseconds : Nat) : List Label :=
  [.block main, .tick nanoseconds, .expire main, .relock main, .unlock main]

-- The condition is not too strong: where the thread blocks although a call has
-- returned that found it awake, that call is lost if nothing else happens.
theorem unheard_call_lost (main nanoseconds : Nat) (state : WatchState) (call : Call)
    (entering : state.object.threads main = .entering) (member : call ∈ state.calls) (unheard : call.woke = none)
    (early : call.time < state.object.timeout.nanoseconds)
    (passed : state.object.timeout.nanoseconds ≤ state.object.clock + nanoseconds) :
    ∃ last, (timesOut main nanoseconds).foldlM (watchStep main) state = some last ∧ ¬ AllReceived last := by
  have ran : ∃ last, (timesOut main nanoseconds).foldlM (watchStep main) state = some last ∧
      last.waits = state.waits ++ [⟨state.object.timeout.nanoseconds, ETIMEDOUT, state.calls⟩] := by
    simp [timesOut, List.foldlM, watchStep, under, permitted, condwaitStep, stepWait, watch, entering, passed,
      CondwaitState.move, CondwaitState.unblock]
  obtain ⟨last, ran, waits⟩ := ran
  refine ⟨last, ran, fun received => ?_⟩
  have returned := received state.waits.length ⟨state.object.timeout.nanoseconds, ETIMEDOUT, state.calls⟩
    (by rw [waits, List.getElem?_concat_length])
  have zero := returned call member (by simp [unheard]) early
  cases zero

def requestBeforeWait : List Label :=
  [.init 0, .release 1, .signal 1 none, .releaseAgain 1, .wait 0 5 10, .lock 0]

theorem request_before_wait_lost :
    ¬ Always AllReceived (WatchState.initial 0)
      (trace (watchStep 0) (WatchState.initial 0) (requestBeforeWait ++ timesOut 0 5010000000)) := by
  intro always
  have ran : ∃ state, requestBeforeWait.foldlM (watchStep 0) (WatchState.initial 0) = some state ∧
      state.object.threads 0 = .entering ∧ state.calls = [⟨none, 0⟩] ∧
      state.object.timeout = advance (clockGettime 0) 5 10 ∧ state.object.clock = 0 := by
    simp [requestBeforeWait, List.foldlM, watchStep, under, permitted, condwaitStep, stepWait, stepSignal, watch,
      WatchState.initial, CondwaitState.initial, CondwaitState.move]
  obtain ⟨state, ran, entering, calls, timeout, clock⟩ := ran
  have deadline : state.object.timeout.nanoseconds = 5010000000 := by
    rw [timeout]
    decide +kernel
  obtain ⟨last, expired, lost⟩ := unheard_call_lost 0 5010000000 state ⟨none, 0⟩ entering (by rw [calls]; simp) rfl
    (by rw [deadline]; decide) (by rw [deadline, clock]; decide)
  have finished : (requestBeforeWait ++ timesOut 0 5010000000).foldlM (watchStep 0) (WatchState.initial 0) =
      some last := by
    rw [List.foldlM_append, ran]
    exact expired
  have received := always_finish AllReceived _ _ always
  rw [finish_trace _ _ last _ finished] at received
  exact lost received

end Slogger.Condwait
