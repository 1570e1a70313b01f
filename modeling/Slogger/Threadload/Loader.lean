import Slogger.Condwait.Ownership

set_option autoImplicit false

namespace Slogger.Threadload

open Slogger.Condwait (CondwaitState CondwaitStep ThreadPc condwaitStep condwait_step_cases move_here unblock_here)

-- load_thread of a clubbed loader with the thload_run inside it.
inductive LoadPc where
  | absent
  | opening
  | initialising
  | openingStats
  | unbuffering (opened : Bool)
  | testing (ncount : Nat)
  | reading (ncount : Nat)
  | waiting (ncount : Nat)
  | rewinding (ncount : Nat)
  | closingStats
  | stopping
  | ending
  | closingLog
  | ended
  | crashed
deriving DecidableEq

-- Its statements but for the two messages. The object of condwait is a local
-- variable: no other thread knows it.
inductive LoadLabel where
  | openLog (opened : Bool)
  | initCondwait
  | openStats (opened : Bool)
  | setvbuf
  | test
  | condwait (label : Condwait.Label)
  | rewind
  | closeStats
  | closeLog
deriving DecidableEq

-- condwait.wait(&condwait, 0, 1)
def inWait : Condwait.Label → Bool
  | .wait thread timeInSec timeInMs => thread == 0 && timeInSec == 0 && timeInMs == 1
  | .lock thread | .block thread | .expire thread | .spurious thread | .relock thread | .unlock thread => thread == 0
  | _ => false

-- condwait.stop(&condwait)
def inStop : Condwait.Label → Bool
  | .stopLock thread | .destroy thread | .stopUnlock thread => thread == 0
  | _ => false

-- A loader whose log does not open ends at once; setvbuf has no stream where the
-- statistics did not open.
def loadStep (keeprunning : Bool) (pc : LoadPc) (object : CondwaitState) : LoadLabel → Option (LoadPc × CondwaitState)
  | .openLog opened => if pc = .opening then some (if opened then .initialising else .ended, object) else none
  | .initCondwait =>
      if pc = .initialising then (condwaitStep object (.init 0)).map fun after => (.openingStats, after) else none
  | .openStats opened => if pc = .openingStats then some (.unbuffering opened, object) else none
  | .setvbuf =>
      match pc with
      | .unbuffering opened => some (if opened then .testing 0 else .crashed, object)
      | _ => none
  | .test =>
      match pc with
      | .testing ncount => some (if keeprunning then .reading ncount else .closingStats, object)
      | _ => none
  | .condwait label =>
      match pc with
      | .waiting ncount =>
          if inWait label then
            (condwaitStep object label).map fun after => (if label = .unlock 0 then .rewinding ncount else pc, after)
          else none
      | .stopping =>
          if inStop label then
            (condwaitStep object label).map fun after => (if label = .stopUnlock 0 then .ending else pc, after)
          else none
      | _ => none
  | .rewind =>
      match pc with
      | .rewinding ncount => some (.testing ncount, object)
      | _ => none
  | .closeStats => if pc = .closingStats then some (.stopping, object) else none
  | .closeLog => if pc = .closingLog then some (.ended, object) else none

inductive LoadStep (keeprunning : Bool) (object : CondwaitState) : LoadPc → LoadLabel → LoadPc → CondwaitState → Prop where
  | openLog (opened : Bool) :
      LoadStep keeprunning object .opening (.openLog opened) (if opened then .initialising else .ended) object
  | initCondwait (after : CondwaitState) (ran : CondwaitStep object (.init 0) after) :
      LoadStep keeprunning object .initialising .initCondwait .openingStats after
  | openStats (opened : Bool) : LoadStep keeprunning object .openingStats (.openStats opened) (.unbuffering opened) object
  | setvbuf (opened : Bool) :
      LoadStep keeprunning object (.unbuffering opened) .setvbuf (if opened then .testing 0 else .crashed) object
  | test (ncount : Nat) :
      LoadStep keeprunning object (.testing ncount) .test (if keeprunning then .reading ncount else .closingStats) object
  | wait (ncount : Nat) (label : Condwait.Label) (after : CondwaitState) (inside : inWait label = true)
      (ran : CondwaitStep object label after) :
      LoadStep keeprunning object (.waiting ncount) (.condwait label)
        (if label = .unlock 0 then .rewinding ncount else .waiting ncount) after
  | stop (label : Condwait.Label) (after : CondwaitState) (inside : inStop label = true)
      (ran : CondwaitStep object label after) :
      LoadStep keeprunning object .stopping (.condwait label) (if label = .stopUnlock 0 then .ending else .stopping) after
  | rewind (ncount : Nat) : LoadStep keeprunning object (.rewinding ncount) .rewind (.testing ncount) object
  | closeStats : LoadStep keeprunning object .closingStats .closeStats .stopping object
  | closeLog : LoadStep keeprunning object .closingLog .closeLog .ended object

theorem load_step_cases (keeprunning : Bool) (pc next : LoadPc) (object after : CondwaitState) (label : LoadLabel)
    (stepped : loadStep keeprunning pc object label = some (next, after)) :
    LoadStep keeprunning object pc label next after := by
  cases label with
  | openLog opened =>
      simp only [loadStep, Option.ite_none_right_eq_some, Option.some.injEq, Prod.mk.injEq] at stepped
      obtain ⟨rfl, rfl, rfl⟩ := stepped
      exact .openLog opened
  | initCondwait =>
      simp only [loadStep, Option.ite_none_right_eq_some, Option.map_eq_some_iff, Prod.mk.injEq] at stepped
      obtain ⟨rfl, inited, ran, rfl, rfl⟩ := stepped
      exact .initCondwait inited (condwait_step_cases object inited _ ran)
  | openStats opened =>
      simp only [loadStep, Option.ite_none_right_eq_some, Option.some.injEq, Prod.mk.injEq] at stepped
      obtain ⟨rfl, rfl, rfl⟩ := stepped
      exact .openStats opened
  | setvbuf =>
      dsimp only [loadStep] at stepped
      split at stepped
      · cases stepped
        exact .setvbuf _
      · cases stepped
  | test =>
      dsimp only [loadStep] at stepped
      split at stepped
      · cases stepped
        exact .test _
      · cases stepped
  | condwait label =>
      dsimp only [loadStep] at stepped
      split at stepped
      · simp only [Option.ite_none_right_eq_some, Option.map_eq_some_iff, Prod.mk.injEq] at stepped
        obtain ⟨inside, moved, ran, rfl, rfl⟩ := stepped
        exact .wait _ label moved inside (condwait_step_cases object moved label ran)
      · simp only [Option.ite_none_right_eq_some, Option.map_eq_some_iff, Prod.mk.injEq] at stepped
        obtain ⟨inside, moved, ran, rfl, rfl⟩ := stepped
        exact .stop label moved inside (condwait_step_cases object moved label ran)
      · cases stepped
  | rewind =>
      dsimp only [loadStep] at stepped
      split at stepped
      · cases stepped
        exact .rewind _
      · cases stepped
  | closeStats =>
      simp only [loadStep, Option.ite_none_right_eq_some, Option.some.injEq, Prod.mk.injEq] at stepped
      obtain ⟨rfl, rfl, rfl⟩ := stepped
      exact .closeStats
  | closeLog =>
      simp only [loadStep, Option.ite_none_right_eq_some, Option.some.injEq, Prod.mk.injEq] at stepped
      obtain ⟨rfl, rfl, rfl⟩ := stepped
      exact .closeLog

def LoadPc.live : LoadPc → Bool
  | .absent | .ended | .crashed => false
  | _ => true

theorem load_step_live (keeprunning : Bool) (pc next : LoadPc) (object after : CondwaitState) (label : LoadLabel)
    (stepped : LoadStep keeprunning object pc label next after) : pc.live = true ∧ next ≠ .absent := by
  cases stepped with
  | openLog opened => cases opened <;> exact ⟨rfl, nofun⟩
  | setvbuf opened => cases opened <;> exact ⟨rfl, nofun⟩
  | test => cases keeprunning <;> exact ⟨rfl, nofun⟩
  | wait | stop => exact ⟨rfl, by split <;> exact nofun⟩
  | _ => exact ⟨rfl, nofun⟩

-- What a loader has before it once its flag is cleared.
def waitLeft : ThreadPc → Nat
  | .idle => 6
  | .locking => 5
  | .entering => 4
  | .asleep _ => 3
  | .relocking _ => 2
  | .unlocking _ => 1
  | _ => 0

def stopLeft : ThreadPc → Nat
  | .idle => 3
  | .destroying => 2
  | .leaving => 1
  | _ => 0

def work (pc : LoadPc) (thread : ThreadPc) : Nat :=
  match pc with
  | .absent | .ended | .crashed => 0
  | .closingLog => 1
  | .ending => 2
  | .stopping => 2 + stopLeft thread
  | .closingStats => 6
  | .testing _ => 7
  | .rewinding _ | .unbuffering _ => 8
  | .openingStats => 9
  | .initialising => 10
  | .opening => 11
  | .waiting _ => 8 + waitLeft thread
  | .reading _ => 15

theorem wait_left_bound (thread : ThreadPc) : waitLeft thread ≤ 6 := by
  cases thread <;> simp [waitLeft]

theorem stop_left_bound (thread : ThreadPc) : stopLeft thread ≤ 3 := by
  cases thread <;> simp [stopLeft]

theorem work_bound (pc : LoadPc) (thread : ThreadPc) : work pc thread ≤ 15 := by
  have wait := wait_left_bound thread
  have stop := stop_left_bound thread
  cases pc <;> simp only [work] <;> omega

theorem wait_pays (ncount : Nat) (object after : CondwaitState) (label : Condwait.Label) (inside : inWait label = true)
    (ran : CondwaitStep object label after) :
    work (if label = .unlock 0 then .rewinding ncount else .waiting ncount) (after.threads 0) <
      work (.waiting ncount) (object.threads 0) := by
  cases ran with
  | wait thread timeInSec timeInMs timeout here =>
      simp only [inWait, Bool.and_eq_true, beq_iff_eq] at inside
      obtain ⟨⟨rfl, _⟩, _⟩ := inside
      simp [work, waitLeft, here]
  | unlock thread result here =>
      obtain rfl : thread = 0 := eq_of_beq inside
      simp [work, waitLeft, here]
  | lock thread here | block thread here | expire thread deadline here | spurious thread deadline here
  | relock thread result here =>
      obtain rfl : thread = 0 := eq_of_beq inside
      simp [work, waitLeft, here]
  | _ => cases inside

theorem stop_pays (object after : CondwaitState) (label : Condwait.Label) (inside : inStop label = true)
    (ran : CondwaitStep object label after) :
    work (if label = .stopUnlock 0 then .ending else .stopping) (after.threads 0) < work .stopping (object.threads 0) := by
  cases ran with
  | stopLock thread here | destroy thread here | stopUnlock thread here =>
      obtain rfl : thread = 0 := eq_of_beq inside
      simp [work, stopLeft, here]
  | _ => cases inside

theorem load_pays (pc next : LoadPc) (object after : CondwaitState) (label : LoadLabel)
    (stepped : LoadStep false object pc label next after) :
    work next (after.threads 0) < work pc (object.threads 0) := by
  cases stepped with
  | openLog opened => cases opened <;> simp [work]
  | setvbuf opened => cases opened <;> simp [work]
  | wait ncount inner _ inside ran => exact wait_pays ncount object after inner inside ran
  | stop inner _ inside ran => exact stop_pays object after inner inside ran
  | closeStats =>
      have bound := stop_left_bound (object.threads 0)
      simp only [work]
      omega
  | _ => simp [work]

def InCall (pc : LoadPc) (thread : ThreadPc) : Prop :=
  match pc, thread with
  | .waiting _, .locking | .waiting _, .entering | .waiting _, .asleep _ | .waiting _, .relocking _
  | .waiting _, .unlocking _ => True
  | .stopping, .destroying | .stopping, .leaving => True
  | _, .idle => True
  | _, _ => False

structure Alone (pc : LoadPc) (object : CondwaitState) : Prop where
  place : InCall pc (object.threads 0)
  mutex : (object.threads 0).inside = false → object.mutex = none

theorem alone_idle (pc : LoadPc) (object : CondwaitState) (idle : object.threads 0 = .idle) (free : object.mutex = none) :
    Alone pc object := by
  refine ⟨?_, fun _ => free⟩
  rw [idle]
  cases pc <;> trivial

def LoadPc.calling : LoadPc → Bool
  | .waiting _ | .stopping => true
  | _ => false

theorem uncalled_idle (pc : LoadPc) (thread : ThreadPc) (outside : pc.calling = false) (place : InCall pc thread) :
    thread = .idle := by
  cases thread with
  | idle => rfl
  | _ =>
      cases pc with
      | waiting | stopping => cases outside
      | _ => cases place

theorem idle_outside (pc : LoadPc) (object : CondwaitState) (alone : Alone pc object) (outside : pc.calling = false) :
    object.threads 0 = .idle ∧ object.mutex = none := by
  have idle := uncalled_idle pc _ outside alone.place
  exact ⟨idle, alone.mutex (by rw [idle]; rfl)⟩

theorem wait_alone (ncount : Nat) (object after : CondwaitState) (label : Condwait.Label)
    (alone : Alone (.waiting ncount) object) (inside : inWait label = true) (ran : CondwaitStep object label after) :
    Alone (if label = .unlock 0 then .rewinding ncount else .waiting ncount) after := by
  have free := alone.mutex
  cases ran with
  | wait thread timeInSec timeInMs timeout here =>
      simp only [inWait, Bool.and_eq_true, beq_iff_eq] at inside
      obtain ⟨⟨rfl, _⟩, _⟩ := inside
      refine ⟨by simp [CondwaitState.move, InCall], fun _ => ?_⟩
      exact free (by rw [here]; rfl)
  | lock thread | block thread | relock thread =>
      obtain rfl : thread = 0 := eq_of_beq inside
      refine ⟨by simp [CondwaitState.move, InCall], fun outside => ?_⟩
      simp_all [CondwaitState.move, ThreadPc.inside]
  | expire thread deadline here | spurious thread deadline here =>
      obtain rfl : thread = 0 := eq_of_beq inside
      refine ⟨by simp [InCall], fun _ => ?_⟩
      exact free (by rw [here]; rfl)
  | unlock thread =>
      obtain rfl : thread = 0 := eq_of_beq inside
      exact alone_idle _ _ (move_here object 0 .idle) rfl
  | _ => cases inside

theorem stop_alone (object after : CondwaitState) (label : Condwait.Label) (inside : inStop label = true)
    (ran : CondwaitStep object label after) :
    Alone (if label = .stopUnlock 0 then .ending else .stopping) after := by
  cases ran with
  | stopLock thread | destroy thread =>
      obtain rfl : thread = 0 := eq_of_beq inside
      refine ⟨by simp [CondwaitState.move, InCall], fun outside => ?_⟩
      simp [CondwaitState.move, ThreadPc.inside] at outside
  | stopUnlock thread =>
      obtain rfl : thread = 0 := eq_of_beq inside
      exact alone_idle _ _ (move_here object 0 .idle) rfl
  | _ => cases inside

theorem load_alone (keeprunning : Bool) (pc next : LoadPc) (object after : CondwaitState) (label : LoadLabel)
    (alone : Alone pc object) (stepped : LoadStep keeprunning object pc label next after) : Alone next after := by
  have still (outside : pc.calling = false) : Alone next object := by
    obtain ⟨idle, free⟩ := idle_outside pc object alone outside
    exact alone_idle next object idle free
  cases stepped with
  | initCondwait _ ran =>
      cases ran with
      | init _ idle => exact alone_idle _ _ idle rfl
  | wait ncount inner _ inside ran => exact wait_alone ncount object after inner alone inside ran
  | stop inner _ inside ran => exact stop_alone object after inner inside ran
  | _ => exact still rfl

def nextWait : ThreadPc → Condwait.Label
  | .idle => .wait 0 0 1
  | .locking => .lock 0
  | .entering => .block 0
  | .asleep _ => .expire 0
  | .relocking _ => .relock 0
  | _ => .unlock 0

def nextStop : ThreadPc → Condwait.Label
  | .idle => .stopLock 0
  | .destroying => .destroy 0
  | _ => .stopUnlock 0

def nextLoad (pc : LoadPc) (thread : ThreadPc) (label : LoadLabel) : Prop :=
  match pc with
  | .opening => ∃ opened, label = .openLog opened
  | .initialising => label = .initCondwait
  | .openingStats => ∃ opened, label = .openStats opened
  | .unbuffering _ => label = .setvbuf
  | .testing _ => label = .test
  | .waiting _ => label = .condwait (nextWait thread)
  | .rewinding _ => label = .rewind
  | .closingStats => label = .closeStats
  | .stopping => label = .condwait (nextStop thread)
  | .closingLog => label = .closeLog
  | _ => False

def later (object : CondwaitState) (nanoseconds : Nat) : CondwaitState :=
  { object with clock := object.clock + nanoseconds }

theorem alone_later (pc : LoadPc) (object : CondwaitState) (nanoseconds : Nat) (alone : Alone pc object) :
    Alone pc (later object nanoseconds) :=
  ⟨alone.place, alone.mutex⟩

-- Only a wait that is asleep needs time to pass.
theorem wait_goes_on (ncount : Nat) (object : CondwaitState) (alone : Alone (.waiting ncount) object) :
    ∃ nanoseconds after, condwaitStep (later object nanoseconds) (nextWait (object.threads 0)) = some after := by
  obtain ⟨place, free⟩ := alone
  cases here : object.threads 0 with
  | idle => exact ⟨0, _, if_pos here⟩
  | locking => exact ⟨0, _, if_pos ⟨here, free (by rw [here]; rfl)⟩⟩
  | entering => exact ⟨0, _, if_pos here⟩
  | asleep deadline =>
      have late : deadline ≤ (later object deadline.toNat).clock := by
        simp only [later]
        omega
      refine ⟨deadline.toNat, (later object deadline.toNat).unblock 0 Condwait.ETIMEDOUT, ?_⟩
      simp only [nextWait, condwaitStep, Condwait.stepWait]
      rw [show (later object deadline.toNat).threads 0 = .asleep deadline from here]
      exact if_pos late
  | relocking result =>
      refine ⟨0, { (later object 0).move 0 (.unlocking result) with mutex := some 0 }, ?_⟩
      simp only [nextWait, condwaitStep, Condwait.stepWait]
      rw [show (later object 0).threads 0 = .relocking result from here]
      exact if_pos (free (by rw [here]; rfl))
  | unlocking result =>
      refine ⟨0, { (later object 0).move 0 .idle with mutex := none }, ?_⟩
      simp only [nextWait, condwaitStep, Condwait.stepWait]
      rw [show (later object 0).threads 0 = .unlocking result from here]
  | signalling | releasing | destroying | leaving =>
      rw [here] at place
      cases place

theorem stop_goes_on (object : CondwaitState) (alone : Alone .stopping object) :
    ∃ after, condwaitStep object (nextStop (object.threads 0)) = some after := by
  obtain ⟨place, free⟩ := alone
  cases here : object.threads 0 with
  | idle => exact ⟨_, if_pos ⟨here, free (by rw [here]; rfl)⟩⟩
  | destroying => exact ⟨_, if_pos here⟩
  | leaving => exact ⟨_, if_pos here⟩
  | locking | entering | asleep | relocking | unlocking | signalling | releasing =>
      rw [here] at place
      cases place

theorem next_wait_inside (thread : ThreadPc) : inWait (nextWait thread) = true := by
  cases thread <;> rfl

theorem next_stop_inside (thread : ThreadPc) : inStop (nextStop thread) = true := by
  cases thread <;> rfl

theorem load_goes_on (keeprunning : Bool) (pc : LoadPc) (object : CondwaitState) (label : LoadLabel)
    (alone : Alone pc object) (ahead : nextLoad pc (object.threads 0) label) :
    ∃ nanoseconds moved, loadStep keeprunning pc (later object nanoseconds) label = some moved := by
  cases pc with
  | opening | openingStats =>
      obtain ⟨opened, rfl⟩ := ahead
      exact ⟨0, _, rfl⟩
  | initialising =>
      obtain rfl := ahead
      obtain ⟨idle, _⟩ := idle_outside _ object alone rfl
      exact ⟨0, _, by simp [loadStep, condwaitStep, later, idle]; rfl⟩
  | waiting ncount =>
      obtain rfl := ahead
      obtain ⟨nanoseconds, after, ran⟩ := wait_goes_on ncount object alone
      exact ⟨nanoseconds, _, (if_pos (next_wait_inside _)).trans (congrArg (Option.map _) ran)⟩
  | stopping =>
      obtain rfl := ahead
      obtain ⟨after, ran⟩ := stop_goes_on (later object 0) (alone_later _ object 0 alone)
      exact ⟨0, _, (if_pos (next_stop_inside _)).trans (congrArg (Option.map _) ran)⟩
  | unbuffering | testing | rewinding | closingStats | closingLog =>
      obtain rfl := ahead
      exact ⟨0, _, rfl⟩
  | absent | reading | ending | ended | crashed => cases ahead

end Slogger.Threadload
