import Slogger.Condwait.Deadline
import Slogger.Lib.Simulation

set_option autoImplicit false

namespace Slogger.Threadload

open Slogger.Lib Slogger.Condwait

-- The loop of thload_run with its own Condwait, which no other thread knows;
-- said is that the message of the round has been made.
structure PacedLoad where
  object : CondwaitState
  ncount : Nat
  said : Bool

def PacedLoad.initial (clock : Nat) : PacedLoad := ⟨CondwaitState.initialised clock, 0, false⟩

inductive PaceLabel where
  | message
  | wait
  | inside (label : Label)

def waiting : Label → Bool
  | .tick _ => true
  | .lock thread | .block thread | .expire thread | .spurious thread | .relock thread | .unlock thread => thread == 0
  | _ => false

-- slog_message(..), condwait.wait(&condwait, 0, 1)
def paceStep (load : PacedLoad) : PaceLabel → Option PacedLoad
  | .message =>
      if load.object.threads 0 = .idle ∧ load.said = false then
        some { load with ncount := load.ncount + 1, said := true }
      else none
  | .wait =>
      if load.said = true then
        (condwaitStep load.object (.wait 0 0 1)).map fun object => { load with object := object, said := false }
      else none
  | .inside label =>
      if waiting label = true then (condwaitStep load.object label).map fun object => { load with object := object }
      else none

def PcPaced (timeout : Int) (clock : Nat) : ThreadPc → Prop
  | .asleep deadline => deadline = timeout
  | .relocking result | .unlocking result => result = ETIMEDOUT → timeout ≤ clock
  | _ => True

-- A millisecond has been asked for in each round whose wait has begun.
def asked (load : PacedLoad) : Int := load.ncount * 1000000 - if load.said then 1000000 else 0

structure Paced (start : Nat) (load : PacedLoad) : Prop where
  range : load.object.timeout.InRange
  timeout : load.object.timeout.nanoseconds = start + asked load
  pc : PcPaced load.object.timeout.nanoseconds load.object.clock (load.object.threads 0)

def Fits (start : Nat) (load : PacedLoad) : Prop := (start : Int) + load.ncount * 1000000 < 2 ^ 63 * 1000000000

structure PaceInv (start : Nat) (load : PacedLoad) : Prop where
  between : load.said = true → load.object.threads 0 = .idle
  paced : Fits start load → Paced start load

theorem one_millisecond : duration 0 1 = 1000000 := by decide

theorem small_word (number : Nat) (small : number < 2 ^ 63) : (BitVec.ofNat 64 number).toInt = number := by
  have value : (BitVec.ofNat 64 number).toNat = number := by
    rw [BitVec.toNat_ofNat, Nat.mod_eq_of_lt (by omega)]
  rcases word_cases (BitVec.ofNat 64 number) with ⟨_, same⟩ | ⟨large, _⟩ <;> omega

theorem clock_nanoseconds (clock : Nat) (fits : clock < 2 ^ 63 * 1000000000) :
    (clockGettime clock).nanoseconds = clock := by
  have part := Nat.mod_lt clock (by omega : 1000000000 > 0)
  have whole := Nat.div_add_mod clock 1000000000
  rw [clockGettime, Timespec.nanoseconds, small_word (clock / 1000000000) (by omega),
    small_word (clock % 1000000000) (by omega)]
  omega

theorem initial_pace_inv (start : Nat) : PaceInv start (PacedLoad.initial start) where
  between := nofun
  paced := by
    intro fits
    simp only [Fits, PacedLoad.initial] at fits
    refine ⟨clock_in_range start, ?_, trivial⟩
    simp [PacedLoad.initial, CondwaitState.initialised, asked, clock_nanoseconds start (by omega)]

theorem message_paced (start : Nat) (load : PacedLoad) (inv : PaceInv start load)
    (here : load.object.threads 0 = .idle ∧ load.said = false) :
    PaceInv start { load with ncount := load.ncount + 1, said := true } where
  between := fun _ => here.1
  paced := by
    intro fits
    simp only [Fits] at fits
    have before := inv.paced (by rw [Fits]; omega)
    refine ⟨before.range, ?_, before.pc⟩
    have timeout := before.timeout
    simp only [asked, here.2, Bool.false_eq_true, if_false, if_true] at timeout ⊢
    omega

theorem wait_paced (start : Nat) (load : PacedLoad) (object : CondwaitState) (inv : PaceInv start load)
    (said : load.said = true) (stepped : condwaitStep load.object (.wait 0 0 1) = some object) :
    PaceInv start { load with object := object, said := false } where
  between := nofun
  paced := by
    intro fits
    have before := inv.paced fits
    have timeout := before.timeout
    have value := advance_value load.object.timeout 0 1 before.range (by decide) (by decide)
    simp only [asked, said, if_true] at timeout
    simp only [Fits] at fits
    have moved := condwait_step_cases load.object object _ stepped
    cases moved with
    | wait _ _ _ later here sets =>
        rw [← sets, one_millisecond] at value
        refine ⟨value.1, ?_, ?_⟩
        · simp only [asked, Bool.false_eq_true, if_false]
          omega
        · simp [CondwaitState.move, PcPaced]

theorem moved_paced (start : Nat) (load : PacedLoad) (object : CondwaitState) (pc : ThreadPc) (inv : PaceInv start load)
    (busy : load.object.threads 0 ≠ .idle) (timeout : object.timeout = load.object.timeout)
    (there : object.threads 0 = pc)
    (keep : Paced start load → PcPaced load.object.timeout.nanoseconds object.clock pc) :
    PaceInv start { load with object := object } where
  between := fun said => absurd (inv.between said) busy
  paced := by
    intro fits
    have before := inv.paced fits
    refine ⟨?_, ?_, ?_⟩
    · dsimp only
      rw [timeout]
      exact before.range
    · dsimp only
      rw [timeout]
      exact before.timeout
    · dsimp only
      rw [timeout, there]
      exact keep before

theorem pc_later (timeout : Int) (clock passed : Nat) (pc : ThreadPc) (paced : PcPaced timeout clock pc) :
    PcPaced timeout (clock + passed) pc := by
  cases pc with
  | relocking result | unlocking result =>
      intro expired
      have now := paced expired
      omega
  | _ => exact paced

-- The other steps leave the timeout alone, and a wait ends by itself no sooner
-- than at its deadline.
theorem inside_paced (start : Nat) (load : PacedLoad) (object : CondwaitState) (label : Label) (inv : PaceInv start load)
    (inside : waiting label = true) (stepped : condwaitStep load.object label = some object) :
    PaceInv start { load with object := object } := by
  have moved := condwait_step_cases load.object object label stepped
  cases moved with
  | tick nanoseconds =>
      refine ⟨inv.between, fun fits => ?_⟩
      have before := inv.paced fits
      exact ⟨before.range, before.timeout, pc_later _ _ nanoseconds _ before.pc⟩
  | lock thread here =>
      obtain rfl : thread = 0 := eq_of_beq inside
      exact moved_paced start load _ .entering inv (by simp [here]) rfl (move_here load.object 0 .entering) fun _ => trivial
  | block thread here =>
      obtain rfl : thread = 0 := eq_of_beq inside
      exact moved_paced start load _ (.asleep _) inv (by simp [here]) rfl (move_here load.object 0 (.asleep _)) fun _ => rfl
  | expire thread deadline here late =>
      obtain rfl : thread = 0 := eq_of_beq inside
      refine moved_paced start load _ (.relocking ETIMEDOUT) inv (by simp [here]) rfl (unblock_here load.object 0 ETIMEDOUT) ?_
      intro before _
      have pc := before.pc
      rw [here] at pc
      exact pc ▸ late
  | spurious thread deadline here =>
      obtain rfl : thread = 0 := eq_of_beq inside
      refine moved_paced start load _ (.relocking 0) inv (by simp [here]) rfl (unblock_here load.object 0 0) ?_
      intro _ expired
      cases expired
  | relock thread result here =>
      obtain rfl : thread = 0 := eq_of_beq inside
      refine moved_paced start load _ (.unlocking result) inv (by simp [here]) rfl
        (move_here load.object 0 (.unlocking result)) ?_
      intro before
      have pc := before.pc
      rwa [here] at pc
  | unlock thread result here =>
      obtain rfl : thread = 0 := eq_of_beq inside
      exact moved_paced start load _ .idle inv (by simp [here]) rfl (move_here load.object 0 .idle) fun _ => trivial
  | init | wait | release | heard | unheard | releaseAgain | stopLock | destroy | stopUnlock => cases inside

theorem pace_step_keeps (start : Nat) (load : PacedLoad) (label : PaceLabel) (next : PacedLoad) (inv : PaceInv start load)
    (stepped : paceStep load label = some next) : PaceInv start next := by
  cases label with
  | message =>
      obtain ⟨here, rfl⟩ := Option.ite_none_right_eq_some.mp stepped |>.imp_right Option.some.inj
      exact message_paced start load inv here
  | wait =>
      obtain ⟨said, moved⟩ := Option.ite_none_right_eq_some.mp stepped
      obtain ⟨object, ran, rfl⟩ := Option.map_eq_some_iff.mp moved
      exact wait_paced start load object inv said ran
  | inside label =>
      obtain ⟨inside, moved⟩ := Option.ite_none_right_eq_some.mp stepped
      obtain ⟨object, ran, rfl⟩ := Option.map_eq_some_iff.mp moved
      exact inside_paced start load object label inv inside ran

-- The loader keeps its pace: the wait of the n-th round is to end n milliseconds
-- after condwait_int, however long the rounds before it took, so a wait that
-- times out has had no more messages before it than milliseconds have passed.
theorem load_paced (start : Nat) (labels : List PaceLabel) (load : PacedLoad)
    (ran : labels.foldlM paceStep (PacedLoad.initial start) = some load)
    (fits : start + load.ncount * 1000000 < 2 ^ 63 * 1000000000) :
    (∀ deadline, load.object.threads 0 = .asleep deadline → deadline = start + load.ncount * 1000000) ∧
      (load.object.threads 0 = .relocking ETIMEDOUT ∨ load.object.threads 0 = .unlocking ETIMEDOUT →
        load.ncount ≤ (load.object.clock - start) / 1000000) := by
  have inv := reaches_invariant paceStep (PaceInv start) (pace_step_keeps start) (PacedLoad.initial start) load
    ⟨labels, ran⟩ (initial_pace_inv start)
  have paced := inv.paced (by rw [Fits]; omega)
  have waited : load.object.threads 0 ≠ .idle → load.object.timeout.nanoseconds = start + load.ncount * 1000000 := by
    intro busy
    have silent : load.said = false := by
      by_contra said
      exact busy (inv.between (by simpa using said))
    have timeout := paced.timeout
    simp only [asked, silent, Bool.false_eq_true, if_false, Int.sub_zero] at timeout
    exact timeout
  have pc := paced.pc
  constructor
  · intro deadline here
    rw [here] at pc
    exact pc.trans (waited (by simp [here]))
  · intro expired
    have late : load.object.timeout.nanoseconds ≤ load.object.clock := by
      rcases expired with here | here
      · rw [here] at pc
        exact pc rfl
      · rw [here] at pc
        exact pc rfl
    rw [waited (by rcases expired with here | here <;> simp [here])] at late
    omega

-- Two rounds; the first wait ends for no reason, the second one by its deadline.
def twoRounds : List PaceLabel :=
  [.message, .wait, .inside (.lock 0), .inside (.block 0), .inside (.spurious 0), .inside (.relock 0), .inside (.unlock 0),
    .message, .wait, .inside (.lock 0), .inside (.block 0), .inside (.tick 2000000), .inside (.expire 0)]

theorem two_rounds_paced : ∃ load, twoRounds.foldlM paceStep (PacedLoad.initial 0) = some load ∧ load.ncount = 2 ∧
    load.ncount ≤ (load.object.clock - 0) / 1000000 := by
  have runs : (twoRounds.foldlM paceStep (PacedLoad.initial 0)).map (fun load => (load.ncount, load.object.threads 0)) =
      some (2, .relocking ETIMEDOUT) := by
    decide +kernel
  obtain ⟨load, ran, same⟩ := Option.map_eq_some_iff.mp runs
  obtain ⟨count, expired⟩ := Prod.mk.inj same
  exact ⟨load, ran, count, (load_paced 0 twoRounds load ran (by omega)).2 (Or.inl expired)⟩

end Slogger.Threadload
