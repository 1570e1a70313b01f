import Slogger.Lib.Progress
import Slogger.Threadload.BenchmarkLog

set_option autoImplicit false

namespace Slogger.Threadload

open Slogger.Common Slogger.Lib Slogger.Logger
open Slogger.Condwait (CondwaitState ThreadPc)

def ofLoader (index : Nat) : BenchmarkLabel → Bool
  | .say thread _ _ _ _ => thread == index + 1
  | .load loader _ => loader == index
  | _ => false

def waited : BenchmarkPc → Bool
  | .stopping _ | .joining _ | .finished => true
  | _ => false

section Stop

variable (strftime : Nat → List UInt8) (config : Config) (capacity threads : Nat)

structure Cleared (index : Nat) (benchmark : Benchmark) : Prop where
  waited : waited benchmark.main = true
  flag : benchmark.keeprunning index = false

theorem main_speaks_waited (benchmark : Benchmark) (note : Note) (next : BenchmarkPc)
    (spoke : mainSpeaks threads benchmark note = some next) (past : waited benchmark.main = true) :
    next = .finished := by
  cases main_speaks_cases threads benchmark note next spoke with
  | started here | configured here =>
      rw [here] at past
      cases past
  | finished => rfl

theorem main_speaks_moves (benchmark : Benchmark) (note : Note) (next : BenchmarkPc)
    (spoke : mainSpeaks threads benchmark note = some next) (index : Nat) :
    next ≠ .stopping index ∧ next ≠ .joining index := by
  cases main_speaks_cases threads benchmark note next spoke with
  | started | configured | finished => exact ⟨nofun, nofun⟩

-- Once main waits for its loaders, it leaves them alone but for their flags.
theorem main_step_waited (benchmark next : Benchmark) (label : BenchmarkLabel) (past : waited benchmark.main = true)
    (stepped : mainStep threads benchmark label = some next) :
    waited next.main = true ∧ next.loader = benchmark.loader ∧ next.condwait = benchmark.condwait ∧
      ∀ index, benchmark.keeprunning index = false → next.keeprunning index = false := by
  cases main_step_cases threads benchmark next label stepped with
  | start _ here | wait here =>
      rw [here] at past
      cases past
  | clear clearing =>
      refine ⟨rfl, rfl, rfl, fun index flag => ?_⟩
      by_cases same : index = clearing
      · rw [same]
        exact Function.update_self _ _ _
      · exact (Function.update_of_ne same _ _).trans flag
  | join => exact ⟨rfl, rfl, rfl, fun _ flag => flag⟩

theorem say_step_cases (benchmark next : Benchmark) (thread : Nat) (note : Note)
    (store : Option (Cells UInt8 storeSize)) (granted : Bool) (readings : Readings)
    (stepped : sayStep strftime config capacity threads benchmark thread note store granted readings = some next) :
    next.keeprunning = benchmark.keeprunning ∧ next.condwait = benchmark.condwait ∧ next.crashed = benchmark.crashed ∧
      ((thread = 0 ∧ mainSpeaks threads benchmark note = some next.main ∧ next.loader = benchmark.loader) ∨
        ∃ index pc, thread = index + 1 ∧ loaderSpeaks (benchmark.loader index) note = some pc ∧
          next.main = benchmark.main ∧ next.loader = Function.update benchmark.loader index pc) := by
  obtain ⟨after, spoke, pushed⟩ := Option.bind_eq_some_iff.mp stepped
  obtain ⟨journal, _, rfl⟩ := Option.map_eq_some_iff.mp pushed
  cases thread with
  | zero =>
      obtain ⟨pc, main, rfl⟩ := Option.map_eq_some_iff.mp spoke
      exact ⟨rfl, rfl, rfl, Or.inl ⟨rfl, main, rfl⟩⟩
  | succ index =>
      obtain ⟨pc, loader, rfl⟩ := Option.map_eq_some_iff.mp spoke
      exact ⟨rfl, rfl, rfl, Or.inr ⟨index, pc, rfl, loader, rfl, rfl⟩⟩

theorem cleared_kept (index : Nat) (benchmark : Benchmark) (label : BenchmarkLabel) (next : Benchmark)
    (cleared : Cleared index benchmark)
    (stepped : benchmarkStep strftime config capacity threads benchmark label = some next) : Cleared index next := by
  obtain ⟨past, flag⟩ := cleared
  obtain ⟨_, moved⟩ := Option.ite_none_right_eq_some.mp stepped
  cases label with
  | say thread note store granted readings =>
      obtain ⟨flags, _, _, ⟨_, spoke, _⟩ | ⟨_, _, _, _, main, _⟩⟩ :=
        say_step_cases strftime config capacity threads benchmark next thread note store granted readings moved
      · refine ⟨?_, by rw [flags]; exact flag⟩
        rw [main_speaks_waited threads benchmark note next.main spoke past]
        rfl
      · exact ⟨by rw [main]; exact past, by rw [flags]; exact flag⟩
  | start | wait | clear | join =>
      obtain ⟨waits, _, _, flags⟩ := main_step_waited threads benchmark next _ past moved
      exact ⟨waits, flags index flag⟩
  | load =>
      obtain ⟨_, _, rfl⟩ := Option.map_eq_some_iff.mp moved
      exact ⟨past, flag⟩
  | tick =>
      cases moved
      exact ⟨past, flag⟩
  | log =>
      obtain ⟨journal, _, rfl⟩ := Option.map_eq_some_iff.mp (Option.ite_none_left_eq_some.mp moved).2
      exact ⟨past, flag⟩

def loaderWork (index : Nat) (benchmark : Benchmark) : Nat :=
  work (benchmark.loader index) ((benchmark.condwait index).threads 0)

theorem speaking_pays (pc next : LoadPc) (note : Note) (thread : ThreadPc) (spoke : loaderSpeaks pc note = some next) :
    work next thread < work pc thread := by
  have bound := wait_left_bound thread
  rcases loader_speaks_cases pc next note spoke with ⟨_, _, rfl, _, rfl⟩ | ⟨_, rfl, _, rfl⟩
  · simp only [work]
    omega
  · simp [work]

theorem loader_pays (index : Nat) (benchmark : Benchmark) (label : BenchmarkLabel) (next : Benchmark)
    (cleared : Cleared index benchmark) (own : ofLoader index label = true)
    (stepped : benchmarkStep strftime config capacity threads benchmark label = some next) :
    loaderWork index next < loaderWork index benchmark := by
  obtain ⟨_, moved⟩ := Option.ite_none_right_eq_some.mp stepped
  cases label with
  | say thread note store granted readings =>
      obtain rfl : thread = index + 1 := eq_of_beq own
      obtain ⟨_, objects, _, ⟨zero, _⟩ | ⟨other, pc, same, spoke, _, loader⟩⟩ :=
        say_step_cases strftime config capacity threads benchmark next (index + 1) note store granted readings moved
      · cases zero
      · cases same
        rw [loaderWork, loader, Function.update_self, objects]
        exact speaking_pays _ pc note _ spoke
  | load moving inner =>
      obtain rfl : moving = index := eq_of_beq own
      obtain ⟨⟨pc, object⟩, ran, rfl⟩ := Option.map_eq_some_iff.mp moved
      rw [cleared.flag] at ran
      have paid := load_pays _ pc _ object inner (load_step_cases _ _ pc _ object inner ran)
      simpa [loaderWork] using paid
  | start | wait | clear | join | tick | log => cases own

theorem others_keep (index : Nat) (benchmark : Benchmark) (label : BenchmarkLabel) (next : Benchmark)
    (cleared : Cleared index benchmark) (other : ofLoader index label = false)
    (stepped : benchmarkStep strftime config capacity threads benchmark label = some next) :
    loaderWork index next = loaderWork index benchmark := by
  obtain ⟨_, moved⟩ := Option.ite_none_right_eq_some.mp stepped
  cases label with
  | say thread note store granted readings =>
      obtain ⟨_, objects, _, ⟨_, _, loader⟩ | ⟨speaker, _, same, _, _, loader⟩⟩ :=
        say_step_cases strftime config capacity threads benchmark next thread note store granted readings moved
      · rw [loaderWork, loader, objects]
        rfl
      · have apart : index ≠ speaker := by
          rintro rfl
          simp [ofLoader, same] at other
        rw [loaderWork, loader, objects, Function.update_of_ne apart]
        rfl
  | load moving inner =>
      obtain ⟨_, _, rfl⟩ := Option.map_eq_some_iff.mp moved
      have apart : index ≠ moving := Ne.symm (by simpa [ofLoader] using other)
      simp [loaderWork, apart]
  | start | wait | clear | join =>
      obtain ⟨_, loader, objects, _⟩ := main_step_waited threads benchmark next _ cleared.waited moved
      rw [loaderWork, loader, objects]
      rfl
  | tick =>
      cases moved
      rfl
  | log =>
      obtain ⟨journal, _, rfl⟩ := Option.map_eq_some_iff.mp (Option.ite_none_left_eq_some.mp moved).2
      rfl

theorem loader_steps_bounded (index : Nat) (benchmark : Benchmark) (later : List BenchmarkLabel)
    (cleared : Cleared index benchmark) :
    countSteps (ofLoader index) (trace (benchmarkStep strftime config capacity threads) benchmark later) ≤ 15 := by
  have paid := paid_steps
    (fun before label next => benchmarkStep strftime config capacity threads before label = some next)
    (Cleared index) (loaderWork index) (fun label => !ofLoader index label) 0
    (cleared_kept strftime config capacity threads index)
    (fun before label next held stepped other => by
      exact Nat.le_of_eq
        (others_keep strftime config capacity threads index before label next held (by simpa using other) stepped))
    (fun before label next held stepped own =>
      loader_pays strftime config capacity threads index before label next held (by simpa using own) stepped)
    benchmark _ (trace_is_run _ benchmark later) cleared
  have bound : loaderWork index benchmark ≤ 15 := work_bound _ _
  simp only [Bool.not_not, Nat.zero_mul] at paid
  exact Nat.le_trans (Nat.le_trans (Nat.le_add_right _ _) paid) bound

end Stop

theorem step_idle (capacity : Nat) (state next : LoggerState) (label : Label) (thread : Nat)
    (idle : state.producers thread = .idle) (other : ∀ data, label ≠ .enqueue thread data)
    (stepped : step capacity state label = some next) : next.producers thread = .idle := by
  cases label with
  | enqueue speaker data =>
      have apart : thread ≠ speaker := fun same => other data (by rw [same])
      simp only [step, stepProducer] at stepped
      repeat' split at stepped
      all_goals cases stepped
      all_goals simp [setProducer, apart, idle]
  | report speaker =>
      simp only [step, stepProducer] at stepped
      split at stepped
      · cases stepped
        dsimp only [setProducer]
        split
        · rfl
        · exact idle
      · cases stepped
  | _ =>
      simp only [step, stepMain, stepLogger] at stepped
      repeat' split at stepped
      all_goals cases stepped
      all_goals exact idle

section Progress

variable (strftime : Nat → List UInt8) (config : Config) (capacity threads : Nat)

theorem journal_idle (journal next : Journal) (label : JournalLabel) (thread : Nat)
    (idle : journal.log.producers thread = .idle)
    (other : ∀ store granted message, label ≠ .slogMessage thread store granted message)
    (stepped : journalStep strftime config capacity journal label = some next) : next.log.producers thread = .idle := by
  cases label with
  | slogMessage speaker store granted message =>
      have apart : speaker ≠ thread := fun same => other store granted message (by rw [same])
      rw [journalStep] at stepped
      split at stepped
      · cases stepped
        exact idle
      · cases stepped
        exact idle
      · split at stepped
        · obtain ⟨log, ran, rfl⟩ := Option.map_eq_some_iff.mp stepped
          refine step_idle capacity _ log _ thread idle (fun data same => ?_) ((under_some _ _ _ _ _).mp ran).2
          cases same
          exact apart rfl
        · cases stepped
          exact idle
  | other label =>
      obtain ⟨quiet, moved⟩ := Option.ite_none_left_eq_some.mp stepped
      obtain ⟨log, ran, rfl⟩ := Option.map_eq_some_iff.mp moved
      refine step_idle capacity _ log _ thread idle (fun data same => ?_) ((under_some _ _ _ _ _).mp ran).2
      rw [same] at quiet
      exact quiet rfl

-- main waits for a loader it has started, outside enqueue, with the loader's flag
-- cleared, and each loader is alone with its Condwait.
structure StopInv (benchmark : Benchmark) : Prop where
  outside : ∀ index, benchmark.main = .stopping index ∨ benchmark.main = .joining index →
    benchmark.journal.log.producers 0 = .idle
  flag : ∀ index, benchmark.main = .joining index → benchmark.keeprunning index = false
  present : ∀ index, index < launched threads benchmark.main → benchmark.loader index ≠ .absent
  alone : ∀ index, Alone (benchmark.loader index) (benchmark.condwait index)
  crashed : ∀ index, benchmark.loader index = .crashed → benchmark.crashed = true

theorem main_speaks_launched (benchmark : Benchmark) (note : Note) (next : BenchmarkPc)
    (spoke : mainSpeaks threads benchmark note = some next) :
    launched threads next = launched threads benchmark.main := by
  cases main_speaks_cases threads benchmark note next spoke with
  | started here | configured here | finished here =>
      rw [here]
      rfl

theorem present_updated (loader : Nat → LoadPc) (index : Nat) (pc : LoadPc) (bound : Nat) (here : pc ≠ .absent)
    (present : ∀ other, other < bound → loader other ≠ .absent) (other : Nat) (below : other < bound) :
    Function.update loader index pc other ≠ .absent := by
  by_cases same : other = index
  · rw [same, Function.update_self]
    exact here
  · rw [Function.update_of_ne same]
    exact present other below

theorem speaking_alone (pc next : LoadPc) (note : Note) (object : CondwaitState) (alone : Alone pc object)
    (spoke : loaderSpeaks pc note = some next) : Alone next object ∧ next ≠ .absent ∧ next ≠ .crashed := by
  rcases loader_speaks_cases pc next note spoke with ⟨_, _, rfl, _, rfl⟩ | ⟨_, rfl, _, rfl⟩
  all_goals
    obtain ⟨idle, free⟩ := idle_outside _ object alone rfl
    exact ⟨alone_idle _ object idle free, nofun, nofun⟩

theorem alone_updated (loader : Nat → LoadPc) (objects : Nat → CondwaitState) (index : Nat) (pc : LoadPc)
    (object : CondwaitState) (alone : ∀ other, Alone (loader other) (objects other)) (here : Alone pc object) (other : Nat) :
    Alone (Function.update loader index pc other) (Function.update objects index object other) := by
  by_cases same : other = index
  · rw [same, Function.update_self, Function.update_self]
    exact here
  · rw [Function.update_of_ne same, Function.update_of_ne same]
    exact alone other

theorem say_keeps_stop (benchmark next : Benchmark) (thread : Nat) (note : Note) (store : Option (Cells UInt8 storeSize))
    (granted : Bool) (readings : Readings) (inv : StopInv threads benchmark)
    (stepped : sayStep strftime config capacity threads benchmark thread note store granted readings = some next) :
    StopInv threads next := by
  have spoken := say_step_cases strftime config capacity threads benchmark next thread note store granted readings stepped
  obtain ⟨after, _, pushed⟩ := Option.bind_eq_some_iff.mp stepped
  obtain ⟨journal, ran, rfl⟩ := Option.map_eq_some_iff.mp pushed
  obtain ⟨flags, objects, fault, ⟨_, spoke, loader⟩ | ⟨index, pc, rfl, spoke, main, loader⟩⟩ := spoken
  · have moves := main_speaks_moves threads benchmark note after.main spoke
    refine ⟨fun index there => ?_, fun index there => absurd there (moves index).2, ?_, ?_, ?_⟩
    · rcases there with there | there
      · exact absurd there (moves index).1
      · exact absurd there (moves index).2
    · rw [main_speaks_launched threads benchmark note after.main spoke, loader]
      exact inv.present
    · rw [loader, objects]
      exact inv.alone
    · rw [loader, fault]
      exact inv.crashed
  · obtain ⟨alone, present, whole⟩ := speaking_alone _ pc note _ (inv.alone index) spoke
    refine ⟨fun other there => ?_, ?_, ?_, ?_, fun other there => ?_⟩
    · refine journal_idle strftime config capacity benchmark.journal journal _ 0 (inv.outside other ?_) ?_ ran
      · rwa [← main]
      · exact fun _ _ _ same => Nat.succ_ne_zero index (JournalLabel.slogMessage.inj same).1
    · rw [main, flags]
      exact inv.flag
    · rw [main, loader]
      exact present_updated benchmark.loader index pc _ present inv.present
    · have kept := alone_updated benchmark.loader benchmark.condwait index pc _ inv.alone alone
      rw [loader, objects]
      simpa only [Function.update_eq_self] using kept
    · rw [fault]
      apply inv.crashed other
      rw [loader] at there
      by_cases same : other = index
      · rw [same, Function.update_self] at there
        exact absurd there whole
      · rwa [Function.update_of_ne same] at there

theorem main_keeps_stop (benchmark next : Benchmark) (label : BenchmarkLabel)
    (script : Script threads benchmark.main benchmark.loader (spoken benchmark)) (inv : StopInv threads benchmark)
    (idle : benchmark.journal.log.producers 0 = .idle) (stepped : mainStep threads benchmark label = some next) :
    StopInv threads next := by
  have present := inv.present
  cases main_step_cases threads benchmark next label stepped with
  | start index here more =>
      rw [here] at present
      have absent := script.absent index (by rw [here]; exact Nat.le_refl index)
      have fresh := inv.alone index
      rw [absent] at fresh
      obtain ⟨unused, free⟩ := idle_outside _ _ fresh rfl
      have alone := alone_updated benchmark.loader benchmark.condwait index .opening _ inv.alone
        (alone_idle .opening _ unused free)
      rw [Function.update_eq_self] at alone
      refine ⟨nofun, nofun, fun other below => ?_, alone, fun other there => ?_⟩
      · by_cases same : other = index
        · simp [same]
        · dsimp only
          rw [Function.update_of_ne same]
          exact present other (Nat.lt_of_le_of_ne (Nat.le_of_lt_succ below) same)
      · by_cases same : other = index
        · simp [same] at there
        · dsimp only at there
          rw [Function.update_of_ne same] at there
          exact inv.crashed other there
  | wait here | join index here =>
      rw [here] at present
      exact ⟨fun _ _ => idle, nofun, present, inv.alone, inv.crashed⟩
  | clear index here =>
      rw [here] at present
      refine ⟨fun _ _ => idle, fun other there => ?_, present, inv.alone, inv.crashed⟩
      cases there
      exact Function.update_self _ _ _

theorem stop_step_keeps (benchmark : Benchmark) (label : BenchmarkLabel) (next : Benchmark)
    (script : Script threads benchmark.main benchmark.loader (spoken benchmark)) (inv : StopInv threads benchmark)
    (stepped : benchmarkStep strftime config capacity threads benchmark label = some next) : StopInv threads next := by
  obtain ⟨⟨whole, actors⟩, moved⟩ := Option.ite_none_right_eq_some.mp stepped
  cases label with
  | say thread note store granted readings =>
      exact say_keeps_stop strftime config capacity threads benchmark next thread note store granted readings inv moved
  | start | wait | clear | join =>
      exact main_keeps_stop threads benchmark next _ script inv (by simpa [outside, actor] using actors) moved
  | load index inner =>
      obtain ⟨⟨pc, object⟩, ran, rfl⟩ := Option.map_eq_some_iff.mp moved
      have went := load_step_cases _ _ pc _ object inner ran
      refine ⟨inv.outside, inv.flag, ?_, ?_, fun other there => ?_⟩
      · exact present_updated benchmark.loader index pc _ (load_step_live _ _ pc _ object inner went).2 inv.present
      · exact alone_updated benchmark.loader benchmark.condwait index pc object inv.alone
          (load_alone _ _ pc _ object inner (inv.alone index) went)
      · dsimp only at there ⊢
        by_cases same : other = index
        · rw [same, Function.update_self] at there
          exact beq_iff_eq.mpr there
        · rw [Function.update_of_ne same] at there
          rw [inv.crashed other there] at whole
          cases whole
  | tick nanoseconds =>
      cases moved
      exact ⟨inv.outside, inv.flag, inv.present, fun index => alone_later _ _ nanoseconds (inv.alone index), inv.crashed⟩
  | log label =>
      obtain ⟨journal, ran, rfl⟩ := Option.map_eq_some_iff.mp (Option.ite_none_left_eq_some.mp moved).2
      exact ⟨fun index there => journal_idle strftime config capacity benchmark.journal journal (.other label) 0
        (inv.outside index there) nofun ran, inv.flag, inv.present, inv.alone, inv.crashed⟩

theorem initial_stop_inv : StopInv threads Benchmark.initial where
  outside := fun _ there => by cases there <;> contradiction
  flag := nofun
  present := nofun
  alone := fun _ => alone_idle .absent _ rfl rfl
  crashed := nofun

theorem journal_goes_on (journal : Journal) (thread : Nat) (store : Option (Cells UInt8 storeSize)) (granted : Bool)
    (message : Message) (started : slogStarted journal.log.main = true) (idle : journal.log.producers thread = .idle) :
    ∃ next, journalStep strftime config capacity journal (.slogMessage thread store granted message) = some next := by
  rw [journalStep]
  split
  · exact ⟨_, rfl⟩
  · exact ⟨_, rfl⟩
  · rename_i data _
    have ran : ∃ log, step capacity journal.log (.enqueue thread data) = some log := by
      simp only [step, stepProducer, idle]
      split
      · exact ⟨_, rfl⟩
      · split <;> exact ⟨_, rfl⟩
    obtain ⟨log, ran⟩ := ran
    have allowed : singleCycle journal.log (.enqueue thread data) = true := by simp [singleCycle, orderly, started]
    rw [(under_some singleCycle (step capacity) journal.log log (.enqueue thread data)).mpr ⟨allowed, ran⟩]
    cases granted <;> exact ⟨_, rfl⟩

theorem report_goes_on (benchmark : Benchmark) (thread : Nat) (whole : benchmark.crashed = false)
    (inside : outside benchmark thread = false) :
    ∃ next, benchmarkStep strftime config capacity threads benchmark (.log (.report thread)) = some next := by
  cases here : benchmark.journal.log.producers thread with
  | idle => simp [outside, here] at inside
  | refused data full =>
      have ran : ∃ log, step capacity benchmark.journal.log (.report thread) = some log := by
        simp only [step, stepProducer, here]
        exact ⟨_, rfl⟩
      obtain ⟨log, ran⟩ := ran
      have allowed := (under_some singleCycle (step capacity) benchmark.journal.log log (.report thread)).mpr ⟨rfl, ran⟩
      simp [benchmarkStep, whole, actor, logStep, journalStep, isEnqueue, allowed]

-- The statement a loader has before it, whatever malloc and fopen answer; behind
-- its last one there is main's join.
def nextStatement (index : Nat) (pc : LoadPc) (thread : ThreadPc) (label : BenchmarkLabel) : Prop :=
  match pc with
  | .reading ncount =>
      ∃ shown store granted readings, label = .say (index + 1) (.load ncount shown) store granted readings
  | .ending => ∃ shown store granted readings, label = .say (index + 1) (.endOfThread shown) store granted readings
  | .ended => label = .join
  | _ => ∃ inner, nextLoad pc thread inner ∧ label = .load index inner

theorem statement_ahead (index : Nat) (pc : LoadPc) (thread : ThreadPc) (present : pc ≠ .absent) (whole : pc ≠ .crashed) :
    ∃ label, nextStatement index pc thread label := by
  cases pc with
  | absent => exact absurd rfl present
  | crashed => exact absurd rfl whole
  | reading ncount => exact ⟨_, [], none, false, hello.readings, rfl⟩
  | ending => exact ⟨_, [], none, false, hello.readings, rfl⟩
  | ended => exact ⟨_, rfl⟩
  | opening | openingStats => exact ⟨_, _, ⟨true, rfl⟩, rfl⟩
  | _ => exact ⟨_, _, rfl, rfl⟩

def passed (benchmark : Benchmark) (nanoseconds : Nat) : Benchmark :=
  { benchmark with condwait := fun index => later (benchmark.condwait index) nanoseconds }

theorem loader_goes_on (benchmark : Benchmark) (index : Nat) (inner : LoadLabel) (whole : benchmark.crashed = false)
    (free : outside benchmark (index + 1) = true) (alone : Alone (benchmark.loader index) (benchmark.condwait index))
    (ahead : nextLoad (benchmark.loader index) ((benchmark.condwait index).threads 0) inner) :
    ∃ nanoseconds next,
      benchmarkStep strftime config capacity threads (passed benchmark nanoseconds) (.load index inner) = some next := by
  obtain ⟨nanoseconds, moved, ran⟩ := load_goes_on (benchmark.keeprunning index) _ _ inner alone ahead
  have ready : benchmarkStep strftime config capacity threads (passed benchmark nanoseconds) (.load index inner) =
      loaderStep (passed benchmark nanoseconds) index inner := if_pos ⟨whole, free⟩
  have goes : loadStep ((passed benchmark nanoseconds).keeprunning index) ((passed benchmark nanoseconds).loader index)
      ((passed benchmark nanoseconds).condwait index) inner = some moved := ran
  refine ⟨nanoseconds, ?_⟩
  rw [ready, loaderStep, goes]
  exact ⟨_, rfl⟩

theorem say_goes_on (benchmark : Benchmark) (index : Nat) (note : Note) (store : Option (Cells UInt8 storeSize))
    (granted : Bool) (readings : Readings) (pc : LoadPc) (whole : benchmark.crashed = false)
    (started : slogStarted benchmark.journal.log.main = true) (free : outside benchmark (index + 1) = true)
    (spoke : loaderSpeaks (benchmark.loader index) note = some pc) :
    ∃ next, benchmarkStep strftime config capacity threads (passed benchmark 0)
      (.say (index + 1) note store granted readings) = some next := by
  obtain ⟨journal, ran⟩ := journal_goes_on strftime config capacity benchmark.journal (index + 1) store granted
    (note.message readings) started (eq_of_beq free)
  have ready : benchmarkStep strftime config capacity threads (passed benchmark 0)
      (.say (index + 1) note store granted readings) =
      sayStep strftime config capacity threads (passed benchmark 0) (index + 1) note store granted readings :=
    if_pos ⟨whole, free⟩
  rw [ready]
  simp [sayStep, speaksNext, passed, spoke, ran]

-- Time may have to pass first: a wait sleeps until its deadline.
theorem statement_goes_on (benchmark : Benchmark) (index : Nat) (label : BenchmarkLabel) (whole : benchmark.crashed = false)
    (started : slogStarted benchmark.journal.log.main = true) (stop : StopInv threads benchmark)
    (joining : benchmark.main = .joining index) (free : outside benchmark (index + 1) = true)
    (ahead : nextStatement index (benchmark.loader index) ((benchmark.condwait index).threads 0) label) :
    ∃ nanoseconds next,
      benchmarkStep strftime config capacity threads (passed benchmark nanoseconds) label = some next := by
  have alone := stop.alone index
  cases here : benchmark.loader index with
  | reading ncount =>
      rw [here] at ahead
      obtain ⟨shown, store, granted, readings, rfl⟩ := ahead
      exact ⟨0, say_goes_on strftime config capacity threads benchmark index _ store granted readings (.waiting (ncount + 1))
        whole started free (by simp [here, loaderSpeaks])⟩
  | ending =>
      rw [here] at ahead
      obtain ⟨shown, store, granted, readings, rfl⟩ := ahead
      exact ⟨0, say_goes_on strftime config capacity threads benchmark index _ store granted readings .closingLog
        whole started free (by simp [here, loaderSpeaks])⟩
  | ended =>
      rw [here] at ahead
      cases ahead
      have mainFree : outside benchmark 0 = true := beq_iff_eq.mpr (stop.outside index (Or.inr joining))
      have ready : benchmarkStep strftime config capacity threads (passed benchmark 0) .join =
          mainStep threads (passed benchmark 0) .join := if_pos ⟨whole, mainFree⟩
      refine ⟨0, ?_⟩
      rw [ready]
      simp only [mainStep, passed, joining, here]
      exact ⟨_, if_pos ⟨trivial, free⟩⟩
  | _ =>
      rw [here] at ahead
      obtain ⟨inner, next, rfl⟩ := ahead
      rw [← here] at next
      exact loader_goes_on strftime config capacity threads benchmark index inner whole free alone next

-- thload_stop returns: once it has cleared the flag its loader has at most fifteen
-- statements left, and while main waits in its join neither the loader nor, behind
-- its end, the join is blocked by anything but the deadline of a wait, unless a
-- setvbuf has brought the program down.
theorem thload_stop_returns (labels : List BenchmarkLabel) (benchmark : Benchmark) (index : Nat) (positive : 0 < capacity)
    (tellable : ∀ label ∈ labels, Tellable strftime label)
    (ran : labels.foldlM (benchmarkStep strftime config capacity threads) Benchmark.initial = some benchmark)
    (joining : benchmark.main = .joining index) :
    (∀ later, countSteps (ofLoader index)
      (trace (benchmarkStep strftime config capacity threads) benchmark later) ≤ 15) ∧
    (benchmark.crashed = false → outside benchmark (index + 1) = false →
      ∃ next, benchmarkStep strftime config capacity threads benchmark (.log (.report (index + 1))) = some next) ∧
    (benchmark.crashed = false → outside benchmark (index + 1) = true →
      (∃ label, nextStatement index (benchmark.loader index) ((benchmark.condwait index).threads 0) label) ∧
      ∀ label, nextStatement index (benchmark.loader index) ((benchmark.condwait index).threads 0) label →
        ∃ nanoseconds next,
          [.tick nanoseconds, label].foldlM (benchmarkStep strftime config capacity threads) benchmark = some next) := by
  have inv := steps_invariant (benchmarkStep strftime config capacity threads) (Tellable strftime)
    (fun state => BenchmarkInv strftime config capacity threads state ∧ StopInv threads state)
    (fun state label next held allowed stepped =>
      ⟨benchmark_step_keeps strftime config capacity threads state label next held.1 allowed stepped,
        stop_step_keeps strftime config capacity threads state label next held.1.script held.2 stepped⟩)
    Benchmark.initial benchmark labels tellable ran
    ⟨initial_benchmark_inv strftime config capacity threads positive, initial_stop_inv threads⟩
  obtain ⟨held, stop⟩ := inv
  have past : waited benchmark.main = true := by
    rw [joining]
    rfl
  have started : slogStarted benchmark.journal.log.main = true := by
    apply held.begun
    rw [joining]
    exact nofun
  refine ⟨fun later => ?_, report_goes_on strftime config capacity threads benchmark (index + 1), fun whole free => ⟨?_, ?_⟩⟩
  · exact loader_steps_bounded strftime config capacity threads index benchmark later ⟨past, stop.flag index joining⟩
  · apply statement_ahead
    · apply stop.present index
      rw [joining]
      exact held.script.joining index joining
    · intro there
      rw [stop.crashed index there] at whole
      cases whole
  · intro label ahead
    obtain ⟨nanoseconds, next, moved⟩ :=
      statement_goes_on strftime config capacity threads benchmark index label whole started stop joining free ahead
    refine ⟨nanoseconds, next, ?_⟩
    have ticked : benchmarkStep strftime config capacity threads benchmark (.tick nanoseconds) =
        some (passed benchmark nanoseconds) := if_pos ⟨whole, rfl⟩
    rw [List.foldlM_cons, ticked, Option.bind_eq_bind, Option.bind_some, List.foldlM_cons, moved]
    rfl

end Progress

-- main has cleared the flag of a loader that is asleep in its first wait.
def flagCleared : List BenchmarkLabel :=
  oneLoad.take 12 ++ (oneRound.take 3).map (.load 0) ++ [.wait, .clear]

theorem cleared_loader_joined : ∃ benchmark,
    flagCleared.foldlM (benchmarkStep (fun _ => []) ⟨LOG_INFO, .adbshell⟩ 4 1) Benchmark.initial = some benchmark ∧
      ∃ nanoseconds next, [.tick nanoseconds, .load 0 (.condwait (.expire 0))].foldlM
        (benchmarkStep (fun _ => []) ⟨LOG_INFO, .adbshell⟩ 4 1) benchmark = some next := by
  have runs : (flagCleared.foldlM (benchmarkStep (fun _ => []) ⟨LOG_INFO, .adbshell⟩ 4 1) Benchmark.initial).map
      (fun benchmark => (benchmark.main, benchmark.loader 0, (benchmark.condwait 0).threads 0, benchmark.crashed,
        outside benchmark 1)) = some (.joining 0, .waiting 1, .asleep 1000000, false, true) := by
    decide +kernel
  obtain ⟨benchmark, ran, same⟩ := Option.map_eq_some_iff.mp runs
  simp only [Prod.mk.injEq] at same
  obtain ⟨joining, waiting, asleep, whole, free⟩ := same
  have returns := thload_stop_returns (fun _ => []) ⟨LOG_INFO, .adbshell⟩ 4 1 flagCleared benchmark 0 (by decide) ?_ ran
    joining
  · refine ⟨benchmark, ran, (returns.2.2 whole free).2 _ ?_⟩
    rw [waiting, asleep]
    exact ⟨_, rfl, rfl⟩
  · simp [flagCleared, oneLoad, oneRound, slogStart, Tellable, messageIn, Recordable]
    decide +kernel

end Slogger.Threadload
