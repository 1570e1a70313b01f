import Slogger.Threadload.Benchmark

set_option autoImplicit false

namespace Slogger.Threadload

open Slogger.Common Slogger.Lib Slogger.Logger
open Slogger.Condwait (CondwaitState)

theorem enqueue_main (capacity : Nat) (state next : LoggerState) (thread : Nat) (data : QueueData)
    (stepped : step capacity state (.enqueue thread data) = some next) : next.main = state.main := by
  simp only [step, stepProducer] at stepped
  repeat' split at stepped
  all_goals cases stepped
  all_goals rfl

-- Only slog_stop's own steps lead on from its flag.
theorem main_phase_kept (capacity : Nat) (state next : LoggerState) (label : Label) (other : label ≠ .again)
    (stepped : step capacity state label = some next) :
    (slogStarted state.main = true → slogStarted next.main = true) ∧
      (label ≠ .setShutdown → stopRequested state.main = false → stopRequested next.main = false) := by
  cases label with
  | again => exact absurd rfl other
  | createThread | setCapacity | allocate | setShutdown | signalDestroy | join | freeData =>
      simp only [step, stepMain, Option.ite_none_right_eq_some, Option.some.injEq] at stepped
      obtain ⟨here, rfl⟩ := stepped
      simp [here, slogStarted, stopRequested]
  | _ =>
      have same : next.main = state.main := by
        simp only [step, stepLogger, stepProducer] at stepped
        repeat' split at stepped
        all_goals cases stepped
        all_goals rfl
      rw [same]
      exact ⟨id, fun _ => id⟩

section Journal

variable (strftime : Nat → List UInt8) (config : Config) (capacity : Nat)

theorem say_tells (benchmark : Benchmark) (thread : Nat) (store : Option (Cells UInt8 storeSize)) (granted : Bool)
    (message : Message) (journal : Journal) (recordable : Recordable strftime message)
    (stepped : journalStep strftime config capacity benchmark.journal (.slogMessage thread store granted message) =
      some journal) :
    journal.log.main = benchmark.journal.log.main ∧
      journal.told = benchmark.journal.told ++
        if outcomeOf strftime config benchmark store granted message = .stored then [message] else [] := by
  rw [journalStep] at stepped
  unfold outcomeOf
  split at stepped
  · rename_i fault failed
    exact absurd failed (recordable_returns strftime config store message fault recordable)
  · rename_i silent
    cases stepped
    simp [silent]
  · rename_i data pushed
    rw [pushed]
    cases granted with
    | true =>
        obtain ⟨log, ran, rfl⟩ := Option.map_eq_some_iff.mp stepped
        refine ⟨enqueue_main capacity _ log thread data ((under_some _ _ _ _ _).mp ran).2, ?_⟩
        by_cases refused : refuses benchmark.journal.log.queue = true <;> simp [refused]
    | false =>
        cases stepped
        simp

theorem outcome_unpushed_iff (benchmark : Benchmark) (store : Option (Cells UInt8 storeSize)) (granted : Bool)
    (message : Message) (recordable : Recordable strftime message) :
    outcomeOf strftime config benchmark store granted message = .unpushed ↔
      ¬ (message.logLvl ≤ config.consoleLoglevel ∧ store.isSome = true ∧ granted = true) := by
  unfold outcomeOf
  by_cases shown : message.logLvl ≤ config.consoleLoglevel
  · cases store with
    | none => simp [slogMessagePushes, shown]
    | some store =>
        obtain ⟨rest, ran⟩ := record_stored strftime config store message shown recordable.1
        rw [ran]
        cases granted with
        | true => by_cases refused : refuses benchmark.journal.log.queue = true <;> simp [refused, shown]
        | false => simp
  · simp [slogMessagePushes, shown]

theorem outcome_full (benchmark : Benchmark) (store : Option (Cells UInt8 storeSize)) (granted : Bool)
    (message : Message) (inv : JournalInv strftime capacity benchmark.journal)
    (running : stopRequested benchmark.journal.log.main = false) :
    outcomeOf strftime config benchmark store granted message ≠ .refused false := by
  obtain ⟨⟨pending, held⟩, first⟩ := inv.cycle
  have stopping := held.stopping
  rw [first, running] at stopping
  have shutdown : benchmark.journal.log.queue.shutdown = false := by simpa using stopping
  unfold outcomeOf
  split
  · cases granted with
    | true => by_cases full : isFull benchmark.journal.log.queue = true <;> simp [refuses, shutdown, full]
    | false => simp
  · simp

end Journal

-- In the queue, or below the level, or without one of the two blocks, or told that
-- the queue was full.
structure Said.Accounted (config : Config) (said : Said) : Prop where
  unpushed : said.outcome = .unpushed ↔
    ¬ (LOG_INFO ≤ config.consoleLoglevel ∧ said.served = true ∧ said.granted = true)
  full : said.outcome ≠ .refused false

def spoken (benchmark : Benchmark) : List (Nat × Note) := benchmark.said.map fun said => (said.thread, said.note)

def storedMessages (said : List Said) : List Message :=
  (said.filter fun entry => entry.outcome == .stored).map Said.message

section Inv

variable (strftime : Nat → List UInt8) (config : Config) (capacity threads : Nat)

structure BenchmarkInv (benchmark : Benchmark) : Prop where
  script : Script threads benchmark.main benchmark.loader (spoken benchmark)
  journal : JournalInv strftime capacity benchmark.journal
  begun : benchmark.main ≠ .starting → slogStarted benchmark.journal.log.main = true
  running : benchmark.main ≠ .finished → stopRequested benchmark.journal.log.main = false
  told : benchmark.journal.told = storedMessages benchmark.said
  accounted : ∀ said ∈ benchmark.said, said.Accounted config

theorem note_level (note : Note) (readings : Readings) : (note.message readings).logLvl = LOG_INFO := by
  cases note <;> rfl

theorem speaks_between (benchmark next : Benchmark) (thread : Nat) (note : Note)
    (inv : BenchmarkInv strftime config capacity threads benchmark)
    (spoke : speaksNext threads benchmark thread note = some next) :
    slogStarted benchmark.journal.log.main = true ∧ stopRequested benchmark.journal.log.main = false ∧
      Script threads next.main next.loader (spoken benchmark ++ [(thread, note)]) := by
  cases thread with
  | zero =>
      obtain ⟨pc, main, rfl⟩ := Option.map_eq_some_iff.mp spoke
      have script := script_main_speaks threads benchmark note pc (spoken benchmark) inv.script main
      cases main_speaks_cases threads benchmark note pc main with
      | started _ ready => exact ⟨by rw [ready]; rfl, by rw [ready]; rfl, script⟩
      | configured here | finished here =>
          exact ⟨inv.begun (by rw [here]; exact nofun), inv.running (by rw [here]; exact nofun), script⟩
  | succ index =>
      obtain ⟨pc, loader, rfl⟩ := Option.map_eq_some_iff.mp spoke
      obtain ⟨started, unjoined⟩ := speaking_running threads _ _ _ inv.script index (speaking_live _ pc note loader)
      refine ⟨inv.begun ?_, inv.running ?_, script_loader_speaks threads _ _ _ inv.script index note pc loader⟩
      · intro here
        rw [here] at started
        exact Nat.not_lt_zero index started
      · intro here
        rw [here] at started unjoined
        exact Nat.not_lt_of_le unjoined started

theorem say_keeps (benchmark next : Benchmark) (thread : Nat) (note : Note) (store : Option (Cells UInt8 storeSize))
    (granted : Bool) (readings : Readings) (inv : BenchmarkInv strftime config capacity threads benchmark)
    (recordable : Recordable strftime (note.message readings))
    (stepped : sayStep strftime config capacity threads benchmark thread note store granted readings = some next) :
    BenchmarkInv strftime config capacity threads next := by
  obtain ⟨after, spoke, pushed⟩ := Option.bind_eq_some_iff.mp stepped
  obtain ⟨journal, ran, rfl⟩ := Option.map_eq_some_iff.mp pushed
  obtain ⟨begun, running, script⟩ := speaks_between strftime config capacity threads benchmark after thread note inv spoke
  obtain ⟨same, told⟩ := say_tells strftime config capacity benchmark thread store granted _ journal recordable ran
  constructor
  · simpa [spoken] using script
  · exact journal_step_keeps strftime config capacity benchmark.journal
      (.slogMessage thread store granted (note.message readings)) journal inv.journal recordable ran
  · intro _
    dsimp only
    rw [same]
    exact begun
  · intro _
    dsimp only
    rw [same]
    exact running
  · rw [told, inv.told]
    by_cases stored : outcomeOf strftime config benchmark store granted (note.message readings) = .stored
    · simp [storedMessages, stored, Said.message]
    · simp [storedMessages, stored]
  · intro said member
    rcases List.mem_append.mp member with earlier | here
    · exact inv.accounted said earlier
    · rw [List.mem_singleton.mp here]
      have unpushed := outcome_unpushed_iff strftime config benchmark store granted (note.message readings) recordable
      rw [note_level] at unpushed
      exact ⟨unpushed, outcome_full strftime config capacity benchmark store granted _ inv.journal running⟩

theorem moves_keep (benchmark next : Benchmark) (inv : BenchmarkInv strftime config capacity threads benchmark)
    (journal : next.journal = benchmark.journal) (said : next.said = benchmark.said)
    (script : Script threads next.main next.loader (spoken benchmark)) (begun : benchmark.main ≠ .starting)
    (running : benchmark.main ≠ .finished) : BenchmarkInv strftime config capacity threads next := by
  constructor
  · rw [spoken, said]
    exact script
  · rw [journal]
    exact inv.journal
  · rw [journal]
    exact fun _ => inv.begun begun
  · rw [journal]
    exact fun _ => inv.running running
  · rw [journal, said]
    exact inv.told
  · rw [said]
    exact inv.accounted

theorem main_keeps (benchmark next : Benchmark) (label : BenchmarkLabel)
    (inv : BenchmarkInv strftime config capacity threads benchmark)
    (stepped : mainStep threads benchmark label = some next) : BenchmarkInv strftime config capacity threads next := by
  have script := inv.script
  have ended := script.ended
  cases main_step_cases threads benchmark next label stepped with
  | start index here more =>
      rw [here] at script
      exact moves_keep strftime config capacity threads benchmark _ inv rfl rfl
        (script_starts threads index benchmark.loader _ script more) (by rw [here]; exact nofun) (by rw [here]; exact nofun)
  | wait here =>
      refine moves_keep strftime config capacity threads benchmark _ inv rfl rfl ?_ (by rw [here]; exact nofun)
        (by rw [here]; exact nofun)
      rw [here] at script
      exact script_main_moves threads _ _ _ _ script rfl rfl rfl nofun nofun
  | clear index here more =>
      refine moves_keep strftime config capacity threads benchmark _ inv rfl rfl ?_ (by rw [here]; exact nofun)
        (by rw [here]; exact nofun)
      rw [here] at script ended
      refine script_main_moves threads _ _ _ _ script rfl rfl rfl (fun other same => ?_) ended
      cases same
      exact more
  | join index here stopped =>
      refine moves_keep strftime config capacity threads benchmark _ inv rfl rfl ?_ (by rw [here]; exact nofun)
        (by rw [here]; exact nofun)
      rw [here] at script ended
      refine script_main_moves threads _ _ _ _ script rfl rfl rfl nofun (fun other early => ?_)
      rcases Nat.lt_succ_iff_lt_or_eq.mp early with before | rfl
      · exact ended other before
      · exact stopped

theorem loader_keeps (benchmark next : Benchmark) (index : Nat) (label : LoadLabel)
    (inv : BenchmarkInv strftime config capacity threads benchmark)
    (stepped : loaderStep benchmark index label = some next) : BenchmarkInv strftime config capacity threads next := by
  obtain ⟨⟨pc, object⟩, moved, rfl⟩ := Option.map_eq_some_iff.mp stepped
  have ran := load_step_cases _ _ pc _ object label moved
  have live := (load_step_live _ _ pc _ object label ran).1
  obtain ⟨started, unjoined⟩ := speaking_running threads _ _ _ inv.script index live
  refine moves_keep strftime config capacity threads benchmark _ inv rfl rfl ?_ ?_ ?_
  · exact script_loader_moves threads _ _ _ inv.script index pc live (loader_said_kept _ _ pc _ object label _ ran)
  · intro here
    rw [here] at started
    exact Nat.not_lt_zero index started
  · intro here
    rw [here] at started unjoined
    exact Nat.not_lt_of_le unjoined started

theorem log_keeps (benchmark next : Benchmark) (label : Label)
    (inv : BenchmarkInv strftime config capacity threads benchmark)
    (stepped : logStep strftime config capacity benchmark label = some next) :
    BenchmarkInv strftime config capacity threads next := by
  obtain ⟨late, moved⟩ := Option.ite_none_left_eq_some.mp stepped
  obtain ⟨journal, ran, rfl⟩ := Option.map_eq_some_iff.mp moved
  have kept := journal_step_keeps strftime config capacity benchmark.journal (.other label) journal inv.journal trivial ran
  obtain ⟨_, entered⟩ := Option.ite_none_left_eq_some.mp ran
  obtain ⟨log, went, rfl⟩ := Option.map_eq_some_iff.mp entered
  obtain ⟨allowed, stepping⟩ := (under_some _ _ _ _ _).mp went
  obtain ⟨_, other⟩ := Bool.and_eq_true_iff.mp allowed
  obtain ⟨begun, running⟩ := main_phase_kept capacity _ log label (by simpa using other) stepping
  refine ⟨inv.script, kept, fun here => begun (inv.begun here), fun here => running ?_ (inv.running here), inv.told,
    inv.accounted⟩
  rintro rfl
  exact late ⟨rfl, here⟩

def messageIn : BenchmarkLabel → Option Message
  | .say _ note _ _ readings => some (note.message readings)
  | _ => none

def Tellable (label : BenchmarkLabel) : Prop := ∀ message, messageIn label = some message → Recordable strftime message

theorem benchmark_step_keeps (benchmark : Benchmark) (label : BenchmarkLabel) (next : Benchmark)
    (inv : BenchmarkInv strftime config capacity threads benchmark) (tellable : Tellable strftime label)
    (stepped : benchmarkStep strftime config capacity threads benchmark label = some next) :
    BenchmarkInv strftime config capacity threads next := by
  obtain ⟨_, moved⟩ := Option.ite_none_right_eq_some.mp stepped
  cases label with
  | say thread note store granted readings =>
      exact say_keeps strftime config capacity threads benchmark next thread note store granted readings inv
        (tellable _ rfl) moved
  | start | wait | clear | join => exact main_keeps strftime config capacity threads benchmark next _ inv moved
  | load index label => exact loader_keeps strftime config capacity threads benchmark next index label inv moved
  | tick nanoseconds =>
      cases moved
      exact ⟨inv.script, inv.journal, inv.begun, inv.running, inv.told, inv.accounted⟩
  | log label => exact log_keeps strftime config capacity threads benchmark next label inv moved

theorem initial_benchmark_inv (positive : 0 < capacity) :
    BenchmarkInv strftime config capacity threads Benchmark.initial where
  script := initial_script threads
  journal := ⟨initial_single_cycle capacity positive, rfl⟩
  begun := fun started => absurd rfl started
  running := fun _ => rfl
  told := rfl
  accounted := nofun

theorem stopped_file (benchmark : Benchmark) (inv : BenchmarkInv strftime config capacity threads benchmark)
    (stopped : benchmark.journal.log.main = .stopped) :
    benchmark.journal.log.file = (storedMessages benchmark.said).flatMap (record strftime) := by
  obtain ⟨⟨pending, held⟩, first⟩ := inv.journal.cycle
  have whole := (inv_consistent capacity _ pending held first).complete (held.joined (Or.inr stopped))
  rw [whole, fileBytes, List.flatMap_def, inv.journal.told, inv.told, ← List.flatMap_def]

theorem speakers (benchmark : Benchmark) (inv : BenchmarkInv strftime config capacity threads benchmark)
    (entry : Nat × Note) (member : entry ∈ spoken benchmark) : entry.1 ≤ threads := by
  by_contra beyond
  obtain ⟨index, same⟩ : ∃ index, entry.1 = index + 1 := ⟨entry.1 - 1, by omega⟩
  have silent := inv.script.loaders index
  rw [inv.script.absent index (by have within := inv.script.within; omega)] at silent
  have told : entry.2 ∈ notesOf (index + 1) (spoken benchmark) :=
    List.mem_map_of_mem (List.mem_filter.mpr ⟨member, by simp [same]⟩)
  rw [silent] at told
  cases told

end Inv

-- The log file that the benchmark leaves, with any number of loaders and in any
-- order of the steps of its threads: the records of the calls that the queue had
-- a place for, where main's first two and its last stand around those of the
-- loaders, and each loader's are its counts from zero and its end.
theorem benchmark_log_exact (strftime : Nat → List UInt8) (config : Config) (capacity threads : Nat)
    (labels : List BenchmarkLabel) (benchmark : Benchmark) (positive : 0 < capacity)
    (tellable : ∀ label ∈ labels, Tellable strftime label)
    (ran : labels.foldlM (benchmarkStep strftime config capacity threads) Benchmark.initial = some benchmark)
    (stopped : benchmark.journal.log.main = .stopped) :
    benchmark.journal.log.file = (storedMessages benchmark.said).flatMap (record strftime) ∧
      (∀ said ∈ benchmark.said, said.Accounted config) ∧
      ∃ middle, spoken benchmark = byMain [.started, .configured] ++ middle ++ byMain [.finished] ∧
        (∀ entry ∈ middle, 0 < entry.1 ∧ entry.1 ≤ threads) ∧
        ∀ index, notesOf (index + 1) middle = [] ∨
          ∃ shown last, notesOf (index + 1) middle = loads shown ++ [.endOfThread last] := by
  have inv := steps_invariant (benchmarkStep strftime config capacity threads) (Tellable strftime)
    (BenchmarkInv strftime config capacity threads)
    (fun state label next held allowed stepped =>
      benchmark_step_keeps strftime config capacity threads state label next held allowed stepped)
    Benchmark.initial benchmark labels tellable ran (initial_benchmark_inv strftime config capacity threads positive)
  have finished : benchmark.main = .finished := by
    by_contra going
    have running := inv.running going
    rw [stopped] at running
    cases running
  refine ⟨stopped_file strftime config capacity threads benchmark inv stopped, inv.accounted, ?_⟩
  obtain ⟨middle, order, others, _⟩ := inv.script.order
  have ended := inv.script.ended
  rw [finished] at order ended
  refine ⟨middle, order, fun entry member => ⟨Nat.pos_of_ne_zero (others entry member), ?_⟩, fun index => ?_⟩
  · apply speakers strftime config capacity threads benchmark inv entry
    rw [order]
    exact List.mem_append_left _ (List.mem_append_right _ member)
  · have said := inv.script.loaders index
    have same : notesOf (index + 1) (spoken benchmark) = notesOf (index + 1) middle := by
      rw [order]
      simp [notesOf, byMain, openingNotes, closingNotes]
    rw [same] at said
    by_cases known : index < threads
    · rw [ended index known] at said
      exact said
    · rw [inv.script.absent index (by rw [finished]; exact Nat.le_of_not_lt known)] at said
      exact Or.inl said

def noReadings : Readings := hello.readings

def oneRound : List LoadLabel :=
  [.condwait (.wait 0 0 1), .condwait (.lock 0), .condwait (.block 0), .condwait (.expire 0), .condwait (.relock 0),
    .condwait (.unlock 0), .rewind, .test]

def loaderEnds : List LoadLabel :=
  [.closeStats, .condwait (.stopLock 0), .condwait (.destroy 0), .condwait (.stopUnlock 0)]

-- One loader that logs once and waits its millisecond; there is no buffer for the
-- second message.
def oneLoad : List BenchmarkLabel :=
  List.flatten [slogStart.map .log,
    [.say 0 .started (some (.replicate storeSize 0)) true noReadings, .say 0 .configured none true noReadings, .start,
      .load 0 (.openLog true), .load 0 .initCondwait, .load 0 (.openStats true), .load 0 .setvbuf, .load 0 .test,
      .say 1 (.load 0 (ascii "17")) (some (.replicate storeSize 0)) true noReadings, .wait, .clear, .tick 1000000],
    oneRound.map (.load 0), loaderEnds.map (.load 0),
    [.say 1 (.endOfThread (ascii "t")) (some (.replicate storeSize 0)) true noReadings, .load 0 .closeLog, .join,
      .say 0 .finished (some (.replicate storeSize 0)) true noReadings],
    List.map .log [.openLog true, .setShutdown, .signalDestroy, .dequeue, .write, .dequeue, .write, .dequeue, .write,
      .dequeue, .write, .dequeue, .close, .join, .freeData]]

theorem one_load_log : ∃ benchmark,
    oneLoad.foldlM (benchmarkStep (fun _ => []) ⟨LOG_INFO, .adbshell⟩ 4 1) Benchmark.initial = some benchmark ∧
      benchmark.journal.log.file = (storedMessages benchmark.said).flatMap (record fun _ => []) := by
  have runs : (oneLoad.foldlM (benchmarkStep (fun _ => []) ⟨LOG_INFO, .adbshell⟩ 4 1) Benchmark.initial).map
      (fun benchmark => benchmark.journal.log.main) = some .stopped := by
    decide +kernel
  obtain ⟨benchmark, ran, stopped⟩ := Option.map_eq_some_iff.mp runs
  refine ⟨benchmark, ran, (benchmark_log_exact (fun _ => []) ⟨LOG_INFO, .adbshell⟩ 4 1 oneLoad benchmark (by decide) ?_
    ran stopped).1⟩
  simp [oneLoad, oneRound, loaderEnds, slogStart, Tellable, messageIn, Recordable]
  decide +kernel

end Slogger.Threadload
