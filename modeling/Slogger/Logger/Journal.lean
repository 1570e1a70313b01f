import Slogger.Common.Record
import Slogger.Lib.Simulation
import Slogger.Logger.Delivery
import Slogger.Playlist.Lines

set_option autoImplicit false

namespace Slogger.Logger

open Slogger.Common Slogger.Lib
open Slogger.Playlist (newline rawLines raw_lines_line raw_lines_one)

-- The log system with the calls that feed it: told is the messages whose records
-- the queue has accepted, in that order.
structure Journal where
  log : LoggerState
  told : List Message

def Journal.initial : Journal := ⟨LoggerState.initial, []⟩

-- store and granted are what malloc answers to slog_message and to pushMessage.
inductive JournalLabel where
  | slogMessage (thread : Nat) (store : Option (Cells UInt8 storeSize)) (granted : Bool) (message : Message)
  | other (label : Label)

section Journal

variable (strftime : Nat → List UInt8) (config : Config) (capacity : Nat)

-- A call below the level, or without a block, pushes nothing; every other step is
-- one of the log system, in its first cycle.
def journalStep (journal : Journal) : JournalLabel → Option Journal
  | .slogMessage thread store granted message =>
      match slogMessagePushes strftime config store message with
      | .error fault => some { journal with log := { journal.log with fault := some fault } }
      | .ok none => some journal
      | .ok (some data) =>
          if granted then
            (under singleCycle (step capacity) journal.log (.enqueue thread data)).map fun log =>
              ⟨log, if refuses journal.log.queue then journal.told else journal.told ++ [message]⟩
          else some journal
  | .other label =>
      if isEnqueue label then none
      else (under singleCycle (step capacity) journal.log label).map fun log => { journal with log := log }

-- What slog_message can store whole and hand on whole.
def Recordable (message : Message) : Prop :=
  (record strftime message).length < storeSize ∧ (0 : UInt8) ∉ record strftime message

def AllRecordable : JournalLabel → Prop
  | .slogMessage _ _ _ message => Recordable strftime message
  | .other _ => True

structure JournalInv (journal : Journal) : Prop where
  cycle : InSingleCycle capacity journal.log
  told : journal.log.accepted.map QueueData.message = journal.told.map (record strftime)

def entryOf (message : Message) : List UInt8 := heading strftime message ++ ascii ":  " ++ message.text

theorem record_entry (message : Message) : record strftime message = entryOf strftime message ++ [newline] := rfl

theorem pushed_record (store : Option (Cells UInt8 storeSize)) (message : Message) (data : QueueData)
    (recordable : Recordable strftime message)
    (pushed : slogMessagePushes strftime config store message = .ok (some data)) :
    data.message = record strftime message := by
  by_cases shown : message.logLvl ≤ config.consoleLoglevel
  · cases store with
    | none =>
        simp only [slogMessagePushes, if_pos shown] at pushed
        cases pushed
    | some store =>
        obtain ⟨rest, ran⟩ := record_stored strftime config store message shown recordable.1
        obtain rfl := Option.some.inj (Except.ok.inj (ran.symm.trans pushed))
        exact (stored_message_iff _ rest).mpr recordable.2
  · simp only [slogMessagePushes, if_neg shown] at pushed
    cases pushed

theorem recordable_returns (store : Option (Cells UInt8 storeSize)) (message : Message) (fault : Fault)
    (recordable : Recordable strftime message) : slogMessagePushes strftime config store message ≠ .error fault := by
  by_cases shown : message.logLvl ≤ config.consoleLoglevel
  · cases store with
    | none => simp [slogMessagePushes, shown]
    | some store =>
        obtain ⟨rest, ran⟩ := record_stored strftime config store message shown recordable.1
        simp [ran]
  · simp [slogMessagePushes, shown]

theorem told_kept (journal : Journal) (thread : Nat) (message : Message) (data : QueueData) (log : LoggerState)
    (inv : JournalInv strftime capacity journal) (same : data.message = record strftime message)
    (stepped : under singleCycle (step capacity) journal.log (.enqueue thread data) = some log) :
    JournalInv strftime capacity
      ⟨log, if refuses journal.log.queue then journal.told else journal.told ++ [message]⟩ := by
  have cycle := single_cycle_keeps capacity journal.log _ log inv.cycle stepped
  obtain ⟨⟨pending, held⟩, _⟩ := inv.cycle
  obtain ⟨allowed, ran⟩ := (under_some _ _ _ _ _).mp stepped
  obtain ⟨ordered, _⟩ := Bool.and_eq_true_iff.mp allowed
  refine ⟨cycle, ?_⟩
  obtain ⟨_, ⟨refused, _, accepted, _⟩ | ⟨stored, accepted, _⟩⟩ :=
    enqueue_keeps capacity journal.log log thread data pending held ordered ran
  · rw [if_pos refused, accepted]
    exact inv.told
  · rw [stored, accepted]
    simp [inv.told, same]

theorem journal_step_keeps (journal : Journal) (label : JournalLabel) (next : Journal)
    (inv : JournalInv strftime capacity journal) (allowed : AllRecordable strftime label)
    (stepped : journalStep strftime config capacity journal label = some next) : JournalInv strftime capacity next := by
  cases label with
  | slogMessage thread store granted message =>
      rw [journalStep] at stepped
      split at stepped
      · rename_i fault failed
        exact absurd failed (recordable_returns strftime config store message fault allowed)
      · cases stepped
        exact inv
      · rename_i data pushed
        split at stepped
        · obtain ⟨log, ran, rfl⟩ := Option.map_eq_some_iff.mp stepped
          exact told_kept strftime capacity journal thread message data log inv
            (pushed_record strftime config store message data allowed pushed) ran
        · cases stepped
          exact inv
  | other label =>
      rw [journalStep] at stepped
      split at stepped
      · cases stepped
      · rename_i quiet
        obtain ⟨log, ran, rfl⟩ := Option.map_eq_some_iff.mp stepped
        have cycle := single_cycle_keeps capacity journal.log label log inv.cycle ran
        obtain ⟨permitted, moved⟩ := (under_some _ _ _ _ _).mp ran
        obtain ⟨_, other⟩ := Bool.and_eq_true_iff.mp permitted
        have frame := step_frame capacity journal.log log label (by simpa using other) moved
        have given := frame.given fun thread data same => quiet (by rw [same]; rfl)
        refine ⟨cycle, ?_⟩
        rw [given.2]
        exact inv.told

end Journal

theorem ended_lines_iff (texts : List (List UInt8)) :
    rawLines (texts.flatMap fun text => text ++ [newline]) = texts.map (fun text => text ++ [newline]) ↔
      ∀ text ∈ texts, newline ∉ text := by
  constructor
  · intro same text member
    have line : text ++ [newline] ∈ rawLines (texts.flatMap fun text => text ++ [newline]) := by
      rw [same]
      exact List.mem_map_of_mem member
    have one := (raw_lines_one _ _ line).1.2
    rw [List.dropLast_concat] at one
    exact one
  · intro clean
    induction texts with
    | nil => rfl
    | cons text rest ih =>
        rw [List.flatMap_cons, List.append_assoc, List.singleton_append,
          raw_lines_line text _ (clean text List.mem_cons_self), List.map_cons,
          ih fun other member => clean other (List.mem_cons_of_mem text member)]

theorem file_of_told (strftime : Nat → List UInt8) (accepted : List QueueData) (told : List Message) (count : Nat)
    (same : accepted.map QueueData.message = told.map (record strftime)) :
    fileBytes (accepted.take count) = (told.take count).flatMap (record strftime) := by
  rw [fileBytes, List.flatMap_def, List.flatMap_def, List.map_take, same, List.map_take]

-- The log file as its reader sees it, in every state of every run in which the
-- file opens: the records of the first calls that were accepted, of all of them
-- once the thread has ended, and a line for each unless one of them carries a
-- newline of its own.
theorem log_lines_are_records (strftime : Nat → List UInt8) (config : Config) (capacity : Nat) (labels : List JournalLabel)
    (journal : Journal) (positive : 0 < capacity) (recordable : ∀ label ∈ labels, AllRecordable strftime label)
    (ran : labels.foldlM (journalStep strftime config capacity) Journal.initial = some journal) :
    ∃ count, journal.log.file = (journal.told.take count).flatMap (record strftime) ∧
      (rawLines journal.log.file = (journal.told.take count).map (record strftime) ↔
        ∀ message ∈ journal.told.take count, newline ∉ entryOf strftime message) ∧
      (journal.log.logger = .ended → journal.told.take count = journal.told) := by
  have inv := steps_invariant (journalStep strftime config capacity) (AllRecordable strftime) (JournalInv strftime capacity)
    (fun state label next held allowed stepped =>
      journal_step_keeps strftime config capacity state label next held allowed stepped)
    Journal.initial journal labels recordable ran ⟨initial_single_cycle capacity positive, rfl⟩
  obtain ⟨⟨pending, held⟩, first⟩ := inv.cycle
  have consistent := inv_consistent capacity journal.log pending held first
  have lines : ∀ count, journal.log.file = (journal.told.take count).flatMap (record strftime) →
      (rawLines journal.log.file = (journal.told.take count).map (record strftime) ↔
        ∀ message ∈ journal.told.take count, newline ∉ entryOf strftime message) := by
    intro count file
    have ended := ended_lines_iff ((journal.told.take count).map (entryOf strftime))
    rw [List.flatMap_map, List.map_map, List.forall_mem_map] at ended
    rw [file]
    exact ended
  by_cases ended : journal.log.logger = .ended
  · have whole := file_of_told strftime journal.log.accepted journal.told journal.told.length inv.told
    have file : journal.log.file = (journal.told.take journal.told.length).flatMap (record strftime) := by
      have sizes := congrArg List.length inv.told
      rw [List.length_map, List.length_map] at sizes
      rw [← whole, ← sizes, List.take_length]
      exact consistent.complete ended
    exact ⟨_, file, lines _ file, fun _ => List.take_length⟩
  · obtain ⟨count, written⟩ := consistent.written
    have file := written.trans (file_of_told strftime journal.log.accepted journal.told count inv.told)
    exact ⟨count, file, lines count file, fun there => absurd there ended⟩

def hello : Message := ⟨LOG_INFO, ascii "tag", ascii "hello", ⟨0, 0, 0, 0, Nat.le_refl 0, Nat.le_refl 0, Nat.le_refl 0⟩⟩

def helloRun : List JournalLabel :=
  slogStart.map .other ++ [.slogMessage 0 none true hello, .slogMessage 0 (some (.replicate storeSize 0)) true hello] ++
    [.openLog true, .dequeue, .write, .setShutdown, .signalDestroy, .dequeue, .close].map .other

theorem hello_run_lines : ∃ journal, helloRun.foldlM (journalStep (fun _ => []) ⟨LOG_INFO, .adbshell⟩ 1) Journal.initial =
    some journal ∧ ∃ count, journal.log.file = (journal.told.take count).flatMap (record fun _ => []) ∧
      (rawLines journal.log.file = (journal.told.take count).map (record fun _ => []) ↔
        ∀ message ∈ journal.told.take count, newline ∉ entryOf (fun _ => []) message) ∧
      (journal.log.logger = .ended → journal.told.take count = journal.told) := by
  have runs : (helloRun.foldlM (journalStep (fun _ => []) ⟨LOG_INFO, .adbshell⟩ 1) Journal.initial).isSome = true := by
    decide +kernel
  obtain ⟨journal, ran⟩ := Option.isSome_iff_exists.mp runs
  refine ⟨journal, ran, log_lines_are_records (fun _ => []) ⟨LOG_INFO, .adbshell⟩ 1 helloRun journal (by decide) ?_ ran⟩
  simp [helloRun, slogStart, AllRecordable, Recordable]
  decide +kernel

end Slogger.Logger
