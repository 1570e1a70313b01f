import Mathlib.Logic.Function.Basic
import Slogger.Logger.Journal
import Slogger.Threadload.Loader
import Slogger.Threadload.Run

set_option autoImplicit false

namespace Slogger.Threadload

open Slogger.Common Slogger.Lib Slogger.Logger
open Slogger.Condwait (CondwaitState)

-- The slog_message calls of the benchmark part of main and of its loaders; shown
-- is what a %s stands for there.
inductive Note where
  | started
  | configured
  | load (ncount : Nat) (shown : List UInt8)
  | endOfThread (shown : List UInt8)
  | finished
deriving DecidableEq

def benchmarkTag : List UInt8 := ascii "GPU : Benchmark"

def Note.message (note : Note) (readings : Readings) : Message :=
  match note with
  | .started => ⟨LOG_INFO, benchmarkTag, ascii "GPU001 started", readings⟩
  | .configured => ⟨LOG_INFO, benchmarkTag, ascii "Gear and lanes are configured and validated", readings⟩
  | .load ncount shown => ⟨LOG_INFO, TAG, loadText ncount shown, readings⟩
  | .endOfThread shown => ⟨LOG_INFO, TAG, ascii "End of thread " ++ shown ++ ascii " ", readings⟩
  | .finished => ⟨LOG_INFO, benchmarkTag, ascii "GPU001 ended", readings⟩

-- What became of a call: not pushed, refused by enqueue, which may have found the
-- queue full, or in the queue.
inductive Outcome where
  | unpushed
  | refused (full : Bool)
  | stored
deriving DecidableEq

structure Said where
  thread : Nat
  note : Note
  readings : Readings
  served : Bool
  granted : Bool
  outcome : Outcome

def Said.message (said : Said) : Message := said.note.message said.readings

inductive BenchmarkPc where
  | starting
  | configuring
  | launching (index : Nat)
  | stopping (index : Nat)
  | joining (index : Nat)
  | finished
deriving DecidableEq

-- main is thread 0 of the log system, loader n is thread n + 1. said is every
-- slog_message call so far; crashed is that a loader has brought the program down.
structure Benchmark where
  journal : Journal
  main : BenchmarkPc
  keeprunning : Nat → Bool
  loader : Nat → LoadPc
  condwait : Nat → CondwaitState
  crashed : Bool
  said : List Said

def Benchmark.initial : Benchmark where
  journal := Journal.initial
  main := .starting
  keeprunning := fun _ => false
  loader := fun _ => .absent
  condwait := fun _ => CondwaitState.initial 0
  crashed := false
  said := []

inductive BenchmarkLabel where
  | say (thread : Nat) (note : Note) (store : Option (Cells UInt8 storeSize)) (granted : Bool) (readings : Readings)
  | start
  | wait
  | clear
  | join
  | load (loader : Nat) (label : LoadLabel)
  | tick (nanoseconds : Nat)
  | log (label : Label)

def outside (benchmark : Benchmark) (thread : Nat) : Bool := benchmark.journal.log.producers thread == .idle

section Benchmark

variable (strftime : Nat → List UInt8) (config : Config) (capacity threads : Nat)

def mainSpeaks (benchmark : Benchmark) (note : Note) : Option BenchmarkPc :=
  match benchmark.main, note with
  | .starting, .started => if benchmark.journal.log.main = .running then some .configuring else none
  | .configuring, .configured => some (.launching 0)
  | .stopping index, .finished => if index = threads then some .finished else none
  | _, _ => none

def loaderSpeaks (pc : LoadPc) (note : Note) : Option LoadPc :=
  match pc, note with
  | .reading ncount, .load shownCount _ => if shownCount = ncount then some (.waiting (ncount + 1)) else none
  | .ending, .endOfThread _ => some .closingLog
  | _, _ => none

def speaksNext (benchmark : Benchmark) (thread : Nat) (note : Note) : Option Benchmark :=
  match thread with
  | 0 => (mainSpeaks threads benchmark note).map fun pc => { benchmark with main := pc }
  | index + 1 =>
      (loaderSpeaks (benchmark.loader index) note).map fun pc =>
        { benchmark with loader := Function.update benchmark.loader index pc }

def outcomeOf (benchmark : Benchmark) (store : Option (Cells UInt8 storeSize)) (granted : Bool) (message : Message) :
    Outcome :=
  match slogMessagePushes strftime config store message with
  | .ok (some _) =>
      if granted then
        if refuses benchmark.journal.log.queue then .refused (isFull benchmark.journal.log.queue) else .stored
      else .unpushed
  | _ => .unpushed

def sayStep (benchmark : Benchmark) (thread : Nat) (note : Note) (store : Option (Cells UInt8 storeSize)) (granted : Bool)
    (readings : Readings) : Option Benchmark :=
  (speaksNext threads benchmark thread note).bind fun next =>
    (journalStep strftime config capacity benchmark.journal
      (.slogMessage thread store granted (note.message readings))).map fun journal =>
        { next with
          journal := journal
          said := benchmark.said ++
            [⟨thread, note, readings, store.isSome, granted,
              outcomeOf strftime config benchmark store granted (note.message readings)⟩] }

-- The two loops over the loaders, with thload_start and thload_stop.
def mainStep (benchmark : Benchmark) : BenchmarkLabel → Option Benchmark
  | .start =>
      match benchmark.main with
      | .launching index =>
          if index < threads then
            some { benchmark with
              main := .launching (index + 1)
              keeprunning := Function.update benchmark.keeprunning index true
              loader := Function.update benchmark.loader index .opening }
          else none
      | _ => none
  | .wait =>
      match benchmark.main with
      | .launching index => if index = threads then some { benchmark with main := .stopping 0 } else none
      | _ => none
  | .clear =>
      match benchmark.main with
      | .stopping index =>
          if index < threads then
            some { benchmark with
              main := .joining index
              keeprunning := Function.update benchmark.keeprunning index false }
          else none
      | _ => none
  | .join =>
      match benchmark.main with
      | .joining index =>
          if benchmark.loader index = .ended ∧ outside benchmark (index + 1) = true then
            some { benchmark with main := .stopping (index + 1) }
          else none
      | _ => none
  | _ => none

def loaderStep (benchmark : Benchmark) (index : Nat) (label : LoadLabel) : Option Benchmark :=
  (loadStep (benchmark.keeprunning index) (benchmark.loader index) (benchmark.condwait index) label).map fun moved =>
    { benchmark with
      loader := Function.update benchmark.loader index moved.1
      condwait := Function.update benchmark.condwait index moved.2
      crashed := moved.1 == .crashed }

-- The log system's own steps; slog_stop is called behind the last message.
def logStep (benchmark : Benchmark) (label : Label) : Option Benchmark :=
  if label = .setShutdown ∧ benchmark.main ≠ .finished then none
  else (journalStep strftime config capacity benchmark.journal (.other label)).map fun journal =>
    { benchmark with journal := journal }

-- A thread goes on when its enqueue has returned.
def actor : BenchmarkLabel → Option Nat
  | .say thread _ _ _ _ => some thread
  | .start | .wait | .clear | .join | .log .setShutdown => some 0
  | .load loader _ => some (loader + 1)
  | .tick _ | .log _ => none

def benchmarkStep (benchmark : Benchmark) (label : BenchmarkLabel) : Option Benchmark :=
  if benchmark.crashed = false ∧ (actor label).all (outside benchmark) then
    match label with
    | .say thread note store granted readings =>
        sayStep strftime config capacity threads benchmark thread note store granted readings
    | .start | .wait | .clear | .join => mainStep threads benchmark label
    | .load loader label => loaderStep benchmark loader label
    | .tick nanoseconds => some { benchmark with condwait := fun index => later (benchmark.condwait index) nanoseconds }
    | .log label => logStep strftime config capacity benchmark label
  else none

end Benchmark

inductive MainSpeaks (threads : Nat) (benchmark : Benchmark) : Note → BenchmarkPc → Prop where
  | started (here : benchmark.main = .starting) (ready : benchmark.journal.log.main = .running) :
      MainSpeaks threads benchmark .started .configuring
  | configured (here : benchmark.main = .configuring) : MainSpeaks threads benchmark .configured (.launching 0)
  | finished (here : benchmark.main = .stopping threads) : MainSpeaks threads benchmark .finished .finished

theorem main_speaks_cases (threads : Nat) (benchmark : Benchmark) (note : Note) (next : BenchmarkPc)
    (spoke : mainSpeaks threads benchmark note = some next) : MainSpeaks threads benchmark note next := by
  unfold mainSpeaks at spoke
  split at spoke
  · rename_i here
    obtain ⟨ready, rfl⟩ := Option.ite_none_right_eq_some.mp spoke |>.imp_right Option.some.inj
    exact .started here ready
  · rename_i here
    cases spoke
    exact .configured here
  · rename_i index here
    obtain ⟨rfl, rfl⟩ := Option.ite_none_right_eq_some.mp spoke |>.imp_right Option.some.inj
    exact .finished here
  · cases spoke

inductive MainStep (threads : Nat) (benchmark : Benchmark) : BenchmarkLabel → Benchmark → Prop where
  | start (index : Nat) (here : benchmark.main = .launching index) (more : index < threads) :
      MainStep threads benchmark .start { benchmark with
        main := .launching (index + 1)
        keeprunning := Function.update benchmark.keeprunning index true
        loader := Function.update benchmark.loader index .opening }
  | wait (here : benchmark.main = .launching threads) :
      MainStep threads benchmark .wait { benchmark with main := .stopping 0 }
  | clear (index : Nat) (here : benchmark.main = .stopping index) (more : index < threads) :
      MainStep threads benchmark .clear { benchmark with
        main := .joining index
        keeprunning := Function.update benchmark.keeprunning index false }
  | join (index : Nat) (here : benchmark.main = .joining index) (ended : benchmark.loader index = .ended)
      (free : outside benchmark (index + 1) = true) :
      MainStep threads benchmark .join { benchmark with main := .stopping (index + 1) }

theorem main_step_cases (threads : Nat) (benchmark next : Benchmark) (label : BenchmarkLabel)
    (stepped : mainStep threads benchmark label = some next) : MainStep threads benchmark label next := by
  cases label with
  | start =>
      dsimp only [mainStep] at stepped
      split at stepped
      · rename_i index here
        obtain ⟨more, rfl⟩ := Option.ite_none_right_eq_some.mp stepped |>.imp_right Option.some.inj
        exact .start index here more
      · cases stepped
  | wait =>
      dsimp only [mainStep] at stepped
      split at stepped
      · rename_i index here
        obtain ⟨rfl, rfl⟩ := Option.ite_none_right_eq_some.mp stepped |>.imp_right Option.some.inj
        exact .wait here
      · cases stepped
  | clear =>
      dsimp only [mainStep] at stepped
      split at stepped
      · rename_i index here
        obtain ⟨more, rfl⟩ := Option.ite_none_right_eq_some.mp stepped |>.imp_right Option.some.inj
        exact .clear index here more
      · cases stepped
  | join =>
      dsimp only [mainStep] at stepped
      split at stepped
      · rename_i index here
        obtain ⟨⟨ended, free⟩, rfl⟩ := Option.ite_none_right_eq_some.mp stepped |>.imp_right Option.some.inj
        exact .join index here ended free
      · cases stepped
  | say | load | tick | log => cases stepped

def launched (threads : Nat) : BenchmarkPc → Nat
  | .starting | .configuring => 0
  | .launching index => index
  | _ => threads

def joined (threads : Nat) : BenchmarkPc → Nat
  | .stopping index | .joining index => index
  | .finished => threads
  | _ => 0

def openingNotes : BenchmarkPc → List Note
  | .starting => []
  | .configuring => [.started]
  | _ => [.started, .configured]

def closingNotes : BenchmarkPc → List Note
  | .finished => [.finished]
  | _ => []

def byMain (notes : List Note) : List (Nat × Note) := notes.map fun note => (0, note)

def notesOf (thread : Nat) (spoken : List (Nat × Note)) : List Note :=
  (spoken.filter fun entry => entry.1 == thread).map Prod.snd

def loads (shown : List (List UInt8)) : List Note := shown.mapIdx Note.load

def LoaderSaid (pc : LoadPc) (notes : List Note) : Prop :=
  match pc with
  | .absent | .opening | .initialising | .openingStats | .unbuffering _ | .crashed => notes = []
  | .testing ncount | .reading ncount | .waiting ncount | .rewinding ncount =>
      ∃ shown, shown.length = ncount ∧ notes = loads shown
  | .closingStats | .stopping | .ending => ∃ shown, notes = loads shown
  | .closingLog => ∃ shown last, notes = loads shown ++ [.endOfThread last]
  | .ended => notes = [] ∨ ∃ shown last, notes = loads shown ++ [.endOfThread last]

-- The calls so far are those main makes before it starts a loader, those of the
-- loaders, and the one main makes when it has waited for them all.
structure Script (threads : Nat) (main : BenchmarkPc) (loader : Nat → LoadPc) (spoken : List (Nat × Note)) : Prop where
  within : launched threads main ≤ threads
  joining : ∀ index, main = .joining index → index < threads
  absent : ∀ index, launched threads main ≤ index → loader index = .absent
  ended : ∀ index, index < joined threads main → loader index = .ended
  order : ∃ middle, spoken = byMain (openingNotes main) ++ middle ++ byMain (closingNotes main) ∧
    (∀ entry ∈ middle, entry.1 ≠ 0) ∧ (launched threads main = 0 → middle = [])
  loaders : ∀ index, LoaderSaid (loader index) (notesOf (index + 1) spoken)

theorem notes_same (thread : Nat) (note : Note) (spoken : List (Nat × Note)) :
    notesOf thread (spoken ++ [(thread, note)]) = notesOf thread spoken ++ [note] := by
  simp [notesOf]

theorem notes_other (thread other : Nat) (note : Note) (spoken : List (Nat × Note)) (different : other ≠ thread) :
    notesOf thread (spoken ++ [(other, note)]) = notesOf thread spoken := by
  simp [notesOf, different]

theorem loads_next (shown : List (List UInt8)) (last : List UInt8) :
    loads (shown ++ [last]) = loads shown ++ [.load shown.length last] := by
  simp [loads]

theorem initial_script (threads : Nat) : Script threads .starting (fun _ => .absent) [] where
  within := Nat.zero_le _
  joining := nofun
  absent := fun _ _ => rfl
  ended := nofun
  order := ⟨[], rfl, nofun, fun _ => rfl⟩
  loaders := fun _ => rfl

theorem loader_speaks_cases (pc next : LoadPc) (note : Note) (spoke : loaderSpeaks pc note = some next) :
    (∃ ncount shown, pc = .reading ncount ∧ note = .load ncount shown ∧ next = .waiting (ncount + 1)) ∨
      ∃ shown, pc = .ending ∧ note = .endOfThread shown ∧ next = .closingLog := by
  unfold loaderSpeaks at spoke
  split at spoke
  · rename_i ncount shownCount shown
    obtain ⟨rfl, rfl⟩ := Option.ite_none_right_eq_some.mp spoke |>.imp_right Option.some.inj
    exact Or.inl ⟨_, _, rfl, rfl, rfl⟩
  · cases spoke
    exact Or.inr ⟨_, rfl, rfl, rfl⟩
  · cases spoke

theorem loader_said_next (pc next : LoadPc) (note : Note) (notes : List Note) (spoke : loaderSpeaks pc note = some next)
    (said : LoaderSaid pc notes) : LoaderSaid next (notes ++ [note]) := by
  rcases loader_speaks_cases pc next note spoke with ⟨ncount, shown, rfl, rfl, rfl⟩ | ⟨last, rfl, rfl, rfl⟩
  · obtain ⟨before, rfl, rfl⟩ := said
    exact ⟨before ++ [shown], by simp, (loads_next before shown).symm⟩
  · obtain ⟨before, rfl⟩ := said
    exact ⟨before, last, rfl⟩

theorem speaking_live (pc next : LoadPc) (note : Note) (spoke : loaderSpeaks pc note = some next) : pc.live = true := by
  rcases loader_speaks_cases pc next note spoke with ⟨_, _, rfl, _⟩ | ⟨_, rfl, _⟩ <;> rfl

theorem loader_said_kept (keeprunning : Bool) (pc next : LoadPc) (object after : CondwaitState) (label : LoadLabel)
    (notes : List Note) (stepped : LoadStep keeprunning object pc label next after) (said : LoaderSaid pc notes) :
    LoaderSaid next notes := by
  cases stepped with
  | openLog opened =>
      cases opened with
      | true => exact said
      | false => exact Or.inl said
  | setvbuf opened =>
      cases opened with
      | true => exact ⟨[], rfl, said⟩
      | false => exact said
  | test =>
      cases keeprunning with
      | true => exact said
      | false =>
          obtain ⟨shown, _, same⟩ := said
          exact ⟨shown, same⟩
  | wait | stop => split <;> exact said
  | closeLog => exact Or.inr said
  | _ => exact said

-- A loader that goes on has been started, and main has not waited for it.
theorem speaking_running (threads : Nat) (main : BenchmarkPc) (loader : Nat → LoadPc) (spoken : List (Nat × Note))
    (script : Script threads main loader spoken) (index : Nat) (live : (loader index).live = true) :
    index < launched threads main ∧ joined threads main ≤ index := by
  constructor
  · refine Nat.lt_of_not_le fun late => ?_
    rw [script.absent index late] at live
    cases live
  · refine Nat.le_of_not_lt fun early => ?_
    rw [script.ended index early] at live
    cases live

theorem script_loader_speaks (threads : Nat) (main : BenchmarkPc) (loader : Nat → LoadPc) (spoken : List (Nat × Note))
    (script : Script threads main loader spoken) (index : Nat) (note : Note) (pc : LoadPc)
    (spoke : loaderSpeaks (loader index) note = some pc) :
    Script threads main (Function.update loader index pc) (spoken ++ [(index + 1, note)]) := by
  obtain ⟨started, unjoined⟩ := speaking_running threads main loader spoken script index (speaking_live _ pc note spoke)
  obtain ⟨middle, order, others, _⟩ := script.order
  have silent : closingNotes main = [] := by
    cases main with
    | finished => exact absurd started (Nat.not_lt_of_le unjoined)
    | _ => rfl
  refine ⟨script.within, script.joining, fun other late => ?_, fun other early => ?_, ?_, fun other => ?_⟩
  · rw [Function.update_of_ne (by omega)]
    exact script.absent other late
  · rw [Function.update_of_ne (by omega)]
    exact script.ended other early
  · refine ⟨middle ++ [(index + 1, note)], ?_, ?_, fun unstarted => absurd started (by omega)⟩
    · simp [order, silent, byMain]
    · intro entry member
      rcases List.mem_append.mp member with earlier | here
      · exact others entry earlier
      · rw [List.mem_singleton.mp here]
        exact Nat.succ_ne_zero index
  · by_cases same : other = index
    · subst same
      rw [Function.update_self, notes_same]
      exact loader_said_next _ pc note _ spoke (script.loaders other)
    · rw [Function.update_of_ne same, notes_other _ _ _ _ (by omega)]
      exact script.loaders other

theorem script_loader_moves (threads : Nat) (main : BenchmarkPc) (loader : Nat → LoadPc) (spoken : List (Nat × Note))
    (script : Script threads main loader spoken) (index : Nat) (pc : LoadPc) (live : (loader index).live = true)
    (said : LoaderSaid (loader index) (notesOf (index + 1) spoken) → LoaderSaid pc (notesOf (index + 1) spoken)) :
    Script threads main (Function.update loader index pc) spoken := by
  obtain ⟨started, unjoined⟩ := speaking_running threads main loader spoken script index live
  refine ⟨script.within, script.joining, fun other late => ?_, fun other early => ?_, script.order, fun other => ?_⟩
  · rw [Function.update_of_ne (by omega)]
    exact script.absent other late
  · rw [Function.update_of_ne (by omega)]
    exact script.ended other early
  · by_cases same : other = index
    · subst same
      rw [Function.update_self]
      exact said (script.loaders other)
    · rw [Function.update_of_ne same]
      exact script.loaders other

theorem script_main_moves (threads : Nat) (main next : BenchmarkPc) (loader : Nat → LoadPc) (spoken : List (Nat × Note))
    (script : Script threads main loader spoken) (started : launched threads next = launched threads main)
    (opening : openingNotes next = openingNotes main) (closing : closingNotes next = closingNotes main)
    (joining : ∀ index, next = .joining index → index < threads)
    (ended : ∀ index, index < joined threads next → loader index = .ended) : Script threads next loader spoken := by
  refine ⟨?_, joining, ?_, ended, ?_, script.loaders⟩
  · rw [started]
    exact script.within
  · rw [started]
    exact script.absent
  · rw [started, opening, closing]
    exact script.order

theorem script_starts (threads index : Nat) (loader : Nat → LoadPc) (spoken : List (Nat × Note))
    (script : Script threads (.launching index) loader spoken) (more : index < threads) :
    Script threads (.launching (index + 1)) (Function.update loader index .opening) spoken := by
  obtain ⟨middle, order, others, _⟩ := script.order
  refine ⟨more, nofun, fun other late => ?_, nofun, ⟨middle, order, others, nofun⟩, fun other => ?_⟩
  · have apart : other ≠ index := Nat.ne_of_gt late
    rw [Function.update_of_ne apart]
    exact script.absent other (Nat.le_of_succ_le late)
  · have said := script.loaders other
    by_cases same : other = index
    · subst same
      rw [script.absent other (Nat.le_refl other)] at said
      rwa [Function.update_self]
    · rwa [Function.update_of_ne same]

theorem script_main_speaks (threads : Nat) (benchmark : Benchmark) (note : Note) (next : BenchmarkPc)
    (spoken : List (Nat × Note)) (script : Script threads benchmark.main benchmark.loader spoken)
    (spoke : mainSpeaks threads benchmark note = some next) :
    Script threads next benchmark.loader (spoken ++ [(0, note)]) := by
  have loaders : ∀ index, LoaderSaid (benchmark.loader index) (notesOf (index + 1) (spoken ++ [(0, note)])) := by
    intro index
    rw [notes_other _ _ _ _ (Nat.zero_ne_add_one index)]
    exact script.loaders index
  obtain ⟨middle, order, others, empty⟩ := script.order
  have absent := script.absent
  have ended := script.ended
  cases main_speaks_cases threads benchmark note next spoke with
  | started here | configured here =>
      rw [here] at absent order empty
      refine ⟨Nat.zero_le threads, nofun, absent, nofun, ⟨[], ?_, nofun, fun _ => rfl⟩, loaders⟩
      simp [order, empty rfl, byMain, openingNotes, closingNotes]
  | finished here =>
      rw [here] at absent order empty ended
      refine ⟨Nat.le_refl threads, nofun, absent, ended, ⟨middle, ?_, others, empty⟩, loaders⟩
      simp [order, byMain, openingNotes, closingNotes]

end Slogger.Threadload
