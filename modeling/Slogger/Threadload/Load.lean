import Slogger.Common.Log
import Slogger.Lib.Memory

set_option autoImplicit false

namespace Slogger.Threadload

open Slogger.Lib Slogger.Common

def TAG : List UInt8 := ascii "GPU : Load"

-- logPath and logfile are the strings in the two arrays.
structure ThLoader where
  clubbed : Bool
  logPath : List UInt8
  logfile : List UInt8
  localFile : Bool
  threadLog : Option Nat

inductive StdioCall where
  | fprintf
  | fclose
  | ftell
  | fseek
  | fread
deriving DecidableEq

-- What load_thread does that others can see; a stream is never NULL here, and
-- handed is what slog_message itself gives to pushMessage, if anything.
inductive Event where
  | stdio (call : StdioCall) (stream : Nat)
  | slogMessage (logLvl : Int) (tag fmt : List UInt8) (handed : Option (List UInt8))
  | logMessage (logLvl : Int) (fp : Option Nat) (tag fmt : List UInt8)
  | pushMessage (message : List UInt8)
deriving DecidableEq

structure Loaded where
  th : ThLoader
  events : List Event
  log : List UInt8

-- string[index] = '\n'
def putNewline (string : List UInt8) (index : Int) : Except Fault (List UInt8) :=
  if 0 ≤ index ∧ index < string.length then .ok (string.set index.toNat 10) else .error .outside

-- close_thread_log on a stream at the end of its content; granted is whether
-- malloc gave the buffer, three bytes longer than the content.
def closeThreadLog (threadLog : Option Nat) (content : List UInt8) (granted : Bool) : Except Fault (List Event) :=
  match threadLog with
  | none => .error .nullDeref
  | some stream =>
      if content = [] then .ok [.stdio .ftell stream, .stdio .fclose stream]
      else if granted then do
        let sz : Int := (BitVec.ofNat 32 content.length).toInt
        let string ← putNewline (content ++ [0, 0, 0]) (sz - 1)
        let string ← putNewline string (sz - 2)
        .ok [.stdio .ftell stream, .stdio .fseek stream, .stdio .fread stream,
          .pushMessage (string.take sz.toNat), .stdio .fclose stream]
      else .ok [.stdio .ftell stream, .stdio .fseek stream, .stdio .fclose stream]

-- sprintf of "%s%s" or "%sthread%d.log", with pthread_self() as an int.
def threadLogFilename (th : ThLoader) (self : BitVec 32) : List UInt8 :=
  if th.localFile then th.logPath ++ th.logfile
  else if th.clubbed then th.logPath ++ ascii "thread" ++ ascii (toString self.toInt) ++ ascii ".log"
  else []

-- th->run writes its messages to th->thread_log, with the test for NULL that
-- log_message makes.
def runWrites (th : ThLoader) (messages : List (List UInt8)) : List Event :=
  match th.threadLog with
  | some stream => messages.map fun _ => .stdio .fprintf stream
  | none => []

def endOfThread (th : ThLoader) (log : List UInt8) (granted : Bool) (note : Option (List UInt8)) :
    Except Fault (List Event) :=
  match th.threadLog with
  | some stream => .ok [.slogMessage LOG_INFO TAG (ascii "End of thread %s ") note, .stdio .fclose stream]
  | none =>
      if th.clubbed then do
        let closing ← closeThreadLog th.threadLog log granted
        .ok (.logMessage LOG_INFO th.threadLog TAG (ascii "End of thread tid = %ld ") :: closing)
      else .ok [.slogMessage LOG_INFO TAG (ascii "End of thread %s ") note]

-- opened is what fopen answers, should it be called, and note what becomes of
-- the message about the end.
def loadThread (th : ThLoader) (self : BitVec 32) (opened : Option Nat) (granted : Bool) (note : Option (List UInt8))
    (messages : List (List UInt8)) : Except Fault Loaded :=
  let th := { th with localFile := decide (th.logfile ≠ []) }
  let named := decide (threadLogFilename th self ≠ [])
  let th := if named then { th with threadLog := opened } else th
  if named && th.threadLog.isNone then .ok ⟨th, [], []⟩
  else do
    let log := if th.threadLog.isSome then messages.flatten else []
    let closing ← endOfThread th log granted note
    .ok ⟨th, runWrites th messages ++ closing, log⟩

-- No call on a NULL stream on the way, and at the end one message that is all
-- the thread logged, with newlines behind it if need be.
def HandsLog (th : ThLoader) (self : BitVec 32) (opened : Option Nat) (granted : Bool) (note : Option (List UInt8))
    (messages : List (List UInt8)) : Prop :=
  ∃ loaded, loadThread th self opened granted note messages = .ok loaded ∧
    (loaded.log ≠ [] → ∃ newlines, .pushMessage (loaded.log ++ List.replicate newlines 10) ∈ loaded.events)

theorem clubbed_named (th : ThLoader) (self : BitVec 32) (clubbed : th.clubbed = true) :
    threadLogFilename { th with localFile := decide (th.logfile ≠ []) } self ≠ [] := by
  by_cases empty : th.logfile = []
  · simp [threadLogFilename, empty, clubbed, ascii]
  · simp [threadLogFilename, empty]

theorem load_thread_unopened (th : ThLoader) (self : BitVec 32) (granted : Bool) (note : Option (List UInt8))
    (messages : List (List UInt8))
    (named : threadLogFilename { th with localFile := decide (th.logfile ≠ []) } self ≠ []) :
    loadThread th self none granted note messages =
      .ok ⟨{ th with localFile := decide (th.logfile ≠ []), threadLog := none }, [], []⟩ := by
  rw [loadThread]
  simp only [decide_eq_true named, if_true, Option.isNone_none, Bool.and_self]

theorem load_thread_opened (th : ThLoader) (self : BitVec 32) (stream : Nat) (granted : Bool)
    (note : Option (List UInt8)) (messages : List (List UInt8))
    (named : threadLogFilename { th with localFile := decide (th.logfile ≠ []) } self ≠ []) :
    loadThread th self (some stream) granted note messages =
      .ok ⟨{ th with localFile := decide (th.logfile ≠ []), threadLog := some stream },
        messages.map (fun _ => .stdio .fprintf stream) ++
          [.slogMessage LOG_INFO TAG (ascii "End of thread %s ") note, .stdio .fclose stream], messages.flatten⟩ := by
  rw [loadThread]
  simp only [decide_eq_true named, if_true, Option.isNone_some, Bool.and_false, Bool.false_eq_true, if_false,
    Option.isSome_some, endOfThread, ok_bind, runWrites]

-- In every configuration, whatever thread_log held before: the branch that
-- would hand close_thread_log a NULL stream has a name, and so no NULL stream.
theorem load_thread_returns (th : ThLoader) (self : BitVec 32) (opened : Option Nat) (granted : Bool)
    (note : Option (List UInt8)) (messages : List (List UInt8)) :
    ∃ loaded, loadThread th self opened granted note messages = .ok loaded := by
  by_cases named : threadLogFilename { th with localFile := decide (th.logfile ≠ []) } self ≠ []
  · cases opened with
    | none => exact ⟨_, load_thread_unopened th self granted note messages named⟩
    | some stream => exact ⟨_, load_thread_opened th self stream granted note messages named⟩
  · have apart : th.clubbed = false := by
      by_contra clubbed
      exact named (clubbed_named th self (by simpa using clubbed))
    rw [loadThread]
    simp only [decide_eq_false named, Bool.false_and, Bool.false_eq_true, if_false]
    cases stale : th.threadLog with
    | none => simp [endOfThread, apart]
    | some stream => simp [endOfThread]

theorem opened_pushes_nothing (messages : List (List UInt8)) (stream : Nat) (note : Option (List UInt8))
    (message : List UInt8) :
    Event.pushMessage message ∉ messages.map (fun _ => Event.stdio .fprintf stream) ++
      [.slogMessage LOG_INFO TAG (ascii "End of thread %s ") note, .stdio .fclose stream] := by
  intro member
  rcases List.mem_append.mp member with written | closing
  · obtain ⟨_, _, same⟩ := List.mem_map.mp written
    cases same
  · simp at closing

theorem load_thread_hands_exact (th : ThLoader) (self : BitVec 32) (opened : Option Nat) (granted : Bool)
    (note : Option (List UInt8)) (messages : List (List UInt8)) (clubbed : th.clubbed = true)
    (_empty : th.logfile = []) :
    (∃ loaded, loadThread th self opened granted note messages = .ok loaded) ∧
      (HandsLog th self opened granted note messages ↔ opened = none ∨ messages.flatten = []) := by
  have named := clubbed_named th self clubbed
  constructor
  · exact load_thread_returns th self opened granted note messages
  · constructor
    · intro hands
      obtain ⟨loaded, ran, handed⟩ := hands
      cases opened with
      | none => exact .inl rfl
      | some stream =>
          rw [load_thread_opened th self stream granted note messages named] at ran
          cases ran
          right
          by_contra logged
          obtain ⟨newlines, member⟩ := handed logged
          exact opened_pushes_nothing messages stream note _ member
    · intro nothing
      cases opened with
      | none => exact ⟨_, load_thread_unopened th self granted note messages named, fun logged => absurd rfl logged⟩
      | some stream =>
          have silent : messages.flatten = [] := nothing.resolve_left (by simp)
          exact ⟨_, load_thread_opened th self stream granted note messages named, fun logged => absurd silent logged⟩

def mainLoader : ThLoader := ⟨true, ascii "/tmp/", [], false, none⟩

theorem two_messages_not_handed :
    (∃ loaded, loadThread mainLoader 7 (some 3) true (some [66]) [[97], [98]] = .ok loaded) ∧
      ¬HandsLog mainLoader 7 (some 3) true (some [66]) [[97], [98]] := by
  obtain ⟨returns, hands⟩ := load_thread_hands_exact mainLoader 7 (some 3) true (some [66]) [[97], [98]] rfl rfl
  refine ⟨returns, fun handed => ?_⟩
  rcases hands.mp handed with unopened | silent
  · cases unopened
  · exact absurd silent (by decide)

-- One byte in /tmp/thread7.log, and no message in the queue but the one about
-- the end.
theorem thread_log_not_handed :
    ¬∀ (th : ThLoader) (self : BitVec 32) (opened : Option Nat) (granted : Bool) (note : Option (List UInt8))
      (messages : List (List UInt8)),
      th.clubbed = true → th.logfile = [] → HandsLog th self opened granted note messages := by
  intro hands
  obtain ⟨loaded, ran, handed⟩ := hands mainLoader 7 (some 3) true (some [97]) [[97]] rfl rfl
  rw [load_thread_opened mainLoader 7 3 true (some [97]) [[97]] (clubbed_named mainLoader 7 rfl)] at ran
  cases ran
  obtain ⟨newlines, member⟩ := handed (by decide)
  exact opened_pushes_nothing [[97]] 3 (some [97]) _ member

end Slogger.Threadload
