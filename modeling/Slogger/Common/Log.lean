import Mathlib.Data.List.Basic

set_option autoImplicit false

namespace Slogger.Common

def LOG_ERR : Int := 0
def LOG_INFO : Int := 2
def LOG_DEBUG : Int := 3

inductive LogType where
  | adbshell
  | logcat
  | serial
deriving DecidableEq

structure Config where
  consoleLoglevel : Int
  logType : LogType

-- The clock in microseconds when a call starts, at its time and gettimeofday,
-- and when it ends.
structure Readings where
  start : Nat
  now : Nat
  tv : Nat
  finish : Nat
  ordered : start ≤ now ∧ now ≤ tv ∧ tv ≤ finish

structure Stamp where
  sec : Nat
  msec : Nat
deriving DecidableEq

def stampOf (readings : Readings) : Stamp where
  sec := readings.now / 1000000
  msec := readings.tv % 1000000 / 1000

inductive Sink where
  | console
  | file (fp : Nat)
  | queue
deriving DecidableEq

structure Line where
  sink : Sink
  stamp : Stamp
  text : List UInt8

def ascii (text : String) : List UInt8 := text.toList.map fun letter => UInt8.ofNat letter.toNat

def threeDigits (number : Nat) : List UInt8 :=
  [number / 100, number / 10 % 10, number % 10].map fun digit => UInt8.ofNat (48 + digit)

def levelName (logLvl : Int) : List UInt8 :=
  if logLvl = LOG_INFO then ascii "  INFO "
  else if logLvl = LOG_ERR then ascii " ERROR "
  else if logLvl = LOG_DEBUG then ascii " DEBUG "
  else ascii "  WARN "

def levelColor (logLvl : Int) : List UInt8 :=
  if logLvl = LOG_INFO then ascii "\x1b[34m"
  else if logLvl = LOG_ERR then ascii "\x1b[31m"
  else if logLvl = LOG_DEBUG then ascii "\x1b[33m"
  else ascii "\x1b[32m"

structure Message where
  logLvl : Int
  tag : List UInt8
  text : List UInt8
  readings : Readings

section Calls

-- localtime and strftime with "%b-%d %H:%M:%S".
variable (strftime : Nat → List UInt8)

def heading (message : Message) : List UInt8 :=
  strftime (stampOf message.readings).sec ++ ascii "." ++ threeDigits (stampOf message.readings).msec ++
    levelName message.logLvl ++ message.tag

-- switch(log_type): outside Android the case of logcat is empty and falls
-- through to that of adbshell.
def consoleLines (logType : LogType) (message : Message) : List Line :=
  match logType with
  | .logcat | .adbshell =>
      [⟨.console, stampOf message.readings,
        levelColor message.logLvl ++ heading strftime message ++ ascii ": " ++ message.text ++ ascii "\x1b[0m\n"⟩]
  | .serial => []

def record (message : Message) : List UInt8 :=
  heading strftime message ++ ascii ":  " ++ message.text ++ ascii "\n"

def logMessage (config : Config) (fp : Option Nat) (message : Message) : List Line :=
  if message.logLvl ≤ config.consoleLoglevel then
    consoleLines strftime config.logType message ++
      match fp with
      | some fp => [⟨.file fp, stampOf message.readings, record strftime message⟩]
      | none => []
  else []

-- store is whether malloc(2048) gave the buffer of the record.
def slogMessage (config : Config) (store : Bool) (message : Message) : List Line :=
  if message.logLvl ≤ config.consoleLoglevel then
    consoleLines strftime config.logType message ++
      if store then [⟨.queue, stampOf message.readings, record strftime message⟩] else []
  else []

inductive Call where
  | logMessage (config : Config) (fp : Option Nat) (message : Message)
  | slogMessage (config : Config) (store : Bool) (message : Message)

def Call.readings : Call → Readings
  | .logMessage _ _ message | .slogMessage _ _ message => message.readings

def Call.lines : Call → List Line
  | .logMessage config fp message => Common.logMessage strftime config fp message
  | .slogMessage config store message => Common.slogMessage strftime config store message

end Calls

def Stamp.Le (stamp other : Stamp) : Prop := stamp.sec < other.sec ∨ stamp.sec = other.sec ∧ stamp.msec ≤ other.msec

def Stamp.millis (stamp : Stamp) : Nat := stamp.sec * 1000 + stamp.msec

def stamps (strftime : Nat → List UInt8) (calls : List Call) : List Stamp :=
  (calls.flatMap (Call.lines strftime)).map Line.stamp

-- The stamps of the messages are in order, and each is an instant of its call.
def StampsFollow (strftime : Nat → List UInt8) (calls : List Call) : Prop :=
  (stamps strftime calls).Pairwise Stamp.Le ∧
    ∀ call ∈ calls, ∀ line ∈ call.lines strftime,
      call.readings.start / 1000 ≤ line.stamp.millis ∧ line.stamp.millis ≤ call.readings.finish / 1000

def InTurn (calls : List Call) : Prop :=
  calls.Pairwise fun call later => call.readings.finish ≤ later.readings.start

-- No second begins between time and gettimeofday, or the call had already seen
-- an earlier one, or the milliseconds have caught up again.
def Straight (readings : Readings) : Prop :=
  readings.start / 1000000 < readings.now / 1000000 ∨
    readings.start % 1000000 / 1000 ≤ readings.tv % 1000000 / 1000

theorem stamp_le_iff (readings later : Readings) :
    (stampOf readings).Le (stampOf later) ↔ (stampOf readings).millis ≤ (stampOf later).millis := by
  simp only [Stamp.Le, Stamp.millis, stampOf]
  omega

theorem stamp_finish (readings : Readings) : (stampOf readings).millis ≤ readings.finish / 1000 := by
  have ordered := readings.ordered
  simp only [Stamp.millis, stampOf]
  omega

theorem stamp_start (readings : Readings) :
    readings.start / 1000 ≤ (stampOf readings).millis ↔ Straight readings := by
  have ordered := readings.ordered
  simp only [Stamp.millis, stampOf, Straight]
  omega

theorem console_stamp (strftime : Nat → List UInt8) (logType : LogType) (message : Message) (line : Line)
    (member : line ∈ consoleLines strftime logType message) : line.stamp = stampOf message.readings := by
  cases logType with
  | adbshell | logcat =>
      obtain rfl := List.mem_singleton.mp member
      rfl
  | serial => cases member

theorem line_stamp (strftime : Nat → List UInt8) (call : Call) (line : Line) (member : line ∈ call.lines strftime) :
    line.stamp = stampOf call.readings := by
  cases call with
  | logMessage config fp message =>
      simp only [Call.lines, logMessage] at member
      split at member
      · rcases List.mem_append.mp member with shown | filed
        · exact console_stamp strftime config.logType message line shown
        · cases fp with
          | none => cases filed
          | some fp =>
              obtain rfl := List.mem_singleton.mp filed
              rfl
      · cases member
  | slogMessage config store message =>
      simp only [Call.lines, slogMessage] at member
      split at member
      · rcases List.mem_append.mp member with shown | pushed
        · exact console_stamp strftime config.logType message line shown
        · split at pushed
          · obtain rfl := List.mem_singleton.mp pushed
            rfl
          · cases pushed
      · cases member

theorem line_start (strftime : Nat → List UInt8) (call : Call) (line : Line) (member : line ∈ call.lines strftime) :
    call.readings.start / 1000 ≤ line.stamp.millis ↔ Straight call.readings := by
  rw [line_stamp strftime call line member]
  exact stamp_start call.readings

theorem line_finish (strftime : Nat → List UInt8) (call : Call) (line : Line) (member : line ∈ call.lines strftime) :
    line.stamp.millis ≤ call.readings.finish / 1000 := by
  rw [line_stamp strftime call line member]
  exact stamp_finish call.readings

theorem line_le_iff (strftime : Nat → List UInt8) (call later : Call) (line other : Line)
    (member : line ∈ call.lines strftime) (outside : other ∈ later.lines strftime) :
    line.stamp.Le other.stamp ↔ line.stamp.millis ≤ other.stamp.millis := by
  rw [line_stamp strftime call line member, line_stamp strftime later other outside]
  exact stamp_le_iff call.readings later.readings

-- Within a call all lines carry one stamp; between two calls stands the end of
-- the first.
theorem straight_stamps_ordered (strftime : Nat → List UInt8) (calls : List Call) (inTurn : InTurn calls)
    (straight : ∀ call ∈ calls, call.lines strftime ≠ [] → Straight call.readings) :
    (stamps strftime calls).Pairwise Stamp.Le := by
  rw [stamps, List.pairwise_map, List.pairwise_flatMap]
  constructor
  · intro call _
    refine List.pairwise_of_forall_mem_list fun line inside other there => ?_
    have same : line.stamp = other.stamp :=
      (line_stamp strftime call line inside).trans (line_stamp strftime call other there).symm
    exact (line_le_iff strftime call call line other inside there).mpr (Nat.le_of_eq (congrArg Stamp.millis same))
  · refine inTurn.imp_of_mem fun {call later} member there turn line inside other outside => ?_
    have early := (line_start strftime later other outside).mpr (straight later there (List.ne_nil_of_mem outside))
    have late := line_finish strftime call line inside
    have between : call.readings.finish / 1000 ≤ later.readings.start / 1000 := Nat.div_le_div_right turn
    rw [line_le_iff strftime call later line other inside outside]
    omega

theorem stamps_follow_exact (strftime : Nat → List UInt8) (calls : List Call) (inTurn : InTurn calls) :
    StampsFollow strftime calls ↔ ∀ call ∈ calls, call.lines strftime ≠ [] → Straight call.readings := by
  constructor
  · intro follow call member some
    obtain ⟨line, rest, lines⟩ := List.exists_cons_of_ne_nil some
    have first : line ∈ call.lines strftime := by
      rw [lines]
      exact List.mem_cons_self
    exact (line_start strftime call line first).mp (follow.2 call member line first).1
  · intro straight
    constructor
    · exact straight_stamps_ordered strftime calls inTurn straight
    · intro call member line inside
      have begun := straight call member (List.ne_nil_of_mem inside)
      exact ⟨(line_start strftime call line inside).mpr begun, line_finish strftime call line inside⟩

def infoCall (start now tv finish : Nat) (ordered : start ≤ now ∧ now ≤ tv ∧ tv ≤ finish) : Call :=
  .slogMessage ⟨LOG_INFO, .adbshell⟩ true ⟨LOG_INFO, [], [], ⟨start, now, tv, finish, ordered⟩⟩

theorem quick_calls_follow :
    StampsFollow (fun _ => [])
      [infoCall 1500000 1500100 1500200 1500300 (by decide), infoCall 1999999 2000000 2000001 2000002 (by decide)] :=
  (stamps_follow_exact (fun _ => [])
    [infoCall 1500000 1500100 1500200 1500300 (by decide), infoCall 1999999 2000000 2000001 2000002 (by decide)]
    (by simp [InTurn, infoCall, Call.readings])).mpr (by simp [infoCall, Call.readings, Straight])

-- The second call reads the time before a second begins and the microseconds
-- after it: its stamp is half a second older than that of the call before it.
theorem stamp_goes_back :
    ¬∀ (strftime : Nat → List UInt8) (calls : List Call), InTurn calls → StampsFollow strftime calls := by
  intro follow
  have order := (follow (fun _ => [])
    [infoCall 1500000 1500100 1500200 1500300 (by decide), infoCall 1999998 1999999 2000000 2000001 (by decide)]
    (by simp [InTurn, infoCall, Call.readings])).1
  simp [stamps, infoCall, Call.lines, slogMessage, consoleLines, stampOf, Stamp.Le, LOG_INFO] at order

end Slogger.Common
