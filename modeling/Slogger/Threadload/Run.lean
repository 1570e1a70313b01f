import Mathlib.Data.Nat.Digits.Defs
import Slogger.Common.Record
import Slogger.Lib.Buffer
import Slogger.Lib.Text
import Slogger.Playlist.Node
import Slogger.Threadload.Load

set_option autoImplicit false

namespace Slogger.Threadload

open Slogger.Lib Slogger.Common
open Slogger.Playlist (cString)

def lineSize : Nat := 40

def intMax : Nat := 2147483647

-- Where a run of thload_run leaves C: setvbuf of a NULL stream, a scan that
-- leaves the array, a count that no int holds.
inductive RunFault where
  | nullDeref
  | outside
  | overflow
deriving DecidableEq

-- One time around the loop: what the file shows at the read, whether malloc
-- serves slog_message, and its clock.
structure Round where
  content : List UInt8
  store : Bool
  readings : Readings

-- The bytes that fread(string, 1, 40, filems) obtains.
def Round.read (round : Round) : List UInt8 := round.content.take lineSize

theorem read_within (round : Round) : round.read.length ≤ lineSize := List.length_take_le lineSize round.content

structure RunState where
  string : Cells UInt8 lineSize
  ncount : Nat

-- "%d %s "
def loadText (ncount : Nat) (shown : List UInt8) : List UInt8 :=
  ascii (toString ncount) ++ ascii " " ++ shown ++ ascii " "

-- The %s of an array without a NUL goes on behind its end.
def expand (ncount : Nat) (string : List UInt8) : Except RunFault (List UInt8) :=
  if 0 ∈ string then .ok (loadText ncount (cString string).bytes) else .error .outside

def increment (ncount : Nat) : Except RunFault Nat :=
  if ncount < intMax then .ok (ncount + 1) else .error .overflow

def formats (config : Config) (store : Bool) : Bool :=
  decide (LOG_INFO ≤ config.consoleLoglevel) && (decide (config.logType ≠ .serial) || store)

section Runs

variable (strftime : Nat → List UInt8) (config : Config)

def logs (text : List UInt8) (round : Round) : List Line :=
  slogMessage strftime config round.store ⟨LOG_INFO, TAG, text, round.readings⟩

def runRound (state : RunState) (round : Round) : Except RunFault (RunState × List Line) := do
  let string := state.string.fill round.read (read_within round)
  let ncount ← increment state.ncount
  let text ← if formats config round.store then expand state.ncount string.values else .ok []
  .ok (⟨string, ncount⟩, logs strftime config text round)

def runRounds : RunState → List Round → Except RunFault (List (List Line))
  | _, [] => .ok []
  | state, round :: rest => do
      let (state, lines) ← runRound strftime config state round
      let later ← runRounds state rest
      .ok (lines :: later)

-- What thload_run logs until keeprunning is cleared; nothing was stored in
-- string before.
def thloadRun (filems : Option Nat) (string : Cells UInt8 lineSize) (rounds : List Round) :
    Except RunFault (List (List Line)) :=
  match filems with
  | none => .error .nullDeref
  | some _ => runRounds strftime config ⟨string, 0⟩ rounds

-- The n-th message is the count and the bytes of the n-th read, whatever
-- becomes of it in slog_message.
def LogsReads (filems : Nat) (string : Cells UInt8 lineSize) (rounds : List Round) : Prop :=
  thloadRun strftime config (some filems) string rounds =
    .ok (rounds.mapIdx fun n round => logs strftime config (loadText n round.read) round)

end Runs

-- A read that holds no NUL, and one behind it: no earlier read put anything
-- else there.
def StandsAlone (string : List UInt8) (earlier : List (List UInt8)) (read : List UInt8) : Prop :=
  (0 : UInt8) ∉ read ∧ lastPut string earlier read.length = some 0

def earlierReads (rounds : List Round) (n : Nat) : List (List UInt8) := ((rounds.take n).map Round.read).reverse

theorem expand_exact (ncount : Nat) (string : List UInt8) (read : List UInt8) :
    expand ncount (overlay string read) = .ok (loadText ncount read) ↔
      (0 : UInt8) ∉ read ∧ string[read.length]? = some 0 := by
  rw [← List.head?_drop, overlay, expand]
  by_cases ends : (0 : UInt8) ∈ read ++ string.drop read.length
  · rw [if_pos ends, ← take_until_exact 0 read (string.drop read.length) ends]
    simp [loadText, cString]
  · rw [if_neg ends]
    constructor
    · intro ran
      cases ran
    · intro both
      exact absurd (List.mem_append_right read (List.mem_of_head? both.2)) ends

theorem logs_silent (strftime : Nat → List UInt8) (config : Config) (text : List UInt8) (round : Round)
    (silent : ¬formats config round.store = true) : logs strftime config text round = [] := by
  rw [formats, Bool.and_eq_true, Bool.or_eq_true, decide_eq_true_eq, decide_eq_true_eq] at silent
  rw [logs, slogMessage]
  by_cases shown : LOG_INFO ≤ config.consoleLoglevel
  · rw [if_pos shown]
    obtain ⟨serial, refused⟩ := not_or.mp (not_and.mp silent shown)
    simp [consoleLines, not_not.mp serial, refused]
  · rw [if_neg shown]

theorem logs_text (strftime : Nat → List UInt8) (config : Config) (text other : List UInt8) (round : Round)
    (speaks : formats config round.store = true) :
    logs strftime config text round = logs strftime config other round ↔ text = other := by
  rw [formats, Bool.and_eq_true, Bool.or_eq_true, decide_eq_true_eq, decide_eq_true_eq] at speaks
  obtain ⟨shown, told⟩ := speaks
  constructor
  · intro same
    rw [logs, logs, slogMessage, slogMessage, if_pos shown, if_pos shown] at same
    cases kind : config.logType with
    | adbshell | logcat =>
        simp only [consoleLines, kind, List.cons_append] at same
        have console := (List.cons.inj same).1
        simpa [heading] using congrArg Line.text console
    | serial =>
        have served : round.store = true := told.resolve_left (not_not.mpr kind)
        simpa [consoleLines, kind, served, record, heading] using same
  · intro same
    rw [same]

def Whole (config : Config) (string : List UInt8) (round : Round) : Prop :=
  formats config round.store = true → (0 : UInt8) ∉ round.read ∧ string[round.read.length]? = some 0

theorem run_round_exact (strftime : Nat → List UInt8) (config : Config) (state next : RunState) (round : Round) :
    runRound strftime config state round = .ok (next, logs strftime config (loadText state.ncount round.read) round) ↔
      state.ncount < intMax ∧ Whole config state.string.values round ∧
        next = ⟨state.string.fill round.read (read_within round), state.ncount + 1⟩ := by
  rw [runRound, increment]
  by_cases counts : state.ncount < intMax
  · rw [if_pos counts, ok_bind]
    by_cases speaks : formats config round.store = true
    · have exactly := expand_exact state.ncount state.string.values round.read
      rw [if_pos speaks, bind_ok_iff]
      constructor
      · intro ran
        obtain ⟨text, expanded, result⟩ := ran
        obtain ⟨after, lines⟩ := Prod.mk.inj (Except.ok.inj result)
        rw [(logs_text strftime config text _ round speaks).mp lines] at expanded
        exact ⟨counts, fun _ => exactly.mp expanded, after.symm⟩
      · intro holds
        exact ⟨_, exactly.mpr (holds.2.1 speaks), by rw [holds.2.2]⟩
    · rw [if_neg speaks, ok_bind]
      simp [logs_silent strftime config _ round speaks, Whole, speaks, counts, eq_comm]
  · rw [if_neg counts, error_bind]
    constructor
    · intro ran
      cases ran
    · intro holds
      exact absurd holds.1 counts

def intended (strftime : Nat → List UInt8) (config : Config) : Nat → List Round → List (List Line)
  | _, [] => []
  | n, round :: rest => logs strftime config (loadText n round.read) round :: intended strftime config (n + 1) rest

theorem intended_indexed (strftime : Nat → List UInt8) (config : Config) (n : Nat) (rounds : List Round) :
    intended strftime config n rounds =
      rounds.mapIdx fun i round => logs strftime config (loadText (n + i) round.read) round := by
  induction rounds generalizing n with
  | nil => rfl
  | cons round rest ih =>
      have shift (i : Nat) : n + 1 + i = n + (i + 1) := by omega
      simp only [intended, ih (n + 1), List.mapIdx_cons, Nat.add_zero, shift]

def AllWhole (config : Config) : List UInt8 → List Round → Prop
  | _, [] => True
  | string, round :: rest => Whole config string round ∧ AllWhole config (overlay string round.read) rest

theorem all_whole_iff (config : Config) (string : List UInt8) (rounds : List Round) :
    AllWhole config string rounds ↔ ∀ n round, rounds[n]? = some round →
      Whole config (((rounds.take n).map Round.read).foldl overlay string) round := by
  induction rounds generalizing string with
  | nil => simp [AllWhole]
  | cons round rest ih =>
      rw [AllWhole, ih (overlay string round.read)]
      constructor
      · intro holds n other found
        cases n with
        | zero =>
            cases found
            exact holds.1
        | succ n => exact holds.2 n other found
      · intro holds
        exact ⟨holds 0 round rfl, fun n other found => holds (n + 1) other found⟩

theorem run_rounds_exact (strftime : Nat → List UInt8) (config : Config) (state : RunState) (rounds : List Round)
    (counted : state.ncount ≤ intMax) :
    runRounds strftime config state rounds = .ok (intended strftime config state.ncount rounds) ↔
      state.ncount + rounds.length ≤ intMax ∧ AllWhole config state.string.values rounds := by
  induction rounds generalizing state with
  | nil => simp [runRounds, intended, AllWhole, counted]
  | cons round rest ih =>
      have later (counts : state.ncount < intMax) :=
        ih ⟨state.string.fill round.read (read_within round), state.ncount + 1⟩ counts
      have size : state.ncount + (round :: rest).length = state.ncount + 1 + rest.length := by
        rw [List.length_cons]
        omega
      rw [runRounds, bind_ok_iff, intended, AllWhole, size]
      constructor
      · intro ran
        obtain ⟨⟨after, lines⟩, first, result⟩ := ran
        obtain ⟨others, ranRest, both⟩ := (bind_ok_iff _ _ _).mp result
        obtain ⟨rfl, rfl⟩ := List.cons.inj (Except.ok.inj both)
        obtain ⟨counts, whole, rfl⟩ := (run_round_exact strftime config state after round).mp first
        obtain ⟨bound, wholes⟩ := (later counts).mp ranRest
        exact ⟨bound, whole, wholes⟩
      · intro holds
        obtain ⟨bound, whole, wholes⟩ := holds
        have counts : state.ncount < intMax := by omega
        have first := (run_round_exact strftime config state _ round).mpr ⟨counts, whole, rfl⟩
        have ranRest := (later counts).mpr ⟨bound, wholes⟩
        exact ⟨_, first, (bind_ok_iff _ _ _).mpr ⟨_, ranRest, rfl⟩⟩

theorem logs_reads_whole (strftime : Nat → List UInt8) (config : Config) (filems : Nat)
    (string : Cells UInt8 lineSize) (rounds : List Round) :
    LogsReads strftime config filems string rounds ↔ rounds.length ≤ intMax ∧ AllWhole config string.values rounds := by
  have exactly := run_rounds_exact strftime config ⟨string, 0⟩ rounds (Nat.zero_le _)
  rw [intended_indexed] at exactly
  simp only [Nat.zero_add] at exactly
  rw [LogsReads, thloadRun, exactly]

theorem all_whole_alone (config : Config) (string : List UInt8) (rounds : List Round) :
    AllWhole config string rounds ↔ ∀ n round, rounds[n]? = some round → formats config round.store = true →
      StandsAlone string (earlierReads rounds n) round.read := by
  rw [all_whole_iff]
  simp only [Whole, StandsAlone, earlierReads, overlays_last_put]

theorem load_messages_exact (strftime : Nat → List UInt8) (config : Config) (filems : Nat)
    (string : Cells UInt8 lineSize) (rounds : List Round) :
    LogsReads strftime config filems string rounds ↔
      rounds.length ≤ intMax ∧ ∀ n round, rounds[n]? = some round → formats config round.store = true →
        StandsAlone string.values (earlierReads rounds n) round.read := by
  rw [logs_reads_whole, all_whole_alone]

theorem earlier_clean (rounds : List Round) (n : Nat) (clean : ∀ round ∈ rounds, (0 : UInt8) ∉ round.read) :
    ∀ read ∈ earlierReads rounds n, (0 : UInt8) ∉ read := by
  intro read member
  obtain ⟨round, taken, rfl⟩ := List.mem_map.mp (List.mem_reverse.mp member)
  exact clean round (List.mem_of_mem_take taken)

theorem earlier_shorter_iff (rounds : List Round) :
    (∀ n round, rounds[n]? = some round → ∀ read ∈ earlierReads rounds n, read.length ≤ round.read.length) ↔
      rounds.Pairwise fun round later => round.read.length ≤ later.read.length := by
  rw [List.pairwise_iff_getElem]
  constructor
  · intro shorter i j early late before
    apply shorter j rounds[j] (List.getElem?_eq_getElem late)
    apply List.mem_reverse.mpr
    apply List.mem_map_of_mem
    exact List.mem_take_iff_getElem.mpr ⟨i, by omega, rfl⟩
  · intro grows n round found read member
    obtain ⟨inside, rfl⟩ := List.getElem?_eq_some_iff.mp found
    obtain ⟨other, taken, rfl⟩ := List.mem_map.mp (List.mem_reverse.mp member)
    obtain ⟨i, before, rfl⟩ := List.mem_take_iff_getElem.mp taken
    exact grows i n (by omega) inside (by omega)

-- A statistics file has no NUL: its reads must not grow shorter, and the array
-- must happen to be zero where they end.
theorem text_reads_logged_iff (strftime : Nat → List UInt8) (config : Config) (filems : Nat)
    (string : Cells UInt8 lineSize) (rounds : List Round) (few : rounds.length ≤ intMax)
    (speaks : ∀ round ∈ rounds, formats config round.store = true)
    (clean : ∀ round ∈ rounds, (0 : UInt8) ∉ round.read) :
    LogsReads strftime config filems string rounds ↔
      rounds.Pairwise (fun round later => round.read.length ≤ later.read.length) ∧
        ∀ round ∈ rounds, string.values[round.read.length]? = some 0 := by
  have alone (n : Nat) (round : Round) (member : round ∈ rounds) :
      StandsAlone string.values (earlierReads rounds n) round.read ↔
        (∀ read ∈ earlierReads rounds n, read.length ≤ round.read.length) ∧
          string.values[round.read.length]? = some 0 := by
    rw [StandsAlone, last_put_stop string.values _ _ 0 (earlier_clean rounds n clean)]
    simp only [clean round member, not_false_eq_true, true_and]
  rw [logs_reads_whole, all_whole_alone, ← earlier_shorter_iff]
  constructor
  · intro holds
    have both (n : Nat) (round : Round) (found : rounds[n]? = some round) :=
      (alone n round (List.mem_of_getElem? found)).mp (holds.2 n round found (speaks round (List.mem_of_getElem? found)))
    constructor
    · exact fun n round found => (both n round found).1
    · intro round member
      obtain ⟨n, found⟩ := List.mem_iff_getElem?.mp member
      exact (both n round found).2
  · intro holds
    refine ⟨few, fun n round found _ => ?_⟩
    have member := List.mem_of_getElem? found
    exact (alone n round member).mpr ⟨holds.1 n round found, holds.2 round member⟩

-- A full array has no NUL: the scan of the format leaves it.
theorem full_read_leaves_array (strftime : Nat → List UInt8) (config : Config) (state : RunState) (round : Round)
    (counts : state.ncount < intMax) (speaks : formats config round.store = true) (full : lineSize ≤ round.content.length)
    (clean : (0 : UInt8) ∉ round.read) : runRound strftime config state round = .error .outside := by
  have size : round.read.length = lineSize := List.length_take_of_le full
  have filled : overlay state.string.values round.read = round.read := by
    rw [overlay, List.drop_eq_nil_of_le (by rw [state.string.sized, size]), List.append_nil]
  have scanned : expand state.ncount (state.string.fill round.read (read_within round)).values = .error .outside := by
    rw [fill_values, filled, expand, if_neg clean]
  rw [runRound, increment, if_pos counts, ok_bind, if_pos speaks, scanned, error_bind]

theorem load_text_length (ncount : Nat) (read : List UInt8) (counts : ncount ≤ intMax) (within : read.length ≤ lineSize) :
    (loadText ncount read).length ≤ 52 := by
  have digits : (ascii (toString ncount)).length ≤ 10 := by
    rw [ascii, List.length_map, String.length_toList]
    exact Nat.repr_length ncount 10 (by decide) (Nat.lt_of_le_of_lt counts (by decide))
  have blank : (ascii " ").length = 1 := rfl
  simp only [loadText, List.length_append, blank, lineSize] at within ⊢
  omega

-- The messages of thload_run never leave the buffer of slog_message, as the
-- timestamp is an array of 80.
theorem load_record_stored (strftime : Nat → List UInt8) (config : Config) (store : Cells UInt8 storeSize)
    (ncount : Nat) (round : Round) (stamped : ∀ sec, (strftime sec).length < 80) (counts : ncount ≤ intMax)
    (shown : LOG_INFO ≤ config.consoleLoglevel) :
    ∃ rest, slogMessagePushes strftime config (some store)
        ⟨LOG_INFO, TAG, loadText ncount round.read, round.readings⟩ =
      .ok (some (pushStore
        (record strftime ⟨LOG_INFO, TAG, loadText ncount round.read, round.readings⟩ ++ 0 :: rest))) := by
  apply record_stored strftime config store _ shown
  have text := load_text_length ncount round.read counts (read_within round)
  have stamp := stamped (stampOf round.readings).sec
  have parts : (ascii ".").length = 1 ∧ (levelName LOG_INFO).length = 7 ∧ TAG.length = 10 ∧
      (ascii ":  ").length = 3 ∧ (ascii "\n").length = 1 := ⟨rfl, rfl, rfl, rfl, rfl⟩
  simp only [record, heading, threeDigits, List.length_append, List.length_map, List.length_cons, List.length_nil,
    parts, storeSize]
  omega

-- Two bytes and then one: the second message still ends with the byte that the
-- first read left behind it.
theorem shorter_read_not_alone :
    ¬∀ (strftime : Nat → List UInt8) (config : Config) (filems : Nat) (string : Cells UInt8 lineSize)
      (rounds : List Round), LogsReads strftime config filems string rounds := by
  intro reads
  let readings : Readings := ⟨0, 0, 0, 0, Nat.le_refl 0, Nat.le_refl 0, Nat.le_refl 0⟩
  have both := reads (fun _ => []) ⟨LOG_INFO, .adbshell⟩ 3 (.replicate lineSize 0) [⟨[49, 50], true, readings⟩, ⟨[51], true, readings⟩]
  rw [logs_reads_whole, all_whole_alone] at both
  have left : lastPut (Cells.replicate lineSize (0 : UInt8)).values [[49, 50]] 1 = some 0 := (both.2 1 _ rfl rfl).2
  exact absurd left (by decide)

end Slogger.Threadload
