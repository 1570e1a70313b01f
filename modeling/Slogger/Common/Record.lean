import Slogger.Common.Log
import Slogger.Lib.Buffer
import Slogger.Lib.Text
import Slogger.Logger.Queue
import Slogger.Playlist.Node

set_option autoImplicit false

namespace Slogger.Common

open Slogger.Lib Slogger.Logger
open Slogger.Playlist (strlen)

def storeSize : Nat := 2048

-- sprintf(&store[ncount], ..) of a format that expands to text, and ncount plus
-- what it returns.
def sprintf (store : List UInt8) (ncount : Nat) (text : List UInt8) : Except Fault (List UInt8 × Nat) := do
  let store ← put store ncount (text ++ [0])
  .ok (store, ncount + text.length)

theorem strlen_le (store : List UInt8) : strlen store ≤ store.length := (List.takeWhile_prefix _).length_le

def pushStore (store : List UInt8) : QueueData := ⟨store, strlen store, strlen_le store⟩

def formatRecord (strftime : Nat → List UInt8) (message : Message) (store : List UInt8) : Except Fault (List UInt8) := do
  let (store, ncount) ← sprintf store 0 (heading strftime message ++ ascii ":  ")
  let (store, ncount) ← sprintf store ncount message.text
  let (store, _) ← sprintf store ncount (ascii "\n")
  .ok store

-- What slog_message hands to pushMessage; malloc's answer is a buffer with
-- anything in it, or NULL.
def slogMessagePushes (strftime : Nat → List UInt8) (config : Config) (store : Option (Cells UInt8 storeSize))
    (message : Message) : Except Fault (Option QueueData) :=
  if message.logLvl ≤ config.consoleLoglevel then
    match store with
    | none => .ok none
    | some store => do
        let text ← formatRecord strftime message store.values
        .ok (some (pushStore text))
  else .ok none

-- The record stays in the buffer, and what goes to the queue is all of it, or
-- all that fits with a NUL behind it.
def ReachesQueue (strftime : Nat → List UInt8) (config : Config) (store : Option (Cells UInt8 storeSize))
    (message : Message) : Prop :=
  ∃ pushed, slogMessagePushes strftime config store message = .ok pushed ∧
    ∀ data, pushed = some data →
      data.message = (record strftime message).take (storeSize - 1) ∧ data.size = data.message.length

-- The NUL of one call is where the next one begins.
theorem sprintf_fits (front tail text : List UInt8) (fits : text.length < tail.length) :
    ∃ rest, sprintf (front ++ tail) front.length text =
        .ok ((front ++ text) ++ 0 :: rest, (front ++ text).length) ∧
      (0 :: rest).length + text.length = tail.length := by
  have room : (text ++ [0]).length ≤ tail.length := by
    rw [List.length_append]
    exact fits
  refine ⟨tail.drop (text.length + 1), ?_, ?_⟩
  · rw [sprintf, put_fits front tail (text ++ [0]) room, ok_bind, overlay]
    simp
  · rw [List.length_cons, List.length_drop]
    omega

theorem sprintf_outside (front tail text : List UInt8) (long : tail.length ≤ text.length) :
    sprintf (front ++ tail) front.length text = .error .outside := by
  have wide : tail.length < (text ++ [0]).length := by
    rw [List.length_append]
    exact Nat.lt_succ_of_le long
  rw [sprintf, put_outside front tail (text ++ [0]) wide, error_bind]

theorem format_fits (strftime : Nat → List UInt8) (message : Message) (store : List UInt8)
    (fits : (record strftime message).length < store.length) :
    ∃ rest, formatRecord strftime message store = .ok (record strftime message ++ 0 :: rest) := by
  rw [record] at fits ⊢
  rw [formatRecord]
  generalize heading strftime message ++ ascii ":  " = head at fits ⊢
  rw [List.length_append, List.length_append] at fits
  obtain ⟨second, begun, firstSize⟩ := sprintf_fits [] store head (by omega)
  obtain ⟨third, told, secondSize⟩ := sprintf_fits head (0 :: second) message.text (by omega)
  obtain ⟨rest, ended, _⟩ := sprintf_fits (head ++ message.text) (0 :: third) (ascii "\n") (by omega)
  refine ⟨rest, ?_⟩
  rw [List.nil_append, List.nil_append, List.length_nil] at begun
  simp only [begun, told, ended, ok_bind]

theorem format_outside (strftime : Nat → List UInt8) (message : Message) (store : List UInt8)
    (long : store.length ≤ (record strftime message).length) :
    formatRecord strftime message store = .error .outside := by
  rw [record] at long
  rw [formatRecord]
  generalize heading strftime message ++ ascii ":  " = head at long ⊢
  rw [List.length_append, List.length_append] at long
  by_cases begins : head.length < store.length
  · obtain ⟨second, begun, firstSize⟩ := sprintf_fits [] store head begins
    rw [List.nil_append, List.nil_append, List.length_nil] at begun
    simp only [begun, ok_bind]
    by_cases tells : message.text.length < (0 :: second).length
    · obtain ⟨third, told, secondSize⟩ := sprintf_fits head (0 :: second) message.text tells
      simp only [told, ok_bind]
      have beyond := sprintf_outside (head ++ message.text) (0 :: third) (ascii "\n") (by omega)
      rw [beyond, error_bind]
    · rw [sprintf_outside head (0 :: second) message.text (Nat.le_of_not_lt tells), error_bind]
  · have beyond := sprintf_outside [] store head (Nat.le_of_not_lt begins)
    rw [List.nil_append, List.length_nil] at beyond
    rw [beyond, error_bind]

theorem push_store_message (store : List UInt8) :
    (pushStore store).message = store.takeWhile fun byte => byte != 0 :=
  (List.prefix_iff_eq_take.mp (List.takeWhile_prefix _)).symm

theorem push_store_size (store : List UInt8) : (pushStore store).size = (pushStore store).message.length := by
  rw [push_store_message]
  rfl

theorem pushes_stored (strftime : Nat → List UInt8) (config : Config) (store : Cells UInt8 storeSize)
    (message : Message) (shown : message.logLvl ≤ config.consoleLoglevel) :
    slogMessagePushes strftime config (some store) message = (do
      let text ← formatRecord strftime message store.values
      .ok (some (pushStore text))) := by
  simp only [slogMessagePushes, if_pos shown]

theorem record_stored (strftime : Nat → List UInt8) (config : Config) (store : Cells UInt8 storeSize)
    (message : Message) (shown : message.logLvl ≤ config.consoleLoglevel)
    (fits : (record strftime message).length < storeSize) :
    ∃ rest, slogMessagePushes strftime config (some store) message =
      .ok (some (pushStore (record strftime message ++ 0 :: rest))) := by
  obtain ⟨rest, ran⟩ := format_fits strftime message store.values (by rwa [store.sized])
  refine ⟨rest, ?_⟩
  rw [pushes_stored strftime config store message shown, ran, ok_bind]

theorem record_outside (strftime : Nat → List UInt8) (config : Config) (store : Cells UInt8 storeSize)
    (message : Message) (shown : message.logLvl ≤ config.consoleLoglevel)
    (long : storeSize ≤ (record strftime message).length) :
    slogMessagePushes strftime config (some store) message = .error .outside := by
  rw [pushes_stored strftime config store message shown,
    format_outside strftime message store.values (by rwa [store.sized]), error_bind]

theorem stored_message_iff (text rest : List UInt8) :
    (pushStore (text ++ 0 :: rest)).message = text ↔ (0 : UInt8) ∉ text := by
  rw [push_store_message, take_until_exact 0 text (0 :: rest) (by simp)]
  simp

theorem stored_reaches_iff (strftime : Nat → List UInt8) (config : Config) (store : Cells UInt8 storeSize)
    (message : Message) (shown : message.logLvl ≤ config.consoleLoglevel) :
    ReachesQueue strftime config (some store) message ↔
      (record strftime message).length < storeSize ∧ (0 : UInt8) ∉ record strftime message := by
  by_cases fits : (record strftime message).length < storeSize
  · have whole : (record strftime message).take (storeSize - 1) = record strftime message :=
      List.take_of_length_le (Nat.le_pred_of_lt fits)
    obtain ⟨rest, ran⟩ := record_stored strftime config store message shown fits
    have kept := stored_message_iff (record strftime message) rest
    constructor
    · intro reaches
      obtain ⟨pushed, also, holds⟩ := reaches
      obtain rfl := Except.ok.inj (ran.symm.trans also)
      have same := (holds _ rfl).1
      rw [whole] at same
      exact ⟨fits, kept.mp same⟩
    · intro both
      refine ⟨_, ran, fun data given => ?_⟩
      obtain rfl := Option.some.inj given
      rw [whole]
      exact ⟨kept.mpr both.2, push_store_size _⟩
  · constructor
    · intro reaches
      obtain ⟨pushed, ran, _⟩ := reaches
      rw [record_outside strftime config store message shown (Nat.le_of_not_lt fits)] at ran
      cases ran
    · intro both
      exact absurd both.1 fits

theorem record_reaches_exact (strftime : Nat → List UInt8) (config : Config) (store : Option (Cells UInt8 storeSize))
    (message : Message) :
    ReachesQueue strftime config store message ↔
      config.consoleLoglevel < message.logLvl ∨ store = none ∨
        (record strftime message).length < storeSize ∧ (0 : UInt8) ∉ record strftime message := by
  by_cases shown : message.logLvl ≤ config.consoleLoglevel
  · have notHidden : ¬config.consoleLoglevel < message.logLvl := Int.not_lt.mpr shown
    cases store with
    | none =>
        have ran : slogMessagePushes strftime config none message = .ok none := by
          simp only [slogMessagePushes, if_pos shown]
        simp [ReachesQueue, ran]
    | some store => simp [stored_reaches_iff strftime config store message shown, notHidden]
  · have ran : slogMessagePushes strftime config store message = .ok none := by
      simp only [slogMessagePushes, if_neg shown]
    simp [ReachesQueue, ran, Int.not_le.mp shown]

-- A text of 2048 bytes leaves no place for anything else.
theorem long_record_outside :
    ¬∀ (strftime : Nat → List UInt8) (config : Config) (store : Option (Cells UInt8 storeSize)) (message : Message),
      ReachesQueue strftime config store message := by
  intro reaches
  let zeros : Cells UInt8 storeSize := .replicate storeSize 0
  let message : Message :=
    ⟨LOG_INFO, [], List.replicate storeSize 97, ⟨0, 0, 0, 0, Nat.le_refl 0, Nat.le_refl 0, Nat.le_refl 0⟩⟩
  obtain ⟨pushed, ran, _⟩ := reaches (fun _ => []) ⟨LOG_INFO, .adbshell⟩ (some zeros) message
  have long : storeSize ≤ (record (fun _ => []) message).length := by
    simp [record, message]
    omega
  rw [record_outside (fun _ => []) ⟨LOG_INFO, .adbshell⟩ zeros message (Int.le_refl LOG_INFO) long] at ran
  cases ran

theorem queue_line_pushed (strftime : Nat → List UInt8) (config : Config) (store : Cells UInt8 storeSize)
    (message : Message) (shown : message.logLvl ≤ config.consoleLoglevel)
    (fits : (record strftime message).length < storeSize) (clean : (0 : UInt8) ∉ record strftime message) :
    ∃ data, slogMessagePushes strftime config (some store) message = .ok (some data) ∧
      ⟨.queue, stampOf message.readings, data.message⟩ ∈ slogMessage strftime config true message := by
  obtain ⟨rest, ran⟩ := record_stored strftime config store message shown fits
  refine ⟨_, ran, ?_⟩
  rw [(stored_message_iff _ rest).mpr clean, slogMessage, if_pos shown, if_pos rfl]
  exact List.mem_append_right _ List.mem_cons_self

end Slogger.Common
