import Slogger.Common.Record
import Slogger.Lib.Codes

set_option autoImplicit false

namespace Slogger.Common

open Slogger.Lib
open Slogger.Playlist (newline)

def dot : UInt8 := 46

def tagEnd : List UInt8 := ascii ":  "

structure Fields where
  time : List UInt8
  msec : Nat
  level : List UInt8
  tag : List UInt8
  text : List UInt8
deriving DecidableEq

section Readback

variable (strftime : Nat → List UInt8) (tags : Set (List UInt8))

def fieldsOf (message : Message) : Fields where
  time := strftime (stampOf message.readings).sec
  msec := (stampOf message.readings).msec
  level := levelName message.logLvl
  tag := message.tag
  text := message.text

-- The C locale has neither a dot nor a newline in a month, a day or an hour.
def PlainTime : Prop := ∀ sec, dot ∉ strftime sec ∧ newline ∉ strftime sec

def OneLine (message : Message) : Prop := message.tag ∈ tags ∧ newline ∉ message.text

-- No tag, with what ends it, begins another one.
def TagsApart : Prop := ∀ tag ∈ tags, ∀ other ∈ tags, tag ++ tagEnd <+: other ++ tagEnd → tag = other

-- Of two logs, one that broke off too, the messages of the one are the first of
-- the other exactly when its bytes are.
def LogTells : Prop :=
  ∀ told others : List Message, (∀ message ∈ told, OneLine tags message) → (∀ message ∈ others, OneLine tags message) →
    (told.flatMap (record strftime) <+: others.flatMap (record strftime) ↔
      told.map (fieldsOf strftime) <+: others.map (fieldsOf strftime))

def lineOf (message : Message) : List UInt8 := heading strftime message ++ tagEnd ++ message.text

theorem record_line (message : Message) : record strftime message = lineOf strftime message ++ [newline] := rfl

theorem record_parts (message : Message) : record strftime message =
    (strftime (stampOf message.readings).sec ++ [dot]) ++ (threeDigits (stampOf message.readings).msec ++
      (levelName message.logLvl ++ ((message.tag ++ tagEnd) ++ (message.text ++ [newline])))) := by
  have whole : ascii "." = [dot] := rfl
  have ends : ascii "\n" = [newline] := rfl
  rw [record, heading, whole, ends, tagEnd]
  simp only [List.append_assoc]

theorem level_name_length (logLvl : Int) : (levelName logLvl).length = 7 := by
  rw [levelName]
  split
  · rfl
  · split
    · rfl
    · split <;> rfl

theorem level_name_clean (logLvl : Int) : newline ∉ levelName logLvl := by
  rw [levelName]
  split
  · decide
  · split
    · decide
    · split <;> decide

theorem digit_value (digit : Nat) (small : digit < 10) : (UInt8.ofNat (48 + digit)).toNat = 48 + digit := by
  rw [UInt8.toNat_ofNat']
  omega

theorem three_digits_inj (number other : Nat) (small : number < 1000) (little : other < 1000)
    (same : threeDigits number = threeDigits other) : number = other := by
  simp only [threeDigits, List.map_cons, List.map_nil, List.cons.injEq, and_true] at same
  obtain ⟨hundreds, tens, ones⟩ := same
  have first := congrArg UInt8.toNat hundreds
  have second := congrArg UInt8.toNat tens
  have third := congrArg UInt8.toNat ones
  rw [digit_value _ (by omega), digit_value _ (by omega)] at first second third
  omega

theorem three_digits_clean (number : Nat) (small : number < 1000) : newline ∉ threeDigits number := by
  intro member
  obtain ⟨digit, there, same⟩ := List.mem_map.mp member
  have below : digit < 10 := by
    simp only [List.mem_cons, List.not_mem_nil, or_false] at there
    omega
  have value := digit_value digit below
  rw [same] at value
  have ten : newline.toNat = 10 := rfl
  omega

theorem msec_small (readings : Readings) : (stampOf readings).msec < 1000 := by
  simp only [stampOf]
  omega

theorem line_clean (plain : PlainTime strftime) (oneLine : ∀ tag ∈ tags, newline ∉ tag) (message : Message)
    (held : OneLine tags message) : newline ∉ lineOf strftime message := by
  have digits := three_digits_clean _ (msec_small message.readings)
  have level := level_name_clean message.logLvl
  have stop : newline ∉ ascii "." := by decide
  have ends : newline ∉ tagEnd := by decide
  simp only [lineOf, heading, List.mem_append, not_or]
  exact ⟨⟨⟨⟨⟨⟨(plain _).2, stop⟩, digits⟩, level⟩, oneLine _ held.1⟩, ends⟩, held.2⟩

-- The end of a tag is where a reader finds it for the first time.
theorem tags_apart_free (apart : TagsApart tags) : PrefixFree {word | ∃ tag ∈ tags, word = tag ++ tagEnd} := by
  rintro word ⟨tag, inside, rfl⟩ other ⟨longer, there, rfl⟩ begins
  rw [apart tag inside longer there begins]

theorem record_fields (plain : PlainTime strftime) (apart : TagsApart tags) (first second : Message)
    (held : OneLine tags first) (kept : OneLine tags second)
    (same : record strftime first = record strftime second) : fieldsOf strftime first = fieldsOf strftime second := by
  rw [record_parts, record_parts] at same
  obtain ⟨times, same⟩ := prefix_free_split _ (ended_prefix_free dot) _ _ _ _ ⟨_, (plain _).1, rfl⟩
    ⟨_, (plain _).1, rfl⟩ same
  obtain ⟨digits, same⟩ := List.append_inj same rfl
  obtain ⟨levels, same⟩ := List.append_inj same (by rw [level_name_length, level_name_length])
  obtain ⟨tag, text⟩ := prefix_free_split _ (tags_apart_free tags apart) _ _ _ _ ⟨_, held.1, rfl⟩ ⟨_, kept.1, rfl⟩ same
  have msecs := three_digits_inj _ _ (msec_small first.readings) (msec_small second.readings) digits
  simp only [fieldsOf, Fields.mk.injEq]
  exact ⟨List.append_cancel_right times, msecs, levels, List.append_cancel_right tag, List.append_cancel_right text⟩

theorem fields_record (first second : Message) (same : fieldsOf strftime first = fieldsOf strftime second) :
    record strftime first = record strftime second := by
  simp only [fieldsOf, Fields.mk.injEq] at same
  obtain ⟨times, msecs, levels, tag, text⟩ := same
  rw [record_parts, record_parts, times, msecs, levels, tag, text]

-- Two messages that differ in their tags only so that one record comes out.
theorem records_clash (tag other rest : List UInt8) (readings : Readings) (splits : tag ++ tagEnd ++ rest = other ++ tagEnd) :
    record strftime ⟨LOG_INFO, tag, rest, readings⟩ = record strftime ⟨LOG_INFO, other, [], readings⟩ := by
  rw [record_parts, record_parts, List.nil_append, ← splits]
  simp only [List.append_assoc]

end Readback

-- The log, be it the file of the log system or one that log_message was given,
-- tells its messages exactly when no tag, with what ends it, begins another one.
theorem log_tells_messages_iff (strftime : Nat → List UInt8) (tags : Set (List UInt8)) (plain : PlainTime strftime)
    (oneLine : ∀ tag ∈ tags, newline ∉ tag) : LogTells strftime tags ↔ TagsApart tags := by
  constructor
  · intro tells tag inside other there begins
    obtain ⟨rest, splits⟩ := begins
    have clean : newline ∉ tag ++ tagEnd ++ rest := by
      rw [splits, List.mem_append, not_or]
      exact ⟨oneLine other there, by decide⟩
    have quiet : newline ∉ rest := fun member => clean (List.mem_append_right _ member)
    have readings : Readings := ⟨0, 0, 0, 0, Nat.le_refl 0, Nat.le_refl 0, Nat.le_refl 0⟩
    have clash := records_clash strftime tag other rest readings splits
    have told := tells [⟨LOG_INFO, tag, rest, readings⟩] [⟨LOG_INFO, other, [], readings⟩]
      (by simpa [OneLine] using ⟨inside, quiet⟩) (by simpa [OneLine] using there)
    simp only [List.flatMap_singleton, clash, List.map_singleton] at told
    have same := told.mp List.prefix_rfl
    simp only [fieldsOf, List.cons_prefix_cons, Fields.mk.injEq] at same
    exact same.1.2.2.2.1
  · intro apart told others held kept
    have lines : ∀ messages : List Message, (∀ message ∈ messages, OneLine tags message) →
        ∀ word ∈ messages.map (record strftime), word ∈ {word | ∃ line, newline ∉ line ∧ word = line ++ [newline]} := by
      intro messages all
      rw [List.forall_mem_map]
      intro message member
      exact ⟨lineOf strftime message, line_clean strftime tags plain oneLine message (all message member),
        record_line strftime message⟩
    have nonempty : ([] : List UInt8) ∉ {word | ∃ line, newline ∉ line ∧ word = line ++ [newline]} := by
      simp
    rw [List.flatMap_def, List.flatMap_def, prefix_free_flatten _ (ended_prefix_free newline) nonempty _ _ (lines told held)
      (lines others kept)]
    apply map_prefix_iff
    intro first here second there
    exact ⟨record_fields strftime tags plain apart first second (held first here) (kept second there),
      fields_record strftime first second⟩

def ownTags : List (List UInt8) := [ascii "GPU : Benchmark", ascii "GPU : Load", ascii "TOP "]

theorem own_log_tells : LogTells (fun _ => ascii "Jan-01 00:00:00") {tag | tag ∈ ownTags} := by
  have clean : ∀ tag ∈ ownTags, newline ∉ tag := by decide
  have apart : ∀ tag ∈ ownTags, ∀ other ∈ ownTags, tag ++ tagEnd <+: other ++ tagEnd → tag = other := by decide
  have plain : dot ∉ ascii "Jan-01 00:00:00" ∧ newline ∉ ascii "Jan-01 00:00:00" := by decide
  exact (log_tells_messages_iff _ _ (fun _ => plain) clean).mpr apart

end Slogger.Common
