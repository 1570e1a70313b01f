import Mathlib.Algebra.Group.Nat.Defs
import Slogger.Lib.Files
import Slogger.Threadload.Load

set_option autoImplicit false

namespace Slogger.Threadload

open Slogger.Common Slogger.Lib

def clubbedLoader (logPath : List UInt8) : ThLoader where
  clubbed := true
  logPath := logPath
  logfile := []
  localFile := false
  threadLog := none

-- (int) pthread_self() keeps the low half of the id.
def clubbedLog (logPath : List UInt8) (self : BitVec 64) : List UInt8 :=
  threadLogFilename (clubbedLoader logPath) (self.setWidth 32)

theorem ascii_back (text : String) (plain : ∀ letter ∈ text.toList, letter.toNat < 256) :
    (ascii text).map (fun byte => Char.ofNat byte.toNat) = text.toList := by
  rw [ascii, List.map_map]
  refine (List.map_congr_left fun letter member => ?_).trans (List.map_id _)
  have small := plain letter member
  simp only [Function.comp_apply, UInt8.toNat_ofNat', id_eq]
  rw [Nat.mod_eq_of_lt small, Char.ofNat_toNat]

theorem digit_plain (number : Nat) (letter : Char) (member : letter ∈ number.repr.toList) :
    letter.isDigit = true ∧ letter.toNat < 256 := by
  rw [Nat.toList_repr] at member
  have digit := Nat.isDigit_of_mem_toDigits (by decide) (by decide) member
  refine ⟨digit, ?_⟩
  simp only [Char.isDigit, Bool.and_eq_true, decide_eq_true_eq] at digit
  have most : letter.val.toNat ≤ 57 := digit.2
  exact Nat.lt_of_le_of_lt most (by decide)

theorem decimal_letters (number : Int) :
    number.repr.toList = (if number < 0 then ['-'] else []) ++ number.natAbs.repr.toList := by
  rw [Int.repr_eq_if]
  by_cases positive : 0 ≤ number
  · have size : number.toNat = number.natAbs := by omega
    rw [if_pos positive, if_neg (Int.not_lt.mpr positive), List.nil_append, size]
  · have size : (-number).toNat = number.natAbs := by omega
    rw [if_neg positive, if_pos (Int.not_le.mp positive), String.toList_append, size]
    rfl

theorem decimal_plain (number : Int) (letter : Char) (member : letter ∈ number.repr.toList) : letter.toNat < 256 := by
  rw [decimal_letters, List.mem_append] at member
  rcases member with sign | digit
  · split at sign
    · rw [List.mem_singleton.mp sign]
      decide
    · cases sign
  · exact (digit_plain _ letter digit).2

theorem digits_inj (first second : Nat) (same : first.repr.toList = second.repr.toList) : first = second := by
  rw [Nat.toList_repr, Nat.toList_repr] at same
  have back := congrArg (fun letters => Nat.ofDigitChars 10 letters 0) same
  simpa using back

theorem sign_no_digit (first second : Nat) : '-' :: first.repr.toList ≠ second.repr.toList := by
  intro same
  have digit := (digit_plain second '-' (same ▸ List.mem_cons_self)).1
  exact absurd digit (by decide)

theorem decimal_inj (first second : Int) : ascii (toString first) = ascii (toString second) ↔ first = second := by
  refine ⟨fun same => ?_, fun same => by rw [same]⟩
  rw [Int.toString_eq_repr, Int.toString_eq_repr] at same
  have letters := congrArg (List.map fun byte => Char.ofNat byte.toNat) same
  rw [ascii_back _ (decimal_plain first), ascii_back _ (decimal_plain second), decimal_letters, decimal_letters] at letters
  by_cases below : first < 0 <;> by_cases also : second < 0 <;> simp only [below, also, if_true, if_false] at letters
  · have digits := digits_inj _ _ (List.append_cancel_left letters)
    omega
  · exact absurd letters (sign_no_digit _ _)
  · exact absurd letters.symm (sign_no_digit _ _)
  · have digits := digits_inj _ _ letters
    omega

theorem clubbed_log_inj (logPath : List UInt8) (first second : BitVec 64) :
    clubbedLog logPath first = clubbedLog logPath second ↔ first.toNat % 2 ^ 32 = second.toNat % 2 ^ 32 := by
  have named : ∀ self, clubbedLog logPath self =
      logPath ++ ascii "thread" ++ ascii (toString (self.setWidth 32).toInt) ++ ascii ".log" := fun _ => rfl
  rw [named, named, List.append_left_inj, List.append_right_inj, decimal_inj, BitVec.toInt_inj, ← BitVec.toNat_inj,
    BitVec.toNat_setWidth, BitVec.toNat_setWidth]

-- Every clubbed thread finds in its file what it has logged, in every
-- interleaving, exactly if no two threads, one that ended earlier included, have
-- ids with the same low half.
theorem clubbed_logs_apart_iff {Thread : Type} [DecidableEq Thread] (logPath : List UInt8) (self : Thread → BitVec 64)
    (content : List UInt8 → List UInt8) :
    (∀ (labels : List (FileLabel Thread)) files,
      labels.foldlM (fileStep fun thread => clubbedLog logPath (self thread)) (Files.initial content) = some files →
        OwnContents (fun thread => clubbedLog logPath (self thread)) files) ↔
      ∀ first second, (self first).toNat % 2 ^ 32 = (self second).toNat % 2 ^ 32 → first = second := by
  rw [own_contents_iff]
  exact forall₂_congr fun first second => imp_congr_left (clubbed_log_inj logPath (self first) (self second))

end Slogger.Threadload
