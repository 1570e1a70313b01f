import Slogger.Lib.Buffer
import Slogger.Threadload.Run

set_option autoImplicit false

namespace Slogger.Threadload

open Slogger.Lib Slogger.Common
open Slogger.Playlist (newline intOfSize int_of_size_small int_of_size_le int_of_size_exact_iff)

-- string[sz-1]= '\n', string[sz-2]= '\n'
def putNewlines (string : List UInt8) (sz : Int) : Except Fault (List UInt8) := do
  let string ← putNewline string (sz - 1)
  putNewline string (sz - 2)

theorem read_fits (content : List UInt8) (count : Nat) : (content.take count).length ≤ content.length + 3 :=
  Nat.le_trans (List.length_take_le' count content) (Nat.le_add_right _ _)

theorem read_size_within (content : List UInt8) (count : Nat) :
    intOfSize (content.take count).length ≤ content.length := by
  have bounded := int_of_size_le (content.take count).length
  have taken := List.length_take_le' count content
  omega

-- close_thread_log with a fread that comes back with count bytes, or with all
-- there are; string is what malloc gave, with anything in it.
def closeThreadLogRead (threadLog : Option Nat) (content : List UInt8)
    (string : Option (Cells UInt8 (content.length + 3))) (count : Nat) : Except Fault (List Event) :=
  match threadLog with
  | none => .error .nullDeref
  | some stream =>
      if content = [] then .ok [.stdio .ftell stream, .stdio .fclose stream]
      else
        match string with
        | none => .ok [.stdio .ftell stream, .stdio .fseek stream, .stdio .fclose stream]
        | some string => do
            let string := string.fill (content.take count) (read_fits content count)
            let sz := intOfSize (content.take count).length
            let text ← putNewlines string.values sz
            .ok [.stdio .ftell stream, .stdio .fseek stream, .stdio .fread stream,
              .pushMessage (text.take sz.toNat), .stdio .fclose stream]

def Event.pushed : Event → Option (List UInt8)
  | .pushMessage message => some message
  | _ => none

def PushesLog (stream : Nat) (content : List UInt8) (string : Option (Cells UInt8 (content.length + 3)))
    (count : Nat) : Prop :=
  ∃ events added, closeThreadLogRead (some stream) content string count = .ok events ∧
    events.filterMap Event.pushed = [content ++ added] ∧ added ≠ [] ∧ ∀ byte ∈ added, byte = newline

def KeepsLog (stream : Nat) (content : List UInt8) (string : Option (Cells UInt8 (content.length + 3)))
    (count : Nat) : Prop :=
  ∃ events, closeThreadLogRead (some stream) content string count = .ok events ∧
    events.filterMap Event.pushed = [content]

theorem put_newlines_short (string : List UInt8) (sz : Int) (short : sz < 2) :
    putNewlines string sz = .error .outside := by
  have second : ¬(0 ≤ sz - 2 ∧ sz - 2 < string.length) := by omega
  rw [putNewlines, putNewline]
  by_cases first : 0 ≤ sz - 1 ∧ sz - 1 < string.length
  · rw [if_pos first, ok_bind, putNewline, List.length_set, if_neg second]
  · rw [if_neg first, error_bind]

theorem put_newlines_fits (string : List UInt8) (sz : Int) (long : 2 ≤ sz) (within : sz ≤ string.length) :
    putNewlines string sz = .ok ((string.set (sz - 1).toNat newline).set (sz - 2).toNat newline) := by
  have last : 0 ≤ sz - 1 ∧ sz - 1 < string.length := by omega
  have before : 0 ≤ sz - 2 ∧ sz - 2 < string.length := by omega
  rw [putNewlines, putNewline, if_pos last, ok_bind, putNewline, List.length_set, if_pos before]
  rfl

theorem put_newlines_last (front behind : List UInt8) (first second : UInt8) :
    putNewlines (front ++ [first, second] ++ behind) (front.length + 2) =
      .ok (front ++ [newline, newline] ++ behind) := by
  have within : (front.length + 2 : Int) ≤ (front ++ [first, second] ++ behind).length := by
    rw [List.length_append, List.length_append, List.length_cons, List.length_singleton]
    omega
  have last : ((front.length : Int) + 2 - 1).toNat = front.length + 1 := by omega
  have before : ((front.length : Int) + 2 - 2).toNat = front.length := by omega
  rw [put_newlines_fits _ _ (by omega) within, last, before]
  simp

theorem newlines_fit (content : List UInt8) (string : Cells UInt8 (content.length + 3)) (count : Nat)
    (long : 2 ≤ intOfSize (content.take count).length) :
    ∃ text, putNewlines (string.fill (content.take count) (read_fits content count)).values
        (intOfSize (content.take count).length) = .ok text ∧ text.length = content.length + 3 := by
  have sized := (string.fill (content.take count) (read_fits content count)).sized
  have within := read_size_within content count
  refine ⟨_, put_newlines_fits _ _ long (by omega), ?_⟩
  rw [List.length_set, List.length_set, sized]

-- What is pushed is as long as the int the bytes were counted in, and both
-- newlines are among it.
theorem pushed_length (stream : Nat) (content : List UInt8) (string : Option (Cells UInt8 (content.length + 3)))
    (count : Nat) (events : List Event) (message : List UInt8)
    (ran : closeThreadLogRead (some stream) content string count = .ok events)
    (pushes : events.filterMap Event.pushed = [message]) :
    string ≠ none ∧ 2 ≤ intOfSize (content.take count).length ∧
      (message.length : Int) = intOfSize (content.take count).length := by
  by_cases empty : content = []
  · simp only [closeThreadLogRead, if_pos empty] at ran
    cases ran
    cases pushes
  · simp only [closeThreadLogRead, if_neg empty] at ran
    cases string with
    | none =>
        cases ran
        cases pushes
    | some string =>
        obtain ⟨text, put, result⟩ := (bind_ok_iff _ _ _).mp ran
        have long : 2 ≤ intOfSize (content.take count).length := by
          by_contra short
          rw [put_newlines_short _ _ (Int.not_le.mp short)] at put
          cases put
        obtain ⟨after, also, sized⟩ := newlines_fit content string count long
        obtain rfl := Except.ok.inj (also.symm.trans put)
        cases result
        obtain rfl := (List.cons.inj pushes).1
        have within := read_size_within content count
        refine ⟨Option.some_ne_none string, long, ?_⟩
        rw [List.length_take, sized]
        omega

theorem close_thread_log_full (stream : Nat) (front : List UInt8) (first second : UInt8)
    (string : Cells UInt8 ((front ++ [first, second]).length + 3)) (count : Nat)
    (whole : (front ++ [first, second]).length ≤ count) (small : (front ++ [first, second]).length < 2 ^ 31) :
    closeThreadLogRead (some stream) (front ++ [first, second]) (some string) count =
      .ok [.stdio .ftell stream, .stdio .fseek stream, .stdio .fread stream,
        .pushMessage (front ++ [newline, newline]), .stdio .fclose stream] := by
  have nonempty : front ++ [first, second] ≠ [] := by simp
  have read : (front ++ [first, second]).take count = front ++ [first, second] := List.take_of_length_le whole
  have size : intOfSize (front ++ [first, second]).length = front.length + 2 := by
    rw [int_of_size_small _ small, List.length_append]
    rfl
  have pushed : (front.length + 2 : Int).toNat = (front ++ [newline, newline]).length := by
    rw [List.length_append]
    rfl
  simp only [closeThreadLogRead, if_neg nonempty, fill_values, overlay, read, size, put_newlines_last, ok_bind,
    pushed, List.take_left]

theorem pushes_log_never (stream : Nat) (content : List UInt8) (string : Option (Cells UInt8 (content.length + 3)))
    (count : Nat) : ¬PushesLog stream content string count := by
  intro pushes
  obtain ⟨events, added, ran, pushed, newlines, _⟩ := pushes
  obtain ⟨_, _, length⟩ := pushed_length stream content string count events (content ++ added) ran pushed
  have within := read_size_within content count
  have more : 0 < added.length := List.length_pos_iff.mpr newlines
  rw [List.length_append] at length
  omega

theorem two_at_end (content : List UInt8) (long : 2 ≤ content.length) :
    ∃ front first second, content = front ++ [first, second] := by
  have two : (content.drop (content.length - 2)).length = 2 := by
    rw [List.length_drop]
    omega
  obtain ⟨first, second, last⟩ := List.length_eq_two.mp two
  refine ⟨content.take (content.length - 2), first, second, ?_⟩
  rw [← last, List.take_append_drop]

theorem keeps_log_iff (stream : Nat) (content : List UInt8) (string : Option (Cells UInt8 (content.length + 3)))
    (count : Nat) :
    KeepsLog stream content string count ↔
      string ≠ none ∧ content.length ≤ count ∧ content.length < 2 ^ 31 ∧ [newline, newline] <:+ content := by
  constructor
  · intro keeps
    obtain ⟨events, ran, pushed⟩ := keeps
    obtain ⟨given, long, length⟩ := pushed_length stream content string count events content ran pushed
    have bounded := int_of_size_le (content.take count).length
    have taken := List.length_take (l := content) (i := count)
    have whole : content.length ≤ count := by omega
    rw [List.take_of_length_le whole] at long length
    have small : content.length < 2 ^ 31 := (int_of_size_exact_iff content.length).mp length.symm
    refine ⟨given, whole, small, ?_⟩
    obtain ⟨granted, rfl⟩ := Option.ne_none_iff_exists'.mp given
    obtain ⟨front, first, second, rfl⟩ := two_at_end content (by omega)
    rw [close_thread_log_full stream front first second granted count whole small] at ran
    cases ran
    obtain same := (List.cons.inj pushed).1
    rw [← same]
    exact List.suffix_append front _
  · intro holds
    obtain ⟨given, whole, small, front, rfl⟩ := holds
    obtain ⟨granted, rfl⟩ := Option.ne_none_iff_exists'.mp given
    exact ⟨_, close_thread_log_full stream front newline newline granted count whole small, rfl⟩

theorem writes_inside_iff (stream : Nat) (content : List UInt8) (string : Option (Cells UInt8 (content.length + 3)))
    (count : Nat) :
    (∃ events, closeThreadLogRead (some stream) content string count = .ok events) ↔
      content = [] ∨ string = none ∨ 2 ≤ intOfSize (content.take count).length := by
  by_cases empty : content = []
  · simp [closeThreadLogRead, empty]
  · cases string with
    | none => simp [closeThreadLogRead, empty]
    | some string =>
        simp only [closeThreadLogRead, empty, if_false, false_or, reduceCtorEq]
        by_cases long : 2 ≤ intOfSize (content.take count).length
        · obtain ⟨text, put, _⟩ := newlines_fit content string count long
          rw [put, ok_bind]
          exact ⟨fun _ => long, fun _ => ⟨_, rfl⟩⟩
        · rw [put_newlines_short _ _ (Int.not_le.mp long), error_bind]
          constructor
          · intro ran
            obtain ⟨_, ran⟩ := ran
            cases ran
          · intro enough
            exact absurd enough long

-- No newline ever stands behind the log; at most its bytes are kept, where the
-- last two of them are newlines already.
theorem close_thread_log_exact (stream : Nat) (content : List UInt8)
    (string : Option (Cells UInt8 (content.length + 3))) (count : Nat) :
    ¬PushesLog stream content string count ∧
      (KeepsLog stream content string count ↔
        string ≠ none ∧ content.length ≤ count ∧ content.length < 2 ^ 31 ∧ [newline, newline] <:+ content) ∧
      ((∃ events, closeThreadLogRead (some stream) content string count = .ok events) ↔
        content = [] ∨ string = none ∨ 2 ≤ intOfSize (content.take count).length) :=
  ⟨pushes_log_never stream content string count, keeps_log_iff stream content string count,
    writes_inside_iff stream content string count⟩

theorem two_bytes_overwritten :
    ¬∀ (stream : Nat) (content : List UInt8) (string : Option (Cells UInt8 (content.length + 3))) (count : Nat),
      content ≠ [] → PushesLog stream content string count := by
  intro pushes
  obtain ⟨events, added, ran, pushed, _⟩ := pushes 3 [97, 98] (some (.replicate 5 0)) 2 (by decide)
  have overwritten := close_thread_log_full 3 [] 97 98 (.replicate 5 0) 2 (Nat.le_refl 2) (by decide)
  cases overwritten.symm.trans ran
  cases pushed

-- The run of load_thread is the one where fread brings all there is.
theorem close_thread_log_read_whole (threadLog : Option Nat) (content : List UInt8) (granted : Bool) :
    closeThreadLog threadLog content granted =
      closeThreadLogRead threadLog content (if granted then some (.replicate (content.length + 3) 0) else none)
        content.length := by
  cases threadLog with
  | none => rfl
  | some stream =>
      by_cases empty : content = []
      · simp only [closeThreadLog, closeThreadLogRead, if_pos empty]
      · cases granted with
        | false => simp only [closeThreadLog, closeThreadLogRead, if_neg empty, Bool.false_eq_true, if_false]
        | true =>
            have filled : overlay (Cells.replicate (content.length + 3) (0 : UInt8)).values content =
                content ++ [0, 0, 0] := by
              simp [overlay, Cells.replicate]
            simp only [closeThreadLog, closeThreadLogRead, if_neg empty, if_true, fill_values, List.take_length,
              filled, putNewlines, bind_assoc]
            rfl

end Slogger.Threadload
