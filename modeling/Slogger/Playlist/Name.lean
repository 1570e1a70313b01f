import Slogger.Lib.Text
import Slogger.Playlist.RoundTrip

set_option autoImplicit false

namespace Slogger.Playlist

open Slogger.Lib

def separator (byte : UInt8) : Bool := byte == 92 || byte == 47

def firstLine (bytes : List UInt8) : List UInt8 := bytes.takeWhile fun byte => byte != newline

def baseName (bytes : List UInt8) : List UInt8 := behindLast separator bytes

def withoutExtension (line : List UInt8) : List UInt8 :=
  if 4 < line.length then line.take (line.length - 4) else line

-- What the name of a path is meant to be, its length taken as it is.
def displayName (path : CString) : List UInt8 := withoutExtension (firstLine (baseName path.bytes))

inductive Storage where
  | writable
  | readOnly
deriving DecidableEq

-- The call as a process makes it: a path of INT_MIN as an int overflows in
-- len-1, and the NUL for a newline is stored whether there is one or not.
def callExtract (storage : Storage) (pPath : CString) : Except Fault (List UInt8 × Nat) :=
  if intOfSize pPath.bytes.length = -2147483648 then .error .overflow
  else
    match storage with
    | .readOnly => .error .readOnly
    | .writable => .ok (extractFileName pPath)

def Callable (storage : Storage) (path : CString) : Prop :=
  storage = .writable ∧ intOfSize path.bytes.length ≠ -2147483648

instance (storage : Storage) (path : CString) : Decidable (Callable storage path) := inferInstanceAs (Decidable (_ ∧ _))

def ReturnsDisplayName (storage : Storage) (path : CString) : Prop :=
  ∃ memory offset, callExtract storage path = .ok (memory, offset) ∧
    (cString (memory.drop offset)).bytes = displayName path ∧
    ∀ byte ∈ (cString (memory.drop offset)).bytes, separator byte = false

def nameStart (path : CString) : Nat := path.bytes.length - (baseName path.bytes).length

def ReturnsPart (storage : Storage) (path : CString) : Prop :=
  ReturnsDisplayName storage path ∧ ∀ memory offset, callExtract storage path = .ok (memory, offset) →
    offset = nameStart path

-- How many bytes the backward scan goes through, the one at index 0 included.
def seen (path : CString) : Nat := (intPred (intOfSize path.bytes.length) + 1).toNat

-- The last separator, if there is one, is behind the first byte and among
-- the bytes the scan looks at.
def SeparatorSeen (path : CString) : Prop :=
  nameStart path = 0 ∨ 1 < nameStart path ∧ nameStart path ≤ seen path

instance (path : CString) : Decidable (SeparatorSeen path) := inferInstanceAs (Decidable (_ ∨ _))

-- The part of a path behind the last separator at an index from 1 up to count.
def behindSeparator (bytes : List UInt8) (count : Nat) : List UInt8 :=
  let front := (bytes.take count).drop 1
  if front.any separator then behindLast separator front ++ bytes.drop count else bytes

def seenPart (path : CString) : List UInt8 := behindSeparator path.bytes (seen path)

def shortened (line : List UInt8) : List UInt8 :=
  if 4 < intOfSize line.length then line.take (line.length - 4) else line

theorem behind_separator_short (bytes : List UInt8) (count : Nat) (short : count ≤ 1) :
    behindSeparator bytes count = bytes := by
  have none : (bytes.take count).drop 1 = [] := by
    rw [List.drop_eq_nil_iff, List.length_take]
    omega
  rw [behindSeparator, none]
  rfl

theorem scan_separator_range (memory : List UInt8) (last : Nat) :
    scanSeparator memory last = 0 ∨ 1 < scanSeparator memory last ∧ scanSeparator memory last ≤ last + 1 := by
  induction last with
  | zero => exact .inl rfl
  | succ last ih =>
      rw [scanSeparator]
      split
      · exact .inr ⟨by omega, by omega⟩
      · omega

theorem scan_separator_append (memory tail : List UInt8) (last : Nat) (inside : last < memory.length) :
    scanSeparator (memory ++ tail) last = scanSeparator memory last := by
  induction last with
  | zero => rfl
  | succ last ih =>
      rw [scanSeparator, scanSeparator, List.getElem?_append_left inside, ih (by omega)]

theorem scan_separator_part (bytes : List UInt8) (last : Nat) (inside : last < bytes.length) :
    bytes.drop (scanSeparator bytes last) = behindSeparator bytes (last + 1) := by
  induction last with
  | zero => exact (behind_separator_short bytes 1 (Nat.le_refl 1)).symm
  | succ last ih =>
      have earlier := ih (by omega)
      have grown : (bytes.take (last + 1 + 1)).drop 1 = (bytes.take (last + 1)).drop 1 ++ [bytes[last + 1]] := by
        rw [List.take_succ_eq_append_getElem inside, List.drop_append_of_le_length]
        rw [List.length_take]
        omega
      have here : bytes.drop (last + 1) = bytes[last + 1] :: bytes.drop (last + 1 + 1) :=
        List.drop_eq_getElem_cons inside
      have found : bytes[last + 1]? = some bytes[last + 1] := List.getElem?_eq_getElem inside
      rw [scanSeparator, found]
      by_cases marked : separator bytes[last + 1] = true
      · have stop : some bytes[last + 1] = some (92 : UInt8) ∨ some bytes[last + 1] = some 47 := by
          simpa [separator] using marked
        rw [if_pos stop, behindSeparator]
        simp only [grown]
        rw [behind_last_marked separator _ _ marked]
        simp [marked]
      · have go : ¬(some bytes[last + 1] = some (92 : UInt8) ∨ some bytes[last + 1] = some 47) := by
          simpa [separator] using marked
        rw [if_neg go, earlier, behindSeparator, behindSeparator]
        simp only [grown]
        rw [behind_last_concat separator _ _ (by simpa using marked), List.append_assoc, here]
        simp [marked]

theorem c_string_terminated (bytes rest : List UInt8) (noNul : (0 : UInt8) ∉ bytes) :
    cString (bytes ++ 0 :: rest) = ⟨bytes, noNul⟩ := by
  apply CString.ext
  simp only [cString]
  rw [take_until_append 0 bytes _ noNul]
  simp

theorem strlen_terminated (bytes rest : List UInt8) (noNul : (0 : UInt8) ∉ bytes) :
    strlen (bytes ++ 0 :: rest) = bytes.length := by
  rw [strlen, c_string_terminated bytes rest noNul]

theorem seen_part_offset (path : CString) :
    path.bytes.drop (extractFileName path).2 = seenPart path ∧ (extractFileName path).2 ≤ path.bytes.length := by
  have length : strlen (path.bytes ++ [0]) = path.bytes.length := strlen_terminated path.bytes [] path.noNul
  have offset : (extractFileName path).2 =
      scanSeparator (path.bytes ++ [0]) (intPred (intOfSize path.bytes.length)).toNat := by
    rw [extractFileName, length]
  have within := int_pred_below path.bytes.length
  rw [offset, seenPart, seen]
  by_cases positive : 0 ≤ intPred (intOfSize path.bytes.length)
  · have inside : (intPred (intOfSize path.bytes.length)).toNat < path.bytes.length := by omega
    have count : (intPred (intOfSize path.bytes.length) + 1).toNat =
        (intPred (intOfSize path.bytes.length)).toNat + 1 := by omega
    rw [scan_separator_append path.bytes [0] _ inside, scan_separator_part path.bytes _ inside, count]
    have range := scan_separator_range path.bytes (intPred (intOfSize path.bytes.length)).toNat
    exact ⟨rfl, by omega⟩
  · have start : (intPred (intOfSize path.bytes.length)).toNat = 0 := by omega
    have none : (intPred (intOfSize path.bytes.length) + 1).toNat = 0 := by omega
    rw [start, none, behind_separator_short path.bytes 0 (Nat.zero_le 1)]
    exact ⟨rfl, Nat.zero_le _⟩

theorem seen_part_noNul (path : CString) : (0 : UInt8) ∉ seenPart path := by
  rw [← (seen_part_offset path).1]
  exact fun member => path.noNul (List.mem_of_mem_drop member)

theorem seen_part_split (path : CString) :
    path.bytes ++ [0] = path.bytes.take (extractFileName path).2 ++ (seenPart path ++ [0]) ∧
      (path.bytes.take (extractFileName path).2).length = (extractFileName path).2 := by
  obtain ⟨found, within⟩ := seen_part_offset path
  constructor
  · rw [← found, ← List.append_assoc, List.take_append_drop]
  · exact List.length_take_of_le within

theorem first_line_noNul (bytes : List UInt8) (noNul : (0 : UInt8) ∉ bytes) : (0 : UInt8) ∉ firstLine bytes :=
  fun member => noNul ((List.takeWhile_prefix _).subset member)

theorem shortened_start (line : List UInt8) : shortened line <+: line := by
  rw [shortened]
  split
  · exact List.take_prefix _ line
  · exact List.prefix_rfl

theorem shortened_noNul (path : CString) : (0 : UInt8) ∉ shortened (firstLine (seenPart path)) :=
  fun member => first_line_noNul _ (seen_part_noNul path) ((shortened_start _).subset member)

theorem stays_first_line (part : List UInt8) (noNul : (0 : UInt8) ∉ part) :
    part.takeWhile stays = firstLine part := by
  calc part.takeWhile stays
      = (firstLine part).takeWhile (fun byte => byte != 0) := by
        simp only [firstLine, List.takeWhile_takeWhile, Bool.decide_and, Bool.decide_eq_true]
        rfl
    _ = firstLine part := (take_until_whole 0 (firstLine part)).mpr (first_line_noNul part noNul)

-- path[strcspn(path, "\n")] = '\0'
theorem line_cut (front part : List UInt8) (noNul : (0 : UInt8) ∉ part) :
    ∃ rest, (front ++ (part ++ [0])).set (front.length + strcspn (part ++ [0])) 0 =
      front ++ (firstLine part ++ 0 :: rest) := by
  obtain ⟨stop, rest, split⟩ := terminated_split stays 0 part rfl
  have size : strcspn (part ++ [0]) = (part.takeWhile stays).length :=
    congrArg List.length (terminated_take stays 0 part rfl)
  refine ⟨rest, ?_⟩
  rw [size, List.set_append_right _ _ (Nat.le_add_right _ _), Nat.add_sub_cancel_left, split,
    List.set_append_right _ _ (Nat.le_refl _), Nat.sub_self, List.set_cons_zero, stays_first_line part noNul]

-- if(len > 4) path[strlen(path) -4 ] = '\0'
theorem extension_cut (front line rest : List UInt8) (noNul : (0 : UInt8) ∉ line) :
    ∃ after, (if intOfSize (strlen (line ++ 0 :: rest)) > 4 then
        (front ++ (line ++ 0 :: rest)).set (front.length + (strlen (line ++ 0 :: rest) - 4)) 0
      else front ++ (line ++ 0 :: rest)) = front ++ (shortened line ++ 0 :: after) := by
  rw [strlen_terminated line rest noNul, shortened]
  by_cases long : 4 < intOfSize line.length
  · have more : 4 < line.length := by
      have within := int_of_size_le line.length
      omega
    obtain ⟨cut, dropped⟩ : ∃ cut, line.drop (line.length - 4) = cut := ⟨_, rfl⟩
    cases cut with
    | nil =>
        have short := List.drop_eq_nil_iff.mp dropped
        omega
    | cons byte cut =>
        have parts : line ++ 0 :: rest = line.take (line.length - 4) ++ byte :: (cut ++ 0 :: rest) := by
          conv_lhs => rw [← List.take_append_drop (line.length - 4) line, dropped]
          simp
        have size : (line.take (line.length - 4)).length = line.length - 4 := by
          rw [List.length_take]
          omega
        refine ⟨cut ++ 0 :: rest, ?_⟩
        rw [if_pos long, if_pos long, List.set_append_right _ _ (Nat.le_add_right _ _), Nat.add_sub_cancel_left, parts,
          List.set_append_right _ _ (Nat.le_of_eq size), size, Nat.sub_self, List.set_cons_zero]
  · exact ⟨rest, by rw [if_neg long, if_neg long]⟩

-- The caller's memory after the call: everything before the name, the name and
-- the NUL that now ends it.
theorem buffer_after_spec (path : CString) :
    ∃ rest, bufferAfter path = path.bytes.take (extractFileName path).2 ++
      (shortened (firstLine (seenPart path)) ++ 0 :: rest) := by
  obtain ⟨whole, size⟩ := seen_part_split path
  obtain ⟨rest, first⟩ := line_cut (path.bytes.take (extractFileName path).2) (seenPart path) (seen_part_noNul path)
  obtain ⟨after, second⟩ := extension_cut (path.bytes.take (extractFileName path).2) (firstLine (seenPart path)) rest
    (first_line_noNul _ (seen_part_noNul path))
  refine ⟨after, ?_⟩
  rw [← second, ← first, ← whole, size]
  rw [size, ← whole] at first
  have dropped : (path.bytes ++ [0]).drop (extractFileName path).2 = seenPart path ++ [0] := by
    rw [whole, List.drop_left' size]
  have renewed : ((path.bytes ++ [0]).set ((extractFileName path).2 + strcspn (seenPart path ++ [0])) 0).drop
      (extractFileName path).2 = firstLine (seenPart path) ++ 0 :: rest := by
    rw [first, List.drop_left' size]
  rw [← renewed, ← dropped]
  rfl

theorem file_name_spec (path : CString) : (fileName path).bytes = shortened (firstLine (seenPart path)) := by
  obtain ⟨rest, after⟩ := buffer_after_spec path
  have name : (extractFileName path).1.drop (extractFileName path).2 =
      shortened (firstLine (seenPart path)) ++ 0 :: rest := by
    rw [← bufferAfter, after, List.drop_left' (seen_part_split path).2]
  rw [fileName, name, c_string_terminated _ _ (shortened_noNul path)]

theorem shortened_agrees (line : List UInt8) :
    shortened line = withoutExtension line ↔ line.length ≤ 4 ∨ 4 < intOfSize line.length := by
  have within := int_of_size_le line.length
  rw [shortened, withoutExtension]
  by_cases wide : 4 < intOfSize line.length
  · have long : 4 < line.length := by omega
    rw [if_pos wide, if_pos long]
    exact ⟨fun _ => .inr wide, fun _ => rfl⟩
  · by_cases long : 4 < line.length
    · rw [if_neg wide, if_pos long]
      constructor
      · intro same
        have sizes := congrArg List.length same
        rw [List.length_take] at sizes
        omega
      · intro fits
        omega
    · simp only [if_neg wide, if_neg long, true_iff]
      exact .inl (by omega)

theorem separator_seen_cases (path : CString) :
    (∀ byte ∈ path.bytes, separator byte = false) ∧ nameStart path = 0 ∨
      ∃ front mark tail, path.bytes = front ++ mark :: tail ∧ separator mark = true ∧
        (∀ byte ∈ tail, separator byte = false) ∧ baseName path.bytes = tail ∧
        nameStart path = front.length + 1 := by
  rcases behind_last_cases separator path.bytes with clean | ⟨front, mark, tail, whole, marked, clean⟩
  · refine .inl ⟨clean, ?_⟩
    rw [nameStart, baseName, behind_last_unmarked separator path.bytes clean, Nat.sub_self]
  · have base : baseName path.bytes = tail := by
      rw [baseName, whole, behind_last_split separator front tail mark marked clean]
    refine .inr ⟨front, mark, tail, whole, marked, clean, base, ?_⟩
    rw [nameStart, base, whole, List.length_append, List.length_cons]
    omega

theorem seen_part_whole (path : CString) (clean : ∀ byte ∈ path.bytes.drop 1, separator byte = false) :
    seenPart path = path.bytes := by
  have none : ((path.bytes.take (seen path)).drop 1).any separator = false := by
    rw [List.any_eq_false]
    intro byte member
    rw [List.drop_take] at member
    simp [clean byte (List.mem_of_mem_take member)]
  rw [seenPart, behindSeparator]
  simp only [none, Bool.false_eq_true, if_false]

theorem seen_part_base (path : CString) (found : SeparatorSeen path) : seenPart path = baseName path.bytes := by
  rcases separator_seen_cases path with ⟨clean, _⟩ | ⟨front, mark, tail, whole, marked, clean, base, start⟩
  · rw [seen_part_whole path fun byte member => clean byte (List.mem_of_mem_drop member)]
    exact (behind_last_unmarked separator path.bytes clean).symm
  · rw [SeparatorSeen, start] at found
    obtain ⟨later, covered⟩ := Nat.exists_eq_add_of_le (found.resolve_left (Nat.succ_ne_zero _)).2
    cases front with
    | nil => simp at found
    | cons first front =>
        have left : seen path - (first :: front).length = later + 1 := by omega
        have sight : (path.bytes.take (seen path)).drop 1 = front ++ mark :: tail.take later := by
          rw [whole, List.take_append, left, List.take_succ_cons, List.take_of_length_le (by omega)]
          rfl
        have beyond : path.bytes.drop (seen path) = tail.drop later := by
          rw [whole, List.drop_append, left, List.drop_succ_cons, List.drop_of_length_le (by omega), List.nil_append]
        have near : ∀ byte ∈ tail.take later, separator byte = false :=
          fun byte member => clean byte (List.mem_of_mem_take member)
        have some : (front ++ mark :: tail.take later).any separator = true := by simp [marked]
        rw [base, seenPart, behindSeparator, sight, beyond]
        simp only [some, if_true]
        rw [behind_last_split separator front _ mark marked near, List.take_append_drop]

-- The only separator is the first byte, which the scan never looks at.
theorem first_separator_kept (path : CString) (short : path.bytes.length < 2 ^ 31) (missed : ¬SeparatorSeen path) :
    ∃ byte ∈ (fileName path).bytes, separator byte = true := by
  rcases separator_seen_cases path with ⟨_, start⟩ | ⟨front, mark, tail, whole, marked, clean, base, start⟩
  · exact absurd (.inl start) missed
  · have all : seen path = path.bytes.length := by
      rw [seen, int_of_size_small path.bytes.length short, int_pred_inside _ (by omega) (by omega)]
      omega
    have size : path.bytes.length = front.length + 1 + tail.length := by
      rw [whole, List.length_append, List.length_cons]
      omega
    have alone : front = [] := by
      apply List.eq_nil_of_length_eq_zero
      by_contra more
      exact missed (.inr ⟨by omega, by omega⟩)
    subst alone
    have unseen : seenPart path = mark :: tail := by
      rw [seen_part_whole path, whole, List.nil_append]
      intro byte member
      rw [whole] at member
      exact clean byte member
    have goes : (mark != newline) = true := by
      rcases (by simpa [separator] using marked : mark = 92 ∨ mark = 47) with rfl | rfl <;> rfl
    have line : firstLine (mark :: tail) = mark :: firstLine tail := by
      simp only [firstLine, List.takeWhile_cons, goes, if_true]
    refine ⟨mark, ?_, marked⟩
    rw [file_name_spec, unseen, line, shortened]
    split
    · rename_i wide
      have within := int_of_size_le (mark :: firstLine tail).length
      obtain ⟨kept, count⟩ := Nat.exists_eq_add_one.mpr (by omega : 0 < (mark :: firstLine tail).length - 4)
      rw [count, List.take_succ_cons]
      exact List.mem_cons_self
    · exact List.mem_cons_self

def LineFits (path : CString) : Prop :=
  (firstLine (baseName path.bytes)).length ≤ 4 ∨ 4 < intOfSize (firstLine (baseName path.bytes)).length

theorem display_name_clean (path : CString) (byte : UInt8) (member : byte ∈ displayName path) :
    separator byte = false := by
  have inLine : byte ∈ firstLine (baseName path.bytes) := by
    rw [displayName, withoutExtension] at member
    split at member
    · exact List.mem_of_mem_take member
    · exact member
  exact behind_last_clean separator path.bytes byte ((List.takeWhile_prefix _).subset inLine)

theorem call_extract_ok (storage : Storage) (path : CString) (result : List UInt8 × Nat) :
    callExtract storage path = .ok result ↔ Callable storage path ∧ result = extractFileName path := by
  unfold callExtract Callable
  by_cases extreme : intOfSize path.bytes.length = -2147483648
  · simp [extreme]
  · cases storage <;> simp [extreme, eq_comm]

theorem returns_iff (storage : Storage) (path : CString) :
    ReturnsDisplayName storage path ↔ Callable storage path ∧ (fileName path).bytes = displayName path := by
  constructor
  · rintro ⟨memory, offset, called, text, _⟩
    obtain ⟨callable, result⟩ := (call_extract_ok storage path _).mp called
    exact ⟨callable, by rw [fileName, ← result, text]⟩
  · rintro ⟨callable, text⟩
    refine ⟨_, _, (call_extract_ok storage path _).mpr ⟨callable, rfl⟩, text, fun byte member => ?_⟩
    exact display_name_clean path byte (text ▸ member)

theorem returns_part_iff (storage : Storage) (path : CString) :
    ReturnsPart storage path ↔
      ReturnsDisplayName storage path ∧ (Callable storage path → (extractFileName path).2 = nameStart path) := by
  refine and_congr_right fun _ => ⟨fun placed callable => ?_, fun placed memory offset called => ?_⟩
  · exact placed _ _ ((call_extract_ok storage path _).mpr ⟨callable, rfl⟩)
  · obtain ⟨callable, result⟩ := (call_extract_ok storage path _).mp called
    rw [← placed callable, ← result]

theorem seen_iff_offset (path : CString) : SeparatorSeen path ↔ (extractFileName path).2 = nameStart path := by
  obtain ⟨part, within⟩ := seen_part_offset path
  constructor
  · intro found
    have sizes := congrArg List.length (part.trans (seen_part_base path found))
    rw [List.length_drop] at sizes
    rw [nameStart]
    omega
  · intro placed
    have length : strlen (path.bytes ++ [0]) = path.bytes.length := strlen_terminated path.bytes [] path.noNul
    have range := scan_separator_range (path.bytes ++ [0]) (intPred (intOfSize path.bytes.length)).toNat
    rw [extractFileName, length] at placed
    dsimp only at placed
    rw [SeparatorSeen, ← placed, seen]
    omega

-- Below 2^31 bytes a text without a separator comes from the right part only.
theorem extract_file_name_exact (storage : Storage) (path : CString) :
    (ReturnsPart storage path ↔ Callable storage path ∧ SeparatorSeen path ∧ LineFits path) ∧
      (path.bytes.length < 2 ^ 31 →
        (ReturnsDisplayName storage path ↔ Callable storage path ∧ SeparatorSeen path ∧ LineFits path)) := by
  have named : SeparatorSeen path → ((fileName path).bytes = displayName path ↔ LineFits path) := by
    intro found
    rw [file_name_spec, seen_part_base path found, displayName, shortened_agrees, LineFits]
  rw [returns_part_iff, returns_iff, ← seen_iff_offset]
  constructor
  · constructor
    · rintro ⟨⟨callable, text⟩, placed⟩
      have found := placed callable
      exact ⟨callable, found, (named found).mp text⟩
    · rintro ⟨callable, found, fits⟩
      exact ⟨⟨callable, (named found).mpr fits⟩, fun _ => found⟩
  · intro short
    refine and_congr_right fun _ => ⟨fun text => ?_, fun both => (named both.1).mpr both.2⟩
    by_cases found : SeparatorSeen path
    · exact ⟨found, (named found).mp text⟩
    · obtain ⟨byte, member, marked⟩ := first_separator_kept path short found
      rw [text] at member
      rw [display_name_clean path byte member] at marked
      cases marked

-- "/a.mp3" keeps its separator.
theorem extract_file_name_not_exact : ¬∀ path, ReturnsDisplayName .writable path := by
  intro returned
  have named := ((returns_iff .writable _).mp (returned (cString [47, 97, 46, 109, 112, 51]))).2
  exact absurd named (by decide)

end Slogger.Playlist
