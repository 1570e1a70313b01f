import Mathlib.Data.List.TakeDrop
import Slogger.Playlist.RoundTrip

set_option autoImplicit false

namespace Slogger.Playlist

open Slogger.Lib

-- What saveplaylist is to promise: true only with the whole list in the file,
-- and false only with a file that readplaylist loads as it did before.
def SavesSafely (heap : NodeHeap) (list : Pointer) (cells : Cells) (disk : List UInt8) (faults : WriteFaults) : Prop :=
  ∃ saved, saveplaylist heap list disk faults = .ok saved ∧
    (saved.result = true → saved.disk = fileBytes (paths cells)) ∧
    (saved.result = false → ∀ fresh loading, readplaylist fresh loading (some ⟨saved.disk, false, false⟩) =
      readplaylist fresh loading (some ⟨disk, false, false⟩))

def AllArrive (faults : WriteFaults) (call : Nat) (entries : List CString) : Prop :=
  ∀ i path, entries[i]? = some path →
    (path.bytes = [] ∨ faults.missing (call + 2 * i) = 0) ∧ faults.missing (call + 2 * i + 1) = 0

def NothingLost (faults : WriteFaults) (entries : List CString) : Prop :=
  AllArrive faults 0 entries ∧ (entries = [] ∨ faults.unflushed = 0)

theorem arrives_start (faults : WriteFaults) (call : Nat) (bytes : List UInt8) :
    arrives faults call bytes <+: bytes := List.take_prefix _ bytes

theorem take_back_whole (bytes : List UInt8) (lost : Nat) :
    bytes.take (bytes.length - lost) = bytes ↔ bytes = [] ∨ lost = 0 := by
  rw [List.take_eq_self_iff, ← List.length_eq_zero_iff]
  omega

theorem append_parts_whole (first second front back : List UInt8) (start : first <+: front)
    (bound : second.length ≤ back.length) : first ++ second = front ++ back ↔ first = front ∧ second = back := by
  constructor
  · intro same
    have sizes := congrArg List.length same
    rw [List.length_append, List.length_append] at sizes
    have shorter := start.length_le
    have equal : first = front := start.eq_of_length (by omega)
    rw [equal] at same
    exact ⟨equal, List.append_cancel_left same⟩
  · intro both
    rw [both.1, both.2]

theorem written_length (faults : WriteFaults) (call : Nat) (entries : List CString) :
    (written faults call entries).length ≤ (fileBytes entries).length := by
  induction entries generalizing call with
  | nil => exact Nat.le_refl _
  | cons path rest ih =>
      have text := (arrives_start faults call path.bytes).length_le
      have ending := (arrives_start faults (call + 1) [newline]).length_le
      have later := ih (call + 2)
      simp only [written, fileBytes, List.flatMap_cons, lineBytes, List.length_append] at *
      omega

theorem all_arrive_cons (faults : WriteFaults) (call : Nat) (path : CString) (rest : List CString) :
    AllArrive faults call (path :: rest) ↔
      (path.bytes = [] ∨ faults.missing call = 0) ∧ faults.missing (call + 1) = 0 ∧
        AllArrive faults (call + 2) rest := by
  have shift : ∀ i, call + 2 * (i + 1) = call + 2 + 2 * i := by
    intro i
    omega
  constructor
  · intro all
    have first := all 0 path rfl
    have later : AllArrive faults (call + 2) rest := by
      intro i other found
      rw [← shift i]
      exact all (i + 1) other found
    exact ⟨first.1, first.2, later⟩
  · intro parts i other found
    cases i with
    | zero =>
        cases found
        exact ⟨parts.1, parts.2.1⟩
    | succ i =>
        rw [shift i]
        exact parts.2.2 i other found

theorem written_whole (faults : WriteFaults) (call : Nat) (entries : List CString) :
    written faults call entries = fileBytes entries ↔ AllArrive faults call entries := by
  induction entries generalizing call with
  | nil => simp [written, fileBytes, AllArrive]
  | cons path rest ih =>
      have later := written_length faults (call + 2) rest
      have ending := (arrives_start faults (call + 1) [newline]).length_le
      have split : fileBytes (path :: rest) = path.bytes ++ ([newline] ++ fileBytes rest) := by
        simp [fileBytes, lineBytes]
      rw [written, split, append_parts_whole _ _ _ _ (arrives_start faults call path.bytes),
        append_parts_whole _ _ _ _ (arrives_start faults (call + 1) [newline]) later, ih (call + 2),
        all_arrive_cons, arrives, arrives, take_back_whole, take_back_whole]
      · simp only [List.cons_ne_nil, false_or]
      · simp only [List.length_append]
        omega

theorem closed_whole (faults : WriteFaults) (entries : List CString) :
    (written faults 0 entries).take ((written faults 0 entries).length - faults.unflushed) = fileBytes entries ↔
      NothingLost faults entries := by
  have bound := written_length faults 0 entries
  have empty : fileBytes entries = [] ↔ entries = [] := by
    cases entries <;> simp [fileBytes, lineBytes]
  rw [NothingLost, ← written_whole, ← empty]
  constructor
  · intro same
    have sizes := congrArg List.length same
    rw [List.length_take] at sizes
    have whole : (written faults 0 entries).take ((written faults 0 entries).length - faults.unflushed) =
        written faults 0 entries := (List.take_prefix _ _).eq_of_length (by rw [List.length_take]; omega)
    have close := (take_back_whole _ _).mp whole
    rw [← same, whole]
    exact ⟨rfl, close⟩
  · intro nothing
    rw [nothing.1]
    exact (take_back_whole _ _).mpr nothing.2

theorem saveplaylist_safe_exact (heap : NodeHeap) (list : Pointer) (cells : Cells) (disk : List UInt8)
    (faults : WriteFaults) (rep : PlaylistRep heap list cells) :
    SavesSafely heap list cells disk faults ↔ faults.opens = false ∨ NothingLost faults (paths cells) := by
  by_cases opened : faults.opens = true
  · have ran := saveplaylist_ran heap list cells disk faults rep opened
    have parts := closed_whole faults (paths cells)
    constructor
    · intro safe
      obtain ⟨saved, also, whole, _⟩ := safe
      rw [ran] at also
      cases also
      exact .inr (parts.mp (whole rfl))
    · intro holds
      have kept := holds.resolve_left (by simp [opened])
      exact ⟨_, ran, fun _ => parts.mpr kept, fun failed => Bool.noConfusion failed⟩
  · have shut : faults.opens = false := by simpa using opened
    have ran : saveplaylist heap list disk faults = .ok ⟨disk, false⟩ := by rw [saveplaylist, if_neg opened]
    exact ⟨fun _ => .inl shut, fun _ => ⟨⟨disk, false⟩, ran, fun done => Bool.noConfusion done, fun _ _ _ => rfl⟩⟩

theorem two_songs_saved : SavesSafely (builtList twoSongs).heap (some 0) (builtCells twoSongs) [] allWritten :=
  (saveplaylist_safe_exact (builtList twoSongs).heap (some 0) (builtCells twoSongs) [] allWritten two_songs_rep).mpr
    (.inr ⟨fun _ _ _ => ⟨.inr rfl, rfl⟩, .inr rfl⟩)

-- A full disk that shows only when the stream is closed: an empty file, and true.
theorem lost_list_reported_saved :
    ¬∀ heap list cells disk faults, PlaylistRep heap list cells → SavesSafely heap list cells disk faults := by
  intro safe
  obtain ⟨saved, ran, whole, _⟩ := safe (builtList twoSongs).heap (some 0) (builtCells twoSongs)
    (fileBytes twoSongs) ⟨true, fun _ => 0, 4⟩ two_songs_rep
  rw [saveplaylist_ran _ _ _ _ _ two_songs_rep rfl] at ran
  cases ran
  exact absurd (whole rfl) (by decide)

-- One step of the loop of readplaylist: the test of feof, and behind it the
-- body or, when it is over, the close.
structure Reading where
  file : InStream
  heap : NodeHeap
  list : Pointer
  closed : Bool

def readRound (reading : Reading) : Except Fault Reading :=
  if reading.file.eof then .ok { reading with closed := true }
  else
    match fgets 256 reading.file with
    | (some buff, file) => do
        let added ← addplaylistLast reading.heap reading.list (lineOf buff)
        .ok ⟨file, added.heap, added.filelist, false⟩
    | (none, file) => .ok { reading with file := file }

def readRounds : Nat → Reading → Except Fault Reading
  | 0, reading => .ok reading
  | rounds + 1, reading =>
      if reading.closed then .ok reading
      else do
        let reading ← readRound reading
        readRounds rounds reading

def EndsClosed (file : InStream) (heap : NodeHeap) (list : Pointer) : Prop :=
  ∃ rounds final, readRounds rounds ⟨file, heap, list, false⟩ = .ok final ∧ final.closed = true

theorem closed_rounds (rounds : Nat) (reading : Reading) (closed : reading.closed = true) :
    readRounds rounds reading = .ok reading := by
  cases rounds with
  | zero => rfl
  | succ rounds => rw [readRounds, if_pos closed]

theorem rounds_at_end (rounds : Nat) (file : InStream) (heap : NodeHeap) (list : Pointer) (ended : file.eof = true) :
    readRounds (rounds + 1) ⟨file, heap, list, false⟩ = .ok ⟨file, heap, list, true⟩ := by
  rw [readRounds, if_neg Bool.false_ne_true, readRound, if_pos ended]
  exact closed_rounds rounds ⟨file, heap, list, true⟩ rfl

theorem rounds_closed_iff (rounds : Nat) (file : InStream) (heap : NodeHeap) (list : Pointer)
    (result : NodeHeap × Pointer) :
    (∃ rest, readRounds (rounds + 1) ⟨file, heap, list, false⟩ = .ok ⟨rest, result.1, result.2, true⟩) ↔
      readLoop rounds file heap list = .ok result := by
  induction rounds generalizing file heap list with
  | zero =>
      by_cases ended : file.eof = true
      · simp [rounds_at_end 0 file heap list ended, readLoop, ended, Prod.ext_iff]
      · rw [readRounds, readRound, readLoop]
        simp only [ended, Bool.false_eq_true, if_false]
        obtain ⟨got, rest⟩ := fgets 256 file
        cases got with
        | none => simp [readRounds]
        | some buff => cases ran : addplaylistLast heap list (lineOf buff) <;> simp [readRounds, ran]
  | succ rounds ih =>
      by_cases ended : file.eof = true
      · simp [rounds_at_end (rounds + 1) file heap list ended, readLoop, ended, Prod.ext_iff]
      · rw [readRounds, readRound, readLoop]
        simp only [ended, Bool.false_eq_true, if_false]
        obtain ⟨got, rest⟩ := fgets 256 file
        cases got with
        | none => exact ih rest heap list
        | some buff =>
            cases ran : addplaylistLast heap list (lineOf buff) with
            | error fault => simp [ran]
            | ok added => simpa [ran] using ih rest added.heap added.filelist

theorem failing_never_closed (data : List UInt8) (heap : NodeHeap) (list : Pointer) (cells : Cells)
    (rep : PlaylistRep heap list cells) : ¬EndsClosed ⟨data, true, false⟩ heap list := by
  intro ends
  obtain ⟨rounds, ⟨rest, next, head, closed⟩, ran, rfl⟩ := ends
  cases rounds with
  | zero => cases ran
  | succ rounds =>
      have looped := (rounds_closed_iff rounds _ heap list (next, head)).mp ⟨rest, ran⟩
      rw [read_loop_failing ⟨data, true, false⟩ heap list cells rounds rep rfl rfl] at looped
      cases looped

theorem readplaylist_ends_exact (data : List UInt8) (failing : Bool) (heap : NodeHeap) (list : Pointer)
    (cells : Cells) (rep : PlaylistRep heap list cells) :
    EndsClosed ⟨data, failing, false⟩ heap list ↔ failing = false := by
  constructor
  · intro ends
    cases failing with
    | false => rfl
    | true => exact absurd ends (failing_never_closed data heap list cells rep)
  · intro good
    obtain ⟨next, head, _, looped, _⟩ := read_loop_rep ⟨data, failing, false⟩ heap list cells (data.length + 1) rep
      good rfl (Nat.lt_succ_self _)
    obtain ⟨rest, ran⟩ := (rounds_closed_iff (data.length + 1) _ heap list (next, head)).mpr looped
    exact ⟨data.length + 1 + 1, _, ran, rfl⟩

theorem short_file_ends : EndsClosed ⟨[97, newline], false, false⟩ (builtList twoSongs).heap (some 0) :=
  (readplaylist_ends_exact [97, newline] false (builtList twoSongs).heap (some 0) (builtCells twoSongs)
    two_songs_rep).mpr rfl

-- Not one byte can be read, and feof never becomes true.
theorem unreadable_file_never_closed :
    ¬∀ data failing heap list cells, PlaylistRep heap list cells → EndsClosed ⟨data, failing, false⟩ heap list := by
  intro ends
  have empty : PlaylistRep Heap.empty none [] := (linked_empty none).mpr rfl
  exact failing_never_closed [] Heap.empty none [] empty (ends [] true Heap.empty none [] empty)

end Slogger.Playlist
