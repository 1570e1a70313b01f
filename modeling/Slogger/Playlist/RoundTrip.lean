import Slogger.Lib.Text
import Slogger.Playlist.Calls

set_option autoImplicit false

namespace Slogger.Playlist

open Slogger.Lib

def lineBytes (path : CString) : List UInt8 := path.bytes ++ [newline]

def fileBytes (entries : List CString) : List UInt8 := entries.flatMap lineBytes

def written (faults : WriteFaults) : Nat → List CString → List UInt8
  | _, [] => []
  | call, path :: rest =>
      arrives faults call path.bytes ++ (arrives faults (call + 1) [newline] ++ written faults (call + 2) rest)

theorem written_all (call : Nat) (entries : List CString) : written allWritten call entries = fileBytes entries := by
  have complete : ∀ call bytes, arrives allWritten call bytes = bytes := by
    intro call bytes
    simp [arrives, allWritten]
  induction entries generalizing call with
  | nil => rfl
  | cons path rest ih =>
      rw [written, complete, complete, ih (call + 2)]
      simp [fileBytes, lineBytes]

theorem save_loop_segment (heap : NodeHeap) (faults : WriteFaults) (before : Pointer) (cells : Cells)
    (fuel call : Nat) (file : List UInt8) (segment : Segment playLayout heap before cells none)
    (enough : cells.length ≤ fuel) :
    saveLoop heap faults fuel (firstOf cells none) call file = .ok (file ++ written faults call (paths cells)) := by
  induction cells generalizing before fuel call file with
  | nil =>
      cases fuel <;> simp [saveLoop, firstOf, written, paths]
  | cons cell rest ih =>
      cases fuel with
      | zero => simp at enough
      | succ fuel =>
          have head := play_deref heap before none [] rest cell.1 cell.2 segment
          rw [first_of_cons, saveLoop, head, ok_bind]
          dsimp only
          rw [ih (some cell.1) fuel (call + 2) _ segment.2 (Nat.le_of_succ_le_succ enough)]
          simp only [paths, List.map_cons, written, List.append_assoc]

theorem saveplaylist_ran (heap : NodeHeap) (list : Pointer) (cells : Cells) (disk : List UInt8) (faults : WriteFaults)
    (rep : PlaylistRep heap list cells) (opened : faults.opens = true) :
    saveplaylist heap list disk faults =
      .ok ⟨(written faults 0 (paths cells)).take ((written faults 0 (paths cells)).length - faults.unflushed), true⟩ := by
  have looped := save_loop_segment heap faults none cells heap.bound 0 [] rep.segment
    (linked_length_bound list cells rep)
  rw [← rep.entry, List.nil_append] at looped
  simp only [saveplaylist, opened, if_true, looped, ok_bind]

theorem saveplaylist_rep (heap : NodeHeap) (list : Pointer) (cells : Cells) (disk : List UInt8)
    (rep : PlaylistRep heap list cells) :
    saveplaylist heap list disk allWritten = .ok ⟨fileBytes (paths cells), true⟩ := by
  rw [saveplaylist_ran heap list cells disk allWritten rep rfl, written_all]
  simp [allWritten]

theorem take_line_fits (limit : Nat) (bytes rest : List UInt8) (clean : newline ∉ bytes)
    (fits : bytes.length < limit) : takeLine limit (bytes ++ newline :: rest) = (bytes ++ [newline], rest) := by
  induction bytes generalizing limit with
  | nil =>
      obtain ⟨shorter, rfl⟩ := Nat.exists_eq_succ_of_ne_zero (Nat.ne_of_gt fits)
      simp [takeLine]
  | cons byte bytes ih =>
      obtain ⟨shorter, rfl⟩ := Nat.exists_eq_succ_of_ne_zero (Nat.ne_of_gt (Nat.zero_lt_of_lt fits))
      have different : byte ≠ newline := (List.ne_of_not_mem_cons clean).symm
      have later : newline ∉ bytes := List.not_mem_of_not_mem_cons clean
      simp [takeLine, different, ih shorter later (Nat.lt_of_succ_lt_succ fits)]

theorem take_line_cut (limit : Nat) (bytes rest : List UInt8) (clean : newline ∉ bytes)
    (long : limit ≤ bytes.length) :
    takeLine limit (bytes ++ rest) = (bytes.take limit, bytes.drop limit ++ rest) := by
  induction limit generalizing bytes with
  | zero => simp [takeLine]
  | succ limit ih =>
      cases bytes with
      | nil => cases long
      | cons byte bytes =>
          have different : byte ≠ newline := (List.ne_of_not_mem_cons clean).symm
          have later : newline ∉ bytes := List.not_mem_of_not_mem_cons clean
          simp [takeLine, different, ih bytes later (Nat.le_of_succ_le_succ long)]

theorem pieces_fits (bytes rest : List UInt8) (clean : newline ∉ bytes) (fits : bytes.length ≤ 254) :
    pieces (bytes ++ newline :: rest) = (bytes ++ [newline]) :: pieces rest := by
  rw [pieces_next _ (by simp), take_line_fits 255 bytes rest clean (Nat.lt_succ_of_le fits)]

theorem pieces_cut (bytes rest : List UInt8) (clean : newline ∉ bytes) (long : 255 ≤ bytes.length) :
    pieces (bytes ++ newline :: rest) = bytes.take 255 :: pieces (bytes.drop 255 ++ newline :: rest) := by
  rw [pieces_next _ (by simp), take_line_cut 255 bytes (newline :: rest) clean long]

-- The pieces of one line stay apart from what follows, and the last of them
-- ends the line and is short.
theorem pieces_line (bytes : List UInt8) (clean : newline ∉ bytes) :
    ∃ front tail, tail <:+ bytes ∧ tail.length ≤ 254 ∧ (bytes.length ≤ 254 → front = [] ∧ tail = bytes) ∧
      ∀ rest, pieces (bytes ++ newline :: rest) = front ++ (tail ++ [newline]) :: pieces rest := by
  by_cases fits : bytes.length ≤ 254
  · exact ⟨[], bytes, List.suffix_refl bytes, fits, fun _ => ⟨rfl, rfl⟩, fun rest => pieces_fits bytes rest clean fits⟩
  · have long : 255 ≤ bytes.length := Nat.lt_of_not_le fits
    have later : newline ∉ bytes.drop 255 := fun member => clean (List.mem_of_mem_drop member)
    obtain ⟨front, tail, ends, short, _, split⟩ := pieces_line (bytes.drop 255) later
    refine ⟨bytes.take 255 :: front, tail, ends.trans (List.drop_suffix 255 bytes), short, ?_, ?_⟩
    · exact fun small => absurd small fits
    · intro rest
      rw [pieces_cut bytes rest clean long, split rest, List.cons_append]
termination_by bytes.length
decreasing_by
  simp only [List.length_drop]
  omega

def lineText (raw : List UInt8) : CString := cString (raw.takeWhile fun byte => byte != newline)

def stays (byte : UInt8) : Bool := byte != 0 && byte != newline

-- The NUL that replaces the newline, and the string it leaves.
theorem line_of_text (buff : List UInt8) : lineOf buff = lineText buff := by
  obtain ⟨stop, rest, split⟩ := terminated_split stays 0 buff rfl
  have passes : ∀ byte ∈ buff.takeWhile stays, (byte != 0) = true := by
    intro byte member
    have both := List.mem_takeWhile_imp member
    rw [stays, Bool.and_eq_true] at both
    exact both.1
  apply CString.ext
  calc (lineOf buff).bytes
      = ((buff ++ [0]).set ((buff ++ [0]).takeWhile stays).length 0).takeWhile (fun byte => byte != 0) := rfl
    _ = (buff.takeWhile stays ++ 0 :: rest).takeWhile (fun byte => byte != 0) := by
        rw [terminated_take stays 0 buff rfl, split, List.set_append_right _ _ (Nat.le_refl _), Nat.sub_self, List.set_cons_zero]
    _ = buff.takeWhile stays := by
        rw [List.takeWhile_append_of_pos passes]
        simp
    _ = (lineText buff).bytes := by
        simp only [lineText, cString, List.takeWhile_takeWhile, Bool.decide_and, Bool.decide_eq_true]
        rfl

theorem line_of_line (bytes : List UInt8) (clean : newline ∉ bytes) (noNul : (0 : UInt8) ∉ bytes) :
    lineOf (bytes ++ [newline]) = ⟨bytes, noNul⟩ := by
  have text : bytes.takeWhile (fun byte => byte != 0) = bytes := (take_until_whole 0 bytes).mpr noNul
  rw [line_of_text]
  apply CString.ext
  simp [lineText, cString, take_until_append newline bytes _ clean, text]

theorem pieces_file (entries : List CString) (rest : List UInt8) (clean : ∀ path ∈ entries, newline ∉ path.bytes) :
    pieces (fileBytes entries ++ rest) = pieces (fileBytes entries) ++ pieces rest := by
  induction entries with
  | nil => simp [fileBytes, pieces_nil]
  | cons path entries ih =>
      obtain ⟨front, tail, _, _, _, split⟩ := pieces_line path.bytes (clean path List.mem_cons_self)
      have line : ∀ more, pieces (lineBytes path ++ more) = front ++ (tail ++ [newline]) :: pieces more := by
        intro more
        rw [lineBytes, List.append_assoc, List.singleton_append, split more]
      rw [fileBytes, List.flatMap_cons, List.append_assoc, line, line]
      rw [← fileBytes, ih fun other member => clean other (List.mem_cons_of_mem path member)]
      simp

theorem short_lines_kept (entries : List CString) (clean : ∀ path ∈ entries, newline ∉ path.bytes)
    (short : ∀ path ∈ entries, path.bytes.length ≤ 254) : (pieces (fileBytes entries)).map lineOf = entries := by
  induction entries with
  | nil => simp [fileBytes, pieces_nil]
  | cons path entries ih =>
      have cleanPath := clean path List.mem_cons_self
      have rest := ih (fun other member => clean other (List.mem_cons_of_mem path member))
        (fun other member => short other (List.mem_cons_of_mem path member))
      have first : fileBytes (path :: entries) = path.bytes ++ newline :: fileBytes entries := by
        simp [fileBytes, lineBytes]
      rw [first, pieces_fits path.bytes _ cleanPath (short path List.mem_cons_self), List.map_cons, rest,
        line_of_line path.bytes cleanPath path.noNul]

-- Conversely, entries that come back at the end were all short: the last entry
-- read is short, so it can only be the last path if that one fitted its line.
theorem kept_lines_short (entries : List CString) (clean : ∀ path ∈ entries, newline ∉ path.bytes)
    (kept : entries <:+ (pieces (fileBytes entries)).map lineOf) : ∀ path ∈ entries, path.bytes.length ≤ 254 := by
  induction entries using List.reverseRecOn with
  | nil => simp
  | append_singleton front path ih =>
      have cleanFront : ∀ other ∈ front, newline ∉ other.bytes := fun other member =>
        clean other (List.mem_append_left [path] member)
      have cleanPath := clean path (by simp)
      obtain ⟨chunks, tail, ends, fits, whole, split⟩ := pieces_line path.bytes cleanPath
      have cleanTail : newline ∉ tail := fun member => cleanPath (ends.subset member)
      have tailNoNul : (0 : UInt8) ∉ tail := fun member => path.noNul (ends.subset member)
      have file : (pieces (fileBytes (front ++ [path]))).map lineOf =
          ((pieces (fileBytes front)).map lineOf ++ chunks.map lineOf) ++ [⟨tail, tailNoNul⟩] := by
        have last : fileBytes (front ++ [path]) = fileBytes front ++ (path.bytes ++ newline :: []) := by
          simp [fileBytes, lineBytes]
        rw [last, pieces_file front _ cleanFront, split, pieces_nil]
        simp [line_of_line tail cleanTail tailNoNul]
      obtain ⟨before, joined⟩ := kept
      rw [file, ← List.append_assoc] at joined
      obtain ⟨earlier, same⟩ := List.append_inj' joined rfl
      have equal : path = ⟨tail, tailNoNul⟩ := List.cons.inj same |>.1
      have short : path.bytes.length ≤ 254 := by
        rw [equal]
        exact fits
      rw [(whole short).1, List.map_nil, List.append_nil] at earlier
      intro other member
      rcases List.mem_append.mp member with inFront | atEnd
      · exact ih cleanFront ⟨before, earlier⟩ other inFront
      · rw [List.mem_singleton.mp atEnd]
        exact short

theorem song_of_injective (path other : CString) (same : songOf path = songOf other) : path = other :=
  congrArg Song.path same

theorem shows_unique (state : ListState) (entries others : List CString) (shows : Shows state entries)
    (other : Shows state others) : entries = others := by
  obtain ⟨cells, rep, named, _⟩ := shows
  obtain ⟨copies, again, renamed, _⟩ := other
  rw [linked_unique state.filelist cells copies rep again, renamed] at named
  exact (List.map_injective_iff.mpr song_of_injective named).symm

theorem load_shows (fresh : NodeHeap) (data : List UInt8) :
    ∃ loaded, readplaylist fresh none (some ⟨data, false, false⟩) = .ok loaded ∧ loaded.result = true ∧
      Shows ⟨loaded.heap, loaded.filelist⟩ (((pieces data).map lineOf).rtake maxPlayListLen) := by
  obtain ⟨loaded, after, ran, rep, result, contents⟩ :=
    readplaylist_rep fresh none [] data ((linked_empty none).mpr rfl)
  refine ⟨loaded, ran, result, after, rep, ?_, ?_⟩
  · rw [contents, push_last_fold maxPlayListLen _ _ (by decide) (Nat.zero_le _)]
    simp [readSongs, songs, List.rtake, Function.comp_def]
  · simp [List.rtake]
    omega

theorem saved_list_round_trips (state : ListState) (entries : List CString) (disk : List UInt8) (fresh : NodeHeap)
    (shows : Shows state entries) (clean : ∀ path ∈ entries, newline ∉ path.bytes) :
    ∃ saved loaded, saveplaylist state.heap state.filelist disk allWritten = .ok saved ∧ saved.result = true ∧
      readplaylist fresh none (some ⟨saved.disk, false, false⟩) = .ok loaded ∧ loaded.result = true ∧
      (Shows ⟨loaded.heap, loaded.filelist⟩ entries ↔ ∀ path ∈ entries, path.bytes.length ≤ 254) := by
  obtain ⟨cells, rep, named, within⟩ := shows
  have written := saveplaylist_rep state.heap state.filelist cells disk rep
  rw [named_paths cells entries named] at written
  obtain ⟨loaded, ran, result, restored⟩ := load_shows fresh (fileBytes entries)
  refine ⟨_, loaded, written, rfl, ran, result, ?_⟩
  constructor
  · intro back
    have same := shows_unique _ _ _ restored back
    apply kept_lines_short entries clean
    have suffix : ((pieces (fileBytes entries)).map lineOf).rtake maxPlayListLen <:+
        (pieces (fileBytes entries)).map lineOf := List.drop_suffix _ _
    rw [same] at suffix
    exact suffix
  · intro short
    have kept := short_lines_kept entries clean short
    rw [kept, List.rtake, Nat.sub_eq_zero_of_le within, List.drop_zero] at restored
    exact restored

theorem saved_two_round_trip :
    ∃ saved loaded, saveplaylist (builtList [cString [47, 97], cString []]).heap (some 0) [] allWritten = .ok saved ∧
      readplaylist Heap.empty none (some ⟨saved.disk, false, false⟩) = .ok loaded ∧
      Shows ⟨loaded.heap, loaded.filelist⟩ [cString [47, 97], cString []] := by
  have shows : Shows ⟨(builtList [cString [47, 97], cString []]).heap, some 0⟩ [cString [47, 97], cString []] :=
    ⟨builtCells [cString [47, 97], cString []], by decide +kernel, by decide +kernel, by decide⟩
  obtain ⟨saved, loaded, written, _, ran, _, same⟩ :=
    saved_list_round_trips _ [cString [47, 97], cString []] [] Heap.empty shows (by decide +kernel)
  exact ⟨saved, loaded, written, ran, same.mpr (by decide +kernel)⟩

end Slogger.Playlist
