import Slogger.Playlist.RoundTrip

set_option autoImplicit false

namespace Slogger.Playlist

open Slogger.Lib

-- The lines of a file, each with the newline that ends it; the last one may
-- end with the file instead.
def rawLines : List UInt8 → List (List UInt8)
  | [] => []
  | byte :: rest =>
      if byte = newline then [byte] :: rawLines rest
      else
        match rawLines rest with
        | [] => [[byte]]
        | line :: others => (byte :: line) :: others

def fileLines (data : List UInt8) : List CString := (rawLines data).map lineText

-- readplaylist makes one entry of each line of the file, whole and in order.
def ReadsLines (heap : NodeHeap) (list : Pointer) (cells : Cells) (data : List UInt8) : Prop :=
  ∃ loaded after, readplaylist heap list (some ⟨data, false, false⟩) = .ok loaded ∧
    PlaylistRep loaded.heap loaded.filelist after ∧ paths after = (paths cells ++ fileLines data).rtake maxPlayListLen

def OneLine (raw : List UInt8) : Prop := raw ≠ [] ∧ newline ∉ raw.dropLast

theorem raw_lines_line (bytes rest : List UInt8) (clean : newline ∉ bytes) :
    rawLines (bytes ++ newline :: rest) = (bytes ++ [newline]) :: rawLines rest := by
  induction bytes with
  | nil => simp [rawLines]
  | cons byte bytes ih =>
      have different : byte ≠ newline := (List.ne_of_not_mem_cons clean).symm
      have later : newline ∉ bytes := List.not_mem_of_not_mem_cons clean
      simp only [List.cons_append, rawLines, if_neg different, ih later]

theorem raw_lines_last (bytes : List UInt8) (nonempty : bytes ≠ []) (clean : newline ∉ bytes) :
    rawLines bytes = [bytes] := by
  induction bytes with
  | nil => exact absurd rfl nonempty
  | cons byte bytes ih =>
      have different : byte ≠ newline := (List.ne_of_not_mem_cons clean).symm
      have later : newline ∉ bytes := List.not_mem_of_not_mem_cons clean
      cases bytes with
      | nil => simp [rawLines, different]
      | cons second rest => rw [rawLines, if_neg different, ih (List.cons_ne_nil _ _) later]

theorem file_induction {motive : List UInt8 → Prop} (empty : motive [])
    (last : ∀ bytes, bytes ≠ [] → newline ∉ bytes → motive bytes)
    (line : ∀ bytes rest, newline ∉ bytes → motive rest → motive (bytes ++ newline :: rest)) (data : List UInt8) :
    motive data := by
  by_cases more : newline ∈ data
  · obtain ⟨bytes, rest, split, clean⟩ := List.eq_append_cons_of_mem more
    have shorter : rest.length < data.length := by
      rw [split, List.length_append, List.length_cons]
      omega
    rw [split]
    exact line bytes rest clean (file_induction empty last line rest)
  · by_cases nonempty : data = []
    · rw [nonempty]
      exact empty
    · exact last data nonempty more
termination_by data.length

theorem raw_lines_one (data : List UInt8) : ∀ raw ∈ rawLines data, OneLine raw ∧ raw ⊆ data := by
  induction data using file_induction with
  | empty => simp [rawLines]
  | last bytes nonempty clean =>
      rw [raw_lines_last bytes nonempty clean]
      intro raw member
      rw [List.mem_singleton.mp member]
      exact ⟨⟨nonempty, fun inside => clean ((List.dropLast_sublist bytes).subset inside)⟩, List.Subset.refl bytes⟩
  | line bytes rest clean ih =>
      rw [raw_lines_line bytes rest clean]
      intro raw member
      rcases List.mem_cons.mp member with rfl | later
      · refine ⟨⟨by simp, by simpa using clean⟩, ?_⟩
        exact List.append_subset.mpr ⟨List.subset_append_left _ _, by simp⟩
      · obtain ⟨one, inside⟩ := ih raw later
        exact ⟨one, List.Subset.trans inside (List.Subset.trans (List.subset_cons_self _ _) (List.subset_append_right _ _))⟩

theorem take_line_one (limit : Nat) (raw : List UInt8) (one : newline ∉ raw.dropLast) :
    takeLine limit raw = (raw.take limit, raw.drop limit) := by
  induction raw generalizing limit with
  | nil => cases limit <;> simp [takeLine]
  | cons byte rest ih =>
      cases limit with
      | zero => simp [takeLine]
      | succ limit =>
          cases rest with
          | nil => cases limit <;> simp [takeLine]
          | cons second rest =>
              rw [List.dropLast_cons_cons, List.mem_cons, not_or] at one
              have different : byte ≠ newline := fun same => one.1 same.symm
              rw [takeLine, if_neg different, ih limit one.2, List.take_succ_cons, List.drop_succ_cons]

theorem one_line_append (cut tail : List UInt8) (nonempty : tail ≠ []) :
    OneLine (cut ++ tail) ↔ newline ∉ cut ∧ OneLine tail := by
  simp only [OneLine, List.dropLast_append_of_ne_nil nonempty, List.mem_append, not_or, ne_eq, List.append_eq_nil_iff,
    nonempty, and_false, not_false_eq_true, true_and]

theorem pieces_one (raw : List UInt8) (one : OneLine raw) :
    ∃ cut front tail, raw = cut ++ tail ∧ tail ≠ [] ∧ tail.length ≤ 255 ∧ pieces raw = front ++ [tail] ∧
      (raw.length ≤ 255 → cut = [] ∧ front = []) := by
  by_cases fits : raw.length ≤ 255
  · refine ⟨[], [], raw, rfl, one.1, fits, ?_, fun _ => ⟨rfl, rfl⟩⟩
    rw [pieces_next raw one.1, take_line_one 255 raw one.2, List.take_of_length_le fits,
      List.drop_eq_nil_of_le fits, pieces_nil, List.nil_append]
  · have rest : raw.drop 255 ≠ [] := fun empty => fits (List.drop_eq_nil_iff.mp empty)
    have later : OneLine (raw.drop 255) :=
      ((one_line_append (raw.take 255) _ rest).mp (by rwa [List.take_append_drop])).2
    obtain ⟨cut, front, tail, split, nonempty, small, ends, _⟩ := pieces_one (raw.drop 255) later
    refine ⟨raw.take 255 ++ cut, raw.take 255 :: front, tail, ?_, nonempty, small, ?_, fun short => absurd short fits⟩
    · rw [List.append_assoc, ← split, List.take_append_drop]
    · rw [pieces_next raw one.1, take_line_one 255 raw one.2, ends, List.cons_append]
termination_by raw.length
decreasing_by
  rw [List.length_drop]
  omega

theorem pieces_lines (data : List UInt8) : pieces data = (rawLines data).flatMap pieces := by
  induction data using file_induction with
  | empty => simp [rawLines, pieces_nil]
  | last bytes nonempty clean => rw [raw_lines_last bytes nonempty clean, List.flatMap_singleton]
  | line bytes rest clean ih =>
      obtain ⟨front, tail, _, _, _, split⟩ := pieces_line bytes clean
      rw [raw_lines_line bytes rest clean, List.flatMap_cons, ← ih, split rest, split [], pieces_nil]
      simp

theorem fitting_line (raw : List UInt8) (one : OneLine raw) (fits : raw.length ≤ 255) :
    (pieces raw).map lineOf = [lineText raw] := by
  obtain ⟨cut, front, tail, split, _, _, ends, whole⟩ := pieces_one raw one
  obtain ⟨rfl, rfl⟩ := whole fits
  rw [ends, split, List.nil_append, List.nil_append, List.map_singleton, line_of_text]

-- What is left of a cut line is shorter than its text.
theorem cut_line (raw : List UInt8) (one : OneLine raw) (noNul : (0 : UInt8) ∉ raw) (long : ¬ raw.length ≤ 255) :
    ∃ front last, (pieces raw).map lineOf = front ++ [last] ∧ last ≠ lineText raw := by
  obtain ⟨cut, front, tail, rfl, nonempty, small, ends, _⟩ := pieces_one raw one
  refine ⟨front.map lineOf, lineText tail, by rw [ends, List.map_append, List.map_singleton, line_of_text], ?_⟩
  have clean := ((one_line_append cut tail nonempty).mp one).1
  have nonzero : (0 : UInt8) ∉ cut := fun member => noNul (List.mem_append_left tail member)
  have text : (lineText (cut ++ tail)).bytes = cut ++ (lineText tail).bytes := by
    simp only [lineText, cString, take_until_append newline cut tail clean, take_until_append 0 cut _ nonzero]
  intro same
  have lengths := congrArg (fun path => path.bytes.length) same
  simp only [text, List.length_append] at lengths long
  omega

theorem readplaylist_paths (heap : NodeHeap) (list : Pointer) (cells : Cells) (data : List UInt8)
    (rep : PlaylistRep heap list cells) (within : cells.length ≤ maxPlayListLen) :
    ∃ loaded after, readplaylist heap list (some ⟨data, false, false⟩) = .ok loaded ∧
      PlaylistRep loaded.heap loaded.filelist after ∧
      paths after = (paths cells ++ (pieces data).map lineOf).rtake maxPlayListLen := by
  obtain ⟨loaded, after, ran, represented, _, contents⟩ := readplaylist_rep heap list cells data rep
  refine ⟨loaded, after, ran, represented, ?_⟩
  rw [push_last_fold maxPlayListLen _ _ (by decide) (by simpa [songs] using within)] at contents
  rw [paths_songs, contents, List.rtake, List.rtake, List.map_drop, List.map_append, ← paths_songs]
  simp [readSongs, songs, paths, songOf, Function.comp_def]

-- A line of the file becomes one entry when it fits the buffer together with
-- its newline; a longer one matters unless sixteen lines follow it.
theorem read_lines_exact (heap : NodeHeap) (list : Pointer) (cells : Cells) (data : List UInt8)
    (rep : PlaylistRep heap list cells) (within : cells.length ≤ maxPlayListLen) (noNul : (0 : UInt8) ∉ data) :
    ReadsLines heap list cells data ↔ ∀ raw ∈ (rawLines data).rtake maxPlayListLen, raw.length ≤ 255 := by
  obtain ⟨loaded, after, ran, represented, contents⟩ := readplaylist_paths heap list cells data rep within
  have lines := raw_lines_one data
  have newest := newest_images_iff maxPlayListLen (paths cells) (rawLines data) (fun raw => (pieces raw).map lineOf)
    lineText (fun raw => raw.length ≤ 255) (fun raw member fits => fitting_line raw (lines raw member).1 fits)
    (fun raw member long => cut_line raw (lines raw member).1 (fun zero => noNul ((lines raw member).2 zero)) long)
  rw [← newest, ← List.map_flatMap, ← pieces_lines, ← contents]
  constructor
  · rintro ⟨other, others, again, rerepresented, named⟩
    obtain rfl := Except.ok.inj (ran.symm.trans again)
    rw [linked_unique _ _ _ represented rerepresented]
    exact named
  · exact fun same => ⟨loaded, after, ran, represented, same⟩

theorem read_lines_two : ReadsLines Heap.empty none [] [97, 10, 98] := by
  have reads := read_lines_exact Heap.empty none [] [97, 10, 98] ((linked_empty none).mpr rfl) (Nat.zero_le _) (by decide)
  exact reads.mpr (by decide)

theorem full_line_splits (bytes : List UInt8) (full : bytes.length = 255) (clean : newline ∉ bytes) :
    ¬ ReadsLines Heap.empty none [] (bytes ++ [newline]) := by
  rintro ⟨loaded, after, ran, rep, named⟩
  obtain ⟨other, others, again, rerep, contents⟩ := readplaylist_paths Heap.empty none []
    (bytes ++ [newline]) ((linked_empty none).mpr rfl) (Nat.zero_le _)
  obtain rfl := Except.ok.inj (ran.symm.trans again)
  have two : pieces (bytes ++ [newline]) = [bytes, [newline]] := by
    have last := pieces_fits [] [] List.not_mem_nil (Nat.zero_le _)
    rw [pieces_cut bytes [] clean (Nat.le_of_eq full.symm), List.take_of_length_le (Nat.le_of_eq full),
      List.drop_eq_nil_of_le (Nat.le_of_eq full), last, pieces_nil, List.nil_append]
  have sole := raw_lines_line bytes [] clean
  rw [linked_unique _ _ _ rep rerep, contents, two, fileLines, sole] at named
  have lengths := congrArg List.length named
  simp [rawLines, paths, List.rtake, maxPlayListLen] at lengths

-- One line of 255 bytes: its newline becomes a second, empty entry.
theorem long_line_splits :
    (0 : UInt8) ∉ List.replicate 255 97 ++ [newline] ∧
      ¬ ReadsLines Heap.empty none [] (List.replicate 255 97 ++ [newline]) := by
  have only : ∀ byte ∈ List.replicate 255 (97 : UInt8), byte = 97 := fun byte => List.eq_of_mem_replicate
  constructor
  · rw [List.mem_append, not_or]
    exact ⟨fun zero => absurd (only 0 zero) (by decide), by decide⟩
  · exact full_line_splits _ List.length_replicate (fun ended => absurd (only newline ended) (by decide))

end Slogger.Playlist
