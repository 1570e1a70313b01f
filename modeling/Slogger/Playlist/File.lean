import Slogger.Lib.Sequence
import Slogger.Playlist.Append

set_option autoImplicit false

namespace Slogger.Playlist

open Slogger.Lib

-- An opened input file: the bytes still to come, whether a persistent read
-- error follows them, and the end-of-file indicator that feof reads.
structure InStream where
  data : List UInt8
  failing : Bool
  eof : Bool
deriving DecidableEq

def takeLine : Nat → List UInt8 → List UInt8 × List UInt8
  | 0, data => ([], data)
  | _ + 1, [] => ([], [])
  | limit + 1, byte :: rest =>
      if byte = newline then ([byte], rest)
      else (byte :: (takeLine limit rest).1, (takeLine limit rest).2)

-- fgets(buff, size, file): NULL when nothing was read before the end, and
-- whenever a read error cuts the line short.
def fgets (size : Nat) (file : InStream) : Option (List UInt8) × InStream :=
  let (line, rest) := takeLine (size - 1) file.data
  if line.length = size - 1 ∨ newline ∈ line then (some line, { file with data := rest })
  else if file.failing then (none, { file with data := rest })
  else (if line = [] then none else some line, { file with data := rest, eof := true })

-- buff[strcspn(buff, "\n")] = '\0', and the string buff is then.
def lineOf (buff : List UInt8) : CString :=
  cString ((buff ++ [0]).set (strcspn (buff ++ [0])) 0)

def readLoop : Nat → InStream → NodeHeap → Pointer → Except Fault (NodeHeap × Pointer)
  | 0, file, heap, list => if file.eof then .ok (heap, list) else .error .loops
  | fuel + 1, file, heap, list =>
      if file.eof then .ok (heap, list)
      else
        match fgets 256 file with
        | (some buff, file) => do
            let added ← addplaylistLast heap list (lineOf buff)
            readLoop fuel file added.heap added.filelist
        | (none, file) => readLoop fuel file heap list

structure Loaded where
  heap : NodeHeap
  filelist : Pointer
  result : Bool

-- Every round but the last takes a byte from the file: a loop that is not over
-- after one round for each byte and one more is never over.
def readplaylist (heap : NodeHeap) (list : Pointer) (file : Option InStream) : Except Fault Loaded :=
  match file with
  | none => .ok ⟨heap, list, false⟩
  | some file => do
      let (heap, list) ← readLoop (file.data.length + 1) file heap list
      .ok ⟨heap, list, true⟩

-- What the environment does to saveplaylist: whether fopen answers, how many
-- bytes at the end of each write never arrive, and how many the close loses.
structure WriteFaults where
  opens : Bool
  missing : Nat → Nat
  unflushed : Nat

def allWritten : WriteFaults := ⟨true, fun _ => 0, 0⟩

def arrives (faults : WriteFaults) (call : Nat) (bytes : List UInt8) : List UInt8 :=
  bytes.take (bytes.length - faults.missing call)

def saveLoop (heap : NodeHeap) (faults : WriteFaults) : Nat → Pointer → Nat → List UInt8 → Except Fault (List UInt8)
  | _, none, _, file => .ok file
  | 0, some _, _, _ => .error .loops
  | fuel + 1, some address, call, file => do
      let list ← heap.deref (some address)
      let file := file ++ arrives faults call list.path.bytes
      let file := file ++ arrives faults (call + 1) [newline]
      saveLoop heap faults fuel list.next (call + 2) file

structure Saved where
  disk : List UInt8
  result : Bool

-- fopen(.., "w") empties the old file before anything is written.
def saveplaylist (heap : NodeHeap) (list : Pointer) (disk : List UInt8) (faults : WriteFaults) : Except Fault Saved :=
  if faults.opens then do
    let file ← saveLoop heap faults heap.bound list 0 []
    .ok ⟨file.take (file.length - faults.unflushed), true⟩
  else .ok ⟨disk, false⟩

theorem take_line_split (limit : Nat) (data : List UInt8) :
    (takeLine limit data).1 ++ (takeLine limit data).2 = data := by
  fun_induction takeLine limit data with
  | case1 => rfl
  | case2 => rfl
  | case3 => rfl
  | case4 limit byte rest different ih => simp [ih]

theorem take_line_progress (limit : Nat) (data : List UInt8) (positive : 0 < limit) (more : data ≠ []) :
    (takeLine limit data).1 ≠ [] := by
  obtain ⟨byte, rest, rfl⟩ := List.exists_cons_of_ne_nil more
  obtain ⟨shorter, rfl⟩ := Nat.exists_eq_succ_of_ne_zero (Nat.ne_of_gt positive)
  rw [takeLine]
  split <;> simp

theorem take_line_shorter (limit : Nat) (data : List UInt8) (positive : 0 < limit) (more : data ≠ []) :
    (takeLine limit data).2.length < data.length := by
  have progress := List.length_pos_of_ne_nil (take_line_progress limit data positive more)
  have split := congrArg List.length (take_line_split limit data)
  rw [List.length_append] at split
  omega

theorem take_line_exhausted (limit : Nat) (data : List UInt8)
    (short : ¬ ((takeLine limit data).1.length = limit ∨ newline ∈ (takeLine limit data).1)) :
    (takeLine limit data).2 = [] := by
  fun_induction takeLine limit data with
  | case1 => simp at short
  | case2 => rfl
  | case3 => simp at short
  | case4 limit byte rest different ih =>
      apply ih
      rintro (full | ended)
      · exact short (.inl (by simp [full]))
      · exact short (.inr (List.mem_cons_of_mem _ ended))

def pieces (data : List UInt8) : List (List UInt8) :=
  if _nonempty : data = [] then [] else (takeLine 255 data).1 :: pieces (takeLine 255 data).2
termination_by data.length
decreasing_by exact take_line_shorter 255 data (by omega) _nonempty

theorem pieces_nil : pieces [] = [] := by
  rw [pieces, dif_pos rfl]

theorem pieces_next (data : List UInt8) (nonempty : data ≠ []) :
    pieces data = (takeLine 255 data).1 :: pieces (takeLine 255 data).2 := by
  rw [pieces, dif_neg nonempty]

def Complete (line : List UInt8) : Prop := line.length = 255 ∨ newline ∈ line

theorem fgets_complete (file : InStream) (complete : Complete (takeLine 255 file.data).1) :
    fgets 256 file = (some (takeLine 255 file.data).1, { file with data := (takeLine 255 file.data).2 }) := by
  simp only [Complete] at complete
  simp only [fgets, Nat.reduceSub, if_pos complete]

theorem fgets_short (file : InStream) (short : ¬ Complete (takeLine 255 file.data).1) :
    fgets 256 file =
      if file.failing then (none, { file with data := [] })
      else (if (takeLine 255 file.data).1 = [] then none else some (takeLine 255 file.data).1,
        { file with data := [], eof := true }) := by
  simp only [Complete] at short
  simp only [fgets, Nat.reduceSub, if_neg short, take_line_exhausted 255 file.data short]

theorem songs_add_last (cells : Cells) (address : Nat) (song : Song) :
    songs (evictHead cells ++ [(address, song)]) = pushLast maxPlayListLen (songs cells) song := by
  rw [show evictHead cells ++ [(address, song)] = pushLast maxPlayListLen cells (address, song) from rfl]
  exact push_last_map Prod.snd maxPlayListLen cells (address, song)

theorem read_loop_line (heap : NodeHeap) (list : Pointer) (cells : Cells) (file rest : InStream)
    (buff : List UInt8) (fuel : Nat) (rep : PlaylistRep heap list cells) (more : file.eof = false)
    (got : fgets 256 file = (some buff, rest)) :
    ∃ next head, readLoop (fuel + 1) file heap list = readLoop fuel rest next head ∧
      PlaylistRep next head (evictHead cells ++ [(heap.bound, songOf (lineOf buff))]) := by
  obtain ⟨added, ran, longer, _⟩ := add_last_rep heap list cells (lineOf buff) rep
  refine ⟨added.heap, added.filelist, ?_, longer⟩
  simp only [readLoop, more, Bool.false_eq_true, if_false, got, ran, ok_bind]

theorem read_loop_rep (file : InStream) (heap : NodeHeap) (list : Pointer) (cells : Cells) (fuel : Nat)
    (rep : PlaylistRep heap list cells) (good : file.failing = false) (more : file.eof = false)
    (enough : file.data.length < fuel) :
    ∃ next head after, readLoop fuel file heap list = .ok (next, head) ∧ PlaylistRep next head after ∧
      songs after = ((pieces file.data).map fun piece => songOf (lineOf piece)).foldl
        (pushLast maxPlayListLen) (songs cells) := by
  induction fuel generalizing file heap list cells with
  | zero => simp at enough
  | succ fuel ih =>
      by_cases complete : Complete (takeLine 255 file.data).1
      · have nonempty : file.data ≠ [] := by
          intro empty
          simp [Complete, empty, takeLine] at complete
        obtain ⟨next, head, round, longer⟩ :=
          read_loop_line heap list cells file _ _ fuel rep more (fgets_complete file complete)
        have shorter := take_line_shorter 255 file.data (by omega) nonempty
        obtain ⟨last, final, after, ran, represented, contents⟩ :=
          ih { file with data := (takeLine 255 file.data).2 } next head _ longer good more
            (Nat.lt_of_lt_of_le shorter (Nat.le_of_lt_succ enough))
        refine ⟨last, final, after, round.trans ran, represented, ?_⟩
        rw [contents, pieces_next file.data nonempty, List.map_cons, List.foldl_cons, songs_add_last]
      · have short := fgets_short file complete
        rw [good] at short
        by_cases empty : file.data = []
        · refine ⟨heap, list, cells, ?_, rep, by simp [pieces_nil, empty]⟩
          simp only [empty, takeLine, Bool.false_eq_true, if_false, if_true] at short
          simp only [readLoop, more, Bool.false_eq_true, if_false, short]
          cases fuel <;> rfl
        · have nonempty := take_line_progress 255 file.data (by omega) empty
          simp only [Bool.false_eq_true, if_false, if_neg nonempty] at short
          obtain ⟨next, head, round, longer⟩ := read_loop_line heap list cells file _ _ fuel rep more short
          refine ⟨next, head, _, ?_, longer, ?_⟩
          · rw [round]
            cases fuel <;> rfl
          · have drained : (takeLine 255 file.data).2 = [] := take_line_exhausted 255 file.data complete
            rw [songs_add_last, pieces_next file.data empty, drained, pieces_nil]
            rfl

theorem read_loop_failing (file : InStream) (heap : NodeHeap) (list : Pointer) (cells : Cells) (fuel : Nat)
    (rep : PlaylistRep heap list cells) (bad : file.failing = true) (more : file.eof = false) :
    readLoop fuel file heap list = .error .loops := by
  induction fuel generalizing file heap list cells with
  | zero => simp [readLoop, more]
  | succ fuel ih =>
      by_cases complete : Complete (takeLine 255 file.data).1
      · obtain ⟨next, head, round, longer⟩ :=
          read_loop_line heap list cells file _ _ fuel rep more (fgets_complete file complete)
        rw [round]
        exact ih _ next head _ longer bad more
      · have short := fgets_short file complete
        rw [if_pos bad] at short
        simp only [readLoop, more, Bool.false_eq_true, if_false, short]
        exact ih _ heap list cells rep bad rfl

def readSongs (data : List UInt8) : List Song := (pieces data).map fun piece => songOf (lineOf piece)

theorem readplaylist_rep (heap : NodeHeap) (list : Pointer) (cells : Cells) (data : List UInt8)
    (rep : PlaylistRep heap list cells) :
    ∃ loaded after, readplaylist heap list (some ⟨data, false, false⟩) = .ok loaded ∧
      PlaylistRep loaded.heap loaded.filelist after ∧ loaded.result = true ∧
      songs after = (readSongs data).foldl (pushLast maxPlayListLen) (songs cells) := by
  obtain ⟨next, head, after, ran, represented, contents⟩ :=
    read_loop_rep ⟨data, false, false⟩ heap list cells (data.length + 1) rep rfl rfl (Nat.lt_succ_self _)
  refine ⟨⟨next, head, true⟩, after, ?_, represented, rfl, contents⟩
  simp only [readplaylist, ran, ok_bind]

end Slogger.Playlist
