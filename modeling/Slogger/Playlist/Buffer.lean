import Slogger.Playlist.Name

set_option autoImplicit false

namespace Slogger.Playlist

open Slogger.Lib

def FindsAdded (heap : NodeHeap) (added : Added) : Prop :=
  findPath added.heap (cString added.buffer) added.heap.bound added.filelist = .ok (some heap.bound) ∧
    ∀ pagehead, removeplaylist added.heap added.filelist (cString added.buffer) pagehead =
      removeplayNode added.heap added.filelist (some heap.bound) pagehead

abbrev Adding := NodeHeap → Pointer → CString → Except Fault Added

def StoresTwice (add : Adding) (heap : NodeHeap) (added : Added) : Prop :=
  ∃ again first second, add added.heap added.filelist (cString added.buffer) = .ok again ∧
    again.heap.deref (some heap.bound) = .ok first ∧
    again.heap.deref (some added.heap.bound) = .ok second ∧ first.path = second.path

-- The add of a path that the caller keeps in such storage. Each add makes the
-- call of extract_file_name with it, and a fault there is one of the add.
def addFrom (storage : Storage) (add : Adding) : Adding := fun heap filelist path => do
  let added ← add heap filelist path
  let _ ← callExtract storage path
  .ok added

-- The caller's path, passed as const char *, after an add, and what follows for
-- the next calls with the same buffer.
def KeepsPath (storage : Storage) (add : Adding) (heap : NodeHeap) (filelist : Pointer) (cells : Cells)
    (path : CString) : Prop :=
  ∃ added, addFrom storage add heap filelist path = .ok added ∧ added.buffer = path.bytes ++ [0] ∧
    (path ∉ paths cells → FindsAdded heap added) ∧ StoresTwice (addFrom storage add) heap added

-- The part of the path the name is taken from has no newline to end it and is
-- not long enough to lose an extension.
def Untouched (path : CString) : Prop :=
  newline ∉ seenPart path ∧ intOfSize (seenPart path).length ≤ 4

instance (path : CString) : Decidable (Untouched path) := inferInstanceAs (Decidable (_ ∧ _))

theorem buffer_after_length (path : CString) : (bufferAfter path).length = path.bytes.length + 1 := by
  simp only [bufferAfter, extractFileName]
  split <;> simp only [List.length_set, List.length_append, List.length_singleton]

theorem name_whole (part : List UInt8) :
    shortened (firstLine part) = part ↔ newline ∉ part ∧ intOfSize part.length ≤ 4 := by
  rw [← take_until_whole newline part, ← firstLine]
  constructor
  · intro same
    have inner : (firstLine part).length ≤ part.length := (List.takeWhile_prefix _).length_le
    have outer : (shortened (firstLine part)).length ≤ (firstLine part).length := (shortened_start _).length_le
    have line : firstLine part = part := by
      apply (List.takeWhile_prefix _).eq_of_length
      have sizes := congrArg List.length same
      exact Nat.le_antisymm inner (sizes ▸ outer)
    refine ⟨line, ?_⟩
    by_contra wide
    rw [line, shortened, if_pos (Int.not_le.mp wide)] at same
    have sizes := congrArg List.length same
    have within := int_of_size_le part.length
    rw [List.length_take] at sizes
    omega
  · intro both
    rw [both.1, shortened, if_neg (Int.not_lt.mpr both.2)]

theorem buffer_untouched (path : CString) : bufferAfter path = path.bytes ++ [0] ↔ Untouched path := by
  obtain ⟨rest, after⟩ := buffer_after_spec path
  have whole := (seen_part_split path).1
  rw [Untouched, ← name_whole]
  constructor
  · intro kept
    rw [after, whole, List.append_cancel_left_eq] at kept
    have texts := congrArg (fun memory => (cString memory).bytes) kept
    rwa [c_string_terminated _ _ (shortened_noNul path), c_string_terminated _ _ (seen_part_noNul path)] at texts
  · intro same
    have sizes : (bufferAfter path).length = (path.bytes ++ [0]).length := by
      rw [buffer_after_length, List.length_append, List.length_singleton]
    rw [after, same, whole] at sizes
    have none : rest = [] := List.eq_nil_of_length_eq_zero (by simpa using sizes)
    rw [after, same, whole, none]

theorem buffer_text (added : Added) (path : CString) (buffer : added.buffer = bufferAfter path)
    (untouched : Untouched path) : added.buffer = path.bytes ++ [0] ∧ cString added.buffer = path := by
  have kept : added.buffer = path.bytes ++ [0] := buffer.trans ((buffer_untouched path).mpr untouched)
  refine ⟨kept, ?_⟩
  rw [kept, c_string_terminated path.bytes [] path.noNul]

theorem find_path_first (heap : NodeHeap) (filelist : Pointer) (left right : Cells) (address : Nat) (path : CString)
    (rep : PlaylistRep heap filelist (left ++ (address, songOf path) :: right)) (absent : path ∉ paths left) :
    findPath heap path heap.bound filelist = .ok (some address) := by
  have passed : (left.find? fun cell => cell.2.path = path) = none := by
    rw [List.find?_eq_none]
    intro cell member same
    exact absent (List.mem_map.mpr ⟨cell, member, by simpa using same⟩)
  rw [find_path_playlist heap filelist _ path rep, List.find?_append, passed]
  simp [songOf]

theorem finds_added (heap : NodeHeap) (added : Added) (left right : Cells) (path : CString)
    (rep : PlaylistRep added.heap added.filelist (left ++ (heap.bound, songOf path) :: right))
    (absent : path ∉ paths left) (buffer : cString added.buffer = path) : FindsAdded heap added := by
  have found := find_path_first added.heap added.filelist left right heap.bound path rep absent
  rw [FindsAdded, buffer]
  refine ⟨found, fun pagehead => ?_⟩
  rw [removeplaylist, found]
  rfl

theorem deref_song (heap : NodeHeap) (filelist : Pointer) (cells : Cells) (address : Nat) (path : CString)
    (rep : PlaylistRep heap filelist cells) (member : (address, songOf path) ∈ cells) :
    ∃ node, heap.deref (some address) = .ok node ∧ node.path = path := by
  obtain ⟨left, right, rfl⟩ := List.append_of_mem member
  exact ⟨_, play_deref heap none none left right address (songOf path) rep.segment, rfl⟩

theorem stores_twice (add : Adding) (heap : NodeHeap)
    (added again : Added) (cells : Cells) (path : CString)
    (ran : add added.heap added.filelist (cString added.buffer) = .ok again)
    (rep : PlaylistRep again.heap again.filelist cells) (first : (heap.bound, songOf path) ∈ cells)
    (second : (added.heap.bound, songOf path) ∈ cells) : StoresTwice add heap added := by
  obtain ⟨one, readOne, sameOne⟩ := deref_song again.heap again.filelist cells heap.bound path rep first
  obtain ⟨two, readTwo, sameTwo⟩ := deref_song again.heap again.filelist cells added.heap.bound path rep second
  exact ⟨again, one, two, ran, readOne, readTwo, sameOne.trans sameTwo.symm⟩

theorem evict_head_keeps (cells : Cells) (cell : Nat × Song) : cell ∈ evictHead (cells ++ [cell]) := by
  rw [evictHead]
  split
  · cases cells with
    | nil => simp_all [maxPlayListLen]
    | cons first rest => simp
  · simp

theorem evict_head_subset (cells : Cells) : evictHead cells ⊆ cells := by
  rw [evictHead]
  split
  · exact (List.tail_sublist cells).subset
  · exact List.Subset.refl cells

theorem add_from_ok (storage : Storage) (add : Adding) (heap : NodeHeap) (filelist : Pointer) (path : CString)
    (added : Added) :
    addFrom storage add heap filelist path = .ok added ↔ add heap filelist path = .ok added ∧ Callable storage path := by
  constructor
  · intro ran
    obtain ⟨result, stored, ran⟩ := (bind_ok_iff _ _ _).mp ran
    obtain ⟨named, called, ended⟩ := (bind_ok_iff _ _ _).mp ran
    obtain rfl := Except.ok.inj ended
    exact ⟨stored, ((call_extract_ok storage path named).mp called).1⟩
  · rintro ⟨stored, callable⟩
    have called := (call_extract_ok storage path _).mpr ⟨callable, rfl⟩
    rw [addFrom, stored, ok_bind, called, ok_bind]

theorem add_last_keeps (storage : Storage) (heap : NodeHeap) (filelist : Pointer) (cells : Cells) (path : CString)
    (rep : PlaylistRep heap filelist cells) (callable : Callable storage path) (untouched : Untouched path) :
    KeepsPath storage addplaylistLast heap filelist cells path := by
  obtain ⟨added, ran, longer, _, buffer⟩ := add_last_rep heap filelist cells path rep
  obtain ⟨kept, text⟩ := buffer_text added path buffer untouched
  obtain ⟨again, ranAgain, twice, _⟩ := add_last_rep added.heap added.filelist _ path longer
  have secondly := (add_from_ok storage _ _ _ _ _).mpr ⟨ranAgain, callable⟩
  rw [← text] at secondly
  refine ⟨added, (add_from_ok storage _ _ _ _ _).mpr ⟨ran, callable⟩, kept, fun absent => ?_, ?_⟩
  · refine finds_added heap added (evictHead cells) [] path longer ?_ text
    exact fun member => absent (List.map_subset _ (evict_head_subset cells) member)
  · exact stores_twice _ heap added again _ path secondly twice
      (List.mem_append_left _ (evict_head_keeps _ _)) (List.mem_append_right _ (List.mem_singleton_self _))

theorem evict_tail_keeps (cells : Cells) (cell : Nat × Song) : cell ∈ evictTail (cell :: cells) := by
  rw [evictTail]
  split
  · cases cells with
    | nil => simp_all [maxPlayListLen]
    | cons second rest => simp
  · simp

theorem add_front_keeps (storage : Storage) (heap : NodeHeap) (filelist : Pointer) (cells : Cells) (path : CString)
    (rep : PlaylistRep heap filelist cells) (nonempty : cells ≠ []) (callable : Callable storage path)
    (untouched : Untouched path) : KeepsPath storage addplaylistFront heap filelist cells path := by
  obtain ⟨added, ran, _, longer, _, buffer⟩ := add_front_rep heap filelist cells path rep nonempty
  obtain ⟨kept, text⟩ := buffer_text added path buffer untouched
  obtain ⟨again, ranAgain, _, twice, _⟩ := add_front_rep added.heap added.filelist _ path longer (List.cons_ne_nil _ _)
  have secondly := (add_from_ok storage _ _ _ _ _).mpr ⟨ranAgain, callable⟩
  rw [← text] at secondly
  refine ⟨added, (add_from_ok storage _ _ _ _ _).mpr ⟨ran, callable⟩, kept, fun _ => ?_, ?_⟩
  · exact finds_added heap added [] (evictTail cells) path longer (by simp [paths]) text
  · exact stores_twice _ heap added again _ path secondly twice
      (List.mem_cons_of_mem _ (evict_tail_keeps _ _)) List.mem_cons_self

theorem keeps_untouched (storage : Storage) (add : Adding) (heap : NodeHeap) (filelist : Pointer) (cells : Cells)
    (path : CString) (added : Added) (ran : add heap filelist path = .ok added)
    (buffer : added.buffer = bufferAfter path) (keeps : KeepsPath storage add heap filelist cells path) :
    Callable storage path ∧ Untouched path := by
  obtain ⟨other, both, kept, _⟩ := keeps
  obtain ⟨also, callable⟩ := (add_from_ok storage add heap filelist path other).mp both
  rw [ran] at also
  cases also
  exact ⟨callable, (buffer_untouched path).mp (buffer.symm.trans kept)⟩

end Slogger.Playlist
