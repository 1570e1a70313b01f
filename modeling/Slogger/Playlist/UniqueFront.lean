import Slogger.Playlist.Unique

set_option autoImplicit false

namespace Slogger.Playlist

open Slogger.Lib

-- The walk of addplaylist_front with UNIQUE. Its prv is NULL from the start to
-- the end: the line that would set it is commented out.
def frontWalkUnique (path : CString) : Nat → NodeHeap → Pointer → Pointer → Pointer → Nat →
    Except Fault (NodeHeap × Pointer × Pointer × Nat)
  | _, heap, filelist, none, prvtoPrv, count => .ok (heap, filelist, prvtoPrv, count)
  | 0, _, _, some _, _, _ => .error .loops
  | fuel + 1, heap, filelist, some address, prvtoPrv, count => do
      let list ← heap.deref (some address)
      if list.path = path then do
        let prv : Pointer := none
        let tmp := list.next
        let (heap, filelist) ← unlinkDuplicate heap filelist prv (some address) tmp
        frontWalkUnique path fuel heap filelist tmp prvtoPrv count
      else do
        let prvtoPrv ←
          match list.next with
          | none => .ok prvtoPrv
          | some follower => do
              let after ← heap.deref (some follower)
              .ok (if after.next = none then some address else prvtoPrv)
        frontWalkUnique path fuel heap filelist list.next prvtoPrv (count + 1)

def addplaylistFrontUnique (heap : NodeHeap) (filelist : Pointer) (path : CString) : Except Fault Added := do
  let (heap, filelist, prvtoPrv, count) ← frontWalkUnique path heap.bound heap filelist filelist none 0
  let heap ← if count = maxPlayListLen then evictLast heap prvtoPrv else .ok heap
  let (heap, filelist) ← linkFront heap filelist path
  .ok ⟨heap, filelist, bufferAfter path⟩

def PrependsUnique (heap : NodeHeap) (filelist : Pointer) (cells : Cells) (path : CString) : Prop :=
  ∃ added after, addplaylistFrontUnique heap filelist path = .ok added ∧
    PlaylistRep added.heap added.filelist after ∧
    paths after = pushFirst maxPlayListLen ((paths cells).erase path) path

theorem front_unique_step (heap : NodeHeap) (path : CString) (before filelist keep : Pointer) (cell : Nat × Song)
    (rest : Cells) (fuel count : Nat) (segment : Segment playLayout heap before (cell :: rest) none)
    (apart : ¬ cell.2.path = path) :
    ∃ kept, frontWalkUnique path (fuel + 1) heap filelist (some cell.1) keep count =
        frontWalkUnique path fuel heap filelist (firstOf rest none) kept (count + 1) ∧
      frontWalk heap (fuel + 1) (some cell.1) keep count = frontWalk heap fuel (firstOf rest none) kept (count + 1) := by
  have head := play_deref heap before none [] rest cell.1 cell.2 segment
  rw [frontWalkUnique, frontWalk, head, ok_bind, ok_bind]
  simp only [if_neg apart]
  cases rest with
  | nil => exact ⟨keep, rfl, rfl⟩
  | cons follower rest =>
      have next := play_deref heap (some cell.1) none [] rest follower.1 follower.2 segment.2
      simp only [first_of_cons, next, ok_bind]
      exact ⟨_, rfl, rfl⟩

theorem front_unique_passes (heap : NodeHeap) (path : CString) (before filelist keep : Pointer) (cells later : Cells)
    (fuel count : Nat) (segment : Segment playLayout heap before (cells ++ later) none) (absent : path ∉ paths cells)
    (enough : cells.length ≤ fuel) :
    ∃ kept, frontWalkUnique path fuel heap filelist (firstOf (cells ++ later) none) keep count =
        frontWalkUnique path (fuel - cells.length) heap filelist (firstOf later none) kept (count + cells.length) ∧
      frontWalk heap fuel (firstOf (cells ++ later) none) keep count =
        frontWalk heap (fuel - cells.length) (firstOf later none) kept (count + cells.length) := by
  induction cells generalizing before keep fuel count with
  | nil => exact ⟨keep, rfl, rfl⟩
  | cons cell rest ih =>
      cases fuel with
      | zero => simp at enough
      | succ fuel =>
          have apart : ¬ cell.2.path = path := fun same => absent (by simp [paths, same])
          have others : path ∉ paths rest := fun member => absent (List.mem_cons_of_mem _ member)
          obtain ⟨kept, stepped, plainly⟩ :=
            front_unique_step heap path before filelist keep cell (rest ++ later) fuel count segment apart
          obtain ⟨last, walked, alike⟩ :=
            ih (some cell.1) kept fuel (count + 1) segment.2 others (by simpa using enough)
          have counted : count + 1 + rest.length = count + (cell :: rest).length := by
            rw [List.length_cons]
            omega
          rw [counted] at walked alike
          refine ⟨last, ?_, ?_⟩
          · rw [List.cons_append, first_of_cons, stepped, walked, List.length_cons, Nat.add_sub_add_right]
          · rw [List.cons_append, first_of_cons, plainly, alike, List.length_cons, Nat.add_sub_add_right]

theorem front_unique_absent (heap : NodeHeap) (filelist : Pointer) (cells : Cells) (path : CString)
    (rep : PlaylistRep heap filelist cells) (absent : path ∉ paths cells) :
    addplaylistFrontUnique heap filelist path = addplaylistFront heap filelist path := by
  obtain ⟨kept, walked, plainly⟩ := front_unique_passes heap path none filelist none cells [] heap.bound 0
    (by simpa using rep.segment) absent (linked_length_bound filelist cells rep)
  rw [List.append_nil, ← rep.entry] at walked plainly
  rw [addplaylistFrontUnique, addplaylistFront, walked, plainly]
  cases heap.bound - cells.length <;> rfl

-- Wherever the duplicate stands, the list head moves to the node after it.
theorem front_unique_walk (heap : NodeHeap) (filelist : Pointer) (left right : Cells) (address : Nat) (song : Song)
    (rep : PlaylistRep heap filelist (left ++ (address, song) :: right)) (before : song.path ∉ paths left)
    (behind : song.path ∉ paths right) :
    ∃ kept, frontWalkUnique song.path heap.bound heap filelist filelist none 0 =
        .ok (heap.erase address, firstOf right none, kept, left.length + right.length) ∧
      Segment playLayout (heap.erase address) (some address) right none := by
  have counted := linked_length_bound filelist _ rep
  rw [List.length_append, List.length_cons] at counted
  have read := play_deref heap none none left right address song rep.segment
  obtain ⟨_, tail⟩ := (segment_append none none left _).mp rep.segment
  have parts := List.nodup_append.mp (addresses_append left _ ▸ rep.distinct)
  obtain ⟨unlinked, back⟩ := unlink_first heap filelist (lastOf none left) address song right tail parts.2.1
  obtain ⟨kept, walked, _⟩ := front_unique_passes heap song.path none filelist none left ((address, song) :: right)
    heap.bound 0 rep.segment before (by omega)
  obtain ⟨fuel, remaining⟩ : ∃ fuel, heap.bound - left.length = fuel + 1 := ⟨heap.bound - left.length - 1, by omega⟩
  obtain ⟨last, passed, _⟩ := front_unique_passes (heap.erase address) song.path (some address) (firstOf right none) kept
    right [] fuel (0 + left.length) (by simpa using back) behind (by omega)
  refine ⟨last, ?_, back⟩
  rw [← rep.entry] at walked
  rw [List.append_nil] at passed
  rw [walked, remaining, first_of_cons, frontWalkUnique, read, ok_bind]
  simp only [if_true, unlinked, ok_bind, passed]
  rw [Nat.zero_add]
  cases fuel - right.length <;> rfl

theorem push_first_moved (left right : List CString) (path : CString) (before : path ∉ left)
    (within : (left ++ path :: right).length ≤ maxPlayListLen) :
    pushFirst maxPlayListLen ((left ++ path :: right).erase path) path = path :: (left ++ right) := by
  have shorter : ¬ (left ++ right).length = maxPlayListLen := by
    simp only [List.length_append, List.length_cons] at within ⊢
    omega
  rw [erase_middle left right path before, pushFirst, if_neg shorter]

theorem front_unique_links (heap : NodeHeap) (filelist : Pointer) (left right : Cells) (address : Nat) (song : Song)
    (rep : PlaylistRep heap filelist (left ++ (address, song) :: right)) (before : song.path ∉ paths left)
    (behind : song.path ∉ paths right) (within : (left ++ (address, song) :: right).length ≤ maxPlayListLen) :
    addplaylistFrontUnique heap filelist song.path = (do
      let (heap, filelist) ← linkFront (heap.erase address) (firstOf right none) song.path
      .ok ⟨heap, filelist, bufferAfter song.path⟩) := by
  obtain ⟨kept, walked, _⟩ := front_unique_walk heap filelist left right address song rep before behind
  have below : ¬ left.length + right.length = maxPlayListLen := by
    simp only [List.length_append, List.length_cons] at within
    omega
  simp only [addplaylistFrontUnique, walked, ok_bind, if_neg below]

theorem front_unique_rep (heap : NodeHeap) (filelist : Pointer) (left rest : Cells) (address : Nat) (song : Song)
    (follower : Nat × Song) (rep : PlaylistRep heap filelist (left ++ (address, song) :: follower :: rest))
    (before : song.path ∉ paths left) (behind : song.path ∉ paths (follower :: rest))
    (within : (left ++ (address, song) :: follower :: rest).length ≤ maxPlayListLen) :
    ∃ added, addplaylistFrontUnique heap filelist song.path = .ok added ∧
      PlaylistRep added.heap added.filelist ((heap.bound, songOf song.path) :: follower :: rest) := by
  obtain ⟨_, _, back⟩ := front_unique_walk heap filelist left (follower :: rest) address song rep before behind
  have around := distinct_around left (follower :: rest) (address, song) rep.distinct
  obtain ⟨next, linked, longer, _⟩ := link_front_segment (heap.erase address) (some address) follower rest
    song.path back around.behind
  refine ⟨⟨next, some heap.bound, bufferAfter song.path⟩, ?_, longer⟩
  rw [front_unique_links heap filelist left (follower :: rest) address song rep before behind within, first_of_cons, linked]
  rfl

-- With entries before the duplicate these are gone from the list, and with no
-- entry behind it the new node is linked to NULL.
theorem prepends_unique_moved (heap : NodeHeap) (filelist : Pointer) (left right : Cells) (address : Nat) (song : Song)
    (rep : PlaylistRep heap filelist (left ++ (address, song) :: right)) (before : song.path ∉ paths left)
    (behind : song.path ∉ paths right) (within : (left ++ (address, song) :: right).length ≤ maxPlayListLen) :
    PrependsUnique heap filelist (left ++ (address, song) :: right) song.path ↔ left = [] ∧ right ≠ [] := by
  have expected := push_first_moved (paths left) (paths right) song.path before (by simpa [paths] using within)
  rw [PrependsUnique, paths_append, paths_cons, expected]
  cases right with
  | nil =>
      refine iff_of_false ?_ (fun outcome => outcome.2 rfl)
      rintro ⟨added, _, ran, _⟩
      rw [front_unique_links heap filelist left [] address song rep before behind within] at ran
      cases ran
  | cons follower rest =>
      obtain ⟨added, ran, longer⟩ :=
        front_unique_rep heap filelist left rest address song follower rep before behind within
      constructor
      · rintro ⟨other, after, again, represented, named⟩
        obtain rfl := Except.ok.inj (ran.symm.trans again)
        rw [linked_unique _ _ _ represented longer] at named
        have lengths := congrArg List.length named
        simp only [paths, List.map_cons, List.length_cons, List.length_append, List.length_map] at lengths
        exact ⟨List.length_eq_zero_iff.mp (by omega), List.cons_ne_nil _ _⟩
      · rintro ⟨rfl, _⟩
        exact ⟨added, _, ran, longer, rfl⟩

theorem prepends_unique_exact (heap : NodeHeap) (filelist : Pointer) (cells : Cells) (path : CString)
    (rep : PlaylistRep heap filelist cells) (within : cells.length ≤ maxPlayListLen) (distinct : (paths cells).Nodup) :
    PrependsUnique heap filelist cells path ↔
      (path ∉ paths cells ∧ cells ≠ []) ∨ ((paths cells).head? = some path ∧ 2 ≤ cells.length) := by
  rcases first_path_split cells path with ⟨absent, _⟩ | ⟨left, ⟨address, song⟩, right, rfl, before, rfl, _⟩
  · have notFirst : (paths cells).head? ≠ some path := fun first => absent (List.mem_of_head? first)
    have same := front_unique_absent heap filelist cells path rep absent
    by_cases empty : cells = []
    · refine iff_of_false ?_ (by simp [empty, paths])
      rintro ⟨added, _, ran, _⟩
      rw [same, (linked_null filelist cells rep).mpr empty, add_front_null] at ran
      cases ran
    · refine iff_of_true ?_ (.inl ⟨absent, empty⟩)
      obtain ⟨added, ran, _, longer, _⟩ := add_front_rep heap filelist cells path rep empty
      refine ⟨added, _, same.trans ran, longer, ?_⟩
      rw [List.erase_of_not_mem absent]
      exact push_first_map (fun cell => cell.2.path) maxPlayListLen cells (heap.bound, songOf path)
  · have listed : song.path ∈ paths (left ++ (address, song) :: right) := by simp [paths]
    have behind := path_not_behind left right (address, song) distinct
    rw [prepends_unique_moved heap filelist left right address song rep before behind within]
    constructor
    · rintro ⟨rfl, others⟩
      refine .inr ⟨rfl, ?_⟩
      have positive := List.length_pos_of_ne_nil others
      simp only [List.nil_append, List.length_cons]
      omega
    · rintro (⟨absent, _⟩ | ⟨first, long⟩)
      · exact absurd listed absent
      · cases left with
        | nil =>
            refine ⟨rfl, ?_⟩
            rintro rfl
            simp at long
        | cons cell rest =>
            have same : cell.2.path = song.path := Option.some.inj first
            exact absurd (by simp [paths, same]) before

-- Both routines of the UNIQUE build on a list without duplicates. The
-- sequences they should build keep the paths apart and lose none but the
-- evicted one; the last two parts say so.
theorem unique_adds_exact (heap : NodeHeap) (filelist : Pointer) (cells : Cells) (path : CString)
    (rep : PlaylistRep heap filelist cells) (within : cells.length ≤ maxPlayListLen) (distinct : (paths cells).Nodup) :
    (AppendsUnique heap filelist cells path ↔ path ∉ paths cells ∨ (paths cells).getLast? = some path) ∧
    (PrependsUnique heap filelist cells path ↔
      (path ∉ paths cells ∧ cells ≠ []) ∨ ((paths cells).head? = some path ∧ 2 ≤ cells.length)) ∧
    Kept ((paths cells).erase path) (pushLast maxPlayListLen ((paths cells).erase path) path)
      (if ((paths cells).erase path).length = maxPlayListLen then ((paths cells).erase path).head? else none) ∧
    Kept ((paths cells).erase path) (pushFirst maxPlayListLen ((paths cells).erase path) path)
      (if ((paths cells).erase path).length = maxPlayListLen then ((paths cells).erase path).getLast? else none) := by
  have remaining : ((paths cells).erase path).Nodup := distinct.erase path
  have new : path ∉ (paths cells).erase path := distinct.not_mem_erase
  exact ⟨appends_unique_exact heap filelist cells path rep within distinct,
    prepends_unique_exact heap filelist cells path rep within distinct,
    push_last_kept maxPlayListLen _ path remaining new, push_first_kept maxPlayListLen _ path remaining new⟩

theorem unique_adds_two :
    AppendsUnique (builtList twoSongs).heap (some 0) (builtCells twoSongs) (cString [98]) ∧
      PrependsUnique (builtList twoSongs).heap (some 0) (builtCells twoSongs) (cString [97]) := by
  have both (path : CString) := unique_adds_exact (builtList twoSongs).heap (some 0) (builtCells twoSongs) path
    two_songs_rep (by decide +kernel) (by decide +kernel)
  exact ⟨(both (cString [98])).1.mpr (.inr rfl), (both (cString [97])).2.1.mpr (.inr ⟨rfl, Nat.le_refl 2⟩)⟩

-- Two entries: adding the first again at the end leaves the second pointing
-- back at freed memory; adding the second again in front meets NULL.
theorem unique_duplicate_mishandled :
    PlaylistRep (builtList twoSongs).heap (some 0) (builtCells twoSongs) ∧ (paths (builtCells twoSongs)).Nodup ∧
      ¬ AppendsUnique (builtList twoSongs).heap (some 0) (builtCells twoSongs) (cString [97]) ∧
      ¬ PrependsUnique (builtList twoSongs).heap (some 0) (builtCells twoSongs) (cString [98]) := by
  refine ⟨two_songs_rep, by decide +kernel, ?_, ?_⟩
  · exact last_unique_dangles (builtList twoSongs).heap (some 0) [] [] 0 (songOf (cString [97]))
      (1, songOf (cString [98])) two_songs_rep (by decide +kernel) (by decide +kernel) (by decide +kernel)
  · rintro ⟨added, _, ran, _⟩
    have faulted : (addplaylistFrontUnique (builtList twoSongs).heap (some 0) (cString [98])).isOk = false := by
      decide +kernel
    rw [ran] at faulted
    cases faulted

end Slogger.Playlist
