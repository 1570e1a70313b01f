import Slogger.Playlist.Append
import Slogger.Playlist.Calls

set_option autoImplicit false

namespace Slogger.Playlist

open Slogger.Lib

-- What both routines do in a build with UNIQUE to a node that already holds
-- the path: tmp is the node after it, whose prv stays as it is.
def unlinkDuplicate (heap : NodeHeap) (filelist prv list tmp : Pointer) : Except Fault (NodeHeap × Pointer) := do
  let (heap, filelist) ←
    match prv with
    | some _ => do
        let heap ← heap.assign prv fun node => { node with next := tmp }
        .ok (heap, filelist)
    | none => .ok (heap, tmp)
  let heap ← heap.release list
  .ok (heap, filelist)

-- The walk of addplaylist_last with UNIQUE; it answers the heap, the list
-- head, prv and count it ends with.
def lastWalkUnique (path : CString) : Nat → NodeHeap → Pointer → Pointer → Pointer → Nat →
    Except Fault (NodeHeap × Pointer × Pointer × Nat)
  | _, heap, filelist, none, prv, count => .ok (heap, filelist, prv, count)
  | 0, _, _, some _, _, _ => .error .loops
  | fuel + 1, heap, filelist, some address, prv, count => do
      let list ← heap.deref (some address)
      if list.path = path then do
        let tmp := list.next
        let (heap, filelist) ← unlinkDuplicate heap filelist prv (some address) tmp
        lastWalkUnique path fuel heap filelist tmp prv count
      else lastWalkUnique path fuel heap filelist list.next (some address) (count + 1)

def addplaylistLastUnique (heap : NodeHeap) (filelist : Pointer) (path : CString) : Except Fault Added := do
  let (heap, filelist, prv, count) ← lastWalkUnique path heap.bound heap filelist filelist none 0
  let (heap, filelist) ←
    if count = maxPlayListLen then evictFirst heap filelist else .ok (heap, filelist)
  let (heap, filelist) ← linkLast heap filelist prv path
  .ok ⟨heap, filelist, bufferAfter path⟩

-- What the UNIQUE build is for: the path is moved to the end it is added at,
-- and only a list that is still full loses an entry.
def AppendsUnique (heap : NodeHeap) (filelist : Pointer) (cells : Cells) (path : CString) : Prop :=
  ∃ added after, addplaylistLastUnique heap filelist path = .ok added ∧
    PlaylistRep added.heap added.filelist after ∧
    paths after = pushLast maxPlayListLen ((paths cells).erase path) path

theorem last_unique_passes (heap : NodeHeap) (path : CString) (before after prv filelist : Pointer) (cells : Cells)
    (fuel count : Nat) (segment : Segment playLayout heap before cells after) (absent : path ∉ paths cells)
    (enough : cells.length ≤ fuel) :
    lastWalkUnique path fuel heap filelist (firstOf cells after) prv count =
      lastWalkUnique path (fuel - cells.length) heap filelist after (lastOf prv cells) (count + cells.length) := by
  induction cells generalizing before prv fuel count with
  | nil => rfl
  | cons cell rest ih =>
      cases fuel with
      | zero => simp at enough
      | succ fuel =>
          have head := play_deref heap before after [] rest cell.1 cell.2 segment
          have apart : ¬ cell.2.path = path := fun same => absent (by simp [paths, same])
          have later : path ∉ paths rest := fun member => absent (List.mem_cons_of_mem _ member)
          rw [first_of_cons, lastWalkUnique, head, ok_bind]
          simp only [if_neg apart]
          rw [ih (some cell.1) (some cell.1) fuel (count + 1) segment.2 later (by simpa using enough)]
          simp only [lastOf, List.length_cons, Nat.add_sub_add_right]
          congr 1
          omega

theorem unlink_first (heap : NodeHeap) (filelist before : Pointer) (address : Nat) (song : Song) (right : Cells)
    (segment : Segment playLayout heap before ((address, song) :: right) none)
    (distinct : (addresses ((address, song) :: right)).Nodup) :
    unlinkDuplicate heap filelist none (some address) (firstOf right none) =
        .ok (heap.erase address, firstOf right none) ∧
      Segment playLayout (heap.erase address) (some address) right none := by
  have read := play_segment_read heap before none [] right address song segment
  have outside : address ∉ addresses right := (List.nodup_cons.mp distinct).1
  refine ⟨?_, segment_erase_frame (some address) none right address segment.2 outside⟩
  simp only [unlinkDuplicate, ok_bind, heap.release_read address _ read]

-- The list is closed over the gap in the direction of next only: the first
-- node of right still points back at the freed one.
theorem unlink_duplicate_splits (heap : NodeHeap) (filelist : Pointer) (left right : Cells) (address : Nat)
    (song : Song) (rep : PlaylistRep heap filelist (left ++ (address, song) :: right)) :
    ∃ next, unlinkDuplicate heap filelist (lastOf none left) (some address) (firstOf right none) =
        .ok (next, firstOf left (firstOf right none)) ∧
      Segment playLayout next none left (firstOf right none) ∧ Segment playLayout next (some address) right none ∧
      next.cell address = none ∧ next.bound = heap.bound := by
  obtain ⟨entry, distinct, segment⟩ := rep
  have around := distinct_around left right (address, song) distinct
  rcases List.eq_nil_or_concat' left with rfl | ⟨front, last, rfl⟩
  · obtain ⟨unlinked, kept⟩ := unlink_first heap filelist none address song right segment distinct
    exact ⟨heap.erase address, unlinked, trivial, kept, by simp [Heap.erase], rfl⟩
  · obtain ⟨leftPart, ⟨_, rightPart⟩⟩ := (segment_append none none _ _).mp segment
    have outsideRight : address ∉ addresses right := around.notBehind
    have outsideLeft : address ∉ addresses (front ++ [last]) := around.notBefore
    have lastListed : last.1 ∈ addresses (front ++ [last]) := by simp
    have lastOutside : last.1 ∉ addresses right := around.apart last.1 lastListed
    have different : last.1 ≠ address := fun same => outsideLeft (same ▸ lastListed)
    have lastFront : last.1 ∉ addresses front := (distinct_around front [] last around.before).notBefore
    have lastRead := play_segment_read heap none (some address) front [] last.1 last.2 leftPart
    have read := play_segment_read heap none none (front ++ [last]) right address song segment
    let relinked : NodeHeap := heap.modify last.1 fun node => { node with next := firstOf right none }
    have here : relinked.cell address = heap.cell address := heap.modify_other last.1 address _ different.symm
    have tail : lastOf none (front ++ [last]) = some last.1 := by simp [lastOf]
    refine ⟨relinked.erase address, ?_, ?_, ?_, by simp [Heap.erase], rfl⟩
    · simp only [unlinkDuplicate, tail, heap.assign_read last.1 _ _ lastRead, ok_bind]
      rw [show heap.modify last.1 _ = relinked from rfl, relinked.release_read address _ (here.trans read), ok_bind, entry]
      cases front <;> rfl
    · exact segment_erase_frame none _ _ address
        (segment_set_next none (some address) (firstOf right none) front last.1 last.2 _ leftPart lastFront
          (fun _ => ⟨rfl, rfl, rfl⟩)) outsideLeft
    · exact segment_erase_frame (some address) none right address
        (segment_modify_frame (some address) none right last.1 _ rightPart lastOutside) outsideRight

theorem last_unique_absent (heap : NodeHeap) (filelist : Pointer) (cells : Cells) (path : CString)
    (rep : PlaylistRep heap filelist cells) (absent : path ∉ paths cells) :
    addplaylistLastUnique heap filelist path = addplaylistLast heap filelist path := by
  have enough := linked_length_bound filelist cells rep
  have walked := last_walk_segment heap none cells heap.bound none 0 rep.segment enough
  have passed := last_unique_passes heap path none none none filelist cells heap.bound 0 rep.segment absent enough
  rw [← rep.entry] at walked passed
  have ended : lastWalkUnique path (heap.bound - cells.length) heap filelist none (lastOf none cells) (0 + cells.length) =
      .ok (heap, filelist, lastOf none cells, 0 + cells.length) := by
    cases heap.bound - cells.length <;> rfl
  rw [addplaylistLastUnique, addplaylistLast, walked, passed, ended]
  rfl

theorem last_unique_walk (heap : NodeHeap) (filelist : Pointer) (left right : Cells) (address : Nat) (song : Song)
    (rep : PlaylistRep heap filelist (left ++ (address, song) :: right)) (before : song.path ∉ paths left)
    (after : song.path ∉ paths right) :
    ∃ next, lastWalkUnique song.path heap.bound heap filelist filelist none 0 =
        .ok (next, firstOf left (firstOf right none), lastOf (lastOf none left) right, left.length + right.length) ∧
      Segment playLayout next none left (firstOf right none) ∧ Segment playLayout next (some address) right none ∧
      next.cell address = none ∧ next.bound = heap.bound := by
  obtain ⟨next, unlinked, front, back, freed, bound⟩ := unlink_duplicate_splits heap filelist left right address song rep
  refine ⟨next, ?_, front, back, freed, bound⟩
  have read := play_deref heap none none left right address song rep.segment
  have counted := linked_length_bound filelist _ rep
  rw [List.length_append, List.length_cons] at counted
  have firstPart := ((segment_append none none _ _).mp rep.segment).1
  have start : filelist = firstOf left (some address) := by
    rw [rep.entry, first_of_append, first_of_cons]
  have walked := last_unique_passes heap song.path none (some address) none filelist left heap.bound 0 firstPart before
    (by omega)
  rw [← start] at walked
  obtain ⟨fuel, remaining⟩ : ∃ fuel, heap.bound - left.length = fuel + 1 := ⟨heap.bound - left.length - 1, by omega⟩
  have passed := last_unique_passes next song.path (some address) none (lastOf none left)
    (firstOf left (firstOf right none)) right fuel (0 + left.length) back after (by omega)
  rw [walked, remaining, lastWalkUnique, read, ok_bind]
  simp only [if_true, unlinked, ok_bind, passed]
  rw [Nat.zero_add]
  cases fuel - right.length <;> rfl

theorem paths_append (left right : Cells) : paths (left ++ right) = paths left ++ paths right := List.map_append

theorem paths_cons (cell : Nat × Song) (rest : Cells) : paths (cell :: rest) = cell.2.path :: paths rest := rfl

theorem path_not_behind (left right : Cells) (cell : Nat × Song) (distinct : (paths (left ++ cell :: right)).Nodup) :
    cell.2.path ∉ paths right := by
  rw [paths_append, paths_cons] at distinct
  exact (List.nodup_cons.mp (List.nodup_append.mp distinct).2.1).1

theorem erase_middle (left right : List CString) (path : CString) (before : path ∉ left) :
    (left ++ path :: right).erase path = left ++ right := by
  rw [List.erase_append_right _ before, List.erase_cons_head]

-- With the duplicate gone the list is not full, so nothing is evicted.
theorem push_last_moved (left right : List CString) (path : CString) (before : path ∉ left)
    (within : (left ++ path :: right).length ≤ maxPlayListLen) :
    pushLast maxPlayListLen ((left ++ path :: right).erase path) path = left ++ right ++ [path] := by
  have shorter : ¬ (left ++ right).length = maxPlayListLen := by
    simp only [List.length_append, List.length_cons] at within ⊢
    omega
  rw [erase_middle left right path before, pushLast, if_neg shorter]

theorem last_unique_at_end (heap : NodeHeap) (filelist : Pointer) (left : Cells) (address : Nat) (song : Song)
    (rep : PlaylistRep heap filelist (left ++ [(address, song)])) (before : song.path ∉ paths left)
    (within : (left ++ [(address, song)]).length ≤ maxPlayListLen) :
    AppendsUnique heap filelist (left ++ [(address, song)]) song.path := by
  obtain ⟨next, walked, front, _, _, bound⟩ :=
    last_unique_walk heap filelist left [] address song rep before List.not_mem_nil
  have shorter : PlaylistRep next (firstOf left none) left :=
    ⟨rfl, (distinct_around left [] (address, song) rep.distinct).before, front⟩
  obtain ⟨final, head, linked, longer, _⟩ := link_last_rep next (firstOf left none) left song.path shorter
  have ended : lastWalkUnique song.path heap.bound heap filelist filelist none 0 =
      .ok (next, firstOf left none, lastOf none left, left.length) := walked
  have below : ¬ left.length = maxPlayListLen := by
    simp only [List.length_append, List.length_cons, List.length_nil] at within
    omega
  refine ⟨⟨final, head, bufferAfter song.path⟩, _, ?_, longer, ?_⟩
  · simp only [addplaylistLastUnique, ended, ok_bind, if_neg below, linked]
  · have moved := push_last_moved (paths left) [] song.path before (by simpa [paths] using within)
    rw [paths_append, paths_append, paths_cons]
    exact moved.symm ▸ by simp [paths, songOf]

-- A node the list reaches by next, and that points back at freed memory,
-- belongs to no well-formed list.
theorem dangling_not_listed (heap : NodeHeap) (filelist : Pointer) (left after : Cells) (freed follower : Nat)
    (node : StPlayList) (start : filelist = firstOf left (some follower))
    (segment : Segment playLayout heap none left (some follower)) (read : heap.cell follower = some node)
    (points : node.prv = some freed) (gone : heap.cell freed = none) : ¬ PlaylistRep heap filelist after := by
  intro rep
  have walked := node_at_end heap none (some follower) left segment
  rw [← start, node_at_rep heap filelist after left.length rep, Except.ok.injEq] at walked
  have listed := linked_prv_member filelist after follower freed node rep
    (place_member after left.length follower walked) read points
  obtain ⟨cell, member, rfl⟩ := List.mem_map.mp listed
  obtain ⟨stored, found, _⟩ := segment_member none none after cell rep.segment member
  rw [gone] at found
  cases found

theorem link_last_frame (heap : NodeHeap) (filelist before keep : Pointer) (cells : Cells) (path : CString)
    (segment : Segment playLayout heap before cells none) (nonempty : cells ≠ []) :
    ∃ next, linkLast heap filelist (lastOf keep cells) path = .ok (next, filelist) ∧
      (∀ address, address ∉ addresses cells → address ≠ heap.bound → next.cell address = heap.cell address) ∧
      ∀ address node, heap.cell address = some node → ∃ kept, next.cell address = some kept ∧ kept.prv = node.prv := by
  obtain ⟨shorter, last, rfl⟩ := (List.eq_nil_or_concat' cells).resolve_left nonempty
  let fresh : StPlayList := ⟨none, path, fileName path, some last.1⟩
  have tail : lastOf keep (shorter ++ [last]) = some last.1 := by rw [last_of_append]; rfl
  have kept := segment_alloc_frame before none (shorter ++ [last]) fresh segment
  have lastRead := play_segment_read (heap.alloc fresh) before none shorter [] last.1 last.2 kept
  refine ⟨(heap.alloc fresh).modify last.1 fun node => { node with next := some heap.bound }, ?_, ?_, ?_⟩
  · simp only [tail, linkLast, (heap.alloc fresh).assign_read last.1 _ _ lastRead, ok_bind, fresh]
  · intro address outside different
    have apart : address ≠ last.1 := fun same => outside (by simp [same])
    rw [(heap.alloc fresh).modify_other last.1 address _ apart]
    simp [Heap.alloc, different]
  · intro address node read
    have allocated := heap.alloc_other fresh address node read
    by_cases same : address = last.1
    · subst same
      exact ⟨{ node with next := some heap.bound }, by simp [allocated], rfl⟩
    · exact ⟨node, ((heap.alloc fresh).modify_other last.1 address _ same).trans allocated, rfl⟩

theorem last_unique_dangles (heap : NodeHeap) (filelist : Pointer) (left rest : Cells) (address : Nat) (song : Song)
    (follower : Nat × Song) (rep : PlaylistRep heap filelist (left ++ (address, song) :: follower :: rest))
    (before : song.path ∉ paths left) (behind : song.path ∉ paths (follower :: rest))
    (within : (left ++ (address, song) :: follower :: rest).length ≤ maxPlayListLen) :
    ¬ AppendsUnique heap filelist (left ++ (address, song) :: follower :: rest) song.path := by
  obtain ⟨middle, walked, front, back, freed, bound⟩ :=
    last_unique_walk heap filelist left (follower :: rest) address song rep before behind
  obtain ⟨final, linked, frame, prvs⟩ := link_last_frame middle (firstOf left (some follower.1)) (some address)
    (lastOf none left) (follower :: rest) song.path back (List.cons_ne_nil _ _)
  have below : ¬ left.length + (follower :: rest).length = maxPlayListLen := by
    simp only [List.length_append, List.length_cons] at within ⊢
    omega
  have ran : addplaylistLastUnique heap filelist song.path =
      .ok ⟨final, firstOf left (some follower.1), bufferAfter song.path⟩ := by
    simp only [addplaylistLastUnique, walked, ok_bind, if_neg below, first_of_cons, linked]
  have around := distinct_around left (follower :: rest) (address, song) rep.distinct
  have chained : Segment playLayout final none left (some follower.1) := by
    apply segment_frame final none (some follower.1) left front
    intro other member
    have early := segment_below none _ left front other member
    exact frame other (around.apart other member) (Nat.ne_of_lt early)
  have gone : final.cell address = none := by
    have early := segment_below none none _ rep.segment address (by simp)
    rw [frame address around.notBehind (Nat.ne_of_lt (bound ▸ early))]
    exact freed
  have followerRead := play_segment_read middle (some address) none [] rest follower.1 follower.2 back
  obtain ⟨node, read, points⟩ := prvs follower.1 _ followerRead
  rintro ⟨added, after, again, represented, _⟩
  obtain rfl := Except.ok.inj (ran.symm.trans again)
  exact dangling_not_listed final _ left after address follower.1 node rfl chained read points gone represented

theorem appends_unique_exact (heap : NodeHeap) (filelist : Pointer) (cells : Cells) (path : CString)
    (rep : PlaylistRep heap filelist cells) (within : cells.length ≤ maxPlayListLen) (distinct : (paths cells).Nodup) :
    AppendsUnique heap filelist cells path ↔ path ∉ paths cells ∨ (paths cells).getLast? = some path := by
  rcases first_path_split cells path with ⟨absent, _⟩ | ⟨left, ⟨address, song⟩, right, rfl, before, rfl, _⟩
  · refine iff_of_true ?_ (.inl absent)
    obtain ⟨added, ran, longer, _⟩ := add_last_rep heap filelist cells path rep
    refine ⟨added, _, (last_unique_absent heap filelist cells path rep absent).trans ran, longer, ?_⟩
    rw [List.erase_of_not_mem absent]
    exact push_last_map (fun cell => cell.2.path) maxPlayListLen cells (heap.bound, songOf path)
  · have listed : song.path ∈ paths (left ++ (address, song) :: right) := by simp [paths]
    have behind := path_not_behind left right (address, song) distinct
    cases right with
    | nil =>
        refine iff_of_true (last_unique_at_end heap filelist left address song rep before within) (.inr ?_)
        simp [paths]
    | cons follower rest =>
        refine iff_of_false (last_unique_dangles heap filelist left rest address song follower rep before behind within) ?_
        rintro (absent | atEnd)
        · exact absent listed
        · have late : song.path ∈ paths (follower :: rest) := by
            rw [paths_append, paths_cons, List.getLast?_append_of_ne_nil _ (List.cons_ne_nil _ _),
              paths_cons, List.getLast?_cons_cons] at atEnd
            exact List.mem_of_getLast? atEnd
          exact behind late

end Slogger.Playlist
