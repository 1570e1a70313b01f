import Slogger.Playlist.Node

set_option autoImplicit false

namespace Slogger.Playlist

open Slogger.Lib

-- The outcome of both add functions, which always return true: buffer is the
-- memory of the caller's path argument after the call.
structure Added where
  heap : NodeHeap
  filelist : Pointer
  buffer : List UInt8

-- The walk of addplaylist_last in a build without UNIQUE: prv trails behind.
def lastWalk (heap : NodeHeap) : Nat → Pointer → Pointer → Nat → Except Fault (Pointer × Nat)
  | _, none, prv, count => .ok (prv, count)
  | 0, some _, _, _ => .error .loops
  | fuel + 1, some address, _, count => do
      let list ← heap.deref (some address)
      lastWalk heap fuel list.next (some address) (count + 1)

-- if(count == MaxPlayListLen): free the first node and move the list head on.
def evictFirst (heap : NodeHeap) (filelist : Pointer) : Except Fault (NodeHeap × Pointer) := do
  let first ← heap.deref filelist
  let tmp := first.next
  let heap ← heap.release filelist
  let heap ← heap.assign tmp fun node => { node with prv := none }
  .ok (heap, tmp)

def linkLast (heap : NodeHeap) (filelist prv : Pointer) (path : CString) : Except Fault (NodeHeap × Pointer) :=
  let l := some heap.bound
  let heap := heap.alloc { next := none, path := path, file := fileName path, prv := prv }
  match prv, filelist with
  | some _, _ => do
      let heap ← heap.assign prv fun node => { node with next := l }
      .ok (heap, filelist)
  | none, some _ => do
      let heap ← heap.assign filelist fun node => { node with next := l }
      .ok (heap, filelist)
  | none, none => .ok (heap, l)

def addplaylistLast (heap : NodeHeap) (filelist : Pointer) (path : CString) : Except Fault Added := do
  let (prv, count) ← lastWalk heap heap.bound filelist none 0
  let (heap, filelist) ←
    if count = maxPlayListLen then evictFirst heap filelist else .ok (heap, filelist)
  let (heap, filelist) ← linkLast heap filelist prv path
  .ok ⟨heap, filelist, bufferAfter path⟩

def evictHead (cells : Cells) : Cells := if cells.length = maxPlayListLen then cells.tail else cells

theorem last_walk_segment (heap : NodeHeap) (before : Pointer) (cells : Cells) (fuel : Nat)
    (prv : Pointer) (count : Nat) (segment : Segment playLayout heap before cells none)
    (enough : cells.length ≤ fuel) :
    lastWalk heap fuel (firstOf cells none) prv count = .ok (lastOf prv cells, count + cells.length) := by
  induction cells generalizing before fuel prv count with
  | nil => cases fuel <;> rfl
  | cons cell rest ih =>
      cases fuel with
      | zero => simp at enough
      | succ fuel =>
          have head := play_deref heap before none [] rest cell.1 cell.2 segment
          rw [first_of_cons, lastWalk, head, ok_bind]
          rw [ih (some cell.1) fuel (some cell.1) (count + 1) segment.2 (by simpa using enough)]
          simp only [lastOf, List.length_cons]
          congr 2
          omega

theorem evict_first_rep (heap : NodeHeap) (filelist : Pointer) (first second : Nat × Song) (rest : Cells)
    (rep : PlaylistRep heap filelist (first :: second :: rest)) :
    ∃ next, evictFirst heap filelist = .ok (next, some second.1) ∧
      PlaylistRep next (some second.1) (second :: rest) ∧ next.bound = heap.bound := by
  obtain ⟨entry, distinct, segment⟩ := rep
  have listed := List.nodup_cons.mp distinct
  have secondOutside : second.1 ∉ addresses rest := (List.nodup_cons.mp listed.2).1
  have different : second.1 ≠ first.1 := fun same => listed.1 (by simp [same])
  have firstRead := play_segment_read heap none none [] (second :: rest) first.1 first.2 segment
  have erased : Segment playLayout (heap.erase first.1) (some first.1) (second :: rest) none :=
    segment_erase_frame (some first.1) none (second :: rest) first.1 segment.2 listed.1
  have secondRead := play_segment_read (heap.erase first.1) (some first.1) none [] rest second.1 second.2 erased
  refine ⟨(heap.erase first.1).modify second.1 fun node => { node with prv := none }, ?_, ⟨rfl, listed.2, ?_⟩, rfl⟩
  · rw [evictFirst, entry, first_of_cons, heap.deref_read first.1 _ firstRead, ok_bind]
    simp only [heap.release_read first.1 _ firstRead, ok_bind, first_of_cons,
      (heap.erase first.1).assign_read second.1 _ _ secondRead]
  · exact segment_set_prv (some first.1) none none second.1 second.2 rest _ erased secondOutside
      (fun _ => ⟨rfl, rfl, rfl⟩)

theorem link_last_rep (heap : NodeHeap) (filelist : Pointer) (cells : Cells) (path : CString)
    (rep : PlaylistRep heap filelist cells) :
    ∃ next head, linkLast heap filelist (lastOf none cells) path = .ok (next, head) ∧
      PlaylistRep next head (cells ++ [(heap.bound, songOf path)]) ∧ next.bound = heap.bound + 1 := by
  obtain ⟨entry, distinct, segment⟩ := rep
  have below := segment_below none none cells segment
  have freshDistinct : (addresses (cells ++ [(heap.bound, songOf path)])).Nodup := by
    rw [addresses_append, List.nodup_append]
    refine ⟨distinct, by simp [addresses], ?_⟩
    intro address member other last same
    have equal : other = heap.bound := by simpa [addresses] using last
    exact Nat.ne_of_lt (below address member) (same.trans equal)
  let fresh : StPlayList := ⟨none, path, fileName path, lastOf none cells⟩
  have kept : Segment playLayout (heap.alloc fresh) none cells none :=
    segment_alloc_frame none none cells fresh segment
  rcases List.eq_nil_or_concat' cells with rfl | ⟨front, last, rfl⟩
  · subst entry
    refine ⟨heap.alloc fresh, some heap.bound, rfl, ⟨rfl, freshDistinct, ?_, trivial⟩, rfl⟩
    exact ⟨fresh, heap.alloc_here fresh, rfl, rfl, rfl⟩
  · have lastOutside : last.1 ∉ addresses front := (distinct_around front [] last distinct).notBefore
    have tail : lastOf none (front ++ [last]) = some last.1 := by simp [lastOf]
    have lastRead := play_segment_read (heap.alloc fresh) none none front [] last.1 last.2 kept
    refine ⟨(heap.alloc fresh).modify last.1 fun node => { node with next := some heap.bound },
      filelist, ?_, ⟨?_, freshDistinct, ?_⟩, rfl⟩
    · simp only [linkLast, tail]
      rw [show heap.alloc _ = heap.alloc fresh by simp only [fresh, tail],
        (heap.alloc fresh).assign_read last.1 _ _ lastRead]
      rfl
    · rw [entry]
      cases front <;> rfl
    · rw [segment_append]
      refine ⟨segment_set_next none none (some heap.bound) front last.1 last.2 _ kept lastOutside
        (fun _ => ⟨rfl, rfl, rfl⟩), ⟨fresh, ?_, rfl, rfl, rfl⟩, trivial⟩
      have different : heap.bound ≠ last.1 := (Nat.ne_of_lt (below last.1 (by simp [addresses]))).symm
      rw [(heap.alloc fresh).modify_other last.1 heap.bound _ different, heap.alloc_here]

theorem add_last_rep (heap : NodeHeap) (filelist : Pointer) (cells : Cells) (path : CString)
    (rep : PlaylistRep heap filelist cells) :
    ∃ added, addplaylistLast heap filelist path = .ok added ∧
      PlaylistRep added.heap added.filelist (evictHead cells ++ [(heap.bound, songOf path)]) ∧
      added.heap.bound = heap.bound + 1 ∧ added.buffer = bufferAfter path := by
  have walked : lastWalk heap heap.bound filelist none 0 = .ok (lastOf none cells, cells.length) := by
    rw [rep.entry, last_walk_segment heap none cells heap.bound none 0 rep.segment
      (linked_length_bound filelist cells rep), Nat.zero_add]
  rw [addplaylistLast, walked, ok_bind]
  by_cases full : cells.length = maxPlayListLen
  · match cells, full with
    | first :: second :: rest, full =>
        obtain ⟨middle, evicted, shorter, sameBound⟩ := evict_first_rep heap filelist first second rest rep
        obtain ⟨next, head, linked, longer, bound⟩ := link_last_rep middle (some second.1) (second :: rest) path shorter
        refine ⟨⟨next, head, bufferAfter path⟩, ?_, ?_, bound.trans (by rw [sameBound]), rfl⟩
        · simp only [if_pos full, evicted, ok_bind]
          rw [show lastOf none (first :: second :: rest) = lastOf none (second :: rest) by rfl, linked, ok_bind]
        · simpa only [evictHead, if_pos full, List.tail_cons, sameBound] using longer
  · obtain ⟨next, head, linked, longer, bound⟩ := link_last_rep heap filelist cells path rep
    refine ⟨⟨next, head, bufferAfter path⟩, ?_, ?_, bound, rfl⟩
    · simp only [if_neg full, ok_bind, linked]
    · simpa only [evictHead, if_neg full] using longer

end Slogger.Playlist
