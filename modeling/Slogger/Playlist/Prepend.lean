import Slogger.Playlist.Append

set_option autoImplicit false

namespace Slogger.Playlist

open Slogger.Lib

-- The walk of addplaylist_front in a build without UNIQUE: prvtoPrv is set at
-- the node whose successor is the last one.
def frontWalk (heap : NodeHeap) : Nat → Pointer → Pointer → Nat → Except Fault (Pointer × Nat)
  | _, none, prvtoPrv, count => .ok (prvtoPrv, count)
  | 0, some _, _, _ => .error .loops
  | fuel + 1, some address, prvtoPrv, count => do
      let list ← heap.deref (some address)
      let prvtoPrv ←
        match list.next with
        | none => .ok prvtoPrv
        | some follower => do
            let after ← heap.deref (some follower)
            .ok (if after.next = none then some address else prvtoPrv)
      frontWalk heap fuel list.next prvtoPrv (count + 1)

def evictLast (heap : NodeHeap) (prvtoPrv : Pointer) : Except Fault NodeHeap :=
  match prvtoPrv with
  | none => .ok heap
  | some _ => do
      let keeper ← heap.deref prvtoPrv
      let _ ← heap.deref keeper.next
      let heap ← heap.release keeper.next
      heap.assign prvtoPrv fun node => { node with next := none }

-- The new node l in front of the list; the old head is written unchecked.
def linkFront (heap : NodeHeap) (filelist : Pointer) (path : CString) : Except Fault (NodeHeap × Pointer) := do
  let l := some heap.bound
  let heap := heap.alloc { next := none, path := path, file := fileName path, prv := none }
  let heap ← heap.assign filelist fun node => { node with prv := l }
  let heap ← heap.assign l fun node => { node with next := filelist }
  .ok (heap, l)

def addplaylistFront (heap : NodeHeap) (filelist : Pointer) (path : CString) : Except Fault Added := do
  let (prvtoPrv, count) ← frontWalk heap heap.bound filelist none 0
  let heap ← if count = maxPlayListLen then evictLast heap prvtoPrv else .ok heap
  let (heap, filelist) ← linkFront heap filelist path
  .ok ⟨heap, filelist, bufferAfter path⟩

def evictTail (cells : Cells) : Cells := if cells.length = maxPlayListLen then cells.dropLast else cells

def beforeLast (keep : Pointer) : Cells → Pointer
  | [] => keep
  | [_] => keep
  | [cell, _] => some cell.1
  | _ :: second :: third :: rest => beforeLast keep (second :: third :: rest)

theorem before_last_append (keep : Pointer) (front : Cells) (keeper last : Nat × Song) :
    beforeLast keep (front ++ [keeper, last]) = some keeper.1 := by
  induction front with
  | nil => rfl
  | cons cell rest ih =>
      cases rest with
      | nil => rfl
      | cons second rest => cases rest <;> exact ih

theorem front_walk_segment (heap : NodeHeap) (before : Pointer) (cells : Cells) (fuel : Nat)
    (keep : Pointer) (count : Nat) (segment : Segment playLayout heap before cells none)
    (enough : cells.length ≤ fuel) :
    frontWalk heap fuel (firstOf cells none) keep count = .ok (beforeLast keep cells, count + cells.length) := by
  induction cells generalizing before fuel keep count with
  | nil => cases fuel <;> rfl
  | cons cell rest ih =>
      cases fuel with
      | zero => simp at enough
      | succ fuel =>
          have head := play_deref heap before none [] rest cell.1 cell.2 segment
          have shorter : rest.length ≤ fuel := by simpa using enough
          rw [first_of_cons, frontWalk, head, ok_bind]
          cases rest with
          | nil =>
              have done := ih (some cell.1) fuel keep (count + 1) segment.2 shorter
              simpa [firstOf, beforeLast] using done
          | cons second rest =>
              have next := play_deref heap (some cell.1) none [] rest second.1 second.2 segment.2
              simp only [first_of_cons, next, ok_bind]
              cases rest with
              | nil =>
                  have done := ih (some cell.1) fuel (some cell.1) (count + 1) segment.2 shorter
                  simp only [first_of_cons] at done
                  simp only [firstOf, if_pos, done, beforeLast, List.length_cons, List.length_nil]
              | cons third rest =>
                  have done := ih (some cell.1) fuel keep (count + 1) segment.2 shorter
                  simp only [first_of_cons] at done
                  simp only [first_of_cons, reduceCtorEq, if_false, done, beforeLast, List.length_cons]
                  congr 2
                  omega

theorem evict_last_rep (heap : NodeHeap) (filelist : Pointer) (front : Cells) (keeper last : Nat × Song)
    (rep : PlaylistRep heap filelist (front ++ [keeper, last])) :
    ∃ next, evictLast heap (some keeper.1) = .ok next ∧
      PlaylistRep next filelist (front ++ [keeper]) ∧ next.bound = heap.bound := by
  obtain ⟨entry, distinct, segment⟩ := rep
  have split : front ++ [keeper, last] = (front ++ [keeper]) ++ [last] := by simp
  have aroundLast := distinct_around (front ++ [keeper]) [] last (split ▸ distinct)
  have lastOutside : last.1 ∉ addresses (front ++ [keeper]) := aroundLast.notBefore
  have keeperOutside : keeper.1 ∉ addresses front := (distinct_around front [last] keeper distinct).notBefore
  have keeperRead := play_segment_read heap none none front [last] keeper.1 keeper.2 segment
  have joined : Segment playLayout heap none ((front ++ [keeper]) ++ [last]) none := by
    rw [← split]
    exact segment
  have lastRead := play_segment_read heap none none (front ++ [keeper]) [] last.1 last.2 joined
  rw [segment_append] at joined
  have kept : Segment playLayout (heap.erase last.1) none (front ++ [keeper]) (firstOf [last] none) :=
    segment_erase_frame none (firstOf [last] none) (front ++ [keeper]) last.1 joined.1 lastOutside
  have keeperKept := play_segment_read (heap.erase last.1) none (firstOf [last] none) front [] keeper.1 keeper.2 kept
  refine ⟨(heap.erase last.1).modify keeper.1 fun node => { node with next := none }, ?_,
    ⟨?_, aroundLast.before, segment_set_next none (firstOf [last] none) none front keeper.1 keeper.2 _ kept keeperOutside
      (fun _ => ⟨rfl, rfl, rfl⟩)⟩, rfl⟩
  · simp only [evictLast, heap.deref_read keeper.1 _ keeperRead, ok_bind, first_of_cons,
      heap.deref_read last.1 _ lastRead, heap.release_read last.1 _ lastRead,
      (heap.erase last.1).assign_read keeper.1 _ _ keeperKept]
  · rw [entry]
    cases front <;> rfl

-- Whatever the old head's prv was: it is overwritten.
theorem link_front_segment (heap : NodeHeap) (before : Pointer) (first : Nat × Song) (rest : Cells) (path : CString)
    (segment : Segment playLayout heap before (first :: rest) none) (distinct : (addresses (first :: rest)).Nodup) :
    ∃ next, linkFront heap (some first.1) path = .ok (next, some heap.bound) ∧
      PlaylistRep next (some heap.bound) ((heap.bound, songOf path) :: first :: rest) ∧
      next.bound = heap.bound + 1 := by
  have below := segment_below before none (first :: rest) segment
  let fresh : StPlayList := ⟨none, path, fileName path, none⟩
  have kept : Segment playLayout (heap.alloc fresh) before (first :: rest) none :=
    segment_alloc_frame before none (first :: rest) fresh segment
  have firstRead := play_segment_read (heap.alloc fresh) before none [] rest first.1 first.2 kept
  have firstOutside : first.1 ∉ addresses rest := (List.nodup_cons.mp distinct).1
  have different : heap.bound ≠ first.1 := (Nat.ne_of_lt (below first.1 (by simp))).symm
  have freshOutside : heap.bound ∉ addresses (first :: rest) :=
    fun member => Nat.lt_irrefl _ (below heap.bound member)
  let linked : NodeHeap := (heap.alloc fresh).modify first.1 fun node => { node with prv := some heap.bound }
  have freshRead : linked.cell heap.bound = some fresh := by
    rw [(heap.alloc fresh).modify_other first.1 heap.bound _ different, heap.alloc_here]
  have relinked : Segment playLayout linked (some heap.bound) (first :: rest) none :=
    segment_set_prv before (some heap.bound) none first.1 first.2 rest _ kept firstOutside
      (fun _ => ⟨rfl, rfl, rfl⟩)
  refine ⟨linked.modify heap.bound fun node => { node with next := some first.1 }, ?_,
    ⟨rfl, List.nodup_cons.mpr ⟨freshOutside, distinct⟩, ?_, ?_⟩, rfl⟩
  · rw [linkFront]
    change (heap.alloc fresh).assign (some first.1) _ >>= _ = _
    rw [(heap.alloc fresh).assign_read first.1 _ _ firstRead, ok_bind]
    change linked.assign (some heap.bound) _ >>= _ = _
    rw [linked.assign_read heap.bound _ _ freshRead, ok_bind]
  · exact ⟨{ fresh with next := some first.1 }, by simp [freshRead], rfl, rfl, rfl⟩
  · exact segment_modify_frame (some heap.bound) none (first :: rest) heap.bound _ relinked freshOutside

theorem link_front_rep (heap : NodeHeap) (filelist : Pointer) (first : Nat × Song) (rest : Cells)
    (path : CString) (rep : PlaylistRep heap filelist (first :: rest)) :
    ∃ next, linkFront heap filelist path = .ok (next, some heap.bound) ∧
      PlaylistRep next (some heap.bound) ((heap.bound, songOf path) :: first :: rest) ∧
      next.bound = heap.bound + 1 := by
  rw [rep.entry, first_of_cons]
  exact link_front_segment heap none first rest path rep.segment rep.distinct

theorem add_front_null (heap : NodeHeap) (path : CString) :
    addplaylistFront heap none path = .error .nullDeref := by
  cases bound : heap.bound <;> simp [addplaylistFront, frontWalk, linkFront, maxPlayListLen, bound]

theorem add_front_rep (heap : NodeHeap) (filelist : Pointer) (cells : Cells) (path : CString)
    (rep : PlaylistRep heap filelist cells) (nonempty : cells ≠ []) :
    ∃ added, addplaylistFront heap filelist path = .ok added ∧ added.filelist = some heap.bound ∧
      PlaylistRep added.heap added.filelist ((heap.bound, songOf path) :: evictTail cells) ∧
      added.heap.bound = heap.bound + 1 ∧ added.buffer = bufferAfter path := by
  have walked : frontWalk heap heap.bound filelist none 0 = .ok (beforeLast none cells, cells.length) := by
    rw [rep.entry, front_walk_segment heap none cells heap.bound none 0 rep.segment
      (linked_length_bound filelist cells rep), Nat.zero_add]
  rw [addplaylistFront, walked, ok_bind]
  by_cases full : cells.length = maxPlayListLen
  · obtain ⟨shorter, last, rfl⟩ := (List.eq_nil_or_concat' cells).resolve_left nonempty
    have many : shorter ≠ [] := by
      rintro rfl
      simp [maxPlayListLen] at full
    obtain ⟨front, keeper, rfl⟩ := (List.eq_nil_or_concat' shorter).resolve_left many
    rw [List.append_assoc, List.cons_append, List.nil_append] at rep full walked ⊢
    obtain ⟨middle, evicted, remaining, sameBound⟩ := evict_last_rep heap filelist front keeper last rep
    have evictEq : evictTail (front ++ [keeper, last]) = front ++ [keeper] := by
      rw [evictTail, if_pos full, List.dropLast_append_of_ne_nil (by simp)]
      rfl
    obtain ⟨first, rest, shape⟩ : ∃ first rest, front ++ [keeper] = first :: rest := by
      cases front with
      | nil => exact ⟨keeper, [], rfl⟩
      | cons cell more => exact ⟨cell, more ++ [keeper], rfl⟩
    rw [shape] at remaining evictEq
    obtain ⟨next, linked, longer, bound⟩ := link_front_rep middle filelist first rest path remaining
    refine ⟨⟨next, some heap.bound, bufferAfter path⟩, ?_, rfl, ?_, bound.trans (by rw [sameBound]), rfl⟩
    · simp only [if_pos full, before_last_append, evicted, ok_bind, linked, sameBound]
    · simpa only [evictEq, sameBound] using longer
  · obtain ⟨first, rest, rfl⟩ := List.exists_cons_of_ne_nil nonempty
    obtain ⟨next, linked, longer, bound⟩ := link_front_rep heap filelist first rest path rep
    refine ⟨⟨next, some heap.bound, bufferAfter path⟩, ?_, rfl, ?_, bound, rfl⟩
    · simp only [if_neg full, ok_bind, linked]
    · simpa only [evictTail, if_neg full] using longer

end Slogger.Playlist
