import Slogger.Playlist.Node

set_option autoImplicit false

namespace Slogger.Playlist

open Slogger.Lib

structure Removed where
  heap : NodeHeap
  filelist : Pointer
  pagehead : Pointer
  result : Bool

-- Unlinking node: the branch without a predecessor writes through the new list
-- head without asking whether there is one.
def unlinkNode (heap : NodeHeap) (filelist node : Pointer) : Except Fault (NodeHeap × Pointer) := do
  let here ← heap.deref node
  match here.prv with
  | some _ => do
      let heap ← heap.assign here.prv fun prv => { prv with next := here.next }
      let here' ← heap.deref node
      let heap ←
        match here'.next with
        | some _ => heap.assign here'.next fun next => { next with prv := here.prv }
        | none => .ok heap
      .ok (heap, filelist)
  | none => do
      let heap ← heap.assign here.next fun first => { first with prv := none }
      .ok (heap, here.next)

def removeplayNode (heap : NodeHeap) (filelist node pagehead : Pointer) : Except Fault Removed :=
  match node with
  | none => .ok ⟨heap, filelist, pagehead, false⟩
  | some _ => do
      let tmp ← heap.deref node
      let pagehead :=
        if node = pagehead then (if tmp.next ≠ none then tmp.next else tmp.prv) else pagehead
      let (heap, filelist) ← unlinkNode heap filelist node
      let heap ← heap.release node
      .ok ⟨heap, filelist, pagehead, true⟩

def removeplaylist (heap : NodeHeap) (filelist : Pointer) (path : CString) (pagehead : Pointer) :
    Except Fault Removed := do
  let list ← findPath heap path heap.bound filelist
  match list with
  | some _ => removeplayNode heap filelist list pagehead
  | none => .ok ⟨heap, filelist, pagehead, false⟩

def repairedHead (left : Cells) (address : Nat) (right : Cells) (pagehead : Pointer) : Pointer :=
  if some address = pagehead then firstOf right (lastOf none left) else pagehead

theorem unlink_sole_node (heap : NodeHeap) (filelist : Pointer) (address : Nat) (song : Song)
    (rep : PlaylistRep heap filelist [(address, song)]) :
    unlinkNode heap filelist (some address) = .error .nullDeref := by
  have read := play_deref heap none none [] [] address song rep.segment
  simp [unlinkNode, read, lastOf, firstOf]

theorem unlink_first_rep (heap : NodeHeap) (filelist : Pointer) (address : Nat) (song : Song)
    (second : Nat × Song) (rest : Cells)
    (rep : PlaylistRep heap filelist ((address, song) :: second :: rest)) :
    ∃ next, unlinkNode heap filelist (some address) = .ok (next, some second.1) ∧
      next.cell address = heap.cell address ∧ next.bound = heap.bound ∧
      Segment playLayout next none (second :: rest) none := by
  obtain ⟨entry, distinct, segment⟩ := rep
  have listed := List.nodup_cons.mp distinct
  have secondOutside : second.1 ∉ addresses rest := (List.nodup_cons.mp listed.2).1
  have different : address ≠ second.1 := fun same => listed.1 (by simp [same])
  have read := play_deref heap none none [] (second :: rest) address song segment
  have secondRead := play_segment_read heap (some address) none [] rest second.1 second.2 segment.2
  refine ⟨heap.modify second.1 fun node => { node with prv := none }, ?_,
    heap.modify_other second.1 address _ different, rfl, ?_⟩
  · simp only [unlinkNode, read, ok_bind, lastOf, first_of_cons, heap.assign_read second.1 _ _ secondRead]
  · exact segment_set_prv (some address) none none second.1 second.2 rest _ segment.2 secondOutside
      (fun _ => ⟨rfl, rfl, rfl⟩)

theorem unlink_middle_rep (heap : NodeHeap) (filelist : Pointer) (front : Cells) (keeper : Nat × Song)
    (address : Nat) (song : Song) (right : Cells)
    (rep : PlaylistRep heap filelist (front ++ keeper :: (address, song) :: right)) :
    ∃ next, unlinkNode heap filelist (some address) = .ok (next, filelist) ∧
      next.cell address ≠ none ∧ next.bound = heap.bound ∧
      Segment playLayout next none ((front ++ [keeper]) ++ right) none := by
  obtain ⟨entry, distinct, segment⟩ := rep
  have split : front ++ keeper :: (address, song) :: right = (front ++ [keeper]) ++ (address, song) :: right := by
    simp
  rw [split] at distinct segment
  have around := distinct_around (front ++ [keeper]) right (address, song) distinct
  have keeperOutside : keeper.1 ∉ addresses front := (distinct_around front [] keeper around.before).notBefore
  have keeperListed : keeper.1 ∈ addresses (front ++ [keeper]) := by simp [addresses]
  have different : address ≠ keeper.1 := fun same => around.notBefore (same ▸ keeperListed)
  have keeperRight : keeper.1 ∉ addresses right := around.apart keeper.1 keeperListed
  have read := play_segment_read heap none none (front ++ [keeper]) right address song segment
  have pieces := (segment_append none none (front ++ [keeper]) ((address, song) :: right)).mp segment
  have keeperRead := play_segment_read heap none (firstOf ((address, song) :: right) none) front []
    keeper.1 keeper.2 pieces.1
  let joined : NodeHeap := heap.modify keeper.1 fun prv => { prv with next := firstOf right none }
  have leftJoined : Segment playLayout joined none (front ++ [keeper]) (firstOf right none) :=
    segment_set_next none (firstOf ((address, song) :: right) none) (firstOf right none) front keeper.1 keeper.2 _
      pieces.1 keeperOutside (fun _ => ⟨rfl, rfl, rfl⟩)
  have rightJoined : Segment playLayout joined (some address) right none :=
    segment_modify_frame (some address) none right keeper.1 _ pieces.2.2 keeperRight
  have readJoined : joined.cell address = some ⟨firstOf right none, song.path, song.file, some keeper.1⟩ := by
    rw [heap.modify_other keeper.1 address _ different, read]
    simp [lastOf]
  have before : lastOf none (front ++ [keeper]) = some keeper.1 := by simp [lastOf]
  have started : unlinkNode heap filelist (some address) = (do
      let here' ← joined.deref (some address)
      let heap ←
        match here'.next with
        | some _ => joined.assign here'.next fun next => { next with prv := some keeper.1 }
        | none => .ok joined
      .ok (heap, filelist)) := by
    simp only [unlinkNode, heap.deref_read address _ read, ok_bind, before,
      heap.assign_read keeper.1 _ _ keeperRead, joined]
  rw [started, joined.deref_read address _ readJoined, ok_bind]
  cases right with
  | nil =>
      refine ⟨joined, rfl, by simp [readJoined], rfl, ?_⟩
      rw [List.append_nil]
      exact leftJoined
  | cons follower rest =>
      have followerOutside : follower.1 ∉ addresses rest := (List.nodup_cons.mp around.behind).1
      have followerRead := play_segment_read joined (some address) none [] rest follower.1 follower.2 rightJoined
      have addressFollower : address ≠ follower.1 := List.ne_of_not_mem_cons around.notBehind
      have followerLeft : follower.1 ∉ addresses (front ++ [keeper]) :=
        fun member => around.apart follower.1 member List.mem_cons_self
      refine ⟨joined.modify follower.1 fun next => { next with prv := some keeper.1 }, ?_, ?_, rfl, ?_⟩
      · simp only [first_of_cons, joined.assign_read follower.1 _ _ followerRead, ok_bind]
      · rw [joined.modify_other follower.1 address _ addressFollower, readJoined]
        simp
      · rw [segment_append]
        refine ⟨segment_modify_frame none _ (front ++ [keeper]) follower.1 _ leftJoined followerLeft, ?_⟩
        rw [before]
        exact segment_set_prv (some address) (some keeper.1) none follower.1 follower.2 rest _ rightJoined
          followerOutside (fun _ => ⟨rfl, rfl, rfl⟩)

theorem remove_node_head (heap : NodeHeap) (filelist pagehead : Pointer) (left right : Cells) (address : Nat)
    (song : Song) (rep : PlaylistRep heap filelist (left ++ (address, song) :: right)) :
    removeplayNode heap filelist (some address) pagehead = (do
      let (heap, filelist) ← unlinkNode heap filelist (some address)
      let heap ← heap.release (some address)
      .ok ⟨heap, filelist, repairedHead left address right pagehead, true⟩) := by
  have read := play_deref heap none none left right address song rep.segment
  simp only [removeplayNode, read, ok_bind]
  have repaired : (if some address = pagehead then
      (if firstOf right none ≠ none then firstOf right none else lastOf none left) else pagehead) =
        repairedHead left address right pagehead := by
    cases right <;> simp [repairedHead, firstOf]
  rw [repaired]

theorem remove_sole_node (heap : NodeHeap) (filelist pagehead : Pointer) (address : Nat) (song : Song)
    (rep : PlaylistRep heap filelist [(address, song)]) :
    removeplayNode heap filelist (some address) pagehead = .error .nullDeref := by
  rw [remove_node_head heap filelist pagehead [] [] address song rep, unlink_sole_node heap filelist address song rep,
    error_bind]

theorem remove_node_rep (heap : NodeHeap) (filelist pagehead : Pointer) (left right : Cells) (address : Nat)
    (song : Song) (rep : PlaylistRep heap filelist (left ++ (address, song) :: right))
    (others : left ++ right ≠ []) :
    ∃ removed, removeplayNode heap filelist (some address) pagehead = .ok removed ∧
      PlaylistRep removed.heap removed.filelist (left ++ right) ∧ removed.heap.bound = heap.bound ∧
      removed.pagehead = repairedHead left address right pagehead ∧ removed.result = true := by
  have distinct := rep.distinct
  have kept : (addresses (left ++ right)).Nodup ∧ address ∉ addresses (left ++ right) := by
    have around := distinct_around left right (address, song) distinct
    rw [addresses_append, List.nodup_append, List.mem_append, not_or]
    refine ⟨⟨around.before, around.behind, ?_⟩, around.notBefore, around.notBehind⟩
    intro early before late after same
    exact around.apart early before (same ▸ after)
  rw [remove_node_head heap filelist pagehead left right address song rep]
  rcases List.eq_nil_or_concat' left with rfl | ⟨front, keeper, rfl⟩
  · cases right with
    | nil => simp at others
    | cons second rest =>
        obtain ⟨next, unlinked, same, bound, segment⟩ := unlink_first_rep heap filelist address song second rest rep
        have read := play_segment_read heap none none [] (second :: rest) address song rep.segment
        refine ⟨⟨next.erase address, some second.1, repairedHead [] address (second :: rest) pagehead, true⟩, ?_, ⟨rfl, kept.1, ?_⟩, bound, rfl, rfl⟩
        · rw [unlinked, ok_bind]
          simp only [next.release_read address _ (same.trans read), ok_bind]
        · exact segment_erase_frame none none (second :: rest) address segment kept.2
  · rw [List.append_assoc, List.cons_append, List.nil_append] at rep
    obtain ⟨next, unlinked, present, bound, segment⟩ :=
      unlink_middle_rep heap filelist front keeper address song right rep
    obtain ⟨node, read⟩ := Option.ne_none_iff_exists'.mp present
    refine ⟨⟨next.erase address, filelist, repairedHead (front ++ [keeper]) address right pagehead, true⟩, ?_, ⟨?_, kept.1, ?_⟩, bound, rfl, rfl⟩
    · rw [unlinked, ok_bind]
      simp only [next.release_read address _ read, ok_bind]
    · rw [rep.entry]
      cases front <;> rfl
    · exact segment_erase_frame none none ((front ++ [keeper]) ++ right) address segment kept.2

theorem first_path_split (cells : Cells) (path : CString) :
    (path ∉ paths cells ∧ (cells.find? fun cell => cell.2.path = path) = none) ∨
    ∃ left cell right, cells = left ++ cell :: right ∧ path ∉ paths left ∧ cell.2.path = path ∧
      (cells.find? fun cell => cell.2.path = path) = some cell := by
  induction cells with
  | nil => exact .inl ⟨by simp [paths], rfl⟩
  | cons cell rest ih =>
      by_cases found : cell.2.path = path
      · exact .inr ⟨[], cell, rest, rfl, by simp [paths], found, by simp [found]⟩
      · rcases ih with ⟨absent, searched⟩ | ⟨left, target, right, split, before, same, searched⟩
        · refine .inl ⟨?_, by simpa [List.find?_cons, found] using searched⟩
          simpa [paths, Ne.symm found] using absent
        · refine .inr ⟨cell :: left, target, right, by rw [split]; rfl, ?_, same, ?_⟩
          · simpa [paths, Ne.symm found] using before
          · simpa [List.find?_cons, found] using searched

theorem remove_path_absent (heap : NodeHeap) (filelist pagehead : Pointer) (cells : Cells) (path : CString)
    (rep : PlaylistRep heap filelist cells) (absent : path ∉ paths cells) :
    removeplaylist heap filelist path pagehead = .ok ⟨heap, filelist, pagehead, false⟩ := by
  rcases first_path_split cells path with ⟨_, searched⟩ | ⟨left, cell, right, rfl, _, same, _⟩
  · rw [removeplaylist, find_path_playlist heap filelist cells path rep, searched]
    rfl
  · simp [paths, same] at absent

theorem remove_path_present (heap : NodeHeap) (filelist pagehead : Pointer) (cells : Cells) (path : CString)
    (rep : PlaylistRep heap filelist cells) (present : path ∈ paths cells) :
    ∃ left cell right, cells = left ++ cell :: right ∧ path ∉ paths left ∧ cell.2.path = path ∧
      removeplaylist heap filelist path pagehead = removeplayNode heap filelist (some cell.1) pagehead := by
  rcases first_path_split cells path with ⟨absent, _⟩ | ⟨left, cell, right, split, before, same, searched⟩
  · exact absurd present absent
  · refine ⟨left, cell, right, split, before, same, ?_⟩
    rw [removeplaylist, find_path_playlist heap filelist cells path rep, searched]
    rfl

end Slogger.Playlist
