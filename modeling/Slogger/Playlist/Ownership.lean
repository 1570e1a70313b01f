import Slogger.Lib.Ledger
import Slogger.Playlist.Calls

set_option autoImplicit false

namespace Slogger.Playlist

open Slogger.Lib

-- The nodes are freed from the last one back: each one is read once more, for
-- its strings, after the call on the rest. A node is one allocation with them.
def deleteList : Nat → NodeHeap → Pointer → Except Fault NodeHeap
  | _, heap, none => .ok heap
  | 0, _, some _ => .error .loops
  | fuel + 1, heap, some address => do
      let curr ← heap.deref (some address)
      let heap ← deleteList fuel heap curr.next
      let _ ← heap.deref (some address)
      heap.release (some address)

def Owned (heap : NodeHeap) (filelist : Pointer) : Prop :=
  ∃ cells, PlaylistRep heap filelist cells ∧ heap.live.length = cells.length

theorem owned_exactly (heap : NodeHeap) (filelist : Pointer) (cells : Cells) (rep : PlaylistRep heap filelist cells)
    (count : heap.live.length = cells.length) (address : Nat) :
    (heap.cell address).isSome = true ↔ address ∈ addresses cells := by
  apply heap.live_exactly (addresses cells) rep.distinct
  · intro other member
    obtain ⟨cell, inCells, rfl⟩ := List.mem_map.mp member
    obtain ⟨node, read, _⟩ := segment_member none none cells cell rep.segment inCells
    rw [read]
    rfl
  · rw [count, addresses, List.length_map]

theorem evict_first_live (heap next : NodeHeap) (filelist head : Pointer)
    (ran : evictFirst heap filelist = .ok (next, head)) : next.live.length + 1 = heap.live.length := by
  cases filelist with
  | none => cases ran
  | some address =>
      obtain ⟨first, _, ran⟩ := (bind_ok_iff _ _ _).mp ran
      obtain ⟨middle, freed, ran⟩ := (bind_ok_iff _ _ _).mp ran
      obtain ⟨last, written, ended⟩ := (bind_ok_iff _ _ _).mp ran
      obtain rfl : last = next := congrArg Prod.fst (Except.ok.inj ended)
      rw [middle.assign_live last _ _ written]
      exact heap.release_live middle address freed

theorem link_last_live (heap next : NodeHeap) (filelist prv head : Pointer) (path : CString)
    (ran : linkLast heap filelist prv path = .ok (next, head)) : next.live.length = heap.live.length + 1 := by
  simp only [linkLast] at ran
  split at ran
  · obtain ⟨last, written, ended⟩ := (bind_ok_iff _ _ _).mp ran
    obtain rfl : last = next := congrArg Prod.fst (Except.ok.inj ended)
    rw [Heap.assign_live _ last _ _ written, heap.alloc_live]
  · obtain ⟨last, written, ended⟩ := (bind_ok_iff _ _ _).mp ran
    obtain rfl : last = next := congrArg Prod.fst (Except.ok.inj ended)
    rw [Heap.assign_live _ last _ _ written, heap.alloc_live]
  · obtain rfl := congrArg Prod.fst (Except.ok.inj ran)
    exact heap.alloc_live _

theorem add_last_owned (heap : NodeHeap) (filelist : Pointer) (path : CString) (added : Added)
    (owned : Owned heap filelist) (ran : addplaylistLast heap filelist path = .ok added) :
    Owned added.heap added.filelist := by
  obtain ⟨cells, rep, count⟩ := owned
  obtain ⟨result, again, longer, _⟩ := add_last_rep heap filelist cells path rep
  obtain rfl := Except.ok.inj (again.symm.trans ran)
  refine ⟨_, longer, ?_⟩
  have walked : lastWalk heap heap.bound filelist none 0 = .ok (lastOf none cells, cells.length) := by
    rw [rep.entry, last_walk_segment heap none cells heap.bound none 0 rep.segment
      (linked_length_bound filelist cells rep), Nat.zero_add]
  rw [addplaylistLast, walked, ok_bind] at ran
  dsimp only at ran
  rw [List.length_append, List.length_singleton, evictHead]
  by_cases full : cells.length = maxPlayListLen
  · have some : 0 < cells.length := by
      rw [full]
      decide
    rw [if_pos full] at ran ⊢
    obtain ⟨⟨middle, head⟩, evicted, ran⟩ := (bind_ok_iff _ _ _).mp ran
    obtain ⟨⟨next, last⟩, linked, ended⟩ := (bind_ok_iff _ _ _).mp ran
    obtain rfl := Except.ok.inj ended
    have shrunk := evict_first_live heap middle filelist head evicted
    have grown := link_last_live middle next head _ last path linked
    rw [List.length_tail]
    dsimp only
    omega
  · rw [if_neg full, ok_bind] at ran
    rw [if_neg full]
    obtain ⟨⟨next, last⟩, linked, ended⟩ := (bind_ok_iff _ _ _).mp ran
    obtain rfl := Except.ok.inj ended
    have grown := link_last_live heap next filelist _ last path linked
    dsimp only
    omega

theorem evict_last_live (heap next : NodeHeap) (prvtoPrv : Pointer) (several : prvtoPrv ≠ none)
    (ran : evictLast heap prvtoPrv = .ok next) : next.live.length + 1 = heap.live.length := by
  cases prvtoPrv with
  | none => exact absurd rfl several
  | some address =>
      obtain ⟨keeper, _, ran⟩ := (bind_ok_iff _ _ _).mp ran
      obtain ⟨last, read, ran⟩ := (bind_ok_iff _ _ _).mp ran
      obtain ⟨middle, freed, written⟩ := (bind_ok_iff _ _ _).mp ran
      rw [middle.assign_live next _ _ written]
      cases follower : keeper.next with
      | none =>
          rw [follower] at read
          cases read
      | some other =>
          rw [follower] at freed
          exact heap.release_live middle other freed

theorem link_front_live (heap next : NodeHeap) (filelist head : Pointer) (path : CString)
    (ran : linkFront heap filelist path = .ok (next, head)) : next.live.length = heap.live.length + 1 := by
  obtain ⟨middle, mirrored, ran⟩ := (bind_ok_iff _ _ _).mp ran
  obtain ⟨last, written, ended⟩ := (bind_ok_iff _ _ _).mp ran
  obtain rfl : last = next := congrArg Prod.fst (Except.ok.inj ended)
  rw [middle.assign_live last _ _ written, Heap.assign_live _ middle _ _ mirrored, heap.alloc_live]

theorem before_last_some (cells : Cells) (keep : Pointer) (several : 2 ≤ cells.length) : beforeLast keep cells ≠ none := by
  fun_induction beforeLast keep cells with
  | case1 => simp at several
  | case2 => simp at several
  | case3 => simp
  | case4 keep second third rest ih => exact ih (by simp)

theorem add_front_owned (heap : NodeHeap) (filelist : Pointer) (path : CString) (added : Added)
    (owned : Owned heap filelist) (ran : addplaylistFront heap filelist path = .ok added) :
    Owned added.heap added.filelist := by
  obtain ⟨cells, rep, count⟩ := owned
  have nonempty : cells ≠ [] := by
    intro empty
    rw [(linked_null filelist cells rep).mpr empty, add_front_null] at ran
    cases ran
  obtain ⟨result, again, _, longer, _⟩ := add_front_rep heap filelist cells path rep nonempty
  obtain rfl := Except.ok.inj (again.symm.trans ran)
  refine ⟨_, longer, ?_⟩
  have walked : frontWalk heap heap.bound filelist none 0 = .ok (beforeLast none cells, cells.length) := by
    rw [rep.entry, front_walk_segment heap none cells heap.bound none 0 rep.segment
      (linked_length_bound filelist cells rep), Nat.zero_add]
  rw [addplaylistFront, walked, ok_bind] at ran
  dsimp only at ran
  rw [List.length_cons, evictTail]
  by_cases full : cells.length = maxPlayListLen
  · have several : 2 ≤ cells.length := by
      rw [full]
      decide
    rw [if_pos full] at ran ⊢
    obtain ⟨middle, evicted, ran⟩ := (bind_ok_iff _ _ _).mp ran
    obtain ⟨⟨next, head⟩, linked, ended⟩ := (bind_ok_iff _ _ _).mp ran
    obtain rfl := Except.ok.inj ended
    have shrunk := evict_last_live heap middle _ (before_last_some cells none several) evicted
    have grown := link_front_live middle next filelist head path linked
    rw [List.length_dropLast]
    dsimp only
    omega
  · rw [if_neg full, ok_bind] at ran
    rw [if_neg full]
    obtain ⟨⟨next, head⟩, linked, ended⟩ := (bind_ok_iff _ _ _).mp ran
    obtain rfl := Except.ok.inj ended
    have grown := link_front_live heap next filelist head path linked
    dsimp only
    omega

theorem unlink_live (heap next : NodeHeap) (filelist node head : Pointer)
    (ran : unlinkNode heap filelist node = .ok (next, head)) : next.live.length = heap.live.length := by
  obtain ⟨here, _, ran⟩ := (bind_ok_iff _ _ _).mp ran
  split at ran
  · obtain ⟨middle, joined, ran⟩ := (bind_ok_iff _ _ _).mp ran
    obtain ⟨again, _, ran⟩ := (bind_ok_iff _ _ _).mp ran
    rw [← heap.assign_live middle _ _ joined]
    dsimp only at ran
    split at ran
    · obtain ⟨last, mirrored, ended⟩ := (bind_ok_iff _ _ _).mp ran
      obtain rfl : last = next := congrArg Prod.fst (Except.ok.inj ended)
      exact middle.assign_live last _ _ mirrored
    · obtain rfl : middle = next := congrArg Prod.fst (Except.ok.inj ran)
      rfl
  · obtain ⟨last, written, ended⟩ := (bind_ok_iff _ _ _).mp ran
    obtain rfl : last = next := congrArg Prod.fst (Except.ok.inj ended)
    exact heap.assign_live last _ _ written

theorem remove_node_live (heap : NodeHeap) (filelist pagehead : Pointer) (address : Nat) (removed : Removed)
    (ran : removeplayNode heap filelist (some address) pagehead = .ok removed) :
    removed.heap.live.length + 1 = heap.live.length := by
  obtain ⟨here, _, ran⟩ := (bind_ok_iff _ _ _).mp ran
  obtain ⟨⟨middle, head⟩, unlinked, ran⟩ := (bind_ok_iff _ _ _).mp ran
  obtain ⟨last, freed, ended⟩ := (bind_ok_iff _ _ _).mp ran
  obtain rfl := Except.ok.inj ended
  rw [← unlink_live heap middle filelist _ head unlinked]
  exact middle.release_live last address freed

theorem remove_cell_owned (heap : NodeHeap) (filelist pagehead : Pointer) (left right : Cells) (cell : Nat × Song)
    (removed : Removed) (rep : PlaylistRep heap filelist (left ++ cell :: right))
    (count : heap.live.length = (left ++ cell :: right).length)
    (ran : removeplayNode heap filelist (some cell.1) pagehead = .ok removed) :
    Owned removed.heap removed.filelist := by
  have others : left ++ right ≠ [] := by
    intro empty
    obtain ⟨rfl, rfl⟩ := List.append_eq_nil_iff.mp empty
    have faulted := remove_sole_node heap filelist pagehead cell.1 cell.2 rep
    rw [ran] at faulted
    cases faulted
  obtain ⟨result, again, shorter, _⟩ := remove_node_rep heap filelist pagehead left right cell.1 cell.2 rep others
  obtain rfl := Except.ok.inj (again.symm.trans ran)
  have freed := remove_node_live heap filelist pagehead cell.1 result ran
  refine ⟨left ++ right, shorter, ?_⟩
  simp only [List.length_append, List.length_cons] at count ⊢
  omega

theorem exchange_live (heap next : NodeHeap) (node partner : Pointer) (ran : exchange heap node partner = .ok next) :
    next.live.length = heap.live.length := by
  obtain ⟨here, _, ran⟩ := (bind_ok_iff _ _ _).mp ran
  obtain ⟨there, _, ran⟩ := (bind_ok_iff _ _ _).mp ran
  obtain ⟨middle, first, second⟩ := (bind_ok_iff _ _ _).mp ran
  rw [middle.assign_live next _ _ second, heap.assign_live middle _ _ first]

theorem swap_node_live (heap : NodeHeap) (node selnode : Pointer) (next : Bool) (swapped : Swapped)
    (ran : swapplayNode heap node next selnode = .ok swapped) : swapped.heap.live.length = heap.live.length := by
  obtain ⟨here, _, ran⟩ := (bind_ok_iff _ _ _).mp ran
  repeat' split at ran
  all_goals first
    | obtain ⟨last, exchanged, ended⟩ := (bind_ok_iff _ _ _).mp ran
      obtain rfl := Except.ok.inj ended
      exact exchange_live heap last _ _ exchanged
    | obtain rfl := Except.ok.inj ran
      rfl

theorem swap_cell_owned (heap : NodeHeap) (filelist selnode : Pointer) (left right : Cells) (cell : Nat × Song)
    (next : Bool) (swapped : Swapped) (rep : PlaylistRep heap filelist (left ++ cell :: right))
    (count : heap.live.length = (left ++ cell :: right).length)
    (ran : swapplayNode heap (some cell.1) next selnode = .ok swapped) : Owned swapped.heap filelist := by
  obtain ⟨result, after, again, represented, _, same, _⟩ :=
    swap_node_rep heap filelist selnode left right cell.1 cell.2 next rep
  obtain rfl := Except.ok.inj (again.symm.trans ran)
  refine ⟨after, represented, ?_⟩
  have lengths := congrArg List.length same
  rw [addresses, addresses, List.length_map, List.length_map] at lengths
  rw [swap_node_live heap _ selnode next result ran, count, lengths]

theorem read_loop_owned (fuel : Nat) (file : InStream) (heap : NodeHeap) (list : Pointer) (last : NodeHeap)
    (head : Pointer) (owned : Owned heap list) (ran : readLoop fuel file heap list = .ok (last, head)) :
    Owned last head := by
  induction fuel generalizing file heap list with
  | zero =>
      rw [readLoop] at ran
      split at ran
      · cases ran
        exact owned
      · cases ran
  | succ fuel ih =>
      rw [readLoop] at ran
      split at ran
      · cases ran
        exact owned
      · split at ran
        · obtain ⟨added, longer, ran⟩ := (bind_ok_iff _ _ _).mp ran
          exact ih _ _ _ (add_last_owned heap list _ added owned longer) ran
        · exact ih _ _ _ owned ran

theorem call_owned (state next : ListState) (call : Call) (owned : Owned state.heap state.filelist)
    (ran : execCall state call = .ok next) : Owned next.heap next.filelist := by
  cases call with
  | addLast path =>
      obtain ⟨added, longer, ended⟩ := (bind_ok_iff _ _ _).mp ran
      cases ended
      exact add_last_owned _ _ path added owned longer
  | addFront path =>
      obtain ⟨added, longer, ended⟩ := (bind_ok_iff _ _ _).mp ran
      cases ended
      exact add_front_owned _ _ path added owned longer
  | remove path pagehead =>
      obtain ⟨removed, shorter, ended⟩ := (bind_ok_iff _ _ _).mp ran
      cases ended
      obtain ⟨cells, rep, count⟩ := owned
      by_cases present : path ∈ paths cells
      · obtain ⟨left, cell, right, rfl, _, _, found⟩ :=
          remove_path_present state.heap state.filelist pagehead cells path rep present
        rw [found] at shorter
        exact remove_cell_owned _ _ pagehead left right cell removed rep count shorter
      · rw [remove_path_absent state.heap state.filelist pagehead cells path rep present] at shorter
        cases shorter
        exact ⟨cells, rep, count⟩
  | removeNode position pagehead =>
      obtain ⟨node, found, called⟩ := (bind_ok_iff _ _ _).mp ran
      obtain ⟨removed, shorter, ended⟩ := (bind_ok_iff _ _ _).mp called
      cases ended
      obtain ⟨cells, rep, count⟩ := owned
      rw [node_at_rep state.heap state.filelist cells position rep] at found
      obtain rfl := Except.ok.inj found
      by_cases inside : position < cells.length
      · obtain ⟨left, cell, right, rfl, rfl⟩ := split_at cells position inside
        rw [place_middle] at shorter
        exact remove_cell_owned _ _ pagehead left right cell removed rep count shorter
      · rw [place_outside cells position (Nat.le_of_not_lt inside)] at shorter
        cases shorter
        exact ⟨cells, rep, count⟩
  | swap path forth selnode =>
      obtain ⟨swapped, moved, ended⟩ := (bind_ok_iff _ _ _).mp ran
      cases ended
      obtain ⟨cells, rep, count⟩ := owned
      rw [swapplaylist, find_path_playlist state.heap state.filelist cells path rep, ok_bind] at moved
      rcases first_path_split cells path with ⟨_, searched⟩ | ⟨left, cell, right, rfl, _, _, searched⟩
      · rw [searched] at moved
        cases moved
        exact ⟨cells, rep, count⟩
      · rw [searched] at moved
        exact swap_cell_owned _ _ selnode left right cell forth swapped rep count moved
  | swapNode position forth selnode =>
      obtain ⟨node, found, called⟩ := (bind_ok_iff _ _ _).mp ran
      obtain ⟨swapped, moved, ended⟩ := (bind_ok_iff _ _ _).mp called
      cases ended
      obtain ⟨cells, rep, count⟩ := owned
      rw [node_at_rep state.heap state.filelist cells position rep] at found
      obtain rfl := Except.ok.inj found
      by_cases inside : position < cells.length
      · obtain ⟨left, cell, right, rfl, rfl⟩ := split_at cells position inside
        rw [place_middle] at moved
        exact swap_cell_owned _ _ selnode left right cell forth swapped rep count moved
      · rw [place_outside cells position (Nat.le_of_not_lt inside)] at moved
        cases moved
  | read file =>
      obtain ⟨loaded, read, ended⟩ := (bind_ok_iff _ _ _).mp ran
      cases ended
      cases file with
      | none =>
          cases read
          exact owned
      | some opened =>
          obtain ⟨⟨last, head⟩, looped, ended⟩ := (bind_ok_iff _ _ _).mp read
          cases ended
          exact read_loop_owned _ _ _ _ last head owned looped

theorem delete_list_segment (heap : NodeHeap) (before : Pointer) (cells : Cells) (fuel : Nat)
    (segment : Segment playLayout heap before cells none) (distinct : (addresses cells).Nodup)
    (enough : cells.length ≤ fuel) :
    ∃ freed, deleteList fuel heap (firstOf cells none) = .ok freed ∧ freed.live.length + cells.length = heap.live.length ∧
      ∀ address, address ∉ addresses cells → freed.cell address = heap.cell address := by
  induction cells generalizing heap before fuel with
  | nil => exact ⟨heap, by cases fuel <;> rfl, rfl, fun _ _ => rfl⟩
  | cons cell rest ih =>
      cases fuel with
      | zero => simp at enough
      | succ fuel =>
          obtain ⟨apart, later⟩ := List.nodup_cons.mp distinct
          have read := play_segment_read heap before none [] rest cell.1 cell.2 segment
          obtain ⟨behind, ran, fewer, frame⟩ := ih heap (some cell.1) fuel segment.2 later (by simpa using enough)
          have kept := (frame cell.1 apart).trans read
          refine ⟨behind.erase cell.1, ?_, ?_, ?_⟩
          · rw [first_of_cons, deleteList, heap.deref_read cell.1 _ read, ok_bind, ran, ok_bind,
              behind.deref_read cell.1 _ kept, ok_bind, behind.release_read cell.1 _ kept]
          · have freed := behind.erase_live cell.1 _ kept
            rw [List.length_cons]
            omega
          · intro address outside
            rw [addresses_cons, List.mem_cons, not_or] at outside
            rw [behind.erase_other cell.1 address outside.1, frame address outside.2]

theorem run_owned (calls : List Call) (state final : ListState) (owned : Owned state.heap state.filelist)
    (ran : runCalls calls state = .ok final) : Owned final.heap final.filelist := by
  induction calls generalizing state with
  | nil =>
      cases ran
      exact owned
  | cons call rest ih =>
      obtain ⟨next, stepped, later⟩ := (bind_ok_iff _ _ _).mp ran
      exact ih next (call_owned state next call owned stepped) later

-- Whatever calls were made, the nodes in memory are those of the list, and
-- deleteList gives all of them back, each once.
theorem no_node_leaked (calls : List Call) (state : ListState) (ran : runCalls calls emptyList = .ok state) :
    ∃ cells, PlaylistRep state.heap state.filelist cells ∧
      (∀ address, (state.heap.cell address).isSome = true ↔ address ∈ addresses cells) ∧
      ∃ freed, deleteList state.heap.bound state.heap state.filelist = .ok freed ∧ ∀ address, freed.cell address = none := by
  obtain ⟨cells, rep, count⟩ := run_owned calls emptyList state ⟨[], (linked_empty none).mpr rfl, rfl⟩ ran
  obtain ⟨freed, deleted, fewer, _⟩ := delete_list_segment state.heap none cells state.heap.bound rep.segment rep.distinct
    (linked_length_bound state.filelist cells rep)
  refine ⟨cells, rep, owned_exactly state.heap state.filelist cells rep count, freed, ?_, ?_⟩
  · rw [← rep.entry] at deleted
    exact deleted
  · exact freed.none_live (by omega)

def addsAndRemoval : List Call := List.replicate 17 (.addLast (cString [97])) ++ [.removeNode 3 none]

theorem eviction_and_removal_leak_nothing : ∃ state, runCalls addsAndRemoval emptyList = .ok state ∧
    ∃ cells, PlaylistRep state.heap state.filelist cells ∧
      (∀ address, (state.heap.cell address).isSome = true ↔ address ∈ addresses cells) ∧
      ∃ freed, deleteList state.heap.bound state.heap state.filelist = .ok freed ∧ ∀ address, freed.cell address = none := by
  have runs : (runCalls addsAndRemoval emptyList).isOk = true := by decide +kernel
  cases ran : runCalls addsAndRemoval emptyList with
  | error fault =>
      rw [ran] at runs
      cases runs
  | ok state => exact ⟨state, rfl, no_node_leaked addsAndRemoval state ran⟩

end Slogger.Playlist
