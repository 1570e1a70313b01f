import Slogger.Lib.Chain
import Slogger.Lib.Recent
import Slogger.Playlist.Program
import Slogger.Playlist.Unique

set_option autoImplicit false

namespace Slogger.Playlist

open Slogger.Lib

abbrev ForwardRep (heap : NodeHeap) (filelist : Pointer) (cells : Cells) : Prop :=
  Forward playLayout heap filelist cells

theorem chain_node (heap : NodeHeap) (after : Pointer) (left right : Cells) (address : Nat) (song : Song)
    (chain : Chain playLayout heap (left ++ (address, song) :: right) after) :
    ∃ node, heap.cell address = some node ∧ node.path = song.path ∧ node.next = firstOf right after := by
  obtain ⟨node, read, carried, follows⟩ := chain_read after left right address song chain
  exact ⟨node, read, congrArg Song.path carried, follows⟩

theorem unique_passes_forward (heap : NodeHeap) (path : CString) (after prv filelist : Pointer) (cells : Cells)
    (fuel count : Nat) (chain : Chain playLayout heap cells after) (absent : path ∉ paths cells)
    (enough : cells.length ≤ fuel) :
    lastWalkUnique path fuel heap filelist (firstOf cells after) prv count =
      lastWalkUnique path (fuel - cells.length) heap filelist after (lastOf prv cells) (count + cells.length) := by
  induction cells generalizing prv fuel count with
  | nil => rfl
  | cons cell rest ih =>
      cases fuel with
      | zero => simp at enough
      | succ fuel =>
          obtain ⟨node, read, named, follows⟩ := chain_node heap after [] rest cell.1 cell.2 chain
          have apart : ¬ node.path = path := fun same => absent (by simp [paths, ← named, same])
          have later : path ∉ paths rest := fun member => absent (List.mem_cons_of_mem _ member)
          rw [first_of_cons, lastWalkUnique, heap.deref_read cell.1 node read, ok_bind]
          simp only [if_neg apart, follows]
          rw [ih (some cell.1) fuel (count + 1) chain.2 later (by simpa using enough)]
          simp only [lastOf, List.length_cons, Nat.add_sub_add_right]
          congr 1
          omega

-- Read forwards, the list is the one without the duplicate; the link back to it
-- is left alone and not followed by anything below.
theorem unlink_forward (heap : NodeHeap) (filelist : Pointer) (left right : Cells) (address : Nat) (song : Song)
    (rep : ForwardRep heap filelist (left ++ (address, song) :: right)) :
    ∃ next, unlinkDuplicate heap filelist (lastOf none left) (some address) (firstOf right none) =
        .ok (next, firstOf (left ++ right) none) ∧
      ForwardRep next (firstOf (left ++ right) none) (left ++ right) ∧ next.bound = heap.bound := by
  obtain ⟨entry, distinct, chain⟩ := rep
  have around := distinct_around left right (address, song) distinct
  have kept : (addresses (left ++ right)).Nodup := by
    rw [addresses_append]
    exact List.Nodup.append around.before around.behind fun other early late => around.apart other early late
  obtain ⟨node, read, _⟩ := chain_node heap none left right address song chain
  obtain ⟨leftPart, _, rightPart⟩ := (chain_append none left _).mp chain
  rcases List.eq_nil_or_concat' left with rfl | ⟨front, last, rfl⟩
  · refine ⟨heap.erase address, ?_, ⟨rfl, kept, chain_erase_frame none right address rightPart around.notBehind⟩, rfl⟩
    simp only [lastOf, unlinkDuplicate, ok_bind, heap.release_read address _ read, List.nil_append]
  · have lastListed : last.1 ∈ addresses (front ++ [last]) := by simp
    have lastFront : last.1 ∉ addresses front := (distinct_around front [] last around.before).notBefore
    have different : address ≠ last.1 := fun same => around.notBefore (same ▸ lastListed)
    obtain ⟨lastNode, lastRead, _⟩ := chain_node heap (some address) front [] last.1 last.2 leftPart
    let relinked : NodeHeap := heap.modify last.1 fun node => { node with next := firstOf right none }
    have here : relinked.cell address = some node := (heap.modify_other last.1 address _ different).trans read
    have tail : lastOf none (front ++ [last]) = some last.1 := by simp [lastOf]
    refine ⟨relinked.erase address, ?_, ⟨rfl, kept, (chain_append none _ right).mpr ⟨?_, ?_⟩⟩, rfl⟩
    · simp only [unlinkDuplicate, tail, heap.assign_read last.1 _ _ lastRead, ok_bind]
      rw [show heap.modify last.1 _ = relinked from rfl, relinked.release_read address _ here, ok_bind, entry]
      cases front <;> rfl
    · exact chain_erase_frame _ _ address
        (chain_set_next (some address) (firstOf right none) front last.1 last.2 _ leftPart lastFront
          fun _ => ⟨rfl, rfl⟩) around.notBefore
    · exact chain_erase_frame none right address
        (chain_modify_frame none right last.1 _ rightPart (around.apart last.1 lastListed)) around.notBehind

theorem unique_walk_forward (heap : NodeHeap) (filelist : Pointer) (cells : Cells) (path : CString)
    (rep : ForwardRep heap filelist cells) (distinct : (paths cells).Nodup) :
    ∃ next kept, lastWalkUnique path heap.bound heap filelist filelist none 0 =
        .ok (next, firstOf kept none, lastOf none kept, kept.length) ∧
      ForwardRep next (firstOf kept none) kept ∧ next.bound = heap.bound ∧
      kept.Sublist cells ∧ paths kept = (paths cells).erase path := by
  have counted := forward_length_bound filelist cells rep
  have entry : filelist = firstOf cells none := rep.entry
  rcases first_path_split cells path with ⟨absent, _⟩ | ⟨left, ⟨address, song⟩, right, rfl, before, rfl, _⟩
  · refine ⟨heap, cells, ?_, by rw [← entry]; exact rep, rfl, List.Sublist.refl _, ?_⟩
    · have passed := unique_passes_forward heap path none none filelist cells heap.bound 0 rep.chain absent counted
      rw [← entry] at passed ⊢
      rw [passed, Nat.zero_add]
      cases heap.bound - cells.length <;> rfl
    · rw [List.erase_of_not_mem absent]
  · have behind := path_not_behind left right (address, song) distinct
    obtain ⟨next, unlinked, shorter, bound⟩ := unlink_forward heap filelist left right address song rep
    obtain ⟨node, read, named, follows⟩ := chain_node heap none left right address song rep.chain
    refine ⟨next, left ++ right, ?_, shorter, bound, ?_, ?_⟩
    · rw [List.length_append, List.length_cons] at counted
      obtain ⟨fuel, remaining⟩ : ∃ fuel, heap.bound - left.length = fuel + 1 := ⟨heap.bound - left.length - 1, by omega⟩
      have walked := unique_passes_forward heap song.path (some address) none filelist left heap.bound 0
        ((chain_append none left _).mp rep.chain).1 before (by omega)
      have passed := unique_passes_forward next song.path none (lastOf none left) (firstOf (left ++ right) none) right fuel
        (0 + left.length) ((chain_append none left right).mp shorter.chain).2 behind (by omega)
      have start : filelist = firstOf left (some address) := by rw [entry, first_of_append, first_of_cons]
      rw [← start] at walked
      rw [walked, remaining, lastWalkUnique, heap.deref_read address node read, ok_bind]
      simp only [if_pos named, follows, unlinked, ok_bind, passed]
      rw [last_of_append, List.length_append, Nat.zero_add]
      cases fuel - right.length <;> rfl
    · exact List.Sublist.append (List.Sublist.refl left) (List.sublist_cons_self _ right)
    · rw [paths_append, paths_append, paths_cons, erase_middle _ _ _ before]

theorem evict_forward (heap : NodeHeap) (filelist : Pointer) (first second : Nat × Song) (rest : Cells)
    (rep : ForwardRep heap filelist (first :: second :: rest)) :
    ∃ next, evictFirst heap filelist = .ok (next, some second.1) ∧
      ForwardRep next (some second.1) (second :: rest) ∧ next.bound = heap.bound := by
  obtain ⟨entry, distinct, chain⟩ := rep
  have listed := List.nodup_cons.mp distinct
  have secondOutside : second.1 ∉ addresses rest := (List.nodup_cons.mp listed.2).1
  obtain ⟨firstNode, firstRead, _, firstNext⟩ := chain_node heap none [] (second :: rest) first.1 first.2 chain
  have erased := chain_erase_frame none (second :: rest) first.1 chain.2 listed.1
  obtain ⟨secondNode, secondRead, _⟩ := chain_node (heap.erase first.1) none [] rest second.1 second.2 erased
  refine ⟨(heap.erase first.1).modify second.1 fun node => { node with prv := none }, ?_, ⟨rfl, listed.2, ?_⟩, rfl⟩
  · rw [evictFirst, entry, first_of_cons, heap.deref_read first.1 firstNode firstRead, ok_bind]
    simp only [heap.release_read first.1 firstNode firstRead, ok_bind, firstNext, first_of_cons,
      (heap.erase first.1).assign_read second.1 secondNode _ secondRead]
  · exact chain_set_back none second.1 second.2 rest _ erased secondOutside fun _ => ⟨rfl, rfl⟩

theorem link_forward (heap : NodeHeap) (filelist : Pointer) (cells : Cells) (path : CString)
    (rep : ForwardRep heap filelist cells) :
    ∃ next head, linkLast heap filelist (lastOf none cells) path = .ok (next, head) ∧
      ForwardRep next head (cells ++ [(heap.bound, songOf path)]) := by
  obtain ⟨entry, distinct, chain⟩ := rep
  have below := chain_below none cells chain
  have longer : (addresses (cells ++ [(heap.bound, songOf path)])).Nodup := by
    rw [addresses_append, List.nodup_append]
    refine ⟨distinct, by simp [addresses], ?_⟩
    intro address member other last same
    have equal : other = heap.bound := by simpa [addresses] using last
    exact Nat.ne_of_lt (below address member) (same.trans equal)
  let fresh : StPlayList := ⟨none, path, fileName path, lastOf none cells⟩
  have kept := chain_alloc_frame none cells fresh chain
  rcases List.eq_nil_or_concat' cells with rfl | ⟨front, last, rfl⟩
  · subst entry
    exact ⟨heap.alloc fresh, some heap.bound, rfl, rfl, longer, ⟨fresh, heap.alloc_here fresh, rfl, rfl⟩, trivial⟩
  · have lastOutside : last.1 ∉ addresses front := (distinct_around front [] last distinct).notBefore
    have tail : lastOf none (front ++ [last]) = some last.1 := by simp [lastOf]
    obtain ⟨lastNode, lastRead, _⟩ := chain_node (heap.alloc fresh) none front [] last.1 last.2 kept
    refine ⟨(heap.alloc fresh).modify last.1 fun node => { node with next := some heap.bound }, filelist, ?_, ?_, longer, ?_⟩
    · simp only [linkLast, tail]
      rw [show heap.alloc _ = heap.alloc fresh by simp only [fresh, tail],
        (heap.alloc fresh).assign_read last.1 _ _ lastRead]
      rfl
    · rw [entry]
      cases front <;> rfl
    · rw [chain_append]
      refine ⟨chain_set_next none (some heap.bound) front last.1 last.2 _ kept lastOutside fun _ => ⟨rfl, rfl⟩,
        ⟨fresh, ?_, rfl, rfl⟩, trivial⟩
      have different : heap.bound ≠ last.1 := (Nat.ne_of_lt (below last.1 (by simp [addresses]))).symm
      rw [(heap.alloc fresh).modify_other last.1 heap.bound _ different, heap.alloc_here]

def OwnNames (cells : Cells) : Prop := ∀ cell ∈ cells, cell.2 = songOf cell.2.path

theorem own_names_songs (cells : Cells) (named : OwnNames cells) : songs cells = (paths cells).map songOf := by
  rw [songs, paths, List.map_map]
  exact List.map_congr_left named

theorem full_has_two (cells : Cells) (full : cells.length = maxPlayListLen) :
    ∃ first second rest, cells = first :: second :: rest := by
  cases cells with
  | nil => cases full
  | cons first tail =>
      cases tail with
      | nil => cases full
      | cons second rest => exact ⟨first, second, rest, rfl⟩

theorem add_unique_forward (heap : NodeHeap) (filelist : Pointer) (cells : Cells) (path : CString)
    (rep : ForwardRep heap filelist cells) (named : OwnNames cells) (distinct : (paths cells).Nodup) :
    ∃ added after, addplaylistLastUnique heap filelist path = .ok added ∧
      ForwardRep added.heap added.filelist after ∧ OwnNames after ∧
      paths after = touch maxPlayListLen (paths cells) path := by
  obtain ⟨middle, kept, walked, shorter, _, sub, erased⟩ := unique_walk_forward heap filelist cells path rep distinct
  have ownKept : OwnNames kept := fun cell member => named cell (sub.subset member)
  have ownLast : ∀ bound, OwnNames [(bound, songOf path)] := by
    intro bound cell member
    rw [List.mem_singleton.mp member]
    rfl
  rw [addplaylistLastUnique, walked, ok_bind, touch, ← erased]
  by_cases full : kept.length = maxPlayListLen
  · obtain ⟨first, second, rest, rfl⟩ := full_has_two kept full
    obtain ⟨evicted, ran, fewer, _⟩ := evict_forward middle _ first second rest shorter
    obtain ⟨next, head, linked, longer⟩ := link_forward evicted (some second.1) (second :: rest) path fewer
    refine ⟨⟨next, head, bufferAfter path⟩, _, ?_, longer, ?_, ?_⟩
    · simp only [if_pos full, ran, ok_bind]
      rw [show lastOf none (first :: second :: rest) = lastOf none (second :: rest) by rfl, linked, ok_bind]
    · exact List.forall_mem_append.mpr ⟨fun cell member => ownKept cell (List.mem_cons_of_mem first member), ownLast _⟩
    · have length : (paths (first :: second :: rest)).length = maxPlayListLen := by simpa [paths] using full
      rw [pushLast, if_pos length, paths_append]
      rfl
  · obtain ⟨next, head, linked, longer⟩ := link_forward middle _ kept path shorter
    refine ⟨⟨next, head, bufferAfter path⟩, _, ?_, longer, List.forall_mem_append.mpr ⟨ownKept, ownLast _⟩, ?_⟩
    · simp only [if_neg full, ok_bind, linked]
    · have length : ¬ (paths kept).length = maxPlayListLen := by simpa [paths] using full
      rw [pushLast, if_neg length, paths_append]
      rfl

theorem displaylist_forward (heap : NodeHeap) (cells : Cells) (fuel : Nat) (chain : Chain playLayout heap cells none)
    (enough : cells.length ≤ fuel) : displaylist heap fuel (firstOf cells none) = .ok (paths cells) := by
  induction cells generalizing fuel with
  | nil => cases fuel <;> rfl
  | cons cell rest ih =>
      cases fuel with
      | zero => simp at enough
      | succ fuel =>
          obtain ⟨node, read, named, follows⟩ := chain_node heap none [] rest cell.1 cell.2 chain
          rw [first_of_cons, displaylist, heap.deref_read cell.1 node read, ok_bind, follows,
            ih fuel chain.2 (Nat.le_of_succ_le_succ enough), ok_bind, named]
          rfl

theorem save_loop_forward (heap : NodeHeap) (faults : WriteFaults) (cells : Cells) (fuel call : Nat) (file : List UInt8)
    (chain : Chain playLayout heap cells none) (enough : cells.length ≤ fuel) :
    saveLoop heap faults fuel (firstOf cells none) call file = .ok (file ++ written faults call (paths cells)) := by
  induction cells generalizing fuel call file with
  | nil => cases fuel <;> simp [saveLoop, firstOf, written, paths]
  | cons cell rest ih =>
      cases fuel with
      | zero => simp at enough
      | succ fuel =>
          obtain ⟨node, read, named, follows⟩ := chain_node heap none [] rest cell.1 cell.2 chain
          rw [first_of_cons, saveLoop, heap.deref_read cell.1 node read, ok_bind]
          dsimp only
          rw [follows, ih fuel (call + 2) _ chain.2 (Nat.le_of_succ_le_succ enough), named]
          simp only [paths, List.map_cons, written, List.append_assoc]

def addUnique (state : ListState) (path : CString) : Except Fault ListState := do
  let added ← addplaylistLastUnique state.heap state.filelist path
  .ok ⟨added.heap, added.filelist⟩

theorem added_unique_forward (added : List CString) :
    ∃ state cells, added.foldlM addUnique emptyList = .ok state ∧ ForwardRep state.heap state.filelist cells ∧
      OwnNames cells ∧ paths cells = added.dedup.rtake maxPlayListLen := by
  induction added using List.reverseRecOn with
  | nil => exact ⟨emptyList, [], rfl, ⟨rfl, List.nodup_nil, trivial⟩, by simp [OwnNames], rfl⟩
  | append_singleton added path ih =>
      obtain ⟨state, cells, ran, rep, named, shown⟩ := ih
      have distinct : (paths cells).Nodup := by
        rw [shown]
        exact (List.nodup_dedup added).sublist (List.drop_sublist _ _)
      obtain ⟨last, after, adds, longer, renamed, touched⟩ :=
        add_unique_forward state.heap state.filelist cells path rep named distinct
      refine ⟨⟨last.heap, last.filelist⟩, after, ?_, longer, renamed, ?_⟩
      · rw [List.foldlM_append, ran, ok_bind, List.foldlM_cons, addUnique, adds]
        rfl
      · rw [touched, shown, dedup_snoc]
        exact touch_rtake maxPlayListLen added.dedup path (by decide) (List.nodup_dedup added)

-- However often paths are added again, the list of a build with UNIQUE, which is
-- read forwards when it is shown and saved, holds the paths added most recently,
-- each once and in the order of their last addition.
theorem unique_list_most_recent (added : List CString) :
    ∃ state cells, added.foldlM addUnique emptyList = .ok state ∧ ForwardRep state.heap state.filelist cells ∧
      songs cells = (added.dedup.rtake maxPlayListLen).map songOf ∧
      displaylist state.heap state.heap.bound state.filelist = .ok (added.dedup.rtake maxPlayListLen) ∧
      ∀ disk, saveplaylist state.heap state.filelist disk allWritten =
        .ok ⟨fileBytes (added.dedup.rtake maxPlayListLen), true⟩ := by
  obtain ⟨state, cells, ran, rep, named, shown⟩ := added_unique_forward added
  have enough := forward_length_bound state.filelist cells rep
  have start : state.filelist = firstOf cells none := rep.entry
  refine ⟨state, cells, ran, rep, ?_, ?_, fun disk => ?_⟩
  · rw [own_names_songs cells named, shown]
  · rw [start, displaylist_forward state.heap cells _ rep.chain enough, shown]
  · have looped := save_loop_forward state.heap allWritten cells state.heap.bound 0 [] rep.chain enough
    rw [← start, List.nil_append, shown, written_all] at looped
    have opened : allWritten.opens = true := rfl
    have flushed : allWritten.unflushed = 0 := rfl
    simp only [saveplaylist, opened, if_true, looped, ok_bind, flushed, Nat.sub_zero, List.take_length]

end Slogger.Playlist
