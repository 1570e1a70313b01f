import Slogger.Playlist.RoundTrip
import Slogger.Playlist.Travel

set_option autoImplicit false

namespace Slogger.Playlist

open Slogger.Lib

inductive Printed where
  | selected (file : CString)
  | list (paths : List CString)
  | page (paths : List CString)
deriving DecidableEq

structure Player where
  heap : NodeHeap
  fileplaylist : Pointer
  headoflist : Pointer
  selectedlist : Pointer
  printed : List Printed

def displaylist (heap : NodeHeap) : Nat → Pointer → Except Fault (List CString)
  | _, none => .ok []
  | 0, some _ => .error .loops
  | left + 1, some address => do
      let list ← heap.deref (some address)
      let rest ← displaylist heap left list.next
      .ok (list.path :: rest)

def showList (player : Player) : Except Fault Player := do
  let shown ← displaylist player.heap player.heap.bound player.fileplaylist
  .ok { player with printed := player.printed ++ [.list shown] }

def showPage (player : Player) : Except Fault Player := do
  let shown ← displayPage player.heap player.headoflist
  .ok { player with printed := player.printed ++ [.page shown] }

def swapNode (player : Player) (node : Pointer) (next : Bool) : Except Fault Player := do
  let swapped ← swapplayNode player.heap node next player.selectedlist
  .ok { player with heap := swapped.heap, selectedlist := swapped.selnode }

def showSelected (player : Player) : Except Fault Player := do
  let selected ← player.heap.deref player.selectedlist
  .ok { player with printed := player.printed ++ [.selected selected.file] }

def removeNode (player : Player) (node : Pointer) : Except Fault Player := do
  let removed ← removeplayNode player.heap player.fileplaylist node player.headoflist
  .ok { player with heap := removed.heap, fileplaylist := removed.filelist, headoflist := removed.pagehead }

def turnPage (player : Player) (next : Bool) : Except Fault Player := do
  let (headoflist, _) ← getPage player.heap player.fileplaylist next player.headoflist
  .ok { player with headoflist := headoflist }

def turnAndShow (player : Player) (next : Bool) : Except Fault Player := do
  let player ← turnPage player next
  showPage player

-- main up to its second displaylist: the first two entries trade places and
-- trade them back.
def mainSwaps (player : Player) : Except Fault Player := do
  let player ← swapNode player player.fileplaylist true
  let player ← showSelected player
  let player ← showList player
  let head ← player.heap.deref player.fileplaylist
  let player ← swapNode player head.next false
  let player ← showSelected player
  showList player

-- main up to its first displayPage: two entries go, the page head starts.
def mainRemovals (player : Player) : Except Fault Player := do
  let player ← removeNode player player.fileplaylist
  let player ← showList player
  let player ← turnPage player true
  let head ← player.heap.deref player.fileplaylist
  let player ← removeNode player head.next
  showPage player

def mainTurns : List Bool := [true, true, true, false, false, false, false]

def mainPlaylist (file : Option InStream) (disk : List UInt8) (faults : WriteFaults) :
    Except Fault (List Printed × Saved) := do
  let loaded ← readplaylist Heap.empty none file
  let player ← mainSwaps ⟨loaded.heap, loaded.filelist, none, loaded.filelist, []⟩
  let player ← mainRemovals player
  let player ← mainTurns.foldlM turnAndShow player
  let saved ← saveplaylist player.heap player.fileplaylist disk faults
  .ok (player.printed, saved)

def windowAt (entries : List CString) (position : Nat) : Printed := .page ((entries.drop position).take pageListLen)

def shownPages (entries : List CString) (position : Nat) : List Bool → List Printed
  | [] => []
  | next :: turns =>
      let moved := movedPage entries.length next (some position)
      windowAt entries moved :: shownPages entries moved turns

theorem displaylist_segment (heap : NodeHeap) (before : Pointer) (cells : Cells) (fuel : Nat)
    (segment : Segment playLayout heap before cells none) (enough : cells.length ≤ fuel) :
    displaylist heap fuel (firstOf cells none) = .ok (paths cells) := by
  induction cells generalizing before fuel with
  | nil => cases fuel <;> rfl
  | cons cell rest ih =>
      cases fuel with
      | zero => simp at enough
      | succ fuel =>
          have head := play_deref heap before none [] rest cell.1 cell.2 segment
          rw [first_of_cons, displaylist, head, ok_bind]
          dsimp only
          rw [ih (some cell.1) fuel segment.2 (by simpa using enough)]
          rfl

theorem show_list_rep (player : Player) (cells : Cells) (rep : PlaylistRep player.heap player.fileplaylist cells) :
    showList player = .ok { player with printed := player.printed ++ [.list (paths cells)] } := by
  have shown := displaylist_segment player.heap none cells player.heap.bound rep.segment
    (linked_length_bound player.fileplaylist cells rep)
  rw [← rep.entry] at shown
  rw [showList, shown, ok_bind]

theorem show_selected_rep (player : Player) (left right : Cells) (cell : Nat × Song)
    (rep : PlaylistRep player.heap player.fileplaylist (left ++ cell :: right))
    (selected : player.selectedlist = some cell.1) :
    showSelected player = .ok { player with printed := player.printed ++ [.selected cell.2.file] } := by
  rw [showSelected, selected, play_deref player.heap none none left right cell.1 cell.2 rep.segment, ok_bind]

theorem show_page_rep (player : Player) (cells : Cells) (position : Nat)
    (rep : PlaylistRep player.heap player.fileplaylist cells) (head : player.headoflist = place cells position) :
    showPage player = .ok { player with printed := player.printed ++ [windowAt (paths cells) position] } := by
  rw [showPage, head, display_page_place player.heap player.fileplaylist cells position rep, ok_bind, windowAt]

theorem turn_page_rep (player : Player) (cells : Cells) (next : Bool) (start : Option Nat)
    (rep : PlaylistRep player.heap player.fileplaylist cells) (head : player.headoflist = pointerAt cells start)
    (inside : Inside cells start) :
    turnPage player next = .ok { player with headoflist := place cells (movedPage cells.length next start) } := by
  rw [turnPage, head, get_page_closed player.heap player.fileplaylist cells next start rep inside, ok_bind]

theorem turns_show (player : Player) (cells : Cells) (position : Nat) (turns : List Bool)
    (rep : PlaylistRep player.heap player.fileplaylist cells) (head : player.headoflist = place cells position)
    (inside : position < cells.length) :
    ∃ last, turns.foldlM turnAndShow player =
      .ok { player with headoflist := last, printed := player.printed ++ shownPages (paths cells) position turns } := by
  induction turns generalizing player position with
  | nil => exact ⟨player.headoflist, by simp [shownPages]; rfl⟩
  | cons next turns ih =>
      have within : Inside cells (some position) := fun other same => Option.some.inj same ▸ inside
      have turned := turn_page_rep player cells next (some position) rep (by rw [head]; rfl) within
      have below := moved_page_inside cells next (some position) within (List.ne_nil_of_length_pos (by omega))
      have shown := show_page_rep
        { player with headoflist := place cells (movedPage cells.length next (some position)) } cells _ rep rfl
      obtain ⟨last, ended⟩ := ih { player with
        headoflist := place cells (movedPage cells.length next (some position))
        printed := player.printed ++ [windowAt (paths cells) (movedPage cells.length next (some position))] }
        _ rep rfl below
      have length : (paths cells).length = cells.length := by simp [paths]
      refine ⟨last, ?_⟩
      rw [List.foldlM_cons, turnAndShow, turned, ok_bind, shown, ok_bind, ended, shownPages, length, List.append_assoc,
        List.singleton_append]

-- The selection follows its song to the node it trades with.
theorem swap_first_rep (player : Player) (first second : Nat × Song) (rest : Cells)
    (rep : PlaylistRep player.heap player.fileplaylist (first :: second :: rest))
    (selected : player.selectedlist = some first.1) :
    ∃ after, swapNode player (some first.1) true = .ok { player with heap := after, selectedlist := some second.1 } ∧
      PlaylistRep after player.fileplaylist ((first.1, second.2) :: (second.1, first.2) :: rest) := by
  obtain ⟨after, swapped, moved, _⟩ :=
    swap_next_exchanges player.heap player.fileplaylist (some first.1) [] rest first.1 first.2 second rep
  rw [movedSelection, if_pos rfl] at swapped
  exact ⟨after, by rw [swapNode, selected, swapped, ok_bind], moved⟩

theorem swap_second_rep (player : Player) (first second : Nat × Song) (rest : Cells)
    (rep : PlaylistRep player.heap player.fileplaylist (first :: second :: rest))
    (selected : player.selectedlist = some second.1) :
    ∃ after, swapNode player (some second.1) false = .ok { player with heap := after, selectedlist := some first.1 } ∧
      PlaylistRep after player.fileplaylist ((first.1, second.2) :: (second.1, first.2) :: rest) := by
  obtain ⟨after, swapped, moved, _⟩ :=
    swap_prv_exchanges player.heap player.fileplaylist (some second.1) [] rest second.1 second.2 first rep
  rw [movedSelection, if_pos rfl] at swapped
  exact ⟨after, by rw [swapNode, selected, swapped, ok_bind], moved⟩

theorem main_swaps_rep (heap : NodeHeap) (list : Pointer) (first second : Nat × Song) (rest : Cells)
    (rep : PlaylistRep heap list (first :: second :: rest)) :
    ∃ after, mainSwaps ⟨heap, list, none, list, []⟩ = .ok ⟨after, list, none, some first.1,
        [.selected first.2.file, .list (second.2.path :: first.2.path :: paths rest), .selected first.2.file,
          .list (first.2.path :: second.2.path :: paths rest)]⟩ ∧
      PlaylistRep after list (first :: second :: rest) := by
  obtain rfl : list = some first.1 := rep.entry
  obtain ⟨middle, forth, swapped⟩ := swap_first_rep ⟨heap, some first.1, none, some first.1, []⟩ first second rest rep rfl
  have selected := show_selected_rep ⟨middle, some first.1, none, some second.1, []⟩ [(first.1, second.2)] rest
    (second.1, first.2) swapped rfl
  have listed := show_list_rep ⟨middle, some first.1, none, some second.1, [.selected first.2.file]⟩ _ swapped
  have head := play_deref middle none none [] ((second.1, first.2) :: rest) first.1 second.2 swapped.segment
  obtain ⟨after, back, restored⟩ := swap_second_rep ⟨middle, some first.1, none, some second.1,
    [.selected first.2.file, .list (paths ((first.1, second.2) :: (second.1, first.2) :: rest))]⟩ _ _ rest swapped rfl
  have reselected := show_selected_rep ⟨after, some first.1, none, some first.1,
    [.selected first.2.file, .list (paths ((first.1, second.2) :: (second.1, first.2) :: rest))]⟩ [] (second :: rest)
    first restored rfl
  have relisted := show_list_rep ⟨after, some first.1, none, some first.1,
    [.selected first.2.file, .list (paths ((first.1, second.2) :: (second.1, first.2) :: rest)),
      .selected first.2.file]⟩ _ restored
  refine ⟨after, ?_, restored⟩
  dsimp only [List.nil_append, List.cons_append] at forth selected listed back reselected relisted
  rw [mainSwaps]
  dsimp only
  rw [forth, ok_bind, selected, ok_bind, listed, ok_bind]
  dsimp only
  rw [head, ok_bind]
  dsimp only [first_of_cons]
  rw [back, ok_bind, reselected, ok_bind, relisted]
  rfl

theorem first_swap_faults (heap : NodeHeap) (list : Pointer) (cells : Cells) (rep : PlaylistRep heap list cells)
    (few : cells.length < 2) : mainSwaps ⟨heap, list, none, list, []⟩ = .error .nullDeref := by
  match cells, few with
  | [], _ =>
      obtain rfl : list = none := rep.entry
      rfl
  | [cell], _ =>
      obtain rfl : list = some cell.1 := rep.entry
      have stays := swap_last_stays heap (some cell.1) (some cell.1) [] cell.1 cell.2 rep
      have selected := show_selected_rep ⟨heap, some cell.1, none, some cell.1, []⟩ [] [] cell rep rfl
      have listed := show_list_rep ⟨heap, some cell.1, none, some cell.1, [.selected cell.2.file]⟩ [cell] rep
      have head := play_deref heap none none [] [] cell.1 cell.2 rep.segment
      dsimp only [List.nil_append, List.cons_append] at selected listed
      rw [mainSwaps, swapNode]
      dsimp only
      rw [stays, ok_bind, ok_bind, selected, ok_bind, listed, ok_bind]
      dsimp only
      rw [head, ok_bind]
      rfl

theorem main_removals_rep (heap : NodeHeap) (list selected : Pointer) (printed : List Printed) (first second : Nat × Song)
    (rest : Cells) (rep : PlaylistRep heap list (first :: second :: rest)) :
    ∃ after, mainRemovals ⟨heap, list, none, selected, printed⟩ = .ok ⟨after, some second.1, some second.1, selected,
        printed ++ [.list (second.2.path :: paths rest), windowAt (second.2.path :: paths rest.tail) 0]⟩ ∧
      PlaylistRep after (some second.1) (second :: rest.tail) := by
  have entry : list = some first.1 := rep.entry
  obtain ⟨removed, ran, shorter, _, head, _⟩ := remove_node_rep heap list none [] (second :: rest) first.1 first.2 rep
    (List.cons_ne_nil _ _)
  rw [List.nil_append] at shorter
  obtain ⟨middle, filelist, pagehead, result⟩ := removed
  obtain rfl : pagehead = none := head
  have started : filelist = some second.1 := shorter.entry
  subst started
  have turned := turn_page_rep ⟨middle, some second.1, none, selected, printed ++ [.list (paths (second :: rest))]⟩
    (second :: rest) true none shorter rfl (by simp [Inside])
  have follower := play_deref middle none none [] rest second.1 second.2 shorter.segment
  have common : mainRemovals ⟨heap, list, none, selected, printed⟩ = (do
      let player ← removeNode ⟨middle, some second.1, some second.1, selected,
        printed ++ [.list (paths (second :: rest))]⟩ (firstOf rest none)
      showPage player) := by
    rw [mainRemovals, removeNode]
    dsimp only
    rw [entry] at ran ⊢
    rw [ran, ok_bind, ok_bind, show_list_rep ⟨middle, _, _, _, _⟩ _ shorter, ok_bind, turned, ok_bind]
    dsimp only
    rw [follower, ok_bind]
    rfl
  rw [common]
  cases rest with
  | nil =>
      refine ⟨middle, ?_, shorter⟩
      rw [show removeNode _ (firstOf [] none) = .ok _ from rfl, ok_bind, show_page_rep _ [second] 0 shorter rfl]
      simp [paths]
  | cons third others =>
      obtain ⟨dropped, ran, remaining, _, kept, _⟩ := remove_node_rep middle (some second.1) (some second.1) [second]
        others third.1 third.2 shorter (by simp)
      obtain ⟨after, filelist, pagehead, result⟩ := dropped
      have listed := List.nodup_cons.mp shorter.distinct
      have different : third.1 ≠ second.1 := fun same => listed.1 (by simp [same])
      obtain rfl : pagehead = some second.1 := kept.trans (if_neg fun same => different (Option.some.inj same))
      have headed : filelist = some second.1 := remaining.entry
      subst headed
      refine ⟨after, ?_, remaining⟩
      rw [first_of_cons, removeNode]
      dsimp only
      rw [ran, ok_bind, ok_bind, show_page_rep ⟨after, _, _, _, _⟩ ([second] ++ others) 0 remaining rfl]
      simp [paths]

def report (first second : CString) (rest : List CString) : List Printed :=
  [.selected (fileName first), .list (second :: first :: rest), .selected (fileName first),
    .list (first :: second :: rest), .list (second :: rest), windowAt (second :: rest.tail) 0] ++
    shownPages (second :: rest.tail) 0 mainTurns

-- For every playlist file: with fewer than two entries main reads through NULL;
-- with more it prints the report and saves all entries but the first and third.
theorem main_playlist_exact (data disk : List UInt8) :
    mainPlaylist (some ⟨data, false, false⟩) disk allWritten =
      match ((pieces data).map lineOf).rtake maxPlayListLen with
      | first :: second :: rest => .ok (report first second rest, ⟨fileBytes (second :: rest.tail), true⟩)
      | _ => .error .nullDeref := by
  obtain ⟨loaded, read, _, cells, rep, named, _⟩ := load_shows Heap.empty data
  have listed := named_paths cells _ named
  rw [← listed] at named ⊢
  rw [mainPlaylist, read, ok_bind]
  match cells, rep, named with
  | [], rep, _ =>
      rw [first_swap_faults loaded.heap loaded.filelist [] rep (by simp), error_bind]
      rfl
  | [cell], rep, _ =>
      rw [first_swap_faults loaded.heap loaded.filelist [cell] rep (by simp), error_bind]
      rfl
  | first :: second :: rest, rep, named =>
      have shownName : first.2.file = fileName first.2.path := congrArg Song.file (List.cons.inj named).1
      obtain ⟨arranged, swapped, whole⟩ := main_swaps_rep loaded.heap loaded.filelist first second rest rep
      obtain ⟨shortened, dropped, remaining⟩ := main_removals_rep arranged loaded.filelist (some first.1)
        [.selected first.2.file, .list (second.2.path :: first.2.path :: paths rest), .selected first.2.file,
          .list (first.2.path :: second.2.path :: paths rest)] first second rest whole
      obtain ⟨last, turned⟩ := turns_show ⟨shortened, some second.1, some second.1, some first.1,
        [.selected first.2.file, .list (second.2.path :: first.2.path :: paths rest), .selected first.2.file,
          .list (first.2.path :: second.2.path :: paths rest)] ++
            [.list (second.2.path :: paths rest), windowAt (second.2.path :: paths rest.tail) 0]⟩
        (second :: rest.tail) 0 mainTurns remaining rfl (by simp)
      have saved := saveplaylist_rep shortened (some second.1) (second :: rest.tail) disk remaining
      have tails : paths rest.tail = (paths rest).tail := List.map_tail
      rw [swapped, ok_bind, dropped, ok_bind, turned, ok_bind]
      dsimp only
      rw [saved, ok_bind]
      simp only [paths, List.map_cons] at tails ⊢
      simp [report, shownName, tails]

end Slogger.Playlist
