import Slogger.Playlist.Node

set_option autoImplicit false

namespace Slogger.Playlist

open Slogger.Lib

-- Both counting loops of getPage: follow one link until the list ends or the
-- counter has reached PageListLen, which stops on the node it stands on. left
-- is what the counter still lacks; prev is the node the walk came from.
def countedWalk (heap : NodeHeap) (next : Bool) : Nat → Pointer → Pointer → Nat → Except Fault (Pointer × Pointer × Nat)
  | _, none, prev, count => .ok (none, prev, count)
  | 0, some address, prev, count => .ok (some address, prev, count)
  | left + 1, some address, _, count => do
      let list ← heap.deref (some address)
      countedWalk heap next left (if next then list.next else list.prv) (some address) (count + 1)

-- for(int i=0; i < PageListLen - nCount; ++i): back through prv while it can.
def stepBack (heap : NodeHeap) : Nat → Pointer → Except Fault Pointer
  | 0, prev => .ok prev
  | left + 1, prev => do
      let node ← heap.deref prev
      match node.prv with
      | some _ => stepBack heap left node.prv
      | none => .ok prev

-- The page getPage starts from: list is where its walk begins, head the page
-- head it would store; they are one node.
def pageStart (heap : NodeHeap) (playlist : Pointer) (next : Bool) (pagehead : Pointer) : Except Fault Pointer :=
  match pagehead with
  | none => .ok playlist
  | some _ =>
      if next then do
        let (list, _, _) ← countedWalk heap true pageListLen pagehead none 0
        match list with
        | some _ => .ok list
        | none => .ok pagehead
      else .ok pagehead

def getPage (heap : NodeHeap) (playlist : Pointer) (next : Bool) (pagehead : Pointer) :
    Except Fault (Pointer × Bool) := do
  let head ← pageStart heap playlist next pagehead
  let (list, prev, nCount) ← countedWalk heap next pageListLen head none 0
  match list with
  | some _ => .ok (if next then head else list, true)
  | none =>
      let prev := if next then head else prev
      match prev with
      | some _ => do
          let prev ← stepBack heap (pageListLen - nCount) prev
          .ok (prev, false)
      | none => .ok (pagehead, false)

def displayWalk (heap : NodeHeap) : Nat → Pointer → Except Fault (List CString)
  | 0, _ => .ok []
  | _ + 1, none => .ok []
  | left + 1, some address => do
      let list ← heap.deref (some address)
      let rest ← displayWalk heap left list.next
      .ok (list.path :: rest)

def displayPage (heap : NodeHeap) (list : Pointer) : Except Fault (List CString) :=
  displayWalk heap pageListLen list

theorem last_of_take (cells : Cells) (position : Nat) (inside : position < cells.length) :
    lastOf none (cells.take (position + 1)) = place cells position := by
  rw [last_of_getElem, List.getLast?_take]
  simp [place, inside]

theorem play_deref_place (heap : NodeHeap) (filelist : Pointer) (cells : Cells) (position : Nat)
    (rep : PlaylistRep heap filelist cells) (inside : position < cells.length) :
    ∃ node, heap.deref (place cells position) = .ok node ∧ node.path = cells[position].2.path ∧
      node.next = place cells (position + 1) ∧
      node.prv = (if position = 0 then none else place cells (position - 1)) := by
  have split : cells = cells.take position ++ (cells[position].1, cells[position].2) :: cells.drop (position + 1) := by
    change cells = cells.take position ++ cells[position] :: cells.drop (position + 1)
    rw [List.getElem_cons_drop inside, List.take_append_drop]
  have here : place cells position = some cells[position].1 := by
    simp [place, inside]
  have read := play_deref heap none none (cells.take position) (cells.drop (position + 1))
    cells[position].1 cells[position].2 (split ▸ rep.segment)
  refine ⟨_, here ▸ read, rfl, ?_, ?_⟩
  · simp [place_first, place, List.getElem?_drop]
  · cases position with
    | zero => rfl
    | succ position => exact last_of_take cells position (Nat.lt_of_succ_lt inside)

theorem counted_walk_next (heap : NodeHeap) (filelist : Pointer) (cells : Cells) (left position : Nat)
    (prev : Pointer) (count : Nat) (rep : PlaylistRep heap filelist cells) :
    ∃ last, countedWalk heap true left (place cells position) prev count =
      .ok (place cells (position + left), last, count + min left (cells.length - position)) := by
  induction left generalizing position prev count with
  | zero =>
      refine ⟨prev, ?_⟩
      cases place cells position <;> simp [countedWalk]
  | succ left ih =>
      by_cases inside : position < cells.length
      · obtain ⟨node, read, _, follows, _⟩ := play_deref_place heap filelist cells position rep inside
        obtain ⟨address, here⟩ := place_inside cells position inside
        obtain ⟨last, walked⟩ := ih (position + 1) (some address) (count + 1)
        refine ⟨last, ?_⟩
        rw [here] at read ⊢
        simp only [countedWalk, read, ok_bind, if_true, follows, walked, Except.ok.injEq, Prod.mk.injEq, true_and]
        exact ⟨by rw [Nat.add_right_comm, Nat.add_assoc], by omega⟩
      · have outside : cells.length ≤ position := Nat.le_of_not_lt inside
        have farther : cells.length ≤ position + (left + 1) := Nat.le_add_right_of_le outside
        refine ⟨prev, ?_⟩
        rw [place_outside cells position outside, place_outside cells _ farther, Nat.sub_eq_zero_of_le outside]
        simp [countedWalk]

theorem counted_walk_prv (heap : NodeHeap) (filelist : Pointer) (cells : Cells) (left position : Nat)
    (prev : Pointer) (count : Nat) (rep : PlaylistRep heap filelist cells) (inside : position < cells.length) :
    ∃ last, countedWalk heap false left (place cells position) prev count =
      (if left ≤ position then .ok (place cells (position - left), last, count + left)
       else .ok (none, place cells 0, count + position + 1)) := by
  induction left generalizing position prev count with
  | zero =>
      refine ⟨prev, ?_⟩
      cases place cells position <;> simp [countedWalk]
  | succ left ih =>
      obtain ⟨node, read, _, _, precedes⟩ := play_deref_place heap filelist cells position rep inside
      obtain ⟨address, here⟩ := place_inside cells position inside
      cases position with
      | zero =>
          refine ⟨none, ?_⟩
          rw [here] at read ⊢
          simp only [countedWalk, read, ok_bind, Bool.false_eq_true, if_false, precedes, if_true]
          cases left <;> simp
      | succ position =>
          obtain ⟨last, walked⟩ := ih position (some address) (count + 1) (Nat.lt_of_succ_lt inside)
          refine ⟨last, ?_⟩
          rw [here] at read ⊢
          simp only [countedWalk, read, ok_bind, Bool.false_eq_true, if_false, precedes, Nat.add_one_ne_zero,
            Nat.add_sub_cancel, walked, Nat.add_le_add_iff_right, Nat.add_sub_add_right]
          split
          · rw [Nat.add_assoc, Nat.add_comm 1]
          · rw [Nat.add_right_comm count 1 position, Nat.add_assoc count]

theorem step_back_place (heap : NodeHeap) (filelist : Pointer) (cells : Cells) (left position : Nat)
    (rep : PlaylistRep heap filelist cells) (inside : position < cells.length) :
    stepBack heap left (place cells position) = .ok (place cells (position - left)) := by
  induction left generalizing position with
  | zero => rfl
  | succ left ih =>
      obtain ⟨node, read, _, _, precedes⟩ := play_deref_place heap filelist cells position rep inside
      rw [stepBack, read, ok_bind, precedes]
      cases position with
      | zero => simp
      | succ position =>
          obtain ⟨address, before⟩ := place_inside cells position (Nat.lt_of_succ_lt inside)
          simp only [Nat.add_one_ne_zero, if_false, Nat.add_sub_cancel, before]
          rw [← before, ih position (Nat.lt_of_succ_lt inside), Nat.add_sub_add_right]

theorem page_start_next (heap : NodeHeap) (filelist : Pointer) (cells : Cells) (position : Nat)
    (rep : PlaylistRep heap filelist cells) (inside : position < cells.length) :
    pageStart heap filelist true (place cells position) =
      .ok (place cells (if position + 5 < cells.length then position + 5 else position)) := by
  obtain ⟨address, here⟩ := place_inside cells position inside
  obtain ⟨last, walked⟩ := counted_walk_next heap filelist cells 5 position none 0 rep
  rw [here] at walked ⊢
  simp only [pageStart, if_true, pageListLen, walked, ok_bind]
  by_cases farther : position + 5 < cells.length
  · obtain ⟨target, there⟩ := place_inside cells (position + 5) farther
    simp only [there, if_pos farther]
  · rw [place_outside cells (position + 5) (Nat.le_of_not_lt farther), if_neg farther, here]

theorem get_page_from (heap : NodeHeap) (filelist pagehead : Pointer) (cells : Cells) (position : Nat)
    (rep : PlaylistRep heap filelist cells) (inside : position < cells.length)
    (started : pageStart heap filelist true pagehead = .ok (place cells position)) :
    getPage heap filelist true pagehead =
      .ok (place cells (min position (cells.length - 5)), decide (position + 5 < cells.length)) := by
  obtain ⟨address, here⟩ := place_inside cells position inside
  obtain ⟨last, walked⟩ := counted_walk_next heap filelist cells 5 position none 0 rep
  simp only [getPage, started, ok_bind, pageListLen, walked, if_true]
  by_cases farther : position + 5 < cells.length
  · obtain ⟨target, there⟩ := place_inside cells (position + 5) farther
    simp only [there, farther, decide_true]
    rw [Nat.min_eq_left (by omega)]
  · have outside := place_outside cells (position + 5) (Nat.le_of_not_lt farther)
    have back := step_back_place heap filelist cells (5 - (0 + min 5 (cells.length - position))) position rep inside
    rw [here] at back
    simp only [outside, here, back, ok_bind, farther, decide_false]
    rw [show position - (5 - (0 + min 5 (cells.length - position))) = min position (cells.length - 5) by omega]

theorem get_page_next (heap : NodeHeap) (filelist : Pointer) (cells : Cells) (position : Nat)
    (rep : PlaylistRep heap filelist cells) (inside : position < cells.length) :
    getPage heap filelist true (place cells position) =
      .ok (place cells (min (position + 5) (cells.length - 5)), decide (position + 10 < cells.length)) := by
  have started := page_start_next heap filelist cells position rep inside
  split at started
  · rename_i farther
    rw [get_page_from heap filelist _ cells (position + 5) rep farther started, Nat.add_assoc]
  · rename_i ended
    rw [get_page_from heap filelist _ cells position rep inside started]
    have same : min position (cells.length - 5) = min (position + 5) (cells.length - 5) := by omega
    have neither : decide (position + 5 < cells.length) = decide (position + 10 < cells.length) := by
      rw [decide_eq_decide]
      omega
    rw [same, neither]

theorem get_page_next_null (heap : NodeHeap) (filelist : Pointer) (cells : Cells)
    (rep : PlaylistRep heap filelist cells) :
    getPage heap filelist true none = .ok (place cells 0, decide (5 < cells.length)) := by
  have started : pageStart heap filelist true none = .ok (place cells 0) := by
    rw [pageStart, rep.entry, place_first]
  by_cases empty : cells = []
  · subst empty
    rw [getPage, started]
    rfl
  · have inside : 0 < cells.length := List.length_pos_of_ne_nil empty
    rw [get_page_from heap filelist none cells 0 rep inside started, Nat.zero_min, Nat.zero_add]

theorem get_page_prev (heap : NodeHeap) (filelist : Pointer) (cells : Cells) (position : Nat)
    (rep : PlaylistRep heap filelist cells) (inside : position < cells.length) :
    getPage heap filelist false (place cells position) =
      .ok (place cells (position - 5), decide (5 ≤ position)) := by
  obtain ⟨address, here⟩ := place_inside cells position inside
  obtain ⟨last, walked⟩ := counted_walk_prv heap filelist cells 5 position none 0 rep inside
  have started : pageStart heap filelist false (place cells position) = .ok (place cells position) := by
    rw [here]
    rfl
  simp only [getPage, started, ok_bind, pageListLen, walked]
  by_cases far : 5 ≤ position
  · obtain ⟨target, there⟩ := place_inside cells (position - 5) (by omega)
    simp [far, there]
  · have first : 0 < cells.length := by omega
    obtain ⟨head, atHead⟩ := place_inside cells 0 first
    have back := step_back_place heap filelist cells (5 - (0 + position + 1)) 0 rep first
    rw [atHead] at back
    simp only [ok_bind, Bool.false_eq_true, if_false, atHead, back, far, decide_false]
    rw [Nat.zero_sub, atHead, Nat.sub_eq_zero_of_le (by omega), atHead]

theorem get_page_prev_null (heap : NodeHeap) (filelist : Pointer) (cells : Cells)
    (rep : PlaylistRep heap filelist cells) :
    getPage heap filelist false none = .ok (place cells 0, false) := by
  by_cases empty : cells = []
  · subst empty
    rw [rep.entry]
    rfl
  · have inside : 0 < cells.length := List.length_pos_of_ne_nil empty
    obtain ⟨address, here⟩ := place_inside cells 0 inside
    have fromFirst := get_page_prev heap filelist cells 0 rep inside
    have started : pageStart heap filelist false none = pageStart heap filelist false (place cells 0) := by
      rw [pageStart, rep.entry, place_first, here]
      rfl
    have same : getPage heap filelist false none = getPage heap filelist false (place cells 0) := by
      obtain ⟨last, walked⟩ := counted_walk_prv heap filelist cells 5 0 none 0 rep inside
      have back := step_back_place heap filelist cells 4 0 rep inside
      have kept : pageStart heap filelist false (place cells 0) = .ok (place cells 0) := by
        rw [here]
        rfl
      simp only [getPage, started, kept, ok_bind, pageListLen, walked]
      rw [here] at back ⊢
      simp [back]
    rw [same, fromFirst]
    rfl

theorem display_page_place (heap : NodeHeap) (filelist : Pointer) (cells : Cells) (position : Nat)
    (rep : PlaylistRep heap filelist cells) :
    displayPage heap (place cells position) = .ok (((paths cells).drop position).take pageListLen) := by
  rw [displayPage]
  generalize pageListLen = left
  induction left generalizing position with
  | zero => simp [displayWalk]
  | succ left ih =>
      by_cases inside : position < cells.length
      · obtain ⟨node, read, path, follows, _⟩ := play_deref_place heap filelist cells position rep inside
        obtain ⟨address, here⟩ := place_inside cells position inside
        have within : position < (paths cells).length := by simpa [paths] using inside
        rw [here] at read ⊢
        rw [displayWalk, read, ok_bind, follows, ih (position + 1), ok_bind, path,
          ← List.getElem_cons_drop within, List.take_succ_cons]
        simp [paths]
      · have outside : cells.length ≤ position := Nat.le_of_not_lt inside
        have beyond : (paths cells).length ≤ position := by simpa [paths] using outside
        rw [place_outside cells position outside, displayWalk, List.drop_eq_nil_of_le beyond, List.take_nil]

end Slogger.Playlist
