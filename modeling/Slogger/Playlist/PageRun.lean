import Slogger.Playlist.Calls
import Slogger.Playlist.Page

set_option autoImplicit false

namespace Slogger.Playlist

open Slogger.Lib

-- getPage again and again until it answers false, with displayPage after each
-- call; left is how many calls may still be made.
def pageThrough (heap : NodeHeap) (playlist : Pointer) (next : Bool) : Nat → Pointer → Except Fault (List (List CString))
  | 0, _ => .error .loops
  | left + 1, pagehead => do
      let (head, more) ← getPage heap playlist next pagehead
      let window ← displayPage heap head
      if more then do
        let windows ← pageThrough heap playlist next left head
        .ok (window :: windows)
      else .ok [window]

def windowFrom (cells : Cells) (start : Nat) : List CString := ((paths cells).drop start).take pageListLen

def Follows (cells : Cells) (start next : Nat) : Prop :=
  start ≤ next ∧ next ≤ start + (windowFrom cells start).length

def Shown (starts : List Nat) (entry : Nat) : Prop :=
  ∃ start ∈ starts, start ≤ entry ∧ entry < start + pageListLen

theorem window_length (cells : Cells) (start : Nat) :
    (windowFrom cells start).length = min 5 (cells.length - start) := by
  simp [windowFrom, pageListLen, paths]

theorem shown_later (starts : List Nat) (start entry : Nat) (shown : Shown starts entry) :
    Shown (start :: starts) entry := by
  obtain ⟨other, member, covered⟩ := shown
  exact ⟨other, List.mem_cons_of_mem start member, covered⟩

theorem page_through_step (heap : NodeHeap) (filelist : Pointer) (cells : Cells) (next more : Bool)
    (pagehead : Pointer) (left start : Nat) (rep : PlaylistRep heap filelist cells)
    (paged : getPage heap filelist next pagehead = .ok (place cells start, more)) :
    pageThrough heap filelist next (left + 1) pagehead =
      if more then (pageThrough heap filelist next left (place cells start)).map (windowFrom cells start :: ·)
      else .ok [windowFrom cells start] := by
  rw [pageThrough, paged, ok_bind]
  simp only [display_page_place heap filelist cells start rep, ok_bind]
  cases more with
  | false => rfl
  | true =>
      simp only [if_true]
      cases pageThrough heap filelist next left (place cells start) <;> rfl

theorem page_forward_last (heap : NodeHeap) (filelist : Pointer) (cells : Cells) (left position : Nat)
    (rep : PlaylistRep heap filelist cells) (longer : position + 5 < cells.length) (ended : cells.length ≤ position + 10) :
    ∃ starts, pageThrough heap filelist true (left + 1) (place cells position) = .ok (starts.map (windowFrom cells)) ∧
      (position :: starts).IsChain (Follows cells) ∧
      ∀ entry, position + 5 ≤ entry → entry < cells.length → Shown starts entry := by
  have paged := get_page_next heap filelist cells position rep (by omega)
  rw [decide_eq_false (Nat.not_lt_of_le ended)] at paged
  refine ⟨[min (position + 5) (cells.length - 5)], ?_, ?_, ?_⟩
  · rw [page_through_step heap filelist cells true false _ _ _ rep paged]
    rfl
  · refine List.isChain_cons_cons.mpr ⟨?_, List.IsChain.singleton _⟩
    simp only [Follows, window_length]
    omega
  · intro entry past listed
    refine ⟨_, List.mem_singleton_self _, ?_, ?_⟩
    · omega
    · simp only [pageListLen]
      omega

-- Forward from a page that is already shown and not the last one; the distance
-- to the end of the list is what each call makes smaller.
theorem page_forward_from (heap : NodeHeap) (filelist : Pointer) (cells : Cells) (left position : Nat)
    (rep : PlaylistRep heap filelist cells) (longer : position + 5 < cells.length)
    (enough : cells.length ≤ position + 10 + 5 * left) :
    ∃ starts, pageThrough heap filelist true (left + 1) (place cells position) = .ok (starts.map (windowFrom cells)) ∧
      (position :: starts).IsChain (Follows cells) ∧
      ∀ entry, position + 5 ≤ entry → entry < cells.length → Shown starts entry := by
  induction left generalizing position with
  | zero => exact page_forward_last heap filelist cells 0 position rep longer enough
  | succ left ih =>
      by_cases farther : position + 10 < cells.length
      · have paged := get_page_next heap filelist cells position rep (by omega)
        have forward : min (position + 5) (cells.length - 5) = position + 5 := by omega
        rw [decide_eq_true farther, forward] at paged
        obtain ⟨starts, completed, chain, shown⟩ := ih (position + 5) (by omega) (by omega)
        refine ⟨(position + 5) :: starts, ?_, ?_, ?_⟩
        · rw [page_through_step heap filelist cells true true _ _ _ rep paged, completed]
          rfl
        · apply List.isChain_cons_cons.mpr
          have follows : Follows cells position (position + 5) := by
            simp only [Follows, window_length]
            omega
          exact ⟨follows, chain⟩
        · intro entry past listed
          by_cases here : entry < position + 10
          · exact ⟨position + 5, List.mem_cons_self, past, here⟩
          · exact shown_later starts _ entry (shown entry (by omega) listed)
      · exact page_forward_last heap filelist cells (left + 1) position rep longer (Nat.le_of_not_lt farther)

theorem page_forward (heap : NodeHeap) (filelist : Pointer) (cells : Cells) (rep : PlaylistRep heap filelist cells) :
    ∃ starts, pageThrough heap filelist true (max 1 ((cells.length + 4) / 5)) none = .ok (starts.map (windowFrom cells)) ∧
      starts.head? = some 0 ∧ starts.IsChain (Follows cells) ∧ ∀ entry < cells.length, Shown starts entry := by
  have paged := get_page_next_null heap filelist cells rep
  by_cases several : 5 < cells.length
  · obtain ⟨left, calls⟩ : ∃ left, max 1 ((cells.length + 4) / 5) = left + 1 + 1 :=
      ⟨max 1 ((cells.length + 4) / 5) - 2, by omega⟩
    obtain ⟨starts, completed, chain, shown⟩ :=
      page_forward_from heap filelist cells left 0 rep (by omega) (by omega)
    rw [decide_eq_true several] at paged
    refine ⟨0 :: starts, ?_, rfl, chain, ?_⟩
    · rw [calls, page_through_step heap filelist cells true true _ _ _ rep paged, completed]
      rfl
    · intro entry listed
      by_cases first : entry < 5
      · exact ⟨0, List.mem_cons_self, Nat.zero_le _, by simpa [pageListLen] using first⟩
      · exact shown_later starts 0 entry (shown entry (by omega) listed)
  · have calls : max 1 ((cells.length + 4) / 5) = 0 + 1 := by omega
    rw [decide_eq_false several] at paged
    refine ⟨[0], ?_, rfl, List.IsChain.singleton 0, ?_⟩
    · rw [calls, page_through_step heap filelist cells true false _ _ _ rep paged]
      rfl
    · intro entry listed
      refine ⟨0, List.mem_cons_self, Nat.zero_le _, ?_⟩
      simp only [pageListLen]
      omega

theorem page_backward (heap : NodeHeap) (filelist : Pointer) (cells : Cells) (left position : Nat)
    (rep : PlaylistRep heap filelist cells) (inside : position < cells.length) (steps : position / 5 = left) :
    ∃ starts, pageThrough heap filelist false (left + 1) (place cells position) = .ok (starts.map (windowFrom cells)) ∧
      ∀ entry < position, Shown starts entry := by
  have paged := get_page_prev heap filelist cells position rep inside
  induction left generalizing position with
  | zero =>
      have near : ¬ 5 ≤ position := by omega
      rw [decide_eq_false near] at paged
      refine ⟨[position - 5], ?_, ?_⟩
      · rw [page_through_step heap filelist cells false false _ _ _ rep paged]
        rfl
      · intro entry before
        refine ⟨position - 5, List.mem_cons_self, ?_, ?_⟩
        · omega
        · simp only [pageListLen]
          omega
  | succ left ih =>
      have far : 5 ≤ position := by omega
      rw [decide_eq_true far] at paged
      have earlier : position - 5 < cells.length := by omega
      obtain ⟨starts, completed, shown⟩ :=
        ih (position - 5) earlier (by omega) (get_page_prev heap filelist cells (position - 5) rep earlier)
      refine ⟨(position - 5) :: starts, ?_, ?_⟩
      · rw [page_through_step heap filelist cells false true _ _ _ rep paged, completed]
        rfl
      · intro entry before
        by_cases here : position - 5 ≤ entry
        · refine ⟨position - 5, List.mem_cons_self, here, ?_⟩
          simp only [pageListLen]
          omega
        · exact shown_later starts _ entry (shown entry (Nat.lt_of_not_le here))

theorem paging_shows_every_entry (heap : NodeHeap) (filelist : Pointer) (cells : Cells)
    (rep : PlaylistRep heap filelist cells) :
    (∃ starts, pageThrough heap filelist true (max 1 ((cells.length + 4) / 5)) none = .ok (starts.map (windowFrom cells)) ∧
      starts.head? = some 0 ∧ starts.IsChain (Follows cells) ∧ ∀ entry < cells.length, Shown starts entry) ∧
    ∀ position < cells.length, ∃ starts,
      pageThrough heap filelist false (position / 5 + 1) (place cells position) = .ok (starts.map (windowFrom cells)) ∧
      ∀ entry < min (position + pageListLen) cells.length, Shown (position :: starts) entry := by
  refine ⟨page_forward heap filelist cells rep, ?_⟩
  intro position inside
  obtain ⟨starts, completed, shown⟩ := page_backward heap filelist cells _ position rep inside rfl
  refine ⟨starts, completed, ?_⟩
  intro entry listed
  by_cases before : entry < position
  · exact shown_later starts position entry (shown entry before)
  · exact ⟨position, List.mem_cons_self, Nat.le_of_not_lt before, by omega⟩

theorem paging_shows_seven :
    (∃ starts, pageThrough (builtList (List.replicate 7 ⟨[97], by decide⟩)).heap (some 0) true 2 none =
      .ok (starts.map (windowFrom (builtCells (List.replicate 7 ⟨[97], by decide⟩)))) ∧
      ∀ entry < 7, Shown starts entry) ∧
    ∃ starts, pageThrough (builtList (List.replicate 7 ⟨[97], by decide⟩)).heap (some 0) false 2 (some 6) =
      .ok (starts.map (windowFrom (builtCells (List.replicate 7 ⟨[97], by decide⟩)))) ∧
      ∀ entry < 7, Shown (6 :: starts) entry := by
  have paged := paging_shows_every_entry (builtList (List.replicate 7 ⟨[97], by decide⟩)).heap (some 0)
    (builtCells (List.replicate 7 ⟨[97], by decide⟩)) (by decide +kernel)
  obtain ⟨starts, forward, _, _, shown⟩ := paged.1
  obtain ⟨earlier, backward, before⟩ := paged.2 6 (by decide +kernel)
  exact ⟨⟨starts, forward, shown⟩, earlier, backward, before⟩

end Slogger.Playlist
