import Slogger.Playlist.Calls
import Slogger.Playlist.Page

set_option autoImplicit false

namespace Slogger.Playlist

open Slogger.Lib

def pointerAt (cells : Cells) (start : Option Nat) : Pointer := start.bind (place cells)

def Inside (cells : Cells) (start : Option Nat) : Prop := ∀ position, start = some position → position < cells.length

-- Where one call takes the page head in a list of this length.
def movedPage (length : Nat) (next : Bool) : Option Nat → Nat
  | none => 0
  | some position => if next then min (position + pageListLen) (length - pageListLen) else position - pageListLen

-- What the call answers, in terms of where it leads.
def answersMore (length : Nat) (next : Bool) (start : Option Nat) : Bool :=
  if next then decide (movedPage length next start + pageListLen < length)
  else start.any fun position => pageListLen ≤ position

theorem moved_page_inside (cells : Cells) (next : Bool) (start : Option Nat) (inside : Inside cells start)
    (nonempty : cells ≠ []) : movedPage cells.length next start < cells.length := by
  have positive := List.length_pos_of_ne_nil nonempty
  cases start with
  | none => exact positive
  | some position =>
      have below := inside position rfl
      cases next <;> simp only [movedPage, pageListLen] <;> grind

theorem get_page_closed (heap : NodeHeap) (filelist : Pointer) (cells : Cells) (next : Bool) (start : Option Nat)
    (rep : PlaylistRep heap filelist cells) (inside : Inside cells start) :
    getPage heap filelist next (pointerAt cells start) =
      .ok (place cells (movedPage cells.length next start), answersMore cells.length next start) := by
  cases start with
  | none =>
      cases next with
      | true =>
          rw [pointerAt, Option.bind_none, get_page_next_null heap filelist cells rep]
          simp [movedPage, answersMore, pageListLen]
      | false => exact get_page_prev_null heap filelist cells rep
  | some position =>
      have below := inside position rfl
      cases next with
      | true =>
          have ahead : position + 10 < cells.length ↔
              min (position + 5) (cells.length - 5) + 5 < cells.length := by omega
          rw [pointerAt, Option.bind_some, get_page_next heap filelist cells position rep below]
          simp only [movedPage, answersMore, pageListLen, if_true, ahead]
      | false => exact get_page_prev heap filelist cells position rep below

theorem full_window (heap : NodeHeap) (filelist : Pointer) (cells : Cells) (position : Nat)
    (rep : PlaylistRep heap filelist cells) (fits : position + pageListLen ≤ cells.length) :
    ∃ window, displayPage heap (place cells position) = .ok window ∧ window.length = pageListLen := by
  refine ⟨_, display_page_place heap filelist cells position rep, ?_⟩
  have enough : pageListLen ≤ ((paths cells).drop position).length := by
    rw [List.length_drop, paths, List.length_map]
    omega
  exact List.length_take_of_le enough

theorem moved_page_fits (cells : Cells) (next : Bool) (start : Option Nat) (inside : Inside cells start)
    (long : pageListLen ≤ cells.length) : movedPage cells.length next start + pageListLen ≤ cells.length := by
  cases start with
  | none => simpa [movedPage] using long
  | some position =>
      have below := inside position rfl
      simp only [pageListLen] at long
      cases next <;> simp only [movedPage, pageListLen] <;> grind

theorem next_then_prev (heap : NodeHeap) (filelist head : Pointer) (cells : Cells) (position : Nat)
    (rep : PlaylistRep heap filelist cells) (below : position < cells.length)
    (paged : getPage heap filelist true (place cells position) = .ok (head, true)) :
    ∃ more, getPage heap filelist false head = .ok (place cells position, more) := by
  rw [get_page_next heap filelist cells position rep below, Except.ok.injEq, Prod.mk.injEq] at paged
  obtain ⟨rfl, ahead⟩ := paged
  have longer : position + 10 < cells.length := of_decide_eq_true ahead
  rw [Nat.min_eq_left (by omega)]
  have back := get_page_prev heap filelist cells (position + 5) rep (by omega)
  rw [Nat.add_sub_cancel] at back
  exact ⟨_, back⟩

theorem get_page_moves (heap : NodeHeap) (filelist : Pointer) (cells : Cells) (rep : PlaylistRep heap filelist cells) :
    (∀ next start, Inside cells start →
      getPage heap filelist next (pointerAt cells start) =
        .ok (place cells (movedPage cells.length next start), answersMore cells.length next start) ∧
      (cells ≠ [] → movedPage cells.length next start < cells.length) ∧
      (pageListLen ≤ cells.length →
        ∃ window, displayPage heap (place cells (movedPage cells.length next start)) = .ok window ∧
          window.length = pageListLen)) ∧
    (cells = [] → ∀ next, getPage heap filelist next none = .ok (none, false)) ∧
    (∀ position head, position < cells.length → getPage heap filelist true (place cells position) = .ok (head, true) →
      ∃ more, getPage heap filelist false head = .ok (place cells position, more)) := by
  refine ⟨?_, ?_, ?_⟩
  · intro next start inside
    refine ⟨get_page_closed heap filelist cells next start rep inside, moved_page_inside cells next start inside, ?_⟩
    intro long
    exact full_window heap filelist cells _ rep (moved_page_fits cells next start inside long)
  · rintro rfl next
    have closed := get_page_closed heap filelist [] next none rep (by simp [Inside])
    cases next <;> exact closed
  · intro position head below paged
    exact next_then_prev heap filelist head cells position rep below paged

def alike (count : Nat) : List CString := List.replicate count (cString [97])

theorem get_page_moves_seven :
    getPage (builtList (alike 7)).heap (some 0) true (some 0) = .ok (some 2, false) := by
  have moved := get_page_moves (builtList (alike 7)).heap (some 0)
    (builtCells (alike 7)) (by decide +kernel)
  exact (moved.1 true (some 0) (by simp [Inside, builtCells, alike])).1

def Further (cells : Cells) (next : Bool) (head : Pointer) : Prop :=
  ∃ position entry, position < cells.length ∧ place cells position = head ∧ entry < cells.length ∧
    if next then position + pageListLen ≤ entry else entry < position

def TellsMore (heap : NodeHeap) (filelist : Pointer) (cells : Cells) (next : Bool) (pagehead : Pointer) : Prop :=
  ∃ head more, getPage heap filelist next pagehead = .ok (head, more) ∧ (more = true ↔ Further cells next head)

theorem place_injective (cells : Cells) (position other : Nat) (distinct : (addresses cells).Nodup)
    (below : position < cells.length) (same : place cells other = place cells position) : other = position := by
  have mapped : ∀ index, place cells index = (addresses cells)[index]? := by
    intro index
    rw [place, addresses, List.getElem?_map]
  have within : position < (addresses cells).length := by simpa [addresses] using below
  rw [mapped, mapped] at same
  exact ((List.getElem?_inj within distinct).mp same.symm).symm

theorem further_place (cells : Cells) (next : Bool) (position : Nat) (distinct : (addresses cells).Nodup)
    (below : position < cells.length) :
    Further cells next (place cells position) ↔
      if next then position + pageListLen < cells.length else 0 < position := by
  constructor
  · rintro ⟨other, entry, _, same, listed, beyond⟩
    obtain rfl := place_injective cells position other distinct below same
    cases next with
    | true => exact Nat.lt_of_le_of_lt beyond listed
    | false => exact Nat.lt_of_le_of_lt (Nat.zero_le entry) beyond
  · intro room
    cases next with
    | true => exact ⟨position, position + pageListLen, below, rfl, room, Nat.le_refl _⟩
    | false => exact ⟨position, 0, below, rfl, Nat.lt_of_le_of_lt (Nat.zero_le position) below, room⟩

theorem further_empty (next : Bool) (head : Pointer) : ¬ Further [] next head := by
  rintro ⟨position, _, below, _⟩
  cases below

theorem tells_more_closed (heap : NodeHeap) (filelist : Pointer) (cells : Cells) (next : Bool) (start : Option Nat)
    (rep : PlaylistRep heap filelist cells) (inside : Inside cells start) :
    TellsMore heap filelist cells next (pointerAt cells start) ↔
      (answersMore cells.length next start = true ↔ Further cells next (place cells (movedPage cells.length next start))) := by
  have paged := get_page_closed heap filelist cells next start rep inside
  constructor
  · rintro ⟨head, more, ran, same⟩
    rw [paged, Except.ok.injEq, Prod.mk.injEq] at ran
    obtain ⟨rfl, rfl⟩ := ran
    exact same
  · exact fun same => ⟨_, _, paged, same⟩

-- Going back from position 5 leads to the first page, and the answer is still
-- that there is more.
theorem page_answer_exact (heap : NodeHeap) (filelist : Pointer) (cells : Cells) (next : Bool) (start : Option Nat)
    (rep : PlaylistRep heap filelist cells) (inside : Inside cells start) :
    TellsMore heap filelist cells next (pointerAt cells start) ↔ ¬ (next = false ∧ start = some pageListLen) := by
  rw [tells_more_closed heap filelist cells next start rep inside]
  by_cases empty : cells = []
  · subst empty
    cases start with
    | none => cases next <;> simp [answersMore, movedPage, further_empty]
    | some position => cases inside position rfl
  · rw [further_place cells next _ rep.distinct (moved_page_inside cells next start inside empty)]
    cases next with
    | true => simp [answersMore]
    | false =>
        cases start with
        | none => simp [answersMore, movedPage]
        | some position =>
            have boundary : (pageListLen ≤ position ↔ 0 < position - pageListLen) ↔ ¬ position = pageListLen := by omega
            simpa [answersMore, movedPage] using boundary

theorem page_answer_seven :
    TellsMore (builtList (alike 7)).heap (some 0)
      (builtCells (alike 7)) false (some 6) := by
  have answers := page_answer_exact (builtList (alike 7)).heap (some 0)
    (builtCells (alike 7)) false (some 6) (by decide +kernel) (by simp [Inside, builtCells, alike])
  exact answers.mpr (by simp [pageListLen])

-- The page head at position 5 is where two calls of getPage lead in a list of
-- ten.
theorem first_page_said_to_have_more :
    getPage (builtList (alike 10)).heap (some 0) true none = .ok (some 0, true) ∧
      getPage (builtList (alike 10)).heap (some 0) true (some 0) = .ok (some 5, false) ∧
      PlaylistRep (builtList (alike 10)).heap (some 0)
        (builtCells (alike 10)) ∧
      ¬ TellsMore (builtList (alike 10)).heap (some 0)
        (builtCells (alike 10)) false (some 5) := by
  refine ⟨by decide +kernel, by decide +kernel, by decide +kernel, ?_⟩
  rintro ⟨head, more, ran, same⟩
  have back : getPage (builtList (alike 10)).heap (some 0) false (some 5) =
      .ok (some 0, true) := by decide +kernel
  rw [back, Except.ok.injEq, Prod.mk.injEq] at ran
  obtain ⟨rfl, rfl⟩ := ran
  have further := (further_place (builtCells (alike 10)) false 0 (by decide +kernel)
    (by decide)).mp (same.mp rfl)
  exact Nat.lt_irrefl 0 further

end Slogger.Playlist
