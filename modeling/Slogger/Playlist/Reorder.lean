import Slogger.Lib.Adjacent
import Slogger.Playlist.Calls

set_option autoImplicit false

namespace Slogger.Playlist

open Slogger.Lib

def isSwap : Call → Bool
  | .swap _ _ _ | .swapNode _ _ _ => true
  | _ => false

theorem swap_entries_perm {Entry : Type} (entries : List Entry) (position : Nat) (next : Bool) :
    (swapEntries entries position next).Perm entries := by
  rw [swapEntries]
  split
  · exact swap_adjacent_perm entries position
  · split
    · exact List.Perm.refl entries
    · exact swap_adjacent_perm entries (position - 1)

theorem swap_call_perm (entries : List CString) (call : Call) (kind : isSwap call = true) :
    (applyCall entries call).Perm entries := by
  cases call with
  | swap path next selnode =>
      rw [applyCall]
      split
      · exact swap_entries_perm entries _ next
      · exact List.Perm.refl entries
  | swapNode position next selnode => exact swap_entries_perm entries position next
  | _ => cases kind

theorem swap_calls_perm (entries : List CString) (calls : List Call) (swaps : ∀ call ∈ calls, isSwap call = true) :
    (calls.foldl applyCall entries).Perm entries := by
  induction calls generalizing entries with
  | nil => exact List.Perm.refl entries
  | cons call rest ih =>
      have later := ih (applyCall entries call) (fun other member => swaps other (List.mem_cons_of_mem call member))
      exact later.trans (swap_call_perm entries call (swaps call List.mem_cons_self))

def exchangeCall (position : Nat) : Call := .swapNode position true none

theorem exchange_call_ran (state : ListState) (entries : List CString) (position : Nat) (shown : Shows state entries)
    (inside : position + 1 < entries.length) :
    ∃ next, execCall state (exchangeCall position) = .ok next ∧ Shows next (swapAdjacent entries position) := by
  obtain ⟨cells, rep, named, within⟩ := shown
  have here : position < cells.length := by
    rw [shows_length cells entries named]
    omega
  have found := node_at_rep state.heap state.filelist cells position rep
  obtain ⟨left, cell, right, rfl, rfl⟩ := split_at cells position here
  obtain ⟨swapped, ran, after⟩ := swap_node_conforms state entries left right cell true none rep named within
  refine ⟨_, ?_, after⟩
  simp only [exchangeCall, execCall, found, place_middle, ran, ok_bind]

theorem exchange_calls_ran (state : ListState) (entries : List CString) (positions : List Nat)
    (shown : Shows state entries) (inside : ∀ position ∈ positions, position + 1 < entries.length) :
    ∃ final, runCalls (positions.map exchangeCall) state = .ok final ∧
      Shows final (positions.foldl swapAdjacent entries) := by
  induction positions generalizing state entries with
  | nil => exact ⟨state, rfl, shown⟩
  | cons position rest ih =>
      obtain ⟨next, ran, after⟩ :=
        exchange_call_ran state entries position shown (inside position List.mem_cons_self)
      have later : ∀ other ∈ rest, other + 1 < (swapAdjacent entries position).length := by
        intro other member
        rw [swap_adjacent_length]
        exact inside other (List.mem_cons_of_mem position member)
      obtain ⟨final, finished, reached⟩ := ih next _ after later
      refine ⟨final, ?_, reached⟩
      rw [List.map_cons, runCalls, List.foldlM_cons, ran, ok_bind]
      exact finished

-- What the swap calls can do to a playlist: every order of its entries, each
-- within a call for every pair of them, and nothing else.
theorem swaps_reach_every_order (state : ListState) (entries : List CString) (shown : Shows state entries) :
    (∀ calls final, (∀ call ∈ calls, isSwap call = true) → runCalls calls state = .ok final →
      ∃ target, Shows final target ∧ target.Perm entries) ∧
    ∀ target, target.Perm entries → ∃ calls final, (∀ call ∈ calls, isSwap call = true) ∧
      calls.length ≤ entries.length.choose 2 ∧ runCalls calls state = .ok final ∧ Shows final target := by
  constructor
  · intro calls final swaps ran
    have conform := calls_conform calls state entries shown
    rw [ran] at conform
    exact ⟨_, conform, swap_calls_perm entries calls swaps⟩
  · intro target perm
    obtain ⟨positions, few, inside, reached⟩ := exchanges_reach entries target perm.symm
    obtain ⟨final, ran, after⟩ := exchange_calls_ran state entries positions shown inside
    refine ⟨positions.map exchangeCall, final, ?_, ?_, ran, reached ▸ after⟩
    · intro call member
      obtain ⟨position, _, rfl⟩ := List.mem_map.mp member
      rfl
    · rw [List.length_map]
      exact few

theorem two_songs_reversed : ∃ calls final, (∀ call ∈ calls, isSwap call = true) ∧ calls.length ≤ 1 ∧
    runCalls calls (builtList twoSongs) = .ok final ∧ Shows final twoSongs.reverse := by
  have shown : Shows (builtList twoSongs) twoSongs := ⟨builtCells twoSongs, two_songs_rep, by decide +kernel, by decide⟩
  exact (swaps_reach_every_order (builtList twoSongs) twoSongs shown).2 twoSongs.reverse (List.reverse_perm twoSongs)

end Slogger.Playlist
