import Slogger.Playlist.Calls

set_option autoImplicit false

namespace Slogger.Playlist

open Slogger.Lib

-- The two insertion routines on the same paths, each from the empty list: no
-- fault, the newest sixteen with the newest first, and the reverse of each
-- other.
def FrontMirrors (added : List CString) : Prop :=
  ∃ front last, runCalls (added.map .addFront) emptyList = .ok front ∧
    runCalls (added.map .addLast) emptyList = .ok last ∧
    Shows front (added.reverse.take maxPlayListLen) ∧ Shows last (added.reverse.take maxPlayListLen).reverse

theorem reversed_take (entries : List CString) :
    (entries.reverse.take maxPlayListLen).reverse = entries.rtake maxPlayListLen :=
  (List.rtake_eq_reverse_take_reverse entries maxPlayListLen).symm

theorem adds_last_show (state : ListState) (entries added : List CString) (shown : Shows state entries) :
    ∃ final, runCalls (added.map .addLast) state = .ok final ∧
      Shows final (added.foldl (pushLast maxPlayListLen) entries) := by
  induction added generalizing state entries with
  | nil => exact ⟨state, rfl, shown⟩
  | cons path rest ih =>
      obtain ⟨next, ran, longer⟩ := add_last_shows state entries path shown
      obtain ⟨final, finished, ended⟩ := ih next _ longer
      refine ⟨final, ?_, ended⟩
      rw [runCalls, List.map_cons, List.foldlM_cons, ran]
      exact finished

theorem adds_front_show (state : ListState) (entries added : List CString) (shown : Shows state entries)
    (nonempty : entries ≠ []) :
    ∃ final, runCalls (added.map .addFront) state = .ok final ∧
      Shows final (added.foldl (pushFirst maxPlayListLen) entries) := by
  induction added generalizing state entries with
  | nil => exact ⟨state, rfl, shown⟩
  | cons path rest ih =>
      obtain ⟨next, ran, longer⟩ := add_front_shows state entries path shown nonempty
      obtain ⟨final, finished, ended⟩ := ih next _ longer (List.cons_ne_nil _ _)
      refine ⟨final, ?_, ended⟩
      rw [runCalls, List.map_cons, List.foldlM_cons, ran]
      exact finished

theorem adds_last_newest (added : List CString) :
    ∃ final, runCalls (added.map .addLast) emptyList = .ok final ∧ Shows final (added.rtake maxPlayListLen) := by
  obtain ⟨final, ran, shown⟩ := adds_last_show emptyList [] added empty_shows
  rw [push_last_fold maxPlayListLen [] added (by decide) (Nat.zero_le _)] at shown
  exact ⟨final, ran, shown⟩

theorem mirrored_after_first (first : CString) (added : List CString) :
    ∃ front last, runCalls (.addLast first :: added.map .addFront) emptyList = .ok front ∧
      runCalls ((first :: added).map .addLast) emptyList = .ok last ∧
      Shows front ((first :: added).reverse.take maxPlayListLen) ∧
      Shows last ((first :: added).reverse.take maxPlayListLen).reverse := by
  obtain ⟨sole, started, single⟩ := add_last_shows emptyList [] first empty_shows
  obtain ⟨front, ran, shown⟩ := adds_front_show sole [first] added single (List.cons_ne_nil _ _)
  obtain ⟨last, finished, ended⟩ := adds_last_newest (first :: added)
  refine ⟨front, last, ?_, finished, ?_, reversed_take _ ▸ ended⟩
  · rw [runCalls, List.foldlM_cons, started]
    exact ran
  · have mirrored := push_first_fold maxPlayListLen [first] added
    rw [List.reverse_singleton, push_last_fold maxPlayListLen [first] added (by decide) (by simp [maxPlayListLen]),
      List.singleton_append, ← reversed_take] at mirrored
    rw [List.reverse_injective mirrored] at shown
    exact shown

theorem front_mirrors_exact (added : List CString) :
    (FrontMirrors added ↔ added = []) ∧
      (added ≠ [] → runCalls (added.map .addFront) emptyList = .error .nullDeref) := by
  have faults : added ≠ [] → runCalls (added.map .addFront) emptyList = .error .nullDeref := by
    intro nonempty
    obtain ⟨first, rest, rfl⟩ := List.exists_cons_of_ne_nil nonempty
    rw [runCalls, List.map_cons, List.foldlM_cons, add_front_empty emptyList first empty_shows, error_bind]
  refine ⟨⟨?_, ?_⟩, faults⟩
  · rintro ⟨front, _, ran, _⟩
    by_contra nonempty
    rw [faults nonempty] at ran
    cases ran
  · rintro rfl
    exact ⟨emptyList, emptyList, rfl, rfl, empty_shows, empty_shows⟩

theorem front_of_empty_faults : ¬ FrontMirrors [cString [97]] := by
  rintro ⟨front, _, ran, _⟩
  cases ran

end Slogger.Playlist
