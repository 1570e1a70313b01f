import Mathlib.Data.List.InsertIdx
import Slogger.Playlist.File
import Slogger.Playlist.Prepend
import Slogger.Playlist.Remove
import Slogger.Playlist.Swap

set_option autoImplicit false

namespace Slogger.Playlist

open Slogger.Lib

structure ListState where
  heap : NodeHeap
  filelist : Pointer

-- One call on the list. A node argument is the node at a position of the list
-- (past its end: NULL); *pagehead and *selnode hold whatever the caller left
-- there, and a file carries its content and whether reads fail after it.
inductive Call where
  | addLast (path : CString)
  | addFront (path : CString)
  | remove (path : CString) (pagehead : Pointer)
  | removeNode (position : Nat) (pagehead : Pointer)
  | swap (path : CString) (next : Bool) (selnode : Pointer)
  | swapNode (position : Nat) (next : Bool) (selnode : Pointer)
  | read (file : Option (List UInt8 × Bool))

def execCall (state : ListState) : Call → Except Fault ListState
  | .addLast path => do
      let added ← addplaylistLast state.heap state.filelist path
      .ok ⟨added.heap, added.filelist⟩
  | .addFront path => do
      let added ← addplaylistFront state.heap state.filelist path
      .ok ⟨added.heap, added.filelist⟩
  | .remove path pagehead => do
      let removed ← removeplaylist state.heap state.filelist path pagehead
      .ok ⟨removed.heap, removed.filelist⟩
  | .removeNode position pagehead => do
      let node ← nodeAt state.heap position state.filelist
      let removed ← removeplayNode state.heap state.filelist node pagehead
      .ok ⟨removed.heap, removed.filelist⟩
  | .swap path next selnode => do
      let swapped ← swapplaylist state.heap state.filelist path next selnode
      .ok ⟨swapped.heap, state.filelist⟩
  | .swapNode position next selnode => do
      let node ← nodeAt state.heap position state.filelist
      let swapped ← swapplayNode state.heap node next selnode
      .ok ⟨swapped.heap, state.filelist⟩
  | .read file => do
      let loaded ← readplaylist state.heap state.filelist (file.map fun opened => ⟨opened.1, opened.2, false⟩)
      .ok ⟨loaded.heap, loaded.filelist⟩

def runCalls (calls : List Call) (state : ListState) : Except Fault ListState := calls.foldlM execCall state

def emptyList : ListState := ⟨Heap.empty, none⟩

def applyCall (entries : List CString) : Call → List CString
  | .addLast path => pushLast maxPlayListLen entries path
  | .addFront path => pushFirst maxPlayListLen entries path
  | .remove path _ => entries.erase path
  | .removeNode position _ => entries.eraseIdx position
  | .swap path next _ => if path ∈ entries then swapEntries entries (entries.idxOf path) next else entries
  | .swapNode position next _ => swapEntries entries position next
  | .read none => entries
  | .read (some (data, _)) => ((pieces data).map lineOf).foldl (pushLast maxPlayListLen) entries

def Shows (state : ListState) (entries : List CString) : Prop :=
  ∃ cells, PlaylistRep state.heap state.filelist cells ∧ songs cells = entries.map songOf ∧
    entries.length ≤ maxPlayListLen

-- readplaylist on a file whose reads fail for ever does not return.
def NeverReturns (call : Call) : Prop := ∃ data, call = .read (some (data, true))

def Conforms (entries : List CString) (call : Call) : Except Fault ListState → Prop
  | .ok next => Shows next (applyCall entries call)
  | .error fault => fault = .nullDeref ∨ (fault = .loops ∧ NeverReturns call)

theorem paths_songs (cells : Cells) : paths cells = (songs cells).map Song.path := by
  simp [paths, songs]

theorem named_paths (cells : Cells) (entries : List CString) (named : songs cells = entries.map songOf) :
    paths cells = entries := by
  rw [paths_songs, named, List.map_map]
  exact List.map_id entries

theorem shows_length (cells : Cells) (entries : List CString) (named : songs cells = entries.map songOf) :
    cells.length = entries.length := by
  simpa [songs] using congrArg List.length named

theorem add_last_shows (state : ListState) (entries : List CString) (path : CString) (shown : Shows state entries) :
    ∃ next, execCall state (.addLast path) = .ok next ∧ Shows next (pushLast maxPlayListLen entries path) := by
  obtain ⟨cells, rep, named, within⟩ := shown
  obtain ⟨added, ran, longer, _⟩ := add_last_rep state.heap state.filelist cells path rep
  refine ⟨⟨added.heap, added.filelist⟩, by simp only [execCall, ran, ok_bind], _, longer, ?_,
    push_last_length maxPlayListLen entries path (by decide) within⟩
  rw [songs_add_last, named]
  exact (push_last_map songOf maxPlayListLen entries path).symm

theorem add_front_shows (state : ListState) (entries : List CString) (path : CString) (shown : Shows state entries)
    (nonempty : entries ≠ []) :
    ∃ next, execCall state (.addFront path) = .ok next ∧ Shows next (pushFirst maxPlayListLen entries path) := by
  obtain ⟨cells, rep, named, within⟩ := shown
  have some : cells ≠ [] := by
    rintro rfl
    exact nonempty (List.map_eq_nil_iff.mp named.symm)
  obtain ⟨added, ran, _, longer, _⟩ := add_front_rep state.heap state.filelist cells path rep some
  refine ⟨⟨added.heap, added.filelist⟩, by simp only [execCall, ran, ok_bind], _, longer, ?_,
    push_first_length maxPlayListLen entries path (by decide) within⟩
  have pushed : songs ((state.heap.bound, songOf path) :: evictTail cells) =
      pushFirst maxPlayListLen (songs cells) (songOf path) :=
    push_first_map Prod.snd maxPlayListLen cells (state.heap.bound, songOf path)
  rw [pushed, named]
  exact (push_first_map songOf maxPlayListLen entries path).symm

theorem add_front_empty (state : ListState) (path : CString) (shown : Shows state []) :
    execCall state (.addFront path) = .error .nullDeref := by
  obtain ⟨cells, rep, named, _⟩ := shown
  have empty : cells = [] := List.map_eq_nil_iff.mp named
  have null : state.filelist = none := (linked_null state.filelist cells rep).mpr empty
  simp only [execCall, null, add_front_null, error_bind]

theorem add_last_conforms (state : ListState) (entries : List CString) (path : CString)
    (shown : Shows state entries) : Conforms entries (.addLast path) (execCall state (.addLast path)) := by
  obtain ⟨next, ran, longer⟩ := add_last_shows state entries path shown
  rw [ran]
  exact longer

theorem add_front_conforms (state : ListState) (entries : List CString) (path : CString)
    (shown : Shows state entries) : Conforms entries (.addFront path) (execCall state (.addFront path)) := by
  by_cases empty : entries = []
  · subst empty
    rw [add_front_empty state path shown]
    exact .inl rfl
  · obtain ⟨next, ran, longer⟩ := add_front_shows state entries path shown empty
    rw [ran]
    exact longer

theorem remove_node_conforms (state : ListState) (entries : List CString) (left right : Cells)
    (cell : Nat × Song) (pagehead : Pointer) (shown : Shows state entries)
    (rep : PlaylistRep state.heap state.filelist (left ++ cell :: right))
    (named : songs (left ++ cell :: right) = entries.map songOf) :
    removeplayNode state.heap state.filelist (some cell.1) pagehead = .error .nullDeref ∨
    ∃ removed, removeplayNode state.heap state.filelist (some cell.1) pagehead = .ok removed ∧
      Shows ⟨removed.heap, removed.filelist⟩ (entries.eraseIdx left.length) := by
  obtain ⟨_, _, _, within⟩ := shown
  by_cases sole : left ++ right = []
  · obtain ⟨rfl, rfl⟩ := List.append_eq_nil_iff.mp sole
    exact .inl (remove_sole_node state.heap state.filelist pagehead cell.1 cell.2 rep)
  · obtain ⟨removed, ran, shorter, _⟩ :=
      remove_node_rep state.heap state.filelist pagehead left right cell.1 cell.2 rep sole
    refine .inr ⟨removed, ran, left ++ right, shorter, ?_, ?_⟩
    · have erased : songs (left ++ right) = (songs (left ++ cell :: right)).eraseIdx left.length := by
        simp [songs, List.eraseIdx_append_of_length_le]
      rw [erased, named, List.eraseIdx_map]
    · exact Nat.le_trans (List.length_eraseIdx_le entries left.length) within

theorem erase_first (left right : List CString) (path : CString) (before : path ∉ left) :
    (left ++ path :: right).erase path = (left ++ path :: right).eraseIdx left.length := by
  rw [List.erase_append_right _ before, List.erase_cons_head, List.eraseIdx_append_of_length_le (Nat.le_refl _)]
  simp

theorem idx_first (left right : List CString) (path : CString) (before : path ∉ left) :
    (left ++ path :: right).idxOf path = left.length := by
  simp [List.idxOf_append_of_notMem before]

theorem remove_position_conforms (state : ListState) (entries : List CString) (position : Nat)
    (pagehead : Pointer) (shown : Shows state entries) :
    Conforms entries (.removeNode position pagehead) (execCall state (.removeNode position pagehead)) := by
  obtain ⟨cells, rep, named, within⟩ := shown
  simp only [execCall, node_at_rep state.heap state.filelist cells position rep, ok_bind]
  by_cases inside : position < cells.length
  · obtain ⟨left, cell, right, rfl, rfl⟩ := split_at cells position inside
    rw [place_middle]
    rcases remove_node_conforms state entries left right cell pagehead ⟨_, rep, named, within⟩ rep named with
      fault | ⟨removed, ran, shown⟩
    · simp only [fault, error_bind]
      exact .inl rfl
    · simp only [ran, ok_bind]
      exact shown
  · have outside : cells.length ≤ position := Nat.le_of_not_lt inside
    rw [place_outside cells position outside]
    refine ⟨cells, rep, ?_, ?_⟩
    · rw [applyCall, List.eraseIdx_of_length_le (shows_length cells entries named ▸ outside), named]
    · exact Nat.le_trans (List.length_eraseIdx_le entries position) within

theorem remove_path_conforms (state : ListState) (entries : List CString) (path : CString)
    (pagehead : Pointer) (shown : Shows state entries) :
    Conforms entries (.remove path pagehead) (execCall state (.remove path pagehead)) := by
  obtain ⟨cells, rep, named, within⟩ := shown
  have listed := named_paths cells entries named
  by_cases present : path ∈ entries
  · obtain ⟨left, cell, right, rfl, before, same, ran⟩ :=
      remove_path_present state.heap state.filelist pagehead cells path rep (listed ▸ present)
    simp only [execCall, ran]
    have erased : entries.erase path = entries.eraseIdx left.length := by
      have whole : entries = paths left ++ path :: paths right := by
        rw [← listed, ← same]
        simp [paths]
      rw [whole, erase_first (paths left) (paths right) path before]
      simp [paths]
    rcases remove_node_conforms state entries left right cell pagehead ⟨_, rep, named, within⟩ rep named with
      fault | ⟨removed, found, shown⟩
    · simp only [fault, error_bind]
      exact .inl rfl
    · simp only [found, ok_bind]
      rw [← erased] at shown
      exact shown
  · have ran := remove_path_absent state.heap state.filelist pagehead cells path rep (listed ▸ present)
    simp only [execCall, ran, ok_bind]
    refine ⟨cells, rep, ?_, ?_⟩
    · rw [applyCall, List.erase_of_not_mem present, named]
    · rw [applyCall, List.erase_of_not_mem present]
      exact within

theorem swap_node_conforms (state : ListState) (entries : List CString) (left right : Cells)
    (cell : Nat × Song) (next : Bool) (selnode : Pointer)
    (rep : PlaylistRep state.heap state.filelist (left ++ cell :: right))
    (named : songs (left ++ cell :: right) = entries.map songOf) (within : entries.length ≤ maxPlayListLen) :
    ∃ swapped, swapplayNode state.heap (some cell.1) next selnode = .ok swapped ∧
      Shows ⟨swapped.heap, state.filelist⟩ (swapEntries entries left.length next) := by
  obtain ⟨swapped, after, ran, represented, _, _, contents⟩ :=
    swap_node_rep state.heap state.filelist selnode left right cell.1 cell.2 next rep
  refine ⟨swapped, ran, after, represented, ?_, by simpa using within⟩
  rw [contents, named, swap_entries_map]

theorem swap_position_conforms (state : ListState) (entries : List CString) (position : Nat) (next : Bool)
    (selnode : Pointer) (shown : Shows state entries) :
    Conforms entries (.swapNode position next selnode) (execCall state (.swapNode position next selnode)) := by
  obtain ⟨cells, rep, named, within⟩ := shown
  simp only [execCall, node_at_rep state.heap state.filelist cells position rep, ok_bind]
  by_cases inside : position < cells.length
  · obtain ⟨left, cell, right, rfl, rfl⟩ := split_at cells position inside
    rw [place_middle]
    obtain ⟨swapped, ran, shown⟩ :=
      swap_node_conforms state entries left right cell next selnode rep named within
    simp only [ran, ok_bind]
    exact shown
  · rw [place_outside cells position (Nat.le_of_not_lt inside)]
    exact .inl rfl

theorem swap_path_conforms (state : ListState) (entries : List CString) (path : CString) (next : Bool)
    (selnode : Pointer) (shown : Shows state entries) :
    Conforms entries (.swap path next selnode) (execCall state (.swap path next selnode)) := by
  obtain ⟨cells, rep, named, within⟩ := shown
  have listed := named_paths cells entries named
  simp only [execCall, swapplaylist, find_path_playlist state.heap state.filelist cells path rep, ok_bind]
  rcases first_path_split cells path with ⟨absent, searched⟩ | ⟨left, cell, right, rfl, before, same, searched⟩
  · rw [searched]
    rw [listed] at absent
    refine ⟨cells, rep, ?_, ?_⟩
    · rw [applyCall, if_neg absent, named]
    · rw [applyCall, if_neg absent]
      exact within
  · rw [searched]
    obtain ⟨swapped, ran, shown⟩ :=
      swap_node_conforms state entries left right cell next selnode rep named within
    have whole : entries = paths left ++ path :: paths right := by
      rw [← listed, ← same]
      simp [paths]
    have position : entries.idxOf path = left.length := by
      rw [whole, idx_first (paths left) (paths right) path before]
      simp [paths]
    have present : path ∈ entries := by simp [whole]
    simp only [Option.map_some, ran, ok_bind]
    rw [Conforms, applyCall, if_pos present, position]
    exact shown

theorem fold_push_last_map (pushed entries : List CString) :
    (pushed.foldl (pushLast maxPlayListLen) entries).map songOf =
      (pushed.map songOf).foldl (pushLast maxPlayListLen) (entries.map songOf) := by
  induction pushed generalizing entries with
  | nil => rfl
  | cons path rest ih => rw [List.foldl_cons, ih, push_last_map, List.map_cons, List.foldl_cons]

theorem fold_push_last_length (pushed entries : List CString) (within : entries.length ≤ maxPlayListLen) :
    (pushed.foldl (pushLast maxPlayListLen) entries).length ≤ maxPlayListLen := by
  induction pushed generalizing entries with
  | nil => exact within
  | cons path rest ih => exact ih _ (push_last_length maxPlayListLen entries path (by decide) within)

theorem read_conforms (state : ListState) (entries : List CString) (file : Option (List UInt8 × Bool))
    (shown : Shows state entries) : Conforms entries (.read file) (execCall state (.read file)) := by
  obtain ⟨cells, rep, named, within⟩ := shown
  rcases file with _ | ⟨data, failing⟩
  · exact ⟨cells, rep, named, within⟩
  · cases failing with
    | true =>
        have stuck := read_loop_failing ⟨data, true, false⟩ state.heap state.filelist cells (data.length + 1) rep rfl rfl
        simp only [execCall, Option.map_some, readplaylist, stuck, error_bind]
        exact .inr ⟨rfl, data, rfl⟩
    | false =>
        obtain ⟨loaded, after, ran, represented, _, contents⟩ :=
          readplaylist_rep state.heap state.filelist cells data rep
        simp only [execCall, Option.map_some, ran, ok_bind]
        refine ⟨after, represented, ?_, fold_push_last_length _ entries within⟩
        rw [applyCall, fold_push_last_map, contents, named, List.map_map]
        rfl

theorem call_conforms (state : ListState) (entries : List CString) (call : Call) (shown : Shows state entries) :
    Conforms entries call (execCall state call) := by
  cases call with
  | addLast path => exact add_last_conforms state entries path shown
  | addFront path => exact add_front_conforms state entries path shown
  | remove path pagehead => exact remove_path_conforms state entries path pagehead shown
  | removeNode position pagehead => exact remove_position_conforms state entries position pagehead shown
  | swap path next selnode => exact swap_path_conforms state entries path next selnode shown
  | swapNode position next selnode => exact swap_position_conforms state entries position next selnode shown
  | read file => exact read_conforms state entries file shown

theorem calls_conform (calls : List Call) (state : ListState) (entries : List CString)
    (shown : Shows state entries) :
    match runCalls calls state with
    | .ok final => Shows final (calls.foldl applyCall entries)
    | .error fault => fault = .nullDeref ∨ (fault = .loops ∧ ∃ call ∈ calls, NeverReturns call) := by
  induction calls generalizing state entries with
  | nil => exact shown
  | cons call rest ih =>
      have stepped := call_conforms state entries call shown
      rw [runCalls, List.foldlM_cons]
      cases ran : execCall state call with
      | ok next =>
          rw [ran] at stepped
          have finished := ih next (applyCall entries call) stepped
          rw [runCalls] at finished
          rw [ok_bind]
          split <;> rename_i outcome <;> rw [outcome] at finished
          · exact finished
          · exact finished.imp id fun ⟨stuck, late, member, never⟩ =>
              ⟨stuck, late, List.mem_cons_of_mem call member, never⟩
      | error fault =>
          rw [ran] at stepped
          exact stepped.imp id fun ⟨stuck, never⟩ => ⟨stuck, call, List.mem_cons_self, never⟩

-- Every finite sequence of calls on an empty list, until one reads through
-- NULL (or waits for ever on a broken file).
theorem playlist_refines_sequence (calls : List Call) :
    match runCalls calls emptyList with
    | .ok state => ∃ cells, PlaylistRep state.heap state.filelist cells ∧
        Mirrored playLayout state.heap state.filelist cells ∧ cells.length ≤ maxPlayListLen ∧
        (∀ cell ∈ cells, cell.2.file = fileName cell.2.path) ∧ paths cells = calls.foldl applyCall []
    | .error fault => fault = .nullDeref ∨ (fault = .loops ∧ ∃ call ∈ calls, NeverReturns call) := by
  have conform := calls_conform calls emptyList [] ⟨[], (linked_empty none).mpr rfl, rfl, by decide⟩
  split <;> rename_i outcome <;> rw [outcome] at conform
  · obtain ⟨cells, rep, named, within⟩ := conform
    refine ⟨cells, rep, linked_mirrored _ cells rep, shows_length cells _ named ▸ within, ?_, named_paths cells _ named⟩
    intro cell member
    have carried : cell.2 ∈ songs cells := List.mem_map_of_mem member
    rw [named] at carried
    obtain ⟨path, _, same⟩ := List.mem_map.mp carried
    rw [← same, songOf]
  · exact conform

theorem empty_shows : Shows emptyList [] := ⟨[], (linked_empty none).mpr rfl, rfl, Nat.zero_le _⟩

def builtList (entries : List CString) : ListState :=
  match runCalls (entries.map .addLast) emptyList with
  | .ok state => state
  | .error _ => emptyList

def builtCells (entries : List CString) : Cells := (List.range entries.length).zip (entries.map songOf)

def twoSongs : List CString := [⟨[97], by decide⟩, ⟨[98], by decide⟩]

theorem two_songs_rep : PlaylistRep (builtList twoSongs).heap (some 0) (builtCells twoSongs) := by decide +kernel

end Slogger.Playlist
