import Slogger.Lib.Agreement
import Slogger.Playlist.Reorder
import Slogger.Playlist.RoundTrip

set_option autoImplicit false

namespace Slogger.Playlist

open Slogger.Lib

-- The calls that do not return: an entry put in front of none, the removal of
-- the only entry, a swap past the end, and a read that fails for ever.
def callFault (entries : List CString) : Call → Option Fault
  | .addFront _ => if entries = [] then some .nullDeref else none
  | .remove path _ => if entries = [path] then some .nullDeref else none
  | .removeNode position _ => if entries.length = 1 ∧ position = 0 then some .nullDeref else none
  | .swapNode position _ _ => if entries.length ≤ position then some .nullDeref else none
  | .read (some (_, true)) => some .loops
  | _ => none

def sequenceCall (entries : List CString) (call : Call) : Except Fault (List CString) :=
  match callFault entries call with
  | some fault => .error fault
  | none => .ok (applyCall entries call)

theorem returned_shows (state next : ListState) (entries : List CString) (call : Call) (shown : Shows state entries)
    (ran : execCall state call = .ok next) : Shows next (applyCall entries call) := by
  have conform := call_conforms state entries call shown
  rw [ran] at conform
  exact conform

theorem sole_cell (left right : Cells) (cell : Nat × Song) (entries : List CString)
    (listed : paths (left ++ cell :: right) = entries) :
    left ++ right = [] ↔ entries.length = 1 := by
  rw [← listed, paths, List.length_map, List.length_append, List.length_cons, List.append_eq_nil_iff,
    ← List.length_eq_zero_iff, ← List.length_eq_zero_iff]
  omega

theorem remove_cell_exact (state : ListState) (entries : List CString) (left right : Cells) (cell : Nat × Song)
    (pagehead : Pointer) (rep : PlaylistRep state.heap state.filelist (left ++ cell :: right))
    (listed : paths (left ++ cell :: right) = entries) :
    if entries.length = 1 then removeplayNode state.heap state.filelist (some cell.1) pagehead = .error .nullDeref
    else ∃ removed, removeplayNode state.heap state.filelist (some cell.1) pagehead = .ok removed := by
  have sole := sole_cell left right cell entries listed
  split
  · rename_i one
    obtain ⟨rfl, rfl⟩ := List.append_eq_nil_iff.mp (sole.mpr one)
    exact remove_sole_node state.heap state.filelist pagehead cell.1 cell.2 rep
  · rename_i more
    obtain ⟨removed, ran, _⟩ := remove_node_rep state.heap state.filelist pagehead left right cell.1 cell.2 rep
      (fun empty => more (sole.mp empty))
    exact ⟨removed, ran⟩

theorem remove_path_exact (state : ListState) (entries : List CString) (path : CString) (pagehead : Pointer)
    (shown : Shows state entries) :
    if entries = [path] then execCall state (.remove path pagehead) = .error .nullDeref
    else ∃ next, execCall state (.remove path pagehead) = .ok next := by
  obtain ⟨cells, rep, named, _⟩ := shown
  have listed := named_paths cells entries named
  by_cases present : path ∈ entries
  · obtain ⟨left, cell, right, rfl, _, _, ran⟩ :=
      remove_path_present state.heap state.filelist pagehead cells path rep (listed ▸ present)
    have removal := remove_cell_exact state entries left right cell pagehead rep listed
    have one : entries = [path] ↔ entries.length = 1 := by
      constructor
      · rintro rfl
        rfl
      · intro single
        obtain ⟨only, rfl⟩ := List.length_eq_one_iff.mp single
        rw [List.mem_singleton.mp present]
    simp only [execCall, ran, one]
    split
    · rename_i single
      rw [if_pos single] at removal
      rw [removal, error_bind]
    · rename_i more
      rw [if_neg more] at removal
      obtain ⟨removed, found⟩ := removal
      exact ⟨_, by rw [found, ok_bind]⟩
  · have other : entries ≠ [path] := by
      rintro rfl
      exact present List.mem_cons_self
    rw [if_neg other]
    have ran := remove_path_absent state.heap state.filelist pagehead cells path rep (listed ▸ present)
    exact ⟨_, by rw [execCall, ran, ok_bind]⟩

theorem remove_position_exact (state : ListState) (entries : List CString) (position : Nat) (pagehead : Pointer)
    (shown : Shows state entries) :
    if entries.length = 1 ∧ position = 0 then execCall state (.removeNode position pagehead) = .error .nullDeref
    else ∃ next, execCall state (.removeNode position pagehead) = .ok next := by
  obtain ⟨cells, rep, named, _⟩ := shown
  have listed := named_paths cells entries named
  have length := shows_length cells entries named
  simp only [execCall, node_at_rep state.heap state.filelist cells position rep, ok_bind]
  by_cases inside : position < cells.length
  · obtain ⟨left, cell, right, rfl, rfl⟩ := split_at cells position inside
    have removal := remove_cell_exact state entries left right cell pagehead rep listed
    have first : entries.length = 1 → left.length = 0 := by
      intro single
      rw [single, List.length_append, List.length_cons] at length
      omega
    rw [place_middle]
    by_cases single : entries.length = 1
    · rw [if_pos single] at removal
      rw [if_pos ⟨single, first single⟩, removal, error_bind]
    · rw [if_neg single] at removal
      obtain ⟨removed, found⟩ := removal
      rw [if_neg (fun both => single both.1), found]
      exact ⟨_, rfl⟩
  · rw [place_outside cells position (Nat.le_of_not_lt inside), if_neg (by omega)]
    exact ⟨_, rfl⟩

theorem swap_path_returns (state : ListState) (entries : List CString) (path : CString) (next : Bool)
    (selnode : Pointer) (shown : Shows state entries) : ∃ after, execCall state (.swap path next selnode) = .ok after := by
  obtain ⟨cells, rep, named, within⟩ := shown
  simp only [execCall, swapplaylist, find_path_playlist state.heap state.filelist cells path rep, ok_bind]
  rcases first_path_split cells path with ⟨_, searched⟩ | ⟨left, cell, right, rfl, _, _, searched⟩
  · rw [searched]
    exact ⟨_, rfl⟩
  · obtain ⟨swapped, ran, _⟩ := swap_node_conforms state entries left right cell next selnode rep named within
    rw [searched, Option.map_some]
    dsimp only
    rw [ran]
    exact ⟨_, rfl⟩

theorem swap_position_exact (state : ListState) (entries : List CString) (position : Nat) (next : Bool)
    (selnode : Pointer) (shown : Shows state entries) :
    if entries.length ≤ position then execCall state (.swapNode position next selnode) = .error .nullDeref
    else ∃ after, execCall state (.swapNode position next selnode) = .ok after := by
  obtain ⟨cells, rep, named, within⟩ := shown
  have length := shows_length cells entries named
  simp only [execCall, node_at_rep state.heap state.filelist cells position rep, ok_bind, ← length]
  by_cases inside : position < cells.length
  · obtain ⟨left, cell, right, rfl, rfl⟩ := split_at cells position inside
    obtain ⟨swapped, ran, _⟩ := swap_node_conforms state entries left right cell next selnode rep named within
    rw [if_neg (Nat.not_le_of_lt inside), place_middle, ran]
    exact ⟨_, rfl⟩
  · rw [if_pos (Nat.le_of_not_lt inside), place_outside cells position (Nat.le_of_not_lt inside)]
    rfl

theorem read_exact (state : ListState) (entries : List CString) (data : List UInt8) (failing : Bool)
    (shown : Shows state entries) :
    if failing then execCall state (.read (some (data, failing))) = .error .loops
    else ∃ next, execCall state (.read (some (data, failing))) = .ok next := by
  obtain ⟨cells, rep, _⟩ := shown
  cases failing with
  | true =>
      have stuck := read_loop_failing ⟨data, true, false⟩ state.heap state.filelist cells (data.length + 1) rep rfl rfl
      simp only [if_true, execCall, Option.map_some, readplaylist, stuck, error_bind]
  | false =>
      obtain ⟨loaded, _, ran, _⟩ := readplaylist_rep state.heap state.filelist cells data rep
      simp only [Bool.false_eq_true, if_false, execCall, Option.map_some, ran, ok_bind]
      exact ⟨_, rfl⟩

theorem agree_decided (state : ListState) (entries : List CString) (call : Call) (shown : Shows state entries)
    (faults : Prop) (decided : Decidable faults) (fault : Fault)
    (kind : callFault entries call = if faults then some fault else none)
    (ends : if faults then execCall state call = .error fault else ∃ next, execCall state call = .ok next) :
    Agree Shows (execCall state call) (sequenceCall entries call) := by
  rw [sequenceCall, kind]
  by_cases wrong : faults
  · rw [if_pos wrong] at ends ⊢
    rw [ends]
    rfl
  · rw [if_neg wrong] at ends ⊢
    obtain ⟨next, ran⟩ := ends
    rw [ran]
    exact returned_shows state next entries call shown ran

theorem agree_returned (state : ListState) (entries : List CString) (call : Call) (shown : Shows state entries)
    (kind : callFault entries call = none) (returns : ∃ next, execCall state call = .ok next) :
    Agree Shows (execCall state call) (sequenceCall entries call) := by
  obtain ⟨next, ran⟩ := returns
  rw [sequenceCall, kind, ran]
  exact returned_shows state next entries call shown ran

theorem call_agrees (state : ListState) (entries : List CString) (call : Call) (shown : Shows state entries) :
    Agree Shows (execCall state call) (sequenceCall entries call) := by
  cases call with
  | addLast path =>
      obtain ⟨next, ran, _⟩ := add_last_shows state entries path shown
      exact agree_returned state entries _ shown rfl ⟨next, ran⟩
  | addFront path =>
      refine agree_decided state entries _ shown (entries = []) inferInstance .nullDeref rfl ?_
      split
      · rename_i empty
        subst empty
        exact add_front_empty state path shown
      · rename_i nonempty
        obtain ⟨next, ran, _⟩ := add_front_shows state entries path shown nonempty
        exact ⟨next, ran⟩
  | remove path pagehead =>
      exact agree_decided state entries _ shown _ _ .nullDeref rfl (remove_path_exact state entries path pagehead shown)
  | removeNode position pagehead =>
      exact agree_decided state entries _ shown _ _ .nullDeref rfl
        (remove_position_exact state entries position pagehead shown)
  | swap path next selnode =>
      exact agree_returned state entries _ shown rfl (swap_path_returns state entries path next selnode shown)
  | swapNode position next selnode =>
      exact agree_decided state entries _ shown _ _ .nullDeref rfl
        (swap_position_exact state entries position next selnode shown)
  | read file =>
      cases file with
      | none => exact agree_returned state entries _ shown rfl ⟨_, rfl⟩
      | some opened =>
          obtain ⟨data, failing⟩ := opened
          have read := read_exact state entries data failing shown
          cases failing with
          | true =>
              simp only [if_true] at read
              rw [sequenceCall, callFault, read]
              rfl
          | false =>
              simp only [Bool.false_eq_true, if_false] at read
              exact agree_returned state entries _ shown rfl read

-- Every run of calls ends as it does on the plain sequence: with the same
-- entries, or at the same call with the same fault.
theorem calls_agree (calls : List Call) : Agree Shows (runCalls calls emptyList) (calls.foldlM sequenceCall []) :=
  agree_runs execCall sequenceCall (fun _ => True) Shows
    (fun state entries call _ shown => call_agrees state entries call shown) emptyList [] calls (fun _ _ => trivial)
    empty_shows

-- One run of the player: the file is loaded into an empty list, calls are made
-- on it, and the list is saved over the file.
def runSession (disk : List UInt8) (calls : List Call) : Except Fault (List UInt8) := do
  let loaded ← readplaylist Heap.empty none (some ⟨disk, false, false⟩)
  let last ← runCalls calls ⟨loaded.heap, loaded.filelist⟩
  let saved ← saveplaylist last.heap last.filelist disk allWritten
  .ok saved.disk

def FitsLine (path : CString) : Prop := newline ∉ path.bytes ∧ path.bytes.length ≤ 254

def brings : Call → List CString
  | .addLast path | .addFront path => [path]
  | .read (some (data, _)) => (pieces data).map lineOf
  | _ => []

def Storable (entries : List CString) : Prop := (∀ path ∈ entries, FitsLine path) ∧ entries.length ≤ maxPlayListLen

theorem apply_call_subset (entries : List CString) (call : Call) : applyCall entries call ⊆ entries ++ brings call := by
  have old : ∀ fewer ⊆ entries, fewer ⊆ entries ++ brings call := fun fewer inside =>
    List.Subset.trans inside (List.subset_append_left _ _)
  cases call with
  | addLast path => exact push_last_subset maxPlayListLen entries path
  | addFront path => exact push_first_subset maxPlayListLen entries path
  | remove path _ => exact old _ List.erase_subset
  | removeNode position _ => exact old _ List.eraseIdx_subset
  | swap path next selnode => exact old _ (swap_call_perm entries (.swap path next selnode) rfl).subset
  | swapNode position next selnode => exact old _ (swap_call_perm entries (.swapNode position next selnode) rfl).subset
  | read file =>
      cases file with
      | none => exact List.subset_append_left _ _
      | some opened => exact fold_push_last_subset maxPlayListLen entries _

theorem call_storable (state : ListState) (entries : List CString) (call : Call) (shown : Shows state entries)
    (storable : Storable entries) (fits : ∀ path ∈ brings call, FitsLine path) :
    Agree (fun next after => Shows next after ∧ Storable after) (execCall state call) (sequenceCall entries call) := by
  have agree := call_agrees state entries call shown
  cases kind : callFault entries call with
  | some fault =>
      rw [sequenceCall, kind] at agree ⊢
      cases ran : execCall state call with
      | ok next =>
          rw [ran] at agree
          exact agree
      | error other =>
          rw [ran] at agree
          exact agree
  | none =>
      rw [sequenceCall, kind] at agree ⊢
      cases ran : execCall state call with
      | error fault =>
          rw [ran] at agree
          exact agree
      | ok next =>
          rw [ran] at agree
          refine ⟨agree, ?_, ?_⟩
          · intro path member
            rcases List.mem_append.mp (apply_call_subset entries call member) with old | new
            · exact storable.1 path old
            · exact fits path new
          · obtain ⟨_, _, _, within⟩ := agree
            exact within

theorem session_agrees (entries : List CString) (calls : List Call) (storable : Storable entries)
    (fits : ∀ call ∈ calls, ∀ path ∈ brings call, FitsLine path) :
    Agree (fun disk after => disk = fileBytes after ∧ Storable after) (runSession (fileBytes entries) calls)
      (calls.foldlM sequenceCall entries) := by
  obtain ⟨loaded, read, _, shown⟩ := load_shows Heap.empty (fileBytes entries)
  have kept := short_lines_kept entries (fun path member => (storable.1 path member).1)
    (fun path member => (storable.1 path member).2)
  rw [kept, List.rtake, Nat.sub_eq_zero_of_le storable.2, List.drop_zero] at shown
  have ran := agree_runs execCall sequenceCall (fun call => ∀ path ∈ brings call, FitsLine path)
    (fun next after => Shows next after ∧ Storable after)
    (fun state shadow call fit here => call_storable state shadow call here.1 here.2 fit)
    ⟨loaded.heap, loaded.filelist⟩ entries calls fits ⟨shown, storable⟩
  rw [runSession, read, ok_bind]
  have ended : (calls.foldlM sequenceCall entries) = calls.foldlM sequenceCall entries >>= Except.ok := by
    cases calls.foldlM sequenceCall entries <;> rfl
  rw [ended]
  apply agree_bind _ _ _ _ _ _ ran
  rintro last after ⟨⟨cells, rep, named, _⟩, storable⟩
  have saved := saveplaylist_rep last.heap last.filelist cells (fileBytes entries) rep
  rw [named_paths cells after named] at saved
  rw [saved]
  exact ⟨rfl, storable⟩

theorem sessions_agree (entries : List CString) (sessions : List (List Call)) (storable : Storable entries)
    (fits : ∀ calls ∈ sessions, ∀ call ∈ calls, ∀ path ∈ brings call, FitsLine path) :
    Agree (fun disk after => disk = fileBytes after ∧ Storable after)
      (sessions.foldlM runSession (fileBytes entries)) (sessions.flatten.foldlM sequenceCall entries) := by
  induction sessions generalizing entries with
  | nil => exact ⟨rfl, storable⟩
  | cons calls rest ih =>
      rw [List.flatten_cons, List.foldlM_append, List.foldlM_cons]
      apply agree_bind _ _ _ _ _ _ (session_agrees entries calls storable (fits calls List.mem_cons_self))
      rintro disk after ⟨rfl, storable⟩
      exact ih after storable fun later member => fits later (List.mem_cons_of_mem calls member)

-- Closing the player and starting it again between any two calls leaves the
-- file, or the fault, that one run with all the calls leaves.
theorem restarts_invisible (entries : List CString) (sessions : List (List Call)) (storable : Storable entries)
    (fits : ∀ calls ∈ sessions, ∀ call ∈ calls, ∀ path ∈ brings call, FitsLine path) :
    sessions.foldlM runSession (fileBytes entries) = runSession (fileBytes entries) sessions.flatten := by
  have determined : ∀ (disk : List UInt8) (after : List CString), disk = fileBytes after ∧ Storable after →
      disk = fileBytes after := fun _ _ same => same.1
  have apart := sessions_agree entries sessions storable fits
  have whole := session_agrees entries sessions.flatten storable
    (fun call member => by
      obtain ⟨calls, inside, here⟩ := List.mem_flatten.mp member
      exact fits calls inside call here)
  rw [agree_map _ fileBytes determined _ _ apart, agree_map _ fileBytes determined _ _ whole]

theorem two_sessions_invisible :
    [[.addLast ⟨[97], by decide⟩], [.addLast ⟨[98], by decide⟩, .swapNode 0 true none]].foldlM runSession [] =
      runSession [] [.addLast ⟨[97], by decide⟩, .addLast ⟨[98], by decide⟩, .swapNode 0 true none] := by
  apply restarts_invisible [] [[.addLast ⟨[97], by decide⟩], [.addLast ⟨[98], by decide⟩, .swapNode 0 true none]]
  · exact ⟨by simp, by decide⟩
  · simp [brings, FitsLine, newline]

end Slogger.Playlist
