import Slogger.Playlist.Calls
import Slogger.Playlist.PageHead

set_option autoImplicit false

namespace Slogger.Playlist

open Slogger.Lib

inductive Removal where
  | node (address : Nat)
  | path (path : CString)

def Removal.hits : Removal → Nat × Song → Bool
  | .node address, cell => cell.1 = address
  | .path target, cell => cell.2.path = target

def execRemoval (session : Session) (removal : Removal) : Except Fault Session := do
  let removed ←
    match removal with
    | .node address => removeplayNode session.heap session.filelist (some address) session.pagehead
    | .path path => removeplaylist session.heap session.filelist path session.pagehead
  .ok ⟨removed.heap, removed.filelist, removed.pagehead⟩

def without (cells : Cells) (removal : Removal) : Cells := cells.eraseP removal.hits

def Empties : Cells → List Removal → Prop
  | cells, [] => cells = []
  | cells, removal :: rest => (∃ cell ∈ cells, removal.hits cell) ∧ Empties (without cells removal) rest

instance emptiesDecidable : (cells : Cells) → (order : List Removal) → Decidable (Empties cells order)
  | cells, [] => inferInstanceAs (Decidable (cells = []))
  | cells, removal :: rest =>
      haveI := emptiesDecidable (without cells removal) rest
      inferInstanceAs (Decidable ((∃ cell ∈ cells, removal.hits cell) ∧ Empties (without cells removal) rest))

-- What the removals should do: no step faults, every step leaves exactly the
-- other entries, and the last one leaves the empty list and no page head.
def EmptiesCleanly : Session → Cells → List Removal → Prop
  | session, cells, [] => cells = [] ∧ session.filelist = none ∧ session.pagehead = none
  | session, cells, removal :: rest => ∃ next, execRemoval session removal = .ok next ∧
      PlaylistRep next.heap next.filelist (without cells removal) ∧ EmptiesCleanly next (without cells removal) rest

-- What they do: all is well up to the last entry, whose removal reads through
-- the list head it has just set to NULL.
def FaultsOnLast : Session → Cells → List Removal → Prop
  | _, _, [] => False
  | session, _, [removal] => execRemoval session removal = .error .nullDeref
  | session, cells, removal :: rest => ∃ next, execRemoval session removal = .ok next ∧
      PlaylistRep next.heap next.filelist (without cells removal) ∧ HeadIn (without cells removal) next.pagehead ∧
      FaultsOnLast next (without cells removal) rest

theorem removal_node (session : Session) (cells : Cells) (removal : Removal)
    (rep : PlaylistRep session.heap session.filelist cells) (listed : ∃ cell ∈ cells, removal.hits cell) :
    ∃ left cell right, cells = left ++ cell :: right ∧ without cells removal = left ++ right ∧
      execRemoval session removal = (do
        let removed ← removeplayNode session.heap session.filelist (some cell.1) session.pagehead
        .ok ⟨removed.heap, removed.filelist, removed.pagehead⟩) := by
  obtain ⟨hit, member, hits⟩ := listed
  cases removal with
  | node address =>
      obtain ⟨cell, left, right, _, found, split, erased⟩ := List.exists_of_eraseP member hits
      have same : cell.1 = address := by simpa [Removal.hits] using found
      exact ⟨left, cell, right, split, erased, by rw [execRemoval, same]⟩
  | path path =>
      have same : hit.2.path = path := by simpa [Removal.hits] using hits
      have present : path ∈ paths cells := same ▸ List.mem_map_of_mem member
      obtain ⟨left, cell, right, rfl, before, found, completed⟩ :=
        remove_path_present session.heap session.filelist session.pagehead cells path rep present
      have passed : ∀ earlier ∈ left, ¬ (Removal.path path).hits earlier = true := by
        intro earlier early hit
        apply before
        have earlierPath : earlier.2.path = path := by simpa [Removal.hits] using hit
        exact earlierPath ▸ List.mem_map_of_mem early
      refine ⟨left, cell, right, rfl, ?_, ?_⟩
      · rw [without, List.eraseP_append_right _ passed, List.eraseP_cons_of_pos (by simpa [Removal.hits] using found)]
      · simp only [execRemoval, completed]

theorem sole_removal_faults (session : Session) (cells : Cells) (removal : Removal)
    (rep : PlaylistRep session.heap session.filelist cells) (listed : ∃ cell ∈ cells, removal.hits cell)
    (sole : without cells removal = []) : execRemoval session removal = .error .nullDeref := by
  obtain ⟨left, cell, right, rfl, kept, completed⟩ := removal_node session cells removal rep listed
  obtain ⟨rfl, rfl⟩ := List.append_eq_nil_iff.mp (kept ▸ sole)
  rw [completed, remove_sole_node session.heap session.filelist session.pagehead cell.1 cell.2 rep, error_bind]

theorem removal_keeps_others (session : Session) (cells : Cells) (removal : Removal)
    (rep : PlaylistRep session.heap session.filelist cells) (inside : HeadIn cells session.pagehead)
    (listed : ∃ cell ∈ cells, removal.hits cell) (others : without cells removal ≠ []) :
    ∃ next, execRemoval session removal = .ok next ∧
      PlaylistRep next.heap next.filelist (without cells removal) ∧ HeadIn (without cells removal) next.pagehead := by
  obtain ⟨left, cell, right, rfl, kept, completed⟩ := removal_node session cells removal rep listed
  rw [kept] at others ⊢
  obtain ⟨removed, ran, shorter, _, repaired, _⟩ :=
    remove_node_rep session.heap session.filelist session.pagehead left right cell.1 cell.2 rep others
  refine ⟨⟨removed.heap, removed.filelist, removed.pagehead⟩, ?_, shorter, ?_⟩
  · rw [completed, ran, ok_bind]
  · rw [repaired]
    exact repaired_head_in left right cell.1 cell.2 session.pagehead inside others

theorem empties_faults_on_last (session : Session) (cells : Cells) (order : List Removal)
    (rep : PlaylistRep session.heap session.filelist cells) (inside : HeadIn cells session.pagehead)
    (nonempty : cells ≠ []) (empties : Empties cells order) : FaultsOnLast session cells order := by
  induction order generalizing session cells with
  | nil => exact nonempty empties
  | cons removal rest ih =>
      obtain ⟨listed, remaining⟩ := empties
      cases rest with
      | nil => exact sole_removal_faults session cells removal rep listed remaining
      | cons follower rest =>
          have others : without cells removal ≠ [] := by
            intro empty
            obtain ⟨cell, member, _⟩ := remaining.1
            rw [empty] at member
            cases member
          obtain ⟨next, ran, shorter, head⟩ := removal_keeps_others session cells removal rep inside listed others
          exact ⟨next, ran, shorter, head, ih next (without cells removal) shorter head others remaining⟩

theorem faulting_not_clean (session : Session) (cells : Cells) (order : List Removal)
    (faults : FaultsOnLast session cells order) : ¬ EmptiesCleanly session cells order := by
  induction order generalizing session cells with
  | nil => exact fun _ => faults
  | cons removal rest ih =>
      rintro ⟨next, ran, _, clean⟩
      cases rest with
      | nil =>
          rw [FaultsOnLast, ran] at faults
          cases faults
      | cons follower rest =>
          obtain ⟨other, same, _, _, later⟩ := faults
          obtain rfl : next = other := Except.ok.inj (ran.symm.trans same)
          exact ih next (without cells removal) later clean

theorem emptying_faults_on_last (session : Session) (cells : Cells) (order : List Removal)
    (rep : PlaylistRep session.heap session.filelist cells) (inside : HeadIn cells session.pagehead)
    (nonempty : cells ≠ []) (empties : Empties cells order) :
    FaultsOnLast session cells order ∧ ¬ EmptiesCleanly session cells order := by
  have faults := empties_faults_on_last session cells order rep inside nonempty empties
  exact ⟨faults, faulting_not_clean session cells order faults⟩

theorem emptying_two_faults :
    FaultsOnLast ⟨(builtList twoSongs).heap, some 0, some 1⟩ (builtCells twoSongs) [.node 1, .path ⟨[97], by decide⟩] ∧
      ¬ EmptiesCleanly ⟨(builtList twoSongs).heap, some 0, some 1⟩ (builtCells twoSongs)
        [.node 1, .path ⟨[97], by decide⟩] := by
  apply emptying_faults_on_last
  · decide +kernel
  · intro address atHead
    cases atHead
    decide +kernel
  · decide +kernel
  · decide +kernel

theorem one_entry_not_emptied :
    PlaylistRep (builtList [⟨[97], by decide⟩]).heap (some 0) (builtCells [⟨[97], by decide⟩]) ∧
      Empties (builtCells [⟨[97], by decide⟩]) [.node 0] ∧
      ¬ EmptiesCleanly ⟨(builtList [⟨[97], by decide⟩]).heap, some 0, none⟩ (builtCells [⟨[97], by decide⟩]) [.node 0] := by
  refine ⟨by decide +kernel, by decide +kernel, ?_⟩
  rintro ⟨next, ran, _⟩
  have faulted : (execRemoval ⟨(builtList [⟨[97], by decide⟩]).heap, some 0, none⟩ (.node 0)).isOk = false := by
    decide +kernel
  rw [ran] at faulted
  cases faulted

end Slogger.Playlist
