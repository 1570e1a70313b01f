import Slogger.Lib.Runs
import Slogger.Playlist.File
import Slogger.Playlist.Page
import Slogger.Playlist.Prepend
import Slogger.Playlist.Remove
import Slogger.Playlist.Swap

set_option autoImplicit false

namespace Slogger.Playlist

open Slogger.Lib

structure Session where
  heap : NodeHeap
  filelist : Pointer
  pagehead : Pointer

inductive PageCall where
  | addLast (path : CString)
  | addFront (path : CString)
  | remove (path : CString)
  | removeNode (position : Nat)
  | swap (path : CString) (next : Bool) (selnode : Pointer)
  | page (next : Bool)

def execPage (session : Session) : PageCall → Except Fault Session
  | .addLast path => do
      let added ← addplaylistLast session.heap session.filelist path
      .ok ⟨added.heap, added.filelist, session.pagehead⟩
  | .addFront path => do
      let added ← addplaylistFront session.heap session.filelist path
      .ok ⟨added.heap, added.filelist, session.pagehead⟩
  | .remove path => do
      let removed ← removeplaylist session.heap session.filelist path session.pagehead
      .ok ⟨removed.heap, removed.filelist, removed.pagehead⟩
  | .removeNode position => do
      let node ← nodeAt session.heap position session.filelist
      let removed ← removeplayNode session.heap session.filelist node session.pagehead
      .ok ⟨removed.heap, removed.filelist, removed.pagehead⟩
  | .swap path next selnode => do
      let swapped ← swapplaylist session.heap session.filelist path next selnode
      .ok ⟨swapped.heap, session.filelist, session.pagehead⟩
  | .page next => do
      let (pagehead, _) ← getPage session.heap session.filelist next session.pagehead
      .ok ⟨session.heap, session.filelist, pagehead⟩

def pageStep (session : Session) (call : PageCall) : Option Session := (execPage session call).toOption

def emptySession : Session := ⟨Heap.empty, none, none⟩

def HeadOnList (session : Session) : Prop :=
  session.pagehead = none ∨ ∃ position, nodeAt session.heap position session.filelist = .ok session.pagehead

-- The add calls that free the node of the page head: the list has its sixteen
-- entries and the page head stands at the end that gives way.
def EvictsHead (session : Session) : PageCall → Prop
  | .addLast _ => session.pagehead = session.filelist ∧
      ∃ last, nodeAt session.heap (maxPlayListLen - 1) session.filelist = .ok (some last)
  | .addFront _ => session.pagehead ≠ none ∧
      nodeAt session.heap (maxPlayListLen - 1) session.filelist = .ok session.pagehead
  | _ => False

def HeadIn (cells : Cells) (pagehead : Pointer) : Prop :=
  ∀ address, pagehead = some address → address ∈ addresses cells

def Bounded (session : Session) : Prop :=
  ∃ cells, PlaylistRep session.heap session.filelist cells ∧ cells.length ≤ maxPlayListLen

def HeadStep (session : Session) (call : PageCall) (next : Session) : Prop :=
  ∃ after, PlaylistRep next.heap next.filelist after ∧ after.length ≤ maxPlayListLen ∧
    (HeadIn after next.pagehead ↔ ¬ EvictsHead session call)

theorem member_place (cells : Cells) (address : Nat) (member : address ∈ addresses cells) :
    ∃ position, place cells position = some address := by
  obtain ⟨cell, inCells, rfl⟩ := List.mem_map.mp member
  obtain ⟨left, right, rfl⟩ := List.append_of_mem inCells
  exact ⟨left.length, place_middle left right cell⟩

theorem head_on_list_iff (session : Session) (cells : Cells)
    (rep : PlaylistRep session.heap session.filelist cells) :
    HeadOnList session ↔ HeadIn cells session.pagehead := by
  constructor
  · rintro (null | ⟨position, found⟩) address atHead
    · rw [null] at atHead
      cases atHead
    · rw [node_at_rep session.heap session.filelist cells position rep, atHead] at found
      exact place_member cells position address (Except.ok.inj found)
  · intro inside
    cases atHead : session.pagehead with
    | none => exact .inl atHead
    | some address =>
        obtain ⟨position, here⟩ := member_place cells address (inside address atHead)
        exact .inr ⟨position, by rw [node_at_rep session.heap session.filelist cells position rep, here, atHead]⟩

theorem evicted_head_in (cells after : Cells) (pagehead : Pointer) (gone : Nat) (inside : HeadIn cells pagehead)
    (absent : gone ∉ addresses after)
    (others : ∀ address ∈ addresses cells, address ≠ gone → address ∈ addresses after) :
    HeadIn after pagehead ↔ pagehead ≠ some gone := by
  constructor
  · intro kept atGone
    exact absent (kept gone atGone)
  · intro elsewhere address atHead
    exact others address (inside address atHead) fun same => elsewhere (same ▸ atHead)

theorem add_last_head (session next : Session) (path : CString) (cells : Cells)
    (rep : PlaylistRep session.heap session.filelist cells) (within : cells.length ≤ maxPlayListLen)
    (inside : HeadIn cells session.pagehead) (ran : execPage session (.addLast path) = .ok next) :
    HeadStep session (.addLast path) next := by
  obtain ⟨added, completed, longer, _⟩ := add_last_rep session.heap session.filelist cells path rep
  simp only [execPage, completed, ok_bind, Except.ok.injEq] at ran
  subst ran
  refine ⟨_, longer, push_last_length maxPlayListLen cells (session.heap.bound, songOf path) (by decide) within, ?_⟩
  simp only [EvictsHead, node_at_rep session.heap session.filelist cells _ rep, Except.ok.injEq]
  by_cases full : cells.length = maxPlayListLen
  · obtain ⟨first, rest, rfl⟩ := List.exists_cons_of_length_eq_add_one full
    have distinct := List.nodup_cons.mp rep.distinct
    have present : ∃ last, place (first :: rest) (maxPlayListLen - 1) = some last :=
      place_inside _ _ (by rw [full]; decide)
    have below := segment_below none none (first :: rest) rep.segment first.1 (by simp)
    have absent : first.1 ∉ addresses (rest ++ [(session.heap.bound, songOf path)]) := by
      rw [addresses_append, List.mem_append, not_or]
      exact ⟨distinct.1, by simpa [addresses] using Nat.ne_of_lt below⟩
    rw [evictHead, if_pos full, rep.entry, first_of_cons, and_iff_left present, List.tail_cons]
    apply evicted_head_in (first :: rest) _ session.pagehead first.1 inside absent
    intro address member other
    rw [addresses_cons, List.mem_cons] at member
    simp [member.resolve_left other]
  · have short : cells.length ≤ maxPlayListLen - 1 := by
      simp only [maxPlayListLen] at full within ⊢
      omega
    rw [evictHead, if_neg full, place_outside cells _ short]
    constructor
    · rintro _ ⟨_, last, present⟩
      cases present
    · intro _ address atHead
      simp [inside address atHead]

theorem add_front_head (session next : Session) (path : CString) (cells : Cells)
    (rep : PlaylistRep session.heap session.filelist cells) (within : cells.length ≤ maxPlayListLen)
    (inside : HeadIn cells session.pagehead) (ran : execPage session (.addFront path) = .ok next) :
    HeadStep session (.addFront path) next := by
  have nonempty : cells ≠ [] := by
    intro empty
    have null : session.filelist = none := (linked_null session.filelist cells rep).mpr empty
    simp only [execPage, null, add_front_null, error_bind] at ran
    cases ran
  obtain ⟨added, completed, _, longer, _⟩ := add_front_rep session.heap session.filelist cells path rep nonempty
  simp only [execPage, completed, ok_bind, Except.ok.injEq] at ran
  subst ran
  refine ⟨_, longer, push_first_length maxPlayListLen cells (session.heap.bound, songOf path) (by decide) within, ?_⟩
  simp only [EvictsHead, node_at_rep session.heap session.filelist cells _ rep, Except.ok.injEq]
  by_cases full : cells.length = maxPlayListLen
  · obtain ⟨front, last, rfl⟩ := (List.eq_nil_or_concat' cells).resolve_left nonempty
    have lastOutside : last.1 ∉ addresses front := (distinct_around front [] last rep.distinct).notBefore
    have below := segment_below none none (front ++ [last]) rep.segment last.1 (by simp)
    have position : front.length = maxPlayListLen - 1 := by
      rw [← full]
      simp
    have atLast : place (front ++ [last]) (maxPlayListLen - 1) = some last.1 := by
      rw [← position]
      exact place_middle front [] last
    have absent : last.1 ∉ addresses ((session.heap.bound, songOf path) :: front) := by
      rw [addresses_cons, List.mem_cons, not_or]
      exact ⟨Nat.ne_of_lt below, lastOutside⟩
    have present : session.pagehead ≠ none ∧ some last.1 = session.pagehead ↔ session.pagehead = some last.1 := by
      constructor
      · intro evicts
        exact evicts.2.symm
      · intro same
        simp [same]
    rw [evictTail, if_pos full, List.dropLast_concat, atLast, present]
    apply evicted_head_in (front ++ [last]) _ session.pagehead last.1 inside absent
    intro address member other
    rw [addresses_append, List.mem_append] at member
    have early := member.resolve_right (by simpa [addresses] using other)
    simp [early]
  · have short : cells.length ≤ maxPlayListLen - 1 := by
      simp only [maxPlayListLen] at full within ⊢
      omega
    rw [evictTail, if_neg full, place_outside cells _ short]
    constructor
    · rintro _ ⟨present, null⟩
      exact present null.symm
    · intro _ address atHead
      simp [inside address atHead]

theorem repaired_head_in (left right : Cells) (address : Nat) (song : Song) (pagehead : Pointer)
    (inside : HeadIn (left ++ (address, song) :: right) pagehead) (others : left ++ right ≠ []) :
    HeadIn (left ++ right) (repairedHead left address right pagehead) := by
  intro target atHead
  rw [repairedHead] at atHead
  split at atHead
  · cases right with
    | nil =>
        obtain ⟨front, last, rfl⟩ := (List.eq_nil_or_concat' left).resolve_left (by simpa using others)
        have same : last.1 = target := by simpa [firstOf, lastOf] using atHead
        simp [← same]
    | cons follower rest =>
        have same : follower.1 = target := by simpa using atHead
        simp [← same]
  · rename_i different
    have member := inside target atHead
    have other : target ≠ address := fun same => different (by rw [atHead, same])
    simpa [other] using member

theorem remove_node_step (session next : Session) (call : PageCall) (left right : Cells) (cell : Nat × Song)
    (rep : PlaylistRep session.heap session.filelist (left ++ cell :: right))
    (within : (left ++ cell :: right).length ≤ maxPlayListLen)
    (inside : HeadIn (left ++ cell :: right) session.pagehead) (harmless : ¬ EvictsHead session call)
    (ran : (do
      let removed ← removeplayNode session.heap session.filelist (some cell.1) session.pagehead
      .ok ⟨removed.heap, removed.filelist, removed.pagehead⟩ : Except Fault Session) = .ok next) :
    HeadStep session call next := by
  by_cases sole : left ++ right = []
  · obtain ⟨rfl, rfl⟩ := List.append_eq_nil_iff.mp sole
    rw [remove_sole_node session.heap session.filelist session.pagehead cell.1 cell.2 rep, error_bind] at ran
    cases ran
  · obtain ⟨removed, completed, shorter, _, repaired, _⟩ :=
      remove_node_rep session.heap session.filelist session.pagehead left right cell.1 cell.2 rep sole
    rw [completed, ok_bind, Except.ok.injEq] at ran
    subst ran
    refine ⟨left ++ right, shorter, ?_, ?_⟩
    · simp only [List.length_append, List.length_cons] at within ⊢
      omega
    · rw [repaired]
      exact ⟨fun _ => harmless, fun _ => repaired_head_in left right cell.1 cell.2 session.pagehead inside sole⟩

theorem remove_path_head (session next : Session) (path : CString) (cells : Cells)
    (rep : PlaylistRep session.heap session.filelist cells) (within : cells.length ≤ maxPlayListLen)
    (inside : HeadIn cells session.pagehead) (ran : execPage session (.remove path) = .ok next) :
    HeadStep session (.remove path) next := by
  by_cases present : path ∈ paths cells
  · obtain ⟨left, cell, right, rfl, _, _, completed⟩ :=
      remove_path_present session.heap session.filelist session.pagehead cells path rep present
    rw [execPage, completed] at ran
    exact remove_node_step session next _ left right cell rep within inside id ran
  · have completed := remove_path_absent session.heap session.filelist session.pagehead cells path rep present
    rw [execPage, completed, ok_bind, Except.ok.injEq] at ran
    subst ran
    exact ⟨cells, rep, within, fun _ => id, fun _ => inside⟩

theorem remove_position_head (session next : Session) (position : Nat) (cells : Cells)
    (rep : PlaylistRep session.heap session.filelist cells) (within : cells.length ≤ maxPlayListLen)
    (inside : HeadIn cells session.pagehead) (ran : execPage session (.removeNode position) = .ok next) :
    HeadStep session (.removeNode position) next := by
  rw [execPage, node_at_rep session.heap session.filelist cells position rep, ok_bind] at ran
  by_cases listed : position < cells.length
  · obtain ⟨left, cell, right, rfl, rfl⟩ := split_at cells position listed
    rw [place_middle] at ran
    exact remove_node_step session next _ left right cell rep within inside id ran
  · rw [place_outside cells position (Nat.le_of_not_lt listed)] at ran
    cases ran
    exact ⟨cells, rep, within, fun _ => id, fun _ => inside⟩

theorem swap_head (session next : Session) (path : CString) (forward : Bool) (selnode : Pointer) (cells : Cells)
    (rep : PlaylistRep session.heap session.filelist cells) (within : cells.length ≤ maxPlayListLen)
    (inside : HeadIn cells session.pagehead) (ran : execPage session (.swap path forward selnode) = .ok next) :
    HeadStep session (.swap path forward selnode) next := by
  simp only [execPage, swapplaylist, find_path_playlist session.heap session.filelist cells path rep, ok_bind] at ran
  rcases first_path_split cells path with ⟨_, searched⟩ | ⟨left, cell, right, rfl, _, _, searched⟩
  · rw [searched] at ran
    cases ran
    exact ⟨cells, rep, within, fun _ => id, fun _ => inside⟩
  · obtain ⟨swapped, after, completed, represented, _, same, _⟩ :=
      swap_node_rep session.heap session.filelist selnode left right cell.1 cell.2 forward rep
    simp only [searched, Option.map_some, completed, ok_bind, Except.ok.injEq] at ran
    subst ran
    have length := congrArg List.length same
    simp only [addresses, List.length_map] at length
    refine ⟨after, represented, length ▸ within, fun _ => id, fun _ address atHead => ?_⟩
    rw [same]
    exact inside address atHead

theorem page_head_place (session : Session) (forward : Bool) (cells : Cells)
    (rep : PlaylistRep session.heap session.filelist cells) (inside : HeadIn cells session.pagehead) :
    ∃ position more, getPage session.heap session.filelist forward session.pagehead =
      .ok (place cells position, more) := by
  cases atHead : session.pagehead with
  | none =>
      cases forward with
      | true => exact ⟨_, _, get_page_next_null session.heap session.filelist cells rep⟩
      | false => exact ⟨_, _, get_page_prev_null session.heap session.filelist cells rep⟩
  | some address =>
      obtain ⟨position, here⟩ := member_place cells address (inside address atHead)
      have listed : position < cells.length := by
        by_contra outside
        rw [place_outside cells position (Nat.le_of_not_lt outside)] at here
        cases here
      rw [← here]
      cases forward with
      | true => exact ⟨_, _, get_page_next session.heap session.filelist cells position rep listed⟩
      | false => exact ⟨_, _, get_page_prev session.heap session.filelist cells position rep listed⟩

theorem page_head (session next : Session) (forward : Bool) (cells : Cells)
    (rep : PlaylistRep session.heap session.filelist cells) (within : cells.length ≤ maxPlayListLen)
    (inside : HeadIn cells session.pagehead) (ran : execPage session (.page forward) = .ok next) :
    HeadStep session (.page forward) next := by
  obtain ⟨position, more, paged⟩ := page_head_place session forward cells rep inside
  simp only [execPage, paged, ok_bind, Except.ok.injEq] at ran
  subst ran
  exact ⟨cells, rep, within, fun _ => id, fun _ address here => place_member cells position address here⟩

theorem page_call_step (session next : Session) (call : PageCall) (bounded : Bounded session)
    (onList : HeadOnList session) (ran : execPage session call = .ok next) : HeadStep session call next := by
  obtain ⟨cells, rep, within⟩ := bounded
  have inside := (head_on_list_iff session cells rep).mp onList
  cases call with
  | addLast path => exact add_last_head session next path cells rep within inside ran
  | addFront path => exact add_front_head session next path cells rep within inside ran
  | remove path => exact remove_path_head session next path cells rep within inside ran
  | removeNode position => exact remove_position_head session next position cells rep within inside ran
  | swap path forward selnode => exact swap_head session next path forward selnode cells rep within inside ran
  | page forward => exact page_head session next forward cells rep within inside ran

theorem page_step_ran (session next : Session) (call : PageCall) (stepped : pageStep session call = some next) :
    execPage session call = .ok next := by
  rw [pageStep] at stepped
  cases ran : execPage session call with
  | error fault =>
      rw [ran] at stepped
      cases stepped
  | ok reached =>
      rw [ran] at stepped
      cases stepped
      rfl

theorem head_kept_iff (session next : Session) (call : PageCall) (bounded : Bounded session)
    (onList : HeadOnList session) (stepped : pageStep session call = some next) :
    HeadOnList next ↔ ¬ EvictsHead session call := by
  have ran := page_step_ran session next call stepped
  obtain ⟨after, rep, _, kept⟩ := page_call_step session next call bounded onList ran
  rw [head_on_list_iff next after rep]
  exact kept

theorem bounded_step (session : Session) (call : PageCall) (next : Session) (bounded : Bounded session)
    (onList : HeadOnList session) (stepped : pageStep session call = some next) : Bounded next := by
  have ran := page_step_ran session next call stepped
  obtain ⟨after, rep, within, _⟩ := page_call_step session next call bounded onList ran
  exact ⟨after, rep, within⟩

theorem empty_bounded : Bounded emptySession :=
  ⟨[], (linked_empty none).mpr rfl, Nat.zero_le _⟩

theorem page_head_kept_iff_never_evicted (calls : List PageCall) :
    Always HeadOnList emptySession (trace pageStep emptySession calls) ↔
      EveryStep (fun session call => ¬ EvictsHead session call) emptySession (trace pageStep emptySession calls) := by
  apply always_iff_every_step (fun session call next => pageStep session call = some next) Bounded HeadOnList
  · exact bounded_step
  · intro session call next bounded onList ran safe
    exact (head_kept_iff session next call bounded onList ran).mpr safe
  · intro session call next bounded onList ran evicted kept
    exact evicted ((head_kept_iff session next call bounded onList ran).mp kept)
  · exact trace_is_run pageStep emptySession calls
  · exact empty_bounded
  · exact .inl rfl

def pageThenOverfill : List PageCall :=
  (List.replicate maxPlayListLen (.addLast (cString [97]))) ++ [.page true, .addLast (cString [98])]

theorem page_head_evicted : ¬ Always HeadOnList emptySession (trace pageStep emptySession pageThenOverfill) := by
  intro always
  have isRun := trace_is_run pageStep emptySession pageThenOverfill
  have bounded := always_invariant _ Bounded HeadOnList bounded_step emptySession _ isRun empty_bounded always
  have onList := always_finish HeadOnList emptySession _ always
  obtain ⟨cells, rep, _⟩ := always_finish Bounded emptySession _ bounded
  have atHead : (finish emptySession (trace pageStep emptySession pageThenOverfill)).pagehead = some 0 := by
    decide +kernel
  have freed : (finish emptySession (trace pageStep emptySession pageThenOverfill)).heap.cell 0 = none := by
    decide +kernel
  have member := (head_on_list_iff _ cells rep).mp onList 0 atHead
  obtain ⟨cell, listed, here⟩ := List.mem_map.mp member
  obtain ⟨node, allocated, _⟩ := segment_member none none cells cell rep.segment listed
  rw [here, freed] at allocated
  cases allocated

end Slogger.Playlist
