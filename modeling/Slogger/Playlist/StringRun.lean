import Slogger.Playlist.Strings

set_option autoImplicit false

namespace Slogger.Playlist

open Slogger.Lib

structure StringList where
  memory : Memory
  filelist : Pointer

def emptyStrings : StringList := ⟨Memory.empty, none⟩

def execStrings (state : StringList) : Call → Except Fault StringList
  | .addLast path => do
      let (memory, filelist) ← state.memory.addplaylistLast state.filelist path
      .ok ⟨memory, filelist⟩
  | .addFront path => do
      let (memory, filelist) ← state.memory.addplaylistFront state.filelist path
      .ok ⟨memory, filelist⟩
  | .remove path pagehead => do
      let (memory, filelist, _, _) ← state.memory.removeplaylist state.filelist path pagehead
      .ok ⟨memory, filelist⟩
  | .removeNode position pagehead => do
      let node ← state.memory.nodeAt position state.filelist
      let (memory, filelist, _, _) ← state.memory.removeplayNode state.filelist node pagehead
      .ok ⟨memory, filelist⟩
  | .swap path next selnode => do
      let (memory, _, _) ← state.memory.swapplaylist state.filelist path next selnode
      .ok ⟨memory, state.filelist⟩
  | .swapNode position next selnode => do
      let node ← state.memory.nodeAt position state.filelist
      let (memory, _, _) ← state.memory.swapplayNode node next selnode
      .ok ⟨memory, state.filelist⟩
  | .read file => do
      let (memory, filelist) ←
        state.memory.readplaylist state.filelist (file.map fun opened => ⟨opened.1, opened.2, false⟩)
      .ok ⟨memory, filelist⟩

def Carries (code : Memory × Pointer) (list : NodeHeap × Pointer) : Prop :=
  Realizes code.1 list.1 ∧ code.2 = list.2

section Agreement

variable (memory : Memory) (heap : NodeHeap)

theorem last_walk_agrees (real : Realizes memory heap) (fuel : Nat) (list prv : Pointer) (count : Nat) :
    Agree Eq (memory.lastWalk fuel list prv count) (lastWalk heap fuel list prv count) := by
  induction fuel generalizing list prv count with
  | zero => cases list <;> exact rfl
  | succ fuel ih =>
      cases list with
      | none => exact rfl
      | some address =>
          apply agree_bind (Found memory (some address)) _ _ _ _ _ (deref_agrees memory heap real (some address))
          intro node value found
          rw [(found_links memory _ node value found).1]
          exact ih value.next (some address) (count + 1)

theorem evict_first_agrees (real : Realizes memory heap) (filelist : Pointer) :
    Agree Carries (memory.evictFirst filelist) (evictFirst heap filelist) := by
  apply agree_bind (Found memory filelist) _ _ _ _ _ (deref_agrees memory heap real filelist)
  intro first value found
  rw [(found_links memory filelist first value found).1]
  obtain ⟨address, rfl, _⟩ := found.here
  apply agree_bind Realizes _ _ _ _ _ (free_agrees memory heap real address)
  intro freed shorter real
  apply agree_bind Realizes _ _ _ _ _ (set_prv_agrees freed shorter real value.next none)
  intro _ _ real
  exact ⟨real, rfl⟩

theorem link_last_agrees (real : Realizes memory heap) (filelist prv : Pointer) (path : CString) :
    Agree Carries (memory.linkLast filelist prv path) (linkLast heap filelist prv path) := by
  have created := create_realizes memory heap real path prv
  have bound : memory.nodes.bound = heap.bound := congrArg Heap.bound real.values
  unfold Memory.linkLast linkLast
  rw [bound]
  cases prv with
  | some last =>
      apply agree_bind Realizes _ _ _ _ _ (set_next_agrees _ _ created (some last) (some heap.bound))
      intro _ _ real
      exact ⟨real, rfl⟩
  | none =>
      cases filelist with
      | some first =>
          apply agree_bind Realizes _ _ _ _ _ (set_next_agrees _ _ created (some first) (some heap.bound))
          intro _ _ real
          exact ⟨real, rfl⟩
      | none => exact ⟨created, rfl⟩

theorem add_last_agrees (real : Realizes memory heap) (filelist : Pointer) (path : CString) :
    Agree (fun code (added : Added) => Carries code (added.heap, added.filelist))
      (memory.addplaylistLast filelist path) (addplaylistLast heap filelist path) := by
  have bound : memory.nodes.bound = heap.bound := congrArg Heap.bound real.values
  rw [Memory.addplaylistLast, addplaylistLast, bound]
  apply agree_bind Eq _ _ _ _ _ (last_walk_agrees memory heap real _ filelist none 0)
  rintro ⟨prv, count⟩ _ rfl
  have linked : ∀ code list, Carries code list →
      Agree (fun code (added : Added) => Carries code (added.heap, added.filelist))
        (code.1.linkLast code.2 prv path)
        (linkLast list.1 list.2 prv path >>= fun pair => .ok ⟨pair.1, pair.2, bufferAfter path⟩) := by
    rintro ⟨memory, head⟩ ⟨heap, _⟩ ⟨real, rfl⟩
    have agree := link_last_agrees memory heap real head prv path
    rw [← bind_pure (Memory.linkLast _ _ _ _)]
    apply agree_bind Carries _ _ _ _ _ agree
    intro code list carried
    exact carried
  dsimp only
  split
  · exact agree_bind Carries _ _ _ _ _ (evict_first_agrees memory heap real filelist) linked
  · exact linked (memory, filelist) (heap, filelist) ⟨real, rfl⟩

theorem front_walk_agrees (real : Realizes memory heap) (fuel : Nat) (list prvtoPrv : Pointer) (count : Nat) :
    Agree Eq (memory.frontWalk fuel list prvtoPrv count) (frontWalk heap fuel list prvtoPrv count) := by
  induction fuel generalizing list prvtoPrv count with
  | zero => cases list <;> exact rfl
  | succ fuel ih =>
      cases list with
      | none => exact rfl
      | some address =>
          apply agree_bind (Found memory (some address)) _ _ _ _ _ (deref_agrees memory heap real (some address))
          intro node value found
          dsimp only
          rw [(found_links memory _ node value found).1]
          cases value.next with
          | none => exact ih none prvtoPrv (count + 1)
          | some follower =>
              apply agree_bind (Found memory (some follower)) _ _ _ _ _ (deref_agrees memory heap real (some follower))
              intro after shown behind
              rw [(found_links memory _ after shown behind).1]
              exact ih (some follower) _ (count + 1)

theorem deref_release (last : Nat) (rest : NodeHeap → Except Fault NodeHeap) :
    (heap.deref (some last) >>= fun _ => heap.release (some last) >>= rest) = heap.release (some last) >>= rest := by
  cases read : heap.cell last with
  | none =>
      simp only [Heap.deref, Heap.release, read]
      rfl
  | some node => rw [heap.deref_read last node read, ok_bind]

theorem evict_last_agrees (real : Realizes memory heap) (prvtoPrv : Pointer) :
    Agree Realizes (memory.evictLast prvtoPrv) (evictLast heap prvtoPrv) := by
  cases prvtoPrv with
  | none => exact real
  | some address =>
      apply agree_bind (Found memory (some address)) _ _ _ _ _ (deref_agrees memory heap real (some address))
      intro keeper value found
      rw [(found_links memory _ keeper value found).1]
      cases value.next with
      | none => exact rfl
      | some last =>
          rw [deref_release]
          apply agree_bind Realizes _ _ _ _ _ (free_agrees memory heap real last)
          intro freed shorter real
          exact set_next_agrees freed shorter real (some address) none

theorem link_front_agrees (real : Realizes memory heap) (filelist : Pointer) (path : CString) :
    Agree Carries (memory.linkFront filelist path) (linkFront heap filelist path) := by
  have created := create_realizes memory heap real path none
  have bound : memory.nodes.bound = heap.bound := congrArg Heap.bound real.values
  rw [Memory.linkFront, linkFront, bound]
  apply agree_bind Realizes _ _ _ _ _ (set_prv_agrees _ _ created filelist (some heap.bound))
  intro linked longer real
  apply agree_bind Realizes _ _ _ _ _ (set_next_agrees linked longer real (some heap.bound) filelist)
  intro _ _ real
  exact ⟨real, rfl⟩

theorem add_front_agrees (real : Realizes memory heap) (filelist : Pointer) (path : CString) :
    Agree (fun code (added : Added) => Carries code (added.heap, added.filelist))
      (memory.addplaylistFront filelist path) (addplaylistFront heap filelist path) := by
  have bound : memory.nodes.bound = heap.bound := congrArg Heap.bound real.values
  rw [Memory.addplaylistFront, addplaylistFront, bound]
  apply agree_bind Eq _ _ _ _ _ (front_walk_agrees memory heap real _ filelist none 0)
  rintro ⟨prvtoPrv, count⟩ _ rfl
  have linked : ∀ memory heap, Realizes memory heap →
      Agree (fun code (added : Added) => Carries code (added.heap, added.filelist))
        (memory.linkFront filelist path)
        (linkFront heap filelist path >>= fun pair => .ok ⟨pair.1, pair.2, bufferAfter path⟩) := by
    intro memory heap real
    have agree := link_front_agrees memory heap real filelist path
    rw [← bind_pure (Memory.linkFront _ _ _)]
    apply agree_bind Carries _ _ _ _ _ agree
    intro code list carried
    exact carried
  dsimp only
  split
  · exact agree_bind Realizes _ _ _ _ _ (evict_last_agrees memory heap real prvtoPrv) linked
  · exact linked memory heap real

theorem unlink_agrees (real : Realizes memory heap) (filelist node : Pointer) :
    Agree Carries (memory.unlinkNode filelist node) (unlinkNode heap filelist node) := by
  apply agree_bind (Found memory node) _ _ _ _ _ (deref_agrees memory heap real node)
  intro here value found
  obtain ⟨next, prv⟩ := found_links memory node here value found
  dsimp only
  rw [next, prv]
  cases value.prv with
  | none =>
      apply agree_bind Realizes _ _ _ _ _ (set_prv_agrees memory heap real value.next none)
      intro _ _ real
      exact ⟨real, rfl⟩
  | some before =>
      apply agree_bind Realizes _ _ _ _ _ (set_next_agrees memory heap real (some before) value.next)
      intro memory heap real
      apply agree_bind (Found memory node) _ _ _ _ _ (deref_agrees memory heap real node)
      intro again shown met
      rw [(found_links memory node again shown met).1]
      cases shown.next with
      | none => exact ⟨real, rfl⟩
      | some after =>
          apply agree_bind Realizes _ _ _ _ _ (set_prv_agrees memory heap real (some after) (some before))
          intro _ _ real
          exact ⟨real, rfl⟩

def Removes (code : Memory × Pointer × Pointer × Bool) (removed : Removed) : Prop :=
  Realizes code.1 removed.heap ∧ code.2 = (removed.filelist, removed.pagehead, removed.result)

theorem remove_node_agrees (real : Realizes memory heap) (filelist node pagehead : Pointer) :
    Agree Removes (memory.removeplayNode filelist node pagehead) (removeplayNode heap filelist node pagehead) := by
  cases node with
  | none => exact ⟨real, rfl⟩
  | some address =>
      apply agree_bind (Found memory (some address)) _ _ _ _ _ (deref_agrees memory heap real (some address))
      intro tmp value found
      obtain ⟨next, prv⟩ := found_links memory _ tmp value found
      dsimp only
      rw [next, prv]
      apply agree_bind Carries _ _ _ _ _ (unlink_agrees memory heap real filelist (some address))
      rintro ⟨memory, head⟩ ⟨heap, _⟩ ⟨real, rfl⟩
      apply agree_bind Realizes _ _ _ _ _ (free_agrees memory heap real address)
      intro _ _ real
      exact ⟨real, rfl⟩

theorem find_agrees (real : Realizes memory heap) (path : CString) (fuel : Nat) (list : Pointer) :
    Agree Eq (memory.findPath path fuel list) (findPath heap path fuel list) := by
  induction fuel generalizing list with
  | zero => cases list <;> exact rfl
  | succ fuel ih =>
      cases list with
      | none => exact rfl
      | some address =>
          apply agree_bind (Found memory (some address)) _ _ _ _ _ (deref_agrees memory heap real (some address))
          intro node value found
          have text := found_path memory _ node value found
          rw [text, ok_bind, (found_links memory _ node value found).1]
          split
          · exact rfl
          · exact ih value.next

theorem node_at_agrees (real : Realizes memory heap) (position : Nat) (list : Pointer) :
    Agree Eq (memory.nodeAt position list) (nodeAt heap position list) := by
  induction position generalizing list with
  | zero => cases list <;> exact rfl
  | succ position ih =>
      cases list with
      | none => exact rfl
      | some address =>
          apply agree_bind (Found memory (some address)) _ _ _ _ _ (deref_agrees memory heap real (some address))
          intro node value found
          rw [(found_links memory _ node value found).1]
          exact ih value.next

theorem remove_path_agrees (real : Realizes memory heap) (filelist : Pointer) (path : CString) (pagehead : Pointer) :
    Agree Removes (memory.removeplaylist filelist path pagehead) (removeplaylist heap filelist path pagehead) := by
  have bound : memory.nodes.bound = heap.bound := congrArg Heap.bound real.values
  rw [Memory.removeplaylist, removeplaylist, bound]
  apply agree_bind Eq _ _ _ _ _ (find_agrees memory heap real path _ filelist)
  rintro list _ rfl
  cases list with
  | none => exact ⟨real, rfl⟩
  | some address => exact remove_node_agrees memory heap real filelist (some address) pagehead

def Swaps (code : Memory × Pointer × Bool) (swapped : Swapped) : Prop :=
  Realizes code.1 swapped.heap ∧ code.2 = (swapped.selnode, swapped.result)

theorem swap_node_agrees (real : Realizes memory heap) (node : Pointer) (next : Bool) (selnode : Pointer) :
    Agree Swaps (memory.swapplayNode node next selnode) (swapplayNode heap node next selnode) := by
  apply agree_bind (Found memory node) _ _ _ _ _ (deref_agrees memory heap real node)
  intro here value found
  obtain ⟨follower, before⟩ := found_links memory node here value found
  dsimp only
  rw [follower, before]
  have exchanged : ∀ partner moved, Agree Swaps
      (memory.exchange node partner >>= fun memory => .ok (memory, moved, true))
      (exchange heap node partner >>= fun heap => .ok ⟨heap, moved, true⟩) := by
    intro partner moved
    apply agree_bind Realizes _ _ _ _ _ (exchange_agrees memory heap real node partner)
    intro _ _ real
    exact ⟨real, rfl⟩
  cases next with
  | true =>
      cases value.next with
      | none => exact ⟨real, rfl⟩
      | some partner => exact exchanged (some partner) _
  | false =>
      cases value.prv with
      | none => exact ⟨real, rfl⟩
      | some partner => exact exchanged (some partner) _

theorem swap_path_agrees (real : Realizes memory heap) (filelist : Pointer) (path : CString) (next : Bool)
    (selnode : Pointer) :
    Agree Swaps (memory.swapplaylist filelist path next selnode) (swapplaylist heap filelist path next selnode) := by
  have bound : memory.nodes.bound = heap.bound := congrArg Heap.bound real.values
  rw [Memory.swapplaylist, swapplaylist, bound]
  apply agree_bind Eq _ _ _ _ _ (find_agrees memory heap real path _ filelist)
  rintro list _ rfl
  cases list with
  | none => exact ⟨real, rfl⟩
  | some address => exact swap_node_agrees memory heap real (some address) next selnode

theorem read_loop_agrees (real : Realizes memory heap) (fuel : Nat) (file : InStream) (list : Pointer) :
    Agree Carries (Memory.readLoop fuel file memory list) (readLoop fuel file heap list) := by
  induction fuel generalizing memory heap file list with
  | zero =>
      rw [Memory.readLoop, readLoop]
      split
      · exact ⟨real, rfl⟩
      · exact rfl
  | succ fuel ih =>
      rw [Memory.readLoop, readLoop]
      split
      · exact ⟨real, rfl⟩
      · obtain ⟨line, file⟩ := fgets 256 file
        cases line with
        | some buff =>
          apply agree_bind (fun code (added : Added) => Carries code (added.heap, added.filelist)) _ _ _ _ _
            (add_last_agrees memory heap real list (lineOf buff))
          rintro ⟨memory, head⟩ added ⟨real, same⟩
          obtain rfl : head = added.filelist := same
          exact ih memory added.heap real file added.filelist
        | none => exact ih memory heap real file list

theorem read_agrees (real : Realizes memory heap) (list : Pointer) (file : Option InStream) :
    Agree (fun code (loaded : Loaded) => Carries code (loaded.heap, loaded.filelist))
      (memory.readplaylist list file) (readplaylist heap list file) := by
  cases file with
  | none => exact ⟨real, rfl⟩
  | some file =>
      rw [Memory.readplaylist, ← bind_pure (Memory.readLoop _ _ _ _)]
      apply agree_bind Carries _ _ _ _ _ (read_loop_agrees memory heap real _ file list)
      intro code list carried
      exact carried

theorem release_read_twice (address : Nat) :
    (heap.deref (some address) >>= fun _ => heap.release (some address)) = heap.release (some address) := by
  have same := deref_release heap address pure
  rwa [bind_pure] at same

theorem delete_agrees (real : Realizes memory heap) (fuel : Nat) (list : Pointer) :
    Agree Realizes (Memory.deleteList fuel memory list) (deleteList fuel heap list) := by
  induction fuel generalizing memory heap list with
  | zero =>
      cases list with
      | none => exact real
      | some address => exact rfl
  | succ fuel ih =>
      cases list with
      | none => exact real
      | some address =>
          apply agree_bind (Found memory (some address)) _ _ _ _ _ (deref_agrees memory heap real (some address))
          intro curr value found
          rw [(found_links memory _ curr value found).1]
          apply agree_bind Realizes _ _ _ _ _ (ih memory heap real value.next)
          intro memory heap real
          rw [release_read_twice]
          exact free_agrees memory heap real address

end Agreement

def Matches (code : StringList) (state : ListState) : Prop :=
  Realizes code.memory state.heap ∧ code.filelist = state.filelist

theorem string_call_agrees (code : StringList) (state : ListState) (call : Call) (same : Matches code state) :
    Agree Matches (execStrings code call) (execCall state call) := by
  obtain ⟨memory, filelist⟩ := code
  obtain ⟨heap, _⟩ := state
  obtain ⟨real, rfl⟩ := same
  cases call with
  | addLast path =>
      apply agree_bind _ _ _ _ _ _ (add_last_agrees memory heap real filelist path)
      intro code added carried
      exact carried
  | addFront path =>
      apply agree_bind _ _ _ _ _ _ (add_front_agrees memory heap real filelist path)
      intro code added carried
      exact carried
  | remove path pagehead =>
      apply agree_bind _ _ _ _ _ _ (remove_path_agrees memory heap real filelist path pagehead)
      intro code removed result
      exact ⟨result.1, congrArg Prod.fst result.2⟩
  | removeNode position pagehead =>
      apply agree_bind _ _ _ _ _ _ (node_at_agrees memory heap real position filelist)
      rintro node _ rfl
      apply agree_bind _ _ _ _ _ _ (remove_node_agrees memory heap real filelist node pagehead)
      intro code removed result
      exact ⟨result.1, congrArg Prod.fst result.2⟩
  | swap path next selnode =>
      apply agree_bind _ _ _ _ _ _ (swap_path_agrees memory heap real filelist path next selnode)
      intro code swapped result
      exact ⟨result.1, rfl⟩
  | swapNode position next selnode =>
      apply agree_bind _ _ _ _ _ _ (node_at_agrees memory heap real position filelist)
      rintro node _ rfl
      apply agree_bind _ _ _ _ _ _ (swap_node_agrees memory heap real node next selnode)
      intro code swapped result
      exact ⟨result.1, rfl⟩
  | read file =>
      apply agree_bind _ _ _ _ _ _ (read_agrees memory heap real filelist _)
      intro code loaded carried
      exact carried

theorem empty_matches : Matches emptyStrings emptyList := by
  refine ⟨⟨⟨nofun, nofun, fun address => ?_⟩, ?_⟩, rfl⟩
  · simp [emptyStrings, Memory.empty, Heap.empty, Memory.stringAt]
  · exact heap_ext _ _ (fun _ => rfl) rfl

-- The strings in memory are the paths and the file names of these nodes, one
-- for each field of each of them.
structure StringsOf (memory : Memory) (cells : Cells) : Prop where
  filled : ∀ address ∈ addresses cells, ∀ field, ∃ text, memory.stringAt (address, field) = some text
  apart : ∀ text string, memory.strings.cell text = some string →
    ∃! slot : Nat × TextField, memory.stringAt slot = some text
  listed : ∀ slot text, memory.stringAt slot = some text →
    slot.1 ∈ addresses cells ∧ ∃ string, memory.strings.cell text = some string

theorem strings_of_list (memory : Memory) (heap : NodeHeap) (cells : Cells) (real : Realizes memory heap)
    (owned : ∀ address, (heap.cell address).isSome = true ↔ address ∈ addresses cells) : StringsOf memory cells where
  filled address member field := by
    have live := (owned address).mpr member
    rw [← real.values, values_cell] at live
    cases read : memory.nodes.cell address with
    | none =>
        rw [read] at live
        cases live
    | some node =>
        obtain ⟨text, _, here⟩ := node_strings memory real.held address node read field
        exact ⟨text, here⟩
  apart text string live := owns_once real.held.owns text string live
  listed slot text here := by
    refine ⟨?_, slot_live real.held.owns slot text here⟩
    obtain ⟨node, read, _⟩ := Option.bind_eq_some_iff.mp here
    obtain ⟨value, shown⟩ := node_value memory real.held slot.1 node read
    rw [← owned, ← real.values, values_read memory slot.1 node value read shown]
    rfl

theorem nothing_left (memory : Memory) (heap : NodeHeap) (real : Realizes memory heap)
    (gone : ∀ address, heap.cell address = none) :
    (∀ address, memory.nodes.cell address = none) ∧ ∀ text, memory.strings.cell text = none := by
  have nodes : ∀ address, memory.nodes.cell address = none := by
    intro address
    by_contra live
    obtain ⟨node, read⟩ := Option.ne_none_iff_exists'.mp live
    obtain ⟨value, shown⟩ := node_value memory real.held address node read
    have there := gone address
    rw [← real.values, values_read memory address node value read shown] at there
    cases there
  refine ⟨nodes, fun text => ?_⟩
  by_contra live
  obtain ⟨string, there⟩ := Option.ne_none_iff_exists'.mp live
  obtain ⟨slot, here, _⟩ := owns_once real.held.owns text string there
  rw [Memory.stringAt, nodes] at here
  cases here

structure NothingLeaked (code : StringList) (state : ListState) : Prop where
  filelist : code.filelist = state.filelist
  values : code.memory.values = state.heap
  strings : ∃ cells, PlaylistRep state.heap state.filelist cells ∧ StringsOf code.memory cells
  freed : ∃ freed, Memory.deleteList code.memory.nodes.bound code.memory code.filelist = .ok freed ∧
    (∀ address, freed.nodes.cell address = none) ∧ ∀ text, freed.strings.cell text = none

theorem owned_leaks_nothing (code : StringList) (state : ListState) (same : Matches code state)
    (owned : Owned state.heap state.filelist) : NothingLeaked code state := by
  obtain ⟨real, head⟩ := same
  obtain ⟨cells, rep, count⟩ := owned
  obtain ⟨shorter, deleted, fewer, _⟩ := delete_list_segment state.heap none cells state.heap.bound rep.segment rep.distinct
    (linked_length_bound state.filelist cells rep)
  rw [← rep.entry, ← head] at deleted
  have agree := delete_agrees code.memory state.heap real state.heap.bound code.filelist
  rw [deleted] at agree
  have bound : code.memory.nodes.bound = state.heap.bound := congrArg Heap.bound real.values
  refine ⟨head, real.values, ⟨cells, rep, ?_⟩, ?_⟩
  · exact strings_of_list code.memory state.heap cells real (owned_exactly state.heap state.filelist cells rep count)
  · cases ran : Memory.deleteList state.heap.bound code.memory code.filelist with
    | error fault =>
        rw [ran] at agree
        exact absurd agree id
    | ok freed =>
        rw [ran] at agree
        rw [bound]
        exact ⟨freed, ran, nothing_left freed shorter agree (shorter.none_live (by omega))⟩

-- Calls on the list as it lies in memory end as those on the list of values do,
-- with the same fault or with every string in a node of the list.
theorem no_string_leaked (calls : List Call) :
    Agree NothingLeaked (calls.foldlM execStrings emptyStrings) (runCalls calls emptyList) := by
  have agree := agree_runs execStrings execCall (fun _ => True) Matches
    (fun code state call _ same => string_call_agrees code state call same) emptyStrings emptyList calls
    (fun _ _ => trivial) empty_matches
  rw [← runCalls] at agree
  cases ran : runCalls calls emptyList with
  | error fault =>
      rw [ran] at agree
      cases also : calls.foldlM execStrings emptyStrings with
      | error other =>
          rw [also] at agree
          exact agree
      | ok code =>
          rw [also] at agree
          exact absurd agree id
  | ok state =>
      rw [ran] at agree
      have owned := run_owned calls emptyList state ⟨[], (linked_empty none).mpr rfl, rfl⟩ ran
      cases also : calls.foldlM execStrings emptyStrings with
      | error other =>
          rw [also] at agree
          exact absurd agree id
      | ok code =>
          rw [also] at agree
          exact owned_leaks_nothing code state agree owned

end Slogger.Playlist
