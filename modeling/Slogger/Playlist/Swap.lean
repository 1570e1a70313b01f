import Slogger.Lib.Sequence
import Slogger.Playlist.Node

set_option autoImplicit false

namespace Slogger.Playlist

open Slogger.Lib

structure Swapped where
  heap : NodeHeap
  selnode : Pointer
  result : Bool

def StPlayList.carrying (node : StPlayList) (song : Song) : StPlayList :=
  { node with path := song.path, file := song.file }

-- Both directions exchange the strings of two nodes and leave every link.
def exchange (heap : NodeHeap) (node partner : Pointer) : Except Fault NodeHeap := do
  let here ← heap.deref node
  let there ← heap.deref partner
  let heap ← heap.assign node fun cell => cell.carrying ⟨there.path, there.file⟩
  heap.assign partner fun cell => cell.carrying ⟨here.path, here.file⟩

-- Where *selnode goes: on the partner when it stood on the node, past the node
-- when it stood on the partner.
def movedSelection (selnode node partner beyond : Pointer) : Pointer :=
  if selnode = node then partner else if selnode = partner then beyond else selnode

def swapplayNode (heap : NodeHeap) (node : Pointer) (next : Bool) (selnode : Pointer) : Except Fault Swapped := do
  let here ← heap.deref node
  if next then
    match here.next with
    | some _ => do
        let selnode := movedSelection selnode node here.next here.prv
        let heap ← exchange heap node here.next
        .ok ⟨heap, selnode, true⟩
    | none => .ok ⟨heap, selnode, false⟩
  else
    match here.prv with
    | some _ => do
        let selnode := movedSelection selnode node here.prv here.next
        let heap ← exchange heap node here.prv
        .ok ⟨heap, selnode, true⟩
    | none => .ok ⟨heap, selnode, false⟩

def swapplaylist (heap : NodeHeap) (filelist : Pointer) (path : CString) (next : Bool) (selnode : Pointer) :
    Except Fault Swapped := do
  let list ← findPath heap path heap.bound filelist
  match list with
  | some _ => swapplayNode heap list next selnode
  | none => .ok ⟨heap, selnode, false⟩

theorem exchange_rep (heap : NodeHeap) (filelist : Pointer) (left right : Cells)
    (address partner : Nat) (song other : Song)
    (rep : PlaylistRep heap filelist (left ++ (address, song) :: (partner, other) :: right)) :
    (∃ next, exchange heap (some address) (some partner) = .ok next ∧
      PlaylistRep next filelist (left ++ (address, other) :: (partner, song) :: right) ∧
      next.bound = heap.bound) ∧
    (∃ next, exchange heap (some partner) (some address) = .ok next ∧
      PlaylistRep next filelist (left ++ (address, other) :: (partner, song) :: right) ∧
      next.bound = heap.bound) := by
  obtain ⟨entry, distinct, segment⟩ := rep
  have same : (addresses (left ++ (address, other) :: (partner, song) :: right)).Nodup := by
    simpa using distinct
  have head : filelist = firstOf (left ++ (address, other) :: (partner, song) :: right) none := by
    rw [entry]
    cases left <;> rfl
  have around := distinct_around left ((partner, other) :: right) (address, song) distinct
  have tail : address ∉ addresses ((partner, other) :: right) := around.notBehind
  have last : partner ∉ addresses right := (List.nodup_cons.mp around.behind).1
  have different : partner ≠ address := (List.ne_of_not_mem_cons tail).symm
  have addressLeft : address ∉ addresses left := around.notBefore
  have partnerLeft : partner ∉ addresses left := fun member => around.apart partner member List.mem_cons_self
  have shift (first second : Song) : left ++ (address, first) :: (partner, second) :: right =
      (left ++ [(address, first)]) ++ (partner, second) :: right := by simp
  have outside (first : Song) : partner ∉ addresses (left ++ [(address, first)]) := by
    rw [addresses_append, List.mem_append, not_or]
    exact ⟨partnerLeft, by simpa [addresses] using different⟩
  have hereRead := play_segment_read heap none none left ((partner, other) :: right) address song segment
  have thereRead := play_segment_read heap none none (left ++ [(address, song)]) right partner other
    (shift song other ▸ segment)
  let taken (target : NodeHeap) := target.modify address fun cell => cell.carrying other
  let given (target : NodeHeap) := target.modify partner fun cell => cell.carrying song
  constructor
  · have second : (taken heap).cell partner = heap.cell partner := heap.modify_other address partner _ different
    refine ⟨given (taken heap), ?_, ⟨head, same, ?_⟩, rfl⟩
    · simp only [exchange, heap.deref_read address _ hereRead, heap.deref_read partner _ thereRead, ok_bind,
        heap.assign_read address _ _ hereRead]
      exact (taken heap).assign_read partner _ _ (second.trans thereRead)
    · have first : Segment playLayout (taken heap) none (left ++ (address, other) :: (partner, other) :: right) none :=
        segment_set_value none none left ((partner, other) :: right) address song other _ segment
          addressLeft tail (fun _ => ⟨rfl, rfl, rfl⟩)
      rw [shift] at first ⊢
      exact segment_set_value none none (left ++ [(address, other)]) right partner other song _ first
        (outside other) last (fun _ => ⟨rfl, rfl, rfl⟩)
  · have first : (given heap).cell address = heap.cell address := heap.modify_other partner address _ different.symm
    refine ⟨taken (given heap), ?_, ⟨head, same, ?_⟩, rfl⟩
    · simp only [exchange, heap.deref_read address _ hereRead, heap.deref_read partner _ thereRead, ok_bind,
        heap.assign_read partner _ _ thereRead]
      exact (given heap).assign_read address _ _ (first.trans hereRead)
    · have second : Segment playLayout (given heap) none (left ++ (address, song) :: (partner, song) :: right) none := by
        rw [shift] at segment ⊢
        exact segment_set_value none none (left ++ [(address, song)]) right partner other song _ segment
          (outside song) last (fun _ => ⟨rfl, rfl, rfl⟩)
      exact segment_set_value none none left ((partner, song) :: right) address song other _ second
        addressLeft tail (fun _ => ⟨rfl, rfl, rfl⟩)

def swapEntries {Entry : Type} (entries : List Entry) (position : Nat) (next : Bool) : List Entry :=
  if next then swapAdjacent entries position
  else if position = 0 then entries
  else swapAdjacent entries (position - 1)

theorem swap_next_exchanges (heap : NodeHeap) (filelist selnode : Pointer) (left rest : Cells) (address : Nat)
    (song : Song) (partner : Nat × Song)
    (rep : PlaylistRep heap filelist (left ++ (address, song) :: partner :: rest)) :
    ∃ next, swapplayNode heap (some address) true selnode =
        .ok ⟨next, movedSelection selnode (some address) (some partner.1) (lastOf none left), true⟩ ∧
      PlaylistRep next filelist (left ++ (address, partner.2) :: (partner.1, song) :: rest) ∧ next.bound = heap.bound := by
  obtain ⟨⟨next, exchanged, swappedRep, bound⟩, _⟩ :=
    exchange_rep heap filelist left rest address partner.1 song partner.2 rep
  refine ⟨next, ?_, swappedRep, bound⟩
  rw [swapplayNode, play_deref heap none none left (partner :: rest) address song rep.segment, ok_bind]
  simp only [if_true, first_of_cons, exchanged, ok_bind]

theorem swap_prv_exchanges (heap : NodeHeap) (filelist selnode : Pointer) (front right : Cells) (address : Nat)
    (song : Song) (partner : Nat × Song)
    (rep : PlaylistRep heap filelist (front ++ partner :: (address, song) :: right)) :
    ∃ next, swapplayNode heap (some address) false selnode =
        .ok ⟨next, movedSelection selnode (some address) (some partner.1) (firstOf right none), true⟩ ∧
      PlaylistRep next filelist (front ++ (partner.1, song) :: (address, partner.2) :: right) ∧ next.bound = heap.bound := by
  obtain ⟨_, ⟨next, exchanged, swappedRep, bound⟩⟩ :=
    exchange_rep heap filelist front right partner.1 address partner.2 song rep
  have shape : front ++ partner :: (address, song) :: right = (front ++ [partner]) ++ (address, song) :: right := by simp
  have before : lastOf none (front ++ [partner]) = some partner.1 := by simp [lastOf]
  rw [shape] at rep
  refine ⟨next, ?_, swappedRep, bound⟩
  rw [swapplayNode, play_deref heap none none (front ++ [partner]) right address song rep.segment, ok_bind]
  simp only [Bool.false_eq_true, if_false, before, exchanged, ok_bind]

theorem swap_last_stays (heap : NodeHeap) (filelist selnode : Pointer) (left : Cells) (address : Nat)
    (song : Song) (rep : PlaylistRep heap filelist (left ++ [(address, song)])) :
    swapplayNode heap (some address) true selnode = .ok ⟨heap, selnode, false⟩ := by
  rw [swapplayNode, play_deref heap none none left [] address song rep.segment, ok_bind]
  rfl

theorem swap_first_stays (heap : NodeHeap) (filelist selnode : Pointer) (right : Cells) (address : Nat)
    (song : Song) (rep : PlaylistRep heap filelist ((address, song) :: right)) :
    swapplayNode heap (some address) false selnode = .ok ⟨heap, selnode, false⟩ := by
  rw [swapplayNode, play_deref heap none none [] right address song rep.segment, ok_bind]
  rfl

theorem swap_next_rep (heap : NodeHeap) (filelist selnode : Pointer) (left right : Cells) (address : Nat)
    (song : Song) (rep : PlaylistRep heap filelist (left ++ (address, song) :: right)) :
    ∃ swapped cells, swapplayNode heap (some address) true selnode = .ok swapped ∧
      PlaylistRep swapped.heap filelist cells ∧ swapped.heap.bound = heap.bound ∧
      addresses cells = addresses (left ++ (address, song) :: right) ∧
      songs cells = swapAdjacent (songs (left ++ (address, song) :: right)) left.length := by
  cases right with
  | nil =>
      refine ⟨_, _, swap_last_stays heap filelist selnode left address song rep, rep, rfl, rfl, ?_⟩
      have last := swap_adjacent_last (songs left) song
      simpa [songs] using last.symm
  | cons partner rest =>
      obtain ⟨next, ran, swappedRep, bound⟩ :=
        swap_next_exchanges heap filelist selnode left rest address song partner rep
      refine ⟨_, _, ran, swappedRep, bound, by simp, ?_⟩
      have middle := swap_adjacent_append (songs left) (songs rest) song partner.2
      simpa [songs] using middle.symm

theorem swap_prv_rep (heap : NodeHeap) (filelist selnode : Pointer) (left right : Cells) (address : Nat)
    (song : Song) (rep : PlaylistRep heap filelist (left ++ (address, song) :: right)) :
    ∃ swapped cells, swapplayNode heap (some address) false selnode = .ok swapped ∧
      PlaylistRep swapped.heap filelist cells ∧ swapped.heap.bound = heap.bound ∧
      addresses cells = addresses (left ++ (address, song) :: right) ∧
      songs cells = (if left.length = 0 then songs (left ++ (address, song) :: right)
        else swapAdjacent (songs (left ++ (address, song) :: right)) (left.length - 1)) := by
  rcases List.eq_nil_or_concat' left with rfl | ⟨front, partner, rfl⟩
  · exact ⟨_, _, swap_first_stays heap filelist selnode right address song rep, rep, rfl, rfl, rfl⟩
  · have shape : (front ++ [partner]) ++ (address, song) :: right = front ++ partner :: (address, song) :: right := by simp
    rw [shape] at rep ⊢
    obtain ⟨next, ran, swappedRep, bound⟩ :=
      swap_prv_exchanges heap filelist selnode front right address song partner rep
    refine ⟨_, _, ran, swappedRep, bound, by simp, ?_⟩
    have middle := swap_adjacent_append (songs front) (songs right) partner.2 song
    simpa [songs] using middle.symm

theorem swap_node_rep (heap : NodeHeap) (filelist selnode : Pointer) (left right : Cells) (address : Nat)
    (song : Song) (next : Bool) (rep : PlaylistRep heap filelist (left ++ (address, song) :: right)) :
    ∃ swapped cells, swapplayNode heap (some address) next selnode = .ok swapped ∧
      PlaylistRep swapped.heap filelist cells ∧ swapped.heap.bound = heap.bound ∧
      addresses cells = addresses (left ++ (address, song) :: right) ∧
      songs cells = swapEntries (songs (left ++ (address, song) :: right)) left.length next := by
  cases next with
  | true => exact swap_next_rep heap filelist selnode left right address song rep
  | false => exact swap_prv_rep heap filelist selnode left right address song rep

@[simp] theorem swap_entries_length {Entry : Type} (entries : List Entry) (position : Nat) (next : Bool) :
    (swapEntries entries position next).length = entries.length := by
  cases next with
  | true => exact swap_adjacent_length entries position
  | false => by_cases start : position = 0 <;> simp [swapEntries, start]

theorem swap_entries_map {Entry Other : Type} (change : Entry → Other) (entries : List Entry) (position : Nat)
    (next : Bool) : (swapEntries entries position next).map change = swapEntries (entries.map change) position next := by
  cases next with
  | true => exact swap_adjacent_map change entries position
  | false =>
      by_cases start : position = 0
      · simp [swapEntries, start]
      · simpa [swapEntries, start] using swap_adjacent_map change entries (position - 1)

end Slogger.Playlist
