import Mathlib.Data.List.Nodup
import Slogger.Playlist.Calls
import Slogger.Playlist.Swap

set_option autoImplicit false

namespace Slogger.Playlist

open Slogger.Lib

-- A selection that was NULL stays NULL, and one that was a node of the list
-- ends on the node that holds the song it held.
def FollowsSong (before after : Cells) (selnode moved : Pointer) : Prop :=
  (selnode = none → moved = none) ∧
    ∀ cell ∈ before, selnode = some cell.1 → ∃ other ∈ after, moved = some other.1 ∧ other.2.path = cell.2.path

def SelectionFollows (heap : NodeHeap) (filelist : Pointer) (cells : Cells) (node : Nat) (next : Bool)
    (selnode : Pointer) : Prop :=
  ∃ swapped after, swapplayNode heap (some node) next selnode = .ok swapped ∧
    PlaylistRep swapped.heap filelist after ∧ FollowsSong cells after selnode swapped.selnode

-- The node swapplayNode exchanges with, between what is left and what is right
-- of its argument; the other direction's is the node beyond.
def partnerOf (left right : Cells) (next : Bool) : Option (Nat × Song) := if next then right.head? else left.getLast?

-- The selection is the partner, and the node beyond does not happen to hold
-- the partner's path too.
def Misplaced (left right : Cells) (next : Bool) (selnode : Pointer) : Prop :=
  ∃ partner, partnerOf left right next = some partner ∧ selnode = some partner.1 ∧
    ∀ beyond, partnerOf left right (!next) = some beyond → beyond.2.path ≠ partner.2.path

-- swapplayNode(node, true, &sel) and then swapplayNode(node->next, false, &sel).
def swapForthAndBack (heap : NodeHeap) (node selnode : Pointer) : Except Fault Swapped := do
  let forth ← swapplayNode heap node true selnode
  let here ← forth.heap.deref node
  swapplayNode forth.heap here.next false forth.selnode

def SwapsBack (heap : NodeHeap) (filelist : Pointer) (cells : Cells) (node : Nat) (selnode : Pointer) : Prop :=
  ∃ back, swapForthAndBack heap (some node) selnode = .ok back ∧
    PlaylistRep back.heap filelist cells ∧ back.selnode = selnode

theorem last_apart (left right : Cells) (address : Nat) (distinct : (addresses (left ++ right)).Nodup)
    (member : address ∈ addresses right) : lastOf none left ≠ some address := by
  intro same
  obtain ⟨cell, last, rfl⟩ := Option.map_eq_some_iff.mp (last_of_getLast left ▸ same)
  have parts := List.nodup_append.mp (addresses_append left right ▸ distinct)
  exact parts.2.2 cell.1 (List.mem_map_of_mem (List.mem_of_getLast? last)) cell.1 member rfl

theorem exchange_follows (before after others : Cells) (node partner : Nat × Song) (selnode : Pointer)
    (beyond : Option (Nat × Song)) (was : before.Perm (node :: partner :: others))
    (becomes : after.Perm ((node.1, partner.2) :: (partner.1, node.2) :: others))
    (distinct : (addresses after).Nodup) (aside : ∀ cell, beyond = some cell → cell ∈ others) :
    FollowsSong before after selnode
        (movedSelection selnode (some node.1) (some partner.1) (beyond.map Prod.fst)) ↔
      ¬ (selnode = some partner.1 ∧ ∀ cell, beyond = some cell → cell.2.path ≠ partner.2.path) := by
  have listed := (becomes.map Prod.fst).nodup_iff.mp distinct
  simp only [List.map_cons, List.nodup_cons, List.mem_cons, not_or] at listed
  have different : node.1 ≠ partner.1 := listed.1.1
  have nodeOut : ∀ cell ∈ others, node.1 ≠ cell.1 := fun cell member same =>
    listed.1.2 (same ▸ List.mem_map_of_mem member)
  have partnerOut : ∀ cell ∈ others, partner.1 ≠ cell.1 := fun cell member same =>
    listed.2.1 (same ▸ List.mem_map_of_mem member)
  have elsewhere : ∀ cell ∈ others, cell ∈ after := fun cell member => becomes.mem_iff.mpr (by simp [member])
  have sorted : ∀ cell ∈ before, cell = node ∨ cell = partner ∨ cell ∈ others := fun cell member => by
    simpa using was.mem_iff.mp member
  by_cases onNode : selnode = some node.1
  · subst onNode
    have apart : ¬ (some node.1 = some partner.1) := fun same => different (Option.some.inj same)
    simp only [movedSelection, if_true, apart, false_and, not_false_eq_true, iff_true]
    refine ⟨nofun, ?_⟩
    intro cell member same
    rcases sorted cell member with rfl | rfl | inOthers
    · exact ⟨(partner.1, cell.2), becomes.mem_iff.mpr (by simp), rfl, rfl⟩
    · exact absurd same apart
    · exact absurd (Option.some.inj same) (nodeOut cell inOthers)
  · by_cases onPartner : selnode = some partner.1
    · subst onPartner
      simp only [movedSelection, if_neg onNode, if_true, true_and]
      constructor
      · rintro ⟨_, follows⟩ clash
        obtain ⟨other, member, there, same⟩ := follows partner (was.mem_iff.mpr (by simp)) rfl
        obtain ⟨cell, here, address⟩ := Option.map_eq_some_iff.mp there
        have equal : cell = other :=
          List.inj_on_of_nodup_map distinct (elsewhere cell (aside cell here)) member address
        exact clash cell here (equal ▸ same)
      · intro lucky
        push Not at lucky
        obtain ⟨cell, here, same⟩ := lucky
        refine ⟨nofun, ?_⟩
        intro selected member atPartner
        rcases sorted selected member with rfl | rfl | inOthers
        · exact absurd atPartner onNode
        · exact ⟨cell, elsewhere cell (aside cell here), by rw [here, Option.map_some], same⟩
        · exact absurd (Option.some.inj atPartner) (partnerOut selected inOthers)
    · simp only [movedSelection, if_neg onNode, onPartner, false_and, not_false_eq_true, iff_true]
      refine ⟨id, ?_⟩
      rintro cell member rfl
      rcases sorted cell member with rfl | rfl | inOthers
      · exact absurd rfl onNode
      · exact absurd rfl onPartner
      · exact ⟨cell, elsewhere cell inOthers, rfl, rfl⟩

theorem misplaced_iff (left right : Cells) (next : Bool) (selnode : Pointer) (partner : Nat × Song)
    (found : partnerOf left right next = some partner) :
    Misplaced left right next selnode ↔ selnode = some partner.1 ∧
      ∀ beyond, partnerOf left right (!next) = some beyond → beyond.2.path ≠ partner.2.path := by
  constructor
  · rintro ⟨other, same, misplaced⟩
    obtain rfl : other = partner := Option.some.inj (same.symm.trans found)
    exact misplaced
  · exact fun misplaced => ⟨partner, found, misplaced⟩

theorem follows_of_run (heap final : NodeHeap) (filelist : Pointer) (cells after : Cells) (node : Nat) (next : Bool)
    (selnode moved : Pointer) (result : Bool)
    (ran : swapplayNode heap (some node) next selnode = .ok ⟨final, moved, result⟩)
    (rep : PlaylistRep final filelist after) :
    SelectionFollows heap filelist cells node next selnode ↔ FollowsSong cells after selnode moved := by
  constructor
  · rintro ⟨swapped, other, again, represented, follows⟩
    obtain rfl : (⟨final, moved, result⟩ : Swapped) = swapped := Except.ok.inj (ran.symm.trans again)
    rw [linked_unique filelist other after represented rep] at follows
    exact follows
  · exact fun follows => ⟨_, after, ran, rep, follows⟩

theorem unmoved_follows (cells : Cells) (selnode : Pointer) : FollowsSong cells cells selnode selnode :=
  ⟨id, fun cell member same => ⟨cell, member, same, rfl⟩⟩

theorem selection_follows_next (heap : NodeHeap) (filelist selnode : Pointer) (left right : Cells) (address : Nat)
    (song : Song) (rep : PlaylistRep heap filelist (left ++ (address, song) :: right)) :
    SelectionFollows heap filelist (left ++ (address, song) :: right) address true selnode ↔
      ¬ Misplaced left right true selnode := by
  cases right with
  | nil =>
      have stays := swap_last_stays heap filelist selnode left address song rep
      rw [follows_of_run heap heap filelist _ _ address true selnode _ _ stays rep]
      exact iff_of_true (unmoved_follows _ selnode) (by simp [Misplaced, partnerOf])
  | cons partner rest =>
      obtain ⟨final, ran, swapped, _⟩ := swap_next_exchanges heap filelist selnode left rest address song partner rep
      rw [follows_of_run heap final filelist _ _ address true selnode _ _ ran swapped,
        misplaced_iff left (partner :: rest) true selnode partner rfl, last_of_getLast]
      apply exchange_follows _ _ (left ++ rest) (address, song) partner selnode left.getLast? _ _ swapped.distinct
      · exact fun cell last => List.mem_append_left rest (List.mem_of_getLast? last)
      · exact List.perm_middle.trans (List.perm_middle.cons _)
      · exact List.perm_middle.trans (List.perm_middle.cons _)

theorem selection_follows_prv (heap : NodeHeap) (filelist selnode : Pointer) (left right : Cells) (address : Nat)
    (song : Song) (rep : PlaylistRep heap filelist (left ++ (address, song) :: right)) :
    SelectionFollows heap filelist (left ++ (address, song) :: right) address false selnode ↔
      ¬ Misplaced left right false selnode := by
  rcases List.eq_nil_or_concat' left with rfl | ⟨front, partner, rfl⟩
  · have stays := swap_first_stays heap filelist selnode right address song rep
    rw [List.nil_append, follows_of_run heap heap filelist _ _ address false selnode _ _ stays rep]
    exact iff_of_true (unmoved_follows _ selnode) (by simp [Misplaced, partnerOf])
  · have shape : (front ++ [partner]) ++ (address, song) :: right = front ++ partner :: (address, song) :: right := by simp
    rw [shape] at rep ⊢
    obtain ⟨final, ran, swapped, _⟩ := swap_prv_exchanges heap filelist selnode front right address song partner rep
    rw [follows_of_run heap final filelist _ _ address false selnode _ _ ran swapped,
      misplaced_iff (front ++ [partner]) right false selnode partner (by simp [partnerOf]), first_of_head]
    apply exchange_follows _ _ (front ++ right) (address, song) partner selnode right.head? _ _ swapped.distinct
    · exact fun cell first => List.mem_append_right front (List.mem_of_head? first)
    · exact List.perm_middle.trans ((List.perm_middle.cons _).trans (List.Perm.swap _ _ _))
    · exact List.perm_middle.trans ((List.perm_middle.cons _).trans (List.Perm.swap _ _ _))

-- Forth and back, the songs are where they were; the selection is back unless
-- it had been on the partner, which the first call left for the node beyond.
theorem forth_and_back (heap : NodeHeap) (filelist selnode : Pointer) (left rest : Cells) (address : Nat)
    (song : Song) (partner : Nat × Song)
    (rep : PlaylistRep heap filelist (left ++ (address, song) :: partner :: rest)) :
    ∃ final, swapForthAndBack heap (some address) selnode =
        .ok ⟨final, if selnode = some partner.1 then lastOf none left else selnode, true⟩ ∧
      PlaylistRep final filelist (left ++ (address, song) :: partner :: rest) := by
  obtain ⟨middle, forth, swapped, _⟩ := swap_next_exchanges heap filelist selnode left rest address song partner rep
  have read := play_deref middle none none left ((partner.1, song) :: rest) address partner.2 swapped.segment
  obtain ⟨final, back, restored, _⟩ := swap_prv_exchanges middle filelist
    (movedSelection selnode (some address) (some partner.1) (lastOf none left)) left rest partner.1 song
    (address, partner.2) swapped
  refine ⟨final, ?_, restored⟩
  simp only [swapForthAndBack, forth, ok_bind, read, first_of_cons, back, Except.ok.injEq, Swapped.mk.injEq, true_and,
    and_true]
  have notNode := last_apart left _ address rep.distinct (by simp)
  have notPartner := last_apart left _ partner.1 rep.distinct (by simp)
  have different : address ≠ partner.1 :=
    List.ne_of_not_mem_cons (distinct_around left _ (address, song) rep.distinct).notBehind
  by_cases onNode : selnode = some address
  · have apart : ¬ (some address = some partner.1) := fun same => different (Option.some.inj same)
    simp [movedSelection, onNode, apart]
  · by_cases onPartner : selnode = some partner.1
    · simp [movedSelection, onPartner, different.symm, notNode, notPartner]
    · simp [movedSelection, onNode, onPartner]

theorem swaps_back_iff (heap : NodeHeap) (filelist selnode : Pointer) (left rest : Cells) (address : Nat)
    (song : Song) (partner : Nat × Song)
    (rep : PlaylistRep heap filelist (left ++ (address, song) :: partner :: rest)) :
    SwapsBack heap filelist (left ++ (address, song) :: partner :: rest) address selnode ↔ selnode ≠ some partner.1 := by
  obtain ⟨final, ran, restored⟩ := forth_and_back heap filelist selnode left rest address song partner rep
  have notPartner := last_apart left _ partner.1 rep.distinct (by simp)
  constructor
  · rintro ⟨back, again, _, same⟩ rfl
    obtain rfl := Except.ok.inj (ran.symm.trans again)
    simp only [if_true] at same
    exact notPartner same
  · intro apart
    exact ⟨_, ran, restored, if_neg apart⟩

theorem selection_follows_exact (heap : NodeHeap) (filelist : Pointer) (left right : Cells) (address : Nat)
    (song : Song) (rep : PlaylistRep heap filelist (left ++ (address, song) :: right)) :
    (∀ next selnode, SelectionFollows heap filelist (left ++ (address, song) :: right) address next selnode ↔
      ¬ Misplaced left right next selnode) ∧
    (∀ partner rest selnode, right = partner :: rest →
      (SwapsBack heap filelist (left ++ (address, song) :: right) address selnode ↔ selnode ≠ some partner.1)) := by
  constructor
  · intro next selnode
    cases next with
    | true => exact selection_follows_next heap filelist selnode left right address song rep
    | false => exact selection_follows_prv heap filelist selnode left right address song rep
  · rintro partner rest selnode rfl
    exact swaps_back_iff heap filelist selnode left rest address song partner rep

theorem selected_node_followed :
    SelectionFollows (builtList twoSongs).heap (some 0) (builtCells twoSongs) 0 true (some 0) := by
  have whole := selection_follows_exact (builtList twoSongs).heap (some 0) []
    [(1, songOf (cString [98]))] 0 (songOf (cString [97])) two_songs_rep
  apply (whole.1 true (some 0)).mpr
  rintro ⟨partner, found, same, _⟩
  cases found
  cases same

-- The second of two entries is selected and the first moves down: the
-- selection becomes NULL, and moving back does not bring it back.
theorem selected_partner_lost :
    PlaylistRep (builtList twoSongs).heap (some 0) (builtCells twoSongs) ∧
      ¬ SelectionFollows (builtList twoSongs).heap (some 0) (builtCells twoSongs) 0 true (some 1) ∧
      ¬ SwapsBack (builtList twoSongs).heap (some 0) (builtCells twoSongs) 0 (some 1) := by
  refine ⟨two_songs_rep, ?_, ?_⟩
  · rintro ⟨swapped, after, ran, _, _, follows⟩
    have null : (swapplayNode (builtList twoSongs).heap (some 0) true (some 1)).map Swapped.selnode = .ok none := by
      decide +kernel
    rw [ran, Except.map, Except.ok.injEq] at null
    obtain ⟨other, _, moved, _⟩ := follows (1, songOf (cString [98])) (List.mem_cons_of_mem _ List.mem_cons_self) rfl
    rw [null] at moved
    cases moved
  · rintro ⟨back, ran, _, same⟩
    have null : (swapForthAndBack (builtList twoSongs).heap (some 0) (some 1)).map Swapped.selnode = .ok none := by
      decide +kernel
    rw [ran, Except.map, Except.ok.injEq, same] at null
    cases null

end Slogger.Playlist
