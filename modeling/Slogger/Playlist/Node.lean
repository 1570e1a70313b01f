import Mathlib.Algebra.Group.Nat.Defs
import Mathlib.Data.List.TakeWhile
import Slogger.Lib.Linked

set_option autoImplicit false

namespace Slogger.Playlist

open Slogger.Lib

def pageListLen : Nat := 5
def maxPlayListLen : Nat := 16

-- The bytes of a C string without its terminator; a NUL inside would end it.
@[ext] structure CString where
  bytes : List UInt8
  noNul : (0 : UInt8) ∉ bytes
deriving DecidableEq

def newline : UInt8 := 10

def cString (memory : List UInt8) : CString where
  bytes := memory.takeWhile (fun byte => byte != 0)
  noNul member := by
    have passed := List.mem_takeWhile_imp member
    simp at passed

def strlen (memory : List UInt8) : Nat := (cString memory).bytes.length

-- strcspn(s, "\n"): how far the string goes before a newline or its end.
def strcspn (memory : List UInt8) : Nat :=
  (memory.takeWhile fun byte => byte != 0 && byte != newline).length

-- The value an int holds after it was given a size_t.
def intOfSize (size : Nat) : Int := (BitVec.ofNat 32 size).toInt

theorem int_of_size_small (size : Nat) (small : size < 2 ^ 31) : intOfSize size = size := by
  rw [intOfSize, BitVec.toInt_eq_toNat_of_lt]
  · rw [BitVec.toNat_ofNat, Nat.mod_eq_of_lt (by omega)]
  · rw [BitVec.toNat_ofNat, Nat.mod_eq_of_lt (by omega)]
    omega

theorem int_of_size_le (size : Nat) : intOfSize size ≤ size := by
  have reduced : (BitVec.ofNat 32 size).toNat ≤ size := by
    rw [BitVec.toNat_ofNat]
    exact Nat.mod_le size _
  rw [intOfSize, BitVec.toInt_eq_toNat_cond]
  split <;> omega

theorem int_of_size_exact_iff (size : Nat) : intOfSize size = size ↔ size < 2 ^ 31 := by
  constructor
  · intro same
    have bounded : intOfSize size < 2 ^ 31 := BitVec.toInt_lt
    omega
  · exact int_of_size_small size

-- len-1, which the compiled code takes from INT_MIN to INT_MAX.
def intPred (value : Int) : Int := (BitVec.ofInt 32 (value - 1)).toInt

theorem int_pred_inside (value : Int) (above : -2147483648 < value) (below : value < 2147483648) :
    intPred value = value - 1 := by
  rw [intPred, BitVec.toInt_ofInt, Int.bmod_eq_of_le] <;> omega

theorem int_pred_below (size : Nat) : intPred (intOfSize size) < size := by
  have least : -2147483648 ≤ intOfSize size := BitVec.le_toInt _
  have greatest : intOfSize size < 2147483648 := BitVec.toInt_lt
  by_cases above : -2147483648 < intOfSize size
  · rw [int_pred_inside _ above greatest]
    have within := int_of_size_le size
    omega
  · have large : 2 ^ 31 ≤ size := by
      by_contra small
      rw [int_of_size_small size (Nat.not_le.mp small)] at above
      omega
    have bounded : intPred (intOfSize size) < 2 ^ 31 := BitVec.toInt_lt
    omega

-- for(int i=len-1; i>0; i--): the byte at index 0 is never looked at.
def scanSeparator (memory : List UInt8) : Nat → Nat
  | 0 => 0
  | i + 1 =>
      if memory[i + 1]? = some 92 ∨ memory[i + 1]? = some 47 then i + 2
      else scanSeparator memory i

-- extract_file_name works in place on its argument: it answers the offset of
-- the name and leaves the caller's memory with two bytes overwritten.
def extractFileName (pPath : CString) : List UInt8 × Nat :=
  let path := pPath.bytes ++ [0]
  let len := intOfSize (strlen path)
  let offset := scanSeparator path (intPred len).toNat
  let path := path.set (offset + strcspn (path.drop offset)) 0
  let len := intOfSize (strlen (path.drop offset))
  let path := if len > 4 then path.set (offset + (strlen (path.drop offset) - 4)) 0 else path
  (path, offset)

def fileName (path : CString) : CString :=
  cString ((extractFileName path).1.drop (extractFileName path).2)
def bufferAfter (path : CString) : List UInt8 := (extractFileName path).1

structure StPlayList where
  next : Pointer
  path : CString
  file : CString
  prv : Pointer
deriving DecidableEq

abbrev NodeHeap := Heap StPlayList

structure Song where
  path : CString
  file : CString
deriving DecidableEq

abbrev Cells := List (Nat × Song)

def playLayout : Layout StPlayList Song where
  next := StPlayList.next
  prv := StPlayList.prv
  value node := ⟨node.path, node.file⟩

abbrev PlaylistRep (heap : NodeHeap) (filelist : Pointer) (cells : Cells) : Prop :=
  Linked playLayout heap filelist cells

def songOf (path : CString) : Song := ⟨path, fileName path⟩

def songs (cells : Cells) : List Song := cells.map Prod.snd
def paths (cells : Cells) : List CString := cells.map fun cell => cell.2.path

-- while(list != NULL) with strcmp on each path: the first node that holds it.
-- A walk over more nodes than the heap ever had comes back to one of them.
def findPath (heap : NodeHeap) (path : CString) : Nat → Pointer → Except Fault Pointer
  | _, none => .ok none
  | 0, some _ => .error .loops
  | fuel + 1, some address => do
      let node ← heap.deref (some address)
      if node.path = path then .ok (some address) else findPath heap path fuel node.next

def nodeAt (heap : NodeHeap) : Nat → Pointer → Except Fault Pointer
  | _, none => .ok none
  | 0, some address => .ok (some address)
  | position + 1, some address => do
      let node ← heap.deref (some address)
      nodeAt heap position node.next

def place (cells : Cells) (position : Nat) : Pointer := cells[position]?.map Prod.fst

theorem place_first (cells : Cells) : firstOf cells none = place cells 0 := by
  cases cells <;> rfl

theorem place_inside (cells : Cells) (position : Nat) (inside : position < cells.length) :
    ∃ address, place cells position = some address := by
  simp [place, inside]

theorem place_outside (cells : Cells) (position : Nat) (outside : cells.length ≤ position) :
    place cells position = none := by
  simp [place, outside]

theorem place_middle (left right : Cells) (cell : Nat × Song) :
    place (left ++ cell :: right) left.length = some cell.1 := by
  rw [place, List.getElem?_append_right (Nat.le_refl _), Nat.sub_self]
  rfl

theorem place_member (cells : Cells) (position address : Nat) (here : place cells position = some address) :
    address ∈ addresses cells := by
  obtain ⟨cell, found, rfl⟩ := Option.map_eq_some_iff.mp here
  exact List.mem_map_of_mem (List.mem_of_getElem? found)

theorem split_at (cells : Cells) (position : Nat) (inside : position < cells.length) :
    ∃ left cell right, cells = left ++ cell :: right ∧ left.length = position := by
  refine ⟨cells.take position, cells[position], cells.drop (position + 1), ?_, ?_⟩
  · rw [List.getElem_cons_drop inside, List.take_append_drop]
  · exact List.length_take_of_le (Nat.le_of_lt inside)

theorem play_segment_read (heap : NodeHeap) (before after : Pointer) (left right : Cells) (address : Nat)
    (song : Song) (segment : Segment playLayout heap before (left ++ (address, song) :: right) after) :
    heap.cell address =
      some ⟨firstOf right after, song.path, song.file, lastOf before left⟩ := by
  obtain ⟨node, read, precedes, carried, follows⟩ := segment_read before after left right address song segment
  cases node with
  | mk next path file prv =>
      cases song
      simp_all [playLayout]

theorem play_deref (heap : NodeHeap) (before after : Pointer) (left right : Cells) (address : Nat)
    (song : Song) (segment : Segment playLayout heap before (left ++ (address, song) :: right) after) :
    heap.deref (some address) =
      .ok ⟨firstOf right after, song.path, song.file, lastOf before left⟩ :=
  heap.deref_read address _ (play_segment_read heap before after left right address song segment)

theorem find_path_segment (heap : NodeHeap) (path : CString) (before : Pointer) (cells : Cells) (fuel : Nat)
    (segment : Segment playLayout heap before cells none) (enough : cells.length ≤ fuel) :
    findPath heap path fuel (firstOf cells none) =
      .ok ((cells.find? fun cell => cell.2.path = path).map Prod.fst) := by
  induction cells generalizing before fuel with
  | nil => cases fuel <;> rfl
  | cons cell rest ih =>
      cases fuel with
      | zero => simp at enough
      | succ fuel =>
          have head := play_deref heap before none [] rest cell.1 cell.2 segment
          rw [first_of_cons, findPath, head, ok_bind]
          by_cases found : cell.2.path = path
          · simp [found]
          · simp only [List.find?_cons, found, decide_false]
            exact ih (some cell.1) fuel segment.2 (by simpa using enough)

theorem find_path_playlist (heap : NodeHeap) (filelist : Pointer) (cells : Cells) (path : CString)
    (playlist : PlaylistRep heap filelist cells) :
    findPath heap path heap.bound filelist =
      .ok ((cells.find? fun cell => cell.2.path = path).map Prod.fst) := by
  rw [playlist.entry]
  exact find_path_segment heap path none cells heap.bound playlist.segment
    (linked_length_bound filelist cells playlist)

theorem node_at_segment (heap : NodeHeap) (before : Pointer) (cells : Cells) (position : Nat)
    (segment : Segment playLayout heap before cells none) :
    nodeAt heap position (firstOf cells none) = .ok (place cells position) := by
  induction cells generalizing before position with
  | nil => cases position <;> rfl
  | cons cell rest ih =>
      cases position with
      | zero => rfl
      | succ position =>
          have head := play_deref heap before none [] rest cell.1 cell.2 segment
          rw [first_of_cons, nodeAt, head, ok_bind, ih (some cell.1) position segment.2]
          rfl

theorem node_at_end (heap : NodeHeap) (before after : Pointer) (cells : Cells)
    (segment : Segment playLayout heap before cells after) :
    nodeAt heap cells.length (firstOf cells after) = .ok after := by
  induction cells generalizing before with
  | nil => cases after <;> rfl
  | cons cell rest ih =>
      have head := play_deref heap before after [] rest cell.1 cell.2 segment
      rw [first_of_cons, List.length_cons, nodeAt, head, ok_bind]
      exact ih (some cell.1) segment.2

theorem node_at_rep (heap : NodeHeap) (filelist : Pointer) (cells : Cells) (position : Nat)
    (rep : PlaylistRep heap filelist cells) : nodeAt heap position filelist = .ok (place cells position) := by
  rw [rep.entry]
  exact node_at_segment heap none cells position rep.segment

example : (fileName (cString "/music/one.mp3".toUTF8.toList)).bytes = "one".toUTF8.toList := by decide +kernel

end Slogger.Playlist
