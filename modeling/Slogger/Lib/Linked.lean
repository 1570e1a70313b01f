import Slogger.Lib.Memory

set_option autoImplicit false

namespace Slogger.Lib

structure Layout (Cell Value : Type) where
  next : Cell → Pointer
  prv : Cell → Pointer
  value : Cell → Value

section Linked

variable {Cell Value : Type}

def firstOf : List (Nat × Value) → Pointer → Pointer
  | [], after => after
  | (address, _) :: _, _ => some address

def lastOf : Pointer → List (Nat × Value) → Pointer
  | before, [] => before
  | _, (address, _) :: rest => lastOf (some address) rest

def addresses (cells : List (Nat × Value)) : List Nat := cells.map Prod.fst

-- A stretch of a doubly linked list between the node before it and the node
-- after it: every node mirrors its neighbours in both directions.
def Segment (layout : Layout Cell Value) (heap : Heap Cell) :
    Pointer → List (Nat × Value) → Pointer → Prop
  | _, [], _ => True
  | before, (address, value) :: rest, after =>
      (∃ cell, heap.cell address = some cell ∧ layout.prv cell = before ∧
        layout.value cell = value ∧ layout.next cell = firstOf rest after) ∧
      Segment layout heap (some address) rest after

-- The whole list: it starts at head, ends in NULL at both sides and visits no
-- address twice, so it has no cycle.
structure Linked (layout : Layout Cell Value) (heap : Heap Cell) (head : Pointer)
    (cells : List (Nat × Value)) : Prop where
  entry : head = firstOf cells none
  distinct : (addresses cells).Nodup
  segment : Segment layout heap none cells none

instance segmentDecidable [DecidableEq Value] (layout : Layout Cell Value) (heap : Heap Cell) :
    (before : Pointer) → (cells : List (Nat × Value)) → (after : Pointer) →
      Decidable (Segment layout heap before cells after)
  | _, [], _ => isTrue trivial
  | before, (address, value) :: rest, after =>
      let here : Decidable (∃ cell, heap.cell address = some cell ∧ layout.prv cell = before ∧
          layout.value cell = value ∧ layout.next cell = firstOf rest after) :=
        decidable_of_iff ((heap.cell address).any fun cell =>
          decide (layout.prv cell = before ∧ layout.value cell = value ∧ layout.next cell = firstOf rest after))
          (by simp [Option.any_eq_true])
      let tail := segmentDecidable layout heap (some address) rest after
      instDecidableAnd

instance linkedDecidable [DecidableEq Value] (layout : Layout Cell Value) (heap : Heap Cell) (head : Pointer)
    (cells : List (Nat × Value)) : Decidable (Linked layout heap head cells) :=
  decidable_of_iff (head = firstOf cells none ∧ (addresses cells).Nodup ∧ Segment layout heap none cells none)
    ⟨fun ⟨entry, distinct, segment⟩ => ⟨entry, distinct, segment⟩,
      fun linked => ⟨linked.entry, linked.distinct, linked.segment⟩⟩

@[simp] theorem first_of_cons (cell : Nat × Value) (rest : List (Nat × Value)) (after : Pointer) :
    firstOf (cell :: rest) after = some cell.1 := rfl

@[simp] theorem first_of_append (left right : List (Nat × Value)) (after : Pointer) :
    firstOf (left ++ right) after = firstOf left (firstOf right after) := by
  cases left <;> rfl

@[simp] theorem last_of_append (before : Pointer) (left right : List (Nat × Value)) :
    lastOf before (left ++ right) = lastOf (lastOf before left) right := by
  induction left generalizing before with
  | nil => rfl
  | cons cell rest ih => exact ih (some cell.1)

@[simp] theorem addresses_append (left right : List (Nat × Value)) :
    addresses (left ++ right) = addresses left ++ addresses right := by
  simp [addresses]

@[simp] theorem addresses_cons (cell : Nat × Value) (rest : List (Nat × Value)) :
    addresses (cell :: rest) = cell.1 :: addresses rest := rfl

structure Around (left right : List (Nat × Value)) (cell : Nat × Value) : Prop where
  before : (addresses left).Nodup
  behind : (addresses right).Nodup
  notBefore : cell.1 ∉ addresses left
  notBehind : cell.1 ∉ addresses right
  apart : ∀ address ∈ addresses left, address ∉ addresses right

theorem distinct_around (left right : List (Nat × Value)) (cell : Nat × Value)
    (distinct : (addresses (left ++ cell :: right)).Nodup) : Around left right cell := by
  rw [addresses_append, addresses_cons] at distinct
  obtain ⟨before, tail, apart⟩ := List.nodup_append.mp distinct
  obtain ⟨notBehind, behind⟩ := List.nodup_cons.mp tail
  have here : cell.1 ∉ addresses left := fun member => apart cell.1 member cell.1 List.mem_cons_self rfl
  exact ⟨before, behind, here, notBehind,
    fun address early late => apart address early address (List.mem_cons_of_mem cell.1 late) rfl⟩

theorem first_of_null_iff (cells : List (Nat × Value)) : firstOf cells none = none ↔ cells = [] := by
  cases cells <;> simp [firstOf]

theorem last_of_getElem (before : Pointer) (cells : List (Nat × Value)) :
    lastOf before cells = (cells.getLast?.map Prod.fst).or before := by
  induction cells generalizing before with
  | nil => rfl
  | cons cell rest ih =>
      rw [lastOf, ih]
      cases rest <;> simp [List.getLast?_cons]

theorem first_of_head (cells : List (Nat × Value)) : firstOf cells none = cells.head?.map Prod.fst := by
  cases cells <;> rfl

theorem last_of_getLast (cells : List (Nat × Value)) : lastOf none cells = cells.getLast?.map Prod.fst := by
  rw [last_of_getElem, Option.or_none]

variable {layout : Layout Cell Value} {heap : Heap Cell}

theorem segment_append (before after : Pointer) (left right : List (Nat × Value)) :
    Segment layout heap before (left ++ right) after ↔
      Segment layout heap before left (firstOf right after) ∧
        Segment layout heap (lastOf before left) right after := by
  induction left generalizing before with
  | nil => simp [Segment, lastOf]
  | cons cell rest ih =>
      simp only [List.cons_append, Segment, first_of_append, ih, lastOf, and_assoc]

theorem segment_frame (other : Heap Cell) (before after : Pointer) (cells : List (Nat × Value))
    (segment : Segment layout heap before cells after)
    (agree : ∀ address ∈ addresses cells, other.cell address = heap.cell address) :
    Segment layout other before cells after := by
  induction cells generalizing before with
  | nil => trivial
  | cons cell rest ih =>
      obtain ⟨⟨node, read, links⟩, tail⟩ := segment
      refine ⟨⟨node, (agree cell.1 (by simp)).trans read, links⟩, ih (some cell.1) tail ?_⟩
      intro address member
      exact agree address (by simp [member])

theorem segment_read (before after : Pointer) (left right : List (Nat × Value)) (address : Nat)
    (value : Value) (segment : Segment layout heap before (left ++ (address, value) :: right) after) :
    ∃ cell, heap.cell address = some cell ∧ layout.prv cell = lastOf before left ∧
      layout.value cell = value ∧ layout.next cell = firstOf right after := by
  rw [segment_append] at segment
  exact segment.2.1

theorem segment_member (before after : Pointer) (cells : List (Nat × Value)) (cell : Nat × Value)
    (segment : Segment layout heap before cells after) (member : cell ∈ cells) :
    ∃ node, heap.cell cell.1 = some node ∧ layout.value node = cell.2 := by
  obtain ⟨left, right, rfl⟩ := List.append_of_mem member
  obtain ⟨node, read, _, carried, _⟩ := segment_read before after left right cell.1 cell.2 segment
  exact ⟨node, read, carried⟩

theorem segment_below (before after : Pointer) (cells : List (Nat × Value))
    (segment : Segment layout heap before cells after) (address : Nat)
    (member : address ∈ addresses cells) : address < heap.bound := by
  obtain ⟨cell, inCells, rfl⟩ := List.mem_map.mp member
  obtain ⟨node, read, _⟩ := segment_member before after cells cell segment inCells
  exact heap.allocated_below cell.1 node read

theorem segment_modify_frame (before after : Pointer) (cells : List (Nat × Value)) (target : Nat)
    (change : Cell → Cell) (segment : Segment layout heap before cells after)
    (outside : target ∉ addresses cells) :
    Segment layout (heap.modify target change) before cells after := by
  apply segment_frame _ before after cells segment
  intro address member
  exact heap.modify_other target address change (fun same => outside (same ▸ member))

theorem segment_erase_frame (before after : Pointer) (cells : List (Nat × Value)) (target : Nat)
    (segment : Segment layout heap before cells after) (outside : target ∉ addresses cells) :
    Segment layout (heap.erase target) before cells after := by
  apply segment_frame _ before after cells segment
  intro address member
  exact heap.erase_other target address (fun same => outside (same ▸ member))

theorem segment_alloc_frame (before after : Pointer) (cells : List (Nat × Value)) (fresh : Cell)
    (segment : Segment layout heap before cells after) :
    Segment layout (heap.alloc fresh) before cells after := by
  apply segment_frame _ before after cells segment
  intro address member
  obtain ⟨cell, inCells, rfl⟩ := List.mem_map.mp member
  obtain ⟨node, read, _⟩ := segment_member before after cells cell segment inCells
  rw [read]
  exact heap.alloc_other fresh cell.1 node read

theorem segment_set_prv (before fresh after : Pointer) (address : Nat) (value : Value)
    (rest : List (Nat × Value)) (change : Cell → Cell)
    (segment : Segment layout heap before ((address, value) :: rest) after)
    (outside : address ∉ addresses rest)
    (changed : ∀ cell, layout.prv (change cell) = fresh ∧
      layout.value (change cell) = layout.value cell ∧ layout.next (change cell) = layout.next cell) :
    Segment layout (heap.modify address change) fresh ((address, value) :: rest) after := by
  obtain ⟨⟨node, read, _, carried, follows⟩, tail⟩ := segment
  obtain ⟨newPrv, newValue, newNext⟩ := changed node
  refine ⟨⟨change node, by simp [read], newPrv, newValue.trans carried, newNext.trans follows⟩, ?_⟩
  exact segment_modify_frame (some address) after rest address change tail outside

theorem segment_set_next (before after fresh : Pointer) (left : List (Nat × Value)) (address : Nat)
    (value : Value) (change : Cell → Cell)
    (segment : Segment layout heap before (left ++ [(address, value)]) after)
    (outside : address ∉ addresses left)
    (changed : ∀ cell, layout.prv (change cell) = layout.prv cell ∧
      layout.value (change cell) = layout.value cell ∧ layout.next (change cell) = fresh) :
    Segment layout (heap.modify address change) before (left ++ [(address, value)]) fresh := by
  rw [segment_append] at segment ⊢
  obtain ⟨front, ⟨node, read, precedes, carried, _⟩, _⟩ := segment
  obtain ⟨newPrv, newValue, newNext⟩ := changed node
  refine ⟨segment_modify_frame before (some address) left address change front outside, ?_, trivial⟩
  exact ⟨change node, by simp [read], newPrv.trans precedes, newValue.trans carried, newNext⟩

theorem segment_set_value (before after : Pointer) (left right : List (Nat × Value)) (address : Nat)
    (value fresh : Value) (change : Cell → Cell)
    (segment : Segment layout heap before (left ++ (address, value) :: right) after)
    (outsideLeft : address ∉ addresses left) (outsideRight : address ∉ addresses right)
    (changed : ∀ cell, layout.prv (change cell) = layout.prv cell ∧
      layout.value (change cell) = fresh ∧ layout.next (change cell) = layout.next cell) :
    Segment layout (heap.modify address change) before (left ++ (address, fresh) :: right) after := by
  rw [segment_append] at segment ⊢
  obtain ⟨front, ⟨node, read, precedes, _, follows⟩, tail⟩ := segment
  obtain ⟨newPrv, newValue, newNext⟩ := changed node
  refine ⟨segment_modify_frame before (some address) left address change front outsideLeft, ?_, ?_⟩
  · exact ⟨change node, by simp [read], newPrv.trans precedes, newValue, newNext.trans follows⟩
  · exact segment_modify_frame (some address) after right address change tail outsideRight

theorem linked_empty (head : Pointer) : Linked layout heap head [] ↔ head = none := by
  constructor
  · exact fun linked => linked.entry
  · exact fun null => ⟨null, List.nodup_nil, trivial⟩

theorem linked_null (head : Pointer) (cells : List (Nat × Value))
    (linked : Linked layout heap head cells) : head = none ↔ cells = [] := by
  rw [linked.entry, first_of_null_iff]

-- The two directions mirror each other: the first node has no predecessor, and
-- whoever a node points to points back.
structure Mirrored (layout : Layout Cell Value) (heap : Heap Cell) (head : Pointer)
    (cells : List (Nat × Value)) : Prop where
  first : ∀ address cell, head = some address → heap.cell address = some cell → layout.prv cell = none
  back : ∀ address cell follower, address ∈ addresses cells → heap.cell address = some cell →
    layout.next cell = some follower →
    ∃ after, follower ∈ addresses cells ∧ heap.cell follower = some after ∧ layout.prv after = some address

theorem linked_mirrored (head : Pointer) (cells : List (Nat × Value))
    (linked : Linked layout heap head cells) : Mirrored layout heap head cells := by
  obtain ⟨entry, _, segment⟩ := linked
  constructor
  · intro address cell atHead read
    cases cells with
    | nil => rw [entry] at atHead; cases atHead
    | cons first rest =>
        obtain ⟨node, stored, precedes, _⟩ := segment.1
        rw [entry, first_of_cons, Option.some.injEq] at atHead
        rw [← atHead, stored, Option.some.injEq] at read
        exact read ▸ precedes
  · intro address cell follower member read points
    obtain ⟨target, inCells, rfl⟩ := List.mem_map.mp member
    obtain ⟨left, right, rfl⟩ := List.append_of_mem inCells
    obtain ⟨node, stored, _, _, follows⟩ := segment_read none none left right target.1 target.2 segment
    rw [stored, Option.some.injEq] at read
    rw [← read, follows] at points
    cases right with
    | nil => cases points
    | cons next rest =>
        rw [first_of_cons, Option.some.injEq] at points
        subst points
        obtain ⟨_, _, ⟨after, found, precedes, _⟩, _⟩ := (segment_append none none left _).mp segment
        exact ⟨after, by simp, found, precedes⟩

theorem linked_prv_member (head : Pointer) (cells : List (Nat × Value)) (address before : Nat) (cell : Cell)
    (linked : Linked layout heap head cells) (member : address ∈ addresses cells) (read : heap.cell address = some cell)
    (points : layout.prv cell = some before) : before ∈ addresses cells := by
  obtain ⟨target, inCells, rfl⟩ := List.mem_map.mp member
  obtain ⟨left, right, rfl⟩ := List.append_of_mem inCells
  obtain ⟨node, stored, precedes, _⟩ := segment_read none none left right target.1 target.2 linked.segment
  obtain rfl : node = cell := Option.some.inj (stored.symm.trans read)
  rw [precedes, last_of_getLast] at points
  obtain ⟨last, found, rfl⟩ := Option.map_eq_some_iff.mp points
  exact List.mem_map_of_mem (List.mem_append_left _ (List.mem_of_getLast? found))

theorem segment_unique (before : Pointer) (cells others : List (Nat × Value))
    (segment : Segment layout heap before cells none) (other : Segment layout heap before others none)
    (same : firstOf cells none = firstOf others none) : cells = others := by
  induction cells generalizing before others with
  | nil => exact ((first_of_null_iff others).mp same.symm).symm
  | cons cell rest ih =>
      cases others with
      | nil => cases same
      | cons twin tail =>
          obtain ⟨⟨node, read, _, carried, follows⟩, later⟩ := segment
          obtain ⟨⟨copy, reread, _, recarried, refollows⟩, further⟩ := other
          have address : cell.1 = twin.1 := Option.some.inj same
          rw [← address] at reread further
          obtain rfl : node = copy := Option.some.inj (read.symm.trans reread)
          have value : cell.2 = twin.2 := carried.symm.trans recarried
          rw [Prod.ext address value, ih (some cell.1) tail later further (follows.symm.trans refollows)]

theorem linked_unique (head : Pointer) (cells others : List (Nat × Value))
    (linked : Linked layout heap head cells) (other : Linked layout heap head others) : cells = others :=
  segment_unique none cells others linked.segment other.segment (linked.entry.symm.trans other.entry)

theorem linked_length_bound (head : Pointer) (cells : List (Nat × Value))
    (linked : Linked layout heap head cells) : cells.length ≤ heap.bound := by
  have inside : addresses cells ⊆ List.range heap.bound := by
    intro address member
    exact List.mem_range.mpr (segment_below none none cells linked.segment address member)
  have counted := (List.subperm_of_subset linked.distinct inside).length_le
  simpa [addresses] using counted

end Linked

end Slogger.Lib
