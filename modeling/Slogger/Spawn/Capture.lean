import Slogger.Lib.Memory
import Slogger.Spawn.Wait

set_option autoImplicit false

namespace Slogger.Spawn

open Slogger.Lib

-- What read(.., command_out, 99) hands over at once.
structure Chunk where
  bytes : List UInt8
  nonempty : bytes ≠ []
  fits : bytes.length ≤ 99
deriving DecidableEq

inductive ReadResult where
  | data (chunk : Chunk)
  | error
deriving DecidableEq

-- One round of the loop of exec: what read gave, and whether the allocator can
-- serve the realloc that follows.
structure ReadStep where
  read : ReadResult
  granted : Bool
deriving DecidableEq

-- Where a run of exec leaves C: memcpy reads past command_out, or writes
-- outside its block; realloc is given freed memory; an int overflows. The last
-- one is waitpid waiting for ever.
inductive ExecFault where
  | overrun
  | outside
  | dangling
  | overflow
  | blocks
deriving DecidableEq

abbrev Slots := List (Option UInt8)

inductive Block where
  | null
  | held (slots : Slots)
  | freed
deriving DecidableEq

-- copies records, for every round, the count memcpy was given, 0 where realloc
-- gave no block, and how many bytes the round had read.
structure Captured where
  out : Block
  outsize : Int
  commandOut : List UInt8
  copies : List (Nat × Nat)
deriving DecidableEq

def sizeT (value : Int) : Nat := (BitVec.ofInt 64 value).toNat

def fitsInt (value : Int) : Bool := -2147483648 ≤ value && value < 2147483648

def ptrdiffMax : Nat := 9223372036854775807

def ReadResult.sz : ReadResult → Int
  | .data chunk => chunk.bytes.length
  | .error => -1

def ReadResult.bytes : ReadResult → List UInt8
  | .data chunk => chunk.bytes
  | .error => []

-- realloc: what the old pointer is good for afterwards, and tmp. A request
-- beyond PTRDIFF_MAX is always refused, and one of no bytes for a block frees
-- it and gives NULL.
def realloc (out : Block) (size : Nat) (granted : Bool) : Except ExecFault (Block × Option Slots) :=
  match out with
  | .freed => .error .dangling
  | .null => .ok (.null, if granted && size ≤ ptrdiffMax then some (List.replicate size none) else none)
  | .held slots =>
      if size = 0 then .ok (.freed, none)
      else if granted && size ≤ ptrdiffMax then
        .ok (.freed, some (slots.take size ++ List.replicate (size - slots.length) none))
      else .ok (.held slots, none)

-- memcpy(&tmp[offset], source, count)
def memcpy (tmp : Slots) (offset : Int) (source : List UInt8) (count : Nat) : Except ExecFault Slots :=
  if source.length < count then .error .overrun
  else if offset < 0 ∨ tmp.length < offset.toNat + count then .error .outside
  else .ok (tmp.take offset.toNat ++ (source.take count).map some ++ tmp.drop (offset.toNat + count))

def captureStep (state : Captured) (step : ReadStep) : Except ExecFault Captured := do
  let sz := step.read.sz
  let commandOut := step.read.bytes ++ state.commandOut.drop step.read.bytes.length
  let outsize := state.outsize + sz
  if !fitsInt outsize then .error .overflow
  else do
    let (out, tmp) ← realloc state.out (sizeT outsize) step.granted
    match tmp with
    | some slots => do
        let slots ← memcpy slots state.outsize commandOut (sizeT sz)
        .ok ⟨.held slots, outsize, commandOut, state.copies ++ [(sizeT sz, step.read.bytes.length)]⟩
    | none => .ok ⟨out, outsize, commandOut, state.copies ++ [(0, step.read.bytes.length)]⟩

def captureStart : Captured where
  out := .null
  outsize := 0
  commandOut := List.replicate 100 0
  copies := []

def captureLoop (state : Captured) (steps : List ReadStep) : Except ExecFault Captured := steps.foldlM captureStep state

structure Executed where
  captured : Captured
  result : Int
  events : List WaitEvent
  later : List WaitResult
deriving DecidableEq

def exec (steps : List ReadStep) (results : List WaitResult) : Except ExecFault Executed := do
  let captured ← captureLoop captureStart steps
  match forkDup2ExecResult results with
  | none => .error .blocks
  | some waited =>
      .ok ⟨captured, if waited.status ≠ 0 then -1 else captured.outsize, waited.events, waited.later⟩

theorem capture_loop_cons (state : Captured) (step : ReadStep) (rest : List ReadStep) :
    captureLoop state (step :: rest) = captureStep state step >>= fun next => captureLoop next rest :=
  List.foldlM_cons

-- *out for an output: nothing was ever allocated for the empty one.
def blockOf (output : List UInt8) : Block := if output = [] then .null else .held (output.map some)

-- Everything read so far is in the block, and in nothing but the block.
structure Holds (state : Captured) (output : List UInt8) : Prop where
  out : state.out = blockOf output
  outsize : state.outsize = output.length

theorem fits_int_iff (value : Int) : fitsInt value = true ↔ -2147483648 ≤ value ∧ value < 2147483648 := by
  simp [fitsInt]

theorem size_t_of_nat (size : Nat) (small : size < 2147483648) : sizeT size = size := by
  rw [sizeT, BitVec.toNat_ofInt]
  omega

theorem size_t_negative (value : Int) (fits : fitsInt value = true) (negative : value < 0) :
    ptrdiffMax < sizeT value := by
  rw [fits_int_iff] at fits
  rw [sizeT, BitVec.toNat_ofInt, ptrdiffMax]
  omega

theorem memcpy_fits (tmp : Slots) (source : List UInt8) (offset count : Nat) (enough : count ≤ source.length)
    (room : offset + count ≤ tmp.length) :
    memcpy tmp offset source count =
      .ok (tmp.take offset ++ (source.take count).map some ++ tmp.drop (offset + count)) := by
  have inside : ¬ ((offset : Int) < 0 ∨ tmp.length < (offset : Int).toNat + count) := by omega
  rw [memcpy, if_neg (Nat.not_lt_of_le enough), if_neg inside]
  rfl

theorem chunk_first (chunk : Chunk) (commandOut : List UInt8) :
    (chunk.bytes ++ commandOut.drop chunk.bytes.length).take chunk.bytes.length = chunk.bytes := by
  simp

inductive Backs : Block → Slots → Prop where
  | null : Backs .null []
  | held (slots : Slots) : Backs (.held slots) slots

theorem realloc_granted (out : Block) (old : Slots) (size : Nat) (backs : Backs out old) (positive : 0 < size)
    (allowed : size ≤ ptrdiffMax) :
    ∃ spent, realloc out size true = .ok (spent, some (old.take size ++ List.replicate (size - old.length) none)) := by
  cases backs with
  | null => exact ⟨.null, by simp [realloc, allowed]⟩
  | held =>
      refine ⟨.freed, ?_⟩
      rw [realloc, if_neg (Nat.ne_of_gt positive)]
      simp [allowed]

theorem grown_slots (old : Slots) (size more : Nat) :
    (old.take (size + more) ++ List.replicate (size + more - old.length) none).take size =
      old.take size ++ List.replicate (size - old.length) none := by
  rw [List.take_append, List.take_take, List.take_replicate, List.length_take]
  congr 2 <;> omega

-- A granted round on whatever block there is: the slots from before, those in
-- between that nothing is stored in, and the chunk.
theorem granted_round (state : Captured) (chunk : Chunk) (size : Nat) (old : Slots) (backs : Backs state.out old)
    (sized : state.outsize = size) (small : size + chunk.bytes.length < 2147483648) :
    captureStep state ⟨.data chunk, true⟩ = .ok ⟨
      .held (old.take size ++ List.replicate (size - old.length) none ++ chunk.bytes.map some),
      ((size + chunk.bytes.length : Nat) : Int), chunk.bytes ++ state.commandOut.drop chunk.bytes.length,
      state.copies ++ [(chunk.bytes.length, chunk.bytes.length)]⟩ := by
  have positive := List.length_pos_of_ne_nil chunk.nonempty
  have summed : (size : Int) + (ReadResult.data chunk).sz = ((size + chunk.bytes.length : Nat) : Int) := by
    rw [ReadResult.sz, Int.natCast_add]
  have fits : fitsInt ((size + chunk.bytes.length : Nat) : Int) = true := by
    rw [fits_int_iff]
    omega
  obtain ⟨spent, grown⟩ := realloc_granted state.out old (size + chunk.bytes.length) backs (by omega)
    (by rw [ptrdiffMax]; omega)
  have length : (old.take (size + chunk.bytes.length) ++
      List.replicate (size + chunk.bytes.length - old.length) none).length = size + chunk.bytes.length := by
    rw [List.length_append, List.length_replicate, List.length_take]
    omega
  have copied := memcpy_fits _ (chunk.bytes ++ state.commandOut.drop chunk.bytes.length) size chunk.bytes.length
    (by simp) (Nat.le_of_eq length.symm)
  rw [grown_slots, chunk_first, List.drop_eq_nil_of_le (Nat.le_of_eq length), List.append_nil] at copied
  have count : sizeT (ReadResult.data chunk).sz = chunk.bytes.length := size_t_of_nat _ (by omega)
  simp only [captureStep, sized, summed, fits, size_t_of_nat _ small, grown, ok_bind, count, ReadResult.bytes, copied,
    Bool.not_true, Bool.false_eq_true, if_false]

theorem backs_block_of (output : List UInt8) : Backs (blockOf output) (output.map some) := by
  rw [blockOf]
  split
  · rename_i empty
    rw [empty]
    exact .null
  · exact .held _

theorem granted_holds (state : Captured) (chunk : Chunk) (output : List UInt8) (holds : Holds state output)
    (small : output.length + chunk.bytes.length < 2147483648) :
    ∃ next, captureStep state ⟨.data chunk, true⟩ = .ok next ∧ Holds next (output ++ chunk.bytes) := by
  have backs : Backs state.out (output.map some) := holds.out ▸ backs_block_of output
  have ran := granted_round state chunk output.length (output.map some) backs holds.outsize small
  refine ⟨_, ran, ?_, ?_⟩
  · simp [blockOf, chunk.nonempty, List.take_of_length_le]
  · simp

theorem granted_run_holds (state : Captured) (chunks : List Chunk) (output : List UInt8) (holds : Holds state output)
    (small : output.length + (chunks.flatMap Chunk.bytes).length < 2147483648) :
    ∃ final, captureLoop state (chunks.map fun chunk => ⟨.data chunk, true⟩) = .ok final ∧
      Holds final (output ++ chunks.flatMap Chunk.bytes) := by
  induction chunks generalizing state output with
  | nil =>
      rw [List.flatMap_nil, List.append_nil]
      exact ⟨state, rfl, holds⟩
  | cons chunk rest ih =>
      rw [List.flatMap_cons, List.length_append] at small
      obtain ⟨next, stepped, longer⟩ := granted_holds state chunk output holds (by omega)
      obtain ⟨final, ran, whole⟩ := ih next (output ++ chunk.bytes) longer (by rw [List.length_append]; omega)
      refine ⟨final, ?_, by rw [List.flatMap_cons, ← List.append_assoc]; exact whole⟩
      rw [List.map_cons, capture_loop_cons, stepped, ok_bind]
      exact ran

theorem start_holds : Holds captureStart [] := ⟨rfl, rfl⟩

theorem exec_captures_output (output : List UInt8) (chunks : List Chunk) (changes : List Change) (ending : Ending)
    (later : List WaitResult) (cut : chunks.flatMap Chunk.bytes = output) (small : output.length < 2147483648) :
    ∃ captured, exec (chunks.map fun chunk => ⟨.data chunk, true⟩)
        ((changes.map fun change => .report change.status) ++ .report ending.status :: later) =
          .ok ⟨captured, if ending = .exited 0 then output.length else -1,
            .closed :: (changes.flatMap Change.events ++ ending.events), later⟩ ∧
      captured.out = blockOf output ∧ captured.outsize = output.length := by
  obtain ⟨captured, ran, holds⟩ := granted_run_holds captureStart chunks [] start_holds (by simpa [cut] using small)
  rw [List.nil_append, cut] at holds
  refine ⟨captured, ?_, holds.out, holds.outsize⟩
  rw [exec, ran, ok_bind, exec_result_reports]
  by_cases success : ending = .exited 0
  · simp [success, Ending.status, holds.outsize]
  · have status : ending.status ≠ 0 := fun zero => success ((ending_zero_iff ending).mp zero)
    simp [success, status]

theorem exec_captures_two_chunks :
    ∃ captured, exec [⟨.data ⟨[97, 98], by decide, by decide⟩, true⟩, ⟨.data ⟨[99], by decide, by decide⟩, true⟩]
        [.report (19 * 256 + 127), .report 65535, .report 0] =
          .ok ⟨captured, 3, [.closed, .told (.stopped 19), .sigcont, .told .continued, .told (.exited 0)], []⟩ ∧
      captured.out = .held [some 97, some 98, some 99] := by
  obtain ⟨captured, ran, out, _⟩ := exec_captures_output [97, 98, 99]
    [⟨[97, 98], by decide, by decide⟩, ⟨[99], by decide, by decide⟩]
    [.stopped ⟨19, by decide, by decide⟩, .continued] (.exited 0) [] rfl (by decide)
  exact ⟨captured, ran, out⟩

end Slogger.Spawn
