import Mathlib.Algebra.Ring.Int.Defs
import Slogger.Spawn.Capture

set_option autoImplicit false

namespace Slogger.Spawn

open Slogger.Lib

def dataOf (steps : List ReadStep) : List UInt8 := steps.flatMap fun step => step.read.bytes

def Matched (state : Captured) : Prop := ∀ copy ∈ state.copies, copy.1 = copy.2

-- Every round stores as many bytes as it has read, and a result that is not
-- negative comes with exactly the bytes that were read.
def CapturesExactly (steps : List ReadStep) (results : List WaitResult) : Prop :=
  ∃ captured, captureLoop captureStart steps = .ok captured ∧ Matched captured ∧
    ∀ executed, exec steps results = .ok executed → 0 ≤ executed.result →
      executed.captured.out = blockOf (dataOf steps) ∧ executed.result = (dataOf steps).length

def Clean (steps : List ReadStep) : Prop := ∀ step ∈ steps, ∃ chunk, step = ⟨.data chunk, true⟩

def EndsWell : List WaitResult → Prop
  | .report status :: later => status = 0 ∨ (wifexited status = false ∧ wifsignaled status = false ∧ EndsWell later)
  | _ => False

-- Bytes read less reads that failed.
def balance (steps : List ReadStep) : Int := (steps.map fun step => step.read.sz).sum

-- What a round comes to, by the balance before it and whether some chunk is
-- stored: it fails, it gives the block up, or it goes on. A chunk has to find
-- its block, and a place in it; a failed read must not find one.
inductive Outcome where
  | fails
  | givesUp
  | goes (balance : Int) (stored : Bool)

def outcome (balance : Int) (stored : Bool) (step : ReadStep) : Outcome :=
  let next := balance + step.read.sz
  if !fitsInt next then .fails
  else
    match step.read with
    | .data _ => if step.granted && 0 ≤ balance then .goes next true else .fails
    | .error =>
        if stored && next = 0 then .givesUp
        else if step.granted && 0 ≤ next then .fails
        else .goes next stored

-- No round fails, and one that gives the block up is the last.
def Harmless : Int → Bool → List ReadStep → Prop
  | _, _, [] => True
  | balance, stored, step :: rest =>
      match outcome balance stored step with
      | .fails => False
      | .givesUp => rest = []
      | .goes next stored => Harmless next stored rest

structure Tracks (state : Captured) (balance : Int) (stored : Bool) : Prop where
  outsize : state.outsize = balance
  empty : stored = false → state.out = .null
  block : stored = true → 0 < balance ∧ ∃ slots, state.out = .held slots

theorem error_overruns (slots : Slots) (offset : Int) (source : List UInt8) (small : source.length ≤ 100) :
    memcpy slots offset source (sizeT (-1)) = .error .overrun := by
  have count : sizeT (-1) = 18446744073709551615 := by decide
  rw [memcpy, if_pos (by omega)]

theorem refilled (commandOut : List UInt8) (read : ReadResult) (buffer : commandOut.length = 100) :
    (read.bytes ++ commandOut.drop read.bytes.length).length = 100 := by
  have short : read.bytes.length ≤ 100 := by
    cases read with
    | data chunk => exact Nat.le_succ_of_le chunk.fits
    | error => exact Nat.zero_le _
  rw [List.length_append, List.length_drop]
  omega

theorem captured_step (state next : Captured) (step : ReadStep) (buffered : state.commandOut.length = 100)
    (ran : captureStep state step = .ok next) :
    next.commandOut.length = 100 ∧ next.outsize = state.outsize + step.read.sz ∧
      fitsInt (state.outsize + step.read.sz) = true := by
  have buffer := refilled state.commandOut step.read buffered
  rw [captureStep] at ran
  split at ran
  · cases ran
  · rename_i fits
    rw [Bool.not_eq_true, Bool.not_eq_false'] at fits
    obtain ⟨⟨out, tmp⟩, _, ran⟩ := (bind_ok_iff _ _ next).mp ran
    cases tmp with
    | none =>
        obtain rfl := Except.ok.inj ran
        exact ⟨buffer, rfl, fits⟩
    | some slots =>
        obtain ⟨stored, copied, ran⟩ := (bind_ok_iff _ _ next).mp ran
        obtain rfl := Except.ok.inj ran
        exact ⟨buffer, rfl, fits⟩

theorem captured_run (state final : Captured) (steps : List ReadStep) (buffered : state.commandOut.length = 100)
    (ran : captureLoop state steps = .ok final) : final.outsize = state.outsize + balance steps := by
  induction steps generalizing state with
  | nil =>
      obtain rfl := Except.ok.inj ran
      simp [balance]
  | cons step rest ih =>
      rw [capture_loop_cons] at ran
      obtain ⟨next, stepped, later⟩ := (bind_ok_iff _ _ final).mp ran
      obtain ⟨kept, grown, _⟩ := captured_step state next step buffered stepped
      rw [ih next kept later, grown, balance, balance, List.map_cons, List.sum_cons, Int.add_assoc]

theorem start_buffered : captureStart.commandOut.length = 100 := List.length_replicate

theorem start_matched : Matched captureStart := nofun

theorem copies_recorded (state next : Captured) (step : ReadStep) (ran : captureStep state step = .ok next) :
    ∃ count, next.copies = state.copies ++ [(count, step.read.bytes.length)] := by
  rw [captureStep] at ran
  split at ran
  · cases ran
  · obtain ⟨⟨out, tmp⟩, _, ran⟩ := (bind_ok_iff _ _ next).mp ran
    cases tmp with
    | none =>
        obtain rfl := Except.ok.inj ran
        exact ⟨0, rfl⟩
    | some slots =>
        obtain ⟨stored, _, ran⟩ := (bind_ok_iff _ _ next).mp ran
        obtain rfl := Except.ok.inj ran
        exact ⟨sizeT step.read.sz, rfl⟩

theorem matched_before (state final : Captured) (steps : List ReadStep) (ran : captureLoop state steps = .ok final)
    (matched : Matched final) : Matched state := by
  induction steps generalizing state with
  | nil =>
      obtain rfl := Except.ok.inj ran
      exact matched
  | cons step rest ih =>
      rw [capture_loop_cons] at ran
      obtain ⟨next, stepped, later⟩ := (bind_ok_iff _ _ final).mp ran
      obtain ⟨count, grown⟩ := copies_recorded state next step stepped
      intro copy member
      apply ih next later copy
      rw [grown]
      exact List.mem_append_left _ member

theorem matched_longer (state next : Captured) (count : Nat) (matched : Matched state)
    (grown : next.copies = state.copies ++ [(count, count)]) : Matched next := by
  intro copy member
  rw [grown] at member
  rcases List.mem_append.mp member with earlier | here
  · exact matched copy earlier
  · rw [List.mem_singleton.mp here]

theorem overflow_round (state : Captured) (step : ReadStep) (overflows : fitsInt (state.outsize + step.read.sz) = false) :
    captureStep state step = .error .overflow := by
  simp only [captureStep, overflows, Bool.not_false, if_true]

theorem unserved_round (state : Captured) (step : ReadStep) (out : Block)
    (fits : fitsInt (state.outsize + step.read.sz) = true)
    (refused : realloc state.out (sizeT (state.outsize + step.read.sz)) step.granted = .ok (out, none)) :
    captureStep state step = .ok ⟨out, state.outsize + step.read.sz,
      step.read.bytes ++ state.commandOut.drop step.read.bytes.length,
      state.copies ++ [(0, step.read.bytes.length)]⟩ := by
  simp only [captureStep, fits, refused, ok_bind, Bool.not_true, Bool.false_eq_true, if_false]

theorem faulting_round (state : Captured) (step : ReadStep) (out : Block) (slots : Slots) (fault : ExecFault)
    (fits : fitsInt (state.outsize + step.read.sz) = true)
    (served : realloc state.out (sizeT (state.outsize + step.read.sz)) step.granted = .ok (out, some slots))
    (wrong : memcpy slots state.outsize (step.read.bytes ++ state.commandOut.drop step.read.bytes.length)
      (sizeT step.read.sz) = .error fault) : captureStep state step = .error fault := by
  simp only [captureStep, fits, served, wrong, ok_bind, error_bind, Bool.not_true, Bool.false_eq_true, if_false]

-- A block for a failed read: memcpy is given the count (size_t)-1.
theorem error_round (state : Captured) (out : Block) (slots : Slots) (granted : Bool)
    (buffered : state.commandOut.length = 100) (fits : fitsInt (state.outsize + -1) = true)
    (served : realloc state.out (sizeT (state.outsize + -1)) granted = .ok (out, some slots)) :
    captureStep state ⟨.error, granted⟩ = .error .overrun := by
  have buffer := refilled state.commandOut .error buffered
  exact faulting_round state ⟨.error, granted⟩ out slots .overrun fits served
    (error_overruns slots _ _ (Nat.le_of_eq buffer))

-- A block for a chunk while *outsize is negative: its place lies before tmp.
theorem negative_round (state : Captured) (chunk : Chunk) (out : Block) (slots : Slots) (granted : Bool)
    (negative : state.outsize < 0) (fits : fitsInt (state.outsize + chunk.bytes.length) = true)
    (served : realloc state.out (sizeT (state.outsize + chunk.bytes.length)) granted = .ok (out, some slots)) :
    captureStep state ⟨.data chunk, granted⟩ = .error .outside := by
  have short := chunk.fits
  have count : sizeT (ReadResult.data chunk).sz = chunk.bytes.length := size_t_of_nat _ (by omega)
  have room : ¬ (chunk.bytes ++ state.commandOut.drop chunk.bytes.length).length < chunk.bytes.length := by
    rw [List.length_append]
    omega
  apply faulting_round state ⟨.data chunk, granted⟩ out slots .outside fits served
  rw [count, memcpy, ReadResult.bytes, if_neg room, if_pos (.inl negative)]

theorem size_t_allowed (value : Int) (fits : fitsInt value = true) : sizeT value ≤ ptrdiffMax ↔ 0 ≤ value := by
  by_cases negative : value < 0
  · have huge := size_t_negative value fits negative
    exact iff_of_false (Nat.not_le_of_lt huge) (Int.not_le.mpr negative)
  · rw [fits_int_iff] at fits
    have same := size_t_of_nat value.toNat (by omega)
    rw [Int.toNat_of_nonneg (Int.not_lt.mp negative)] at same
    rw [same, ptrdiffMax]
    omega

theorem size_t_zero (value : Int) (fits : fitsInt value = true) : sizeT value = 0 ↔ value = 0 := by
  rw [fits_int_iff] at fits
  rw [sizeT, BitVec.toNat_ofInt]
  omega

def Meets (state : Captured) (step : ReadStep) : Outcome → Prop
  | .fails => ∀ next, captureStep state step = .ok next → ¬Matched next
  | .givesUp => ∃ next, captureStep state step = .ok next ∧ next.out = .freed ∧ Matched next
  | .goes balance stored => ∃ next, captureStep state step = .ok next ∧ Tracks next balance stored ∧ Matched next

theorem stored_chunk (state : Captured) (chunk : Chunk) (old : Slots) (backs : Backs state.out old)
    (positive : 0 ≤ state.outsize) (fits : fitsInt (state.outsize + chunk.bytes.length) = true)
    (matched : Matched state) :
    ∃ next, captureStep state ⟨.data chunk, true⟩ = .ok next ∧
      Tracks next (state.outsize + chunk.bytes.length) true ∧ Matched next := by
  have nonempty := List.length_pos_of_ne_nil chunk.nonempty
  rw [fits_int_iff] at fits
  have sized : state.outsize = state.outsize.toNat := (Int.toNat_of_nonneg positive).symm
  have ran := granted_round state chunk state.outsize.toNat old backs sized (by omega)
  refine ⟨_, ran, ⟨?_, nofun, fun _ => ⟨by omega, _, rfl⟩⟩, matched_longer state _ _ matched rfl⟩
  simp only [Int.natCast_add]
  omega

theorem dropped_chunk (state : Captured) (chunk : Chunk) (granted : Bool) (out : Block)
    (fits : fitsInt (state.outsize + chunk.bytes.length) = true)
    (refused : realloc state.out (sizeT (state.outsize + chunk.bytes.length)) granted = .ok (out, none)) :
    Meets state ⟨.data chunk, granted⟩ .fails := by
  have nonempty := List.length_pos_of_ne_nil chunk.nonempty
  intro next ran matched
  obtain rfl := Except.ok.inj ((unserved_round state ⟨.data chunk, granted⟩ out fits refused).symm.trans ran)
  have copied : (0 : Nat) = chunk.bytes.length := matched _ (List.mem_append_right _ (List.mem_singleton_self _))
  omega

theorem faulting_fails (state : Captured) (step : ReadStep) (fault : ExecFault)
    (failed : captureStep state step = .error fault) : Meets state step .fails := by
  intro next ran
  rw [failed] at ran
  cases ran

theorem unserved_error (state : Captured) (granted : Bool) (out : Block) (fits : fitsInt (state.outsize + -1) = true)
    (refused : realloc state.out (sizeT (state.outsize + -1)) granted = .ok (out, none)) (matched : Matched state) :
    ∃ next, captureStep state ⟨.error, granted⟩ = .ok next ∧ next.out = out ∧ next.outsize = state.outsize + -1 ∧
      Matched next :=
  ⟨_, unserved_round state ⟨.error, granted⟩ out fits refused, rfl, rfl, matched_longer state _ 0 matched rfl⟩

theorem unallowed_refused (value : Int) (granted : Bool) (fits : fitsInt value = true)
    (unserved : ¬ (granted = true ∧ 0 ≤ value)) : (granted && decide (sizeT value ≤ ptrdiffMax)) = false := by
  rw [← Bool.not_eq_true, Bool.and_eq_true, decide_eq_true_iff, size_t_allowed value fits]
  exact unserved

theorem chunk_stored (state : Captured) (chunk : Chunk) (granted : Bool) (slots : Slots) (held : state.out = .held slots)
    (positive : 0 < state.outsize) (fits : fitsInt (state.outsize + chunk.bytes.length) = true)
    (matched : Matched state) :
    Meets state ⟨.data chunk, granted⟩ (outcome state.outsize true ⟨.data chunk, granted⟩) := by
  have ahead := Int.le_of_lt positive
  simp only [outcome, ReadResult.sz, fits, Bool.not_true, Bool.false_eq_true, if_false, ahead, decide_true, Bool.and_true]
  cases granted with
  | true => exact stored_chunk state chunk slots (held ▸ .held slots) ahead fits matched
  | false =>
      have some : ¬ sizeT (state.outsize + chunk.bytes.length) = 0 := by
        rw [size_t_zero _ fits]
        omega
      apply dropped_chunk state chunk false (.held slots) fits
      rw [held, realloc, if_neg some, Bool.false_and, if_neg Bool.false_ne_true]

theorem chunk_unstored (state : Captured) (chunk : Chunk) (granted : Bool) (null : state.out = .null)
    (fits : fitsInt (state.outsize + chunk.bytes.length) = true) (matched : Matched state) :
    Meets state ⟨.data chunk, granted⟩ (outcome state.outsize false ⟨.data chunk, granted⟩) := by
  simp only [outcome, ReadResult.sz, fits, Bool.not_true, Bool.false_eq_true, if_false]
  by_cases ahead : 0 ≤ state.outsize
  · simp only [ahead, decide_true, Bool.and_true]
    cases granted with
    | true => exact stored_chunk state chunk [] (null ▸ .null) ahead fits matched
    | false =>
        apply dropped_chunk state chunk false .null fits
        rw [null, realloc]
        rfl
  · simp only [ahead, decide_false, Bool.and_false, Bool.false_eq_true, if_false]
    by_cases served : granted = true ∧ 0 ≤ state.outsize + chunk.bytes.length
    · apply faulting_fails state _ .outside
      have allowed := (size_t_allowed _ fits).mpr served.2
      apply negative_round state chunk .null _ granted (Int.not_le.mp ahead) fits
      rw [null, realloc, served.1]
      simp only [Bool.true_and, allowed, decide_true, if_true]
      rfl
    · apply dropped_chunk state chunk granted .null fits
      rw [null, realloc, unallowed_refused _ granted fits served]
      rfl

theorem error_stored (state : Captured) (granted : Bool) (slots : Slots) (buffered : state.commandOut.length = 100)
    (held : state.out = .held slots) (positive : 0 < state.outsize) (fits : fitsInt (state.outsize + -1) = true)
    (matched : Matched state) : Meets state ⟨.error, granted⟩ (outcome state.outsize true ⟨.error, granted⟩) := by
  simp only [outcome, ReadResult.sz, fits, Bool.not_true, Bool.false_eq_true, if_false, Bool.true_and]
  by_cases zero : state.outsize + -1 = 0
  · have refused : realloc state.out (sizeT (state.outsize + -1)) granted = .ok (.freed, none) := by
      rw [held, realloc, if_pos ((size_t_zero _ fits).mpr zero)]
    obtain ⟨next, ran, freed, _, kept⟩ := unserved_error state granted .freed fits refused matched
    simp only [zero, decide_true, if_true]
    exact ⟨next, ran, freed, kept⟩
  · have room : 0 ≤ state.outsize + -1 := by omega
    have some : ¬ sizeT (state.outsize + -1) = 0 := fun none => zero ((size_t_zero _ fits).mp none)
    simp only [zero, room, decide_false, Bool.false_eq_true, if_false, decide_true, Bool.and_true]
    cases granted with
    | true =>
        obtain ⟨spent, served⟩ := realloc_granted state.out slots _ (held ▸ .held slots) (Nat.pos_of_ne_zero some)
          ((size_t_allowed _ fits).mpr room)
        exact faulting_fails state _ .overrun (error_round state spent _ true buffered fits served)
    | false =>
        have refused : realloc state.out (sizeT (state.outsize + -1)) false = .ok (.held slots, none) := by
          rw [held, realloc, if_neg some, Bool.false_and, if_neg Bool.false_ne_true]
        obtain ⟨next, ran, out, outsize, kept⟩ := unserved_error state false _ fits refused matched
        exact ⟨next, ran, ⟨outsize, by simp, fun _ => ⟨by omega, slots, out⟩⟩, kept⟩

theorem error_unstored (state : Captured) (granted : Bool) (buffered : state.commandOut.length = 100)
    (null : state.out = .null) (fits : fitsInt (state.outsize + -1) = true) (matched : Matched state) :
    Meets state ⟨.error, granted⟩ (outcome state.outsize false ⟨.error, granted⟩) := by
  simp only [outcome, ReadResult.sz, fits, Bool.not_true, Bool.false_and, Bool.false_eq_true, if_false]
  by_cases served : granted = true ∧ 0 ≤ state.outsize + -1
  · have allowed := (size_t_allowed _ fits).mpr served.2
    simp only [served.1, served.2, decide_true, Bool.and_true, if_true]
    apply faulting_fails state _ .overrun
    apply error_round state .null (List.replicate (sizeT (state.outsize + -1)) none) true buffered fits
    simp [null, realloc, allowed]
  · have refused : realloc state.out (sizeT (state.outsize + -1)) granted = .ok (.null, none) := by
      rw [null, realloc, unallowed_refused _ granted fits served]
      rfl
    obtain ⟨next, ran, out, outsize, kept⟩ := unserved_error state granted .null fits refused matched
    have goesOn : Meets state ⟨.error, granted⟩ (.goes (state.outsize + -1) false) :=
      ⟨next, ran, ⟨outsize, fun _ => out, by simp⟩, kept⟩
    cases granted with
    | false => exact goesOn
    | true =>
        have negative : ¬ 0 ≤ state.outsize + -1 := fun room => served ⟨rfl, room⟩
        simp only [negative, decide_false, Bool.and_false, Bool.false_eq_true, if_false]
        exact goesOn

theorem round_meets (state : Captured) (step : ReadStep) (before : Int) (stored : Bool)
    (buffered : state.commandOut.length = 100) (tracks : Tracks state before stored) (matched : Matched state) :
    Meets state step (outcome before stored step) := by
  obtain ⟨rfl, empty, block⟩ := tracks
  by_cases fits : fitsInt (state.outsize + step.read.sz) = true
  · obtain ⟨read, granted⟩ := step
    cases stored with
    | true =>
        obtain ⟨positive, slots, held⟩ := block rfl
        cases read with
        | data chunk => exact chunk_stored state chunk granted slots held positive fits matched
        | error => exact error_stored state granted slots buffered held positive fits matched
    | false =>
        cases read with
        | data chunk => exact chunk_unstored state chunk granted (empty rfl) fits matched
        | error => exact error_unstored state granted buffered (empty rfl) fits matched
  · have overflows := Bool.eq_false_iff.mpr fits
    simp only [outcome, overflows, Bool.not_false, if_true]
    exact faulting_fails state step .overflow (overflow_round state step overflows)

theorem freed_faults (state : Captured) (step : ReadStep) (freed : state.out = .freed) :
    ∃ fault, captureStep state step = .error fault := by
  by_cases fits : fitsInt (state.outsize + step.read.sz) = true
  · exact ⟨.dangling, by simp [captureStep, fits, freed, realloc]⟩
  · exact ⟨.overflow, overflow_round state step (Bool.eq_false_iff.mpr fits)⟩

theorem harmless_iff (state : Captured) (before : Int) (stored : Bool) (steps : List ReadStep)
    (buffered : state.commandOut.length = 100) (tracks : Tracks state before stored) (matched : Matched state) :
    (∃ final, captureLoop state steps = .ok final ∧ Matched final) ↔ Harmless before stored steps := by
  induction steps generalizing state before stored with
  | nil => exact iff_of_true ⟨state, rfl, matched⟩ trivial
  | cons step rest ih =>
      have meets := round_meets state step before stored buffered tracks matched
      rw [capture_loop_cons, Harmless]
      cases judged : outcome before stored step with
      | fails =>
          rw [judged] at meets
          refine iff_of_false ?_ id
          rintro ⟨final, looped, whole⟩
          obtain ⟨next, stepped, later⟩ := (bind_ok_iff _ _ final).mp looped
          exact meets next stepped (matched_before next final rest later whole)
      | givesUp =>
          rw [judged] at meets
          obtain ⟨next, ran, freed, kept⟩ := meets
          rw [ran]
          simp only [ok_bind]
          cases rest with
          | nil => exact iff_of_true ⟨next, rfl, kept⟩ rfl
          | cons follower rest =>
              obtain ⟨fault, failed⟩ := freed_faults next follower freed
              refine iff_of_false ?_ (List.cons_ne_nil _ _)
              rw [capture_loop_cons, failed]
              simp
      | goes after kept =>
          rw [judged] at meets
          obtain ⟨next, ran, tracked, still⟩ := meets
          rw [ran]
          simp only [ok_bind]
          exact ih next after kept (captured_step state next step buffered ran).1 tracked still

theorem ends_well_loop (results : List WaitResult) :
    EndsWell results ↔ ∃ waited, waitLoop results = some waited ∧ waited.status = 0 := by
  induction results with
  | nil => simp [EndsWell, waitLoop]
  | cons result later ih =>
      cases result with
      | error => simp [EndsWell, waitLoop]
      | report status =>
          rw [EndsWell, waitLoop, ih]
          by_cases goesOn : (!wifexited status && !wifsignaled status) = true
          · have unended : wifexited status = false ∧ wifsignaled status = false := by simpa using goesOn
            have nonzero : status ≠ 0 := by
              rintro rfl
              cases unended.1
            simp [nonzero, unended]
          · have ended : ¬ (wifexited status = false ∧ wifsignaled status = false) :=
              fun unended => goesOn (by simp [unended])
            rw [if_neg goesOn, ← and_assoc]
            simp [ended]

theorem ends_well_iff (results : List WaitResult) :
    EndsWell results ↔ ∃ waited, forkDup2ExecResult results = some waited ∧ waited.status = 0 := by
  rw [ends_well_loop]
  simp [forkDup2ExecResult]

-- What a refused realloc leaves behind: a block that is too small for
-- *outsize, or a stretch of it nothing was stored in.
def Gap (state : Captured) (size : Nat) : Prop :=
  state.outsize = size ∧ ∃ slots, Backs state.out slots ∧ slots.length ≤ size ∧ (none ∈ slots ∨ slots.length < size)

theorem refused_chunk (state : Captured) (chunk : Chunk) (size : Nat) (slots : Slots) (backs : Backs state.out slots)
    (sized : state.outsize = size) (fits : fitsInt (state.outsize + chunk.bytes.length) = true) :
    ∃ next, captureStep state ⟨.data chunk, false⟩ = .ok next ∧ next.out = state.out ∧
      next.outsize = ((size + chunk.bytes.length : Nat) : Int) := by
  have nonempty := List.length_pos_of_ne_nil chunk.nonempty
  have some : sizeT (state.outsize + chunk.bytes.length) ≠ 0 := by
    rw [ne_eq, size_t_zero _ fits]
    omega
  have refused : realloc state.out (sizeT (state.outsize + chunk.bytes.length)) false = .ok (state.out, none) := by
    cases out : state.out with
    | null => rfl
    | held slots => rw [realloc, if_neg some, Bool.false_and, if_neg Bool.false_ne_true]
    | freed =>
        rw [out] at backs
        cases backs
  refine ⟨_, unserved_round state ⟨.data chunk, false⟩ state.out fits refused, rfl, ?_⟩
  rw [Int.natCast_add, ← sized]
  rfl

theorem gap_kept (state next : Captured) (chunk : Chunk) (granted : Bool) (size : Nat)
    (buffered : state.commandOut.length = 100)
    (gap : Gap state size) (ran : captureStep state ⟨.data chunk, granted⟩ = .ok next) :
    Gap next (size + chunk.bytes.length) := by
  obtain ⟨sized, slots, backs, short, missing⟩ := gap
  have nonempty := List.length_pos_of_ne_nil chunk.nonempty
  have fits := (captured_step state next _ buffered ran).2.2
  cases granted with
  | false =>
      obtain ⟨after, same, out, outsize⟩ := refused_chunk state chunk size slots backs sized fits
      obtain rfl := Except.ok.inj (ran.symm.trans same)
      exact ⟨outsize, slots, out ▸ backs, by omega, .inr (by omega)⟩
  | true =>
      rw [fits_int_iff, sized, ReadResult.sz] at fits
      have same := granted_round state chunk size slots backs sized (by omega)
      obtain rfl := Except.ok.inj (ran.symm.trans same)
      refine ⟨rfl, _, .held _, ?_, .inl ?_⟩
      · simp
        omega
      · rw [List.take_of_length_le short]
        rcases missing with hole | small
        · simp [hole]
        · have room : size - slots.length ≠ 0 := by omega
          simp [room]

theorem holds_or_gap (state next : Captured) (chunk : Chunk) (granted : Bool) (output : List UInt8)
    (buffered : state.commandOut.length = 100)
    (holds : Holds state output) (ran : captureStep state ⟨.data chunk, granted⟩ = .ok next) :
    if granted then Holds next (output ++ chunk.bytes) else Gap next (output ++ chunk.bytes).length := by
  have nonempty := List.length_pos_of_ne_nil chunk.nonempty
  have fits := (captured_step state next _ buffered ran).2.2
  cases granted with
  | true =>
      rw [fits_int_iff, holds.outsize, ReadResult.sz] at fits
      obtain ⟨after, same, longer⟩ := granted_holds state chunk output holds (by omega)
      obtain rfl := Except.ok.inj (ran.symm.trans same)
      exact longer
  | false =>
      have backs : Backs state.out (output.map some) := holds.out ▸ backs_block_of output
      obtain ⟨after, same, out, outsize⟩ := refused_chunk state chunk output.length _ backs holds.outsize fits
      obtain rfl := Except.ok.inj (ran.symm.trans same)
      rw [List.length_append]
      exact ⟨outsize, _, out ▸ backs, by simp, .inr (by simpa using nonempty)⟩

theorem data_of_cons (chunk : Chunk) (granted : Bool) (rest : List ReadStep) :
    dataOf (⟨.data chunk, granted⟩ :: rest) = chunk.bytes ++ dataOf rest := rfl

theorem gap_run (state final : Captured) (steps : List ReadStep) (size : Nat)
    (buffered : state.commandOut.length = 100) (gap : Gap state size)
    (data : ∀ step ∈ steps, ∃ chunk, step.read = .data chunk) (ran : captureLoop state steps = .ok final) :
    Gap final (size + (dataOf steps).length) := by
  induction steps generalizing state size with
  | nil =>
      obtain rfl := Except.ok.inj ran
      exact gap
  | cons step rest ih =>
      obtain ⟨read, granted⟩ := step
      obtain ⟨chunk, same⟩ := data _ List.mem_cons_self
      obtain rfl : read = .data chunk := same
      rw [capture_loop_cons] at ran
      obtain ⟨next, stepped, later⟩ := (bind_ok_iff _ _ final).mp ran
      have kept := gap_kept state next chunk granted size buffered gap stepped
      have ended := ih next _ (captured_step state next _ buffered stepped).1 kept
        (fun other member => data other (List.mem_cons_of_mem _ member)) later
      rw [data_of_cons, List.length_append, ← Nat.add_assoc]
      exact ended

theorem data_run (state final : Captured) (steps : List ReadStep) (output : List UInt8)
    (buffered : state.commandOut.length = 100)
    (holds : Holds state output) (data : ∀ step ∈ steps, ∃ chunk, step.read = .data chunk)
    (ran : captureLoop state steps = .ok final) :
    (Clean steps ∧ Holds final (output ++ dataOf steps)) ∨
      (¬ Clean steps ∧ Gap final (output ++ dataOf steps).length) := by
  induction steps generalizing state output with
  | nil =>
      obtain rfl := Except.ok.inj ran
      exact .inl ⟨nofun, by simpa [dataOf] using holds⟩
  | cons step rest ih =>
      obtain ⟨read, granted⟩ := step
      obtain ⟨chunk, same⟩ := data _ List.mem_cons_self
      obtain rfl : read = .data chunk := same
      have others : ∀ step ∈ rest, ∃ chunk, step.read = .data chunk :=
        fun other member => data other (List.mem_cons_of_mem _ member)
      rw [capture_loop_cons] at ran
      obtain ⟨next, stepped, later⟩ := (bind_ok_iff _ _ final).mp ran
      have kept := (captured_step state next _ buffered stepped).1
      have after := holds_or_gap state next chunk granted output buffered holds stepped
      rw [data_of_cons, ← List.append_assoc]
      cases granted with
      | true =>
          rcases ih next _ kept after others later with ⟨clean, whole⟩ | ⟨unclean, gap⟩
          · refine .inl ⟨?_, whole⟩
            intro other member
            rcases List.mem_cons.mp member with rfl | inRest
            · exact ⟨chunk, rfl⟩
            · exact clean other inRest
          · exact .inr ⟨fun clean => unclean fun other member => clean other (List.mem_cons_of_mem _ member), gap⟩
      | false =>
          have unclean : ¬ Clean (⟨.data chunk, false⟩ :: rest) := by
            intro clean
            obtain ⟨_, same⟩ := clean _ List.mem_cons_self
            cases same
          rw [List.length_append]
          exact .inr ⟨unclean, gap_run next final rest _ kept after others later⟩

theorem backs_unique (out : Block) (slots others : Slots) (backs : Backs out slots) (again : Backs out others) :
    slots = others := by
  cases backs with
  | null =>
      cases again
      rfl
  | held =>
      cases again
      rfl

theorem gap_not_whole (state : Captured) (output : List UInt8) (gap : Gap state output.length) :
    state.out ≠ blockOf output := by
  obtain ⟨_, slots, backs, _, missing⟩ := gap
  intro whole
  rw [backs_unique state.out slots _ backs (whole ▸ backs_block_of output)] at missing
  simp at missing

theorem balance_bound (steps : List ReadStep) : balance steps ≤ (dataOf steps).length ∧
    (balance steps = (dataOf steps).length → ∀ step ∈ steps, ∃ chunk, step.read = .data chunk) := by
  induction steps with
  | nil => simp [balance, dataOf]
  | cons step rest ih =>
      obtain ⟨read, granted⟩ := step
      obtain ⟨below, even⟩ := ih
      have summed : balance (⟨read, granted⟩ :: rest) = read.sz + balance rest := by
        rw [balance, List.map_cons, List.sum_cons]
        rfl
      have joined : dataOf (⟨read, granted⟩ :: rest) = read.bytes ++ dataOf rest := rfl
      rw [summed, joined, List.length_append, Int.natCast_add]
      cases read with
      | data chunk =>
          simp only [ReadResult.sz, ReadResult.bytes]
          refine ⟨by omega, fun equal => ?_⟩
          intro other member
          rcases List.mem_cons.mp member with rfl | inRest
          · exact ⟨chunk, rfl⟩
          · exact even (by omega) other inRest
      | error =>
          simp only [ReadResult.sz, ReadResult.bytes, List.length_nil]
          exact ⟨by omega, fun equal => by omega⟩

theorem exec_ran (steps : List ReadStep) (results : List WaitResult) (captured : Captured) (executed : Executed)
    (looped : captureLoop captureStart steps = .ok captured) (ran : exec steps results = .ok executed) :
    executed.captured = captured ∧ (EndsWell results ∧ executed.result = captured.outsize ∨ executed.result = -1) := by
  rw [exec, looped, ok_bind] at ran
  cases reported : forkDup2ExecResult results with
  | none =>
      rw [reported] at ran
      cases ran
  | some waited =>
      rw [reported] at ran
      obtain rfl := Except.ok.inj ran
      refine ⟨rfl, ?_⟩
      by_cases zero : waited.status = 0
      · exact .inl ⟨(ends_well_iff results).mpr ⟨waited, reported, zero⟩, if_neg (not_not_intro zero)⟩
      · exact .inr (if_pos zero)

theorem exec_succeeds (steps : List ReadStep) (results : List WaitResult) (captured : Captured)
    (looped : captureLoop captureStart steps = .ok captured) (well : EndsWell results) :
    ∃ executed, exec steps results = .ok executed ∧ executed.captured = captured ∧ executed.result = captured.outsize := by
  obtain ⟨waited, reported, zero⟩ := (ends_well_iff results).mp well
  refine ⟨⟨captured, captured.outsize, waited.events, waited.later⟩, ?_, rfl, rfl⟩
  rw [exec, looped, ok_bind, reported]
  simp [zero]

theorem start_tracks : Tracks captureStart 0 false := ⟨rfl, fun _ => rfl, nofun⟩

-- Either nothing fails, or the failures do no harm and the result shows that
-- something went wrong.
theorem captures_exactly_iff (steps : List ReadStep) (results : List WaitResult) :
    CapturesExactly steps results ↔
      Harmless 0 false steps ∧ (Clean steps ∨ ¬ EndsWell results ∨ balance steps < 0) := by
  have reaches := harmless_iff captureStart 0 false steps start_buffered start_tracks start_matched
  constructor
  · rintro ⟨captured, looped, matched, exactly⟩
    refine ⟨reaches.mp ⟨captured, looped, matched⟩, ?_⟩
    have counted := captured_run captureStart captured steps start_buffered looped
    rw [show captureStart.outsize = 0 from rfl, Int.zero_add] at counted
    by_cases well : EndsWell results
    · by_cases negative : balance steps < 0
      · exact .inr (.inr negative)
      · obtain ⟨executed, ran, same, result⟩ := exec_succeeds steps results captured looped well
        obtain ⟨whole, length⟩ := exactly executed ran (by omega)
        have data := (balance_bound steps).2 (by omega)
        rcases data_run captureStart captured steps [] start_buffered start_holds data looped with
          ⟨clean, _⟩ | ⟨_, gap⟩
        · exact .inl clean
        · rw [List.nil_append] at gap
          rw [same] at whole
          exact absurd whole (gap_not_whole captured (dataOf steps) gap)
    · exact .inr (.inl well)
  · rintro ⟨harmless, shown⟩
    obtain ⟨captured, looped, matched⟩ := reaches.mpr harmless
    have counted := captured_run captureStart captured steps start_buffered looped
    rw [show captureStart.outsize = 0 from rfl, Int.zero_add] at counted
    refine ⟨captured, looped, matched, ?_⟩
    intro executed ran nonnegative
    obtain ⟨rfl, ⟨well, result⟩ | failed⟩ := exec_ran steps results captured executed looped ran
    · rcases shown with clean | unwell | negative
      · have data : ∀ step ∈ steps, ∃ chunk, step.read = .data chunk := by
          intro step member
          obtain ⟨chunk, rfl⟩ := clean step member
          exact ⟨chunk, rfl⟩
        rcases data_run captureStart executed.captured steps [] start_buffered start_holds data looped with
          ⟨_, holds⟩ | ⟨unclean, _⟩
        · rw [List.nil_append] at holds
          exact ⟨holds.out, result.trans holds.outsize⟩
        · exact absurd clean unclean
      · exact absurd well unwell
      · omega
    · omega

-- A realloc that is refused and one that works again leave a byte nothing was
-- stored in and count it, and a child that fails does not make up for a byte
-- that was dropped; a failed read makes memcpy run over command_out.
theorem failures_turned_into_contents :
    ¬ CapturesExactly [⟨.data ⟨[97], by decide, by decide⟩, false⟩, ⟨.data ⟨[98], by decide, by decide⟩, true⟩]
        [.report 0] ∧
      ¬ CapturesExactly [⟨.data ⟨[97], by decide, by decide⟩, false⟩] [.report 256] ∧
      ¬ CapturesExactly [⟨.data ⟨[97, 98], by decide, by decide⟩, true⟩, ⟨.error, true⟩] [.report 0] := by
  refine ⟨?_, ?_, ?_⟩
  · rintro ⟨_, _, _, exactly⟩
    obtain ⟨whole, _⟩ := exactly ⟨⟨.held [none, some 98], 2, 98 :: List.replicate 99 0, [(0, 1), (1, 1)]⟩, 2,
      [.closed, .told (.exited 0)], []⟩ (by decide +kernel) (by decide)
    exact absurd whole (by decide)
  · rintro ⟨captured, looped, matched, _⟩
    obtain rfl := Except.ok.inj looped
    exact absurd (matched (0, 1) List.mem_cons_self) (by decide)
  · rintro ⟨_, looped, _⟩
    cases looped

end Slogger.Spawn
