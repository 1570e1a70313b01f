import Mathlib.Algebra.Group.Int.Defs
import Mathlib.Algebra.Group.Nat.Defs
import Slogger.Condwait.System

set_option autoImplicit false

namespace Slogger.Condwait

-- The arguments of a condwait_wait, for which a length of time makes sense.
structure WaitCall where
  timeInSec : BitVec 32
  timeInMs : BitVec 32
  secNonneg : 0 ≤ timeInSec.toInt
  msNonneg : 0 ≤ timeInMs.toInt

def duration (timeInSec timeInMs : BitVec 32) : Int := timeInSec.toInt * 1000000000 + timeInMs.toInt * 1000000

def WaitCall.nanoseconds (call : WaitCall) : Int := duration call.timeInSec call.timeInMs

def advanced (start : Timespec) (calls : List WaitCall) : Timespec :=
  calls.foldl (fun timeout call => advance timeout call.timeInSec call.timeInMs) start

def requested : List WaitCall → Int
  | [] => 0
  | call :: rest => call.nanoseconds + requested rest

def Timespec.InRange (time : Timespec) : Prop := 0 ≤ time.tvNsec.toInt ∧ time.tvNsec.toInt < 1000000000

def futureNs (timeout : Timespec) (timeInMs : BitVec 32) : BitVec 64 :=
  timeout.tvNsec + timeInMs.signExtend 64 * 1000000

def carried (timeout : Timespec) (timeInSec timeInMs : BitVec 32) : BitVec 64 :=
  timeInSec.signExtend 64 + futureNs timeout timeInMs / 1000000000

-- Every intermediate value of one call is the exact one: the long product and
-- sum, the u_int64_t it becomes, and the two additions to the seconds.
structure NoWrap (timeout : Timespec) (call : WaitCall) : Prop where
  product : (call.timeInMs.signExtend 64 * 1000000).toInt = call.timeInMs.toInt * 1000000
  sum : (futureNs timeout call.timeInMs).toInt = timeout.tvNsec.toInt + call.timeInMs.toInt * 1000000
  converted : (futureNs timeout call.timeInMs).toNat = (futureNs timeout call.timeInMs).toInt
  seconds : ((carried timeout call.timeInSec call.timeInMs).toNat : Int) =
    call.timeInSec.toInt + (futureNs timeout call.timeInMs).toInt / 1000000000
  total : (timeout.tvSec + carried timeout call.timeInSec call.timeInMs).toInt =
    timeout.tvSec.toInt + (carried timeout call.timeInSec call.timeInMs).toNat
  unsigned : 0 ≤ timeout.tvSec.toInt →
    (timeout.tvSec + carried timeout call.timeInSec call.timeInMs).toNat =
      timeout.tvSec.toNat + (carried timeout call.timeInSec call.timeInMs).toNat

structure AddsExactly (start : Timespec) (calls : List WaitCall) : Prop where
  range : ∀ n, (advanced start (calls.take n)).InRange
  exact : ∀ n, (advanced start (calls.take n)).nanoseconds = start.nanoseconds + requested (calls.take n)
  noWrap : ∀ n call, calls[n]? = some call → NoWrap (advanced start (calls.take n)) call

theorem advance_parts (timeout : Timespec) (timeInSec timeInMs : BitVec 32) :
    advance timeout timeInSec timeInMs =
      ⟨timeout.tvSec + carried timeout timeInSec timeInMs, futureNs timeout timeInMs % 1000000000⟩ := rfl

theorem word_cases (word : BitVec 64) :
    word.toNat < 2 ^ 63 ∧ word.toInt = word.toNat ∨ 2 ^ 63 ≤ word.toNat ∧ word.toInt = word.toNat - 2 ^ 64 := by
  rw [BitVec.toInt_eq_toNat_cond]
  split
  · exact .inl ⟨by omega, rfl⟩
  · exact .inr ⟨by omega, by omega⟩

theorem int_extended (value : BitVec 32) (nonneg : 0 ≤ value.toInt) :
    ((value.signExtend 64).toNat : Int) = value.toInt ∧ value.toInt < 2 ^ 31 := by
  have same : (value.signExtend 64).toInt = value.toInt := BitVec.toInt_signExtend_of_le (by omega)
  have bound : value.toInt < 2 ^ 31 := BitVec.toInt_lt
  rcases word_cases (value.signExtend 64) with ⟨_, low⟩ | ⟨_, high⟩
  · exact ⟨low.symm.trans same, bound⟩
  · have small := (value.signExtend 64).isLt
    omega

theorem product_exact (timeInMs : BitVec 32) (nonneg : 0 ≤ timeInMs.toInt) :
    ((timeInMs.signExtend 64 * 1000000).toNat : Int) = timeInMs.toInt * 1000000 := by
  obtain ⟨extended, bound⟩ := int_extended timeInMs nonneg
  have million : (1000000 : BitVec 64).toNat = 1000000 := rfl
  rw [BitVec.toNat_mul, million, Nat.mod_eq_of_lt (by omega)]
  omega

theorem future_exact (timeout : Timespec) (timeInMs : BitVec 32) (range : timeout.InRange)
    (nonneg : 0 ≤ timeInMs.toInt) :
    ((futureNs timeout timeInMs).toNat : Int) = timeout.tvNsec.toInt + timeInMs.toInt * 1000000 := by
  obtain ⟨low, high⟩ := range
  have product := product_exact timeInMs nonneg
  have bound := (int_extended timeInMs nonneg).2
  rcases word_cases timeout.tvNsec with ⟨small, same⟩ | ⟨large, same⟩
  · rw [futureNs, BitVec.toNat_add, Nat.mod_eq_of_lt (by omega)]
    omega
  · have below := timeout.tvNsec.isLt
    omega

theorem carried_exact (timeout : Timespec) (timeInSec timeInMs : BitVec 32) (range : timeout.InRange)
    (secNonneg : 0 ≤ timeInSec.toInt) (msNonneg : 0 ≤ timeInMs.toInt) :
    ((carried timeout timeInSec timeInMs).toNat : Int) =
      timeInSec.toInt + ((futureNs timeout timeInMs).toNat / 1000000000 : Nat) := by
  obtain ⟨extended, bound⟩ := int_extended timeInSec secNonneg
  have sum := future_exact timeout timeInMs range msNonneg
  have msBound := (int_extended timeInMs msNonneg).2
  have high := range.2
  have billion : (1000000000 : BitVec 64).toNat = 1000000000 := rfl
  rw [carried, BitVec.toNat_add, BitVec.toNat_udiv, billion, Nat.mod_eq_of_lt (by omega)]
  omega

-- Only the last addition can wrap, and the seconds are then 2^64 too few.
theorem advance_value (timeout : Timespec) (timeInSec timeInMs : BitVec 32) (range : timeout.InRange)
    (secNonneg : 0 ≤ timeInSec.toInt) (msNonneg : 0 ≤ timeInMs.toInt) :
    (advance timeout timeInSec timeInMs).InRange ∧
      (timeout.nanoseconds + duration timeInSec timeInMs < 2 ^ 63 * 1000000000 ∧
          (advance timeout timeInSec timeInMs).nanoseconds = timeout.nanoseconds + duration timeInSec timeInMs ∨
        2 ^ 63 * 1000000000 ≤ timeout.nanoseconds + duration timeInSec timeInMs ∧
          (advance timeout timeInSec timeInMs).nanoseconds =
            timeout.nanoseconds + duration timeInSec timeInMs - 2 ^ 64 * 1000000000) := by
  have sum := future_exact timeout timeInMs range msNonneg
  have carry := carried_exact timeout timeInSec timeInMs range secNonneg msNonneg
  have secBound := (int_extended timeInSec secNonneg).2
  have msBound := (int_extended timeInMs msNonneg).2
  obtain ⟨low, high⟩ := range
  have billion : (1000000000 : BitVec 64).toNat = 1000000000 := rfl
  have rest : (futureNs timeout timeInMs % 1000000000).toNat = (futureNs timeout timeInMs).toNat % 1000000000 := by
    rw [BitVec.toNat_umod, billion]
  have nsec : (futureNs timeout timeInMs % 1000000000).toInt =
      ((futureNs timeout timeInMs).toNat % 1000000000 : Nat) := by
    rcases word_cases (futureNs timeout timeInMs % 1000000000) with ⟨_, same⟩ | ⟨large, _⟩
    · rw [same, rest]
    · omega
  have split := Nat.div_add_mod (futureNs timeout timeInMs).toNat 1000000000
  have remainder := Nat.mod_lt (futureNs timeout timeInMs).toNat (by omega : 1000000000 > 0)
  rw [advance_parts]
  simp only [Timespec.InRange, Timespec.nanoseconds, duration, nsec]
  generalize (futureNs timeout timeInMs).toNat / 1000000000 = quotient at *
  generalize (futureNs timeout timeInMs).toNat % 1000000000 = remaining at *
  -- omega takes minutes in the kernel with carried, which can be unfolded, in its atoms.
  generalize carried timeout timeInSec timeInMs = more at *
  have seconds := BitVec.toNat_add timeout.tvSec more
  refine ⟨by omega, ?_⟩
  rcases word_cases timeout.tvSec with ⟨_, now⟩ | ⟨_, now⟩ <;>
    rcases word_cases (timeout.tvSec + more) with ⟨_, next⟩ | ⟨_, next⟩ <;>
    omega

theorem call_no_wrap (timeout : Timespec) (call : WaitCall) (range : timeout.InRange)
    (below : timeout.nanoseconds + call.nanoseconds < 2 ^ 63 * 1000000000) : NoWrap timeout call := by
  have product := product_exact call.timeInMs call.msNonneg
  have sum := future_exact timeout call.timeInMs range call.msNonneg
  have carry := carried_exact timeout call.timeInSec call.timeInMs range call.secNonneg call.msNonneg
  have secBound := (int_extended call.timeInSec call.secNonneg).2
  have msBound := (int_extended call.timeInMs call.msNonneg).2
  obtain ⟨low, high⟩ := range
  have signed : (futureNs timeout call.timeInMs).toInt = (futureNs timeout call.timeInMs).toNat := by
    rcases word_cases (futureNs timeout call.timeInMs) with ⟨_, same⟩ | ⟨large, _⟩
    · exact same
    · omega
  have quotient := Nat.div_add_mod (futureNs timeout call.timeInMs).toNat 1000000000
  simp only [WaitCall.nanoseconds, duration, Timespec.nanoseconds] at below
  constructor
  · rcases word_cases (call.timeInMs.signExtend 64 * 1000000) with ⟨_, same⟩ | ⟨large, _⟩ <;> omega
  · omega
  · exact signed.symm
  · omega
  · generalize carried timeout call.timeInSec call.timeInMs = more at *
    have seconds := BitVec.toNat_add timeout.tvSec more
    rcases word_cases timeout.tvSec with ⟨_, now⟩ | ⟨_, now⟩ <;>
      rcases word_cases (timeout.tvSec + more) with ⟨_, next⟩ | ⟨_, next⟩ <;>
      omega
  · intro nonneg
    generalize carried timeout call.timeInSec call.timeInMs = more at *
    have seconds := BitVec.toNat_add timeout.tvSec more
    rcases word_cases timeout.tvSec with ⟨_, now⟩ | ⟨_, now⟩ <;> omega

theorem call_nonneg (call : WaitCall) : 0 ≤ call.nanoseconds := by
  have sec := call.secNonneg
  have ms := call.msNonneg
  rw [WaitCall.nanoseconds, duration]
  omega

theorem requested_nonneg (calls : List WaitCall) : 0 ≤ requested calls := by
  induction calls with
  | nil => exact Int.le_refl 0
  | cons call rest ih => exact Int.add_nonneg (call_nonneg call) ih

theorem nanoseconds_below (time : Timespec) (range : time.InRange) : time.nanoseconds < 2 ^ 63 * 1000000000 := by
  have bound : time.tvSec.toInt < 2 ^ 63 := BitVec.toInt_lt
  have high := range.2
  rw [Timespec.nanoseconds]
  omega

theorem calls_add_exactly (start : Timespec) (calls : List WaitCall) (range : start.InRange)
    (below : start.nanoseconds + requested calls < 2 ^ 63 * 1000000000) : AddsExactly start calls := by
  induction calls generalizing start with
  | nil =>
      refine ⟨fun n => ?_, fun n => ?_, fun n call found => by simp at found⟩
      · simpa [advanced] using range
      · simp [advanced, requested]
  | cons call rest ih =>
      have later := requested_nonneg rest
      rw [requested] at below
      obtain ⟨nextRange, moved⟩ :=
        advance_value start call.timeInSec call.timeInMs range call.secNonneg call.msNonneg
      have here : start.nanoseconds + call.nanoseconds < 2 ^ 63 * 1000000000 := by omega
      rcases moved with ⟨_, moved⟩ | ⟨wrapped, _⟩
      · have rest := ih (advance start call.timeInSec call.timeInMs) nextRange (by
          rw [moved, ← WaitCall.nanoseconds]
          omega)
        constructor
        · intro n
          cases n with
          | zero => exact range
          | succ n => exact rest.range n
        · intro n
          cases n with
          | zero => simp [advanced, requested]
          | succ n =>
              rw [List.take_succ_cons, requested, ← Int.add_assoc, WaitCall.nanoseconds, ← moved]
              exact rest.exact n
        · intro n other found
          cases n with
          | zero =>
              cases found
              exact call_no_wrap start call range here
          | succ n => exact rest.noWrap n other found
      · rw [← WaitCall.nanoseconds] at wrapped
        omega

theorem timeouts_exact (start : Timespec) (calls : List WaitCall) (range : start.InRange) :
    AddsExactly start calls ↔ start.nanoseconds + requested calls < 2 ^ 63 * 1000000000 := by
  constructor
  · intro adds
    have last := adds.exact calls.length
    have bound := nanoseconds_below _ (adds.range calls.length)
    rw [List.take_length] at last bound
    omega
  · exact calls_add_exactly start calls range

theorem timeouts_exact_two :
    AddsExactly ⟨1700000000, 999999999⟩ [⟨0, 1, by decide, by decide⟩, ⟨2, 1500, by decide, by decide⟩] :=
  (timeouts_exact ⟨1700000000, 999999999⟩ [⟨0, 1, by decide, by decide⟩, ⟨2, 1500, by decide, by decide⟩]
    ⟨by decide, by decide⟩).mpr (by decide)

end Slogger.Condwait
