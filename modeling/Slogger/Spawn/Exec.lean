import Mathlib.Data.List.Basic
import Slogger.Lib.Runs

set_option autoImplicit false

namespace Slogger.Spawn

open Slogger.Lib

inductive ChildPc where
  | running
  | exited (code : UInt8)
  | signaled (signal : Nat)
deriving DecidableEq

inductive ReaderPc where
  | testing
  | reading
  | writing (sz : Int)
  | finished
deriving DecidableEq

-- exec_stop between its steps: clearing and killing are only for an Exec that
-- is not blocking.
inductive StopperPc where
  | before
  | clearing
  | killing
  | closing
  | waiting
  | joining
  | returned
deriving DecidableEq

-- output is all the child writes in its life. passed is what fwrite was given
-- so far, none once it was told to read past its buffer; late says that the
-- last read was made after the descriptor had been closed.
structure ExecState where
  output : List UInt8
  unwritten : List UInt8
  child : ChildPc
  pipe : List UInt8
  opened : Bool
  blocking : Bool
  keeprunning : Bool
  reader : ReaderPc
  commandOut : List UInt8
  stopper : StopperPc
  passed : Option (List UInt8)
  late : Bool
deriving DecidableEq

def ExecState.initial (blocking : Bool) (output : List UInt8) : ExecState where
  output := output
  unwritten := output
  child := .running
  pipe := []
  opened := true
  blocking := blocking
  keeprunning := true
  reader := .testing
  commandOut := List.replicate 100 0
  stopper := .before
  passed := some []
  late := false

inductive ExecLabel where
  | childWrite (count : Nat)
  | childExit (code : UInt8)
  | childSignal (signal : Nat)
  | test
  | read (count : Nat)
  | pass
  | stop
  | clear
  | kill
  | close
  | waitChanged
  | waitEnded
  | waitError
  | join
deriving DecidableEq

-- The child writes its output and then exits; what it writes after the last
-- reader has gone is lost. A signal may end it at any time.
def stepChild (state : ExecState) : ExecLabel → Option ExecState
  | .childWrite count =>
      if state.child = .running then
        some { state with
          unwritten := state.unwritten.drop count
          pipe := if state.opened then state.pipe ++ state.unwritten.take count else state.pipe }
      else none
  | .childExit code =>
      if state.child = .running ∧ state.unwritten = [] then some { state with child := .exited code } else none
  | .childSignal signal =>
      if state.child = .running ∧ 0 < signal then some { state with child := .signaled signal } else none
  | _ => none

-- fwrite(command_out, 1, sz, log): sz becomes a size_t, and nothing is known of
-- the bytes beyond the buffer.
def fwrite (passed : Option (List UInt8)) (commandOut : List UInt8) (sz : Int) : Option (List UInt8) :=
  if (BitVec.ofInt 64 sz).toNat ≤ commandOut.length then
    passed.map fun before => before ++ commandOut.take (BitVec.ofInt 64 sz).toNat
  else none

-- exec_run. read(.., 99) gives some of the bytes that are there, waits while
-- there are none and the child may still write, gives 0 when it cannot any
-- more, and -1 when the process has closed the descriptor.
def stepReader (state : ExecState) : ExecLabel → Option ExecState
  | .test =>
      if state.reader = .testing then
        some { state with reader := if state.keeprunning then .reading else .finished }
      else none
  | .read count =>
      if state.reader = .reading then
        if state.opened then
          if state.pipe = [] then
            if state.child = .running then none else some { state with reader := .finished }
          else if 0 < count ∧ count ≤ 99 ∧ count ≤ state.pipe.length then
            some { state with
              pipe := state.pipe.drop count
              commandOut := state.pipe.take count ++ state.commandOut.drop count
              reader := .writing count
              late := false }
          else none
        else some { state with reader := .writing (-1), late := true }
      else none
  | .pass =>
      match state.reader with
      | .writing sz => some { state with reader := .testing, passed := fwrite state.passed state.commandOut sz }
      | _ => none
  | _ => none

def waitStatus : ChildPc → Option Nat
  | .running => none
  | .exited code => some (code.toNat * 256)
  | .signaled signal => some signal

-- exec_stop, with the loop of fork_dup2_exec_result; a stopped child is
-- continued and waited for again.
def stepStopper (state : ExecState) : ExecLabel → Option ExecState
  | .stop =>
      if state.stopper = .before then
        some { state with stopper := if state.blocking then .closing else .clearing }
      else none
  | .clear => if state.stopper = .clearing then some { state with stopper := .killing, keeprunning := false } else none
  | .kill => if state.stopper = .killing then some { state with stopper := .closing } else none
  | .close => if state.stopper = .closing then some { state with stopper := .waiting, opened := false } else none
  | .waitChanged => if state.stopper = .waiting ∧ state.child = .running then some state else none
  | .waitEnded =>
      if state.stopper = .waiting then
        (waitStatus state.child).map fun status =>
          { state with stopper := if status ≠ 0 then .returned else .joining }
      else none
  | .waitError => if state.stopper = .waiting then some { state with stopper := .returned } else none
  | .join => if state.stopper = .joining ∧ state.reader = .finished then some { state with stopper := .returned } else none
  | _ => none

def execStep (state : ExecState) (label : ExecLabel) : Option ExecState :=
  match label with
  | .childWrite _ | .childExit _ | .childSignal _ => stepChild state label
  | .test | .read _ | .pass => stepReader state label
  | _ => stepStopper state label

-- waitpid's status is zero only for a child that exited with zero.
theorem wait_status_zero (child : ChildPc) (status : Nat) (reported : waitStatus child = some status)
    (killed : ∀ signal, child = .signaled signal → 0 < signal) : status = 0 ↔ child = .exited 0 := by
  cases child with
  | running => cases reported
  | exited code =>
      obtain rfl := Option.some.inj reported
      simp only [Nat.mul_eq_zero, ChildPc.exited.injEq, ← UInt8.toNat_inj]
      simp
  | signaled signal =>
      obtain rfl := Option.some.inj reported
      have positive := killed _ rfl
      exact iff_of_false (Nat.ne_of_gt positive) nofun

def endsChild : ExecLabel → Bool
  | .childExit _ | .childSignal _ => true
  | _ => false

def movesStopper : ExecLabel → Bool
  | .stop | .clear | .kill | .close | .waitEnded | .waitError | .join => true
  | _ => false

structure ExecFrame (state next : ExecState) (label : ExecLabel) : Prop where
  child : endsChild label = false → next.child = state.child
  stopper : movesStopper label = false → next.stopper = state.stopper
  passed : label ≠ .pass → next.passed = state.passed

theorem exec_frame (state next : ExecState) (label : ExecLabel) (stepped : execStep state label = some next) :
    ExecFrame state next label := by
  cases label with
  | childExit | childSignal =>
      dsimp only [execStep, stepChild] at stepped
      simp only [Option.ite_none_right_eq_some, Option.some.injEq] at stepped
      obtain ⟨_, rfl⟩ := stepped
      exact ⟨nofun, fun _ => rfl, fun _ => rfl⟩
  | pass =>
      dsimp only [execStep, stepReader] at stepped
      split at stepped
      all_goals cases stepped
      exact ⟨fun _ => rfl, fun _ => rfl, fun other => absurd rfl other⟩
  | waitEnded =>
      dsimp only [execStep, stepStopper] at stepped
      rw [Option.ite_none_right_eq_some] at stepped
      obtain ⟨_, _, rfl⟩ := Option.map_eq_some_iff.mp stepped.2
      exact ⟨fun _ => rfl, nofun, fun _ => rfl⟩
  | stop | clear | kill | close | waitError | join =>
      dsimp only [execStep, stepStopper] at stepped
      simp only [Option.ite_none_right_eq_some, Option.some.injEq] at stepped
      obtain ⟨_, rfl⟩ := stepped
      exact ⟨fun _ => rfl, nofun, fun _ => rfl⟩
  | _ =>
      dsimp only [execStep, stepChild, stepReader, stepStopper] at stepped
      repeat' split at stepped
      all_goals cases stepped
      all_goals exact ⟨fun _ => rfl, fun _ => rfl, fun _ => rfl⟩

-- waitpid for a child of this process does not fail.
def waitReports (_ : ExecState) : ExecLabel → Bool
  | .waitError => false
  | _ => true

end Slogger.Spawn
