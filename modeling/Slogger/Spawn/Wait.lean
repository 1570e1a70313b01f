import Mathlib.Data.List.Basic

set_option autoImplicit false

namespace Slogger.Spawn

-- The macros of sys/wait.h on a status word.
def wtermsig (status : Nat) : Nat := status % 128
def wexitstatus (status : Nat) : Nat := status / 256 % 256
def wstopsig (status : Nat) : Nat := wexitstatus status

-- The value of a signed char that was given one byte.
def signedChar (byte : Nat) : Int := if byte % 256 < 128 then (byte % 256 : Nat) else (byte % 256 : Nat) - 256

def wifexited (status : Nat) : Bool := wtermsig status = 0
def wifsignaled (status : Nat) : Bool := 0 < signedChar (status % 128 + 1) / 2
def wifstopped (status : Nat) : Bool := status % 256 = 127
def wifcontinued (status : Nat) : Bool := status = 65535

inductive WaitResult where
  | error
  | report (status : Nat)
deriving DecidableEq

inductive Notice where
  | exited (status : Nat)
  | killed (signal : Nat)
  | stopped (signal : Nat)
  | continued
  | unexpected (status : Nat)
deriving DecidableEq

inductive WaitEvent where
  | closed
  | failed
  | told (notice : Notice)
  | sigcont
deriving DecidableEq

structure Waited where
  status : Int
  events : List WaitEvent
  later : List WaitResult
deriving DecidableEq

-- One round of the loop: what is printed, and the SIGCONT for a stopped child.
def handleReport (status : Nat) : List WaitEvent :=
  if wifexited status then [.told (.exited (wexitstatus status))]
  else if wifsignaled status then [.told (.killed (wtermsig status))]
  else if wifstopped status then [.told (.stopped (wstopsig status)), .sigcont]
  else if wifcontinued status then [.told .continued]
  else [.told (.unexpected status)]

-- The loop over what waitpid gives; none while it still waits for a report.
def waitLoop : List WaitResult → Option Waited
  | [] => none
  | .error :: later => some ⟨-1, [.failed], later⟩
  | .report status :: later =>
      if !wifexited status && !wifsignaled status then
        (waitLoop later).map fun waited => { waited with events := handleReport status ++ waited.events }
      else some ⟨status, handleReport status, later⟩

def forkDup2ExecResult (results : List WaitResult) : Option Waited :=
  (waitLoop results).map fun waited => { waited with events := .closed :: waited.events }

structure Signal where
  number : Nat
  positive : 0 < number
  known : number ≤ 64
deriving DecidableEq

-- How the kernel words its reports.
inductive Change where
  | stopped (signal : Signal)
  | continued
deriving DecidableEq

inductive Ending where
  | exited (code : UInt8)
  | killed (signal : Signal) (core : Bool)
deriving DecidableEq

def Change.status : Change → Nat
  | .stopped signal => signal.number * 256 + 127
  | .continued => 65535

def Ending.status : Ending → Nat
  | .exited code => code.toNat * 256
  | .killed signal core => signal.number + if core then 128 else 0

def Change.events : Change → List WaitEvent
  | .stopped signal => [.told (.stopped signal.number), .sigcont]
  | .continued => [.told .continued]

def Ending.events : Ending → List WaitEvent
  | .exited code => [.told (.exited code.toNat)]
  | .killed signal _ => [.told (.killed signal.number)]

theorem exited_iff (status : Nat) : wifexited status = true ↔ status % 128 = 0 := by
  rw [wifexited, decide_eq_true_iff, wtermsig]

-- The addition carries 127 over into the sign bit: that value means stopped.
theorem signaled_iff (status : Nat) : wifsignaled status = true ↔ 0 < status % 128 ∧ status % 128 < 127 := by
  rw [wifsignaled, decide_eq_true_iff, signedChar]
  split <;> omega

theorem change_unended (change : Change) :
    wifexited change.status = false ∧ wifsignaled change.status = false := by
  rw [← Bool.not_eq_true, ← Bool.not_eq_true, exited_iff, signaled_iff]
  cases change with
  | stopped signal =>
      simp only [Change.status]
      omega
  | continued => simp [Change.status]

theorem change_handled (change : Change) : handleReport change.status = change.events := by
  obtain ⟨notExited, notSignaled⟩ := change_unended change
  rw [handleReport, notExited, notSignaled]
  cases change with
  | stopped signal =>
      have known := signal.known
      have stopped : (signal.number * 256 + 127) % 256 = 127 := by omega
      have number : (signal.number * 256 + 127) / 256 % 256 = signal.number := by omega
      simp [Change.status, Change.events, wifstopped, wstopsig, wexitstatus, stopped, number]
  | continued => rfl

theorem ending_ended (ending : Ending) : (!wifexited ending.status && !wifsignaled ending.status) = false := by
  cases ending with
  | exited code =>
      have exited := (exited_iff (code.toNat * 256)).mpr (by omega)
      simp [Ending.status, exited]
  | killed signal core =>
      have positive := signal.positive
      have known := signal.known
      have signaled := (signaled_iff (signal.number + if core then 128 else 0)).mpr (by split <;> omega)
      simp [Ending.status, signaled]

theorem ending_handled (ending : Ending) : handleReport ending.status = ending.events := by
  cases ending with
  | exited code =>
      have exited := (exited_iff (code.toNat * 256)).mpr (by omega)
      simp [handleReport, Ending.status, Ending.events, exited, wexitstatus]
  | killed signal core =>
      have positive := signal.positive
      have known := signal.known
      have number : (signal.number + if core then 128 else 0) % 128 = signal.number := by split <;> omega
      have unexited : ¬ wifexited (signal.number + if core then 128 else 0) = true := by
        rw [exited_iff, number]
        omega
      have signaled := (signaled_iff (signal.number + if core then 128 else 0)).mpr (by omega)
      simp [handleReport, Ending.status, Ending.events, unexited, signaled, wtermsig, number]

theorem ending_zero_iff (ending : Ending) : ending.status = 0 ↔ ending = .exited 0 := by
  cases ending with
  | exited code =>
      simp only [Ending.status, Nat.mul_eq_zero, Ending.exited.injEq, ← UInt8.toNat_inj]
      simp
  | killed signal core =>
      have positive := signal.positive
      simp only [Ending.status, reduceCtorEq, iff_false]
      omega

-- The loop answers every stop with one SIGCONT and goes on.
theorem wait_loop_changes (changes : List Change) (later : List WaitResult) :
    waitLoop ((changes.map fun change => .report change.status) ++ later) =
      (waitLoop later).map fun waited => { waited with events := changes.flatMap Change.events ++ waited.events } := by
  induction changes with
  | nil => simp
  | cons change rest ih =>
      obtain ⟨notExited, notSignaled⟩ := change_unended change
      rw [List.map_cons, List.cons_append, waitLoop, ih]
      simp [notExited, notSignaled, change_handled, Function.comp_def]

-- It leaves at the report that ends the child, or where waitpid fails.
theorem exec_result_reports (changes : List Change) (ending : Ending) (later : List WaitResult) :
    forkDup2ExecResult ((changes.map fun change => .report change.status) ++ .report ending.status :: later) =
      some ⟨ending.status, .closed :: (changes.flatMap Change.events ++ ending.events), later⟩ := by
  rw [forkDup2ExecResult, wait_loop_changes, waitLoop]
  simp [ending_ended, ending_handled]

theorem exec_result_fails (changes : List Change) (later : List WaitResult) :
    forkDup2ExecResult ((changes.map fun change => .report change.status) ++ .error :: later) =
      some ⟨-1, .closed :: (changes.flatMap Change.events ++ [.failed]), later⟩ := by
  rw [forkDup2ExecResult, wait_loop_changes, waitLoop]
  rfl

end Slogger.Spawn
