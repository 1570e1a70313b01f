import Mathlib.Logic.Function.Basic
import Slogger.Lib.Simulation
import Slogger.Spawn.Wait

set_option autoImplicit false

namespace Slogger.Spawn

open Slogger.Lib

def sigint : Signal := ⟨2, by decide, by decide⟩

def sigkill : Signal := ⟨9, by decide, by decide⟩

def sigpipe : Signal := ⟨13, by decide, by decide⟩

def sigterm : Signal := ⟨15, by decide, by decide⟩

def sigcont : Signal := ⟨18, by decide, by decide⟩

def sigstop : Signal := ⟨19, by decide, by decide⟩

def sigtstp : Signal := ⟨20, by decide, by decide⟩

inductive Disposition where
  | standard
  | ignored
  | caught
deriving DecidableEq

inductive Action where
  | finish
  | halt
  | resume
  | nothing
deriving DecidableEq

-- SIGSTOP, SIGTSTP, SIGTTIN and SIGTTOU halt a process; SIGCHLD, SIGURG and
-- SIGWINCH do nothing.
def standardAction (signal : Signal) : Action :=
  if signal = sigcont then .resume
  else if 19 ≤ signal.number ∧ signal.number ≤ 22 then .halt
  else if signal.number ∈ [17, 23, 28] then .nothing
  else .finish

-- The statements of the child in fork_dup2_exec that it has made.
inductive ChildStage where
  | born
  | withoutInt
  | withoutTerm
  | withoutTstp
  | closed
  | redirected
  | program
  | gone (ending : Ending)
deriving DecidableEq

def ChildStage.isGone : ChildStage → Bool
  | .gone _ => true
  | _ => false

-- report is the last change of the child that no waitpid has told yet.
structure ForkedChild where
  stage : ChildStage
  disposition : Signal → Disposition
  pending : Signal → Bool
  held : Bool
  report : Option Change

def ForkedChild.handling (child : ForkedChild) (signal : Signal) : Disposition :=
  if signal = sigkill ∨ signal = sigstop then .standard else child.disposition signal

def ForkedChild.discards (child : ForkedChild) (signal : Signal) : Bool :=
  match child.handling signal with
  | .ignored => true
  | .standard => standardAction signal = .nothing || standardAction signal = .resume
  | .caught => false

def ForkedChild.withdraw (child : ForkedChild) (signal : Signal) : ForkedChild :=
  { child with pending := Function.update child.pending signal false }

def ForkedChild.wake (child : ForkedChild) : ForkedChild :=
  { child with
    pending := fun signal => child.pending signal && standardAction signal != .halt
    held := false
    report := if child.held then some .continued else child.report }

-- kill: SIGCONT wakes a halted process whatever it does with the signal, and a
-- halting signal and SIGCONT take each other back.
def ForkedChild.send (child : ForkedChild) (signal : Signal) : ForkedChild :=
  if child.stage.isGone then child
  else
    let told :=
      match standardAction signal with
      | .resume => child.wake
      | .halt => child.withdraw sigcont
      | _ => child
    if child.discards signal then told else { told with pending := Function.update told.pending signal true }

def ForkedChild.finish (child : ForkedChild) (ending : Ending) : ForkedChild :=
  { child with stage := .gone ending, pending := fun _ => false, held := false, report := none }

-- A pending signal is acted on; only SIGKILL reaches a halted process.
def ForkedChild.take (child : ForkedChild) (signal : Signal) (core : Bool) : ForkedChild :=
  match child.handling signal, standardAction signal with
  | .standard, .finish => child.finish (.killed signal core)
  | .standard, .halt => { child.withdraw signal with held := true, report := some (.stopped signal) }
  | _, _ => child.withdraw signal

-- signal(number, ..), which drops a pending signal that is ignored from now on.
def ForkedChild.sets (child : ForkedChild) (signal : Signal) (disposition : Disposition) : ForkedChild :=
  let changed := { child with disposition := Function.update child.disposition signal disposition }
  if changed.discards signal then changed.withdraw signal else changed

def ForkedChild.nextStatement (child : ForkedChild) : Option ForkedChild :=
  match child.stage with
  | .born => some { child.sets sigint .ignored with stage := .withoutInt }
  | .withoutInt => some { child.sets sigterm .ignored with stage := .withoutTerm }
  | .withoutTerm => some { child.sets sigtstp .ignored with stage := .withoutTstp }
  | .withoutTstp => some { child with stage := .closed }
  | .closed => some { child with stage := .redirected }
  | _ => none

-- A program begins with the handlers gone and what is ignored still ignored.
def ForkedChild.exec (child : ForkedChild) : ForkedChild :=
  { child with
    stage := .program
    disposition := fun signal => if child.disposition signal = .caught then .standard else child.disposition signal }

-- exec_stop with the loop of fork_dup2_exec_result; continuing is before its
-- kill(child_pid, SIGCONT).
inductive StopPc where
  | running
  | killing
  | closing
  | waiting
  | continuing
  | returned (status : Int)
deriving DecidableEq

structure Watched where
  child : ForkedChild
  stop : StopPc
  told : List WaitResult

-- The child is a copy of the program with its handlers and without its pending
-- signals.
def Watched.initial (inherited : Signal → Disposition) : Watched where
  child := ⟨.born, inherited, fun _ => false, false, none⟩
  stop := .running
  told := []

-- sets, write and exit are the program's; sent is a signal from elsewhere.
inductive WatchLabel where
  | statement
  | execvp (succeeded : Bool)
  | sets (signal : Signal) (disposition : Disposition)
  | write
  | exit (code : UInt8)
  | take (signal : Signal) (core : Bool)
  | sent (signal : Signal)
  | stop
  | kill
  | close
  | wait
  | waitError
  | cont
deriving DecidableEq

def ForkedChild.running (child : ForkedChild) (stage : ChildStage) : Bool := child.stage = stage && !child.held

def ForkedChild.act (child : ForkedChild) (broken : Bool) : WatchLabel → Option ForkedChild
  | .statement => if child.held then none else child.nextStatement
  | .execvp succeeded =>
      if child.running .redirected then some (if succeeded then child.exec else child.finish (.exited 1)) else none
  | .sets signal disposition => if child.running .program then some (child.sets signal disposition) else none
  | .write =>
      if child.running .program then
        some (if broken && child.handling sigpipe = .standard then child.finish (.killed sigpipe false) else child)
      else none
  | .exit code => if child.running .program then some (child.finish (.exited code)) else none
  | .take signal core =>
      if child.pending signal && (!child.held || signal = sigkill) then some (child.take signal core) else none
  | .sent signal => some (child.send signal)
  | _ => none

def ForkedChild.collect (child : ForkedChild) : Option (Nat × ForkedChild) :=
  match child.stage with
  | .gone ending => some (ending.status, child)
  | _ => child.report.map fun change => (change.status, { child with report := none })

def afterReport (status : Nat) : StopPc :=
  if wifexited status || wifsignaled status then .returned status
  else if WaitEvent.sigcont ∈ handleReport status then .continuing
  else .waiting

def stopStep (blocking : Bool) (watched : Watched) : WatchLabel → Option Watched
  | .stop =>
      if watched.stop = .running then some { watched with stop := if blocking then .closing else .killing } else none
  | .kill =>
      if watched.stop = .killing then some { watched with child := watched.child.send sigint, stop := .closing } else none
  | .close => if watched.stop = .closing then some { watched with stop := .waiting } else none
  | .wait =>
      if watched.stop = .waiting then
        watched.child.collect.map fun (status, child) => ⟨child, afterReport status, watched.told ++ [.report status]⟩
      else none
  | .waitError =>
      if watched.stop = .waiting then some { watched with stop := .returned (-1), told := watched.told ++ [.error] }
      else none
  | .cont =>
      if watched.stop = .continuing then some { watched with child := watched.child.send sigcont, stop := .waiting }
      else none
  | _ => none

def StopPc.broken : StopPc → Bool
  | .running | .killing | .closing => false
  | _ => true

def ofStop : WatchLabel → Bool
  | .stop | .kill | .close | .wait | .waitError | .cont => true
  | _ => false

def watchStep (blocking : Bool) (watched : Watched) (label : WatchLabel) : Option Watched :=
  if ofStop label then stopStep blocking watched label
  else (watched.child.act watched.stop.broken label).map fun child => { watched with child := child }

theorem send_stage (child : ForkedChild) (signal : Signal) : (child.send signal).stage = child.stage := by
  unfold ForkedChild.send
  dsimp only
  repeat' split
  all_goals rfl

theorem send_disposition (child : ForkedChild) (signal : Signal) :
    (child.send signal).disposition = child.disposition := by
  unfold ForkedChild.send
  dsimp only
  repeat' split
  all_goals rfl

theorem take_disposition (child : ForkedChild) (signal : Signal) (core : Bool) :
    (child.take signal core).disposition = child.disposition := by
  unfold ForkedChild.take
  split <;> rfl

theorem sets_disposition (child : ForkedChild) (signal : Signal) (disposition : Disposition) :
    (child.sets signal disposition).disposition = Function.update child.disposition signal disposition := by
  unfold ForkedChild.sets
  dsimp only
  split <;> rfl

theorem sets_stage (child : ForkedChild) (signal : Signal) (disposition : Disposition) :
    (child.sets signal disposition).stage = child.stage := by
  unfold ForkedChild.sets
  dsimp only
  split <;> rfl

theorem sets_held (child : ForkedChild) (signal : Signal) (disposition : Disposition) :
    (child.sets signal disposition).held = child.held := by
  unfold ForkedChild.sets
  dsimp only
  split <;> rfl

theorem sets_pending (child : ForkedChild) (signal other : Signal) (disposition : Disposition)
    (pending : (child.sets signal disposition).pending other = true) : child.pending other = true := by
  unfold ForkedChild.sets at pending
  dsimp only at pending
  split at pending
  · by_cases same : other = signal
    · simp [ForkedChild.withdraw, same] at pending
    · simpa [ForkedChild.withdraw, same] using pending
  · exact pending

theorem running_iff (child : ForkedChild) (stage : ChildStage) :
    child.running stage = true ↔ child.stage = stage ∧ child.held = false := by
  simp [ForkedChild.running]

theorem statement_keeps (child next : ForkedChild) (moved : child.nextStatement = some next) :
    next.stage.isGone = false ∧ next.held = child.held ∧
      ∀ signal, next.pending signal = true → child.pending signal = true := by
  unfold ForkedChild.nextStatement at moved
  split at moved <;> cases moved
  · exact ⟨rfl, sets_held child _ _, fun signal => sets_pending child sigint signal .ignored⟩
  · exact ⟨rfl, sets_held child _ _, fun signal => sets_pending child sigterm signal .ignored⟩
  · exact ⟨rfl, sets_held child _ _, fun signal => sets_pending child sigtstp signal .ignored⟩
  · exact ⟨rfl, rfl, fun _ => id⟩
  · exact ⟨rfl, rfl, fun _ => id⟩

inductive EndsBy (child : ForkedChild) (broken : Bool) : WatchLabel → Prop where
  | exit (code : UInt8) : EndsBy child broken (.exit code)
  | execvp : EndsBy child broken (.execvp false)
  | write (lost : broken = true) : EndsBy child broken .write
  | take (signal : Signal) (core : Bool) (pending : child.pending signal = true)
      (finishes : standardAction signal = .finish) : EndsBy child broken (.take signal core)

theorem act_gone (child next : ForkedChild) (broken : Bool) (label : WatchLabel) (ending : Ending)
    (there : child.stage.isGone = false) (acted : child.act broken label = some next)
    (gone : next.stage = .gone ending) : next = child.finish ending ∧ EndsBy child broken label := by
  have absurdly : child.stage ≠ .gone ending := by
    intro same
    rw [same] at there
    cases there
  cases label with
  | statement =>
      obtain ⟨_, moved⟩ := Option.ite_none_left_eq_some.mp acted
      have stays := (statement_keeps child next moved).1
      rw [gone] at stays
      cases stays
  | execvp succeeded =>
      obtain ⟨_, moved⟩ := Option.ite_none_right_eq_some.mp acted
      cases succeeded <;> cases moved <;> cases gone
      exact ⟨rfl, .execvp⟩
  | sets signal disposition =>
      obtain ⟨_, moved⟩ := Option.ite_none_right_eq_some.mp acted
      cases moved
      rw [sets_stage] at gone
      exact absurd gone absurdly
  | write =>
      obtain ⟨_, moved⟩ := Option.ite_none_right_eq_some.mp acted
      split at moved
      · rename_i lost
        cases moved
        cases gone
        exact ⟨rfl, .write (Bool.and_eq_true_iff.mp lost).1⟩
      · cases moved
        exact absurd gone absurdly
  | exit code =>
      obtain ⟨_, moved⟩ := Option.ite_none_right_eq_some.mp acted
      cases moved
      cases gone
      exact ⟨rfl, .exit code⟩
  | take signal core =>
      obtain ⟨ready, moved⟩ := Option.ite_none_right_eq_some.mp acted
      have pending := (Bool.and_eq_true_iff.mp ready).1
      unfold ForkedChild.take at moved
      split at moved
      · rename_i finishes
        cases moved
        cases gone
        exact ⟨rfl, .take signal core pending finishes⟩
      · cases moved
        exact absurd gone absurdly
      · cases moved
        exact absurd gone absurdly
  | sent signal =>
      cases acted
      rw [send_stage] at gone
      exact absurd gone absurdly
  | _ => cases acted

theorem send_pending (child : ForkedChild) (signal other : Signal) (pending : (child.send signal).pending other = true) :
    child.pending other = true ∨ other = signal := by
  by_cases same : other = signal
  · exact Or.inr same
  · unfold ForkedChild.send at pending
    dsimp only at pending
    left
    split at pending
    · exact pending
    · cases action : standardAction signal <;> split at pending <;>
        simp_all [ForkedChild.wake, ForkedChild.withdraw, Function.update_apply]

theorem take_pending (child : ForkedChild) (signal other : Signal) (core : Bool)
    (pending : (child.take signal core).pending other = true) : child.pending other = true := by
  unfold ForkedChild.take at pending
  split at pending
  · cases pending
  · by_cases same : other = signal <;> simp_all [ForkedChild.withdraw]
  · by_cases same : other = signal <;> simp_all [ForkedChild.withdraw]

theorem act_pending (child next : ForkedChild) (broken : Bool) (label : WatchLabel) (signal : Signal)
    (acted : child.act broken label = some next) (pending : next.pending signal = true) :
    child.pending signal = true ∨ label = .sent signal := by
  cases label with
  | statement =>
      obtain ⟨_, moved⟩ := Option.ite_none_left_eq_some.mp acted
      exact Or.inl ((statement_keeps child next moved).2.2 signal pending)
  | execvp succeeded =>
      obtain ⟨_, moved⟩ := Option.ite_none_right_eq_some.mp acted
      cases succeeded <;> cases moved
      · cases pending
      · exact Or.inl pending
  | sets set disposition =>
      obtain ⟨_, moved⟩ := Option.ite_none_right_eq_some.mp acted
      cases moved
      exact Or.inl (sets_pending child set signal disposition pending)
  | write =>
      obtain ⟨_, moved⟩ := Option.ite_none_right_eq_some.mp acted
      split at moved <;> cases moved
      · cases pending
      · exact Or.inl pending
  | exit code =>
      obtain ⟨_, moved⟩ := Option.ite_none_right_eq_some.mp acted
      cases moved
      cases pending
  | take taken core =>
      obtain ⟨_, moved⟩ := Option.ite_none_right_eq_some.mp acted
      cases moved
      exact Or.inl (take_pending child taken signal core pending)
  | sent sent =>
      cases acted
      exact (send_pending child sent signal pending).imp_right fun same => by rw [same]
  | _ => cases acted

theorem send_held (child : ForkedChild) (signal : Signal) (held : (child.send signal).held = true) :
    child.held = true ∧ (child.send signal).report = child.report := by
  unfold ForkedChild.send at held ⊢
  dsimp only at held ⊢
  split at held
  · rename_i gone
    rw [if_pos gone]
    exact ⟨held, rfl⟩
  · rename_i there
    rw [if_neg there]
    cases action : standardAction signal <;> split at held <;> simp_all [ForkedChild.wake, ForkedChild.withdraw]

theorem act_held (child next : ForkedChild) (broken : Bool) (label : WatchLabel)
    (acted : child.act broken label = some next) (held : next.held = true) :
    (∃ signal, next.report = some (.stopped signal)) ∨ (child.held = true ∧ next.report = child.report) := by
  cases label with
  | statement =>
      obtain ⟨awake, moved⟩ := Option.ite_none_left_eq_some.mp acted
      exact absurd ((statement_keeps child next moved).2.1.symm.trans held) awake
  | execvp succeeded =>
      obtain ⟨ready, moved⟩ := Option.ite_none_right_eq_some.mp acted
      have awake := ((running_iff child .redirected).mp ready).2
      cases succeeded <;> cases moved
      · cases held
      · cases held.symm.trans awake
  | sets set disposition =>
      obtain ⟨ready, moved⟩ := Option.ite_none_right_eq_some.mp acted
      have awake := ((running_iff child .program).mp ready).2
      cases moved
      cases held.symm.trans ((sets_held child _ _).trans awake)
  | write =>
      obtain ⟨ready, moved⟩ := Option.ite_none_right_eq_some.mp acted
      have awake := ((running_iff child .program).mp ready).2
      split at moved <;> cases moved
      · cases held
      · cases held.symm.trans awake
  | exit code =>
      obtain ⟨_, moved⟩ := Option.ite_none_right_eq_some.mp acted
      cases moved
      cases held
  | take signal core =>
      obtain ⟨_, moved⟩ := Option.ite_none_right_eq_some.mp acted
      cases moved
      unfold ForkedChild.take at held ⊢
      split at held
      · cases held
      · exact Or.inl ⟨signal, rfl⟩
      · exact Or.inr ⟨held, rfl⟩
  | sent signal =>
      cases acted
      exact Or.inr (send_held child signal held)
  | _ => cases acted

theorem gone_act (child next : ForkedChild) (broken : Bool) (label : WatchLabel) (ending : Ending)
    (gone : child.stage = .gone ending) (quiet : child.pending = fun _ => false)
    (acted : child.act broken label = some next) : next = child := by
  cases label with
  | sent signal =>
      cases acted
      simp [ForkedChild.send, gone, ChildStage.isGone]
  | statement =>
      simp [ForkedChild.act, ForkedChild.nextStatement, gone] at acted
  | take signal core => simp [ForkedChild.act, quiet] at acted
  | execvp | sets | write | exit => simp [ForkedChild.act, ForkedChild.running, gone] at acted
  | _ => cases acted

theorem is_gone_iff (stage : ChildStage) : stage.isGone = true ↔ ∃ ending, stage = .gone ending := by
  cases stage <;> simp [ChildStage.isGone]

theorem cont_wakes (child : ForkedChild) (there : child.stage.isGone = false) : (child.send sigcont).held = false := by
  unfold ForkedChild.send
  rw [if_neg (by rw [there]; exact Bool.false_ne_true)]
  dsimp only
  split <;> rfl

theorem after_ending (ending : Ending) : afterReport ending.status = .returned ending.status := by
  have ended := ending_ended ending
  rw [afterReport, if_pos]
  cases exited : wifexited ending.status <;> simp_all

theorem after_change (change : Change) :
    afterReport change.status = match change with | .stopped _ => .continuing | .continued => .waiting := by
  obtain ⟨notExited, notSignaled⟩ := change_unended change
  rw [afterReport, notExited, notSignaled, change_handled]
  cases change <;> rfl

-- A halted child waits for the next waitpid or for the SIGCONT behind it, and what
-- waitpid has told is changes, and at the end the child's, unless it has failed.
structure WaitInv (watched : Watched) : Prop where
  quiet : ∀ ending, watched.child.stage = .gone ending →
    watched.child.held = false ∧ watched.child.pending = fun _ => false
  held : watched.child.held = true →
    (∃ signal, watched.child.report = some (.stopped signal)) ∨ watched.stop = .continuing
  told : (∀ status, watched.stop ≠ .returned status) →
    ∃ changes : List Change, watched.told = changes.map fun change => .report change.status
  returned : ∀ status, watched.stop = .returned status → ∃ changes : List Change,
    (∃ ending : Ending, watched.told = (changes.map fun change => .report change.status) ++ [.report ending.status] ∧
      watched.child.stage = .gone ending ∧ status = ending.status) ∨
    watched.told = (changes.map fun change => .report change.status) ++ [.error] ∧ status = -1

theorem initial_wait_inv (inherited : Signal → Disposition) : WaitInv (Watched.initial inherited) where
  quiet := nofun
  held := nofun
  told := fun _ => ⟨[], rfl⟩
  returned := nofun

theorem child_wait_keeps (watched : Watched) (next : ForkedChild) (label : WatchLabel) (inv : WaitInv watched)
    (acted : watched.child.act watched.stop.broken label = some next) : WaitInv { watched with child := next } := by
  cases there : watched.child.stage.isGone with
  | true =>
      obtain ⟨ending, gone⟩ := (is_gone_iff _).mp there
      have same := gone_act watched.child next _ label ending gone (inv.quiet ending gone).2 acted
      rw [same]
      exact inv
  | false =>
      refine ⟨fun ending gone => ?_, fun held => ?_, inv.told, fun status returned => ?_⟩
      · have finished := (act_gone watched.child next _ label ending there acted gone).1
        rw [finished]
        exact ⟨rfl, rfl⟩
      · rcases act_held watched.child next _ label acted held with reported | ⟨before, same⟩
        · exact Or.inl reported
        · dsimp only
          rw [same]
          exact inv.held before
      · obtain ⟨changes, ⟨ending, _, gone, _⟩ | failed⟩ := inv.returned status returned
        · rw [gone] at there
          cases there
        · exact ⟨changes, Or.inr failed⟩

theorem stop_wait_keeps (blocking : Bool) (watched next : Watched) (label : WatchLabel) (inv : WaitInv watched)
    (stepped : stopStep blocking watched label = some next) : WaitInv next := by
  cases label with
  | stop =>
      obtain ⟨here, moved⟩ := Option.ite_none_right_eq_some.mp stepped
      cases moved
      refine ⟨inv.quiet, fun held => ?_, fun _ => inv.told (by simp [here]), fun status returned => ?_⟩
      · exact Or.inl ((inv.held held).resolve_right (by simp [here]))
      · cases blocking <;> cases returned
  | kill =>
      obtain ⟨here, moved⟩ := Option.ite_none_right_eq_some.mp stepped
      cases moved
      have sent := child_wait_keeps watched _ (.sent sigint) inv rfl
      refine ⟨sent.quiet, fun held => ?_, fun _ => inv.told (by simp [here]), nofun⟩
      exact Or.inl ((sent.held held).resolve_right (by simp [here]))
  | close =>
      obtain ⟨here, moved⟩ := Option.ite_none_right_eq_some.mp stepped
      cases moved
      refine ⟨inv.quiet, fun held => ?_, fun _ => inv.told (by simp [here]), nofun⟩
      exact Or.inl ((inv.held held).resolve_right (by simp [here]))
  | wait =>
      obtain ⟨here, moved⟩ := Option.ite_none_right_eq_some.mp stepped
      obtain ⟨changes, told⟩ := inv.told (by simp [here])
      obtain ⟨⟨status, child⟩, collected, rfl⟩ := Option.map_eq_some_iff.mp moved
      unfold ForkedChild.collect at collected
      split at collected
      · rename_i ending gone
        cases collected
        have after := after_ending ending
        refine ⟨inv.quiet, fun held => ?_, fun running => ?_, fun status returned => ?_⟩
        · cases held.symm.trans (inv.quiet ending gone).1
        · exact absurd after (running ending.status)
        · have same := after.symm.trans returned
          cases same
          exact ⟨changes, Or.inl ⟨ending, by rw [told], gone, rfl⟩⟩
      · obtain ⟨change, reported, same⟩ := Option.map_eq_some_iff.mp collected
        cases same
        have after := after_change change
        refine ⟨inv.quiet, fun held => ?_, fun _ => ⟨changes ++ [change], ?_⟩, fun status returned => ?_⟩
        · obtain ⟨signal, halted⟩ := (inv.held held).resolve_right (by simp [here])
          obtain rfl : change = .stopped signal := Option.some.inj (reported.symm.trans halted)
          exact Or.inr after
        · dsimp only
          rw [told, List.map_append]
          rfl
        · have impossible := after.symm.trans returned
          cases change <;> cases impossible
  | waitError =>
      obtain ⟨here, moved⟩ := Option.ite_none_right_eq_some.mp stepped
      obtain ⟨changes, told⟩ := inv.told (by simp [here])
      cases moved
      refine ⟨inv.quiet, fun held => ?_, fun running => absurd rfl (running (-1)), fun status returned => ?_⟩
      · exact Or.inl ((inv.held held).resolve_right (by simp [here]))
      · cases returned
        exact ⟨changes, Or.inr ⟨by rw [told], rfl⟩⟩
  | cont =>
      obtain ⟨here, moved⟩ := Option.ite_none_right_eq_some.mp stepped
      cases moved
      have sent := child_wait_keeps watched _ (.sent sigcont) inv rfl
      refine ⟨sent.quiet, fun held => ?_, fun _ => inv.told (by simp [here]), nofun⟩
      cases there : watched.child.stage.isGone with
      | true =>
          obtain ⟨ending, gone⟩ := (is_gone_iff _).mp there
          cases held.symm.trans (sent.quiet ending ((send_stage _ _).trans gone)).1
      | false => cases held.symm.trans (cont_wakes watched.child there)
  | _ => cases stepped

theorem watch_step_cases (blocking : Bool) (watched next : Watched) (label : WatchLabel)
    (stepped : watchStep blocking watched label = some next) :
    (ofStop label = true ∧ stopStep blocking watched label = some next) ∨
      (ofStop label = false ∧ ∃ child, watched.child.act watched.stop.broken label = some child ∧
        next = { watched with child := child }) := by
  unfold watchStep at stepped
  split at stepped
  · rename_i parent
    exact Or.inl ⟨parent, stepped⟩
  · rename_i apart
    obtain ⟨child, acted, same⟩ := Option.map_eq_some_iff.mp stepped
    exact Or.inr ⟨Bool.not_eq_true _ ▸ apart, child, acted, same.symm⟩

theorem watch_keeps (blocking : Bool) (watched : Watched) (label : WatchLabel) (next : Watched) (inv : WaitInv watched)
    (stepped : watchStep blocking watched label = some next) : WaitInv next := by
  rcases watch_step_cases blocking watched next label stepped with ⟨_, moved⟩ | ⟨_, child, acted, rfl⟩
  · exact stop_wait_keeps blocking watched next label inv moved
  · exact child_wait_keeps watched child label inv acted

theorem after_report_waits (status : Nat) : afterReport status ≠ .returned (-1) := by
  unfold afterReport
  split
  · simp
  · split <;> simp

theorem failed_wait (blocking : Bool) (inherited : Signal → Disposition) (labels : List WatchLabel) (watched : Watched)
    (ran : labels.foldlM (watchStep blocking) (Watched.initial inherited) = some watched)
    (failed : watched.stop = .returned (-1)) : .waitError ∈ labels := by
  refine history_invariant (watchStep blocking)
    (fun before here => here.stop = .returned (-1) → .waitError ∈ before) _ watched labels
    (fun before here label next inv stepped last => ?_) (by simp [Watched.initial]) ran failed
  rcases watch_step_cases blocking here next label stepped with ⟨_, moved⟩ | ⟨_, child, _, rfl⟩
  · cases label with
    | waitError => exact List.mem_append_right _ List.mem_cons_self
    | stop =>
        obtain ⟨_, went⟩ := Option.ite_none_right_eq_some.mp moved
        cases went
        cases blocking <;> cases last
    | kill | close | cont =>
        obtain ⟨_, went⟩ := Option.ite_none_right_eq_some.mp moved
        cases went
        cases last
    | wait =>
        obtain ⟨_, went⟩ := Option.ite_none_right_eq_some.mp moved
        obtain ⟨⟨status, child⟩, _, rfl⟩ := Option.map_eq_some_iff.mp went
        exact absurd last (after_report_waits status)
    | _ => cases moved
  · exact List.mem_append_left _ (inv last)

-- The loop of fork_dup2_exec_result never leaves a child halted: where waitpid
-- blocks, the child runs; a halted one is going again two steps on; and the loop
-- is left with the child's end, or where waitpid fails.
theorem stopped_child_released (blocking : Bool) (inherited : Signal → Disposition) (labels : List WatchLabel)
    (watched : Watched) (ran : labels.foldlM (watchStep blocking) (Watched.initial inherited) = some watched) :
    (watched.stop = .waiting → watchStep blocking watched .wait = none →
      watched.child.stage.isGone = false ∧ watched.child.held = false) ∧
    (watched.child.held = true →
      (watched.stop = .continuing → ∃ next, watchStep blocking watched .cont = some next ∧ next.child.held = false) ∧
      (watched.stop = .waiting → ∃ next, [.wait, .cont].foldlM (watchStep blocking) watched = some next ∧
        next.child.held = false)) ∧
    ∀ status, watched.stop = .returned status → ∃ changes : List Change,
      (∃ ending : Ending, watched.child.stage = .gone ending ∧ status = ending.status ∧
        forkDup2ExecResult watched.told =
          some ⟨status, .closed :: (changes.flatMap Change.events ++ ending.events), []⟩) ∨
      (status = -1 ∧ .waitError ∈ labels ∧
        forkDup2ExecResult watched.told = some ⟨status, .closed :: (changes.flatMap Change.events ++ [.failed]), []⟩) := by
  have inv := reaches_invariant (watchStep blocking) WaitInv (watch_keeps blocking) _ watched ⟨labels, ran⟩
    (initial_wait_inv inherited)
  have alive : watched.child.held = true → watched.child.stage.isGone = false := by
    intro held
    rw [← Bool.not_eq_true, is_gone_iff]
    rintro ⟨ending, gone⟩
    cases held.symm.trans (inv.quiet ending gone).1
  refine ⟨fun here blocked => ?_, fun held => ⟨fun here => ?_, fun here => ?_⟩, fun status returned => ?_⟩
  · have silent : watched.child.collect = none := by simpa [watchStep, ofStop, stopStep, here] using blocked
    unfold ForkedChild.collect at silent
    split at silent
    · cases silent
    · rename_i there
      refine ⟨?_, ?_⟩
      · rw [← Bool.not_eq_true, is_gone_iff]
        exact fun ⟨ending, gone⟩ => there ending gone
      · rw [← Bool.not_eq_true]
        intro held
        obtain ⟨signal, reported⟩ := (inv.held held).resolve_right (by simp [here])
        rw [reported] at silent
        cases silent
  · refine ⟨_, if_pos here, cont_wakes watched.child (alive held)⟩
  · obtain ⟨signal, reported⟩ := (inv.held held).resolve_right (by simp [here])
    have collected : watched.child.collect =
        some ((Change.stopped signal).status, { watched.child with report := none }) := by
      unfold ForkedChild.collect
      split
      · rename_i ending gone
        cases held.symm.trans (inv.quiet ending gone).1
      · rw [reported]
        rfl
    have told : watchStep blocking watched .wait = some ⟨{ watched.child with report := none }, .continuing,
        watched.told ++ [.report (Change.stopped signal).status]⟩ := by
      simp [watchStep, ofStop, stopStep, here, collected, after_change]
    refine ⟨⟨({ watched.child with report := none } : ForkedChild).send sigcont, .waiting,
      watched.told ++ [.report (Change.stopped signal).status]⟩, ?_, ?_⟩
    · rw [List.foldlM_cons, told]
      rfl
    · exact cont_wakes { watched.child with report := none } (alive held)
  · obtain ⟨changes, ⟨ending, told, gone, rfl⟩ | ⟨told, rfl⟩⟩ := inv.returned status returned
    · refine ⟨changes, Or.inl ⟨ending, gone, rfl, ?_⟩⟩
      rw [told]
      exact exec_result_reports changes ending []
    · refine ⟨changes, Or.inr ⟨rfl, failed_wait blocking inherited labels watched ran returned, ?_⟩⟩
      rw [told]
      exact exec_result_fails changes []

def programStarted : List WatchLabel := List.replicate 5 .statement ++ [.execvp true]

def haltedLabels : List WatchLabel := programStarted ++ [.sent sigstop, .take sigstop false, .stop, .kill, .close]

theorem halted_program_released : ∃ watched,
    haltedLabels.foldlM (watchStep false) (Watched.initial fun _ => .standard) = some watched ∧ watched.child.held = true ∧
    ∃ next, [.wait, .cont].foldlM (watchStep false) watched = some next ∧ next.child.held = false := by
  refine ⟨_, rfl, rfl, ?_⟩
  have released := stopped_child_released false (fun _ => .standard) haltedLabels _ rfl
  exact (released.2.1 rfl).2 rfl

end Slogger.Spawn
