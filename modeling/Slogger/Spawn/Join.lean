import Slogger.Spawn.Exec

set_option autoImplicit false

namespace Slogger.Spawn

open Slogger.Lib

-- load_exec, the thread that exec_start creates: fopen, exec_run, the end
-- message, fclose.
inductive LoaderPc where
  | opening
  | running
  | closing
  | ended
deriving DecidableEq

structure JoinState where
  exec : ExecState
  loader : LoaderPc
  joined : Bool
deriving DecidableEq

def JoinState.initial (blocking : Bool) (output : List UInt8) : JoinState where
  exec := ExecState.initial blocking output
  loader := .opening
  joined := false

inductive JoinLabel where
  | openLog (succeeds : Bool)
  | message
  | closeLog
  | exec (label : ExecLabel)
deriving DecidableEq

def isReader : ExecLabel → Bool
  | .test | .read _ | .pass => true
  | _ => false

-- exec_run runs inside load_exec, and pthread_join waits for its end.
def joinStep (state : JoinState) : JoinLabel → Option JoinState
  | .openLog succeeds =>
      if state.loader = .opening then some { state with loader := if succeeds then .running else .ended } else none
  | .message =>
      if state.loader = .running ∧ state.exec.reader = .finished then some { state with loader := .closing } else none
  | .closeLog => if state.loader = .closing then some { state with loader := .ended } else none
  | .exec .join =>
      if state.exec.stopper = .joining ∧ state.loader = .ended then
        some { state with exec := { state.exec with stopper := .returned }, joined := true }
      else none
  | .exec label =>
      if isReader label = true ∧ state.loader ≠ .running then none
      else (execStep state.exec label).map fun exec => { state with exec := exec }

def ofThread : JoinLabel → Bool
  | .openLog _ | .message | .closeLog => true
  | .exec label => isReader label

def JoinsFirst (state : JoinState) : Prop :=
  state.exec.stopper = .returned → state.joined = true ∧ state.loader = .ended

def QuietAfterStop (state : JoinState) (label : JoinLabel) : Prop :=
  ofThread label = true → state.exec.stopper ≠ .returned

-- If the wait of exec_stop ends, then with the report of an exit with code 0.
def EndsWithZero (state : JoinState) : JoinLabel → Prop
  | .exec .waitEnded => state.exec.child = .exited 0
  | .exec .waitError => False
  | _ => True

def KilledBySignal (state : ExecState) : Prop := ∀ signal, state.child = .signaled signal → 0 < signal

theorem child_signal_kept (state next : ExecState) (label : ExecLabel) (killed : KilledBySignal state)
    (stepped : execStep state label = some next) : KilledBySignal next := by
  cases label with
  | childSignal signal =>
      dsimp only [execStep, stepChild] at stepped
      simp only [Option.ite_none_right_eq_some, Option.some.injEq] at stepped
      obtain ⟨⟨_, positive⟩, rfl⟩ := stepped
      intro other same
      cases same
      exact positive
  | childExit code =>
      dsimp only [execStep, stepChild] at stepped
      simp only [Option.ite_none_right_eq_some, Option.some.injEq] at stepped
      obtain ⟨_, rfl⟩ := stepped
      exact nofun
  | _ =>
      rw [KilledBySignal, (exec_frame state next _ stepped).child rfl]
      exact killed

inductive JoinStep (state next : JoinState) : JoinLabel → Prop where
  | load (label : JoinLabel) (thread : ofThread label = true) (alive : state.loader ≠ .ended)
      (same : next.exec = state.exec) (kept : next.joined = state.joined) : JoinStep state next label
  | join (ready : state.exec.stopper = .joining) (finished : state.loader = .ended)
      (done : next = { state with exec := { state.exec with stopper := .returned }, joined := true }) :
      JoinStep state next (.exec .join)
  | inner (label : ExecLabel) (other : label ≠ .join) (inside : isReader label = true → state.loader = .running)
      (ran : execStep state.exec label = some next.exec) (same : next.loader = state.loader)
      (kept : next.joined = state.joined) : JoinStep state next (.exec label)

theorem join_step_cases (state next : JoinState) (label : JoinLabel) (stepped : joinStep state label = some next) :
    JoinStep state next label := by
  cases label with
  | openLog succeeds =>
      simp only [joinStep, Option.ite_none_right_eq_some, Option.some.injEq] at stepped
      obtain ⟨opening, rfl⟩ := stepped
      exact .load _ rfl (by simp [opening]) rfl rfl
  | message =>
      simp only [joinStep, Option.ite_none_right_eq_some, Option.some.injEq] at stepped
      obtain ⟨⟨running, _⟩, rfl⟩ := stepped
      exact .load _ rfl (by simp [running]) rfl rfl
  | closeLog =>
      simp only [joinStep, Option.ite_none_right_eq_some, Option.some.injEq] at stepped
      obtain ⟨closing, rfl⟩ := stepped
      exact .load _ rfl (by simp [closing]) rfl rfl
  | exec label =>
      by_cases isJoin : label = .join
      · subst isJoin
        simp only [joinStep, Option.ite_none_right_eq_some, Option.some.injEq] at stepped
        obtain ⟨⟨ready, finished⟩, done⟩ := stepped
        exact .join ready finished done.symm
      · have unfolded : joinStep state (.exec label) =
            if isReader label = true ∧ state.loader ≠ .running then none
            else (execStep state.exec label).map fun exec => { state with exec := exec } := by
          cases label <;> first | rfl | exact absurd rfl isJoin
        rw [unfolded, Option.ite_none_left_eq_some, Option.map_eq_some_iff] at stepped
        obtain ⟨outside, after, ran, rfl⟩ := stepped
        refine .inner label isJoin ?_ ran rfl rfl
        intro reads
        by_contra idle
        exact outside ⟨reads, idle⟩

def isEnd : ExecLabel → Bool
  | .waitEnded | .waitError | .join => true
  | _ => false

theorem other_steps_pass (state next : ExecState) (label : ExecLabel) (other : isEnd label = false)
    (stepped : execStep state label = some next) : next.stopper = .returned ↔ state.stopper = .returned := by
  cases label with
  | waitEnded | waitError | join => cases other
  | stop =>
      dsimp only [execStep, stepStopper] at stepped
      simp only [Option.ite_none_right_eq_some, Option.some.injEq] at stepped
      obtain ⟨here, rfl⟩ := stepped
      rw [here]
      refine iff_of_false ?_ nofun
      by_cases blocking : state.blocking = true <;> simp [blocking]
  | clear | kill | close =>
      dsimp only [execStep, stepStopper] at stepped
      simp only [Option.ite_none_right_eq_some, Option.some.injEq] at stepped
      obtain ⟨here, rfl⟩ := stepped
      rw [here]
      exact iff_of_false nofun nofun
  | _ => rw [(exec_frame state next _ stepped).stopper rfl]

theorem wait_error_step (state next : ExecState) (stepped : execStep state .waitError = some next) :
    state.stopper = .waiting ∧ next.stopper = .returned := by
  dsimp only [execStep, stepStopper] at stepped
  simp only [Option.ite_none_right_eq_some, Option.some.injEq] at stepped
  obtain ⟨here, rfl⟩ := stepped
  exact ⟨here, rfl⟩

theorem wait_ended_step (state next : ExecState) (killed : KilledBySignal state)
    (stepped : execStep state .waitEnded = some next) :
    state.stopper = .waiting ∧ (next.stopper = .returned ↔ state.child ≠ .exited 0) := by
  dsimp only [execStep, stepStopper] at stepped
  simp only [Option.ite_none_right_eq_some, Option.map_eq_some_iff] at stepped
  obtain ⟨waiting, status, reported, rfl⟩ := stepped
  refine ⟨waiting, ?_⟩
  have ends := wait_status_zero state.child status reported killed
  by_cases zero : status = 0
  · simp [zero, ends.mp zero]
  · simp [zero, mt ends.mpr zero]

structure JoinInv (state : JoinState) : Prop where
  killed : KilledBySignal state.exec
  joined : state.joined = true → state.exec.stopper = .returned

theorem returned_stays (state next : ExecState) (label : ExecLabel) (killed : KilledBySignal state)
    (other : label ≠ .join) (stepped : execStep state label = some next) (returned : state.stopper = .returned) :
    next.stopper = .returned := by
  by_cases ends : isEnd label = true
  · cases label with
    | waitEnded =>
        have waiting := (wait_ended_step state next killed stepped).1
        rw [returned] at waiting
        cases waiting
    | waitError =>
        have waiting := (wait_error_step state next stepped).1
        rw [returned] at waiting
        cases waiting
    | join => exact absurd rfl other
    | _ => cases ends
  · exact (other_steps_pass state next label (Bool.eq_false_iff.mpr ends) stepped).mpr returned

theorem join_step_keeps (state next : JoinState) (label : JoinLabel) (inv : JoinInv state)
    (stepped : joinStep state label = some next) : JoinInv next := by
  cases join_step_cases state next label stepped with
  | load _ _ _ same kept => exact ⟨same ▸ inv.killed, fun joined => same ▸ inv.joined (kept ▸ joined)⟩
  | join _ _ done =>
      subst done
      exact ⟨inv.killed, fun _ => rfl⟩
  | inner label other _ ran _ kept =>
      refine ⟨child_signal_kept state.exec next.exec label inv.killed ran, ?_⟩
      intro joined
      exact returned_stays state.exec next.exec label inv.killed other ran (inv.joined (kept ▸ joined))

-- A step that brings exec_stop from its wait to its end has skipped the join.
theorem unjoined_return (state next : JoinState) (inv : JoinInv state) (waiting : state.exec.stopper = .waiting)
    (returned : next.exec.stopper = .returned) (kept : next.joined = state.joined) : ¬ JoinsFirst next := by
  intro first
  have joined := (first returned).1
  rw [kept] at joined
  have already := inv.joined joined
  rw [waiting] at already
  cases already

theorem joins_first_step_iff (state next : JoinState) (label : JoinLabel) (inv : JoinInv state)
    (first : JoinsFirst state) (stepped : joinStep state label = some next) :
    JoinsFirst next ↔ EndsWithZero state label := by
  cases join_step_cases state next label stepped with
  | load label thread alive same _ =>
      have running : next.exec.stopper ≠ .returned := by
        rw [same]
        exact fun returned => alive (first returned).2
      refine iff_of_true (fun returned => absurd returned running) ?_
      cases label with
      | exec inner => cases inner <;> trivial
      | openLog | message | closeLog => trivial
  | join _ finished done =>
      subst done
      exact iff_of_true (fun _ => ⟨rfl, finished⟩) trivial
  | inner label other inside ran same kept =>
      cases label with
      | join => exact absurd rfl other
      | waitEnded =>
          obtain ⟨waiting, ends⟩ := wait_ended_step state.exec next.exec inv.killed ran
          rw [EndsWithZero]
          by_cases zero : state.exec.child = .exited 0
          · exact iff_of_true (fun returned => absurd zero (ends.mp returned)) zero
          · exact iff_of_false (unjoined_return state next inv waiting (ends.mpr zero) kept) zero
      | waitError =>
          obtain ⟨waiting, returned⟩ := wait_error_step state.exec next.exec ran
          exact iff_of_false (unjoined_return state next inv waiting returned kept) id
      | _ =>
          refine iff_of_true (fun returned => ?_) trivial
          have before := (other_steps_pass state.exec next.exec _ rfl ran).mp returned
          rw [kept, same]
          exact first before

theorem initial_join_inv (blocking : Bool) (output : List UInt8) : JoinInv (JoinState.initial blocking output) :=
  ⟨nofun, nofun⟩

theorem joins_first_quiet (state : JoinState) (label : JoinLabel) (next : JoinState) (first : JoinsFirst state)
    (stepped : joinStep state label = some next) : QuietAfterStop state label := by
  intro thread returned
  have finished := (first returned).2
  cases join_step_cases state next label stepped with
  | load _ _ alive => exact alive finished
  | join => cases thread
  | inner label _ inside =>
      have running := inside thread
      rw [finished] at running
      cases running

theorem thread_joined_iff (blocking : Bool) (output : List UInt8) (labels : List JoinLabel) :
    (Always JoinsFirst (JoinState.initial blocking output) (trace joinStep (JoinState.initial blocking output) labels) ∧
      EveryStep QuietAfterStop (JoinState.initial blocking output)
        (trace joinStep (JoinState.initial blocking output) labels)) ↔
    EveryStep EndsWithZero (JoinState.initial blocking output)
      (trace joinStep (JoinState.initial blocking output) labels) := by
  have isRun := trace_is_run joinStep (JoinState.initial blocking output) labels
  have joins := always_iff_every_step _ JoinInv JoinsFirst EndsWithZero
    (fun state label next inv _ stepped => join_step_keeps state next label inv stepped)
    (fun state label next inv first stepped => (joins_first_step_iff state next label inv first stepped).mpr)
    (fun state label next inv first stepped => mt (joins_first_step_iff state next label inv first stepped).mp)
    _ _ isRun (initial_join_inv blocking output) nofun
  rw [← joins]
  constructor
  · exact fun both => both.1
  · exact fun always => ⟨always, always_every_step _ JoinsFirst QuietAfterStop joins_first_quiet _ _ isRun always⟩

-- The signal exec_stop itself sends ends the child before the thread has read
-- anything.
def killedEarly : List JoinLabel :=
  [.openLog true, .exec .stop, .exec .clear, .exec .kill, .exec (.childSignal 2), .exec .close, .exec .waitEnded, .exec .test]

theorem killed_child_not_joined :
    ¬ (Always JoinsFirst (JoinState.initial false []) (trace joinStep (JoinState.initial false []) killedEarly) ∧
      EveryStep QuietAfterStop (JoinState.initial false [])
        (trace joinStep (JoinState.initial false []) killedEarly)) := by
  rintro ⟨always, _⟩
  have ended := always_finish JoinsFirst _ _ always
  have returned : (finish (JoinState.initial false []) (trace joinStep (JoinState.initial false []) killedEarly)).exec.stopper =
      .returned := by decide +kernel
  have unjoined : (finish (JoinState.initial false []) (trace joinStep (JoinState.initial false []) killedEarly)).joined =
      false := by decide +kernel
  rw [(ended returned).1] at unjoined
  cases unjoined

end Slogger.Spawn
