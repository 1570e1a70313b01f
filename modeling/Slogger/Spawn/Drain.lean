import Slogger.Spawn.Exec

set_option autoImplicit false

namespace Slogger.Spawn

open Slogger.Lib

def inFlight : ReaderPc → Bool → List UInt8 → List UInt8
  | .writing sz, false, commandOut => commandOut.take sz.toNat
  | _, _, _ => []

structure ExecInv (state : ExecState) : Prop where
  flow : ∀ bytes, state.passed = some bytes → ∃ tail, state.output = bytes ++ inFlight state.reader state.late state.commandOut ++ tail ∧
    (state.opened = true → tail = state.pipe ++ state.unwritten)
  buffer : state.commandOut.length = 100
  read : ∀ sz, state.reader = .writing sz → if state.late then sz = -1 else 0 ≤ sz ∧ sz ≤ 99
  exited : ∀ code, state.child = .exited code → state.unwritten = []
  signaled : ∀ signal, state.child = .signaled signal → 0 < signal
  finished : state.reader = .finished → state.blocking = true → state.child ≠ .running ∧
    ∀ code, state.child = .exited code → state.passed = some state.output
  blocks : state.blocking = true → state.keeprunning = true ∧ state.stopper ≠ .clearing
  joining : state.stopper = .joining → state.child = .exited 0
  returned : state.stopper = .returned → state.child = .exited 0 → state.reader = .finished
  ended : state.stopper = .returned → state.child ≠ .running

-- What fwrite got is a prefix of the child's output, and all of it when
-- exec_stop has returned for a blocking Exec whose child exited with 0.
structure Drained (state : ExecState) : Prop where
  isPrefix : ∃ bytes, state.passed = some bytes ∧ bytes <+: state.output
  complete : state.stopper = .returned → state.blocking = true → state.child = .exited 0 →
    state.passed = some state.output

def PassesOpenReads (state : ExecState) : ExecLabel → Prop
  | .pass => state.late = false
  | _ => True

theorem initial_exec_inv (blocking : Bool) (output : List UInt8) : ExecInv (ExecState.initial blocking output) where
  flow bytes given := by
    cases given
    exact ⟨output, rfl, fun _ => rfl⟩
  buffer := List.length_replicate
  read sz there := nomatch there
  exited code there := nomatch there
  signaled signal there := nomatch there
  finished there := nomatch there
  blocks _ := ⟨rfl, by simp [ExecState.initial]⟩
  joining there := nomatch there
  returned there := nomatch there
  ended there := nomatch there

theorem child_write_keeps (state : ExecState) (count : Nat) (inv : ExecInv state) (here : state.child = .running) :
    ExecInv { state with
      unwritten := state.unwritten.drop count
      pipe := if state.opened then state.pipe ++ state.unwritten.take count else state.pipe } := by
  exact { inv with
    flow := fun bytes given => by
      obtain ⟨tail, output, content⟩ := inv.flow bytes given
      refine ⟨tail, output, fun opened => ?_⟩
      have written : state.opened = true := opened
      simp [written, content written]
    exited := fun code there => by
      rw [here] at there
      cases there }

theorem child_ends_keeps (state : ExecState) (child : ChildPc) (inv : ExecInv state) (here : state.child = .running)
    (ends : child ≠ .running) (exits : ∀ code, child = .exited code → state.unwritten = [])
    (signals : ∀ signal, child = .signaled signal → 0 < signal) : ExecInv { state with child := child } := by
  exact { inv with
    exited := exits
    signaled := signals
    finished := fun there blocking => absurd here (inv.finished there blocking).1
    joining := fun there => by
      have exited := inv.joining there
      rw [here] at exited
      cases exited
    returned := fun there => absurd here (inv.ended there)
    ended := fun _ => ends }

theorem reader_unjoined (state : ExecState) (reader : ReaderPc) (inv : ExecInv state) (busy : state.reader ≠ .finished)
    (there : state.stopper = .returned) (exited : state.child = .exited 0) : reader = .finished :=
  absurd (inv.returned there exited) busy

theorem test_keeps (state : ExecState) (inv : ExecInv state) (here : state.reader = .testing) :
    ExecInv { state with reader := if state.keeprunning then .reading else .finished } := by
  have flow := inv.flow
  rw [here] at flow
  exact { inv with
    flow := by
      cases state.keeprunning <;> exact flow
    read := fun sz there => by
      dsimp only at there
      split at there <;> cases there
    finished := fun there blocking => by
      have running := (inv.blocks blocking).1
      simp [running] at there
    returned := reader_unjoined state _ inv (by simp [here]) }

theorem open_read_keeps (state : ExecState) (count : Nat) (inv : ExecInv state) (here : state.reader = .reading)
    (opened : state.opened = true) (some' : count ≤ 99) (there' : count ≤ state.pipe.length) :
    ExecInv { state with
      pipe := state.pipe.drop count
      commandOut := state.pipe.take count ++ state.commandOut.drop count
      reader := .writing count
      late := false } := by
  have length : (state.pipe.take count).length = count := List.length_take_of_le there'
  have taken : inFlight (.writing count) false (state.pipe.take count ++ state.commandOut.drop count) =
      state.pipe.take count := by
    simp only [inFlight, Int.toNat_natCast]
    exact List.take_left' length
  exact { inv with
    flow := fun bytes given => by
      obtain ⟨tail, output, content⟩ := inv.flow bytes given
      rw [here, content opened] at output
      rw [taken]
      refine ⟨state.pipe.drop count ++ state.unwritten, ?_, fun _ => rfl⟩
      rw [output]
      simp only [inFlight, List.append_nil, List.append_assoc]
      rw [← List.append_assoc (state.pipe.take count), List.take_append_drop]
    buffer := by
      rw [List.length_append, List.length_drop, length, inv.buffer]
      omega
    read := fun sz writes => by
      cases writes
      simp only [Bool.false_eq_true, if_false]
      omega
    finished := fun there => nomatch there
    returned := reader_unjoined state _ inv (by simp [here]) }

theorem end_read_keeps (state : ExecState) (inv : ExecInv state) (drained : Drained state)
    (here : state.reader = .reading) (opened : state.opened = true) (empty : state.pipe = [])
    (ended : state.child ≠ .running) : ExecInv { state with reader := .finished } := by
  have flow := inv.flow
  rw [here] at flow
  exact { inv with
    flow := flow
    read := fun sz there => nomatch there
    finished := fun _ _ => by
      refine ⟨ended, fun code exited => ?_⟩
      obtain ⟨bytes, given, _⟩ := drained.isPrefix
      obtain ⟨tail, output, content⟩ := flow bytes given
      rw [content opened, empty, inv.exited code exited] at output
      rw [given, output]
      simp [inFlight]
    returned := fun _ _ => rfl }

theorem late_read_keeps (state : ExecState) (inv : ExecInv state) (here : state.reader = .reading) :
    ExecInv { state with reader := .writing (-1), late := true } := by
  have flow := inv.flow
  rw [here] at flow
  exact { inv with
    flow := flow
    read := fun sz there => by
      cases there
      rfl
    finished := fun there => nomatch there
    returned := reader_unjoined state _ inv (by simp [here]) }

theorem fwrite_read (passed : Option (List UInt8)) (commandOut : List UInt8) (sz : Int)
    (buffer : commandOut.length = 100) (least : 0 ≤ sz) (most : sz ≤ 99) :
    fwrite passed commandOut sz = passed.map fun before => before ++ commandOut.take sz.toNat := by
  have size : (BitVec.ofInt 64 sz).toNat = sz.toNat := by
    simp only [BitVec.toNat_ofInt]
    omega
  rw [fwrite, size, if_pos (by omega)]

theorem fwrite_failed (passed : Option (List UInt8)) (commandOut : List UInt8) (buffer : commandOut.length = 100) :
    fwrite passed commandOut (-1) = none := by
  rw [fwrite, buffer]
  rfl

theorem pass_keeps (state : ExecState) (sz : Int) (inv : ExecInv state) (here : state.reader = .writing sz) :
    ExecInv { state with reader := .testing, passed := fwrite state.passed state.commandOut sz } := by
  have read := inv.read sz here
  have flow := inv.flow
  rw [here] at flow
  have unfinished := reader_unjoined state .testing inv (by simp [here])
  cases late : state.late with
  | true =>
      simp only [late, if_true] at read
      exact { inv with
        flow := fun bytes given => by
          rw [read, fwrite_failed state.passed state.commandOut inv.buffer] at given
          cases given
        read := fun sz there => nomatch there
        finished := fun there => nomatch there
        returned := unfinished }
  | false =>
      simp only [late, Bool.false_eq_true, if_false] at read
      rw [late] at flow
      exact { inv with
        flow := fun bytes given => by
          rw [fwrite_read state.passed state.commandOut sz inv.buffer read.1 read.2] at given
          obtain ⟨before, earlier, rfl⟩ := Option.map_eq_some_iff.mp given
          obtain ⟨tail, output, content⟩ := flow before earlier
          exact ⟨tail, by simpa [inFlight] using output, content⟩
        read := fun sz there => nomatch there
        finished := fun there => nomatch there
        returned := unfinished }

theorem reader_keeps (state next : ExecState) (label : ExecLabel) (inv : ExecInv state) (drained : Drained state)
    (stepped : stepReader state label = some next) : ExecInv next := by
  cases label with
  | test =>
      simp only [stepReader, Option.ite_none_right_eq_some, Option.some.injEq] at stepped
      obtain ⟨here, rfl⟩ := stepped
      exact test_keeps state inv here
  | read count =>
      simp only [stepReader, Option.ite_none_right_eq_some] at stepped
      obtain ⟨here, stepped⟩ := stepped
      by_cases opened : state.opened = true
      · rw [if_pos opened] at stepped
        by_cases empty : state.pipe = []
        · rw [if_pos empty, Option.ite_none_left_eq_some, Option.some.injEq] at stepped
          obtain ⟨ended, rfl⟩ := stepped
          exact end_read_keeps state inv drained here opened empty ended
        · rw [if_neg empty, Option.ite_none_right_eq_some, Option.some.injEq] at stepped
          obtain ⟨⟨_, fits, available⟩, rfl⟩ := stepped
          exact open_read_keeps state count inv here opened fits available
      · rw [if_neg opened, Option.some.injEq] at stepped
        obtain rfl := stepped
        exact late_read_keeps state inv here
  | pass =>
      simp only [stepReader] at stepped
      cases here : state.reader with
      | writing sz =>
          rw [here] at stepped
          obtain rfl := Option.some.inj stepped
          exact pass_keeps state sz inv here
      | testing | reading | finished =>
          rw [here] at stepped
          cases stepped
  | _ => cases stepped

theorem child_keeps (state next : ExecState) (label : ExecLabel) (inv : ExecInv state)
    (stepped : stepChild state label = some next) : ExecInv next := by
  cases label with
  | childWrite count =>
      simp only [stepChild, Option.ite_none_right_eq_some, Option.some.injEq] at stepped
      obtain ⟨here, rfl⟩ := stepped
      exact child_write_keeps state count inv here
  | childExit code =>
      simp only [stepChild, Option.ite_none_right_eq_some, Option.some.injEq] at stepped
      obtain ⟨⟨here, written⟩, rfl⟩ := stepped
      exact child_ends_keeps state (.exited code) inv here (by simp) (fun _ _ => written) (fun _ there => nomatch there)
  | childSignal signal =>
      simp only [stepChild, Option.ite_none_right_eq_some, Option.some.injEq] at stepped
      obtain ⟨⟨here, positive⟩, rfl⟩ := stepped
      apply child_ends_keeps state (.signaled signal) inv here
      · simp
      · exact fun _ there => nomatch there
      · intro other same
        cases same
        exact positive
  | _ => cases stepped

theorem wait_ended_keeps (state next : ExecState) (inv : ExecInv state)
    (stepped : stepStopper state .waitEnded = some next) : ExecInv next := by
  simp only [stepStopper, Option.ite_none_right_eq_some] at stepped
  obtain ⟨here, stepped⟩ := stepped
  obtain ⟨status, known, rfl⟩ := Option.map_eq_some_iff.mp stepped
  have ended : state.child ≠ .running := by
    intro running
    rw [running] at known
    cases known
  have zero := wait_status_zero state.child status known inv.signaled
  by_cases success : status = 0
  · have exited := zero.mp success
    simp only [success, ne_eq, not_true_eq_false, if_false]
    exact { inv with
      blocks := fun blocking => ⟨(inv.blocks blocking).1, by simp⟩
      joining := fun _ => exited
      returned := fun there => nomatch there
      ended := fun there => nomatch there }
  · simp only [success, ne_eq, not_false_eq_true, if_true]
    exact { inv with
      blocks := fun blocking => ⟨(inv.blocks blocking).1, by simp⟩
      joining := fun there => nomatch there
      returned := fun _ exited => absurd (zero.mpr exited) success
      ended := fun _ => ended }

theorem stopper_moved (state : ExecState) (pc : StopperPc) (inv : ExecInv state)
    (blocks : state.blocking = true → pc ≠ .clearing) (joins : pc ≠ .joining) (returns : pc ≠ .returned) :
    ExecInv { state with stopper := pc } :=
  { inv with
    blocks := fun blocking => ⟨(inv.blocks blocking).1, blocks blocking⟩
    joining := fun there => absurd there joins
    returned := fun there => absurd there returns
    ended := fun there => absurd there returns }

theorem stopper_keeps (state next : ExecState) (label : ExecLabel) (inv : ExecInv state)
    (reports : waitReports state label = true) (stepped : stepStopper state label = some next) : ExecInv next := by
  cases label with
  | stop =>
      simp only [stepStopper, Option.ite_none_right_eq_some, Option.some.injEq] at stepped
      obtain ⟨_, rfl⟩ := stepped
      apply stopper_moved state _ inv
      · intro blocking
        simp [blocking]
      · split <;> simp
      · split <;> simp
  | clear =>
      simp only [stepStopper, Option.ite_none_right_eq_some, Option.some.injEq] at stepped
      obtain ⟨here, rfl⟩ := stepped
      have cleared : ExecInv { state with keeprunning := false } :=
        { inv with blocks := fun blocking => absurd here (inv.blocks blocking).2 }
      exact stopper_moved _ .killing cleared (fun _ => by simp) (by simp) (by simp)
  | kill =>
      simp only [stepStopper, Option.ite_none_right_eq_some, Option.some.injEq] at stepped
      obtain ⟨_, rfl⟩ := stepped
      exact stopper_moved state .closing inv (fun _ => by simp) (by simp) (by simp)
  | close =>
      simp only [stepStopper, Option.ite_none_right_eq_some, Option.some.injEq] at stepped
      obtain ⟨_, rfl⟩ := stepped
      have closed : ExecInv { state with opened := false } :=
        { inv with
          flow := fun bytes given => by
            obtain ⟨tail, output, _⟩ := inv.flow bytes given
            exact ⟨tail, output, fun opened => by cases opened⟩ }
      exact stopper_moved _ .waiting closed (fun _ => by simp) (by simp) (by simp)
  | waitChanged =>
      simp only [stepStopper, Option.ite_none_right_eq_some, Option.some.injEq] at stepped
      obtain ⟨_, rfl⟩ := stepped
      exact inv
  | waitEnded => exact wait_ended_keeps state next inv stepped
  | waitError => cases reports
  | join =>
      simp only [stepStopper, Option.ite_none_right_eq_some, Option.some.injEq] at stepped
      obtain ⟨⟨here, finished⟩, rfl⟩ := stepped
      have exited := inv.joining here
      exact { inv with
        blocks := fun blocking => ⟨(inv.blocks blocking).1, by simp⟩
        joining := fun there => nomatch there
        returned := fun _ _ => finished
        ended := fun _ running => by
          have alive : state.child = .running := running
          rw [exited] at alive
          cases alive }
  | _ => cases stepped

theorem exec_step_keeps (state next : ExecState) (label : ExecLabel) (inv : ExecInv state) (drained : Drained state)
    (stepped : under waitReports execStep state label = some next) : ExecInv next := by
  obtain ⟨reports, stepped⟩ := (under_some _ _ state next label).mp stepped
  cases label with
  | childWrite | childExit | childSignal =>
      dsimp only [execStep] at stepped
      exact child_keeps state next _ inv stepped
  | test | read | pass =>
      dsimp only [execStep] at stepped
      exact reader_keeps state next _ inv drained stepped
  | stop | clear | kill | close | waitChanged | waitEnded | waitError | join =>
      dsimp only [execStep] at stepped
      exact stopper_keeps state next _ inv reports stepped

theorem inv_prefix (state : ExecState) (inv : ExecInv state) (bytes : List UInt8) (given : state.passed = some bytes) :
    bytes <+: state.output := by
  obtain ⟨tail, output, _⟩ := inv.flow bytes given
  rw [output, List.append_assoc]
  exact List.prefix_append bytes _

theorem drained_iff (state : ExecState) (inv : ExecInv state) : Drained state ↔ ∃ bytes, state.passed = some bytes := by
  constructor
  · exact fun drained => drained.isPrefix.imp fun bytes kept => kept.1
  · rintro ⟨bytes, given⟩
    constructor
    · exact ⟨bytes, given, inv_prefix state inv bytes given⟩
    · intro returned blocking exited
      exact (inv.finished (inv.returned returned exited) blocking).2 0 exited

theorem passed_step_iff (state next : ExecState) (label : ExecLabel) (inv : ExecInv state) (bytes : List UInt8)
    (given : state.passed = some bytes) (stepped : execStep state label = some next) :
    (∃ more, next.passed = some more) ↔ PassesOpenReads state label := by
  cases label with
  | pass =>
      dsimp only [execStep, stepReader] at stepped
      cases here : state.reader with
      | writing sz =>
          rw [here] at stepped
          obtain rfl := Option.some.inj stepped
          have read := inv.read sz here
          cases late : state.late with
          | true =>
              simp only [late, if_true] at read
              simp [PassesOpenReads, late, read, fwrite_failed state.passed state.commandOut inv.buffer]
          | false =>
              simp only [late, Bool.false_eq_true, if_false] at read
              simp [PassesOpenReads, late, given, fwrite_read (some bytes) state.commandOut sz inv.buffer read.1 read.2]
      | testing | reading | finished =>
          rw [here] at stepped
          cases stepped
  | _ =>
      rw [(exec_frame state next _ stepped).passed (by simp)]
      exact ⟨fun _ => trivial, fun _ => ⟨bytes, given⟩⟩

theorem drained_step_iff (state next : ExecState) (label : ExecLabel) (inv : ExecInv state) (drained : Drained state)
    (stepped : under waitReports execStep state label = some next) : Drained next ↔ PassesOpenReads state label := by
  rw [drained_iff next (exec_step_keeps state next label inv drained stepped)]
  obtain ⟨bytes, given, _⟩ := drained.isPrefix
  exact passed_step_iff state next label inv bytes given ((under_some _ _ state next label).mp stepped).2

theorem drained_iff_reads_open (blocking : Bool) (output : List UInt8) (labels : List ExecLabel) :
    Always Drained (ExecState.initial blocking output)
        (trace (under waitReports execStep) (ExecState.initial blocking output) labels) ↔
      EveryStep PassesOpenReads (ExecState.initial blocking output)
        (trace (under waitReports execStep) (ExecState.initial blocking output) labels) := by
  apply always_iff_every_step (fun state label next => under waitReports execStep state label = some next) ExecInv
  · intro state label next inv drained stepped
    exact exec_step_keeps state next label inv drained stepped
  · intro state label next inv drained stepped allowed
    exact (drained_step_iff state next label inv drained stepped).mpr allowed
  · intro state label next inv drained stepped refused kept
    exact refused ((drained_step_iff state next label inv drained stepped).mp kept)
  · exact trace_is_run (under waitReports execStep) (ExecState.initial blocking output) labels
  · exact initial_exec_inv blocking output
  · exact (drained_iff _ (initial_exec_inv blocking output)).mpr ⟨[], rfl⟩

-- The child writes one byte and exits; exec_stop closes the descriptor before
-- the reader has read it.
def closedEarly : List ExecLabel := [.childWrite 1, .childExit 0, .stop, .close, .test, .read 1, .pass]

theorem closed_early_not_drained :
    ¬ Always Drained (ExecState.initial true [97])
      (trace (under waitReports execStep) (ExecState.initial true [97]) closedEarly) := by
  intro always
  obtain ⟨bytes, given, _⟩ := (always_finish Drained _ _ always).isPrefix
  have lost : (finish (ExecState.initial true [97])
      (trace (under waitReports execStep) (ExecState.initial true [97]) closedEarly)).passed = none := by
    decide +kernel
  rw [lost] at given
  cases given

end Slogger.Spawn
