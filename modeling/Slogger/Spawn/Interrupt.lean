import Slogger.Spawn.Signals

set_option autoImplicit false

namespace Slogger.Spawn

open Slogger.Lib

-- A blocking Exec is stopped without the kill.
def StopPc.asBlocking : StopPc → StopPc
  | .killing => .closing
  | pc => pc

def Watched.asBlocking (watched : Watched) : Watched := { watched with stop := watched.stop.asBlocking }

def StopPc.killed : StopPc → Bool
  | .running | .killing => false
  | _ => true

theorem as_blocking_broken (pc : StopPc) : pc.asBlocking.broken = pc.broken := by
  cases pc <;> rfl

theorem as_blocking_killed (pc : StopPc) (killed : pc.killed = true) : pc.asBlocking = pc := by
  cases pc <;> first | rfl | cases killed

theorem after_report_killed (status : Nat) : (afterReport status).killed = true := by
  unfold afterReport
  split
  · rfl
  · split <;> rfl

theorem blocking_step (watched : Watched) (label : WatchLabel) (next : Watched) (other : label ≠ .kill)
    (stepped : watchStep false watched label = some next) :
    watchStep true watched.asBlocking label = some next.asBlocking := by
  rcases watch_step_cases false watched next label stepped with ⟨parent, moved⟩ | ⟨apart, child, acted, rfl⟩
  · rw [watchStep, if_pos parent]
    cases label with
    | stop | close | cont | waitError =>
        obtain ⟨here, went⟩ := Option.ite_none_right_eq_some.mp moved
        cases went
        simp [stopStep, Watched.asBlocking, here, StopPc.asBlocking]
    | kill => exact absurd rfl other
    | wait =>
        obtain ⟨here, went⟩ := Option.ite_none_right_eq_some.mp moved
        obtain ⟨⟨status, child⟩, collected, rfl⟩ := Option.map_eq_some_iff.mp went
        have still : watched.asBlocking.stop = .waiting := by
          rw [Watched.asBlocking, here]
          rfl
        rw [stopStep, if_pos still]
        refine Option.map_eq_some_iff.mpr ⟨(status, child), collected, ?_⟩
        dsimp only [Watched.asBlocking]
        rw [as_blocking_killed _ (after_report_killed status)]
    | _ => cases parent
  · have same : watched.child.act watched.asBlocking.stop.broken label = some child := by
      rw [Watched.asBlocking, as_blocking_broken]
      exact acted
    rw [watchStep, apart]
    exact Option.map_eq_some_iff.mpr ⟨child, same, rfl⟩

theorem killed_keeps (blocking : Bool) (watched : Watched) (label : WatchLabel) (next : Watched)
    (killed : watched.stop.killed = true) (stepped : watchStep blocking watched label = some next) :
    label ≠ .kill ∧ next.stop.killed = true := by
  rcases watch_step_cases blocking watched next label stepped with ⟨parent, moved⟩ | ⟨apart, child, _, rfl⟩
  · cases label with
    | stop | kill =>
        obtain ⟨here, _⟩ := Option.ite_none_right_eq_some.mp moved
        rw [here] at killed
        cases killed
    | close | cont | waitError =>
        obtain ⟨_, went⟩ := Option.ite_none_right_eq_some.mp moved
        cases went
        exact ⟨by simp, rfl⟩
    | wait =>
        obtain ⟨_, went⟩ := Option.ite_none_right_eq_some.mp moved
        obtain ⟨⟨status, child⟩, _, rfl⟩ := Option.map_eq_some_iff.mp went
        exact ⟨by simp, after_report_killed status⟩
    | _ => cases parent
  · refine ⟨?_, killed⟩
    rintro rfl
    cases apart

theorem killed_once (blocking : Bool) (labels : List WatchLabel) (watched last : Watched)
    (killed : watched.stop.killed = true) (ran : labels.foldlM (watchStep blocking) watched = some last) :
    .kill ∉ labels := by
  induction labels generalizing watched with
  | nil => simp
  | cons label rest ih =>
      obtain ⟨next, stepped, later⟩ := Option.bind_eq_some_iff.mp ran
      obtain ⟨other, past⟩ := killed_keeps blocking watched label next killed stepped
      rw [List.mem_cons, not_or]
      exact ⟨other.symm, ih next past later⟩

theorem take_stage (child : ForkedChild) (signal : Signal) (core : Bool) :
    (child.take signal core).stage = child.stage ∨ (child.take signal core).stage.isGone = true := by
  unfold ForkedChild.take
  split
  · exact Or.inr rfl
  · exact Or.inl rfl
  · exact Or.inl rfl

-- Up to its first statement the child has only signals to act on, and with that
-- statement SIGINT is ignored.
theorem born_act (child next : ForkedChild) (broken : Bool) (label : WatchLabel) (born : child.stage = .born)
    (acted : child.act broken label = some next) :
    (label ≠ .statement ∧ next.stage = .born) ∨ next.stage.isGone = true ∨
      (next.stage ≠ .born ∧ next.disposition sigint = .ignored) := by
  cases label with
  | statement =>
      obtain ⟨_, moved⟩ := Option.ite_none_left_eq_some.mp acted
      rw [ForkedChild.nextStatement, born] at moved
      cases moved
      refine Or.inr (Or.inr ⟨by simp, ?_⟩)
      dsimp only
      rw [sets_disposition, Function.update_self]
  | take signal core =>
      obtain ⟨_, moved⟩ := Option.ite_none_right_eq_some.mp acted
      cases moved
      rcases take_stage child signal core with same | gone
      · exact Or.inl ⟨by simp, same.trans born⟩
      · exact Or.inr (Or.inl gone)
  | sent signal =>
      cases acted
      exact Or.inl ⟨by simp, (send_stage child signal).trans born⟩
  | execvp | sets | write | exit => simp [ForkedChild.act, ForkedChild.running, born] at acted
  | _ => cases acted

theorem act_begun (child next : ForkedChild) (broken : Bool) (label : WatchLabel) (begun : child.stage ≠ .born)
    (acted : child.act broken label = some next) : next.stage ≠ .born := by
  cases label with
  | statement =>
      obtain ⟨_, moved⟩ := Option.ite_none_left_eq_some.mp acted
      unfold ForkedChild.nextStatement at moved
      split at moved <;> cases moved <;> simp
  | execvp succeeded =>
      obtain ⟨_, moved⟩ := Option.ite_none_right_eq_some.mp acted
      cases succeeded <;> cases moved <;> simp [ForkedChild.exec, ForkedChild.finish]
  | sets signal disposition =>
      obtain ⟨_, moved⟩ := Option.ite_none_right_eq_some.mp acted
      cases moved
      rw [sets_stage]
      exact begun
  | write =>
      obtain ⟨_, moved⟩ := Option.ite_none_right_eq_some.mp acted
      split at moved <;> cases moved
      · simp [ForkedChild.finish]
      · exact begun
  | exit code =>
      obtain ⟨_, moved⟩ := Option.ite_none_right_eq_some.mp acted
      cases moved
      simp [ForkedChild.finish]
  | take signal core =>
      obtain ⟨_, moved⟩ := Option.ite_none_right_eq_some.mp acted
      cases moved
      rcases take_stage child signal core with same | gone
      · rw [same]
        exact begun
      · intro born
        rw [born] at gone
        cases gone
  | sent signal =>
      cases acted
      rw [send_stage]
      exact begun
  | _ => cases acted

theorem act_ignored (child next : ForkedChild) (broken : Bool) (label : WatchLabel) (signal : Signal)
    (untouched : ∀ disposition, label ≠ .sets signal disposition) (ignored : child.disposition signal = .ignored)
    (acted : child.act broken label = some next) : next.disposition signal = .ignored := by
  cases label with
  | statement =>
      obtain ⟨_, moved⟩ := Option.ite_none_left_eq_some.mp acted
      unfold ForkedChild.nextStatement at moved
      split at moved <;> cases moved <;> simp [sets_disposition, Function.update_apply, ignored]
  | execvp succeeded =>
      obtain ⟨_, moved⟩ := Option.ite_none_right_eq_some.mp acted
      cases succeeded <;> cases moved
      · exact ignored
      · simp [ForkedChild.exec, ignored]
  | sets set disposition =>
      obtain ⟨_, moved⟩ := Option.ite_none_right_eq_some.mp acted
      cases moved
      have different : signal ≠ set := by
        rintro rfl
        exact untouched disposition rfl
      rw [sets_disposition, Function.update_of_ne different]
      exact ignored
  | write =>
      obtain ⟨_, moved⟩ := Option.ite_none_right_eq_some.mp acted
      split at moved <;> cases moved <;> exact ignored
  | exit =>
      obtain ⟨_, moved⟩ := Option.ite_none_right_eq_some.mp acted
      cases moved
      exact ignored
  | take taken core =>
      obtain ⟨_, moved⟩ := Option.ite_none_right_eq_some.mp acted
      cases moved
      rw [take_disposition]
      exact ignored
  | sent sent =>
      cases acted
      rw [send_disposition]
      exact ignored
  | _ => cases acted

-- Where the child's end can come from when exec_stop sends it nothing.
def Ends (labels : List WatchLabel) : Prop :=
  (∃ code, .exit code ∈ labels) ∨ .execvp false ∈ labels ∨
    (∃ signal, .sent signal ∈ labels ∧ standardAction signal = .finish) ∨
    TakenWithin (· = .close) (fun _ => False) .write labels

theorem ends_next (label : WatchLabel) (labels : List WatchLabel) (ends : Ends labels) : Ends (labels ++ [label]) := by
  rcases ends with ⟨code, exited⟩ | failed | ⟨signal, sent, finishes⟩ | wrote
  · exact Or.inl ⟨code, List.mem_append_left _ exited⟩
  · exact Or.inr (Or.inl (List.mem_append_left _ failed))
  · exact Or.inr (Or.inr (Or.inl ⟨signal, List.mem_append_left _ sent, finishes⟩))
  · exact Or.inr (Or.inr (Or.inr ((taken_within_next _ _ _ _ _).mpr (Or.inl wrote))))

structure EndInv (labels : List WatchLabel) (watched : Watched) : Prop where
  pending : ∀ signal, watched.child.pending signal = true → .sent signal ∈ labels ∨ signal = sigcont
  closed : watched.stop.broken = true → .close ∈ labels
  ended : watched.child.stage.isGone = true → Ends labels

theorem child_end_keeps (before : List WatchLabel) (watched : Watched) (label : WatchLabel) (next : ForkedChild)
    (inv : EndInv before watched) (acted : watched.child.act watched.stop.broken label = some next) :
    EndInv (before ++ [label]) { watched with child := next } := by
  refine ⟨fun signal pending => ?_, fun broken => List.mem_append_left _ (inv.closed broken), fun gone => ?_⟩
  · rcases act_pending watched.child next _ label signal acted pending with early | rfl
    · exact (inv.pending signal early).imp_left (List.mem_append_left _)
    · exact Or.inl (List.mem_append_right _ List.mem_cons_self)
  · cases there : watched.child.stage.isGone with
    | true => exact ends_next label before (inv.ended there)
    | false =>
        obtain ⟨ending, last⟩ := (is_gone_iff _).mp gone
        obtain ⟨_, ends⟩ := act_gone watched.child next _ label ending there acted last
        cases ends with
        | exit code => exact Or.inl ⟨code, List.mem_append_right _ List.mem_cons_self⟩
        | execvp => exact Or.inr (Or.inl (List.mem_append_right _ List.mem_cons_self))
        | write lost =>
            refine Or.inr (Or.inr (Or.inr ((taken_within_next _ _ _ _ _).mpr (Or.inr ⟨rfl, ?_, ?_⟩))))
            · exact ⟨.close, inv.closed lost, rfl⟩
            · exact fun _ _ => id
        | take signal core pending finishes =>
            have sent : .sent signal ∈ before := by
              refine (inv.pending signal pending).resolve_right ?_
              rintro rfl
              cases finishes
            exact Or.inr (Or.inr (Or.inl ⟨signal, List.mem_append_left _ sent, finishes⟩))

theorem end_keeps (blocking : Bool) (before : List WatchLabel) (watched : Watched) (label : WatchLabel) (next : Watched)
    (inv : EndInv before watched) (other : label ≠ .kill) (stepped : watchStep blocking watched label = some next) :
    EndInv (before ++ [label]) next := by
  rcases watch_step_cases blocking watched next label stepped with ⟨parent, moved⟩ | ⟨_, child, acted, rfl⟩
  · have later : ∀ entry, entry ∈ before → entry ∈ before ++ [label] := fun _ => List.mem_append_left _
    have pending : ∀ signal, watched.child.pending signal = true → .sent signal ∈ before ++ [label] ∨ signal = sigcont :=
      fun signal waiting => (inv.pending signal waiting).imp_left (later _)
    have ended := fun gone => ends_next label before (inv.ended gone)
    cases label with
    | stop =>
        obtain ⟨_, went⟩ := Option.ite_none_right_eq_some.mp moved
        cases went
        refine ⟨pending, fun broken => ?_, ended⟩
        cases blocking <;> cases broken
    | kill => exact absurd rfl other
    | close =>
        obtain ⟨_, went⟩ := Option.ite_none_right_eq_some.mp moved
        cases went
        exact ⟨pending, fun _ => List.mem_append_right _ List.mem_cons_self, ended⟩
    | wait =>
        obtain ⟨here, went⟩ := Option.ite_none_right_eq_some.mp moved
        obtain ⟨⟨status, child⟩, collected, rfl⟩ := Option.map_eq_some_iff.mp went
        have closed := later _ (inv.closed (by rw [here]; rfl))
        unfold ForkedChild.collect at collected
        split at collected
        · cases collected
          exact ⟨pending, fun _ => closed, ended⟩
        · obtain ⟨change, _, same⟩ := Option.map_eq_some_iff.mp collected
          cases same
          exact ⟨pending, fun _ => closed, ended⟩
    | waitError =>
        obtain ⟨here, went⟩ := Option.ite_none_right_eq_some.mp moved
        cases went
        exact ⟨pending, fun _ => later _ (inv.closed (by rw [here]; rfl)), ended⟩
    | cont =>
        obtain ⟨here, went⟩ := Option.ite_none_right_eq_some.mp moved
        cases went
        refine ⟨fun signal waiting => ?_, fun _ => later _ (inv.closed (by rw [here]; rfl)), fun gone => ?_⟩
        · rcases send_pending watched.child sigcont signal waiting with early | same
          · exact pending signal early
          · exact Or.inr same
        · rw [send_stage] at gone
          exact ended gone
    | _ => cases parent
  · exact child_end_keeps before watched label child inv acted

theorem initial_end_inv (inherited : Signal → Disposition) : EndInv [] (Watched.initial inherited) where
  pending := fun _ pending => absurd pending Bool.false_ne_true
  closed := fun broken => absurd broken Bool.false_ne_true
  ended := fun gone => absurd gone Bool.false_ne_true

theorem unkilled_ends (blocking : Bool) (inherited : Signal → Disposition) (labels : List WatchLabel) (watched : Watched)
    (ran : labels.foldlM (watchStep blocking) (Watched.initial inherited) = some watched) (unkilled : .kill ∉ labels) :
    EndInv labels watched := by
  refine history_invariant (watchStep blocking) (fun before here => .kill ∉ before → EndInv before here) _ watched labels
    (fun before here label next inv stepped without => ?_) (fun _ => initial_end_inv inherited) ran unkilled
  rw [List.mem_append, not_or, List.mem_singleton] at without
  exact end_keeps blocking before here label next (inv without.1) (Ne.symm without.2) stepped

-- Behind its first statement the child ignores SIGINT until its program asks
-- for the signal.
structure SilencedInv (labels : List WatchLabel) (watched : Watched) : Prop where
  waits : WaitInv watched
  begun : .statement ∈ labels → watched.child.stage ≠ .born
  ignored : (∀ disposition, .sets sigint disposition ∉ labels) →
    watched.child.stage = .born ∨ watched.child.stage.isGone = true ∨ watched.child.disposition sigint = .ignored

theorem stop_child (blocking : Bool) (watched next : Watched) (label : WatchLabel)
    (stepped : stopStep blocking watched label = some next) :
    next.child.stage = watched.child.stage ∧ next.child.disposition = watched.child.disposition := by
  cases label with
  | stop | close | waitError =>
      obtain ⟨_, moved⟩ := Option.ite_none_right_eq_some.mp stepped
      cases moved
      exact ⟨rfl, rfl⟩
  | kill | cont =>
      obtain ⟨_, moved⟩ := Option.ite_none_right_eq_some.mp stepped
      cases moved
      exact ⟨send_stage _ _, send_disposition _ _⟩
  | wait =>
      obtain ⟨_, moved⟩ := Option.ite_none_right_eq_some.mp stepped
      obtain ⟨⟨status, child⟩, collected, rfl⟩ := Option.map_eq_some_iff.mp moved
      unfold ForkedChild.collect at collected
      split at collected
      · cases collected
        exact ⟨rfl, rfl⟩
      · obtain ⟨_, _, same⟩ := Option.map_eq_some_iff.mp collected
        cases same
        exact ⟨rfl, rfl⟩
  | _ => cases stepped

theorem silenced_keeps (blocking : Bool) (before : List WatchLabel) (watched : Watched) (label : WatchLabel)
    (next : Watched) (inv : SilencedInv before watched) (stepped : watchStep blocking watched label = some next) :
    SilencedInv (before ++ [label]) next := by
  have waits := watch_keeps blocking watched label next inv.waits stepped
  have early : (∀ disposition, .sets sigint disposition ∉ before ++ [label]) →
      (∀ disposition, .sets sigint disposition ∉ before) ∧ ∀ disposition, label ≠ .sets sigint disposition := by
    intro untouched
    refine ⟨fun disposition member => untouched disposition (List.mem_append_left _ member), ?_⟩
    rintro disposition rfl
    exact untouched disposition (List.mem_append_right _ List.mem_cons_self)
  rcases watch_step_cases blocking watched next label stepped with ⟨parent, moved⟩ | ⟨_, child, acted, rfl⟩
  · obtain ⟨stage, disposition⟩ := stop_child blocking watched next label moved
    refine ⟨waits, fun begun => ?_, fun untouched => ?_⟩
    · rw [stage]
      refine inv.begun ((List.mem_append.mp begun).resolve_right fun last => ?_)
      rw [← List.mem_singleton.mp last] at parent
      cases parent
    · rw [stage, disposition]
      exact inv.ignored (early untouched).1
  · by_cases born : watched.child.stage = .born
    · have unbegun : .statement ∉ before := fun member => inv.begun member born
      rcases born_act watched.child child _ label born acted with ⟨other, still⟩ | gone | ⟨begun, ignored⟩
      · refine ⟨waits, fun member => ?_, fun _ => Or.inl still⟩
        rcases List.mem_append.mp member with first | last
        · exact absurd first unbegun
        · exact absurd (List.mem_singleton.mp last).symm other
      · refine ⟨waits, fun _ same => ?_, fun _ => Or.inr (Or.inl gone)⟩
        dsimp only at same
        rw [same] at gone
        cases gone
      · exact ⟨waits, fun _ => begun, fun _ => Or.inr (Or.inr ignored)⟩
    · have later := act_begun watched.child child _ label born acted
      refine ⟨waits, fun _ => later, fun untouched => Or.inr ?_⟩
      obtain ⟨unset, other⟩ := early untouched
      rcases (inv.ignored unset).resolve_left born with gone | ignored
      · obtain ⟨ending, last⟩ := (is_gone_iff _).mp gone
        have same := gone_act watched.child child _ label ending last (inv.waits.quiet ending last).2 acted
        dsimp only
        rw [same]
        exact Or.inl gone
      · exact Or.inr (act_ignored watched.child child _ label sigint other ignored acted)

theorem ignored_send (child : ForkedChild) (ignored : child.disposition sigint = .ignored) : child.send sigint = child := by
  have handled : child.handling sigint = .ignored := ignored
  have discarded : child.discards sigint = true := by rw [ForkedChild.discards, handled]
  unfold ForkedChild.send
  dsimp only
  rw [if_pos discarded]
  split <;> rfl

theorem silenced_send (labels : List WatchLabel) (watched : Watched) (inv : SilencedInv labels watched)
    (begun : .statement ∈ labels) (unasked : ∀ disposition, .sets sigint disposition ∉ labels) :
    watched.child.send sigint = watched.child := by
  rcases (inv.ignored unasked).resolve_left (inv.begun begun) with gone | ignored
  · rw [ForkedChild.send, if_pos gone]
  · exact ignored_send watched.child ignored

theorem kill_cases (blocking : Bool) (watched next : Watched) (stepped : watchStep blocking watched .kill = some next) :
    watched.stop = .killing ∧ next = ⟨watched.child.send sigint, .closing, watched.told⟩ := by
  have struck : stopStep blocking watched .kill = some next := stepped
  obtain ⟨here, moved⟩ := Option.ite_none_right_eq_some.mp struck
  exact ⟨here, (Option.some.inj moved).symm⟩

theorem killed_stays (blocking : Bool) (labels : List WatchLabel) (watched last : Watched)
    (killed : watched.stop.killed = true) (ran : labels.foldlM (watchStep blocking) watched = some last) :
    last.stop.killed = true :=
  reaches_invariant (watchStep blocking) (fun state => state.stop.killed = true)
    (fun state label next killed stepped => (killed_keeps blocking state label next killed stepped).2)
    watched last ⟨labels, ran⟩ killed

theorem unkilled_before (blocking : Bool) (labels : List WatchLabel) (watched last : Watched)
    (ran : labels.foldlM (watchStep blocking) watched = some last) (early : last.stop.killed = false) :
    .kill ∉ labels := by
  intro member
  obtain ⟨front, back, rfl⟩ := List.append_of_mem member
  rw [List.foldlM_append] at ran
  obtain ⟨start, _, remaining⟩ := Option.bind_eq_some_iff.mp ran
  obtain ⟨struck, stepped, later⟩ := Option.bind_eq_some_iff.mp remaining
  obtain ⟨_, rfl⟩ := kill_cases blocking start struck stepped
  cases early.symm.trans (killed_stays blocking back _ last rfl later)

theorem without_kill (labels : List WatchLabel) (watched last : Watched) (unkilled : .kill ∉ labels)
    (ran : labels.foldlM (watchStep false) watched = some last) :
    labels.foldlM (watchStep true) watched.asBlocking = some last.asBlocking := by
  refine mapped_run (watchStep false) (watchStep true) Watched.asBlocking (· ≠ .kill) blocking_step watched last labels
    (fun label member same => ?_) ran
  rw [same] at member
  exact unkilled member

-- The SIGINT of exec_stop is lost on a child that has made its first statement:
-- until the program asks for the signal, the run goes on as without the kill,
-- and exec_stop returns when the child has ended of itself, by a write or by
-- somebody else's signal, or with -1 when waitpid has failed.
theorem exec_stop_signal_lost (inherited : Signal → Disposition) (before after : List WatchLabel) (watched : Watched)
    (ran : (before ++ .kill :: after).foldlM (watchStep false) (Watched.initial inherited) = some watched)
    (begun : .statement ∈ before) (unasked : ∀ disposition, .sets sigint disposition ∉ before) :
    (before ++ after).foldlM (watchStep true) (Watched.initial inherited) = some watched ∧
      ∀ status, watched.stop = .returned status →
        (status = -1 ∧ .waitError ∈ before ++ after) ∨ Ends (before ++ after) := by
  rw [List.foldlM_append] at ran
  obtain ⟨middle, first, rest⟩ := Option.bind_eq_some_iff.mp ran
  obtain ⟨next, killed, last⟩ := Option.bind_eq_some_iff.mp rest
  obtain ⟨here, rfl⟩ := kill_cases false middle next killed
  have inv := history_invariant (watchStep false) SilencedInv _ middle before (silenced_keeps false)
    ⟨initial_wait_inv inherited, nofun, fun _ => Or.inl rfl⟩ first
  rw [silenced_send before middle inv begun unasked] at last
  have unkilledBefore := unkilled_before false before _ middle first (by rw [here]; rfl)
  have unkilledAfter := killed_once false after _ watched rfl last
  have fore := without_kill before _ middle unkilledBefore first
  have aft := without_kill after _ watched unkilledAfter last
  have erased : (before ++ after).foldlM (watchStep true) (Watched.initial inherited) = some watched := by
    rw [List.foldlM_append]
    refine Option.bind_eq_some_iff.mpr ⟨middle.asBlocking, fore, ?_⟩
    rw [Watched.asBlocking, here]
    rw [show watched.asBlocking = watched by
      rw [Watched.asBlocking, as_blocking_killed _ (killed_stays false after _ watched rfl last)]] at aft
    exact aft
  refine ⟨erased, fun status returned => ?_⟩
  have waits := reaches_invariant (watchStep true) WaitInv (watch_keeps true) _ watched ⟨_, erased⟩
    (initial_wait_inv inherited)
  obtain ⟨_, ⟨ending, _, gone, _⟩ | ⟨_, rfl⟩⟩ := waits.returned status returned
  case inr => exact Or.inl ⟨rfl, failed_wait true inherited _ watched erased returned⟩
  have unkilled : .kill ∉ before ++ after := by
    rw [List.mem_append, not_or]
    exact ⟨unkilledBefore, unkilledAfter⟩
  exact Or.inr ((unkilled_ends true inherited _ watched erased unkilled).ended ((is_gone_iff _).mpr ⟨ending, gone⟩))

def beforeKill : List WatchLabel := programStarted ++ [.stop]

def behindKill : List WatchLabel := [.close, .write, .wait]

theorem writer_ends_by_write : ∃ watched,
    (beforeKill ++ .kill :: behindKill).foldlM (watchStep false) (Watched.initial fun _ => .caught) = some watched ∧
    watched.stop = .returned 13 ∧ Ends (beforeKill ++ behindKill) := by
  refine ⟨_, rfl, rfl, ?_⟩
  have lost := exec_stop_signal_lost (fun _ => .caught) beforeKill behindKill _ rfl (by decide)
    (by simp [beforeKill, programStarted])
  exact (lost.2 13 rfl).resolve_left (by decide)

end Slogger.Spawn
