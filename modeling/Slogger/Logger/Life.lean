import Slogger.Logger.Unopened

set_option autoImplicit false

namespace Slogger.Logger

open Slogger.Lib

-- One start and stop of the log system, whether its file opens or not.
def oneLife (state : LoggerState) : Label → Bool
  | .enqueue _ _ => slogStarted state.main
  | .again => false
  | _ => true

-- What the queue holds: while the file has not failed to open, and behind that.
def Life (capacity : Nat) (state : LoggerState) (queued : List QueueData) : Bool → Prop
  | false =>
      LoggerInv capacity state queued ∧ state.cycle = 0 ∧ (hasOpened state.logger = false → UnopenedInv capacity state)
  | true => UnopenedInv capacity state ∧ state.logger = .ended ∧ queued = state.accepted

structure Apart (state next : LoggerState) : Prop where
  flight : inFlight next.logger = inFlight state.logger
  file : next.file = state.file

structure SameCalls (state next : LoggerState) : Prop where
  pushed : next.pushed = state.pushed
  accepted : next.accepted = state.accepted

def isQuiet : Label → Bool
  | .enqueue _ _ | .dequeue | .write | .openLog _ | .again => false
  | _ => true

inductive LifeStep (state next : LoggerState) (queued : List QueueData) : Label → List QueueData → Prop where
  | refused (thread : Nat) (data : QueueData) (full : refuses state.queue = true) (apart : Apart state next)
      (pushed : next.pushed = state.pushed ++ [data]) (accepted : next.accepted = state.accepted) :
      LifeStep state next queued (.enqueue thread data) queued
  | stored (thread : Nat) (data : QueueData) (space : refuses state.queue = false) (apart : Apart state next)
      (pushed : next.pushed = state.pushed ++ [data]) (accepted : next.accepted = state.accepted ++ [data]) :
      LifeStep state next queued (.enqueue thread data) (queued ++ [data])
  | drained (empty : isDrained state.queue = true) (apart : Apart state next) (calls : SameCalls state next) :
      LifeStep state next queued .dequeue queued
  | taken (data : QueueData) (rest : List QueueData) (first : queued = data :: rest)
      (filled : isDrained state.queue = false) (idle : inFlight state.logger = []) (has : inFlight next.logger = [data])
      (file : next.file = state.file) (calls : SameCalls state next) : LifeStep state next queued .dequeue rest
  | written (data : QueueData) (has : inFlight state.logger = [data]) (idle : inFlight next.logger = [])
      (file : next.file = state.file ++ data.message) (calls : SameCalls state next) :
      LifeStep state next queued .write queued
  | opened (opens : Bool) (flight : inFlight next.logger = inFlight state.logger) (before : state.file = [])
      (after : next.file = []) (calls : SameCalls state next) : LifeStep state next queued (.openLog opens) queued
  | quiet (label : Label) (quietly : isQuiet label = true) (apart : Apart state next) (calls : SameCalls state next) :
      LifeStep state next queued label queued

section Life

variable (capacity : Nat) (state next : LoggerState) (label : Label)

theorem quiet_apart (quietly : isQuiet label = true) (absent : state.main = .create → inFlight state.logger = [])
    (stepped : step capacity state label = some next) : Apart state next := by
  cases label with
  | enqueue | dequeue | write | openLog | again => cases quietly
  | createThread =>
      simp only [step, stepMain, Option.ite_none_right_eq_some, Option.some.injEq] at stepped
      obtain ⟨here, rfl⟩ := stepped
      exact ⟨(absent here).symm, rfl⟩
  | close =>
      simp only [step, stepLogger, Option.ite_none_right_eq_some, Option.some.injEq] at stepped
      obtain ⟨here, rfl⟩ := stepped
      refine ⟨?_, rfl⟩
      rw [here]
      rfl
  | _ =>
      simp only [step, stepMain, stepProducer] at stepped
      repeat' split at stepped
      all_goals cases stepped
      all_goals exact ⟨rfl, rfl⟩

theorem quiet_calls (quietly : isQuiet label = true) (stepped : step capacity state label = some next) :
    SameCalls state next := by
  have apart : ∀ other, isQuiet other = false → label ≠ other := by
    rintro other loud rfl
    cases quietly.symm.trans loud
  have given := (step_frame capacity state next label (apart _ rfl) stepped).given fun _ _ => apart _ rfl
  exact ⟨given.1, given.2⟩

theorem enqueue_effect (thread : Nat) (data : QueueData) (safe : next.fault = none)
    (stepped : stepProducer state (.enqueue thread data) = some next) :
    Apart state next ∧ next.pushed = state.pushed ++ [data] ∧
      (refuses state.queue = true ∧ next.accepted = state.accepted ∨
        refuses state.queue = false ∧ next.accepted = state.accepted ++ [data]) := by
  simp only [stepProducer] at stepped
  split at stepped
  · cases stepped
  · split at stepped
    · rename_i full
      cases stepped
      exact ⟨⟨rfl, rfl⟩, rfl, Or.inl ⟨full, rfl⟩⟩
    · rename_i space
      split at stepped
      · cases stepped
        cases safe
      · cases stepped
        exact ⟨⟨rfl, rfl⟩, rfl, Or.inr ⟨by simpa using space, rfl⟩⟩

theorem enqueue_lives (thread : Nat) (data : QueueData) (queued : List QueueData) (safe : next.fault = none)
    (stepped : stepProducer state (.enqueue thread data) = some next) :
    LifeStep state next queued (.enqueue thread data)
      (if refuses state.queue then queued else queued ++ [data]) := by
  obtain ⟨apart, pushed, ⟨full, accepted⟩ | ⟨space, accepted⟩⟩ := enqueue_effect state next thread data safe stepped
  · rw [if_pos full]
    exact .refused thread data full apart pushed accepted
  · rw [space, if_neg Bool.false_ne_true]
    exact .stored thread data space apart pushed accepted

theorem dequeue_logger (safe : next.fault = none) (stepped : step capacity state .dequeue = some next) :
    state.logger = .dequeuing ∧ next.file = state.file ∧
      ((isDrained state.queue = true ∧ next.logger = .closing) ∨
        (isDrained state.queue = false ∧ ∃ data, next.logger = .writing data ∧
          next.consumed = state.consumed ++ [data])) := by
  simp only [step, stepLogger, Option.ite_none_right_eq_some, Option.ite_none_left_eq_some] at stepped
  obtain ⟨here, _, stepped⟩ := stepped
  by_cases drained : isDrained state.queue = true
  · rw [if_pos drained] at stepped
    cases stepped
    exact ⟨here, rfl, Or.inl ⟨drained, rfl⟩⟩
  · rw [if_neg drained] at stepped
    split at stepped
    · cases stepped
      cases safe
    · rename_i data queue taken
      cases stepped
      exact ⟨here, rfl, Or.inr ⟨by simpa using drained, data, rfl, rfl⟩⟩

theorem dequeue_lives (queued : List QueueData) (inv : LoggerInv capacity state queued)
    (stepped : step capacity state .dequeue = some next) :
    ∃ after, LoggerInv capacity next after ∧ LifeStep state next queued .dequeue after := by
  have given := (step_frame capacity state next .dequeue nofun stepped).given nofun
  have calls : SameCalls state next := ⟨given.1, given.2⟩
  rcases dequeue_keeps capacity state next queued inv stepped with
    ⟨rfl, _, consumed, kept⟩ | ⟨data, rest, rfl, _, consumed, kept⟩
  · obtain ⟨before, file, ⟨drained, after⟩ | ⟨_, _, _, more⟩⟩ := dequeue_logger capacity state next kept.safe stepped
    · exact ⟨[], kept, .drained drained ⟨by rw [before, after]; rfl, file⟩ calls⟩
    · rw [consumed] at more
      simp at more
  · obtain ⟨before, file, ⟨drained, _⟩ | ⟨filled, other, after, more⟩⟩ :=
      dequeue_logger capacity state next kept.safe stepped
    · simp [isDrained, inv.counted] at drained
    · obtain ⟨_, rfl⟩ := List.append_inj' (consumed.symm.trans more) rfl |>.imp_right List.singleton_inj.mp
      exact ⟨rest, kept, .taken data rest rfl filled (by rw [before]; rfl) (by rw [after]; rfl) file calls⟩

theorem write_lives (queued : List QueueData) (stepped : step capacity state .write = some next) :
    LifeStep state next queued .write queued := by
  simp only [step, stepLogger] at stepped
  split at stepped
  · rename_i data writing
    cases stepped
    exact .written data (by rw [writing]; rfl) rfl rfl ⟨rfl, rfl⟩
  · cases stepped

theorem open_lives (opens : Bool) (queued : List QueueData) (before : state.file = [])
    (stepped : step capacity state (.openLog opens) = some next) :
    LifeStep state next queued (.openLog opens) queued := by
  simp only [step, stepLogger, Option.ite_none_right_eq_some, Option.some.injEq] at stepped
  obtain ⟨here, rfl⟩ := stepped
  cases opens with
  | true => exact .opened true (by rw [here]; rfl) before rfl ⟨rfl, rfl⟩
  | false => exact .opened false (by rw [here]; rfl) before before ⟨rfl, rfl⟩

-- The logging thread does not come back to the point before its fopen.
theorem early_before (pending : List QueueData) (inv : LoggerInv capacity state pending) (other : label ≠ .again)
    (stepped : step capacity state label = some next) (early : hasOpened next.logger = false) :
    hasOpened state.logger = false ∧ ∀ opens, label ≠ .openLog opens := by
  cases label with
  | again => exact absurd rfl other
  | createThread =>
      simp only [step, stepMain, Option.ite_none_right_eq_some, Option.some.injEq] at stepped
      obtain ⟨here, rfl⟩ := stepped
      exact ⟨by rw [inv.created here]; rfl, by simp⟩
  | openLog opens =>
      simp only [step, stepLogger, Option.ite_none_right_eq_some, Option.some.injEq] at stepped
      obtain ⟨_, rfl⟩ := stepped
      cases opens <;> cases early
  | dequeue | write | close =>
      simp only [step, stepLogger] at stepped
      repeat' split at stepped
      all_goals cases stepped
      all_goals simp_all [hasOpened]
  | _ =>
      simp only [step, stepMain, stepProducer] at stepped
      repeat' split at stepped
      all_goals cases stepped
      all_goals exact ⟨early, by simp⟩

theorem life_unopened (allowed : oneLife state label = true) (fails : label ≠ .openLog true) :
    unopened state label = true := by
  cases label with
  | openLog opens =>
      cases opens with
      | true => exact absurd rfl fails
      | false => rfl
  | _ => exact allowed

theorem going_lives (queued : List QueueData) (life : Life capacity state queued false)
    (allowed : oneLife state label = true) (opens : label ≠ .openLog false)
    (stepped : step capacity state label = some next) :
    ∃ after, Life capacity next after false ∧ LifeStep state next queued label after := by
  obtain ⟨inv, first, early⟩ := life
  have other : label ≠ .again := by
    rintro rfl
    cases allowed
  have cycle := (step_frame capacity state next label other stepped).cycle.trans first
  have still : hasOpened next.logger = false → UnopenedInv capacity next := by
    intro unopened
    obtain ⟨before, elsewhere⟩ := early_before capacity state next label queued inv other stepped unopened
    exact unopened_step_keeps capacity state label next (early before)
      ((under_some _ _ _ _ _).mpr ⟨life_unopened state label allowed (elsewhere true), stepped⟩)
  have absent : state.main = .create → inFlight state.logger = [] := fun here => by rw [inv.created here]; rfl
  have quiet : isQuiet label = true → LoggerInv capacity next queued →
      ∃ after, Life capacity next after false ∧ LifeStep state next queued label after := fun quietly kept =>
    ⟨queued, ⟨kept, cycle, still⟩, .quiet label quietly (quiet_apart capacity state next label quietly absent stepped)
      (quiet_calls capacity state next label quietly stepped)⟩
  cases label with
  | enqueue thread data =>
      obtain ⟨_, ⟨refused, _, _, _, kept⟩ | ⟨stored, _, _, kept⟩⟩ :=
        enqueue_keeps capacity state next thread data queued inv allowed stepped
      · have lives := enqueue_lives state next thread data queued kept.safe stepped
        rw [if_pos refused] at lives
        exact ⟨queued, ⟨kept, cycle, still⟩, lives⟩
      · have lives := enqueue_lives state next thread data queued kept.safe stepped
        rw [stored, if_neg Bool.false_ne_true] at lives
        exact ⟨queued ++ [data], ⟨kept, cycle, still⟩, lives⟩
  | dequeue =>
      obtain ⟨after, kept, lives⟩ := dequeue_lives capacity state next queued inv stepped
      exact ⟨after, ⟨kept, cycle, still⟩, lives⟩
  | write =>
      have kept := write_keeps capacity state next queued inv stepped
      exact ⟨queued, ⟨kept, cycle, still⟩, write_lives capacity state next queued stepped⟩
  | openLog opened =>
      cases opened with
      | false => exact absurd rfl opens
      | true =>
          have here := (Option.ite_none_right_eq_some.mp stepped).1
          have file := (inv.unopened (by rw [here]; rfl)).2 first
          have kept := open_keeps capacity state next queued inv stepped
          exact ⟨queued, ⟨kept, cycle, still⟩, open_lives capacity state next true queued file stepped⟩
  | close => exact quiet rfl (close_keeps capacity state next queued inv stepped)
  | report thread => exact quiet rfl (report_keeps capacity state next thread queued inv stepped)
  | createThread | setCapacity | allocate | setShutdown | signalDestroy | join | freeData =>
      have moved := stepped
      simp only [step] at moved
      exact quiet rfl (main_keeps capacity state next _ queued inv moved)
  | again => exact absurd rfl other

theorem failing_lives (queued : List QueueData) (life : Life capacity state queued false)
    (stepped : step capacity state (.openLog false) = some next) :
    Life capacity next queued true ∧ LifeStep state next queued (.openLog false) queued := by
  obtain ⟨inv, first, early⟩ := life
  have here : state.logger = .opening := (Option.ite_none_right_eq_some.mp stepped).1
  have before := inv.unopened (by rw [here]; rfl)
  have given := (step_frame capacity state next (.openLog false) nofun stepped).given nofun
  have kept := unopened_step_keeps capacity state (.openLog false) next (early (by rw [here]; rfl))
    ((under_some _ _ _ _ _).mpr ⟨rfl, stepped⟩)
  refine ⟨⟨kept, ?_, ?_⟩, open_lives capacity state next false queued (before.2 first) stepped⟩
  · simp only [step, stepLogger, Option.ite_none_right_eq_some, Bool.false_eq_true, if_false, Option.some.injEq] at stepped
    exact stepped.2 ▸ rfl
  · rw [given.2, inv.accounted, before.1, List.nil_append]

-- Behind the failed fopen nobody takes anything from the queue.
theorem failed_lives (queued : List QueueData) (life : Life capacity state queued true)
    (allowed : oneLife state label = true) (stepped : step capacity state label = some next) :
    ∃ after, Life capacity next after true ∧ LifeStep state next queued label after ∧ label ≠ .openLog false := by
  obtain ⟨inv, ended, rfl⟩ := life
  have elsewhere : ∀ opens, label ≠ .openLog opens := by
    rintro opens rfl
    simp [step, stepLogger, ended] at stepped
  have kept := unopened_step_keeps capacity state label next inv
    ((under_some _ _ _ _ _).mpr ⟨life_unopened state label allowed (elsewhere true), stepped⟩)
  have idle : inFlight state.logger = [] := by rw [ended]; rfl
  have quiet : isQuiet label = true → next.logger = .ended →
      ∃ after, Life capacity next after true ∧ LifeStep state next state.accepted label after ∧
        label ≠ .openLog false := fun quietly there =>
    have calls := quiet_calls capacity state next label quietly stepped
    ⟨state.accepted, ⟨kept, there, calls.accepted.symm⟩,
      .quiet label quietly (quiet_apart capacity state next label quietly (fun _ => idle) stepped) calls, elsewhere false⟩
  cases label with
  | enqueue thread data =>
      have there : next.logger = .ended := (producer_unaware state next (.enqueue thread data) stepped).1.trans ended
      have lives := enqueue_lives state next thread data state.accepted kept.safe stepped
      obtain ⟨_, _, ⟨full, accepted⟩ | ⟨space, accepted⟩⟩ := enqueue_effect state next thread data kept.safe stepped
      · rw [if_pos full, ← accepted] at lives
        exact ⟨next.accepted, ⟨kept, there, rfl⟩, accepted ▸ lives, by simp⟩
      · rw [space, if_neg Bool.false_ne_true, ← accepted] at lives
        exact ⟨next.accepted, ⟨kept, there, rfl⟩, lives, by simp⟩
  | openLog opens => exact absurd rfl (elsewhere opens)
  | dequeue | write | close => simp [step, stepLogger, ended] at stepped
  | report thread => exact quiet rfl ((producer_unaware state next (.report thread) stepped).1.trans ended)
  | again => cases allowed
  | createThread =>
      simp only [step, stepMain, Option.ite_none_right_eq_some, Option.some.injEq] at stepped
      have absent := (inv.running (by rw [stepped.1]; rfl)).created stepped.1
      simp [notYetOpened, ended] at absent
  | setCapacity | allocate | setShutdown | signalDestroy | join | freeData =>
      have moved := stepped
      simp only [step, stepMain, Option.ite_none_right_eq_some, Option.some.injEq] at moved
      obtain ⟨_, rfl⟩ := moved
      exact quiet rfl ended

theorem life_step (queued : List QueueData) (failed : Bool) (life : Life capacity state queued failed)
    (stepped : under oneLife (step capacity) state label = some next) :
    ∃ after, Life capacity next after (failed || label == .openLog false) ∧ LifeStep state next queued label after := by
  obtain ⟨allowed, moved⟩ := (under_some _ _ _ _ _).mp stepped
  cases failed with
  | true =>
      obtain ⟨after, kept, lives, _⟩ := failed_lives capacity state next label queued life allowed moved
      exact ⟨after, kept, lives⟩
  | false =>
      by_cases fails : label = .openLog false
      · subst fails
        obtain ⟨kept, lives⟩ := failing_lives capacity state next queued life moved
        exact ⟨queued, kept, lives⟩
      · obtain ⟨after, kept, lives⟩ := going_lives capacity state next label queued life allowed fails moved
        have goes : (false || label == .openLog false) = false := by simpa using fails
        rw [goes]
        exact ⟨after, kept, lives⟩

theorem initial_life (positive : 0 < capacity) : Life capacity LoggerState.initial [] false :=
  ⟨initial_inv capacity positive, rfl, fun _ => initial_unopened_inv capacity positive⟩

theorem life_written (queued : List QueueData) (failed : Bool) (life : Life capacity state queued failed) :
    ∃ written, state.accepted = written ++ (inFlight state.logger ++ queued) ∧ state.file = fileBytes written ∧
      (failed = true → written = []) ∧
      (failed = false → state.main = .stopped → inFlight state.logger ++ queued = []) := by
  cases failed with
  | true =>
      obtain ⟨inv, ended, rfl⟩ := life
      exact ⟨[], by rw [ended]; rfl, inv.file, fun _ => rfl, nofun⟩
  | false =>
      obtain ⟨inv, first, _⟩ := life
      have ends : state.main = .stopped → inFlight state.logger ++ queued = [] := by
        intro stopped
        have ended := inv.joined (Or.inr stopped)
        have drained := (inv.finished (by rw [ended]; rfl)).1
        rw [ended, drained]
        rfl
      cases opened : hasOpened state.logger with
      | true =>
          obtain ⟨done, consumed, file⟩ := inv.written opened
          exact ⟨done, by rw [inv.accounted, consumed, List.append_assoc], file, nofun, fun _ => ends⟩
      | false =>
          obtain ⟨consumed, file⟩ := inv.unopened opened
          have idle : inFlight state.logger = [] := by
            cases here : state.logger with
            | writing data =>
                rw [here] at opened
                cases opened
            | _ => rfl
          exact ⟨[], by rw [inv.accounted, consumed, idle]; rfl, file first, nofun, fun _ => ends⟩

end Life

end Slogger.Logger
