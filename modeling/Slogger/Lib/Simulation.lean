import Mathlib.Data.List.Induction
import Slogger.Lib.Runs

set_option autoImplicit false

namespace Slogger.Lib

section Simulation

variable {State Label Coarse Action : Type}

def Reaches (exec : State → Label → Option State) (state last : State) : Prop :=
  ∃ labels : List Label, labels.foldlM exec state = some last

theorem reaches_here (exec : State → Label → Option State) (state : State) : Reaches exec state state := ⟨[], rfl⟩

theorem reaches_step (exec : State → Label → Option State) (state next : State) (label : Label)
    (stepped : exec state label = some next) : Reaches exec state next := by
  refine ⟨[label], ?_⟩
  rw [List.foldlM_cons, stepped]
  rfl

theorem reaches_later (exec : State → Label → Option State) (state middle last : State)
    (before : Reaches exec state middle) (after : Reaches exec middle last) : Reaches exec state last := by
  obtain ⟨labels, ran⟩ := before
  obtain ⟨later, went⟩ := after
  refine ⟨labels ++ later, ?_⟩
  rw [List.foldlM_append, ran]
  exact went

theorem reaches_invariant (exec : State → Label → Option State) (good : State → Prop)
    (keep : ∀ state label next, good state → exec state label = some next → good next) (state last : State)
    (reached : Reaches exec state last) (start : good state) : good last := by
  obtain ⟨labels, ran⟩ := reached
  have always := run_invariant _ good keep state _ (trace_is_run exec state labels) start
  have ended := always_finish good state _ always
  rw [finish_trace exec state last labels ran] at ended
  exact ended

-- Each step of the fine system is a stretch of the coarse one, which may be
-- empty, between related states.
def Simulates (exec : State → Label → Option State) (coarseExec : Coarse → Action → Option Coarse)
    (related : State → Coarse → Prop) : Prop :=
  ∀ state label next coarse, related state coarse → exec state label = some next →
    ∃ after, Reaches coarseExec coarse after ∧ related next after

def MatchedFrom (coarseExec : Coarse → Action → Option Coarse) (related : State → Coarse → Prop) (origin : Coarse)
    (state : State) : Prop :=
  ∃ coarse, Reaches coarseExec origin coarse ∧ related state coarse

theorem matched_next (exec : State → Label → Option State) (coarseExec : Coarse → Action → Option Coarse)
    (related : State → Coarse → Prop) (simulates : Simulates exec coarseExec related) (origin : Coarse)
    (state : State) (label : Label) (next : State) (matched : MatchedFrom coarseExec related origin state)
    (stepped : exec state label = some next) : MatchedFrom coarseExec related origin next := by
  obtain ⟨coarse, reached, here⟩ := matched
  obtain ⟨after, stretch, there⟩ := simulates state label next coarse here stepped
  exact ⟨after, reaches_later coarseExec origin coarse after reached stretch, there⟩

theorem matched_always (exec : State → Label → Option State) (coarseExec : Coarse → Action → Option Coarse)
    (related : State → Coarse → Prop) (simulates : Simulates exec coarseExec related) (origin : Coarse)
    (state : State) (matched : MatchedFrom coarseExec related origin state) (labels : List Label) :
    Always (MatchedFrom coarseExec related origin) state (trace exec state labels) :=
  run_invariant _ _ (matched_next exec coarseExec related simulates origin) state _ (trace_is_run exec state labels) matched

theorem steps_invariant (exec : State → Label → Option State) (allowed : Label → Prop) (good : State → Prop)
    (keep : ∀ state label next, good state → allowed label → exec state label = some next → good next)
    (state last : State) (labels : List Label) (all : ∀ label ∈ labels, allowed label)
    (ran : labels.foldlM exec state = some last) (start : good state) : good last := by
  induction labels generalizing state with
  | nil =>
      cases ran
      exact start
  | cons label rest ih =>
      obtain ⟨next, stepped, later⟩ := Option.bind_eq_some_iff.mp ran
      have here := keep state label next start (all label List.mem_cons_self) stepped
      exact ih next (fun other member => all other (List.mem_cons_of_mem label member)) later here

theorem mapped_run (exec : State → Label → Option State) (coarseExec : Coarse → Label → Option Coarse)
    (image : State → Coarse) (allowed : Label → Prop)
    (keep : ∀ state label next, allowed label → exec state label = some next →
      coarseExec (image state) label = some (image next))
    (state last : State) (labels : List Label) (all : ∀ label ∈ labels, allowed label)
    (ran : labels.foldlM exec state = some last) : labels.foldlM coarseExec (image state) = some (image last) := by
  induction labels generalizing state with
  | nil =>
      cases ran
      rfl
  | cons label rest ih =>
      obtain ⟨next, stepped, later⟩ := Option.bind_eq_some_iff.mp ran
      have here := keep state label next (all label List.mem_cons_self) stepped
      rw [List.foldlM_cons, here]
      exact ih next (fun other member => all other (List.mem_cons_of_mem label member)) later

-- A run keeps what each step keeps of the labels so far and the state there.
theorem history_invariant (exec : State → Label → Option State) (good : List Label → State → Prop) (state last : State)
    (labels : List Label) (keep : ∀ before here label next, good before here → exec here label = some next →
      good (before ++ [label]) next)
    (start : good [] state) (ran : labels.foldlM exec state = some last) : good labels last := by
  induction labels using List.reverseRecOn generalizing last with
  | nil =>
      cases ran
      exact start
  | append_singleton before label ih =>
      rw [List.foldlM_append] at ran
      obtain ⟨here, sofar, stepped⟩ := Option.bind_eq_some_iff.mp ran
      rw [List.foldlM_cons] at stepped
      obtain ⟨next, went, ended⟩ := Option.bind_eq_some_iff.mp stepped
      cases ended
      exact keep before here label last (ih here sofar) went

-- The label was taken when one that opens had been taken and none that closes.
def TakenWithin (opens closes : Label → Prop) (label : Label) (labels : List Label) : Prop :=
  ∃ before after, labels = before ++ label :: after ∧ (∃ first ∈ before, opens first) ∧ ∀ other ∈ before, ¬ closes other

theorem taken_within_next (opens closes : Label → Prop) (label last : Label) (labels : List Label) :
    TakenWithin opens closes label (labels ++ [last]) ↔
      TakenWithin opens closes label labels ∨
        (last = label ∧ (∃ first ∈ labels, opens first) ∧ ∀ other ∈ labels, ¬ closes other) := by
  constructor
  · rintro ⟨before, after, split, opened, unclosed⟩
    rcases List.eq_nil_or_concat after with rfl | ⟨rest, final, rfl⟩
    · obtain ⟨rfl, same⟩ := List.append_inj' split rfl
      exact Or.inr ⟨List.singleton_inj.mp same, opened, unclosed⟩
    · rw [List.concat_eq_append, ← List.cons_append, ← List.append_assoc] at split
      obtain ⟨rfl, _⟩ := List.append_inj' split rfl
      exact Or.inl ⟨before, rest, rfl, opened, unclosed⟩
  · rintro (⟨before, after, rfl, opened, unclosed⟩ | ⟨rfl, opened, unclosed⟩)
    · exact ⟨before, after ++ [last], by simp, opened, unclosed⟩
    · exact ⟨labels, [], rfl, opened, unclosed⟩

end Simulation

end Slogger.Lib
