import Mathlib.Logic.Function.Basic
import Slogger.Lib.Descriptors
import Slogger.Lib.Simulation

set_option autoImplicit false

namespace Slogger.Spawn

open Slogger.Lib

inductive Side where
  | read
  | write
deriving DecidableEq

inductive Opened where
  | file (name : Nat)
  | pipe (call : Nat) (side : Side)
deriving DecidableEq

-- A call of fork_dup2_exec between its steps in the parent; finished is after
-- the fclose of fork_dup2_exec_result.
inductive CallPc where
  | before
  | piped
  | forked
  | returned
  | finished
deriving DecidableEq

structure ForkCall where
  pc : CallPc
  fd : Side → Nat

inductive OffspringPc where
  | unborn
  | forked
  | trimmed
  | running
  | ended
deriving DecidableEq

structure Offspring where
  pc : OffspringPc
  table : Table Opened

def Offspring.living (child : Offspring) : Prop := child.pc ≠ .unborn ∧ child.pc ≠ .ended

structure Family where
  parent : Table Opened
  call : Nat → ForkCall
  child : Nat → Offspring

-- What the process has open when it starts, the standard streams among it.
structure StartFiles where
  opened : Nat → Option Nat
  standard : ∀ fd ≤ 2, (opened fd).isSome = true

def Family.initial (files : StartFiles) : Family where
  parent := fun fd => (files.opened fd).map Opened.file
  call := fun _ => ⟨.before, fun _ => 0⟩
  child := fun _ => ⟨.unborn, fun _ => none⟩

-- The descriptors of pipe are the kernel's choice among the free ones. open and
-- shut are for the other files of the process.
inductive PipeLabel where
  | pipe (call : Nat) (readFd writeFd : Nat)
  | fork (call : Nat)
  | closeUnused (call : Nat)
  | fclose (call : Nat)
  | childClose (call : Nat)
  | childDup (call : Nat)
  | childEnd (call : Nat)
  | openFile (fd name : Nat)
  | shutFile (fd : Nat)
deriving DecidableEq

-- With type == 'r' the parent keeps the READ end and the child is given the
-- WRITE end as its standard output, otherwise the other way round.
def kept (reads : Nat → Bool) (call : Nat) : Side := if reads call then .read else .write

def given (reads : Nat → Bool) (call : Nat) : Side := if reads call then .write else .read

def stream (reads : Nat → Bool) (call : Nat) : Nat := if reads call then 1 else 0

def Family.setCall (family : Family) (number : Nat) (call : ForkCall) : Family :=
  { family with call := Function.update family.call number call }

def Family.setChild (family : Family) (number : Nat) (child : Offspring) : Family :=
  { family with child := Function.update family.child number child }

def pipeEnds (readFd writeFd : Nat) : Side → Nat
  | .read => readFd
  | .write => writeFd

def parentStep (reads : Nat → Bool) (family : Family) : PipeLabel → Option Family
  | .pipe number readFd writeFd =>
      if (family.call number).pc = .before ∧ family.parent readFd = none ∧ family.parent writeFd = none ∧ readFd ≠ writeFd then
        some ({ family with
          parent := (family.parent.install readFd (.pipe number .read)).install writeFd (.pipe number .write) }.setCall
          number ⟨.piped, pipeEnds readFd writeFd⟩)
      else none
  | .fork number =>
      if (family.call number).pc = .piped then
        some ((family.setCall number { family.call number with pc := .forked }).setChild number ⟨.forked, family.parent⟩)
      else none
  | .closeUnused number =>
      if (family.call number).pc = .forked then
        some ({ family with parent := family.parent.close ((family.call number).fd (given reads number)) }.setCall
          number { family.call number with pc := .returned })
      else none
  | .fclose number =>
      if (family.call number).pc = .returned then
        some ({ family with parent := family.parent.close ((family.call number).fd (kept reads number)) }.setCall
          number { family.call number with pc := .finished })
      else none
  | .openFile fd name =>
      if family.parent fd = none then some { family with parent := family.parent.install fd (.file name) } else none
  | .shutFile fd =>
      match family.parent fd with
      | some (.file _) => if 2 < fd then some { family with parent := family.parent.close fd } else none
      | _ => none
  | _ => none

-- The program of execvp is one that neither closes nor duplicates what it was
-- started with, nor hands it on to a child of its own, until it ends. A signal may
-- end it at any statement.
def childStep (reads : Nat → Bool) (family : Family) : PipeLabel → Option Family
  | .childClose number =>
      if (family.child number).pc = .forked then
        some (family.setChild number
          ⟨.trimmed, (family.child number).table.close ((family.call number).fd (kept reads number))⟩)
      else none
  | .childDup number =>
      if (family.child number).pc = .trimmed then
        some (family.setChild number
          ⟨.running, (family.child number).table.dup2 ((family.call number).fd (given reads number)) (stream reads number)⟩)
      else none
  | .childEnd number =>
      if (family.child number).pc = .unborn ∨ (family.child number).pc = .ended then none
      else some (family.setChild number ⟨.ended, fun _ => none⟩)
  | _ => none

def familyStep (reads : Nat → Bool) (family : Family) (label : PipeLabel) : Option Family :=
  match label with
  | .childClose _ | .childDup _ | .childEnd _ => childStep reads family label
  | _ => parentStep reads family label

def opens (number : Nat) : PipeLabel → Prop
  | .pipe call _ _ => call = number
  | _ => False

def closes (reads : Nat → Bool) (number : Nat) (side : Side) : PipeLabel → Prop
  | .closeUnused call => call = number ∧ side = given reads number
  | .fclose call => call = number ∧ side = kept reads number
  | _ => False

def shut (reads : Nat → Bool) (number : Nat) (side : Side) : CallPc → Prop
  | .returned => side = given reads number
  | .finished => True
  | _ => False

def keeps (reads : Nat → Bool) (number : Nat) (side : Side) (pc : CallPc) : Prop :=
  pc ≠ .before ∧ ¬ shut reads number side pc

theorem side_cases (reads : Nat → Bool) (number : Nat) (side : Side) :
    side = kept reads number ↔ side ≠ given reads number := by
  unfold kept given
  cases reads number <;> cases side <;> simp

structure CallPast (reads : Nat → Bool) (number : Nat) (labels : List PipeLabel) (pc : CallPc) : Prop where
  opened : (∃ label ∈ labels, opens number label) ↔ pc ≠ .before
  shut : ∀ side, (∃ label ∈ labels, closes reads number side label) ↔ shut reads number side pc
  forked : .fork number ∈ labels ↔ pc ≠ .before ∧ pc ≠ .piped

theorem keeps_labels (reads : Nat → Bool) (number : Nat) (side : Side) (labels : List PipeLabel) (pc : CallPc)
    (past : CallPast reads number labels pc) :
    keeps reads number side pc ↔
      (∃ label ∈ labels, opens number label) ∧ ∀ label ∈ labels, ¬ closes reads number side label := by
  rw [keeps, ← past.opened, ← past.shut]
  simp only [not_exists, not_and]

inductive Moves (number : Nat) : PipeLabel → CallPc → CallPc → Prop where
  | pipe (readFd writeFd : Nat) : Moves number (.pipe number readFd writeFd) .before .piped
  | fork : Moves number (.fork number) .piped .forked
  | closeUnused : Moves number (.closeUnused number) .forked .returned
  | fclose : Moves number (.fclose number) .returned .finished

theorem moves_fork (number : Nat) (pc after : CallPc) (moved : Moves number (.fork number) pc after) : pc = .piped := by
  cases moved
  rfl

theorem moves_early (number : Nat) (label : PipeLabel) (pc after : CallPc) (moved : Moves number label pc after)
    (other : label ≠ .fork number) : after = .before ∨ after = .piped ↔ pc = .before ∨ pc = .piped := by
  cases moved with
  | fork => exact absurd rfl other
  | _ => simp

def concerns (number : Nat) : PipeLabel → Prop
  | .pipe call _ _ | .fork call | .closeUnused call | .fclose call => call = number
  | _ => False

theorem call_step_cases (reads : Nat → Bool) (family next : Family) (label : PipeLabel) (number : Nat)
    (stepped : familyStep reads family label = some next) :
    (Moves number label (family.call number).pc (next.call number).pc ∧
      ((family.call number).pc ≠ .before → (next.call number).fd = (family.call number).fd)) ∨
    (¬ concerns number label ∧ next.call number = family.call number) := by
  cases label with
  | pipe moving | fork moving | closeUnused moving | fclose moving =>
      simp only [familyStep, parentStep, Option.ite_none_right_eq_some, Option.some.injEq] at stepped
      obtain ⟨ready, rfl⟩ := stepped
      by_cases same : moving = number
      · subst same
        simp only [Family.setCall, Family.setChild, Function.update_self, ready]
        exact Or.inl ⟨by constructor, by simp⟩
      · exact Or.inr ⟨same, Function.update_of_ne (Ne.symm same) _ _⟩
  | childClose | childDup | openFile =>
      simp only [familyStep, childStep, parentStep, Option.ite_none_right_eq_some, Option.some.injEq] at stepped
      obtain ⟨_, rfl⟩ := stepped
      exact Or.inr ⟨id, rfl⟩
  | childEnd =>
      simp only [familyStep, childStep, Option.ite_none_left_eq_some, Option.some.injEq] at stepped
      obtain ⟨_, rfl⟩ := stepped
      exact Or.inr ⟨id, rfl⟩
  | shutFile =>
      dsimp only [familyStep, parentStep] at stepped
      split at stepped
      · rw [Option.ite_none_right_eq_some, Option.some.injEq] at stepped
        obtain ⟨_, rfl⟩ := stepped
        exact Or.inr ⟨id, rfl⟩
      · cases stepped

inductive Grows (reads : Nat → Bool) (family : Family) (number : Nat) : PipeLabel → Offspring → Prop where
  | fork (ready : (family.call number).pc = .piped) : Grows reads family number (.fork number) ⟨.forked, family.parent⟩
  | trim (ready : (family.child number).pc = .forked) : Grows reads family number (.childClose number)
      ⟨.trimmed, (family.child number).table.close ((family.call number).fd (kept reads number))⟩
  | dup (ready : (family.child number).pc = .trimmed) : Grows reads family number (.childDup number)
      ⟨.running, (family.child number).table.dup2 ((family.call number).fd (given reads number)) (stream reads number)⟩
  | finish (alive : (family.child number).living) : Grows reads family number (.childEnd number) ⟨.ended, fun _ => none⟩

theorem child_step_cases (reads : Nat → Bool) (family next : Family) (label : PipeLabel) (number : Nat)
    (stepped : familyStep reads family label = some next) :
    Grows reads family number label (next.child number) ∨ next.child number = family.child number := by
  cases label with
  | fork moving | childClose moving | childDup moving =>
      simp only [familyStep, parentStep, childStep, Option.ite_none_right_eq_some, Option.some.injEq] at stepped
      obtain ⟨ready, rfl⟩ := stepped
      by_cases same : moving = number
      · subst same
        simp only [Family.setChild, Function.update_self]
        exact Or.inl (by constructor; exact ready)
      · exact Or.inr (Function.update_of_ne (Ne.symm same) _ _)
  | childEnd moving =>
      simp only [familyStep, childStep, Option.ite_none_left_eq_some, Option.some.injEq] at stepped
      obtain ⟨alive, rfl⟩ := stepped
      by_cases same : moving = number
      · subst same
        simp only [Family.setChild, Function.update_self]
        exact Or.inl (.finish (not_or.mp alive))
      · exact Or.inr (Function.update_of_ne (Ne.symm same) _ _)
  | pipe | closeUnused | fclose | openFile =>
      simp only [familyStep, parentStep, Option.ite_none_right_eq_some, Option.some.injEq] at stepped
      obtain ⟨_, rfl⟩ := stepped
      exact Or.inr rfl
  | shutFile =>
      dsimp only [familyStep, parentStep] at stepped
      split at stepped
      · rw [Option.ite_none_right_eq_some, Option.some.injEq] at stepped
        obtain ⟨_, rfl⟩ := stepped
        exact Or.inr rfl
      · cases stepped

theorem some_next (holds : PipeLabel → Prop) (labels : List PipeLabel) (label : PipeLabel) :
    (∃ first ∈ labels ++ [label], holds first) ↔ (∃ first ∈ labels, holds first) ∨ holds label := by
  simp [or_and_right, exists_or]

theorem past_kept (reads : Nat → Bool) (number : Nat) (label : PipeLabel) (labels : List PipeLabel) (pc : CallPc)
    (past : CallPast reads number labels pc) (apart : ¬ concerns number label) :
    CallPast reads number (labels ++ [label]) pc := by
  have unopened : ¬ opens number label := by
    cases label <;> simp_all [opens, concerns]
  have unclosed : ∀ side, ¬ closes reads number side label := by
    cases label <;> simp_all [closes, concerns]
  have unforked : label ≠ .fork number := by
    rintro rfl
    exact apart rfl
  refine ⟨?_, fun side => ?_, ?_⟩
  · rw [some_next, past.opened]
    exact or_iff_left unopened
  · rw [some_next, past.shut]
    exact or_iff_left (unclosed side)
  · rw [List.mem_append, past.forked, List.mem_singleton]
    exact or_iff_left unforked.symm

theorem past_moved (reads : Nat → Bool) (number : Nat) (label : PipeLabel) (labels : List PipeLabel) (pc after : CallPc)
    (past : CallPast reads number labels pc) (moved : Moves number label pc after) :
    CallPast reads number (labels ++ [label]) after := by
  refine ⟨?_, fun side => ?_, ?_⟩
  · rw [some_next, past.opened]
    cases moved <;> simp [opens]
  · rw [some_next, past.shut]
    cases moved with
    | fclose => simpa [shut, closes, side_cases] using Decidable.em (side = given reads number)
    | _ => simp [shut, closes]
  · rw [List.mem_append, past.forked, List.mem_singleton]
    cases moved <;> simp

theorem past_next (reads : Nat → Bool) (family next : Family) (label : PipeLabel) (labels : List PipeLabel)
    (past : ∀ number, CallPast reads number labels (family.call number).pc)
    (stepped : familyStep reads family label = some next) (number : Nat) :
    CallPast reads number (labels ++ [label]) (next.call number).pc := by
  rcases call_step_cases reads family next label number stepped with ⟨moved, _⟩ | ⟨apart, same⟩
  · exact past_moved reads number label labels _ _ (past number) moved
  · rw [same]
    exact past_kept reads number label labels _ (past number) apart

-- Which descriptors of the parent are pipe ends, and that the standard streams
-- are none.
structure ParentEnds (reads : Nat → Bool) (family : Family) : Prop where
  ends : ∀ fd number side, family.parent fd = some (.pipe number side) ↔
    keeps reads number side (family.call number).pc ∧ (family.call number).fd side = fd
  standard : ∀ fd ≤ 2, ∃ name, family.parent fd = some (.file name)

theorem ends_place (reads : Nat → Bool) (family : Family) (inv : ParentEnds reads family) (number : Nat) (side : Side)
    (held : keeps reads number side (family.call number).pc) :
    family.parent ((family.call number).fd side) = some (.pipe number side) :=
  (inv.ends _ number side).mpr ⟨held, rfl⟩

theorem ends_holds (reads : Nat → Bool) (family : Family) (inv : ParentEnds reads family) (number : Nat) (side : Side) :
    family.parent.Holds (.pipe number side) ↔ keeps reads number side (family.call number).pc := by
  constructor
  · rintro ⟨fd, read⟩
    exact ((inv.ends fd number side).mp read).1
  · exact fun held => ⟨_, ends_place reads family inv number side held⟩

theorem ends_single (reads : Nat → Bool) (family : Family) (inv : ParentEnds reads family) (number : Nat) (side : Side) :
    family.parent.Single (.pipe number side) := by
  intro fd other first second
  rw [← ((inv.ends fd number side).mp first).2, ((inv.ends other number side).mp second).2]

theorem pipe_ends (reads : Nat → Bool) (family : Family) (inv : ParentEnds reads family) (number readFd writeFd : Nat)
    (ready : (family.call number).pc = .before ∧ family.parent readFd = none ∧ family.parent writeFd = none ∧
      readFd ≠ writeFd) :
    ParentEnds reads ({ family with
      parent := (family.parent.install readFd (.pipe number .read)).install writeFd (.pipe number .write) }.setCall
      number ⟨.piped, pipeEnds readFd writeFd⟩) := by
  obtain ⟨start, freeRead, freeWrite, apart⟩ := ready
  have stillFree : family.parent.install readFd (.pipe number .read) writeFd = none := by
    rwa [Table.install_other _ _ _ _ apart.symm]
  have installed : ∀ fd opened, (family.parent.install readFd (.pipe number .read)).install writeFd
      (.pipe number .write) fd = some opened ↔ (fd = writeFd ∧ .pipe number .write = opened) ∨
        (fd = readFd ∧ .pipe number .read = opened) ∨ family.parent fd = some opened := by
    intro fd opened
    rw [Table.install_free _ _ _ _ _ stillFree, Table.install_free _ _ _ _ _ freeRead]
  refine ⟨fun fd sought side => ?_, fun fd low => ?_⟩
  · dsimp only [Family.setCall]
    rw [installed, inv.ends]
    by_cases same : sought = number
    · subst same
      have unheld : ¬ keeps reads sought side (family.call sought).pc := fun held => held.1 start
      have held : keeps reads sought side .piped := ⟨nofun, id⟩
      rw [Function.update_self]
      cases side <;> simp [unheld, held, pipeEnds, eq_comm]
    · rw [Function.update_of_ne same]
      simp [Ne.symm same]
  · obtain ⟨name, read⟩ := inv.standard fd low
    exact ⟨name, (installed fd _).mpr (Or.inr (Or.inr read))⟩

theorem close_ends (reads : Nat → Bool) (family : Family) (inv : ParentEnds reads family) (number : Nat) (side : Side)
    (after : CallPc) (held : keeps reads number side (family.call number).pc)
    (left : ∀ other, keeps reads number other after ↔ keeps reads number other (family.call number).pc ∧ other ≠ side) :
    ParentEnds reads ({ family with parent := family.parent.close ((family.call number).fd side) }.setCall
      number { family.call number with pc := after }) := by
  have here := ends_place reads family inv number side held
  refine ⟨fun fd sought other => ?_, fun fd low => ?_⟩
  · dsimp only [Family.setCall]
    rw [Table.close_some, inv.ends]
    by_cases same : sought = number
    · subst same
      rw [Function.update_self, left]
      constructor
      · rintro ⟨apart, kept, place⟩
        refine ⟨⟨kept, ?_⟩, place⟩
        rintro rfl
        exact apart place.symm
      · rintro ⟨⟨kept, different⟩, place⟩
        refine ⟨?_, kept, place⟩
        rintro rfl
        have there := ends_place reads family inv sought other kept
        rw [place, here] at there
        cases there
        exact different rfl
    · rw [Function.update_of_ne same, and_iff_right_iff_imp]
      rintro ⟨kept, place⟩ rfl
      have there := ends_place reads family inv sought other kept
      rw [place, here] at there
      cases there
      exact same rfl
  · obtain ⟨name, read⟩ := inv.standard fd low
    refine ⟨name, (Table.close_some _ _ _ _).mpr ⟨?_, read⟩⟩
    rintro rfl
    cases here.symm.trans read

theorem file_opened_ends (reads : Nat → Bool) (family : Family) (inv : ParentEnds reads family) (fd name : Nat)
    (free : family.parent fd = none) :
    ParentEnds reads { family with parent := family.parent.install fd (.file name) } := by
  refine ⟨fun other number side => ?_, fun other low => ?_⟩
  · dsimp only
    rw [Table.install_free _ _ _ _ _ free, inv.ends]
    simp
  · obtain ⟨old, read⟩ := inv.standard other low
    exact ⟨old, (Table.install_free _ _ _ _ _ free).mpr (Or.inr read)⟩

theorem file_shut_ends (reads : Nat → Bool) (family : Family) (inv : ParentEnds reads family) (fd name : Nat)
    (here : family.parent fd = some (.file name)) (high : 2 < fd) :
    ParentEnds reads { family with parent := family.parent.close fd } := by
  refine ⟨fun other number side => ?_, fun other low => ?_⟩
  · dsimp only
    rw [Table.close_some, ← inv.ends, and_iff_right_iff_imp]
    rintro there rfl
    cases here.symm.trans there
  · obtain ⟨old, read⟩ := inv.standard other low
    refine ⟨old, (Table.close_some _ _ _ _).mpr ⟨?_, read⟩⟩
    exact Nat.ne_of_lt (Nat.lt_of_le_of_lt low high)

theorem ends_same (reads : Nat → Bool) (family next : Family) (inv : ParentEnds reads family)
    (parent : next.parent = family.parent)
    (calls : ∀ number, (next.call number).fd = (family.call number).fd ∧
      ∀ side, keeps reads number side (next.call number).pc ↔ keeps reads number side (family.call number).pc) :
    ParentEnds reads next := by
  refine ⟨fun fd number side => ?_, ?_⟩
  · rw [parent, (calls number).1, (calls number).2]
    exact inv.ends fd number side
  · rw [parent]
    exact inv.standard

theorem given_left (reads : Nat → Bool) (number : Nat) (side : Side) :
    keeps reads number side .returned ↔ keeps reads number side .forked ∧ side ≠ given reads number := by
  simp [keeps, shut]

theorem kept_left (reads : Nat → Bool) (number : Nat) (side : Side) :
    keeps reads number side .finished ↔ keeps reads number side .returned ∧ side ≠ kept reads number := by
  simp [keeps, shut, side_cases]

theorem parent_ends_keeps (reads : Nat → Bool) (family next : Family) (label : PipeLabel) (inv : ParentEnds reads family)
    (stepped : familyStep reads family label = some next) : ParentEnds reads next := by
  cases label with
  | pipe number readFd writeFd =>
      obtain ⟨ready, rfl⟩ := Option.ite_none_right_eq_some.mp stepped |>.imp_right Option.some.inj
      exact pipe_ends reads family inv number readFd writeFd ready
  | fork number =>
      obtain ⟨ready, rfl⟩ := Option.ite_none_right_eq_some.mp stepped |>.imp_right Option.some.inj
      refine ends_same reads family _ inv ?_ (fun other => ?_)
      · rfl
      by_cases same : other = number
      · subst same
        simp [Family.setCall, Family.setChild, ready, keeps, shut]
      · simp [Family.setCall, Family.setChild, Function.update_of_ne same]
  | closeUnused number =>
      obtain ⟨ready, rfl⟩ := Option.ite_none_right_eq_some.mp stepped |>.imp_right Option.some.inj
      refine close_ends reads family inv number (given reads number) .returned ?_ (fun side => ?_)
      · rw [ready]
        exact ⟨nofun, id⟩
      · rw [ready]
        exact given_left reads number side
  | fclose number =>
      obtain ⟨ready, rfl⟩ := Option.ite_none_right_eq_some.mp stepped |>.imp_right Option.some.inj
      refine close_ends reads family inv number (kept reads number) .finished ?_ (fun side => ?_)
      · rw [ready]
        exact ⟨nofun, (side_cases reads number _).mp rfl⟩
      · rw [ready]
        exact kept_left reads number side
  | childClose number | childDup number =>
      obtain ⟨_, rfl⟩ := Option.ite_none_right_eq_some.mp stepped |>.imp_right Option.some.inj
      exact ends_same reads family _ inv rfl (fun _ => ⟨rfl, fun _ => Iff.rfl⟩)
  | childEnd number =>
      obtain ⟨_, rfl⟩ := Option.ite_none_left_eq_some.mp stepped |>.imp_right Option.some.inj
      exact ends_same reads family _ inv rfl (fun _ => ⟨rfl, fun _ => Iff.rfl⟩)
  | openFile fd name =>
      obtain ⟨free, rfl⟩ := Option.ite_none_right_eq_some.mp stepped |>.imp_right Option.some.inj
      exact file_opened_ends reads family inv fd name free
  | shutFile fd =>
      dsimp only [familyStep, parentStep] at stepped
      split at stepped
      · rename_i name here
        obtain ⟨high, rfl⟩ := Option.ite_none_right_eq_some.mp stepped |>.imp_right Option.some.inj
        exact file_shut_ends reads family inv fd name here high
      · cases stepped

-- What a living child has open. Until its dup2 each end is behind one descriptor
-- only, and what its parent had open is where it was.
structure Inherits (reads : Nat → Bool) (labels : List PipeLabel) (call : ForkCall) (number : Nat) (child : Offspring) :
    Prop where
  single : child.pc ≠ .running → ∀ other side, child.table.Single (.pipe other side)
  standard : child.pc ≠ .running → ∀ fd ≤ 2, ∃ name, child.table fd = some (.file name)
  untrimmed : child.pc = .forked → child.table (call.fd (kept reads number)) = some (.pipe number (kept reads number))
  offered : child.pc ≠ .running → child.table (call.fd (given reads number)) = some (.pipe number (given reads number))
  own : ∀ side, child.table.Holds (.pipe number side) ↔ side = given reads number ∨ child.pc = .forked
  others : ∀ other side, other ≠ number → (child.table.Holds (.pipe other side) ↔
    TakenWithin (opens other) (closes reads other side) (.fork number) labels)

structure FamilyInv (reads : Nat → Bool) (labels : List PipeLabel) (family : Family) : Prop where
  past : ∀ number, CallPast reads number labels (family.call number).pc
  ends : ParentEnds reads family
  unborn : ∀ number, (family.call number).pc = .before ∨ (family.call number).pc = .piped ↔
    (family.child number).pc = .unborn
  inherits : ∀ number, (family.child number).living →
    Inherits reads labels (family.call number) number (family.child number)

theorem inherits_kept (reads : Nat → Bool) (labels : List PipeLabel) (label : PipeLabel) (call next : ForkCall)
    (number : Nat) (child : Offspring) (inv : Inherits reads labels call number child) (same : next.fd = call.fd)
    (other : label ≠ .fork number) : Inherits reads (labels ++ [label]) next number child := by
  refine ⟨inv.single, inv.standard, ?_, ?_, inv.own, fun sought side different => ?_⟩
  · rw [same]
    exact inv.untrimmed
  · rw [same]
    exact inv.offered
  · rw [inv.others sought side different, taken_within_next]
    simp [other]

theorem inherits_forked (reads : Nat → Bool) (labels : List PipeLabel) (family : Family) (number : Nat)
    (inv : FamilyInv reads labels family) (ready : (family.call number).pc = .piped) :
    Inherits reads (labels ++ [.fork number]) { family.call number with pc := .forked } number
      ⟨.forked, family.parent⟩ := by
  have held : ∀ side, keeps reads number side (family.call number).pc := by
    intro side
    rw [ready]
    exact ⟨nofun, id⟩
  refine ⟨fun _ => ends_single reads family inv.ends, fun _ => inv.ends.standard, fun _ => ?_, fun _ => ?_,
    fun side => ?_, fun other side different => ?_⟩
  · exact ends_place reads family inv.ends number _ (held _)
  · exact ends_place reads family inv.ends number _ (held _)
  · rw [ends_holds reads family inv.ends]
    exact iff_of_true (held side) (Or.inr rfl)
  · have first : ¬ TakenWithin (opens other) (closes reads other side) (.fork number) labels := by
      rintro ⟨before, after, rfl, _⟩
      have taken := (inv.past number).forked.mp (by simp)
      exact taken.2 ready
    rw [ends_holds reads family inv.ends, keeps_labels reads other side labels _ (inv.past other), taken_within_next]
    simp [first]

theorem inherits_trimmed (reads : Nat → Bool) (labels : List PipeLabel) (call : ForkCall) (number : Nat)
    (child : Offspring) (inv : Inherits reads labels call number child) (ready : child.pc = .forked) :
    Inherits reads labels call number ⟨.trimmed, child.table.close (call.fd (kept reads number))⟩ := by
  have early : child.pc ≠ .running := by
    rw [ready]
    exact nofun
  have here := inv.untrimmed ready
  have single := inv.single early number (kept reads number)
  have ends := side_cases reads number
  refine ⟨fun _ other side => ?_, fun _ fd low => ?_, nofun, fun _ => ?_, fun side => ?_, fun other side different => ?_⟩
  · exact Table.close_single _ _ _ (inv.single early other side)
  · obtain ⟨name, read⟩ := inv.standard early fd low
    refine ⟨name, (Table.close_some _ _ _ _).mpr ⟨?_, read⟩⟩
    rintro rfl
    cases here.symm.trans read
  · refine (Table.close_some _ _ _ _).mpr ⟨?_, inv.offered early⟩
    intro same
    have clash := inv.offered early
    rw [same, here, Option.some.injEq, Opened.pipe.injEq] at clash
    exact (ends _).mp rfl clash.2
  · rw [Table.close_holds _ _ _ _ here single, inv.own]
    simp [ready, ends]
  · rw [Table.close_holds _ _ _ _ here single, inv.others other side different]
    simp [different]

-- The dup2 puts the given end behind a standard stream, which was a file.
theorem inherits_running (reads : Nat → Bool) (labels : List PipeLabel) (call : ForkCall) (number : Nat)
    (child : Offspring) (inv : Inherits reads labels call number child) (ready : child.pc = .trimmed) :
    Inherits reads labels call number
      ⟨.running, child.table.dup2 (call.fd (given reads number)) (stream reads number)⟩ := by
  have early : child.pc ≠ .running := by
    rw [ready]
    exact nofun
  have here := inv.offered early
  have low : stream reads number ≤ 2 := by
    unfold stream
    split <;> omega
  obtain ⟨name, file⟩ := inv.standard early _ low
  have kept : ∀ other side, child.table (stream reads number) ≠ some (.pipe other side) := by
    intro other side read
    cases file.symm.trans read
  refine ⟨nofun, nofun, nofun, nofun, fun side => ?_, fun other side different => ?_⟩
  · rw [Table.dup2_holds _ _ _ _ _ here (kept number side), inv.own]
    simp [ready]
  · rw [Table.dup2_holds _ _ _ _ _ here (kept other side), inv.others other side different]

theorem born_call (reads : Nat → Bool) (labels : List PipeLabel) (family : Family) (inv : FamilyInv reads labels family)
    (number : Nat) (alive : (family.child number).living) :
    (family.call number).pc ≠ .before ∧ (family.call number).pc ≠ .piped :=
  not_or.mp fun early => alive.1 ((inv.unborn number).mp early)

theorem child_framed (reads : Nat → Bool) (labels : List PipeLabel) (family next : Family) (label : PipeLabel)
    (inv : FamilyInv reads labels family) (stepped : familyStep reads family label = some next) (number : Nat)
    (alive : (family.child number).living) (child : Offspring)
    (here : Inherits reads labels (family.call number) number child) :
    Inherits reads (labels ++ [label]) (next.call number) number child := by
  have born := born_call reads labels family inv number alive
  rcases call_step_cases reads family next label number stepped with ⟨moved, place⟩ | ⟨apart, same⟩
  · refine inherits_kept reads labels label _ _ number child here (place born.1) ?_
    rintro rfl
    exact born.2 (moves_fork number _ _ moved)
  · refine inherits_kept reads labels label _ _ number child here (by rw [same]) ?_
    rintro rfl
    exact apart rfl

theorem family_unborn (reads : Nat → Bool) (labels : List PipeLabel) (family next : Family) (label : PipeLabel)
    (inv : FamilyInv reads labels family) (stepped : familyStep reads family label = some next) (number : Nat) :
    (next.call number).pc = .before ∨ (next.call number).pc = .piped ↔ (next.child number).pc = .unborn := by
  have calls := call_step_cases reads family next label number stepped
  by_cases forking : label = .fork number
  · subst forking
    obtain ⟨_, rfl⟩ := Option.ite_none_right_eq_some.mp stepped |>.imp_right Option.some.inj
    simp [Family.setChild, Family.setCall]
  · have early : (next.call number).pc = .before ∨ (next.call number).pc = .piped ↔
        (family.call number).pc = .before ∨ (family.call number).pc = .piped := by
      rcases calls with ⟨moved, _⟩ | ⟨_, same⟩
      · exact moves_early number label _ _ moved forking
      · rw [same]
    rw [early, inv.unborn]
    rcases child_step_cases reads family next label number stepped with grown | same
    · generalize next.child number = child at grown
      cases grown with
      | fork => exact absurd rfl forking
      | trim ready | dup ready => simp [ready]
      | finish alive => simp [alive.1]
    · rw [same]

theorem family_inv_next (reads : Nat → Bool) (labels : List PipeLabel) (family : Family) (label : PipeLabel)
    (next : Family) (inv : FamilyInv reads labels family) (stepped : familyStep reads family label = some next) :
    FamilyInv reads (labels ++ [label]) next := by
  refine ⟨past_next reads family next label labels inv.past stepped,
    parent_ends_keeps reads family next label inv.ends stepped,
    family_unborn reads labels family next label inv stepped, fun number alive => ?_⟩
  rcases child_step_cases reads family next label number stepped with grown | same
  · generalize next.child number = child at grown alive
    cases grown with
    | fork ready =>
        have called : next.call number = { family.call number with pc := .forked } := by
          obtain ⟨_, rfl⟩ := Option.ite_none_right_eq_some.mp stepped |>.imp_right Option.some.inj
          exact Function.update_self _ _ _
        rw [called]
        exact inherits_forked reads labels family number inv ready
    | trim ready =>
        have before : (family.child number).living := by simp [Offspring.living, ready]
        exact child_framed reads labels family next _ inv stepped number before _
          (inherits_trimmed reads labels _ number _ (inv.inherits number before) ready)
    | dup ready =>
        have before : (family.child number).living := by simp [Offspring.living, ready]
        exact child_framed reads labels family next _ inv stepped number before _
          (inherits_running reads labels _ number _ (inv.inherits number before) ready)
    | finish => exact absurd rfl alive.2
  · rw [same] at alive ⊢
    exact child_framed reads labels family next label inv stepped number alive _ (inv.inherits number alive)

theorem initial_family_inv (reads : Nat → Bool) (files : StartFiles) : FamilyInv reads [] (Family.initial files) where
  past := fun number => ⟨by simp [Family.initial], fun side => by simp [Family.initial, shut], by simp [Family.initial]⟩
  ends := by
    refine ⟨fun fd number side => ?_, fun fd low => ?_⟩
    · simp [Family.initial, keeps]
    · obtain ⟨name, read⟩ := Option.isSome_iff_exists.mp (files.standard fd low)
      exact ⟨name, by simp [Family.initial, read]⟩
  unborn := fun _ => by simp [Family.initial]
  inherits := fun _ alive => absurd rfl alive.1

theorem family_inv_run (reads : Nat → Bool) (files : StartFiles) (labels : List PipeLabel) (family : Family)
    (ran : labels.foldlM (familyStep reads) (Family.initial files) = some family) : FamilyInv reads labels family :=
  history_invariant (familyStep reads) (FamilyInv reads) _ family labels
    (fun before here label next => family_inv_next reads before here label next) (initial_family_inv reads files) ran

-- Who has an end of a call's pipe open, in any order of the steps of any number
-- of calls: the parent until its own close of it, the call's child, and each
-- child of another call that was forked while the parent had it open.
theorem pipe_ends_held_exactly (reads : Nat → Bool) (files : StartFiles) (labels : List PipeLabel) (family : Family)
    (ran : labels.foldlM (familyStep reads) (Family.initial files) = some family) (number : Nat) (side : Side) :
    (family.parent.Holds (.pipe number side) ↔
      (∃ label ∈ labels, opens number label) ∧ ∀ label ∈ labels, ¬ closes reads number side label) ∧
    ∀ other, (family.child other).living →
      ((family.child other).table.Holds (.pipe number side) ↔
        if other = number then side = given reads number ∨ (family.child number).pc = .forked
        else TakenWithin (opens number) (closes reads number side) (.fork other) labels) := by
  have inv := family_inv_run reads files labels family ran
  constructor
  · rw [ends_holds reads family inv.ends]
    exact keeps_labels reads number side labels _ (inv.past number)
  · intro other alive
    have inherited := inv.inherits other alive
    by_cases same : other = number
    · subst same
      rw [if_pos rfl]
      exact inherited.own side
    · rw [if_neg same]
      exact inherited.others number side (Ne.symm same)

def secondStarted : List PipeLabel :=
  [.pipe 0 3 4, .fork 0, .closeUnused 0, .pipe 1 4 5, .fork 1, .closeUnused 1, .childClose 1, .childDup 1, .fclose 0]

def threeStreams : StartFiles := ⟨fun fd => if fd ≤ 2 then some fd else none, by simp⟩

theorem second_child_keeps_first_pipe : ∃ family,
    secondStarted.foldlM (familyStep fun _ => true) (Family.initial threeStreams) = some family ∧
    (family.child 1).table.Holds (.pipe 0 .read) := by
  refine ⟨_, rfl, ?_⟩
  have exactly := pipe_ends_held_exactly (fun _ => true) threeStreams secondStarted _ rfl 0 .read
  refine (exactly.2 1 ⟨by decide, by decide⟩).mpr ?_
  refine ⟨secondStarted.take 4, secondStarted.drop 5, rfl, ⟨_, List.mem_cons_self, rfl⟩, ?_⟩
  simp [secondStarted, closes, given]

-- No process has the end open: reads of the other end give 0, and writes to it
-- fail.
def Unheld (family : Family) (number : Nat) (side : Side) : Prop :=
  ¬ family.parent.Holds (.pipe number side) ∧
    ∀ other, (family.child other).living → ¬ (family.child other).table.Holds (.pipe number side)

theorem unheld_iff (reads : Nat → Bool) (labels : List PipeLabel) (family : Family) (inv : FamilyInv reads labels family)
    (number : Nat) (side : Side) (gone : ∃ label ∈ labels, closes reads number side label) :
    Unheld family number side ↔
      ((family.child number).living → side ≠ given reads number ∧ (family.child number).pc ≠ .forked) ∧
      ∀ other, other ≠ number → TakenWithin (opens number) (closes reads number side) (.fork other) labels →
        ¬ (family.child other).living := by
  have parent : ¬ family.parent.Holds (.pipe number side) := by
    rw [ends_holds reads family inv.ends, keeps_labels reads number side labels _ (inv.past number)]
    obtain ⟨label, member, closed⟩ := gone
    exact fun held => held.2 label member closed
  constructor
  · rintro ⟨_, children⟩
    refine ⟨fun alive => ?_, fun other different taken alive => ?_⟩
    · have unheld := children number alive
      rw [(inv.inherits number alive).own, not_or] at unheld
      exact unheld
    · exact children other alive (((inv.inherits other alive).others number side different.symm).mpr taken)
  · rintro ⟨own, others⟩
    refine ⟨parent, fun other alive held => ?_⟩
    by_cases same : other = number
    · subst same
      rcases ((inv.inherits other alive).own side).mp held with offered | early
      · exact (own alive).1 offered
      · exact (own alive).2 early
    · exact others other same (((inv.inherits other alive).others number side (Ne.symm same)).mp held) alive

theorem forked_ended_iff (reads : Nat → Bool) (labels : List PipeLabel) (family : Family)
    (inv : FamilyInv reads labels family) (number : Nat) (forked : .fork number ∈ labels) :
    (family.child number).pc = .ended ↔ ¬ (family.child number).living := by
  have born : (family.child number).pc ≠ .unborn := by
    rw [ne_eq, ← inv.unborn, not_or]
    exact (inv.past number).forked.mp forked
  simp [Offspring.living, born]

theorem closed_forked (reads : Nat → Bool) (labels : List PipeLabel) (family : Family)
    (inv : FamilyInv reads labels family) (number : Nat) (side : Side)
    (gone : ∃ label ∈ labels, closes reads number side label) : .fork number ∈ labels := by
  have closed := ((inv.past number).shut side).mp gone
  apply (inv.past number).forked.mpr
  cases reached : (family.call number).pc <;> simp_all [shut]

-- When the read loop of exec or load_exec meets the end of the child's output,
-- and when the child's writes fail after exec_stop has closed the stream, with
-- programs that keep what they were started with: a child of another call that was
-- forked while the parent had the end open counts too.
theorem streams_end_exactly (reads : Nat → Bool) (files : StartFiles) (labels : List PipeLabel) (family : Family)
    (ran : labels.foldlM (familyStep reads) (Family.initial files) = some family) (number : Nat) :
    (.closeUnused number ∈ labels →
      (Unheld family number (given reads number) ↔ (family.child number).pc = .ended ∧
        ∀ other, other ≠ number → TakenWithin (opens number) (closes reads number (given reads number)) (.fork other) labels →
          (family.child other).pc = .ended)) ∧
    (.fclose number ∈ labels →
      (Unheld family number (kept reads number) ↔ (family.child number).pc ≠ .forked ∧
        ∀ other, other ≠ number → TakenWithin (opens number) (closes reads number (kept reads number)) (.fork other) labels →
          (family.child other).pc = .ended)) := by
  have inv := family_inv_run reads files labels family ran
  have others : ∀ side, (∀ other, other ≠ number →
      TakenWithin (opens number) (closes reads number side) (.fork other) labels → ¬ (family.child other).living) ↔
      ∀ other, other ≠ number → TakenWithin (opens number) (closes reads number side) (.fork other) labels →
        (family.child other).pc = .ended := by
    intro side
    refine forall_congr' fun other => forall_congr' fun _ => forall_congr' fun taken => ?_
    refine (forked_ended_iff reads labels family inv other ?_).symm
    obtain ⟨before, after, rfl, _⟩ := taken
    exact List.mem_append_right before List.mem_cons_self
  constructor
  · intro returned
    have gone : ∃ label ∈ labels, closes reads number (given reads number) label := ⟨_, returned, rfl, rfl⟩
    have forked := closed_forked reads labels family inv number _ gone
    rw [unheld_iff reads labels family inv number _ gone, others, forked_ended_iff reads labels family inv number forked]
    simp
  · intro finished
    have gone : ∃ label ∈ labels, closes reads number (kept reads number) label := ⟨_, finished, rfl, rfl⟩
    have forked := closed_forked reads labels family inv number _ gone
    have ended := forked_ended_iff reads labels family inv number forked
    have different := (side_cases reads number (kept reads number)).mp rfl
    rw [unheld_iff reads labels family inv number _ gone, others]
    refine and_congr_left fun _ => ⟨fun own early => ?_, fun trimmed _ => ⟨different, trimmed⟩⟩
    have alive : (family.child number).living := by simp [Offspring.living, early]
    exact (own alive).2 early

theorem first_pipe_not_broken : ∃ family,
    secondStarted.foldlM (familyStep fun _ => true) (Family.initial threeStreams) = some family ∧
    ¬ Unheld family 0 .read := by
  refine ⟨_, rfl, fun unheld => ?_⟩
  have exactly := (streams_end_exactly (fun _ => true) threeStreams secondStarted _ rfl 0).2 (by simp [secondStarted])
  have taken : TakenWithin (opens 0) (closes (fun _ => true) 0 .read) (.fork 1) secondStarted := by
    refine ⟨secondStarted.take 4, secondStarted.drop 5, rfl, ⟨_, List.mem_cons_self, rfl⟩, ?_⟩
    simp [secondStarted, closes, given]
  cases (exactly.mp unheld).2 1 (by decide) taken

end Slogger.Spawn
