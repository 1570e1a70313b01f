import Mathlib.Logic.Function.Basic
import Slogger.Lib.Simulation

set_option autoImplicit false

namespace Slogger.Lib

section Files

variable {Thread Name : Type} [DecidableEq Thread] [DecidableEq Name]

-- Bytes that go to a position of a file; a gap before it is filled with zeros.
def writeAt (content : List UInt8) (position : Nat) (bytes : List UInt8) : List UInt8 :=
  content.take position ++ List.replicate (position - content.length) 0 ++ bytes ++
    content.drop (position + bytes.length)

-- Each thread has a stream of its own on the file of its name. logged is what
-- reached the file from it since it was opened.
structure Files (Thread Name : Type) where
  content : Name → List UInt8
  stream : Thread → Option Nat
  opened : Thread → Bool
  logged : Thread → List UInt8

def Files.initial (content : Name → List UInt8) : Files Thread Name where
  content := content
  stream := fun _ => none
  opened := fun _ => false
  logged := fun _ => []

inductive FileLabel (Thread : Type) where
  | fopen (thread : Thread)
  | fwrite (thread : Thread) (bytes : List UInt8)
  | fclose (thread : Thread)

-- fopen(name, "w+") empties the file, whoever else has it open.
def fileStep (name : Thread → Name) (files : Files Thread Name) : FileLabel Thread → Option (Files Thread Name)
  | .fopen thread =>
      if files.opened thread then none
      else some { files with
        content := Function.update files.content (name thread) []
        stream := Function.update files.stream thread (some 0)
        opened := Function.update files.opened thread true }
  | .fwrite thread bytes =>
      (files.stream thread).map fun position =>
        { files with
          content := Function.update files.content (name thread) (writeAt (files.content (name thread)) position bytes)
          stream := Function.update files.stream thread (some (position + bytes.length))
          logged := Function.update files.logged thread (files.logged thread ++ bytes) }
  | .fclose thread =>
      (files.stream thread).map fun _ => { files with stream := Function.update files.stream thread none }

def OwnContents (name : Thread → Name) (files : Files Thread Name) : Prop :=
  ∀ thread, files.opened thread = true → files.content (name thread) = files.logged thread

theorem write_at_end (content bytes : List UInt8) : writeAt content content.length bytes = content ++ bytes := by
  simp [writeAt]

structure OwnInv (name : Thread → Name) (files : Files Thread Name) : Prop where
  own : OwnContents name files
  position : ∀ thread position, files.stream thread = some position →
    files.opened thread = true ∧ position = (files.logged thread).length
  fresh : ∀ thread, files.opened thread = false → files.logged thread = []

theorem own_keeps (name : Thread → Name) (apart : Function.Injective name) (files : Files Thread Name)
    (label : FileLabel Thread) (next : Files Thread Name) (inv : OwnInv name files)
    (stepped : fileStep name files label = some next) : OwnInv name next := by
  have others : ∀ thread other, other ≠ thread → name other ≠ name thread := fun _ _ different same =>
    different (apart same)
  cases label with
  | fopen thread =>
      obtain ⟨closed, same⟩ := Option.ite_none_left_eq_some.mp stepped
      cases same
      refine ⟨fun other opened => ?_, fun other position at' => ?_, fun other unopened => ?_⟩
      · by_cases same : other = thread
        · subst same
          simp [inv.fresh other (by simpa using closed)]
        · dsimp only at opened
          rw [Function.update_of_ne same] at opened
          exact (Function.update_of_ne (others thread other same) _ _).trans (inv.own other opened)
      · by_cases same : other = thread
        · subst same
          simp only [Function.update_self, Option.some.injEq] at at' ⊢
          rw [inv.fresh other (by simpa using closed)]
          exact ⟨trivial, at'.symm⟩
        · dsimp only at at' ⊢
          rw [Function.update_of_ne same] at at' ⊢
          exact inv.position other position at'
      · by_cases same : other = thread
        · subst same
          simp at unopened
        · dsimp only at unopened
          rw [Function.update_of_ne same] at unopened
          exact inv.fresh other unopened
  | fwrite thread bytes =>
      obtain ⟨position, at', rfl⟩ := Option.map_eq_some_iff.mp stepped
      obtain ⟨opened, place⟩ := inv.position thread position at'
      refine ⟨fun other open' => ?_, fun other place' here => ?_, fun other unopened => ?_⟩
      · by_cases same : other = thread
        · subst same
          have own := inv.own other opened
          dsimp only
          rw [Function.update_self, Function.update_self, place, ← own, write_at_end]
        · dsimp only
          rw [Function.update_of_ne (others thread other same), Function.update_of_ne same]
          exact inv.own other open'
      · by_cases same : other = thread
        · subst same
          simp only [Function.update_self, Option.some.injEq] at here ⊢
          rw [← here, place, List.length_append]
          exact ⟨opened, rfl⟩
        · dsimp only at here ⊢
          rw [Function.update_of_ne same] at here ⊢
          exact inv.position other place' here
      · by_cases same : other = thread
        · subst same
          cases unopened.symm.trans opened
        · dsimp only
          rw [Function.update_of_ne same]
          exact inv.fresh other unopened
  | fclose thread =>
      obtain ⟨_, _, rfl⟩ := Option.map_eq_some_iff.mp stepped
      refine ⟨inv.own, fun other position here => ?_, inv.fresh⟩
      by_cases same : other = thread
      · subst same
        simp at here
      · dsimp only at here
        rw [Function.update_of_ne same] at here
        exact inv.position other position here

theorem own_contents_iff (name : Thread → Name) (content : Name → List UInt8) :
    (∀ (labels : List (FileLabel Thread)) files, labels.foldlM (fileStep name) (Files.initial content) = some files → OwnContents name files) ↔
      Function.Injective name := by
  constructor
  · intro always first second same
    by_contra different
    have ran : ∃ files, [FileLabel.fopen first, .fwrite first [0], .fopen second].foldlM (fileStep name)
        (Files.initial content) = some files ∧ files.opened first = true ∧ files.content (name first) = [] ∧
        files.logged first = [0] := by
      simp [List.foldlM, fileStep, Files.initial, different, Ne.symm different, same]
    obtain ⟨files, reached, opened, emptied, logged⟩ := ran
    have own := always _ files reached first opened
    rw [emptied, logged] at own
    cases own
  · intro apart labels files ran
    have start : OwnInv name (Files.initial content) :=
      ⟨fun _ opened => absurd opened Bool.false_ne_true, (by rintro _ _ ⟨⟩), fun _ _ => rfl⟩
    exact (reaches_invariant (fileStep name) (OwnInv name) (own_keeps name apart) _ files ⟨labels, ran⟩ start).own

end Files

end Slogger.Lib
