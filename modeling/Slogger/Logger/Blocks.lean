import Mathlib.Data.List.Forall2
import Slogger.Lib.Owned
import Slogger.Logger.Life

set_option autoImplicit false

namespace Slogger.Logger

open Slogger.Lib

-- What pushMessage allocates for a message; str is its caller's allocation.
structure Task where
  str : Pointer
  size : Nat

-- The log system with the memory of its messages: slots is what the array of the
-- queue holds, in its order, and taken is qdata of the logging thread. No pointer
-- leads to what is refused (both allocations) or unpushed (the caller's alone)
-- any more. file is what fwrite has read out of memory.
structure BlockState where
  log : LoggerState
  texts : Heap (List UInt8)
  tasks : Heap Task
  slots : List Nat
  taken : Pointer
  refused : List Nat
  unpushed : List Nat
  file : List UInt8
  fault : Option Fault

def BlockState.initial : BlockState where
  log := LoggerState.initial
  texts := Heap.empty
  tasks := Heap.empty
  slots := []
  taken := none
  refused := []
  unpushed := []
  file := []
  fault := none

-- granted is whether the malloc of pushMessage gives a block.
inductive BlockLabel where
  | pushMessage (thread : Nat) (data : QueueData) (granted : Bool)
  | other (label : Label)
deriving DecidableEq

-- fwrite(qdata->str, 1, qdata->size, file); free(qdata->str); free(qdata)
def writeTaken (texts : Heap (List UInt8)) (tasks : Heap Task) (qdata : Pointer) :
    Except Fault (Heap (List UInt8) × Heap Task × List UInt8) := do
  let task ← tasks.deref qdata
  let text ← texts.deref task.str
  let written ← if task.size ≤ text.length then .ok (text.take task.size) else .error .outside
  let texts ← texts.release task.str
  let tasks ← tasks.release qdata
  .ok (texts, tasks, written)

def afterWrite (state : BlockState) (log : LoggerState) : BlockState :=
  match writeTaken state.texts state.tasks state.taken with
  | .error fault => { state with log := log, fault := some fault }
  | .ok (texts, tasks, written) =>
      { state with log := log, texts := texts, tasks := tasks, taken := none, file := state.file ++ written }

def pushBlocks (state : BlockState) (log : LoggerState) (data : QueueData) : BlockState :=
  { state with
    log := log
    texts := state.texts.alloc data.str
    tasks := state.tasks.alloc ⟨some state.texts.bound, data.size⟩
    slots := if refuses state.log.queue then state.slots else state.slots ++ [state.tasks.bound]
    refused := if refuses state.log.queue then state.refused ++ [state.tasks.bound] else state.refused }

-- Without a block pushMessage drops the text, which nobody frees.
def dropText (state : BlockState) (data : QueueData) : BlockState :=
  { state with
    texts := state.texts.alloc data.str
    unpushed := state.unpushed ++ [state.texts.bound] }

def otherBlocks (state : BlockState) (log : LoggerState) : Label → BlockState
  | .dequeue =>
      if isDrained state.log.queue then { state with log := log }
      else { state with log := log, taken := state.slots.head?, slots := state.slots.tail }
  | .write => afterWrite state log
  | .openLog opens => { state with log := log, file := if opens then [] else state.file }
  | _ => { state with log := log }

def blockStep (capacity : Nat) (state : BlockState) : BlockLabel → Option BlockState
  | .pushMessage thread data true =>
      (under oneLife (step capacity) state.log (.enqueue thread data)).map fun log => pushBlocks state log data
  | .pushMessage thread data false =>
      if slogStarted state.log.main = true ∧ state.log.producers thread = .idle then some (dropText state data) else none
  | .other label =>
      if isEnqueue label then none
      else (under oneLife (step capacity) state.log label).map fun log => otherBlocks state log label

def InMemory (texts : Heap (List UInt8)) (tasks : Heap Task) (address : Nat) (data : QueueData) : Prop :=
  ∃ text, tasks.cell address = some ⟨some text, data.size⟩ ∧ texts.cell text = some data.str

def BlockState.reachable (state : BlockState) : List Nat := state.taken.toList ++ state.slots

-- The tasks point to their texts; an unpushed text stands for itself.
def BlockState.holder (state : BlockState) : Nat ⊕ Nat → Pointer
  | .inl task => (state.tasks.cell task).bind Task.str
  | .inr text => if text ∈ state.unpushed then some text else none

structure BlocksKnown (state : BlockState) : Prop where
  tasks : ∀ address, (state.tasks.cell address).isSome = true ↔ address ∈ state.reachable ++ state.refused
  distinct : (state.reachable ++ state.refused).Nodup
  texts : Owns state.texts state.holder
  backed : ∀ address task, state.tasks.cell address = some task → task.str ≠ none

structure BlockInv (capacity : Nat) (state : BlockState) (queued : List QueueData) (failed : Bool) : Prop where
  life : Life capacity state.log queued failed
  known : BlocksKnown state
  held : List.Forall₂ (InMemory state.texts state.tasks) state.reachable (inFlight state.log.logger ++ queued)
  carried : state.taken.toList.length = (inFlight state.log.logger).length
  counted : state.refused.length + state.log.accepted.length = state.log.pushed.length
  file : state.file = state.log.file
  safe : state.fault = none

theorem initial_block_inv (capacity : Nat) (positive : 0 < capacity) : BlockInv capacity BlockState.initial [] false where
  life := initial_life capacity positive
  known := by
    refine ⟨fun _ => by simp [BlockState.initial, BlockState.reachable, Heap.empty], List.nodup_nil, ⟨?_, ?_⟩, nofun⟩
    · rintro (task | text) other address here there
      · cases here
      · simp [BlockState.holder, BlockState.initial] at here
    · intro address
      simp [BlockState.initial, BlockState.holder, Heap.empty]
  held := .nil
  carried := rfl
  counted := rfl
  file := rfl
  safe := rfl

theorem in_memory_more (texts : Heap (List UInt8)) (tasks : Heap Task) (address : Nat) (data : QueueData)
    (text : List UInt8) (held : InMemory texts tasks address data) : InMemory (texts.alloc text) tasks address data := by
  obtain ⟨str, task, read⟩ := held
  exact ⟨str, task, texts.alloc_other text str _ read⟩

theorem in_memory_alloc (texts : Heap (List UInt8)) (tasks : Heap Task) (address : Nat) (data : QueueData)
    (fresh : Task) (held : InMemory texts tasks address data) : InMemory texts (tasks.alloc fresh) address data := by
  obtain ⟨str, task, read⟩ := held
  exact ⟨str, tasks.alloc_other fresh address _ task, read⟩

theorem write_taken_ran (texts : Heap (List UInt8)) (tasks : Heap Task) (address text : Nat) (data : QueueData)
    (task : tasks.cell address = some ⟨some text, data.size⟩) (read : texts.cell text = some data.str) :
    writeTaken texts tasks (some address) = .ok (texts.erase text, tasks.erase address, data.message) := by
  simp only [writeTaken, tasks.deref_read address _ task, texts.deref_read text _ read, if_pos data.covered,
    texts.release_read text _ read, tasks.release_read address _ task, ok_bind]
  rfl

section Steps

variable (capacity : Nat) (state : BlockState) (queued : List QueueData) (failed : Bool)

theorem known_task_below (known : BlocksKnown state) (address : Nat) (member : address ∈ state.reachable ++ state.refused) :
    address < state.tasks.bound := by
  obtain ⟨task, read⟩ := Option.isSome_iff_exists.mp ((known.tasks address).mpr member)
  exact state.tasks.allocated_below address task read

theorem unpushed_below (known : BlocksKnown state) (text : Nat) (member : text ∈ state.unpushed) :
    text < state.texts.bound :=
  slot_below known.texts (.inr text) text (if_pos member)

theorem push_known (log : LoggerState) (data : QueueData) (known : BlocksKnown state) :
    BlocksKnown (pushBlocks state log data) := by
  have fresh : state.tasks.bound ∉ state.reachable ++ state.refused := fun member =>
    Nat.lt_irrefl _ (known_task_below state known _ member)
  have listed : ((pushBlocks state log data).reachable ++ (pushBlocks state log data).refused).Perm
      (state.tasks.bound :: (state.reachable ++ state.refused)) := by
    simp only [pushBlocks, BlockState.reachable]
    split
    · rw [← List.append_assoc]
      exact List.perm_append_singleton _ _
    · simp only [List.append_assoc, List.singleton_append]
      rw [← List.append_assoc, ← List.append_assoc]
      exact List.perm_middle
  have slots : (pushBlocks state log data).holder =
      Function.update state.holder (.inl state.tasks.bound) (some state.texts.bound) := by
    funext slot
    rcases slot with task | text
    · by_cases here : task = state.tasks.bound
      · simp [BlockState.holder, pushBlocks, here]
      · simp [BlockState.holder, pushBlocks, alloc_elsewhere _ _ task here, here]
    · exact (Function.update_of_ne Sum.inr_ne_inl _ _).symm
  have free : state.holder (.inl state.tasks.bound) = none := by
    rw [BlockState.holder, state.tasks.unallocated _ (Nat.le_refl _)]
    rfl
  refine ⟨fun address => ?_, listed.nodup_iff.mpr (List.nodup_cons.mpr ⟨fresh, known.distinct⟩), ?_, ?_⟩
  · rw [listed.mem_iff, List.mem_cons, ← known.tasks]
    by_cases here : address = state.tasks.bound
    · simp [pushBlocks, here]
    · simp [pushBlocks, alloc_elsewhere _ _ address here, here]
  · rw [slots]
    exact owns_alloc known.texts (.inl state.tasks.bound) data.str free
  · intro address task read
    by_cases here : address = state.tasks.bound
    · simp only [pushBlocks, here, Heap.alloc_here] at read
      obtain rfl := Option.some.inj read
      exact Option.some_ne_none _
    · simp only [pushBlocks, alloc_elsewhere _ _ address here] at read
      exact known.backed address task read

theorem drop_known (data : QueueData) (known : BlocksKnown state) : BlocksKnown (dropText state data) := by
  have fresh : state.texts.bound ∉ state.unpushed := fun member =>
    Nat.lt_irrefl _ (unpushed_below state known _ member)
  have slots : (dropText state data).holder =
      Function.update state.holder (.inr state.texts.bound) (some state.texts.bound) := by
    funext slot
    rcases slot with task | text
    · simp [BlockState.holder, dropText]
    · by_cases here : text = state.texts.bound
      · simp [BlockState.holder, dropText, here]
      · simp [BlockState.holder, dropText, here]
  refine ⟨known.tasks, known.distinct, ?_, known.backed⟩
  rw [slots]
  exact owns_alloc known.texts (.inr state.texts.bound) data.str (if_neg fresh)

theorem older_in_memory (data : QueueData) (inv : BlockInv capacity state queued failed) :
    List.Forall₂ (InMemory (state.texts.alloc data.str) (state.tasks.alloc ⟨some state.texts.bound, data.size⟩))
      state.reachable (inFlight state.log.logger ++ queued) :=
  inv.held.imp fun address other held =>
    in_memory_alloc _ state.tasks address other _ (in_memory_more state.texts state.tasks address other data.str held)

theorem fresh_in_memory (data : QueueData) :
    InMemory (state.texts.alloc data.str) (state.tasks.alloc ⟨some state.texts.bound, data.size⟩) state.tasks.bound data :=
  ⟨state.texts.bound, state.tasks.alloc_here _, state.texts.alloc_here _⟩

theorem push_keeps_blocks (thread : Nat) (data : QueueData) (log : LoggerState)
    (inv : BlockInv capacity state queued failed)
    (stepped : under oneLife (step capacity) state.log (.enqueue thread data) = some log) :
    ∃ after, BlockInv capacity (pushBlocks state log data) after failed := by
  obtain ⟨after, life, lives⟩ := life_step capacity state.log log _ queued failed inv.life stepped
  have going : (failed || Label.enqueue thread data == .openLog false) = failed := Bool.or_false failed
  rw [going] at life
  have known := push_known state log data inv.known
  have counted := inv.counted
  cases lives with
  | refused _ _ full apart pushed accepted =>
      have same : pushBlocks state log data =
          { state with
            log := log
            texts := state.texts.alloc data.str
            tasks := state.tasks.alloc ⟨some state.texts.bound, data.size⟩
            refused := state.refused ++ [state.tasks.bound] } := by
        simp only [pushBlocks, full, if_true]
      rw [same] at known ⊢
      refine ⟨queued, life, known, ?_, ?_, ?_, inv.file.trans apart.file.symm, inv.safe⟩
      · rw [apart.flight]
        exact older_in_memory capacity state queued failed data inv
      · rw [apart.flight]
        exact inv.carried
      · simp only [pushed, accepted, List.length_append, List.length_singleton]
        omega
  | stored _ _ space apart pushed accepted =>
      have same : pushBlocks state log data =
          { state with
            log := log
            texts := state.texts.alloc data.str
            tasks := state.tasks.alloc ⟨some state.texts.bound, data.size⟩
            slots := state.slots ++ [state.tasks.bound] } := by
        simp only [pushBlocks, space, Bool.false_eq_true, if_false]
      rw [same] at known ⊢
      refine ⟨queued ++ [data], life, known, ?_, ?_, ?_, inv.file.trans apart.file.symm, inv.safe⟩
      · rw [apart.flight, BlockState.reachable, ← List.append_assoc, ← List.append_assoc]
        exact List.rel_append (older_in_memory capacity state queued failed data inv) (.cons (fresh_in_memory state data) .nil)
      · rw [apart.flight]
        exact inv.carried
      · simp only [pushed, accepted, List.length_append, List.length_singleton]
        omega
  | quiet _ quietly => cases quietly

theorem drop_keeps_blocks (data : QueueData) (inv : BlockInv capacity state queued failed) :
    BlockInv capacity (dropText state data) queued failed :=
  { inv with
    known := drop_known state data inv.known
    held := inv.held.imp fun address other held => in_memory_more state.texts state.tasks address other data.str held }

theorem quiet_keeps_blocks (log : LoggerState) (after : List QueueData) (now : Bool) (file : List UInt8)
    (inv : BlockInv capacity state queued failed) (life : Life capacity log after now)
    (flight : inFlight log.logger = inFlight state.log.logger) (same : after = queued) (written : file = log.file)
    (calls : SameCalls state.log log) : BlockInv capacity { state with log := log, file := file } after now where
  life := life
  known := ⟨inv.known.tasks, inv.known.distinct, inv.known.texts, inv.known.backed⟩
  held := by
    rw [flight, same]
    exact inv.held
  carried := by
    rw [flight]
    exact inv.carried
  counted := by
    rw [calls.pushed, calls.accepted]
    exact inv.counted
  file := written
  safe := inv.safe

theorem taken_keeps_blocks (log : LoggerState) (data : QueueData) (rest : List QueueData) (now : Bool)
    (inv : BlockInv capacity state (data :: rest) failed) (life : Life capacity log rest now)
    (idle : inFlight state.log.logger = []) (has : inFlight log.logger = [data]) (file : log.file = state.log.file)
    (calls : SameCalls state.log log) :
    BlockInv capacity { state with log := log, taken := state.slots.head?, slots := state.slots.tail } rest now := by
  have held := inv.held
  have carried := inv.carried
  rw [idle] at held carried
  have none : state.taken = none := by
    cases taken : state.taken with
    | none => rfl
    | some address => simp [taken] at carried
  have reach : state.reachable = state.slots := by rw [BlockState.reachable, none]; rfl
  rw [reach] at held
  obtain ⟨address, others, _, _, slots⟩ := List.forall₂_cons_right_iff.mp held
  have same : ({ state with log := log, taken := state.slots.head?, slots := state.slots.tail } : BlockState).reachable =
      state.reachable := by
    rw [reach, BlockState.reachable, slots]
    rfl
  refine ⟨life, ⟨?_, ?_, inv.known.texts, inv.known.backed⟩, ?_, ?_, ?_, inv.file.trans file.symm, inv.safe⟩
  · rw [same]
    exact inv.known.tasks
  · rw [same]
    exact inv.known.distinct
  · rw [same, reach, has]
    exact held
  · rw [has, slots]
    rfl
  · rw [calls.pushed, calls.accepted]
    exact inv.counted

theorem erased_in_memory (address text : Nat) (addresses : List Nat) (entries : List QueueData)
    (known : BlocksKnown state) (here : state.holder (.inl address) = some text) (apart : address ∉ addresses)
    (held : List.Forall₂ (InMemory state.texts state.tasks) addresses entries) :
    List.Forall₂ (InMemory (state.texts.erase text) (state.tasks.erase address)) addresses entries := by
  have both := (List.forall₂_and_left addresses entries).mpr ⟨fun other member => ne_of_mem_of_not_mem member apart, held⟩
  refine both.imp fun other data there => ?_
  obtain ⟨different, str, task, read⟩ := there
  have points : state.holder (.inl other) = some str := by rw [BlockState.holder, task]; rfl
  have elsewhere : str ≠ text := by
    rintro rfl
    exact different (Sum.inl.inj (known.texts.apart _ _ str points here))
  exact ⟨str, by rw [state.tasks.erase_other address other different, task],
    by rw [state.texts.erase_other text str elsewhere, read]⟩

theorem erased_known (log : LoggerState) (file : List UInt8) (address text : Nat) (known : BlocksKnown state)
    (taken : state.taken = some address) (here : state.holder (.inl address) = some text) :
    BlocksKnown { state with
      log := log, texts := state.texts.erase text, tasks := state.tasks.erase address, taken := none, file := file } := by
  have reach : state.reachable ++ state.refused = address :: (state.slots ++ state.refused) := by
    rw [BlockState.reachable, taken]
    rfl
  have distinct := known.distinct
  rw [reach] at distinct
  obtain ⟨apart, fewer⟩ := List.nodup_cons.mp distinct
  have slots : ({ state with
      log := log, texts := state.texts.erase text, tasks := state.tasks.erase address, taken := none,
      file := file } : BlockState).holder = Function.update state.holder (.inl address) none := by
    funext slot
    rcases slot with task | other
    · by_cases same : task = address
      · simp [BlockState.holder, Heap.erase, same]
      · simp [BlockState.holder, Heap.erase, same]
    · simp [BlockState.holder]
  refine ⟨fun other => ?_, fewer, ?_, ?_⟩
  · have before := known.tasks other
    rw [reach, List.mem_cons] at before
    by_cases same : other = address
    · subst same
      simpa [Heap.erase, BlockState.reachable] using apart
    · rw [state.tasks.erase_other address other same, before]
      simp [BlockState.reachable, same]
  · rw [slots]
    exact owns_release known.texts (.inl address) text here
  · intro other task read
    by_cases same : other = address
    · simp [Heap.erase, same] at read
    · rw [state.tasks.erase_other address other same] at read
      exact known.backed other task read

theorem write_keeps_blocks (log : LoggerState) (data : QueueData) (now : Bool)
    (inv : BlockInv capacity state queued failed) (life : Life capacity log queued now)
    (has : inFlight state.log.logger = [data]) (idle : inFlight log.logger = [])
    (file : log.file = state.log.file ++ data.message) (calls : SameCalls state.log log) :
    BlockInv capacity (afterWrite state log) queued now := by
  have held := inv.held
  have carried := inv.carried
  rw [has] at held carried
  cases taken : state.taken with
  | none => simp [taken] at carried
  | some address =>
      rw [BlockState.reachable, taken] at held
      obtain ⟨⟨text, task, read⟩, rest⟩ := List.forall₂_cons.mp held
      have here : state.holder (.inl address) = some text := by rw [BlockState.holder, task]; rfl
      have distinct := inv.known.distinct
      rw [BlockState.reachable, taken] at distinct
      have apart : address ∉ state.slots := fun member =>
        (List.nodup_cons.mp distinct).1 (List.mem_append_left _ member)
      rw [afterWrite, taken, write_taken_ran state.texts state.tasks address text data task read]
      refine ⟨life, erased_known state log _ address text inv.known taken here, ?_, ?_, ?_, ?_, inv.safe⟩
      · rw [idle]
        exact erased_in_memory state address text _ _ inv.known here apart rest
      · rw [idle]
        rfl
      · rw [calls.pushed, calls.accepted]
        exact inv.counted
      · rw [file, inv.file]

theorem other_keeps_blocks (label : Label) (log : LoggerState) (quiet : isEnqueue label = false)
    (inv : BlockInv capacity state queued failed)
    (stepped : under oneLife (step capacity) state.log label = some log) :
    ∃ after, BlockInv capacity (otherBlocks state log label) after (failed || label == .openLog false) := by
  obtain ⟨after, life, lives⟩ := life_step capacity state.log log label queued failed inv.life stepped
  refine ⟨after, ?_⟩
  have still := fun (file : List UInt8) (written : file = log.file) (flight : inFlight log.logger = inFlight state.log.logger)
      (same : after = queued) (calls : SameCalls state.log log) =>
    quiet_keeps_blocks capacity state queued failed log after _ file inv life flight same written calls
  cases lives with
  | refused | stored => cases quiet
  | drained empty apart calls =>
      simp only [otherBlocks, empty, if_true]
      exact still state.file (inv.file.trans apart.file.symm) apart.flight rfl calls
  | taken data rest first filled idle has file calls =>
      subst first
      simp only [otherBlocks, filled, Bool.false_eq_true, if_false]
      exact taken_keeps_blocks capacity state failed log data _ _ inv life idle has file calls
  | written data has idle file calls =>
      exact write_keeps_blocks capacity state queued failed log data _ inv life has idle file calls
  | opened opens flight before empty calls =>
      apply still _ _ flight rfl calls
      rw [inv.file, before, empty, ite_self]
  | quiet _ quietly apart calls =>
      have plain : otherBlocks state log label = { state with log := log } := by
        cases label with
        | dequeue | write | openLog => cases quietly
        | _ => rfl
      rw [plain]
      exact still state.file (inv.file.trans apart.file.symm) apart.flight rfl calls

theorem block_step_keeps (label : BlockLabel) (next : BlockState) (inv : BlockInv capacity state queued failed)
    (stepped : blockStep capacity state label = some next) :
    ∃ after, BlockInv capacity next after (failed || label == .other (.openLog false)) := by
  cases label with
  | pushMessage thread data granted =>
      have going : (failed || BlockLabel.pushMessage thread data granted == .other (.openLog false)) = failed :=
        Bool.or_false failed
      rw [going]
      cases granted with
      | true =>
          obtain ⟨log, ran, rfl⟩ := Option.map_eq_some_iff.mp stepped
          exact push_keeps_blocks capacity state queued failed thread data log inv ran
      | false =>
          simp only [blockStep, Option.ite_none_right_eq_some, Option.some.injEq] at stepped
          obtain ⟨_, rfl⟩ := stepped
          exact ⟨queued, drop_keeps_blocks capacity state queued failed data inv⟩
  | other label =>
      simp only [blockStep, Option.ite_none_left_eq_some] at stepped
      obtain ⟨quiet, moved⟩ := stepped
      obtain ⟨log, ran, rfl⟩ := Option.map_eq_some_iff.mp moved
      have same : (failed || BlockLabel.other label == .other (.openLog false)) = (failed || label == .openLog false) := by
        congr 1
        rw [Bool.eq_iff_iff]
        simp
      rw [same]
      exact other_keeps_blocks capacity state queued failed label log (by simpa using quiet) inv ran

end Steps

def openFailed : BlockLabel := .other (.openLog false)

-- What becomes of the messages: those written have given up their memory, and the
-- others that were accepted are held in the order of acceptance.
structure Accounted (state : BlockState) (written unwritten : List QueueData) : Prop where
  accepted : state.log.accepted = written ++ unwritten
  file : state.file = fileBytes written
  held : List.Forall₂ (InMemory state.texts state.tasks) state.reachable unwritten
  counted : state.refused.length + state.log.accepted.length = state.log.pushed.length
  known : BlocksKnown state

-- In every state of every run of one start and stop, whatever malloc and fopen
-- answer: nothing that was freed is read or freed again, what fwrite reads is what
-- was pushed, and what is in memory is what the queue and the logging thread hold,
-- what enqueue has refused and what pushMessage could not wrap. Behind slog_stop
-- only the last two are left, for ever, unless the file did not open: then nothing
-- was ever taken from the queue.
theorem message_blocks_accounted (capacity : Nat) (labels : List BlockLabel) (state : BlockState) (positive : 0 < capacity)
    (ran : labels.foldlM (blockStep capacity) BlockState.initial = some state) :
    state.fault = none ∧ ∃ written unwritten, Accounted state written unwritten ∧
      (openFailed ∈ labels → written = []) ∧
      (openFailed ∉ labels → state.log.main = .stopped → state.reachable = []) := by
  obtain ⟨queued, failed, inv, known⟩ := history_invariant (blockStep capacity)
    (fun labels state => ∃ queued failed, BlockInv capacity state queued failed ∧ (failed = true ↔ openFailed ∈ labels))
    BlockState.initial state labels
    (by
      rintro before here label next ⟨queued, failed, inv, known⟩ stepped
      obtain ⟨after, kept⟩ := block_step_keeps capacity here queued failed label next inv stepped
      refine ⟨after, _, kept, ?_⟩
      rw [Bool.or_eq_true, known, beq_iff_eq, List.mem_append, List.mem_singleton, openFailed, eq_comm])
    ⟨[], false, initial_block_inv capacity positive, by simp⟩ ran
  obtain ⟨written, accepted, file, lost, ends⟩ := life_written capacity state.log queued failed inv.life
  refine ⟨inv.safe, written, _, ⟨accepted, inv.file.trans file, inv.held, inv.counted, inv.known⟩,
    fun fails => lost (known.mpr fails), fun opens stopped => ?_⟩
  have held := inv.held
  rw [ends (Bool.eq_false_iff.mpr (mt known.mp opens)) stopped] at held
  exact List.forall₂_nil_right_iff.mp held

-- Three messages for a queue of one: the first is written, the second refused, and
-- the third never wrapped.
def leakingLife : List BlockLabel :=
  slogStart.map .other ++
    [.pushMessage 0 (oneByte 97) true, .pushMessage 1 (oneByte 98) true, .pushMessage 2 (oneByte 99) false] ++
    [.openLog true, .dequeue, .report 1, .write, .setShutdown, .signalDestroy, .dequeue, .close, .join, .freeData].map .other

theorem two_messages_leak : ∃ state, leakingLife.foldlM (blockStep 1) BlockState.initial = some state ∧
    state.fault = none ∧ state.reachable = [] ∧ state.refused = [1] ∧ state.unpushed = [2] := by
  have runs : (leakingLife.foldlM (blockStep 1) BlockState.initial).map
      (fun state => (state.log.main, state.refused, state.unpushed)) = some (.stopped, [1], [2]) := by
    decide +kernel
  obtain ⟨state, ran, same⟩ := Option.map_eq_some_iff.mp runs
  obtain ⟨stopped, refused, unpushed⟩ : state.log.main = .stopped ∧ state.refused = [1] ∧ state.unpushed = [2] := by
    simpa using same
  obtain ⟨safe, _, _, _, _, ends⟩ := message_blocks_accounted 1 leakingLife state (by decide) ran
  exact ⟨state, ran, safe, ends (by decide) stopped, refused, unpushed⟩

end Slogger.Logger
