import Mathlib.Logic.Function.Basic
import Slogger.Lib.Agreement
import Slogger.Lib.Owned
import Slogger.Playlist.Ownership

set_option autoImplicit false

namespace Slogger.Playlist

open Slogger.Lib

-- struct LinkList with its two char pointers.
structure ListNode where
  next : Pointer
  path : Pointer
  file : Pointer
  prv : Pointer

inductive TextField where
  | path
  | file
deriving DecidableEq

def ListNode.text (node : ListNode) : TextField → Pointer
  | .path => node.path
  | .file => node.file

structure Memory where
  nodes : Heap ListNode
  strings : Heap CString

namespace Memory

def empty : Memory := ⟨Heap.empty, Heap.empty⟩

def link (memory : Memory) (target : Pointer) (change : ListNode → ListNode) : Except Fault Memory := do
  let nodes ← memory.nodes.assign target change
  .ok { memory with nodes := nodes }

-- free(node->file), free(node->path), free(node)
def free (memory : Memory) (node : Pointer) : Except Fault Memory := do
  let here ← memory.nodes.deref node
  let strings ← memory.strings.release here.file
  let strings ← strings.release here.path
  let nodes ← memory.nodes.release node
  .ok ⟨nodes, strings⟩

-- The node l with its copies of the path and of what extract_file_name answers.
def create (memory : Memory) (path : CString) (prv : Pointer) : Memory where
  nodes := memory.nodes.alloc ⟨none, some memory.strings.bound, some (memory.strings.bound + 1), prv⟩
  strings := (memory.strings.alloc path).alloc (fileName path)

def lastWalk (memory : Memory) : Nat → Pointer → Pointer → Nat → Except Fault (Pointer × Nat)
  | _, none, prv, count => .ok (prv, count)
  | 0, some _, _, _ => .error .loops
  | fuel + 1, some address, _, count => do
      let list ← memory.nodes.deref (some address)
      memory.lastWalk fuel list.next (some address) (count + 1)

def evictFirst (memory : Memory) (filelist : Pointer) : Except Fault (Memory × Pointer) := do
  let first ← memory.nodes.deref filelist
  let tmp := first.next
  let memory ← memory.free filelist
  let memory ← memory.link tmp fun node => { node with prv := none }
  .ok (memory, tmp)

def linkLast (memory : Memory) (filelist prv : Pointer) (path : CString) : Except Fault (Memory × Pointer) :=
  let l := some memory.nodes.bound
  let memory := memory.create path prv
  match prv, filelist with
  | some _, _ => do
      let memory ← memory.link prv fun node => { node with next := l }
      .ok (memory, filelist)
  | none, some _ => do
      let memory ← memory.link filelist fun node => { node with next := l }
      .ok (memory, filelist)
  | none, none => .ok (memory, l)

def addplaylistLast (memory : Memory) (filelist : Pointer) (path : CString) : Except Fault (Memory × Pointer) := do
  let (prv, count) ← memory.lastWalk memory.nodes.bound filelist none 0
  let (memory, filelist) ←
    if count = maxPlayListLen then memory.evictFirst filelist else .ok (memory, filelist)
  memory.linkLast filelist prv path

def frontWalk (memory : Memory) : Nat → Pointer → Pointer → Nat → Except Fault (Pointer × Nat)
  | _, none, prvtoPrv, count => .ok (prvtoPrv, count)
  | 0, some _, _, _ => .error .loops
  | fuel + 1, some address, prvtoPrv, count => do
      let list ← memory.nodes.deref (some address)
      let prvtoPrv ←
        match list.next with
        | none => .ok prvtoPrv
        | some follower => do
            let after ← memory.nodes.deref (some follower)
            .ok (if after.next = none then some address else prvtoPrv)
      memory.frontWalk fuel list.next prvtoPrv (count + 1)

def evictLast (memory : Memory) (prvtoPrv : Pointer) : Except Fault Memory :=
  match prvtoPrv with
  | none => .ok memory
  | some _ => do
      let keeper ← memory.nodes.deref prvtoPrv
      let memory ← memory.free keeper.next
      memory.link prvtoPrv fun node => { node with next := none }

def linkFront (memory : Memory) (filelist : Pointer) (path : CString) : Except Fault (Memory × Pointer) := do
  let l := some memory.nodes.bound
  let memory := memory.create path none
  let memory ← memory.link filelist fun node => { node with prv := l }
  let memory ← memory.link l fun node => { node with next := filelist }
  .ok (memory, l)

def addplaylistFront (memory : Memory) (filelist : Pointer) (path : CString) : Except Fault (Memory × Pointer) := do
  let (prvtoPrv, count) ← memory.frontWalk memory.nodes.bound filelist none 0
  let memory ← if count = maxPlayListLen then memory.evictLast prvtoPrv else .ok memory
  memory.linkFront filelist path

def unlinkNode (memory : Memory) (filelist node : Pointer) : Except Fault (Memory × Pointer) := do
  let here ← memory.nodes.deref node
  match here.prv with
  | some _ => do
      let memory ← memory.link here.prv fun prv => { prv with next := here.next }
      let here' ← memory.nodes.deref node
      let memory ←
        match here'.next with
        | some _ => memory.link here'.next fun next => { next with prv := here.prv }
        | none => .ok memory
      .ok (memory, filelist)
  | none => do
      let memory ← memory.link here.next fun first => { first with prv := none }
      .ok (memory, here.next)

-- *filelist, *pagehead and the result come behind the memory.
def removeplayNode (memory : Memory) (filelist node pagehead : Pointer) :
    Except Fault (Memory × Pointer × Pointer × Bool) :=
  match node with
  | none => .ok (memory, filelist, pagehead, false)
  | some _ => do
      let tmp ← memory.nodes.deref node
      let pagehead :=
        if node = pagehead then (if tmp.next ≠ none then tmp.next else tmp.prv) else pagehead
      let (memory, filelist) ← memory.unlinkNode filelist node
      let memory ← memory.free node
      .ok (memory, filelist, pagehead, true)

-- strcmp(list->path, path)
def findPath (memory : Memory) (path : CString) : Nat → Pointer → Except Fault Pointer
  | _, none => .ok none
  | 0, some _ => .error .loops
  | fuel + 1, some address => do
      let node ← memory.nodes.deref (some address)
      let text ← memory.strings.deref node.path
      if text = path then .ok (some address) else memory.findPath path fuel node.next

def nodeAt (memory : Memory) : Nat → Pointer → Except Fault Pointer
  | _, none => .ok none
  | 0, some address => .ok (some address)
  | position + 1, some address => do
      let node ← memory.nodes.deref (some address)
      memory.nodeAt position node.next

def removeplaylist (memory : Memory) (filelist : Pointer) (path : CString) (pagehead : Pointer) :
    Except Fault (Memory × Pointer × Pointer × Bool) := do
  let list ← memory.findPath path memory.nodes.bound filelist
  match list with
  | some _ => memory.removeplayNode filelist list pagehead
  | none => .ok (memory, filelist, pagehead, false)

-- The two pairs of pointers change places; no string is copied.
def exchange (memory : Memory) (node partner : Pointer) : Except Fault Memory := do
  let here ← memory.nodes.deref node
  let there ← memory.nodes.deref partner
  let memory ← memory.link node fun cell => { cell with path := there.path, file := there.file }
  memory.link partner fun cell => { cell with path := here.path, file := here.file }

-- *selnode and the result come behind the memory.
def swapplayNode (memory : Memory) (node : Pointer) (next : Bool) (selnode : Pointer) :
    Except Fault (Memory × Pointer × Bool) := do
  let here ← memory.nodes.deref node
  if next then
    match here.next with
    | some _ => do
        let selnode := movedSelection selnode node here.next here.prv
        let memory ← memory.exchange node here.next
        .ok (memory, selnode, true)
    | none => .ok (memory, selnode, false)
  else
    match here.prv with
    | some _ => do
        let selnode := movedSelection selnode node here.prv here.next
        let memory ← memory.exchange node here.prv
        .ok (memory, selnode, true)
    | none => .ok (memory, selnode, false)

def swapplaylist (memory : Memory) (filelist : Pointer) (path : CString) (next : Bool) (selnode : Pointer) :
    Except Fault (Memory × Pointer × Bool) := do
  let list ← memory.findPath path memory.nodes.bound filelist
  match list with
  | some _ => memory.swapplayNode list next selnode
  | none => .ok (memory, selnode, false)

def readLoop : Nat → InStream → Memory → Pointer → Except Fault (Memory × Pointer)
  | 0, file, memory, list => if file.eof then .ok (memory, list) else .error .loops
  | fuel + 1, file, memory, list =>
      if file.eof then .ok (memory, list)
      else
        match fgets 256 file with
        | (some buff, file) => do
            let (memory, list) ← memory.addplaylistLast list (lineOf buff)
            readLoop fuel file memory list
        | (none, file) => readLoop fuel file memory list

def readplaylist (memory : Memory) (list : Pointer) (file : Option InStream) : Except Fault (Memory × Pointer) :=
  match file with
  | none => .ok (memory, list)
  | some file => readLoop (file.data.length + 1) file memory list

def deleteList : Nat → Memory → Pointer → Except Fault Memory
  | _, memory, none => .ok memory
  | 0, _, some _ => .error .loops
  | fuel + 1, memory, some address => do
      let curr ← memory.nodes.deref (some address)
      let memory ← deleteList fuel memory curr.next
      memory.free (some address)

def stringAt (memory : Memory) (slot : Nat × TextField) : Pointer :=
  (memory.nodes.cell slot.1).bind fun node => node.text slot.2

end Memory

def valueOf (strings : Heap CString) (node : ListNode) : Option StPlayList :=
  match node.path.bind strings.cell, node.file.bind strings.cell with
  | some path, some file => some ⟨node.next, path, file, node.prv⟩
  | _, _ => none

def Memory.values (memory : Memory) : NodeHeap where
  cell address := (memory.nodes.cell address).bind (valueOf memory.strings)
  bound := memory.nodes.bound
  unallocated address above := by
    rw [memory.nodes.unallocated address above]
    rfl

structure OwnsStrings (memory : Memory) : Prop where
  filled : ∀ address node, memory.nodes.cell address = some node → ∀ field, node.text field ≠ none
  owns : Owns memory.strings memory.stringAt

structure Realizes (memory : Memory) (heap : NodeHeap) : Prop where
  held : OwnsStrings memory
  values : memory.values = heap

theorem value_of_same (strings others : Heap CString) (node : ListNode)
    (same : ∀ field text, node.text field = some text → others.cell text = strings.cell text) :
    valueOf others node = valueOf strings node := by
  have field : ∀ field, (node.text field).bind others.cell = (node.text field).bind strings.cell := by
    intro field
    cases here : node.text field with
    | none => rfl
    | some text => exact same field text here
  have path := field .path
  have file := field .file
  simp only [ListNode.text] at path file
  rw [valueOf, valueOf, path, file]

theorem value_links (strings : Heap CString) (node : ListNode) (value : StPlayList)
    (read : valueOf strings node = some value) : value.next = node.next ∧ value.prv = node.prv := by
  rw [valueOf] at read
  split at read
  · obtain rfl := Option.some.inj read
    exact ⟨rfl, rfl⟩
  · cases read

theorem node_strings (memory : Memory) (held : OwnsStrings memory) (address : Nat) (node : ListNode)
    (read : memory.nodes.cell address = some node) (field : TextField) :
    ∃ text, node.text field = some text ∧ memory.stringAt (address, field) = some text := by
  obtain ⟨text, here⟩ := Option.ne_none_iff_exists'.mp (held.filled address node read field)
  refine ⟨text, here, ?_⟩
  rw [Memory.stringAt, read]
  exact here

theorem node_value (memory : Memory) (held : OwnsStrings memory) (address : Nat) (node : ListNode)
    (read : memory.nodes.cell address = some node) : ∃ value, valueOf memory.strings node = some value := by
  obtain ⟨path, named, here⟩ := node_strings memory held address node read .path
  obtain ⟨file, shown, there⟩ := node_strings memory held address node read .file
  obtain ⟨first, filled⟩ := slot_live held.owns _ path here
  obtain ⟨second, full⟩ := slot_live held.owns _ file there
  simp only [ListNode.text] at named shown
  exact ⟨⟨node.next, first, second, node.prv⟩, by simp [valueOf, named, shown, filled, full]⟩

theorem values_cell (memory : Memory) (address : Nat) :
    memory.values.cell address = (memory.nodes.cell address).bind (valueOf memory.strings) := rfl

theorem values_null (memory : Memory) (address : Nat) (read : memory.nodes.cell address = none) :
    memory.values.cell address = none := by
  rw [values_cell, read]
  rfl

theorem values_read (memory : Memory) (address : Nat) (node : ListNode) (value : StPlayList)
    (read : memory.nodes.cell address = some node) (shown : valueOf memory.strings node = some value) :
    memory.values.cell address = some value := by
  rw [values_cell, read]
  exact shown

theorem values_modify (memory : Memory) (address : Nat) (node : ListNode) (value : StPlayList)
    (change : ListNode → ListNode) (shown : StPlayList → StPlayList) (read : memory.nodes.cell address = some node)
    (there : valueOf memory.strings node = some value)
    (same : valueOf memory.strings (change node) = some (shown value)) :
    Memory.values { memory with nodes := memory.nodes.modify address change } = memory.values.modify address shown := by
  refine heap_ext _ _ (fun other => ?_) rfl
  rw [values_cell]
  by_cases here : other = address
  · rw [here, memory.nodes.modify_here, Heap.modify_here, values_cell, read, Option.map_some, Option.bind_some,
      Option.bind_some, there]
    exact same
  · rw [memory.nodes.modify_other address other change here, Heap.modify_other _ address other shown here, values_cell]

structure Found (memory : Memory) (pointer : Pointer) (node : ListNode) (value : StPlayList) : Prop where
  here : ∃ address, pointer = some address ∧ memory.nodes.cell address = some node
  shown : valueOf memory.strings node = some value

theorem deref_agrees (memory : Memory) (heap : NodeHeap) (real : Realizes memory heap)
    (pointer : Pointer) : Agree (Found memory pointer) (memory.nodes.deref pointer) (heap.deref pointer) := by
  obtain ⟨held, rfl⟩ := real
  cases pointer with
  | none => exact rfl
  | some address =>
      cases read : memory.nodes.cell address with
      | none =>
          have absent := values_null memory address read
          simp only [Heap.deref, read, absent]
          exact rfl
      | some node =>
          obtain ⟨value, shown⟩ := node_value memory held address node read
          rw [memory.nodes.deref_read address node read,
            memory.values.deref_read address value (values_read memory address node value read shown)]
          exact ⟨⟨address, rfl, read⟩, shown⟩

theorem found_links (memory : Memory) (pointer : Pointer) (node : ListNode) (value : StPlayList)
    (found : Found memory pointer node value) : node.next = value.next ∧ node.prv = value.prv := by
  obtain ⟨next, prv⟩ := value_links memory.strings node value found.shown
  exact ⟨next.symm, prv.symm⟩

theorem found_path (memory : Memory) (pointer : Pointer) (node : ListNode) (value : StPlayList)
    (found : Found memory pointer node value) : memory.strings.deref node.path = .ok value.path := by
  have shown := found.shown
  rw [valueOf] at shown
  split at shown
  · rename_i path file first second
    obtain rfl := Option.some.inj shown
    obtain ⟨text, named, read⟩ := Option.bind_eq_some_iff.mp first
    rw [named, memory.strings.deref_read text path read]
  · cases shown

theorem link_agrees (memory : Memory) (heap : NodeHeap) (real : Realizes memory heap)
    (target : Pointer) (change : ListNode → ListNode) (shown : StPlayList → StPlayList)
    (kept : ∀ node field, (change node).text field = node.text field)
    (same : ∀ strings node, valueOf strings (change node) = (valueOf strings node).map shown) :
    Agree Realizes (memory.link target change) (heap.assign target shown) := by
  obtain ⟨held, rfl⟩ := real
  cases target with
  | none => exact rfl
  | some address =>
      cases read : memory.nodes.cell address with
      | none =>
          have absent := values_null memory address read
          simp only [Memory.link, Heap.assign, read, absent]
          exact rfl
      | some node =>
          obtain ⟨value, there⟩ := node_value memory held address node read
          rw [Memory.link, memory.nodes.assign_read address node change read, ok_bind,
            memory.values.assign_read address value shown (values_read memory address node value read there)]
          have strings : Memory.stringAt { memory with nodes := memory.nodes.modify address change } = memory.stringAt := by
            funext slot
            rw [Memory.stringAt, Memory.stringAt]
            by_cases here : slot.1 = address
            · rw [here, memory.nodes.modify_here, read]
              exact kept node slot.2
            · rw [memory.nodes.modify_other address slot.1 change here]
          refine ⟨⟨?_, ?_⟩, ?_⟩
          · intro other changed found field
            by_cases here : other = address
            · rw [here, memory.nodes.modify_here, read] at found
              obtain rfl := Option.some.inj found
              rw [kept]
              exact held.filled address node read field
            · rw [memory.nodes.modify_other address other change here] at found
              exact held.filled other changed found field
          · rw [strings]
            exact held.owns
          · apply values_modify memory address node value change shown read there
            rw [same, there]
            rfl

theorem set_next_agrees (memory : Memory) (heap : NodeHeap) (real : Realizes memory heap)
    (target next : Pointer) : Agree Realizes (memory.link target fun node => { node with next := next })
      (heap.assign target fun node => { node with next := next }) := by
  apply link_agrees memory heap real
  · intro node field
    cases field <;> rfl
  · intro strings node
    rw [valueOf, valueOf]
    cases node.path.bind strings.cell <;> cases node.file.bind strings.cell <;> rfl

theorem set_prv_agrees (memory : Memory) (heap : NodeHeap) (real : Realizes memory heap)
    (target prv : Pointer) : Agree Realizes (memory.link target fun node => { node with prv := prv })
      (heap.assign target fun node => { node with prv := prv }) := by
  apply link_agrees memory heap real
  · intro node field
    cases field <;> rfl
  · intro strings node
    rw [valueOf, valueOf]
    cases node.path.bind strings.cell <;> cases node.file.bind strings.cell <;> rfl

theorem free_agrees (memory : Memory) (heap : NodeHeap) (real : Realizes memory heap)
    (address : Nat) : Agree Realizes (memory.free (some address)) (heap.release (some address)) := by
  obtain ⟨held, rfl⟩ := real
  cases read : memory.nodes.cell address with
  | none =>
      have absent := values_null memory address read
      simp only [Memory.free, Heap.deref, Heap.release, read, absent]
      exact rfl
  | some node =>
      obtain ⟨value, there⟩ := node_value memory held address node read
      obtain ⟨path, named, pathSlot⟩ := node_strings memory held address node read .path
      obtain ⟨file, shown, fileSlot⟩ := node_strings memory held address node read .file
      have different : path ≠ file := by
        rintro rfl
        cases held.owns.apart _ _ path pathSlot fileSlot
      obtain ⟨first, pathRead⟩ := slot_live held.owns _ path pathSlot
      obtain ⟨second, fileRead⟩ := slot_live held.owns _ file fileSlot
      have left : (memory.strings.erase file).cell path = some first := by
        rw [memory.strings.erase_other file path different]
        exact pathRead
      simp only [ListNode.text] at named shown
      rw [Memory.free, memory.nodes.deref_read address node read, ok_bind, named, shown,
        memory.strings.release_read file second fileRead, ok_bind, Heap.release_read _ path first left, ok_bind,
        memory.nodes.release_read address node read, ok_bind,
        memory.values.release_read address value (values_read memory address node value read there)]
      have slots : Memory.stringAt ⟨memory.nodes.erase address, (memory.strings.erase file).erase path⟩ =
          Function.update (Function.update memory.stringAt (address, .file) none) (address, .path) none := by
        funext slot
        obtain ⟨other, field⟩ := slot
        by_cases here : other = address
        · cases field <;> simp [Memory.stringAt, Heap.erase, here]
        · simp [Memory.stringAt, Heap.erase, here]
      have fewer := owns_release held.owns _ file fileSlot
      have stays : Function.update memory.stringAt (address, .file) none (address, .path) = some path := by
        rw [Function.update_of_ne (by simp)]
        exact pathSlot
      refine ⟨⟨?_, ?_⟩, ?_⟩
      · intro other cell found
        by_cases here : other = address
        · simp [here, Heap.erase] at found
        · rw [memory.nodes.erase_other address other here] at found
          exact held.filled other cell found
      · rw [slots]
        exact owns_release fewer _ path stays
      · refine heap_ext _ _ (fun other => ?_) rfl
        rw [values_cell]
        by_cases here : other = address
        · simp [here, Heap.erase]
        · rw [memory.nodes.erase_other address other here, Heap.erase_other _ address other here, values_cell]
          cases found : memory.nodes.cell other with
          | none => rfl
          | some cell =>
              apply value_of_same
              intro field text points
              have slot : memory.stringAt (other, field) = some text := by
                rw [Memory.stringAt, found]
                exact points
              have notFile : text ≠ file := by
                rintro rfl
                exact here (congrArg Prod.fst (held.owns.apart _ _ text slot fileSlot))
              have notPath : text ≠ path := by
                rintro rfl
                exact here (congrArg Prod.fst (held.owns.apart _ _ text slot pathSlot))
              rw [Heap.erase_other _ path text notPath, Heap.erase_other _ file text notFile]

theorem create_realizes (memory : Memory) (heap : NodeHeap) (real : Realizes memory heap)
    (path : CString) (prv : Pointer) :
    Realizes (memory.create path prv) (heap.alloc { next := none, path := path, file := fileName path, prv := prv }) := by
  obtain ⟨held, rfl⟩ := real
  have fresh : ∀ field, memory.stringAt (memory.nodes.bound, field) = none := by
    intro field
    rw [Memory.stringAt, memory.nodes.unallocated _ (Nat.le_refl _)]
    rfl
  have slots : (memory.create path prv).stringAt =
      Function.update (Function.update memory.stringAt (memory.nodes.bound, .path) (some memory.strings.bound))
        (memory.nodes.bound, .file) (some (memory.strings.alloc path).bound) := by
    funext slot
    obtain ⟨other, field⟩ := slot
    by_cases here : other = memory.nodes.bound
    · cases field <;> simp [Memory.stringAt, Memory.create, Heap.alloc, here, Function.update_apply, ListNode.text]
    · simp [Memory.stringAt, Memory.create, Heap.alloc, here]
  have more := owns_alloc held.owns (memory.nodes.bound, TextField.path) path (fresh .path)
  refine ⟨⟨?_, ?_⟩, ?_⟩
  · intro other node found field
    by_cases here : other = memory.nodes.bound
    · rw [Memory.create, here, memory.nodes.alloc_here] at found
      obtain rfl := Option.some.inj found
      cases field <;> simp [ListNode.text]
    · rw [Memory.create, alloc_elsewhere _ _ other here] at found
      exact held.filled other node found field
  · rw [slots]
    apply owns_alloc more _ (fileName path)
    rw [Function.update_of_ne (by simp)]
    exact fresh .file
  · refine heap_ext _ _ (fun other => ?_) rfl
    rw [values_cell, Memory.create]
    by_cases here : other = memory.nodes.bound
    · have last : memory.values.bound = memory.nodes.bound := rfl
      have behind := (memory.strings.alloc path).alloc_here (fileName path)
      have before := Heap.alloc_other _ (fileName path) _ _ (memory.strings.alloc_here path)
      have limit : (memory.strings.alloc path).bound = memory.strings.bound + 1 := rfl
      rw [limit] at behind
      rw [here, memory.nodes.alloc_here, ← last, memory.values.alloc_here, Option.bind_some, valueOf]
      simp [behind, before]
    · rw [alloc_elsewhere _ _ other here, alloc_elsewhere memory.values _ other here, values_cell]
      cases found : memory.nodes.cell other with
      | none => rfl
      | some node =>
          apply value_of_same
          intro field text points
          have slot : memory.stringAt (other, field) = some text := by
            rw [Memory.stringAt, found]
            exact points
          obtain ⟨cell, live⟩ := slot_live held.owns _ text slot
          rw [Heap.alloc_other _ _ text cell (memory.strings.alloc_other path text cell live), live]

-- The nodes exchange what is in their slots.
def exchangedSlots (address partner : Nat) : Equiv.Perm (Nat × TextField) :=
  (Equiv.swap address partner).prodCongr (Equiv.refl TextField)

theorem value_carrying (strings : Heap CString) (node other : ListNode) (value shown : StPlayList)
    (read : valueOf strings node = some value) (there : valueOf strings other = some shown) :
    valueOf strings { node with path := other.path, file := other.file } =
      some (value.carrying ⟨shown.path, shown.file⟩) := by
  obtain ⟨next, prv⟩ := value_links strings node value read
  rw [valueOf] at there ⊢
  dsimp only
  split at there
  · rename_i path file first second
    rw [← Option.some.inj there, StPlayList.carrying, next, prv]
  · cases there

theorem exchange_agrees (memory : Memory) (heap : NodeHeap) (real : Realizes memory heap)
    (node partner : Pointer) : Agree Realizes (memory.exchange node partner) (exchange heap node partner) := by
  apply agree_bind (Found memory node) _ _ _ _ _ (deref_agrees memory heap real node)
  intro here value found
  apply agree_bind (Found memory partner) _ _ _ _ _ (deref_agrees memory heap real partner)
  intro there shown met
  obtain ⟨held, rfl⟩ := real
  obtain ⟨⟨address, rfl, read⟩, first⟩ := found
  obtain ⟨⟨other, rfl, seen⟩, second⟩ := met
  let gives : ListNode → ListNode := fun cell => { cell with path := there.path, file := there.file }
  let takes : ListNode → ListNode := fun cell => { cell with path := here.path, file := here.file }
  -- The partner may be the node itself.
  obtain ⟨middle, between, half, reads⟩ : ∃ middle between, (memory.nodes.modify address gives).cell other = some middle ∧
      valueOf memory.strings middle = some between := by
    by_cases same : other = address
    · subst same
      obtain rfl := Option.some.inj (read.symm.trans seen)
      refine ⟨gives here, _, ?_, value_carrying memory.strings here here value value first first⟩
      rw [memory.nodes.modify_here, read]
      rfl
    · exact ⟨there, shown, by rw [memory.nodes.modify_other address other gives same, seen], second⟩
  have given := values_modify memory address here value gives (·.carrying ⟨shown.path, shown.file⟩) read first
    (value_carrying memory.strings here there value shown first second)
  have taken := values_modify { memory with nodes := memory.nodes.modify address gives } other middle between takes
    (·.carrying ⟨value.path, value.file⟩) half reads (value_carrying memory.strings middle here between value reads first)
  have live := values_read memory address here value read first
  have still := values_read { memory with nodes := memory.nodes.modify address gives } other middle between half reads
  rw [given] at taken still
  rw [Memory.link, memory.nodes.assign_read address here _ read, ok_bind, ok_bind, Memory.link,
    Heap.assign_read _ other middle _ half, ok_bind, memory.values.assign_read address value _ live, ok_bind,
    Heap.assign_read _ other between _ still]
  have slots : Memory.stringAt { memory with nodes := (memory.nodes.modify address gives).modify other takes } =
      memory.stringAt ∘ exchangedSlots address other := by
    funext slot
    obtain ⟨owner, field⟩ := slot
    rw [Function.comp_apply, Memory.stringAt, Memory.stringAt, exchangedSlots]
    by_cases last : owner = other
    · have back : Equiv.swap address other other = address := Equiv.swap_apply_right _ _
      rw [last, Heap.modify_here, half]
      simp only [Equiv.prodCongr_apply, Prod.map_apply, back, Equiv.refl_apply, read, Option.map_some, Option.bind_some]
      cases field <;> rfl
    · by_cases start : owner = address
      · subst start
        have forth : Equiv.swap owner other owner = other := Equiv.swap_apply_left _ _
        rw [Heap.modify_other _ other owner takes last, Heap.modify_here, read]
        simp only [Equiv.prodCongr_apply, Prod.map_apply, forth, Equiv.refl_apply, seen, Option.map_some, Option.bind_some]
        cases field <;> rfl
      · have stays : Equiv.swap address other owner = owner := Equiv.swap_apply_of_ne_of_ne start last
        rw [Heap.modify_other _ other owner takes last, Heap.modify_other _ address owner gives start]
        simp only [Equiv.prodCongr_apply, Prod.map_apply, stays, Equiv.refl_apply]
  refine ⟨⟨?_, ?_⟩, taken⟩
  · intro owner cell found field
    by_cases last : owner = other
    · rw [last, Heap.modify_here, half] at found
      obtain rfl := Option.some.inj found
      have full := held.filled address here read field
      cases field <;> exact full
    · by_cases start : owner = address
      · rw [Heap.modify_other _ other owner takes last, start, Heap.modify_here, read] at found
        obtain rfl := Option.some.inj found
        have full := held.filled other there seen field
        cases field <;> exact full
      · rw [Heap.modify_other _ other owner takes last, Heap.modify_other _ address owner gives start] at found
        exact held.filled owner cell found field
  · rw [slots]
    exact owns_exchange held.owns (exchangedSlots address other)

end Slogger.Playlist
