import DiagBus.Memory
import DiagBus.Proofs.TimerQueue

namespace DiagBus

/-- Why a program stops in the middle. -/
inductive Trap
  /-- The result is too large or below zero. -/
  | overflow
  /-- A position or a slice is not inside the list. -/
  | range
  /-- A slice is overwritten by bytes of another number. -/
  | mismatch
  /-- A queue is made that has no room. -/
  | room
  deriving DecidableEq

/-- What a program comes to on a machine. -/
abbrev Checked := Except Trap

/-- A machine, by the largest number that lengths and positions may have. -/
class Machine where
  largest : Nat
  wide : 0xFFFFFFFF ≤ largest

namespace Checked

variable {α β : Type}

def add [Machine] (a b : Nat) : Checked Nat :=
  if a + b ≤ Machine.largest then .ok (a + b) else .error .overflow

def mul [Machine] (a b : Nat) : Checked Nat :=
  if a * b ≤ Machine.largest then .ok (a * b) else .error .overflow

def sub (a b : Nat) : Checked Nat :=
  if b ≤ a then .ok (a - b) else .error .overflow

def addByte (a b : UInt8) : Checked UInt8 :=
  if a.toNat + b.toNat ≤ 0xFF then .ok (a + b) else .error .overflow

def subByte (a b : UInt8) : Checked UInt8 :=
  if b ≤ a then .ok (a - b) else .error .overflow

/-- The item at a position. -/
def read (list : List α) (position : Nat) : Checked α :=
  match list[position]? with
  | none => .error .range
  | some item => .ok item

def write (list : List α) (position : Nat) (item : α) : Checked (List α) :=
  if position < list.length then .ok (list.set position item) else .error .range

/-- The list without the item at a position. -/
def remove (list : List α) (position : Nat) : Checked (List α) :=
  if position < list.length then .ok (list.eraseIdx position) else .error .range

/-- The items from one position on up to another. -/
def slice (list : List α) (start stop : Nat) : Checked (List α) :=
  if start ≤ stop ∧ stop ≤ list.length then .ok ((list.take stop).drop start) else .error .range

/-- The list after the items between two positions were overwritten. -/
def overwrite (list : List α) (start stop : Nat) (items : List α) : Checked (List α) :=
  if start ≤ stop ∧ stop ≤ list.length then
    if items.length = stop - start then .ok (list.take start ++ items ++ list.drop stop)
    else .error .mismatch
  else .error .range

@[simp]
theorem ok_bind (value : α) (next : α → Checked β) :
    (.ok value : Checked α) >>= next = next value :=
  rfl

theorem add_eq [Machine] {a b : Nat} (fits : a + b ≤ Machine.largest) : add a b = .ok (a + b) :=
  if_pos fits

theorem mul_eq [Machine] {a b : Nat} (fits : a * b ≤ Machine.largest) : mul a b = .ok (a * b) :=
  if_pos fits

theorem sub_eq {a b : Nat} (fits : b ≤ a) : sub a b = .ok (a - b) :=
  if_pos fits

theorem addByte_eq {a b : UInt8} (fits : a.toNat + b.toNat ≤ 0xFF) : addByte a b = .ok (a + b) :=
  if_pos fits

theorem subByte_eq {a b : UInt8} (fits : b ≤ a) : subByte a b = .ok (a - b) :=
  if_pos fits

theorem read_eq {list : List α} {position : Nat} {item : α} (here : list[position]? = some item) :
    read list position = .ok item := by
  unfold read
  rw [here]

theorem write_eq {list : List α} {position : Nat} (inside : position < list.length) (item : α) :
    write list position item = .ok (list.set position item) :=
  if_pos inside

theorem remove_eq {list : List α} {position : Nat} (inside : position < list.length) :
    remove list position = .ok (list.eraseIdx position) :=
  if_pos inside

theorem slice_eq {list : List α} {start stop : Nat} (ordered : start ≤ stop)
    (inside : stop ≤ list.length) : slice list start stop = .ok ((list.take stop).drop start) :=
  if_pos ⟨ordered, inside⟩

theorem overwrite_eq {list items : List α} {start stop : Nat} (ordered : start ≤ stop)
    (inside : stop ≤ list.length) (same : items.length = stop - start) :
    overwrite list start stop items = .ok (list.take start ++ items ++ list.drop stop) := by
  unfold overwrite
  rw [if_pos ⟨ordered, inside⟩, if_pos same]

end Checked

section

variable {α : Type} {table : Slots α}

/-- Puts a value into the first empty slot and counts it. -/
def Slots.checkedInsert [Machine] (table : Slots α) (value : α) :
    Checked (Option (Handle × Slots α)) :=
  match table.slots.findIdx? (·.value.isNone) with
  | none => .ok none
  | some position => do
    let slot ← Checked.read table.slots position
    let slots ← Checked.write table.slots position { slot with value := some value }
    let used ← Checked.add table.used 1
    .ok (some (handleAt position slot, { slots, used }))

/-- Empties the slot of a live handle and counts that. -/
def Slots.checkedErase (table : Slots α) (handle : Handle) : Checked (Option (α × Slots α)) :=
  match table.slot? handle with
  | some { value := some value, generation } => do
    let used ← Checked.sub table.used 1
    .ok (some (value, {
      slots := table.slots.set handle.slot.toNat { generation := generation + 1 }
      used }))
  | _ => .ok none

theorem Slots.checkedInsert_eq [Machine] (wellFormed : table.WellFormed) (value : α) :
    table.checkedInsert value = .ok (table.insert value) := by
  have room : table.used + 1 ≤ Machine.largest := by
    have numbered : table.capacity ≤ 0x10000 := wellFormed.numbered
    have bound := Slots.used_le_capacity wellFormed
    have wide := Machine.wide
    omega
  unfold checkedInsert insert
  cases found : table.slots.findIdx? (·.value.isNone) with
  | none => rfl
  | some position =>
    have inside : position < table.slots.length :=
      (List.findIdx?_eq_some_iff_findIdx_eq.mp found).1
    have here := List.getElem?_eq_getElem inside
    simp [Checked.read_eq here, Checked.write_eq inside, Checked.add_eq room, here]

theorem Slots.checkedErase_eq (wellFormed : table.WellFormed) (handle : Handle) :
    table.checkedErase handle = .ok (table.erase handle) := by
  unfold checkedErase erase
  rcases entry : table.slot? handle with _ | ⟨_ | value, generation⟩
  · rfl
  · rfl
  · have live : table.get? handle = some value := by simp [Slots.get?, entry]
    have counted : 1 ≤ table.used := by
      have erased := (Slots.erase_wellFormed wellFormed (Slots.erase_eq live)).2
      omega
    simp only [Checked.sub_eq counted, Checked.ok_bind]

theorem Slots.WellFormed.set (wellFormed : table.WellFormed) (handle : Handle) (value : α) :
    (table.set handle value).WellFormed := by
  cases live : table.get? handle with
  | some old => exact Slots.set_wellFormed value wellFormed live
  | none =>
    rw [Slots.set_dead live]
    exact wellFormed

end

section

variable {ε : Type} {queue : TimerQueue ε}

def TimerQueue.checkedSchedule [Machine] (queue : TimerQueue ε) (now delay : Tick) (event : ε) :
    Checked (Except Fault (TimerQueue ε)) := do
  let deadline := now.after delay
  let earlier := queue.chain.takeWhile fun link => !deadline.before link.2.deadline
  match ← queue.timers.checkedInsert { deadline, event, next := behind queue.head earlier } with
  | none => .ok (.error .memory)
  | some (handle, timers) =>
    .ok (.ok ({ queue with timers }.follow (lastHandle earlier) (some handle)))

def TimerQueue.checkedDiscard (queue : TimerQueue ε) (handle : Handle) : Checked (TimerQueue ε) := do
  match ← queue.timers.checkedErase handle with
  | none => .ok queue
  | some (_, timers) => .ok { queue with timers }

def TimerQueue.checkedRemoveFirst (queue : TimerQueue ε) (test : ε → Bool) :
    Checked (TimerQueue ε) :=
  let earlier := queue.chain.takeWhile fun (_, timer) => !test timer.event
  match queue.chain.drop earlier.length with
  | [] => .ok queue
  | (handle, timer) :: _ => (queue.follow (lastHandle earlier) timer.next).checkedDiscard handle

def TimerQueue.checkedCancel [DecidableEq ε] (queue : TimerQueue ε) (event : ε) :
    Checked (TimerQueue ε) :=
  queue.checkedRemoveFirst (· = event)

def TimerQueue.checkedCancelFrom (test : ε → Bool) :
    Nat → (previous current : Option Handle) → TimerQueue ε → Checked (TimerQueue ε)
  | 0, _, _, queue => .ok queue
  | _, _, none, queue => .ok queue
  | fuel + 1, previous, some handle, queue =>
    match queue.timers.get? handle with
    | none => .ok queue
    | some timer =>
      if test timer.event then do
        let queue ← (queue.follow previous timer.next).checkedDiscard handle
        checkedCancelFrom test fuel previous timer.next queue
      else checkedCancelFrom test fuel (some handle) timer.next queue

def TimerQueue.checkedCancelAll (queue : TimerQueue ε) (test : ε → Bool) : Checked (TimerQueue ε) :=
  checkedCancelFrom test queue.size none queue.head queue

def TimerQueue.checkedPopDue (queue : TimerQueue ε) (now : Tick) :
    Checked (Option (ε × TimerQueue ε)) :=
  match queue.first? with
  | none => .ok none
  | some (handle, timer) =>
    if now.before timer.deadline then .ok none
    else do
      match ← queue.timers.checkedErase handle with
      | none => .ok none
      | some (timer, timers) => .ok (some (timer.event, { timers, head := timer.next }))

theorem TimerQueue.checkedSchedule_eq [Machine] (linked : queue.Linked) (now delay : Tick)
    (event : ε) : queue.checkedSchedule now delay event = .ok (queue.schedule now delay event) := by
  rw [TimerQueue.schedule_eq]
  unfold checkedSchedule
  simp only [Slots.checkedInsert_eq linked.wellFormed, Checked.ok_bind]
  generalize queue.timers.insert _ = inserted
  cases inserted <;> rfl

theorem TimerQueue.follow_wellFormed (wellFormed : queue.timers.WellFormed)
    (previous next : Option Handle) : (queue.follow previous next).timers.WellFormed := by
  unfold TimerQueue.follow
  split
  · exact wellFormed
  · exact wellFormed.set _ _

theorem TimerQueue.discard_wellFormed (wellFormed : queue.timers.WellFormed) (handle : Handle) :
    (queue.discard handle).timers.WellFormed := by
  unfold TimerQueue.discard
  split
  · exact wellFormed
  · rename_i run
    exact (Slots.erase_wellFormed wellFormed run).1

theorem TimerQueue.checkedDiscard_eq (wellFormed : queue.timers.WellFormed) (handle : Handle) :
    queue.checkedDiscard handle = .ok (queue.discard handle) := by
  unfold checkedDiscard discard
  rw [Slots.checkedErase_eq wellFormed, Checked.ok_bind]
  cases queue.timers.erase handle <;> rfl

theorem TimerQueue.checkedRemoveFirst_eq (linked : queue.Linked) (test : ε → Bool) :
    queue.checkedRemoveFirst test = .ok (queue.removeFirst test) := by
  unfold checkedRemoveFirst removeFirst
  simp only []
  generalize (queue.chain.takeWhile fun link => !test link.2.event) = earlier
  cases queue.chain.drop earlier.length with
  | nil => rfl
  | cons link rest =>
    exact checkedDiscard_eq (TimerQueue.follow_wellFormed linked.wellFormed _ _) link.1

theorem TimerQueue.checkedCancel_eq [DecidableEq ε] (linked : queue.Linked) (event : ε) :
    queue.checkedCancel event = .ok (queue.cancel event) :=
  checkedRemoveFirst_eq linked _

theorem TimerQueue.checkedCancelFrom_eq (wellFormed : queue.timers.WellFormed) (test : ε → Bool)
    (fuel : Nat) (previous current : Option Handle) :
    queue.checkedCancelFrom test fuel previous current =
      .ok (queue.cancelFrom test fuel previous current) := by
  induction fuel generalizing queue previous current with
  | zero => rfl
  | succ fuel ih =>
    cases current with
    | none => rfl
    | some handle =>
      simp only [checkedCancelFrom, cancelFrom]
      cases queue.timers.get? handle with
      | none => rfl
      | some timer =>
        have followed := TimerQueue.follow_wellFormed wellFormed previous timer.next
        simp only [checkedDiscard_eq followed, Checked.ok_bind, ih wellFormed,
          ih (TimerQueue.discard_wellFormed followed handle)]
        split <;> rfl

theorem TimerQueue.checkedCancelAll_eq (linked : queue.Linked) (test : ε → Bool) :
    queue.checkedCancelAll test = .ok (queue.cancelAll test) :=
  checkedCancelFrom_eq linked.wellFormed test _ _ _

theorem TimerQueue.checkedPopDue_eq (linked : queue.Linked) (now : Tick) :
    queue.checkedPopDue now = .ok (queue.popDue now) := by
  unfold checkedPopDue popDue
  cases queue.first? with
  | none => rfl
  | some first =>
    obtain ⟨handle, timer⟩ := first
    simp only [Slots.checkedErase_eq linked.wellFormed, Checked.ok_bind]
    cases early : now.before timer.deadline with
    | true => simp [early]
    | false => cases erased : queue.timers.erase handle <;> simp [early, erased]

end

section

variable {memory : Memory}

def Memory.checkedAllocate [Machine] (memory : Memory) (size : Nat) :
    Checked (Option (Buffer × Memory)) :=
  if size = 0 then .ok none
  else do
    let available ← Checked.sub memory.capacity memory.used
    if available < size then .ok none
    else
      let used ← Checked.add memory.used size
      .ok (some ({ bytes := List.replicate size 0 }, { memory with used }))

/-- Copies as much of `source` into the buffer as fits behind `offset`. -/
def Buffer.checkedWrite (buffer : Buffer) (offset : Nat) (source : List UInt8) :
    Checked (Nat × Buffer) :=
  if buffer.size < offset then .ok (0, buffer)
  else do
    let count := min (buffer.size - offset) source.length
    let part ← Checked.slice source 0 count
    let bytes ← Checked.overwrite buffer.bytes offset (offset + count) part
    .ok (count, { bytes })

theorem Memory.checkedAllocate_eq [Machine] (within : memory.used ≤ memory.capacity)
    (fits : memory.capacity ≤ Machine.largest) (size : Nat) :
    memory.checkedAllocate size = .ok (memory.allocate size) := by
  unfold checkedAllocate
  by_cases empty : size = 0
  · rw [if_pos empty, Memory.allocate, if_pos (Or.inl empty)]
  · rw [if_neg empty, Checked.sub_eq within, Checked.ok_bind]
    by_cases scarce : memory.available < size
    · have less : memory.capacity - memory.used < size := scarce
      rw [if_pos less, Memory.allocate, if_pos (Or.inr scarce)]
    · have enough : ¬memory.capacity - memory.used < size := scarce
      have room : memory.used + size ≤ Machine.largest := by omega
      rw [if_neg enough, Checked.add_eq room, Checked.ok_bind, Memory.allocate, if_neg]
      exact not_or.mpr ⟨empty, scarce⟩

theorem Buffer.checkedWrite_eq (buffer : Buffer) (offset : Nat) (source : List UInt8) :
    buffer.checkedWrite offset source = .ok (buffer.write offset source) := by
  unfold checkedWrite write
  by_cases behind : buffer.size < offset
  · rw [if_pos behind, if_pos behind]
  · rw [if_neg behind, if_neg behind]
    generalize count_eq : min (buffer.size - offset) source.length = count
    have bound : count ≤ source.length := by omega
    have inside : offset + count ≤ buffer.bytes.length := by
      show _ ≤ buffer.size
      omega
    have length : (source.take count).length = offset + count - offset := by
      rw [List.length_take]
      omega
    simp only [Checked.slice_eq (Nat.zero_le _) bound, Checked.ok_bind, List.drop_zero,
      Checked.overwrite_eq (Nat.le_add_right _ _) inside length]

end

end DiagBus
