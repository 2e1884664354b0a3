namespace DiagBus

/-- Names one use of one slot. -/
structure Handle where
  slot : UInt16
  generation : UInt16
  deriving DecidableEq

/-- A place in the table. The generation counts how often it was emptied, modulo 2^16. -/
structure Slot (α : Type) where
  value : Option α := none
  generation : UInt16 := 0

/-- The table: its slots, and how many of them are in use. -/
structure Slots (α : Type) where
  slots : List (Slot α)
  used : Nat := 0

variable {α : Type}

/-- A table of `capacity` empty slots. -/
def Slots.ofCapacity (capacity : Nat) : Slots α :=
  { slots := List.replicate capacity {} }

def Slots.capacity (table : Slots α) : Nat :=
  table.slots.length

/-- The number of slots in use. -/
def Slots.size (table : Slots α) : Nat :=
  table.used

def Slots.isEmpty (table : Slots α) : Bool :=
  table.used = 0

/-- The handle of the present use of slot `position`. -/
def handleAt (position : Nat) (slot : Slot α) : Handle :=
  { slot := position.toUInt16, generation := slot.generation }

/-- Puts a value into the first empty slot, if there is one. -/
def Slots.insert (table : Slots α) (value : α) : Option (Handle × Slots α) := do
  let position ← table.slots.findIdx? (·.value.isNone)
  let slot ← table.slots[position]?
  return (handleAt position slot,
    { slots := table.slots.set position { slot with value := some value }, used := table.used + 1 })

/-- The slot a handle names, if the handle is of the slot's present generation. -/
def Slots.slot? (table : Slots α) (handle : Handle) : Option (Slot α) :=
  table.slots[handle.slot.toNat]?.filter (·.generation = handle.generation)

/-- The value of a live handle. -/
def Slots.get? (table : Slots α) (handle : Handle) : Option α :=
  table.slot? handle |>.bind (·.value)

/-- Replaces the value of a live handle; a dead one changes nothing. -/
def Slots.set (table : Slots α) (handle : Handle) (value : α) : Slots α :=
  match table.slot? handle with
  | some { value := some _, generation } =>
    { table with slots := table.slots.set handle.slot.toNat { value := some value, generation } }
  | _ => table

/-- Empties the slot of a live handle and returns its value. The handle is dead from then on. -/
def Slots.erase (table : Slots α) (handle : Handle) : Option (α × Slots α) :=
  match table.slot? handle with
  | some { value := some value, generation } =>
    some (value, {
      slots := table.slots.set handle.slot.toNat { generation := generation + 1 }
      used := table.used - 1 })
  | _ => none

/-- The values with their live handles, by position. -/
def Slots.entries (table : Slots α) : List (Handle × α) :=
  table.slots.zipIdx.filterMap fun (slot, position) =>
    slot.value.map fun value => (handleAt position slot, value)

end DiagBus
