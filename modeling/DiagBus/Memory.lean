namespace DiagBus

/-- A message buffer; its size is fixed when it is taken from the budget. -/
structure Buffer where
  bytes : List UInt8
  deriving DecidableEq

def Buffer.size (buffer : Buffer) : Nat :=
  buffer.bytes.length

def Buffer.isEmpty (buffer : Buffer) : Bool :=
  buffer.bytes.isEmpty

/-- Overwrites the buffer from `offset` on with as much of `source` as fits, and says how many
bytes that is. Behind the end of the buffer nothing fits. -/
def Buffer.write (buffer : Buffer) (offset : Nat) (source : List UInt8) : Nat × Buffer :=
  let count := min (buffer.size - offset) source.length
  if buffer.size < offset then (0, buffer)
  else (count, { bytes := buffer.bytes.take offset ++ source.take count ++
    buffer.bytes.drop (offset + count) })

/-- The bytes that all buffers together may hold, and those they hold now. -/
structure Memory where
  capacity : Nat
  used : Nat := 0
  deriving DecidableEq

def Memory.available (memory : Memory) : Nat :=
  memory.capacity - memory.used

/-- Takes a buffer of `size` zero bytes. Empty buffers are not given out. -/
def Memory.allocate (memory : Memory) (size : Nat) : Option (Buffer × Memory) :=
  if size = 0 ∨ memory.available < size then none
  else some ({ bytes := List.replicate size 0 }, { memory with used := memory.used + size })

/-- Credits the bytes of a buffer back. -/
def Memory.release (memory : Memory) (buffer : Buffer) : Memory :=
  { memory with used := memory.used - buffer.size }

theorem Buffer.size_write (buffer : Buffer) (offset : Nat) (source : List UInt8) :
    (buffer.write offset source).2.size = buffer.size := by
  unfold Buffer.write
  split
  · rfl
  · simp only [Buffer.size, List.length_append, List.length_take, List.length_drop] at *
    omega

end DiagBus
