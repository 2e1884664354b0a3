import DiagBus.IsoTp.Pdu
import DiagBus.Memory

namespace DiagBus

inductive Phase
  /-- No transfer. -/
  | idle
  /-- The frame of a whole message was handed over. -/
  | singleOut
  /-- The first frame of a message was handed over. -/
  | firstOut
  /-- Consecutive frames are being sent. -/
  | consecutiveOut
  /-- A flow control frame was handed over. -/
  | controlOut
  /-- The peer's next consecutive frame is awaited. -/
  | consecutiveIn
  /-- The peer's flow control is awaited. -/
  | controlIn
  deriving DecidableEq

/-- The state of one flow. -/
structure Flow where
  phase : Phase := .idle
  /-- The message, or what has arrived of it. -/
  buffer : Option Buffer := none
  /-- The length of the message. -/
  total : Nat := 0
  /-- Bytes still to be sent or received. -/
  remaining : Nat := 0
  /-- Sequence number of the next consecutive frame. -/
  sequence : UInt8 := 0
  /-- The status to send, or the one last received. -/
  status : Option FlowStatus := none
  /-- Frames per block; 0 stands for no end. -/
  blockSize : UInt8 := 0
  /-- Milliseconds between two consecutive frames. -/
  separation : Tick := 0
  /-- Consecutive frames in this block so far. -/
  blockCount : UInt8 := 0
  /-- How often the peer may still ask to wait. -/
  waitsLeft : UInt8 := 0
  /-- Whether a frame was handed over and is not yet confirmed. -/
  unconfirmed : Bool := false
  deriving DecidableEq

def Flow.isIdle (flow : Flow) : Bool :=
  flow.phase = .idle

/-- The position of the next byte to be sent or received. -/
def Flow.offset (flow : Flow) : Nat :=
  flow.total - flow.remaining

/-- Sequence numbers have four bits and start over at 0. -/
def nextSequence (sequence : UInt8) : UInt8 :=
  (sequence + 1) &&& 0x0F

/-- Whether the block has all its frames. -/
def Flow.blockComplete (flow : Flow) : Bool :=
  flow.blockSize ≠ 0 ∧ flow.blockSize ≤ flow.blockCount

/-- Counts a frame of the block; the counter stops at 255. -/
def Flow.countFrame (flow : Flow) : Flow :=
  { flow with blockCount := if flow.blockCount = 0xFF then 0xFF else flow.blockCount + 1 }

/-- The memory without the flow's buffer. -/
def Flow.release (flow : Flow) (memory : Memory) : Memory :=
  match flow.buffer with
  | none => memory
  | some buffer => memory.release buffer

end DiagBus
