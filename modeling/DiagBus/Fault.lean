namespace DiagBus

/-- Why a call fails, or why a transfer in flight ends early. -/
inductive Fault
  /-- An unknown handle, an empty message, a message that is too long. -/
  | argument
  /-- The controller refused a frame. -/
  | interface
  /-- No further interface can be registered. -/
  | interfaceLimit
  /-- A table or the message memory is exhausted. -/
  | memory
  /-- A frame was not confirmed, or the peer sent no flow control, in time. -/
  | transmitTimeout
  /-- The peer did not send its next frame in time. -/
  | receiveTimeout
  /-- The flow is busy with another transfer. -/
  | inProgress
  /-- The peer overflowed, sent a reserved flow status or asked to wait too often. -/
  | flowStatus
  /-- A consecutive frame came out of order. -/
  | frameSequence
  /-- The connection is not bound to a registered interface. -/
  | notConnected
  deriving DecidableEq

/-- All faults, in the order of their codes. -/
def Fault.all : List Fault :=
  [.argument, .interface, .interfaceLimit, .memory, .transmitTimeout, .receiveTimeout, .inProgress,
    .flowStatus, .frameSequence, .notConnected]

/-- The code of a fault: the codes run downwards from -1. -/
def Fault.code : Fault → Int
  | .argument => -1
  | .interface => -2
  | .interfaceLimit => -3
  | .memory => -4
  | .transmitTimeout => -5
  | .receiveTimeout => -6
  | .inProgress => -7
  | .flowStatus => -8
  | .frameSequence => -9
  | .notConnected => -10

/-- The fault of a code, if the code belongs to one. -/
def Fault.ofCode? (code : Int) : Option Fault :=
  Fault.all.find? fun fault => fault.code = code

/-- The wording of a fault. -/
def Fault.message : Fault → String
  | .argument => "invalid argument"
  | .interface => "can interface failure"
  | .interfaceLimit => "can interface limit reached"
  | .memory => "out of memory"
  | .transmitTimeout => "transmit timeout"
  | .receiveTimeout => "receive timeout"
  | .inProgress => "operation in progress"
  | .flowStatus => "unexpected flow status"
  | .frameSequence => "frame sequence error"
  | .notConnected => "not connected"

/-- Why a controller does not take a frame. -/
inductive Refusal
  /-- There is no room for the frame right now. -/
  | wouldBlock
  /-- The controller cannot represent the frame. -/
  | unsupported
  /-- Any other failure of the controller. -/
  | driver
  deriving DecidableEq

/-- The wording of a refusal. -/
def Refusal.message : Refusal → String
  | .wouldBlock => "transmit queue full"
  | .unsupported => "frame not supported by driver"
  | .driver => "driver error"

/-- Every refusal reaches the caller as one fault; the reason stays with the controller. -/
def Refusal.fault : Refusal → Fault
  | _ => .interface

theorem Fault.ofCode?_code (fault : Fault) : Fault.ofCode? fault.code = some fault := by
  cases fault <;> rfl

end DiagBus
