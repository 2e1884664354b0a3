import DiagBus.Interface
import DiagBus.Slots

namespace DiagBus

/-- One of the two flows of a connection. -/
inductive Direction
  | output
  | input
  deriving DecidableEq

/-- Who hands over a frame: a flow of a connection, or a raw subscription. -/
inductive Origin
  | flow (connection : Handle) (direction : Direction)
  | raw (subscription : Handle)
  deriving DecidableEq

/-- Who is told: the application or a diagnostic client, each under a number of its own choice. -/
inductive Listener
  | application (number : Nat)
  | client (number : Nat)
  deriving DecidableEq

inductive Signal
  /-- The controller took a frame. -/
  | handed (origin : Origin) (index : InterfaceIndex) (frame : Frame)
  /-- The controller refused a frame. -/
  | refused (origin : Origin) (index : InterfaceIndex) (frame : Frame) (reason : Refusal)
  /-- A message was received. -/
  | received (listener : Listener) (connection : Handle) (message : List UInt8)
  /-- A message of this length was sent. -/
  | sent (listener : Listener) (connection : Handle) (length : Nat)
  /-- A transfer ended early. -/
  | failed (listener : Listener) (connection : Handle) (fault : Fault)
  /-- A received frame was offered to a raw subscription. -/
  | offered (listener : Listener) (subscription : Handle) (frame : Frame) (consumed : Bool)
  /-- A frame of a raw subscription is on the bus. -/
  | frameSent (listener : Listener) (subscription : Handle) (frame : Frame)
  deriving DecidableEq

/-- The world outside the stack, and the signals it was given so far. -/
structure Outside (ω : Type) where
  world : ω
  signals : List Signal := []

variable {ω : Type}

def Outside.tell (outside : Outside ω) (signal : Signal) : Outside ω :=
  { outside with signals := outside.signals ++ [signal] }

/-- Hands a frame to a registered interface. The answer says whether the frame is confirmed
already. -/
def Registry.hand (registry : Registry ω) (origin : Origin) (index : InterfaceIndex)
    (frame : Frame) (outside : Outside ω) : Except Fault Bool × Outside ω :=
  match registry.get? index with
  | none => (.error .notConnected, outside)
  | some interface =>
    match interface.output frame outside.world with
    | (.error reason, world) =>
      (.error reason.fault, { outside with world }.tell (.refused origin index frame reason))
    | (.ok (), world) =>
      (.ok (!interface.confirmsLater world),
        { outside with world }.tell (.handed origin index frame))

end DiagBus
