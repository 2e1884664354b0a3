import DiagBus.IsoTp.Events
import DiagBus.Raw

namespace DiagBus

/-- Registered interfaces, transport connections, raw subscriptions and timers. Frames come in through
`Stack.input` or by polling in `Stack.process`, and the confirmations of interfaces that confirm later
through `Stack.sent`. -/
structure Stack (ω : Type) where
  settings : Settings
  registry : Registry ω
  connections : Slots Connection
  memory : Memory
  alarms : TimerQueue Alarm
  confirmations : List Confirmation := []
  raw : Raw ω
  outside : Outside ω

variable {ω : Type}

namespace Stack

/-- A stack without interfaces and connections. -/
def new (settings : Settings) (world : ω) : Except Fault (Stack ω) := do
  settings.validate
  return {
    settings
    registry := .ofCapacity settings.interfaces
    connections := .ofCapacity settings.connections
    memory := { capacity := settings.memory }
    alarms := .ofCapacity settings.timers
    raw := .ofCapacity settings.subscriptions
    outside := { world } }

/-- The deadline of the first alarm. Nothing happens before it unless a frame arrives. -/
def nextAlarm (stack : Stack ω) : Option Tick :=
  stack.alarms.nextDeadline

/-- A connection with what the stack's connections share. -/
def exchange (stack : Stack ω) (connection : Connection) : Exchange ω where
  connection
  memory := stack.memory
  alarms := stack.alarms
  confirmations := stack.confirmations
  outside := stack.outside

/-- Takes an exchange back. -/
def restore (stack : Stack ω) (handle : Handle) (x : Exchange ω) : Stack ω :=
  { stack with
    connections := stack.connections.set handle x.connection
    memory := x.memory
    alarms := x.alarms
    confirmations := x.confirmations
    outside := x.outside }

def scope (stack : Stack ω) (now : Tick) (handle : Handle) : Scope ω where
  handle
  now
  settings := stack.settings
  registry := stack.registry

/-- Runs an operation on a live connection; on a dead one it does nothing. -/
def on (stack : Stack ω) (now : Tick) (handle : Handle)
    (operation : Exchange ω → Scope ω → Exchange ω) : Stack ω :=
  match stack.connections.get? handle with
  | none => stack
  | some connection =>
    stack.restore handle (operation (stack.exchange connection) (stack.scope now handle))

/-- Handles confirmations, and those that this brings about, at most `fuel` of them. -/
def settleWithin (now : Tick) : (fuel : Nat) → Stack ω → Stack ω
  | 0, stack => stack
  | fuel + 1, stack =>
    match stack.confirmations with
    | [] => stack
    | confirmation :: rest =>
      settleWithin now fuel <|
        { stack with confirmations := rest }.on now confirmation.connection
          (·.confirm · confirmation.direction)

/-- Handles all confirmations. Each one takes an entry from the list or a byte from a message, so
the entries and the bytes of all messages bound their number. -/
def settle (stack : Stack ω) (now : Tick) : Stack ω :=
  settleWithin now (stack.confirmations.length + stack.memory.used) stack

/-- Handles alarms that are due, at most `fuel` of them. -/
def checkAlarmsWithin (now : Tick) : (fuel : Nat) → Stack ω → Stack ω
  | 0, stack => stack
  | fuel + 1, stack =>
    match stack.alarms.popDue now with
    | none => stack
    | some (alarm, alarms) =>
      checkAlarmsWithin now fuel <|
        ({ stack with alarms }.on now alarm.connection (·.expire · alarm)).settle now

/-- Handles all alarms that are due. Only a separation time brings about another alarm that may be
due, and that one ends its transfer, so twice the pending alarms bound their number. -/
def checkAlarms (stack : Stack ω) (now : Tick) : Stack ω :=
  checkAlarmsWithin now (2 * stack.alarms.size) stack

/-- Registers an interface under the first free number. -/
def addInterface (stack : Stack ω) (interface : Interface ω) :
    Except Fault (InterfaceIndex × Stack ω) := do
  let (index, registry) ← stack.registry.add interface
  return (index, { stack with registry })

/-- Removes an interface; connections bound to it are not connected from then on. -/
def removeInterface (stack : Stack ω) (index : InterfaceIndex) : Except Fault (Stack ω) := do
  return { stack with registry := ← stack.registry.remove index }

/-- The first connection that passes the test. -/
def findConnection? (stack : Stack ω) (test : Connection → Bool) : Option Handle :=
  (stack.connections.entries.find? fun (_, connection) => test connection).map (·.1)

/-- Hands a received frame to the first connection it is addressed to. -/
def inputTransport (stack : Stack ω) (now : Tick) (index : InterfaceIndex) (frame : Frame) :
    Stack ω :=
  match stack.findConnection? (·.receives index frame.id) with
  | none => stack
  | some handle =>
    match Pdu.decode frame.payload with
    | none => stack
    | some pdu => stack.on now handle (·.receive · pdu)

/-- A frame was received. Raw subscriptions see it first; one they do not consume goes to the
transport. -/
def input (stack : Stack ω) (now : Tick) (index : InterfaceIndex) (frame : Frame) : Stack ω :=
  match stack.raw.input index frame stack.outside with
  | (true, raw, outside) => { stack with raw, outside }
  | (false, raw, outside) => ({ stack with raw, outside }.inputTransport now index frame).settle now

/-- The flow a confirmed frame belongs to, going by its payload. -/
def confirmedDirection (frame : Frame) : Direction :=
  if isFlowControl frame.payload then .input else .output

/-- Advances the first connection that waits for the confirmation of such a frame. -/
def sentTransport (stack : Stack ω) (now : Tick) (index : InterfaceIndex) (frame : Frame) :
    Stack ω :=
  let direction := confirmedDirection frame
  let awaits (connection : Connection) : Bool :=
    (connection.flow direction).unconfirmed && connection.transmits index frame.id
  match stack.findConnection? awaits with
  | none => stack
  | some handle => stack.on now handle (·.confirm · direction)

/-- A frame is on the bus that its interface did not confirm when it was handed over. -/
def sent (stack : Stack ω) (now : Tick) (index : InterfaceIndex) (frame : Frame) : Stack ω :=
  match stack.raw.sent index frame stack.outside with
  | (true, raw, outside) => { stack with raw, outside }
  | (false, raw, outside) => ({ stack with raw, outside }.sentTransport now index frame).settle now

/-- Polls an interface for received frames, at most `fuel` times. -/
def pollWithin (now : Tick) (index : InterfaceIndex) : (fuel : Nat) → Stack ω → Stack ω
  | 0, stack => stack
  | fuel + 1, stack =>
    match stack.registry.get? index with
    | none => stack
    | some interface =>
      match interface.receive stack.outside.world with
      | (none, world) => { stack with outside := { stack.outside with world } }
      | (some frame, world) =>
        pollWithin now index fuel <|
          { stack with outside := { stack.outside with world } }.input now index frame

/-- How often one call polls an interface, or lets the timers of a client fire, at most. No queue is
that long; only a loop that keeps feeding itself gets there. -/
def patience : Nat := 0x100000000

/-- Polls an interface until it has no frame. -/
def poll (stack : Stack ω) (now : Tick) (index : InterfaceIndex) : Stack ω :=
  pollWithin now index patience stack

/-- Polls every interface and handles the alarms that are due. -/
def process (stack : Stack ω) (now : Tick) : Stack ω :=
  (stack.registry.indexes.foldl (fun stack index => stack.poll now index) stack).checkAlarms now

/-- Opens a connection, which has no address yet. -/
def openConnection (stack : Stack ω) : Option (Handle × Stack ω) := do
  let (handle, connections) ← stack.connections.insert {}
  return (handle, { stack with connections })

/-- Changes a live connection. -/
def updateConnection (stack : Stack ω) (handle : Handle) (change : Connection → Connection) :
    Except Fault (Stack ω) :=
  match stack.connections.get? handle with
  | none => .error .argument
  | some connection =>
    .ok { stack with connections := stack.connections.set handle (change connection) }

/-- Gives a connection an address. This needs both flows idle, and an interface for flexible
data-rate frames if the address asks for them. -/
def bind (stack : Stack ω) (handle : Handle) (address : Address) : Except Fault (Stack ω) :=
  match stack.connections.get? handle with
  | none => .error .argument
  | some connection =>
    if !connection.output.isIdle || !connection.input.isIdle then .error .inProgress
    else if address.flexible && stack.registry.contains address.interface &&
        !stack.registry.isFlexible address.interface stack.outside.world then .error .argument
    else stack.updateConnection handle ({ · with address := some address })

/-- Closes a connection. Its transfers end without a word. -/
def close (stack : Stack ω) (handle : Handle) : Except Fault (Stack ω) :=
  match stack.connections.erase handle with
  | none => .error .argument
  | some (connection, connections) =>
    .ok { stack with
      connections
      memory := connection.input.release (connection.output.release stack.memory)
      alarms := stack.alarms.cancelAll (·.connection = handle) }

/-- Starts to send a message on a connection. -/
def send (stack : Stack ω) (now : Tick) (handle : Handle) (message : List UInt8) :
    Except Fault Unit × Stack ω :=
  match stack.connections.get? handle with
  | none => (.error .argument, stack.settle now)
  | some connection =>
    let (result, x) := (stack.exchange connection).send (stack.scope now handle) message
    (result, (stack.restore handle x).settle now)

/-- The phases of the sending and the receiving flow. -/
def phases (stack : Stack ω) (handle : Handle) : Except Fault (Phase × Phase) :=
  match stack.connections.get? handle with
  | none => .error .argument
  | some connection => .ok (connection.output.phase, connection.input.phase)

/-- Opens a raw subscription to an interface. -/
def subscribe (stack : Stack ω) (index : InterfaceIndex) : Option (Handle × Stack ω) := do
  let (handle, raw) ← stack.raw.open index
  return (handle, { stack with raw })

/-- Changes a live raw subscription. -/
def updateSubscription (stack : Stack ω) (handle : Handle)
    (change : Subscription ω → Subscription ω) : Except Fault (Stack ω) := do
  return { stack with raw := ← stack.raw.update handle change }

/-- Moves a raw subscription to another interface. -/
def rebind (stack : Stack ω) (handle : Handle) (index : InterfaceIndex) :
    Except Fault (Stack ω) := do
  return { stack with raw := ← stack.raw.bind handle index }

/-- Ends a raw subscription. -/
def unsubscribe (stack : Stack ω) (handle : Handle) : Except Fault (Stack ω) := do
  return { stack with raw := ← stack.raw.close handle }

/-- Sends a frame through a raw subscription. -/
def sendFrame (stack : Stack ω) (handle : Handle) (frame : Frame) :
    Except Fault Unit × Stack ω :=
  let (result, raw, outside) := stack.raw.send handle frame stack.registry stack.outside
  (result, { stack with raw, outside })

end Stack

end DiagBus
