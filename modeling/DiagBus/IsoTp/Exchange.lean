import DiagBus.IsoTp.Connection
import DiagBus.IsoTp.Segmentation
import DiagBus.TimerQueue

namespace DiagBus

/-- What an operation on a connection may look at but not change. -/
structure Scope (ω : Type) where
  /-- The connection. -/
  handle : Handle
  now : Tick
  settings : Settings
  registry : Registry ω

/-- A connection and what it shares with the others. -/
structure Exchange (ω : Type) where
  connection : Connection
  memory : Memory
  alarms : TimerQueue Alarm
  /-- Frames confirmed by their interface at once, to be handled before the call ends. -/
  confirmations : List Confirmation
  outside : Outside ω

variable {ω : Type}

namespace Exchange

def setFlow (x : Exchange ω) (flow : Flow) (direction : Direction) : Exchange ω :=
  { x with connection := x.connection.setFlow flow direction }

/-- Tells a listener, if there is one. -/
def report (x : Exchange ω) (listener : Option Listener) (news : Listener → Signal) : Exchange ω :=
  match listener with
  | none => x
  | some listener => { x with outside := x.outside.tell (news listener) }

def cancel (x : Exchange ω) (alarm : Alarm) : Exchange ω :=
  { x with alarms := x.alarms.cancel alarm }

/-- Starts an alarm afresh. If all timers are taken it stays off. -/
def arm (x : Exchange ω) (scope : Scope ω) (delay : Tick) (alarm : Alarm) : Exchange ω :=
  let x := x.cancel alarm
  match x.alarms.schedule scope.now delay alarm with
  | .ok alarms => { x with alarms }
  | .error _ => x

/-- Cancels the alarms of one flow. -/
def disarm (x : Exchange ω) (scope : Scope ω) : Direction → Exchange ω
  | .output => (x.cancel (.output scope.handle)).cancel (.separation scope.handle)
  | .input => x.cancel (.input scope.handle)

/-- Makes a flow idle and returns its buffer. -/
def reset (x : Exchange ω) (direction : Direction) : Exchange ω :=
  { x.setFlow {} direction with memory := (x.connection.flow direction).release x.memory }

/-- Ends the transfer of a flow early. -/
def abort (x : Exchange ω) (scope : Scope ω) (direction : Direction) (fault : Fault) :
    Exchange ω :=
  ((x.reset direction).disarm scope direction).report x.connection.onFailed
    (.failed · scope.handle fault)

/-- Notes a confirmation; every flow has at most one frame unconfirmed, so there is room. -/
def enqueue (x : Exchange ω) (scope : Scope ω) (direction : Direction) : Exchange ω :=
  if x.confirmations.length < 2 * scope.settings.connections then
    { x with confirmations := x.confirmations ++ [{ connection := scope.handle, direction }] }
  else x

/-- Starts the alarm that ends the wait for the confirmation of a frame. -/
def armConfirmation (x : Exchange ω) (scope : Scope ω) : Direction → Exchange ω
  | .output => x.arm scope scope.settings.confirmOutput (.output scope.handle)
  | .input => x.arm scope scope.settings.confirmInput (.input scope.handle)

/-- Hands a frame of a flow to the interface. A frame that is not confirmed at once is awaited. -/
def handOver (x : Exchange ω) (scope : Scope ω) (direction : Direction) (index : InterfaceIndex)
    (frame : Frame) (flow : Flow) : Except Fault Unit × Exchange ω :=
  let x := x.setFlow flow direction
  match scope.registry.hand (.flow scope.handle direction) index frame x.outside with
  | (.error fault, outside) => (.error fault, { x with outside })
  | (.ok confirmed, outside) =>
    let x := { x with outside }.setFlow { flow with unconfirmed := true } direction
    (.ok (), if confirmed then x.enqueue scope direction else x.armConfirmation scope direction)

/-- Sends the next frame of a flow. -/
def transmit (x : Exchange ω) (scope : Scope ω) (direction : Direction) :
    Except Fault Unit × Exchange ω :=
  match x.connection.address with
  | none => (.error .notConnected, x)
  | some address =>
    let encoder := address.encoder scope.settings
    match direction with
    | .output =>
      match encoder.nextFrame? x.connection.output with
      | none => (.error .argument, x)
      | some (frame, flow) => x.handOver scope .output address.interface frame flow
    | .input =>
      let flow := x.connection.input
      let frame := encoder.flowControl (flow.status.getD .continueToSend) flow.blockSize
        scope.settings.separation
      x.handOver scope .input address.interface frame flow

/-- Sends the next frame of a flow; if that fails the transfer ends. -/
def advance (x : Exchange ω) (scope : Scope ω) (direction : Direction) : Exchange ω :=
  match x.transmit scope direction with
  | (.ok (), x) => x
  | (.error fault, x) => x.abort scope direction fault

end Exchange

end DiagBus
