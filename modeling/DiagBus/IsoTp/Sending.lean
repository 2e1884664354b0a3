import DiagBus.IsoTp.Exchange

namespace DiagBus

variable {ω : Type}

namespace Exchange

/-- The address a message goes to, if the connection can send it now. -/
def accept (x : Exchange ω) (scope : Scope ω) (message : List UInt8) : Except Fault Address :=
  if message.isEmpty then .error .argument
  else
    match x.connection.address with
    | none => .error .notConnected
    | some address =>
      if !scope.registry.contains address.interface then .error .notConnected
      else if address.flexible && !scope.registry.isFlexible address.interface x.outside.world then
        .error .argument
      else if (address.encoder scope.settings).messageLimit < message.length then .error .argument
      else if !x.connection.output.isIdle then .error .inProgress
      else .ok address

/-- The sending flow of a message that is about to be sent. -/
def outputFlow (scope : Scope ω) (address : Address) (buffer : Buffer) : Flow where
  phase :=
    if buffer.size ≤ (address.encoder scope.settings).singleCapacity then .singleOut else .firstOut
  buffer := some buffer
  total := buffer.size
  remaining := buffer.size
  sequence := 1
  waitsLeft := scope.settings.waitLimit

/-- Starts to send a message. If its first frame is refused nothing is left of it. -/
def send (x : Exchange ω) (scope : Scope ω) (message : List UInt8) :
    Except Fault Unit × Exchange ω :=
  match x.accept scope message with
  | .error fault => (.error fault, x)
  | .ok address =>
    match x.memory.allocate message.length with
    | none => (.error .memory, x)
    | some (buffer, memory) =>
      let flow := outputFlow scope address (buffer.write 0 message).2
      match ({ x with memory }.setFlow flow .output).transmit scope .output with
      | (.ok (), x) => (.ok (), x)
      | (.error fault, x) => (.error fault, (x.reset .output).disarm scope .output)

/-- Ends the transfer of the sending flow with success. -/
def finishSend (x : Exchange ω) (scope : Scope ω) : Exchange ω :=
  (x.reset .output).report x.connection.onSent (.sent · scope.handle x.connection.output.total)

/-- Lets the sending flow wait for flow control. -/
def awaitControl (x : Exchange ω) (scope : Scope ω) (flow : Flow) : Exchange ω :=
  (x.setFlow { flow with phase := .controlIn } .output).arm scope scope.settings.awaitFlowControl
    (.output scope.handle)

/-- The last frame of the sending flow is on the bus. -/
def confirmOutput (x : Exchange ω) (scope : Scope ω) : Exchange ω :=
  if !x.connection.output.unconfirmed then x
  else
    let flow := { x.connection.output with unconfirmed := false }
    let x := (x.setFlow flow .output).cancel (.output scope.handle)
    match flow.phase with
    | .singleOut => x.finishSend scope
    | .firstOut => x.awaitControl scope flow
    | .consecutiveOut =>
      if flow.remaining = 0 then x.finishSend scope
      else
        let flow := flow.countFrame
        if flow.blockComplete then x.awaitControl scope flow
        else
          let x := x.setFlow flow .output
          if flow.separation = 0 then x.advance scope .output
          else x.arm scope flow.separation (.separation scope.handle)
    | _ => x

/-- The peer lets the sending flow go on, asks it to wait, or ends the transfer. -/
def receiveControl (x : Exchange ω) (scope : Scope ω) (status : FlowStatus)
    (blockSize separation : UInt8) : Exchange ω :=
  let flow := x.connection.output
  if flow.phase ≠ .controlIn then x
  else
    let flow := { flow with status := some status }
    match status with
    | .continueToSend =>
      let flow := { flow with
        phase := .consecutiveOut
        blockSize
        separation := separationTime separation
        blockCount := 0
        waitsLeft := scope.settings.waitLimit }
      ((x.cancel (.output scope.handle)).setFlow flow .output).advance scope .output
    | .wait =>
      if flow.waitsLeft = 0 then (x.setFlow flow .output).abort scope .output .flowStatus
      else
        (x.setFlow { flow with waitsLeft := flow.waitsLeft - 1 } .output).arm scope
          scope.settings.awaitFlowControl (.output scope.handle)
    | _ => (x.setFlow flow .output).abort scope .output .flowStatus

end Exchange

end DiagBus
