import DiagBus.IsoTp.Exchange

namespace DiagBus

variable {ω : Type}

namespace Exchange

/-- A whole message came in one frame. It is dropped while another one is being received. -/
def receiveSingle (x : Exchange ω) (scope : Scope ω) (message : List UInt8) : Exchange ω :=
  if x.connection.input.isIdle then
    x.report x.connection.onReceived (.received · scope.handle message)
  else x

/-- A message of `length` bytes starts. Without memory for it the peer is told of the overflow. -/
def receiveFirst (x : Exchange ω) (scope : Scope ω) (length : Nat) (data : List UInt8) :
    Exchange ω :=
  if !x.connection.input.isIdle then x
  else if length ≤ data.length then x
  else
    match x.memory.allocate length with
    | some (buffer, memory) =>
      let (count, buffer) := buffer.write 0 data
      let flow : Flow := {
        phase := .controlOut
        buffer := some buffer
        total := length
        remaining := length - count
        sequence := 1
        status := some .continueToSend
        blockSize := scope.settings.blockSize }
      ({ x with memory }.setFlow flow .input).advance scope .input
    | none =>
      let flow : Flow := { phase := .controlOut, status := some .overflow }
      ((x.setFlow flow .input).report x.connection.onFailed
        (.failed · scope.handle .memory)).advance scope .input

/-- The whole message has arrived. -/
def finishReceive (x : Exchange ω) (scope : Scope ω) (buffer : Option Buffer) : Exchange ω :=
  match buffer with
  | none => x.reset .input
  | some buffer =>
    (x.reset .input).report x.connection.onReceived (.received · scope.handle buffer.bytes)

/-- A later part of a message arrives; only the next one in sequence is taken. -/
def receiveConsecutive (x : Exchange ω) (scope : Scope ω) (sequence : UInt8) (data : List UInt8) :
    Exchange ω :=
  let flow := x.connection.input
  if flow.phase ≠ .consecutiveIn then x
  else
    let x := x.cancel (.input scope.handle)
    if sequence ≠ flow.sequence then x.abort scope .input .frameSequence
    else
      let count := min flow.remaining data.length
      let buffer := flow.buffer.map fun buffer => (buffer.write flow.offset (data.take count)).2
      let flow := { flow with
        buffer
        remaining := flow.remaining - count
        sequence := nextSequence flow.sequence }
      let x := x.setFlow flow .input
      if flow.remaining = 0 then x.finishReceive scope buffer
      else
        let flow := flow.countFrame
        if flow.blockComplete then
          (x.setFlow { flow with blockCount := 0, phase := .controlOut } .input).advance scope .input
        else
          (x.setFlow flow .input).arm scope scope.settings.awaitConsecutive (.input scope.handle)

/-- The flow control frame of the receiving flow is on the bus. -/
def confirmInput (x : Exchange ω) (scope : Scope ω) : Exchange ω :=
  if !x.connection.input.unconfirmed then x
  else
    let flow := { x.connection.input with unconfirmed := false }
    let x := (x.setFlow flow .input).cancel (.input scope.handle)
    match flow.phase with
    | .controlOut =>
      if flow.status = some .overflow then x.reset .input
      else
        (x.setFlow { flow with phase := .consecutiveIn } .input).arm scope
          scope.settings.awaitConsecutive (.input scope.handle)
    | _ => x

end Exchange

end DiagBus
