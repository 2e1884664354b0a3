import DiagBus.Proofs.Segmentation
import DiagBus.IsoTp.Events

namespace DiagBus

variable {ω : Type}

inductive Plan
  /-- The flow stays as it is. -/
  | stay (news : List Signal)
  /-- The flow goes on and waits, watched by its alarm. -/
  | wait (flow : Flow)
  /-- A frame is handed over; the flow is the one without what the frame carries. If the interface
  refuses the frame the flow becomes idle, and this is told. -/
  | hand (news : List Signal) (index : InterfaceIndex) (frame : Frame) (flow : Flow)
    (refusal : Fault → List Signal)
  /-- The flow becomes idle. -/
  | rest (news : List Signal)

/-- The faults that end a transfer, unless a frame of it could not be handed over. -/
def Direction.faults : Direction → List Fault
  | .output => [.transmitTimeout, .flowStatus]
  | .input => [.frameSequence, .receiveTimeout]

/-- The faults of a frame that could not be handed over. -/
def handingFaults : List Fault :=
  [.interface, .notConnected]

/-- What a listener is told, if there is one. -/
def told (listener : Option Listener) (news : Listener → Signal) : List Signal :=
  listener.toList.map news

def Connection.failure (connection : Connection) (scope : Scope ω) (fault : Fault) : List Signal :=
  told connection.onFailed (.failed · scope.handle fault)

/-- The next frame of the sending flow, which stands at `flow`. -/
def Connection.next (connection : Connection) (scope : Scope ω) (flow : Flow) : Plan :=
  match connection.address with
  | none => .rest (connection.failure scope .notConnected)
  | some address =>
    match (address.encoder scope.settings).nextFrame? flow with
    | none => .rest (connection.failure scope .argument)
    | some (frame, flow) => .hand [] address.interface frame flow (connection.failure scope)

/-- The flow control frame of the receiving flow, which stands at `flow`. -/
def Connection.answer (connection : Connection) (scope : Scope ω) (news : List Signal)
    (flow : Flow) : Plan :=
  match connection.address with
  | none => .rest (news ++ connection.failure scope .notConnected)
  | some address =>
    .hand news address.interface
      ((address.encoder scope.settings).flowControl (flow.status.getD .continueToSend)
        flow.blockSize scope.settings.separation) flow (connection.failure scope)

def Connection.sent (connection : Connection) (scope : Scope ω) : List Signal :=
  told connection.onSent (.sent · scope.handle connection.output.total)

/-- The last frame of the sending flow is on the bus. -/
def Connection.outputConfirmed (connection : Connection) (scope : Scope ω) : Plan :=
  if !connection.output.unconfirmed then .stay []
  else
    let flow := { connection.output with unconfirmed := false }
    match flow.phase with
    | .singleOut => .rest (connection.sent scope)
    | .firstOut => .wait { flow with phase := .controlIn }
    | .consecutiveOut =>
      if flow.remaining = 0 then .rest (connection.sent scope)
      else
        let flow := flow.countFrame
        if flow.blockComplete then .wait { flow with phase := .controlIn }
        else if flow.separation = 0 then connection.next scope flow
        else .wait flow
    | _ => .stay []

/-- The sending flow as it starts into a block that the peer has asked for. -/
def Flow.startBlock (flow : Flow) (settings : Settings) (blockSize separation : UInt8) : Flow :=
  { flow with
    status := some .continueToSend
    phase := .consecutiveOut
    blockSize
    separation := separationTime separation
    blockCount := 0
    waitsLeft := settings.waitLimit }

/-- Flow control arrives. -/
def Connection.controlReceived (connection : Connection) (scope : Scope ω) (status : FlowStatus)
    (blockSize separation : UInt8) : Plan :=
  let flow := connection.output
  if flow.phase ≠ .controlIn then .stay []
  else
    match status with
    | .continueToSend => connection.next scope (flow.startBlock scope.settings blockSize separation)
    | .wait =>
      if flow.waitsLeft = 0 then .rest (connection.failure scope .flowStatus)
      else .wait { flow with status := some .wait, waitsLeft := flow.waitsLeft - 1 }
    | _ => .rest (connection.failure scope .flowStatus)

/-- The flow control frame of the receiving flow is on the bus. -/
def Connection.inputConfirmed (connection : Connection) : Plan :=
  if !connection.input.unconfirmed then .stay []
  else
    let flow := { connection.input with unconfirmed := false }
    match flow.phase with
    | .controlOut =>
      if flow.status = some .overflow then .rest [] else .wait { flow with phase := .consecutiveIn }
    | _ => .stay []

/-- The receiving flow with the next bytes of its message. -/
def Flow.collect (flow : Flow) (data : List UInt8) : Flow :=
  { flow with
    buffer := flow.buffer.map fun buffer =>
      (buffer.write flow.offset (data.take (min flow.remaining data.length))).2
    remaining := flow.remaining - min flow.remaining data.length
    sequence := nextSequence flow.sequence }

/-- A consecutive frame arrives. -/
def Connection.consecutiveReceived (connection : Connection) (scope : Scope ω) (sequence : UInt8)
    (data : List UInt8) : Plan :=
  let flow := connection.input
  if flow.phase ≠ .consecutiveIn then .stay []
  else if sequence ≠ flow.sequence then .rest (connection.failure scope .frameSequence)
  else
    let flow := flow.collect data
    if flow.remaining = 0 then
      .rest (flow.buffer.elim [] fun buffer =>
        told connection.onReceived (.received · scope.handle buffer.bytes))
    else
      let flow := flow.countFrame
      if flow.blockComplete then
        connection.answer scope [] { flow with blockCount := 0, phase := .controlOut }
      else .wait flow

/-- The receiving flow of a message that has just started. -/
def startedFlow (settings : Settings) (length : Nat) (data : List UInt8) : Flow where
  phase := .controlOut
  buffer := some (Buffer.write ⟨List.replicate length 0⟩ 0 data).2
  total := length
  remaining := length - data.length
  sequence := 1
  status := some .continueToSend
  blockSize := settings.blockSize

/-- The receiving flow that refuses a message. -/
def overflowFlow : Flow where
  phase := .controlOut
  status := some .overflow

/-- A first frame arrives. -/
def Connection.firstReceived (connection : Connection) (scope : Scope ω) (memory : Memory)
    (length : Nat) (data : List UInt8) : Plan :=
  if !connection.input.isIdle then .stay []
  else if length ≤ data.length then .stay []
  else if memory.available < length then
    connection.answer scope (connection.failure scope .memory) overflowFlow
  else connection.answer scope [] (startedFlow scope.settings length data)

/-- A whole message arrives in one frame. -/
def Connection.singleReceived (connection : Connection) (scope : Scope ω) (message : List UInt8) :
    Plan :=
  if connection.input.isIdle then
    .stay (told connection.onReceived (.received · scope.handle message))
  else .stay []

/-- The flow a unit of the peer is for. -/
def Pdu.direction : Pdu → Direction
  | .flowControl .. => .output
  | _ => .input

/-- A unit of the peer arrives. -/
def Connection.received (connection : Connection) (scope : Scope ω) (memory : Memory) : Pdu → Plan
  | .single message => connection.singleReceived scope message
  | .first length data => connection.firstReceived scope memory length data
  | .consecutive sequence data => connection.consecutiveReceived scope sequence data
  | .flowControl status blockSize separation =>
    connection.controlReceived scope status blockSize separation

def Connection.confirmed (connection : Connection) (scope : Scope ω) : Direction → Plan
  | .output => connection.outputConfirmed scope
  | .input => connection.inputConfirmed

/-- The flow an alarm watches. -/
def Alarm.direction : Alarm → Direction
  | .output _ => .output
  | .input _ => .input
  | .separation _ => .output

/-- An alarm goes off. -/
def Connection.expired (connection : Connection) (scope : Scope ω) : Alarm → Plan
  | .output _ =>
    if connection.output.isIdle then .stay []
    else .rest (connection.failure scope .transmitTimeout)
  | .input _ =>
    if connection.input.isIdle then .stay []
    else .rest (connection.failure scope .receiveTimeout)
  | .separation _ =>
    if connection.output.phase = .consecutiveOut ∧ !connection.output.unconfirmed then
      connection.next scope connection.output
    else .stay []

/-- The bytes that a flow's buffer takes from the budget. -/
def Flow.held (flow : Flow) : Nat :=
  flow.buffer.elim 0 Buffer.size

def Outside.tellAll (outside : Outside ω) (news : List Signal) : Outside ω :=
  { outside with signals := outside.signals ++ news }

namespace Exchange

/-- A message is to be sent. A message that cannot be sent changes nothing, and nobody but the caller
is told. -/
def submitted (x : Exchange ω) (scope : Scope ω) (message : List UInt8) : Plan :=
  match x.accept scope message with
  | .error _ => .stay []
  | .ok address =>
    if x.memory.available < message.length then .stay []
    else
      match (address.encoder scope.settings).nextFrame? (outputFlow scope address ⟨message⟩) with
      | none => .rest []
      | some (frame, flow) => .hand [] address.interface frame flow fun _ => []

/-- What must hold of an exchange for an operation to carry out its plan. -/
structure Ready (x : Exchange ω) (scope : Scope ω) : Prop where
  quiet : x.confirmations = []
  connections : 0 < scope.settings.connections
  charged : ∀ direction, (x.connection.flow direction).held ≤ x.memory.used
  empty : ∀ direction, (x.connection.flow direction).isIdle = true →
    (x.connection.flow direction).held = 0
  output : x.connection.output.unconfirmed = true → x.connection.output.phase = .singleOut ∨
    x.connection.output.phase = .firstOut ∨ x.connection.output.phase = .consecutiveOut
  input : x.connection.input.unconfirmed = true → x.connection.input.phase = .controlOut

/-- One flow of an exchange was replaced. The memory is charged for the buffers, a confirmation is
noted if the frame was confirmed at once, and nothing else changes but the alarms. -/
structure Turned (x : Exchange ω) (scope : Scope ω) (direction : Direction) (flow : Flow)
    (noted : Bool) (outside : Outside ω) (after : Exchange ω) : Prop where
  connection : after.connection = x.connection.setFlow flow direction
  memory : after.memory =
    { x.memory with used := x.memory.used - (x.connection.flow direction).held + flow.held }
  confirmations : after.confirmations = x.confirmations ++
    if noted then [{ connection := scope.handle, direction }] else []
  outside : after.outside = outside

/-- An exchange after a plan was carried out. -/
inductive Follows (x : Exchange ω) (scope : Scope ω) (direction : Direction) :
    Plan → Exchange ω → Prop
  | stay {news : List Signal} {after : Exchange ω}
      (same : after = { x with outside := x.outside.tellAll news }) :
      Follows x scope direction (.stay news) after
  | wait {flow : Flow} {after : Exchange ω}
      (turned : x.Turned scope direction flow false x.outside after) :
      Follows x scope direction (.wait flow) after
  | handed {news : List Signal} {index : InterfaceIndex} {frame : Frame} {flow : Flow}
      {refusal : Fault → List Signal} {confirmed : Bool} {outside : Outside ω} {after : Exchange ω}
      (taken : scope.registry.hand (.flow scope.handle direction) index frame
        (x.outside.tellAll news) = (.ok confirmed, outside))
      (turned : x.Turned scope direction { flow with unconfirmed := true } confirmed outside after) :
      Follows x scope direction (.hand news index frame flow refusal) after
  | refused {news : List Signal} {index : InterfaceIndex} {frame : Frame} {flow : Flow}
      {refusal : Fault → List Signal} {fault : Fault} {outside : Outside ω} {after : Exchange ω}
      (declined : scope.registry.hand (.flow scope.handle direction) index frame
        (x.outside.tellAll news) = (.error fault, outside))
      (turned : x.Turned scope direction {} false (outside.tellAll (refusal fault)) after) :
      Follows x scope direction (.hand news index frame flow refusal) after
  | rest {news : List Signal} {after : Exchange ω}
      (turned : x.Turned scope direction {} false (x.outside.tellAll news) after) :
      Follows x scope direction (.rest news) after

end Exchange

end DiagBus
