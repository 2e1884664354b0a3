import DiagBus.Proofs.Plans
import DiagBus.Proofs.TimerQueue

namespace DiagBus

variable {ω : Type}

@[simp]
theorem Connection.flow_setFlow (connection : Connection) (flow : Flow) (direction : Direction) :
    (connection.setFlow flow direction).flow direction = flow := by
  cases direction <;> rfl

@[simp]
theorem Connection.setFlow_setFlow (connection : Connection) (first second : Flow)
    (direction : Direction) :
    (connection.setFlow first direction).setFlow second direction =
      connection.setFlow second direction := by
  cases direction <;> rfl

@[simp]
theorem Connection.address_setFlow (connection : Connection) (flow : Flow) (direction : Direction) :
    (connection.setFlow flow direction).address = connection.address := by
  cases direction <;> rfl

@[simp]
theorem Connection.failure_setFlow (connection : Connection) (flow : Flow) (direction : Direction)
    (scope : Scope ω) (fault : Fault) :
    (connection.setFlow flow direction).failure scope fault = connection.failure scope fault := by
  cases direction <;> rfl

theorem Flow.release_eq (flow : Flow) (memory : Memory) :
    flow.release memory = { memory with used := memory.used - flow.held } := by
  unfold Flow.release Flow.held
  cases flow.buffer <;> rfl

theorem Outside.tellAll_nil (outside : Outside ω) : outside.tellAll [] = outside := by
  simp [Outside.tellAll]

theorem Outside.tellAll_tellAll (outside : Outside ω) (first second : List Signal) :
    (outside.tellAll first).tellAll second = outside.tellAll (first ++ second) := by
  simp [Outside.tellAll]

/-- The queue without the alarms of one flow. -/
def TimerQueue.disarm (queue : TimerQueue Alarm) (handle : Handle) : Direction → TimerQueue Alarm
  | .output => (queue.cancel (.output handle)).cancel (.separation handle)
  | .input => queue.cancel (.input handle)

/-- Frames of the sending flow need a confirmation in this time, those of the receiving one in
that. -/
def Settings.confirmDelay (settings : Settings) : Direction → Tick
  | .output => settings.confirmOutput
  | .input => settings.confirmInput

/-- The alarm that watches for the confirmation of a frame. -/
def Direction.alarm (handle : Handle) : Direction → Alarm
  | .output => .output handle
  | .input => .input handle

namespace Exchange

theorem arm_eq (x : Exchange ω) (scope : Scope ω) (delay : Tick) (alarm : Alarm) :
    x.arm scope delay alarm = { x with alarms := x.alarms.arm scope.now delay alarm } := by
  rcases answer : (x.alarms.cancel alarm).schedule scope.now delay alarm with fault | queue <;>
    simp only [Exchange.arm, TimerQueue.arm, Exchange.cancel, answer]

theorem disarm_eq (x : Exchange ω) (scope : Scope ω) (direction : Direction) :
    x.disarm scope direction = { x with alarms := x.alarms.disarm scope.handle direction } := by
  cases direction <;> rfl

theorem report_eq (x : Exchange ω) (listener : Option Listener) (news : Listener → Signal) :
    x.report listener news = { x with outside := x.outside.tellAll (told listener news) } := by
  cases listener with
  | none => simp [report, told, Outside.tellAll_nil]
  | some listener => rfl

theorem reset_eq (x : Exchange ω) (direction : Direction) :
    x.reset direction = { x with
      connection := x.connection.setFlow {} direction
      memory := { x.memory with used := x.memory.used - (x.connection.flow direction).held } } := by
  simp only [reset, Flow.release_eq, setFlow]

/-- The exchange after the transfer of a flow ended early and this was told. -/
def stop (x : Exchange ω) (scope : Scope ω) (direction : Direction) (news : List Signal) :
    Exchange ω :=
  { x with
    connection := x.connection.setFlow {} direction
    memory := { x.memory with used := x.memory.used - (x.connection.flow direction).held }
    alarms := x.alarms.disarm scope.handle direction
    outside := x.outside.tellAll news }

theorem abort_eq (x : Exchange ω) (scope : Scope ω) (direction : Direction) (fault : Fault) :
    x.abort scope direction fault = x.stop scope direction (x.connection.failure scope fault) := by
  simp only [abort, report_eq, disarm_eq, reset_eq]
  rfl

theorem disarm_reset_eq (x : Exchange ω) (scope : Scope ω) (direction : Direction) :
    (x.reset direction).disarm scope direction = x.stop scope direction [] := by
  rw [disarm_eq, reset_eq, stop, Outside.tellAll_nil]

theorem armConfirmation_eq (x : Exchange ω) (scope : Scope ω) (direction : Direction) :
    x.armConfirmation scope direction = { x with
      alarms := x.alarms.arm scope.now (scope.settings.confirmDelay direction)
        (direction.alarm scope.handle) } := by
  cases direction <;> simp only [armConfirmation, arm_eq] <;> rfl

theorem enqueue_eq {x : Exchange ω} {scope : Scope ω} {direction : Direction}
    (quiet : x.confirmations = []) (positive : 0 < scope.settings.connections) :
    x.enqueue scope direction =
      { x with confirmations := [{ connection := scope.handle, direction }] } := by
  unfold enqueue
  rw [quiet, if_pos (by simpa using positive)]
  rfl

theorem handOver_eq {x : Exchange ω} {scope : Scope ω} (direction : Direction)
    (index : InterfaceIndex) (frame : Frame) (flow : Flow) (quiet : x.confirmations = [])
    (positive : 0 < scope.settings.connections) :
    x.handOver scope direction index frame flow =
      match scope.registry.hand (.flow scope.handle direction) index frame x.outside with
      | (.error fault, outside) => (.error fault, { x.setFlow flow direction with outside })
      | (.ok true, outside) => (.ok (), { x.setFlow { flow with unconfirmed := true } direction with
          confirmations := [{ connection := scope.handle, direction }], outside })
      | (.ok false, outside) => (.ok (), { x.setFlow { flow with unconfirmed := true } direction with
          alarms := x.alarms.arm scope.now (scope.settings.confirmDelay direction)
            (direction.alarm scope.handle), outside }) := by
  unfold handOver
  rcases answer : scope.registry.hand (.flow scope.handle direction) index frame x.outside with
    ⟨fault | confirmed, outside⟩
  · simp only [setFlow, answer]
  · cases confirmed with
    | true =>
      simp only [setFlow, answer, if_true]
      rw [enqueue_eq (by exact quiet) positive]
      simp
    | false => simp [setFlow, answer, armConfirmation_eq]

end Exchange

/-- Taking a frame out of a flow changes only how much is left and the sequence number. -/
theorem Encoder.nextFrame?_keeps {encoder : Encoder} {flow next : Flow} {frame : Frame}
    (run : encoder.nextFrame? flow = some (frame, next)) :
    ∃ remaining sequence, next = { flow with remaining, sequence } := by
  unfold Encoder.nextFrame? at run
  obtain ⟨buffer, _, run⟩ := Option.bind_eq_some_iff.mp run
  split at run
  · obtain ⟨single, _, run⟩ := Option.bind_eq_some_iff.mp run
    cases run
    exact ⟨_, _, rfl⟩
  · cases run
    exact ⟨_, _, rfl⟩
  · obtain ⟨_, _, run⟩ := Option.bind_eq_some_iff.mp run
    cases run
    exact ⟨_, _, rfl⟩
  · cases run

theorem Encoder.nextFrame?_buffer {encoder : Encoder} {flow next : Flow} {frame : Frame}
    (run : encoder.nextFrame? flow = some (frame, next)) : next.buffer = flow.buffer := by
  obtain ⟨_, _, rfl⟩ := Encoder.nextFrame?_keeps run
  rfl

theorem Encoder.nextFrame?_phase {encoder : Encoder} {flow next : Flow} {frame : Frame}
    (run : encoder.nextFrame? flow = some (frame, next)) : next.phase = flow.phase := by
  obtain ⟨_, _, rfl⟩ := Encoder.nextFrame?_keeps run
  rfl

namespace Exchange

variable {x before after : Exchange ω} {scope : Scope ω} {flow : Flow}

/-- Handing over a frame of a flow that was just replaced; if it is refused the transfer ends. -/
theorem Turned.handOver {direction : Direction} {news : List Signal} {next : Flow}
    {refusal : Fault → List Signal} {ended : Fault → Exchange ω → Exchange ω}
    (prepared : x.Turned scope direction flow false (x.outside.tellAll news) before)
    (ready : x.Ready scope) (buffer : next.buffer = flow.buffer) (index : InterfaceIndex)
    (frame : Frame) (ending : ∀ fault outside,
      ended fault { before.setFlow next direction with outside } =
        Exchange.stop { before.setFlow next direction with outside } scope direction (refusal fault)) :
    x.Follows scope direction (.hand news index frame next refusal)
      (match before.handOver scope direction index frame next with
      | (.ok (), after) => after
      | (.error fault, after) => ended fault after) := by
  have still : before.confirmations = [] := by rw [prepared.confirmations, ready.quiet]; rfl
  have same_held : next.held = flow.held := by unfold Flow.held; rw [buffer]
  rw [handOver_eq direction index frame next still ready.connections, prepared.outside]
  rcases answer : scope.registry.hand (.flow scope.handle direction) index frame
    (x.outside.tellAll news) with ⟨fault | confirmed, outside⟩
  · refine .refused answer ?_
    simp only [ending]
    refine ⟨?_, ?_, ?_, rfl⟩
    · simp [stop, setFlow, prepared.connection]
    · simp only [stop, setFlow, prepared.memory, Connection.flow_setFlow, same_held]
      simp [Flow.held]
    · simp [stop, setFlow, prepared.confirmations]
  · have held_next : ({ next with unconfirmed := true } : Flow).held = flow.held := same_held
    cases confirmed with
    | true =>
      refine .handed answer ⟨?_, ?_, ?_, rfl⟩
      · simp [setFlow, prepared.connection]
      · rw [held_next]
        exact prepared.memory
      · simp [ready.quiet]
    | false =>
      refine .handed answer ⟨?_, ?_, ?_, rfl⟩
      · simp [setFlow, prepared.connection]
      · rw [held_next]
        exact prepared.memory
      · simp [setFlow, prepared.confirmations]

/-- A transfer ends early although its flow was just replaced. -/
theorem Turned.stop {direction : Direction} {news : List Signal}
    (prepared : x.Turned scope direction flow false (x.outside.tellAll news) before)
    (more : List Signal) :
    x.Follows scope direction (.rest (news ++ more)) (before.stop scope direction more) := by
  refine .rest ⟨?_, ?_, ?_, ?_⟩
  · simp [Exchange.stop, prepared.connection]
  · simp [Exchange.stop, prepared.memory, prepared.connection, Flow.held]
  · simp [Exchange.stop, prepared.confirmations]
  · simp [Exchange.stop, prepared.outside, Outside.tellAll_tellAll]

theorem Turned.abort {direction : Direction} {news : List Signal}
    (prepared : x.Turned scope direction flow false (x.outside.tellAll news) before)
    (fault : Fault) :
    x.Follows scope direction (.rest (news ++ x.connection.failure scope fault))
      (before.abort scope direction fault) := by
  rw [abort_eq, prepared.connection, Connection.failure_setFlow]
  exact prepared.stop _

/-- Handing over a frame of a transfer that ends with word of the refusal. -/
theorem Turned.handOrAbort {direction : Direction} {news : List Signal} {next : Flow}
    (prepared : x.Turned scope direction flow false (x.outside.tellAll news) before)
    (ready : x.Ready scope) (buffer : next.buffer = flow.buffer) (index : InterfaceIndex)
    (frame : Frame) :
    x.Follows scope direction (.hand news index frame next (x.connection.failure scope))
      (match before.handOver scope direction index frame next with
      | (.ok (), after) => after
      | (.error fault, after) => after.abort scope direction fault) := by
  refine prepared.handOver ready buffer index frame fun fault outside => ?_
  rw [abort_eq]
  simp [setFlow, prepared.connection]

theorem Turned.advanceOutput
    (prepared : x.Turned scope .output flow false x.outside before)
    (ready : x.Ready scope) :
    x.Follows scope .output (x.connection.next scope flow) (before.advance scope .output) := by
  have prepared' : x.Turned scope .output flow false (x.outside.tellAll []) before := by
    rw [Outside.tellAll_nil]
    exact prepared
  have address : before.connection.address = x.connection.address := by
    rw [prepared.connection, Connection.address_setFlow]
  have output : before.connection.output = flow := by
    rw [prepared.connection]
    rfl
  unfold Connection.next advance transmit
  rw [address, output]
  cases x.connection.address with
  | none => exact prepared'.abort .notConnected
  | some address =>
    simp only []
    cases next : (address.encoder scope.settings).nextFrame? flow with
    | none => exact prepared'.abort .argument
    | some found =>
      obtain ⟨frame, following⟩ := found
      exact prepared'.handOrAbort ready (Encoder.nextFrame?_buffer next) _ frame

theorem Turned.advanceInput {news : List Signal}
    (prepared : x.Turned scope .input flow false (x.outside.tellAll news) before)
    (ready : x.Ready scope) :
    x.Follows scope .input (x.connection.answer scope news flow) (before.advance scope .input) := by
  have address : before.connection.address = x.connection.address := by
    rw [prepared.connection, Connection.address_setFlow]
  have input : before.connection.input = flow := by
    rw [prepared.connection]
    rfl
  unfold Connection.answer advance transmit
  rw [address, input]
  cases x.connection.address with
  | none => exact prepared.abort .notConnected
  | some address => exact prepared.handOrAbort ready rfl _ _

/-- A flow was replaced by one with a buffer of the same size. -/
theorem turned_of_same {direction : Direction}
    (connection : after.connection = x.connection.setFlow flow direction)
    (memory : after.memory = x.memory) (confirmations : after.confirmations = x.confirmations)
    (outside : after.outside = x.outside) (held : flow.held = (x.connection.flow direction).held)
    (ready : x.Ready scope) :
    x.Turned scope direction flow false x.outside after := by
  refine ⟨connection, ?_, by simp [confirmations], outside⟩
  rw [held, Nat.sub_add_cancel (ready.charged direction), memory]

theorem finishSend_turned (connection : before.connection = x.connection.setFlow flow .output)
    (memory : before.memory = x.memory) (confirmations : before.confirmations = x.confirmations)
    (outside : before.outside = x.outside) (held : flow.held = x.connection.output.held)
    (total : flow.total = x.connection.output.total) :
    x.Turned scope .output {} false (x.outside.tellAll (x.connection.sent scope))
      (before.finishSend scope) := by
  unfold finishSend
  rw [report_eq, reset_eq]
  refine ⟨by simp [connection], ?_, by simp [confirmations], ?_⟩
  · simp only [connection, memory, Connection.flow_setFlow, held]
    rfl
  · simp only [connection, outside, Connection.setFlow, total]
    rfl

theorem confirmOutput_follows (ready : x.Ready scope) :
    x.Follows scope .output (x.connection.outputConfirmed scope) (x.confirmOutput scope) := by
  unfold Connection.outputConfirmed confirmOutput
  by_cases unconfirmed : x.connection.output.unconfirmed = true
  · simp only [unconfirmed, Bool.not_true, Bool.false_eq_true, if_false]
    rcases ready.output unconfirmed with single | first | consecutive
    · simp only [single]
      exact .rest (finishSend_turned rfl rfl rfl rfl rfl rfl)
    · simp only [first]
      unfold awaitControl
      rw [arm_eq]
      exact .wait (turned_of_same rfl rfl rfl rfl rfl ready)
    · simp only [consecutive]
      split
      · exact .rest (finishSend_turned rfl rfl rfl rfl rfl rfl)
      · split
        · unfold awaitControl
          rw [arm_eq]
          exact .wait (turned_of_same rfl rfl rfl rfl rfl ready)
        · split
          · refine (turned_of_same ?_ ?_ ?_ ?_ ?_ ready).advanceOutput ready <;> rfl
          · rw [arm_eq]
            exact .wait (turned_of_same rfl rfl rfl rfl rfl ready)
  · rw [if_pos (by simpa using unconfirmed), if_pos (by simpa using unconfirmed)]
    exact .stay (by rw [Outside.tellAll_nil])

theorem receiveControl_follows (ready : x.Ready scope) (status : FlowStatus)
    (blockSize separation : UInt8) :
    x.Follows scope .output (x.connection.controlReceived scope status blockSize separation)
      (x.receiveControl scope status blockSize separation) := by
  have refused (flow : Flow) (held : flow.held = x.connection.output.held) :
      x.Follows scope .output (.rest (x.connection.failure scope .flowStatus))
        ((x.setFlow flow .output).abort scope .output .flowStatus) := by
    have prepared : x.Turned scope .output flow false (x.outside.tellAll [])
        (x.setFlow flow .output) := by
      rw [Outside.tellAll_nil]
      exact turned_of_same rfl rfl rfl rfl held ready
    simpa only [List.nil_append] using prepared.abort .flowStatus
  unfold Connection.controlReceived receiveControl
  by_cases waiting : x.connection.output.phase ≠ .controlIn
  · simp only [waiting, if_true, ne_eq, not_false_eq_true]
    exact .stay (by rw [Outside.tellAll_nil])
  · simp only [waiting, if_false]
    cases status with
    | continueToSend =>
      refine (turned_of_same ?_ ?_ ?_ ?_ ?_ ready).advanceOutput ready <;> rfl
    | wait =>
      simp only []
      split
      · exact refused _ rfl
      · rw [arm_eq]
        exact .wait (turned_of_same rfl rfl rfl rfl rfl ready)
    | overflow => exact refused _ rfl
    | reserved nibble => exact refused _ rfl

theorem confirmInput_follows (ready : x.Ready scope) :
    x.Follows scope .input x.connection.inputConfirmed (x.confirmInput scope) := by
  unfold Connection.inputConfirmed confirmInput
  by_cases unconfirmed : x.connection.input.unconfirmed = true
  · simp only [unconfirmed, Bool.not_true, Bool.false_eq_true, if_false, ready.input unconfirmed]
    split
    · rw [reset_eq]
      refine .rest ⟨?_, ?_, (List.append_nil _).symm, ?_⟩
      · simp [setFlow, cancel]
      · rfl
      · exact (Outside.tellAll_nil _).symm
    · rw [arm_eq]
      exact .wait (turned_of_same rfl rfl rfl rfl rfl ready)
  · rw [if_pos (by simpa using unconfirmed), if_pos (by simpa using unconfirmed)]
    exact .stay (by rw [Outside.tellAll_nil])

theorem receiveSingle_follows (message : List UInt8) :
    x.Follows scope .input (x.connection.singleReceived scope message)
      (x.receiveSingle scope message) := by
  unfold Connection.singleReceived receiveSingle
  split
  · exact .stay (report_eq _ _ _)
  · exact .stay (by rw [Outside.tellAll_nil])

theorem collect_held (flow : Flow) (data : List UInt8) : (flow.collect data).held = flow.held := by
  unfold Flow.held Flow.collect
  cases flow.buffer with
  | none => rfl
  | some buffer => exact Buffer.size_write _ _ _

theorem finishReceive_turned (connection : before.connection = x.connection.setFlow flow .input)
    (memory : before.memory = x.memory) (confirmations : before.confirmations = x.confirmations)
    (outside : before.outside = x.outside) (held : flow.held = x.connection.input.held) :
    x.Turned scope .input {} false
      (x.outside.tellAll (flow.buffer.elim [] fun buffer =>
        told x.connection.onReceived (.received · scope.handle buffer.bytes)))
      (before.finishReceive scope flow.buffer) := by
  unfold finishReceive
  rw [reset_eq]
  cases flow.buffer with
  | none =>
    refine ⟨by simp [connection], ?_, by simp [confirmations], ?_⟩
    · simp only [connection, memory, Connection.flow_setFlow, held]
      rfl
    · simp [outside, Outside.tellAll_nil]
  | some buffer =>
    simp only [report_eq]
    refine ⟨by simp [connection], ?_, by simp [confirmations], ?_⟩
    · simp only [connection, memory, Connection.flow_setFlow, held]
      rfl
    · simp only [connection, outside, Connection.setFlow]
      rfl

theorem receiveConsecutive_follows (ready : x.Ready scope) (sequence : UInt8) (data : List UInt8) :
    x.Follows scope .input (x.connection.consecutiveReceived scope sequence data)
      (x.receiveConsecutive scope sequence data) := by
  have held := collect_held x.connection.input data
  unfold Connection.consecutiveReceived receiveConsecutive
  by_cases waiting : x.connection.input.phase ≠ .consecutiveIn
  · simp only [waiting, if_true, ne_eq, not_false_eq_true]
    exact .stay (by rw [Outside.tellAll_nil])
  · simp only [waiting, if_false]
    by_cases wrong : sequence ≠ x.connection.input.sequence
    · simp only [wrong, if_true, ne_eq, not_false_eq_true]
      have prepared : x.Turned scope .input x.connection.input false (x.outside.tellAll [])
          (x.cancel (.input scope.handle)) := by
        rw [Outside.tellAll_nil]
        exact turned_of_same rfl rfl rfl rfl rfl ready
      simpa only [List.nil_append] using prepared.abort .frameSequence
    · rw [if_neg wrong, if_neg wrong]
      show x.Follows scope .input _
        (if (x.connection.input.collect data).remaining = 0 then
          ((x.cancel (.input scope.handle)).setFlow (x.connection.input.collect data) .input).finishReceive
            scope (x.connection.input.collect data).buffer
        else if (x.connection.input.collect data).countFrame.blockComplete then
          (((x.cancel (.input scope.handle)).setFlow (x.connection.input.collect data) .input).setFlow
            { (x.connection.input.collect data).countFrame with
              blockCount := 0, phase := .controlOut } .input).advance scope .input
        else
          (((x.cancel (.input scope.handle)).setFlow (x.connection.input.collect data) .input).setFlow
            (x.connection.input.collect data).countFrame .input).arm scope
              scope.settings.awaitConsecutive (.input scope.handle))
      split
      · refine .rest (finishReceive_turned ?_ ?_ ?_ ?_ held) <;> rfl
      · split
        · refine Turned.advanceInput ?_ ready
          rw [Outside.tellAll_nil]
          exact turned_of_same rfl rfl rfl rfl held ready
        · rw [arm_eq]
          exact .wait (turned_of_same rfl rfl rfl rfl held ready)

theorem receiveFirst_follows (ready : x.Ready scope) (length : Nat) (data : List UInt8) :
    x.Follows scope .input (x.connection.firstReceived scope x.memory length data)
      (x.receiveFirst scope length data) := by
  unfold Connection.firstReceived receiveFirst
  by_cases idle : x.connection.input.isIdle = true
  · simp only [idle, Bool.not_true, Bool.false_eq_true, if_false]
    by_cases covered : length ≤ data.length
    · rw [if_pos covered, if_pos covered]
      exact .stay (by rw [Outside.tellAll_nil])
    · rw [if_neg covered, if_neg covered]
      have nothing := ready.empty .input idle
      by_cases scarce : x.memory.available < length
      · have refusal : x.memory.allocate length = none := by
          unfold Memory.allocate
          rw [if_pos (Or.inr scarce)]
        rw [if_pos scarce, refusal]
        simp only [report_eq]
        refine Turned.advanceInput ⟨rfl, ?_, (List.append_nil _).symm, rfl⟩ ready
        show x.memory =
          { x.memory with used := x.memory.used - (x.connection.flow .input).held + 0 }
        rw [nothing]
        rfl
      · have grant : x.memory.allocate length = Option.some (⟨List.replicate length 0⟩,
            { x.memory with used := x.memory.used + length }) := by
          unfold Memory.allocate
          rw [if_neg]
          omega
        have written : ((Buffer.mk (List.replicate length 0)).write 0 data).1 = data.length := by
          simp only [Buffer.write, Buffer.size, List.length_replicate, Nat.not_lt_zero, if_false]
          omega
        have held : (startedFlow scope.settings length data).held = length := by
          unfold Flow.held startedFlow
          exact (Buffer.size_write _ _ _).trans List.length_replicate
        rw [if_neg scarce, grant]
        simp only [written]
        refine Turned.advanceInput ⟨rfl, ?_, (List.append_nil _).symm, ?_⟩ ready
        · rw [held, nothing]
          rfl
        · exact (Outside.tellAll_nil _).symm
  · rw [if_pos (by simpa using idle), if_pos (by simpa using idle)]
    exact .stay (by rw [Outside.tellAll_nil])

theorem expire_follows (ready : x.Ready scope) (alarm : Alarm) :
    x.Follows scope alarm.direction (x.connection.expired scope alarm) (x.expire scope alarm) := by
  have ended (direction : Direction) (fault : Fault) :
      x.Follows scope direction (.rest (x.connection.failure scope fault))
        (x.abort scope direction fault) := by
    have prepared : x.Turned scope direction (x.connection.flow direction) false
        (x.outside.tellAll []) x := by
      rw [Outside.tellAll_nil]
      exact turned_of_same (by cases direction <;> rfl) rfl rfl rfl rfl ready
    simpa only [List.nil_append] using prepared.abort fault
  unfold Connection.expired expire
  cases alarm with
  | output handle =>
    simp only []
    split
    · exact .stay (by rw [Outside.tellAll_nil])
    · exact ended .output .transmitTimeout
  | input handle =>
    simp only []
    split
    · exact .stay (by rw [Outside.tellAll_nil])
    · exact ended .input .receiveTimeout
  | separation handle =>
    simp only []
    split
    · exact (turned_of_same rfl rfl rfl rfl rfl ready).advanceOutput ready
    · exact .stay (by rw [Outside.tellAll_nil])

/-- A unit of the peer concerns the flow it is for, and no other. -/
theorem receive_follows (ready : x.Ready scope) (pdu : Pdu) :
    x.Follows scope pdu.direction (x.connection.received scope x.memory pdu)
      (x.receive scope pdu) := by
  cases pdu with
  | single message => exact receiveSingle_follows message
  | first length data => exact receiveFirst_follows ready length data
  | consecutive sequence data => exact receiveConsecutive_follows ready sequence data
  | flowControl status blockSize separation =>
    exact receiveControl_follows ready status blockSize separation

theorem confirm_follows (ready : x.Ready scope) (direction : Direction) :
    x.Follows scope direction (x.connection.confirmed scope direction)
      (x.confirm scope direction) := by
  cases direction with
  | output => exact confirmOutput_follows ready
  | input => exact confirmInput_follows ready

/-- When a connection takes a message. -/
theorem accept_eq_ok_iff {message : List UInt8} {address : Address} :
    x.accept scope message = .ok address ↔
      message ≠ [] ∧ x.connection.address = some address ∧
        scope.registry.contains address.interface = true ∧
        (address.flexible = true →
          scope.registry.isFlexible address.interface x.outside.world = true) ∧
        message.length ≤ (address.encoder scope.settings).messageLimit ∧
        x.connection.output.isIdle = true := by
  unfold accept
  cases x.connection.address with
  | none =>
    simp only []
    split <;> simp
  | some bound =>
    simp only [List.isEmpty_iff, Bool.not_eq_true', Bool.and_eq_true]
    constructor
    · intro run
      split at run
      · cases run
      · split at run
        · cases run
        · split at run
          · cases run
          · split at run
            · cases run
            · split at run
              · cases run
              · cases run
                simp_all
    · rintro ⟨filled, same, known, flexible, short, idle⟩
      cases same
      rw [if_neg filled, if_neg (by simp [known]), if_neg (by
        rintro ⟨asked, missing⟩
        rw [flexible asked] at missing
        cases missing), if_neg (by omega), if_neg (by simp [idle])]

theorem allocate_eq {memory : Memory} {size : Nat} (positive : 0 < size) :
    memory.allocate size = if memory.available < size then none
      else some (⟨List.replicate size 0⟩, { memory with used := memory.used + size }) := by
  unfold Memory.allocate
  by_cases scarce : memory.available < size
  · rw [if_pos (Or.inr scarce), if_pos scarce]
  · rw [if_neg (by omega), if_neg scarce]

/-- A message fills the buffer that was allocated for it. -/
theorem write_replicate (message : List UInt8) :
    (Buffer.write ⟨List.replicate message.length 0⟩ 0 message).2 = ⟨message⟩ := by
  simp [Buffer.write, Buffer.size]

theorem transmit_output {address : Address} (bound : x.connection.address = some address) :
    x.transmit scope .output =
      match (address.encoder scope.settings).nextFrame? x.connection.output with
      | none => (.error .argument, x)
      | some (frame, flow) => x.handOver scope .output address.interface frame flow := by
  unfold transmit
  cases next : (address.encoder scope.settings).nextFrame? x.connection.output <;>
    simp only [bound, next]

/-- A message starts to be sent, or the connection stays as it is. The call succeeds just if the
interface takes the first frame. -/
theorem send_follows (ready : x.Ready scope) (message : List UInt8) :
    x.Follows scope .output (x.submitted scope message) (x.send scope message).2 ∧
      ((x.send scope message).1 = .ok () ↔ ∃ index frame flow refusal confirmed outside,
        x.submitted scope message = .hand [] index frame flow refusal ∧
          scope.registry.hand (.flow scope.handle .output) index frame x.outside =
            (.ok confirmed, outside)) := by
  unfold submitted send
  cases acceptance : x.accept scope message with
  | error fault => exact ⟨.stay (by rw [Outside.tellAll_nil]), by simp⟩
  | ok address =>
    obtain ⟨filled, bound, _, _, _, idle⟩ := accept_eq_ok_iff.mp acceptance
    simp only [allocate_eq (List.length_pos_iff.mpr filled)]
    by_cases scarce : x.memory.available < message.length
    · simp only [if_pos scarce]
      exact ⟨.stay (by rw [Outside.tellAll_nil]), by simp⟩
    · simp only [if_neg scarce, write_replicate, disarm_reset_eq]
      generalize flow_eq : outputFlow scope address ⟨message⟩ = flow
      generalize start_eq : Exchange.setFlow { x with
        memory := { x.memory with used := x.memory.used + message.length } } flow .output = start
      have prepared : x.Turned scope .output flow false (x.outside.tellAll []) start := by
        rw [← start_eq, ← flow_eq]
        refine ⟨rfl, ?_, (List.append_nil _).symm, (Outside.tellAll_nil _).symm⟩
        rw [ready.empty .output idle, Nat.sub_zero]
        rfl
      have output_start : start.connection.output = flow := by rw [prepared.connection]; rfl
      have address_start : start.connection.address = some address := by
        rw [prepared.connection, Connection.address_setFlow, bound]
      rw [transmit_output address_start, output_start]
      cases found : (address.encoder scope.settings).nextFrame? flow with
      | none => exact ⟨prepared.stop [], by simp⟩
      | some following =>
        obtain ⟨frame, next⟩ := following
        have buffer := Encoder.nextFrame?_buffer found
        have still : start.confirmations = [] := by
          rw [prepared.confirmations, ready.quiet]
          rfl
        have carried : x.Follows scope .output (.hand [] address.interface frame next fun _ => [])
            (match start.handOver scope .output address.interface frame next with
            | (.ok (), after) => after
            | (.error _, after) => after.stop scope .output []) :=
          prepared.handOver ready buffer _ _ fun _ _ => rfl
        simp only [handOver_eq .output address.interface frame next still ready.connections,
          prepared.outside, Outside.tellAll_nil] at carried ⊢
        rcases answer : scope.registry.hand (.flow scope.handle .output) address.interface frame
          x.outside with ⟨fault | _ | _, outside⟩
        all_goals
          simp only [answer] at carried ⊢
          exact ⟨carried, by simp [answer]⟩

end Exchange

end DiagBus
