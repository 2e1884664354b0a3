import DiagBus.Proofs.Plans

namespace DiagBus

variable {ω : Type}

theorem Flow.countFrame_toNat {flow : Flow} {limit : UInt8} (below : flow.blockCount < limit) :
    flow.countFrame.blockCount.toNat = flow.blockCount.toNat + 1 := by
  have small := limit.toNat_lt
  rw [UInt8.lt_iff_toNat_lt] at below
  have apart : flow.blockCount ≠ 0xFF := by
    intro full
    rw [full] at below
    have top : (0xFF : UInt8).toNat = 255 := rfl
    omega
  unfold Flow.countFrame
  rw [if_neg apart, UInt8.toNat_add]
  show (flow.blockCount.toNat + 1) % 256 = _
  omega

/-- A block that is not complete is complete with its next frame just if that is its last. -/
theorem Flow.countFrame_complete {flow : Flow}
    (below : flow.blockSize ≠ 0 → flow.blockCount < flow.blockSize) :
    flow.countFrame.blockComplete = true ↔
      flow.blockSize ≠ 0 ∧ flow.blockCount.toNat + 1 = flow.blockSize.toNat := by
  have size : flow.countFrame.blockSize = flow.blockSize := rfl
  unfold Flow.blockComplete
  rw [size, decide_eq_true_iff]
  refine and_congr_right fun limited => ?_
  have count := flow.countFrame_toNat (below limited)
  have inside := UInt8.lt_iff_toNat_lt.mp (below limited)
  rw [UInt8.le_iff_toNat_le, count]
  omega

/-- A frame that does not complete the block leaves room for another. -/
theorem Flow.countFrame_unfilled {flow : Flow}
    (below : flow.blockSize ≠ 0 → flow.blockCount < flow.blockSize)
    (unfilled : ¬flow.countFrame.blockComplete = true) (limited : flow.blockSize ≠ 0) :
    flow.countFrame.blockCount.toNat = flow.blockCount.toNat + 1 ∧
      flow.countFrame.blockCount < flow.blockSize := by
  have count := flow.countFrame_toNat (below limited)
  have inside := UInt8.lt_iff_toNat_lt.mp (below limited)
  refine ⟨count, UInt8.lt_iff_toNat_lt.mpr ?_⟩
  by_contra beyond
  exact unfilled ((Flow.countFrame_complete below).mpr ⟨limited, by omega⟩)

/-- What a flow has handed over does not depend on what it waits for. -/
theorem Sent.of_same {encoder : Encoder} {message : List UInt8} {emitted : List Frame}
    {flow other : Flow} (sent : Sent encoder message emitted flow)
    (buffer : other.buffer = flow.buffer) (total : other.total = flow.total)
    (remaining : other.remaining = flow.remaining) (sequence : other.sequence = flow.sequence) :
    Sent encoder message emitted other := by
  refine ⟨buffer.trans sent.buffer, total.trans sent.total, ?_, ?_, sequence.trans sent.sequence⟩
  · rw [remaining]
    exact sent.remaining
  · unfold Flow.offset
    rw [total, remaining]
    exact sent.frames

/-- A busy sending flow awaits either a confirmation or flow control, or it is inside a block. Only
the last frame of a message leaves nothing to be sent. -/
inductive Flow.Stage (flow : Flow) : Prop
  | single (phase : flow.phase = .singleOut) (unconfirmed : flow.unconfirmed = true)
      (done : flow.remaining = 0)
  | first (phase : flow.phase = .firstOut) (unconfirmed : flow.unconfirmed = true)
      (left : 0 < flow.remaining)
  | control (phase : flow.phase = .controlIn) (confirmed : flow.unconfirmed = false)
      (left : 0 < flow.remaining)
  | consecutive (phase : flow.phase = .consecutiveOut)
      (left : flow.unconfirmed = false → 0 < flow.remaining)

/-- The flow is sending the message and has handed over `emitted`. -/
structure Underway (encoder : Encoder) (message : List UInt8) (emitted : List Frame) (flow : Flow) :
    Prop where
  sent : Sent encoder message emitted flow
  stage : flow.Stage

theorem Underway.not_idle {encoder : Encoder} {message : List UInt8} {emitted : List Frame}
    {flow : Flow} (underway : Underway encoder message emitted flow) : flow.isIdle = false := by
  unfold Flow.isIdle
  rcases underway.stage with ⟨phase⟩ | ⟨phase⟩ | ⟨phase⟩ | ⟨phase⟩ <;> simp [phase]

/-- A flow that awaits flow control has nothing unconfirmed and something left to send. -/
theorem Flow.Stage.of_control {flow : Flow} (stage : flow.Stage) (phase : flow.phase = .controlIn) :
    flow.unconfirmed = false ∧ 0 < flow.remaining := by
  rcases stage with ⟨other, _⟩ | ⟨other, _⟩ | ⟨_, confirmed, left⟩ | ⟨other, _⟩
  · simp [phase] at other
  · simp [phase] at other
  · exact ⟨confirmed, left⟩
  · simp [phase] at other

theorem Flow.Stage.of_first {flow : Flow} (stage : flow.Stage) (phase : flow.phase = .firstOut) :
    0 < flow.remaining := by
  rcases stage with ⟨other, _⟩ | ⟨_, _, left⟩ | ⟨other, _⟩ | ⟨other, _⟩
  · simp [phase] at other
  · exact left
  · simp [phase] at other
  · simp [phase] at other

theorem Flow.Stage.of_consecutive {flow : Flow} (stage : flow.Stage)
    (phase : flow.phase = .consecutiveOut) (confirmed : flow.unconfirmed = false) :
    0 < flow.remaining := by
  rcases stage with ⟨other, _⟩ | ⟨other, _⟩ | ⟨other, _⟩ | ⟨_, left⟩
  · simp [phase] at other
  · simp [phase] at other
  · simp [phase] at other
  · exact left confirmed

/-- A sending flow with no frame to be confirmed awaits flow control or is inside a block. -/
theorem Flow.Stage.of_confirmed {flow : Flow} (stage : flow.Stage)
    (confirmed : flow.unconfirmed = false) :
    flow.phase = .controlIn ∨ flow.phase = .consecutiveOut := by
  rcases stage with ⟨_, unconfirmed, _⟩ | ⟨_, unconfirmed, _⟩ | ⟨phase, _⟩ | ⟨phase, _⟩
  · rw [confirmed] at unconfirmed
    cases unconfirmed
  · rw [confirmed] at unconfirmed
    cases unconfirmed
  · exact Or.inl phase
  · exact Or.inr phase

/-- What becomes of a transfer that has handed over `emitted`. -/
inductive Connection.Sends (connection : Connection) (scope : Scope ω) (address : Address)
    (message : List UInt8) (emitted : List Frame) : Plan → Prop
  | stay : Sends connection scope address message emitted (.stay [])
  | wait {flow : Flow}
      (underway : Underway (address.encoder scope.settings) message emitted flow) :
      Sends connection scope address message emitted (.wait flow)
  | hand {frame : Frame} {flow : Flow}
      (underway : Underway (address.encoder scope.settings) message (emitted ++ [frame])
        { flow with unconfirmed := true })
      (shrinks : flow.remaining < connection.output.remaining) :
      Sends connection scope address message emitted
        (.hand [] address.interface frame flow (connection.failure scope))
  | fail (fault : Fault) (reason : fault ∈ Direction.faults .output) :
      Sends connection scope address message emitted (.rest (connection.failure scope fault))
  | finish (complete : emitted = (address.encoder scope.settings).segmentation message)
      (length : connection.output.total = message.length) :
      Sends connection scope address message emitted (.rest (connection.sent scope))

section

variable {connection : Connection} {scope : Scope ω} {address : Address} {message : List UInt8}
  {emitted : List Frame}

/-- The next consecutive frame of a message is handed over; nothing else changes. -/
theorem Connection.next_eq (bound : connection.address = some address) {flow : Flow}
    (sent : Sent (address.encoder scope.settings) message emitted flow)
    (phase : flow.phase = .consecutiveOut) (left : 0 < flow.remaining) :
    ∃ frame after, connection.next scope flow =
        .hand [] address.interface frame after (connection.failure scope) ∧
      after = { flow with
        remaining := flow.remaining - ((address.encoder scope.settings).frameSize - 1)
        sequence := nextSequence flow.sequence } ∧
      Sent (address.encoder scope.settings) message (emitted ++ [frame]) after := by
  obtain ⟨frame, found, onward⟩ := sent.nextFrame phase left
  refine ⟨frame, _, ?_, rfl, onward⟩
  unfold Connection.next
  rw [bound]
  simp only [found]

theorem Connection.next_sends (bound : connection.address = some address) {flow : Flow}
    (sent : Sent (address.encoder scope.settings) message emitted flow)
    (phase : flow.phase = .consecutiveOut) (same : flow.remaining = connection.output.remaining)
    (left : 0 < connection.output.remaining) :
    connection.Sends scope address message emitted (connection.next scope flow) := by
  rw [← same] at left
  have size := (address.encoder scope.settings).frameSize_bounds
  obtain ⟨frame, after, plan, rfl, onward⟩ :=
    Connection.next_eq bound sent phase left
  rw [plan]
  refine .hand ⟨onward.of_same rfl rfl rfl rfl, .consecutive phase (by simp)⟩ ?_
  rw [← same]
  show flow.remaining - _ < flow.remaining
  omega

theorem Connection.outputConfirmed_sends (bound : connection.address = some address)
    (underway : Underway (address.encoder scope.settings) message emitted connection.output) :
    connection.Sends scope address message emitted (connection.outputConfirmed scope) := by
  obtain ⟨sent, stage⟩ := underway
  unfold Connection.outputConfirmed
  by_cases unconfirmed : connection.output.unconfirmed = true
  · simp only [unconfirmed, Bool.not_true, Bool.false_eq_true, if_false]
    rcases stage with ⟨phase, _, done⟩ | ⟨phase, _, left⟩ | ⟨_, confirmed, _⟩ | ⟨phase, _⟩
    · simp only [phase]
      exact .finish (sent.complete done) sent.total
    · simp only [phase]
      exact .wait ⟨sent.of_same rfl rfl rfl rfl, .control rfl rfl left⟩
    · rw [confirmed] at unconfirmed
      cases unconfirmed
    · simp only [phase]
      by_cases done : connection.output.remaining = 0
      · rw [if_pos done]
        exact .finish (sent.complete done) sent.total
      · have left : 0 < connection.output.remaining := Nat.pos_of_ne_zero done
        rw [if_neg done]
        split
        · exact .wait ⟨sent.of_same rfl rfl rfl rfl, .control rfl rfl left⟩
        · split
          · exact Connection.next_sends bound (sent.of_same rfl rfl rfl rfl) rfl rfl left
          · exact .wait ⟨sent.of_same rfl rfl rfl rfl, .consecutive rfl fun _ => left⟩
  · rw [if_pos (by simpa using unconfirmed)]
    exact .stay

theorem Connection.controlReceived_sends (bound : connection.address = some address)
    (underway : Underway (address.encoder scope.settings) message emitted connection.output)
    (status : FlowStatus) (blockSize separation : UInt8) :
    connection.Sends scope address message emitted
      (connection.controlReceived scope status blockSize separation) := by
  obtain ⟨sent, stage⟩ := underway
  unfold Connection.controlReceived
  by_cases waiting : connection.output.phase = .controlIn
  · obtain ⟨confirmed, left⟩ := stage.of_control waiting
    simp only [waiting, ne_eq, not_true_eq_false, if_false]
    cases status with
    | continueToSend =>
      exact Connection.next_sends bound (sent.of_same rfl rfl rfl rfl) rfl rfl left
    | wait =>
      simp only []
      split
      · exact .fail _ (by simp [Direction.faults])
      · exact .wait ⟨sent.of_same rfl rfl rfl rfl, .control rfl confirmed left⟩
    | overflow => exact .fail _ (by simp [Direction.faults])
    | reserved nibble => exact .fail _ (by simp [Direction.faults])
  · rw [if_pos waiting]
    exact .stay

theorem Connection.expired_sends (bound : connection.address = some address)
    (underway : Underway (address.encoder scope.settings) message emitted connection.output)
    {alarm : Alarm} (own : alarm.direction = .output) :
    connection.Sends scope address message emitted (connection.expired scope alarm) := by
  unfold Connection.expired
  cases alarm with
  | output handle =>
    simp only [underway.not_idle, Bool.false_eq_true, if_false]
    exact .fail _ (by simp [Direction.faults])
  | input handle => cases own
  | separation handle =>
    simp only []
    split
    · rename_i pausing
      have left := underway.stage.of_consecutive pausing.1 (by simpa using pausing.2)
      exact Connection.next_sends bound underway.sent pausing.1 rfl left
    · exact .stay

/-- Nothing happens to a flow that is not sending. -/
theorem Connection.output_stays (scope : Scope ω) (idle : connection.output = {}) :
    connection.outputConfirmed scope = .stay [] ∧
      (∀ status blockSize separation,
        connection.controlReceived scope status blockSize separation = .stay []) ∧
      ∀ alarm : Alarm, alarm.direction = .output → connection.expired scope alarm = .stay [] := by
  refine ⟨?_, ?_, ?_⟩
  · simp [Connection.outputConfirmed, idle]
  · simp [Connection.controlReceived, idle]
  · intro alarm own
    cases alarm with
    | output handle => simp [Connection.expired, idle, Flow.isIdle]
    | input handle => cases own
    | separation handle => simp [Connection.expired, idle]

end

/-- A message that a connection takes starts with its first frame. -/
theorem Exchange.submitted_eq {x : Exchange ω} {scope : Scope ω} {message : List UInt8}
    {address : Address} (acceptance : x.accept scope message = .ok address)
    (room : message.length ≤ x.memory.available) :
    ∃ frame flow, x.submitted scope message =
        .hand [] address.interface frame flow (fun _ => []) ∧
      Underway (address.encoder scope.settings) message [frame] { flow with unconfirmed := true } ∧
      flow.phase = if message.length ≤ (address.encoder scope.settings).singleCapacity then
        .singleOut else .firstOut := by
  have enough : ¬x.memory.available < message.length := by omega
  unfold Exchange.submitted
  simp only [acceptance, if_neg enough]
  by_cases short : message.length ≤ (address.encoder scope.settings).singleCapacity
  · have phase : (outputFlow scope address ⟨message⟩).phase = .singleOut := if_pos short
    obtain ⟨frame, found, sent⟩ := Sent.single short phase rfl rfl rfl rfl
    simp only [found, if_pos short]
    exact ⟨frame, _, rfl, ⟨sent.of_same rfl rfl rfl rfl, .single phase rfl rfl⟩, phase⟩
  · have long : (address.encoder scope.settings).singleCapacity < message.length := by omega
    have phase : (outputFlow scope address ⟨message⟩).phase = .firstOut := if_neg short
    obtain ⟨frame, found, sent⟩ := Sent.first long phase rfl rfl rfl rfl
    have room := (address.encoder scope.settings).firstRoom_lt long
    have left : 0 < (outputFlow scope address ⟨message⟩).remaining -
        (address.encoder scope.settings).firstRoom message.length := by
      show 0 < message.length - _
      omega
    simp only [found, if_neg short]
    exact ⟨frame, _, rfl, ⟨sent.of_same rfl rfl rfl rfl, .first phase rfl left⟩, phase⟩

theorem Exchange.submitted_sends (x : Exchange ω) (scope : Scope ω) (message : List UInt8) :
    x.submitted scope message = .stay [] ∨ ∃ address frame flow,
      x.accept scope message = .ok address ∧ message.length ≤ x.memory.available ∧
        x.submitted scope message = .hand [] address.interface frame flow (fun _ => []) ∧
        Underway (address.encoder scope.settings) message [frame]
          { flow with unconfirmed := true } := by
  cases acceptance : x.accept scope message with
  | error fault =>
    unfold Exchange.submitted
    rw [acceptance]
    exact Or.inl rfl
  | ok address =>
    by_cases scarce : x.memory.available < message.length
    · unfold Exchange.submitted
      rw [acceptance]
      exact Or.inl (if_pos scarce)
    · have room : message.length ≤ x.memory.available := by omega
      obtain ⟨frame, flow, plan, underway, _⟩ := Exchange.submitted_eq acceptance room
      exact Or.inr ⟨address, frame, flow, rfl, room, plan, underway⟩

end DiagBus
