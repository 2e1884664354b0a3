import DiagBus.Proofs.CheckedFrames
import DiagBus.Proofs.CheckedRegistry
import DiagBus.Proofs.Soundness

namespace DiagBus

variable {ω : Type}

namespace Exchange

def checkedCancel (x : Exchange ω) (alarm : Alarm) : Checked (Exchange ω) := do
  let alarms ← x.alarms.checkedCancel alarm
  .ok { x with alarms }

def checkedArm [Machine] (x : Exchange ω) (scope : Scope ω) (delay : Tick) (alarm : Alarm) :
    Checked (Exchange ω) := do
  let x ← x.checkedCancel alarm
  match ← x.alarms.checkedSchedule scope.now delay alarm with
  | .ok alarms => .ok { x with alarms }
  | .error _ => .ok x

def checkedDisarm (x : Exchange ω) (scope : Scope ω) : Direction → Checked (Exchange ω)
  | .output => do
    let x ← x.checkedCancel (.output scope.handle)
    x.checkedCancel (.separation scope.handle)
  | .input => x.checkedCancel (.input scope.handle)

def checkedAbort (x : Exchange ω) (scope : Scope ω) (direction : Direction) (fault : Fault) :
    Checked (Exchange ω) := do
  let after ← (x.reset direction).checkedDisarm scope direction
  .ok (after.report x.connection.onFailed (.failed · scope.handle fault))

def checkedArmConfirmation [Machine] (x : Exchange ω) (scope : Scope ω) :
    Direction → Checked (Exchange ω)
  | .output => x.checkedArm scope scope.settings.confirmOutput (.output scope.handle)
  | .input => x.checkedArm scope scope.settings.confirmInput (.input scope.handle)

def checkedHandOver [Machine] (x : Exchange ω) (scope : Scope ω) (direction : Direction)
    (index : InterfaceIndex) (frame : Frame) (flow : Flow) :
    Checked (Except Fault Unit × Exchange ω) := do
  let x := x.setFlow flow direction
  match ← scope.registry.checkedHand (.flow scope.handle direction) index frame x.outside with
  | (.error fault, outside) => .ok (.error fault, { x with outside })
  | (.ok confirmed, outside) =>
    let x := { x with outside }.setFlow { flow with unconfirmed := true } direction
    if confirmed then .ok (.ok (), x.enqueue scope direction)
    else do
      let x ← x.checkedArmConfirmation scope direction
      .ok (.ok (), x)

def checkedTransmit [Machine] (x : Exchange ω) (scope : Scope ω) (direction : Direction) :
    Checked (Except Fault Unit × Exchange ω) :=
  match x.connection.address with
  | none => .ok (.error .notConnected, x)
  | some address =>
    let encoder := address.encoder scope.settings
    match direction with
    | .output => do
      match ← encoder.checkedNextFrame x.connection.output with
      | none => .ok (.error .argument, x)
      | some (frame, flow) => x.checkedHandOver scope .output address.interface frame flow
    | .input => do
      let flow := x.connection.input
      let frame ← encoder.checkedFlowControl (flow.status.getD .continueToSend) flow.blockSize
        scope.settings.separation
      x.checkedHandOver scope .input address.interface frame flow

def checkedAdvance [Machine] (x : Exchange ω) (scope : Scope ω) (direction : Direction) :
    Checked (Exchange ω) := do
  match ← x.checkedTransmit scope direction with
  | (.ok (), x) => .ok x
  | (.error fault, x) => x.checkedAbort scope direction fault

def checkedAccept (x : Exchange ω) (scope : Scope ω) (message : List UInt8) :
    Checked (Except Fault Address) :=
  if message.isEmpty then .ok (.error .argument)
  else
    match x.connection.address with
    | none => .ok (.error .notConnected)
    | some address => do
      if !(← scope.registry.checkedContains address.interface) then .ok (.error .notConnected)
      else
        let flexible ← scope.registry.checkedIsFlexible address.interface x.outside.world
        if address.flexible && !flexible then .ok (.error .argument)
        else if (address.encoder scope.settings).messageLimit < message.length then
          .ok (.error .argument)
        else if !x.connection.output.isIdle then .ok (.error .inProgress)
        else .ok (.ok address)

/-- The flow of a message that was copied into this buffer. -/
def checkedOutputFlow (scope : Scope ω) (address : Address) (message : List UInt8)
    (buffer : Buffer) : Checked Flow := do
  let capacity ← (address.encoder scope.settings).checkedSingleCapacity
  .ok {
    phase := if message.length ≤ capacity then .singleOut else .firstOut
    buffer := some buffer
    total := message.length
    remaining := message.length
    sequence := 1
    waitsLeft := scope.settings.waitLimit }

def checkedSend [Machine] (x : Exchange ω) (scope : Scope ω) (message : List UInt8) :
    Checked (Except Fault Unit × Exchange ω) := do
  match ← x.checkedAccept scope message with
  | .error fault => .ok (.error fault, x)
  | .ok address =>
    match ← x.memory.checkedAllocate message.length with
    | none => .ok (.error .memory, x)
    | some (buffer, memory) =>
      let (_, buffer) ← buffer.checkedWrite 0 message
      let flow ← checkedOutputFlow scope address message buffer
      match ← ({ x with memory }.setFlow flow .output).checkedTransmit scope .output with
      | (.ok (), x) => .ok (.ok (), x)
      | (.error fault, x) =>
        let x ← (x.reset .output).checkedDisarm scope .output
        .ok (.error fault, x)

def checkedAwaitControl [Machine] (x : Exchange ω) (scope : Scope ω) (flow : Flow) :
    Checked (Exchange ω) :=
  (x.setFlow { flow with phase := .controlIn } .output).checkedArm scope
    scope.settings.awaitFlowControl (.output scope.handle)

def checkedConfirmOutput [Machine] (x : Exchange ω) (scope : Scope ω) : Checked (Exchange ω) :=
  if !x.connection.output.unconfirmed then .ok x
  else do
    let flow := { x.connection.output with unconfirmed := false }
    let x ← (x.setFlow flow .output).checkedCancel (.output scope.handle)
    match flow.phase with
    | .singleOut => .ok (x.finishSend scope)
    | .firstOut => x.checkedAwaitControl scope flow
    | .consecutiveOut =>
      if flow.remaining = 0 then .ok (x.finishSend scope)
      else
        let flow := flow.countFrame
        if flow.blockComplete then x.checkedAwaitControl scope flow
        else
          let x := x.setFlow flow .output
          if flow.separation = 0 then x.checkedAdvance scope .output
          else x.checkedArm scope flow.separation (.separation scope.handle)
    | _ => .ok x

def checkedReceiveControl [Machine] (x : Exchange ω) (scope : Scope ω) (status : FlowStatus)
    (blockSize separation : UInt8) : Checked (Exchange ω) :=
  let flow := x.connection.output
  if flow.phase ≠ .controlIn then .ok x
  else
    let flow := { flow with status := some status }
    match status with
    | .continueToSend => do
      let flow := { flow with
        phase := .consecutiveOut
        blockSize
        separation := separationTime separation
        blockCount := 0
        waitsLeft := scope.settings.waitLimit }
      let x ← x.checkedCancel (.output scope.handle)
      (x.setFlow flow .output).checkedAdvance scope .output
    | .wait =>
      if flow.waitsLeft = 0 then (x.setFlow flow .output).checkedAbort scope .output .flowStatus
      else do
        let waitsLeft ← Checked.subByte flow.waitsLeft 1
        (x.setFlow { flow with waitsLeft } .output).checkedArm scope
          scope.settings.awaitFlowControl (.output scope.handle)
    | _ => (x.setFlow flow .output).checkedAbort scope .output .flowStatus

def checkedReceiveFirst [Machine] (x : Exchange ω) (scope : Scope ω) (length : Nat)
    (data : List UInt8) : Checked (Exchange ω) :=
  if !x.connection.input.isIdle then .ok x
  else if length ≤ data.length then .ok x
  else do
    match ← x.memory.checkedAllocate length with
    | some (buffer, memory) =>
      let (count, buffer) ← buffer.checkedWrite 0 data
      let remaining ← Checked.sub length count
      let flow : Flow := {
        phase := .controlOut
        buffer := some buffer
        total := length
        remaining
        sequence := 1
        status := some .continueToSend
        blockSize := scope.settings.blockSize }
      ({ x with memory }.setFlow flow .input).checkedAdvance scope .input
    | none =>
      let flow : Flow := { phase := .controlOut, status := some .overflow }
      ((x.setFlow flow .input).report x.connection.onFailed
        (.failed · scope.handle .memory)).checkedAdvance scope .input

def checkedReceiveConsecutive [Machine] (x : Exchange ω) (scope : Scope ω) (sequence : UInt8)
    (data : List UInt8) : Checked (Exchange ω) :=
  let flow := x.connection.input
  if flow.phase ≠ .consecutiveIn then .ok x
  else do
    let x ← x.checkedCancel (.input scope.handle)
    if sequence ≠ flow.sequence then x.checkedAbort scope .input .frameSequence
    else
      let flow ← flow.checkedCollect data
      let x := x.setFlow flow .input
      if flow.remaining = 0 then .ok (x.finishReceive scope flow.buffer)
      else
        let flow := flow.countFrame
        if flow.blockComplete then
          (x.setFlow { flow with blockCount := 0, phase := .controlOut } .input).checkedAdvance
            scope .input
        else
          (x.setFlow flow .input).checkedArm scope scope.settings.awaitConsecutive
            (.input scope.handle)

def checkedConfirmInput [Machine] (x : Exchange ω) (scope : Scope ω) : Checked (Exchange ω) :=
  if !x.connection.input.unconfirmed then .ok x
  else do
    let flow := { x.connection.input with unconfirmed := false }
    let x ← (x.setFlow flow .input).checkedCancel (.input scope.handle)
    match flow.phase with
    | .controlOut =>
      if flow.status = some .overflow then .ok (x.reset .input)
      else
        (x.setFlow { flow with phase := .consecutiveIn } .input).checkedArm scope
          scope.settings.awaitConsecutive (.input scope.handle)
    | _ => .ok x

def checkedReceive [Machine] (x : Exchange ω) (scope : Scope ω) : Pdu → Checked (Exchange ω)
  | .single message => .ok (x.receiveSingle scope message)
  | .first length data => x.checkedReceiveFirst scope length data
  | .consecutive sequence data => x.checkedReceiveConsecutive scope sequence data
  | .flowControl status blockSize separation =>
    x.checkedReceiveControl scope status blockSize separation

def checkedConfirm [Machine] (x : Exchange ω) (scope : Scope ω) :
    Direction → Checked (Exchange ω)
  | .output => x.checkedConfirmOutput scope
  | .input => x.checkedConfirmInput scope

def checkedExpire [Machine] (x : Exchange ω) (scope : Scope ω) (alarm : Alarm) :
    Checked (Exchange ω) :=
  let output := x.connection.output
  match alarm with
  | .output _ =>
    if output.isIdle then .ok x else x.checkedAbort scope .output .transmitTimeout
  | .input _ =>
    if x.connection.input.isIdle then .ok x else x.checkedAbort scope .input .receiveTimeout
  | .separation _ =>
    if output.phase = .consecutiveOut ∧ !output.unconfirmed then x.checkedAdvance scope .output
    else .ok x

/-- What the operations on a connection find: a queue that is in order, a budget that is kept, and
flows that are idle or in the middle of a transfer. -/
structure Fit [Machine] (x : Exchange ω) (scope : Scope ω) : Prop where
  linked : x.alarms.Linked
  used : x.memory.used ≤ x.memory.capacity
  capacity : x.memory.capacity ≤ Machine.largest
  flows : x.connection.Sound scope.settings

section

variable {x : Exchange ω} {scope : Scope ω}

theorem checkedCancel_eq (linked : x.alarms.Linked) (alarm : Alarm) :
    x.checkedCancel alarm = .ok (x.cancel alarm) := by
  unfold checkedCancel
  rw [TimerQueue.checkedCancel_eq linked]
  rfl

theorem cancel_linked (linked : x.alarms.Linked) (alarm : Alarm) :
    (x.cancel alarm).alarms.Linked :=
  (TimerQueue.cancel_linked linked alarm).1

theorem checkedArm_eq [Machine] (linked : x.alarms.Linked) (delay : Tick) (alarm : Alarm) :
    x.checkedArm scope delay alarm = .ok (x.arm scope delay alarm) := by
  have cancelled : (x.cancel alarm).alarms.Linked := x.cancel_linked linked alarm
  unfold checkedArm arm
  rw [checkedCancel_eq linked, Checked.ok_bind, TimerQueue.checkedSchedule_eq cancelled,
    Checked.ok_bind]
  simp only []
  cases (x.cancel alarm).alarms.schedule scope.now delay alarm <;> rfl

theorem checkedDisarm_eq (linked : x.alarms.Linked) (direction : Direction) :
    x.checkedDisarm scope direction = .ok (x.disarm scope direction) := by
  cases direction with
  | output =>
    have cancelled := cancel_linked linked (.output scope.handle)
    simp only [checkedDisarm, disarm, checkedCancel_eq linked, checkedCancel_eq cancelled,
      Checked.ok_bind]
  | input => exact checkedCancel_eq linked _

theorem checkedAbort_eq (linked : x.alarms.Linked) (direction : Direction) (fault : Fault) :
    x.checkedAbort scope direction fault = .ok (x.abort scope direction fault) := by
  have same : (x.reset direction).alarms.Linked := linked
  unfold checkedAbort
  rw [checkedDisarm_eq same]
  rfl

theorem checkedArmConfirmation_eq [Machine] (linked : x.alarms.Linked) (direction : Direction) :
    x.checkedArmConfirmation scope direction = .ok (x.armConfirmation scope direction) := by
  cases direction <;> exact checkedArm_eq linked _ _

theorem checkedHandOver_eq [Machine] (linked : x.alarms.Linked) (direction : Direction)
    (index : InterfaceIndex) (frame : Frame) (flow : Flow) :
    x.checkedHandOver scope direction index frame flow =
      .ok (x.handOver scope direction index frame flow) := by
  unfold checkedHandOver handOver
  simp only [Registry.checkedHand_eq, Checked.ok_bind]
  rcases scope.registry.hand (.flow scope.handle direction) index frame
    (x.setFlow flow direction).outside with ⟨fault | confirmed, outside⟩
  · rfl
  · cases confirmed with
    | true => rfl
    | false =>
      have same : (Exchange.setFlow { x.setFlow flow direction with outside }
        { flow with unconfirmed := true } direction).alarms.Linked := linked
      simp only [checkedArmConfirmation_eq same, Checked.ok_bind]
      rfl

/-- A frame that is refused changes no alarm. -/
theorem handOver_refused {direction : Direction} {index : InterfaceIndex} {frame : Frame}
    {flow : Flow} {fault : Fault} {after : Exchange ω}
    (refused : x.handOver scope direction index frame flow = (.error fault, after)) :
    after.alarms = x.alarms := by
  unfold handOver at refused
  rcases answer : scope.registry.hand (.flow scope.handle direction) index frame
    (x.setFlow flow direction).outside with ⟨reason | confirmed, outside⟩
  · simp only [answer, Prod.mk.injEq] at refused
    rw [← refused.2]
    rfl
  · simp [answer] at refused

theorem transmit_refused {direction : Direction} {fault : Fault} {after : Exchange ω}
    (refused : x.transmit scope direction = (.error fault, after)) : after.alarms = x.alarms := by
  unfold transmit at refused
  split at refused
  · cases refused
    rfl
  · cases direction with
    | output =>
      simp only [] at refused
      split at refused
      · cases refused
        rfl
      · exact handOver_refused refused
    | input => exact handOver_refused refused

/-- The sending flow has a frame that can be built, if one is asked for. -/
def Provides (x : Exchange ω) (scope : Scope ω) (direction : Direction) : Prop :=
  direction = .output → ∀ address, x.connection.address = some address →
    x.connection.output.Sendable (address.encoder scope.settings)

theorem checkedTransmit_eq [Machine] (linked : x.alarms.Linked) {direction : Direction}
    (provides : x.Provides scope direction) :
    x.checkedTransmit scope direction = .ok (x.transmit scope direction) := by
  unfold checkedTransmit transmit
  cases bound : x.connection.address with
  | none => rfl
  | some address =>
    cases direction with
    | output =>
      simp only [Encoder.checkedNextFrame_eq (provides rfl address bound), Checked.ok_bind]
      cases (address.encoder scope.settings).nextFrame? x.connection.output with
      | none => rfl
      | some next => exact checkedHandOver_eq linked _ _ _ _
    | input =>
      simp only [Encoder.checkedFlowControl_eq, Checked.ok_bind]
      exact checkedHandOver_eq linked _ _ _ _

theorem checkedAdvance_eq [Machine] (linked : x.alarms.Linked) {direction : Direction}
    (provides : x.Provides scope direction) :
    x.checkedAdvance scope direction = .ok (x.advance scope direction) := by
  unfold checkedAdvance advance
  rw [checkedTransmit_eq linked provides, Checked.ok_bind]
  rcases answer : x.transmit scope direction with ⟨fault | _, after⟩
  · have same : after.alarms.Linked := by
      rw [transmit_refused answer]
      exact linked
    exact checkedAbort_eq same _ _
  · rfl

/-- A flow that goes on with its message has a frame that can be built. -/
theorem Provides.consecutive {flow : Flow} (same : x.connection.output = flow)
    (ranged : flow.Ranged) (phase : flow.phase = .consecutiveOut) : x.Provides scope .output := by
  intro _ _ _
  rw [same]
  exact ⟨ranged, .inl phase⟩

theorem Provides.input : x.Provides scope .input := by
  intro other
  cases other

end

end Exchange

section

variable {settings : Settings} {connection : Connection}

theorem Connection.Sound.output_ranged (sound : connection.Sound settings) :
    connection.output.Ranged := by
  rcases sound.output with idle | ⟨_, _, _, _, underway⟩
  · rw [idle]
    exact .empty
  · exact underway.sent.ranged

theorem Connection.Sound.input_ranged (sound : connection.Sound settings) :
    connection.input.Ranged := by
  rcases sound.input with idle | ⟨_, _, refusing | ⟨_, _, _, collecting⟩⟩
  · rw [idle]
    exact .empty
  · rw [show connection.input = _ from refusing]
    exact ⟨le_rfl, Nat.zero_le _, by simp [overflowFlow]⟩
  · exact collecting.ranged

end

namespace Exchange

theorem checkedAccept_eq (x : Exchange ω) (scope : Scope ω) (message : List UInt8) :
    x.checkedAccept scope message = .ok (x.accept scope message) := by
  unfold checkedAccept accept
  split
  · rfl
  · cases x.connection.address with
    | none => rfl
    | some address =>
      simp only [Registry.checkedContains_eq, Registry.checkedIsFlexible_eq, Checked.ok_bind]
      repeat' split
      all_goals rfl

theorem checkedOutputFlow_eq (scope : Scope ω) (address : Address) {message : List UInt8}
    {buffer : Buffer} (size : buffer.size = message.length) :
    checkedOutputFlow scope address message buffer = .ok (outputFlow scope address buffer) := by
  unfold checkedOutputFlow outputFlow
  rw [Encoder.checkedSingleCapacity_eq, Checked.ok_bind, size]

theorem outputFlow_sendable (scope : Scope ω) (address : Address) (buffer : Buffer) :
    (outputFlow scope address buffer).Sendable (address.encoder scope.settings) := by
  refine ⟨⟨le_rfl, Nat.one_le_ofNat, ?_⟩, .inr ⟨rfl, ?_⟩⟩
  · intro other held
    cases held
    rfl
  · intro single
    by_contra long
    simp only [outputFlow] at single long
    rw [if_neg long] at single
    cases single

section

variable [Machine] {x : Exchange ω} {scope : Scope ω}

/-- A message is taken or not, without a number out of its bounds. -/
theorem checkedSend_eq (fit : x.Fit scope) (message : List UInt8) :
    x.checkedSend scope message = .ok (x.send scope message) := by
  unfold checkedSend send
  rw [checkedAccept_eq, Checked.ok_bind]
  cases acceptance : x.accept scope message with
  | error fault => rfl
  | ok address =>
    have bound := (accept_eq_ok_iff.mp acceptance).2.1
    simp only [Memory.checkedAllocate_eq fit.used fit.capacity, Checked.ok_bind]
    cases taken : x.memory.allocate message.length with
    | none => rfl
    | some given =>
      obtain ⟨buffer, memory⟩ := given
      have size : (buffer.write 0 message).2.size = message.length := by
        rw [Buffer.size_write]
        unfold Memory.allocate at taken
        split at taken
        · cases taken
        · cases taken
          exact List.length_replicate
      simp only [Buffer.checkedWrite_eq, checkedOutputFlow_eq scope address size, Checked.ok_bind]
      generalize start_eq : Exchange.setFlow { x with memory }
        (outputFlow scope address (buffer.write 0 message).2) .output = start
      have linked : start.alarms.Linked := by
        rw [← start_eq]
        exact fit.linked
      have provides : start.Provides scope .output := by
        intro _ address' bound'
        rw [← start_eq] at bound' ⊢
        have same : some address' = some address := bound'.symm.trans bound
        cases same
        exact outputFlow_sendable scope address _
      rw [checkedTransmit_eq linked provides, Checked.ok_bind]
      rcases answer : start.transmit scope .output with ⟨fault | _, after⟩
      · have same : (after.reset .output).alarms.Linked := by
          rw [show (after.reset .output).alarms = after.alarms from rfl, transmit_refused answer]
          exact linked
        simp only [checkedDisarm_eq same, Checked.ok_bind]
      · rfl

theorem checkedConfirmOutput_eq (fit : x.Fit scope) :
    x.checkedConfirmOutput scope = .ok (x.confirmOutput scope) := by
  unfold checkedConfirmOutput confirmOutput
  by_cases unconfirmed : x.connection.output.unconfirmed = true
  · have ranged := fit.flows.output_ranged
    have linked (flow : Flow) : (x.setFlow flow .output).alarms.Linked := fit.linked
    have cancelled (flow : Flow) :
        ((x.setFlow flow .output).cancel (.output scope.handle)).alarms.Linked :=
      cancel_linked (linked flow) _
    simp only [unconfirmed, Bool.not_true, Bool.false_eq_true, if_false,
      checkedCancel_eq (linked _), Checked.ok_bind]
    cases phase : x.connection.output.phase with
    | firstOut => exact checkedArm_eq (cancelled _) _ _
    | consecutiveOut =>
      simp only []
      split
      · rfl
      · split
        · exact checkedArm_eq (cancelled _) _ _
        · split
          · exact checkedAdvance_eq (cancelled _)
              (.consecutive rfl ⟨ranged.remaining, ranged.sequence, ranged.buffer⟩ rfl)
          · exact checkedArm_eq (cancelled _) _ _
    | _ => rfl
  · simp only [unconfirmed, Bool.not_false, if_true]

theorem checkedConfirmInput_eq (fit : x.Fit scope) :
    x.checkedConfirmInput scope = .ok (x.confirmInput scope) := by
  unfold checkedConfirmInput confirmInput
  by_cases unconfirmed : x.connection.input.unconfirmed = true
  · have linked (flow : Flow) : (x.setFlow flow .input).alarms.Linked := fit.linked
    have cancelled (flow : Flow) :
        ((x.setFlow flow .input).cancel (.input scope.handle)).alarms.Linked :=
      cancel_linked (linked flow) _
    simp only [unconfirmed, Bool.not_true, Bool.false_eq_true, if_false,
      checkedCancel_eq (linked _), Checked.ok_bind]
    cases x.connection.input.phase with
    | controlOut =>
      simp only []
      split
      · rfl
      · exact checkedArm_eq (cancelled _) _ _
    | _ => rfl
  · simp only [unconfirmed, Bool.not_false, if_true]

theorem checkedReceiveControl_eq (fit : x.Fit scope) (status : FlowStatus)
    (blockSize separation : UInt8) :
    x.checkedReceiveControl scope status blockSize separation =
      .ok (x.receiveControl scope status blockSize separation) := by
  have ranged := fit.flows.output_ranged
  have linked (flow : Flow) : (x.setFlow flow .output).alarms.Linked := fit.linked
  unfold checkedReceiveControl receiveControl
  simp only []
  split
  · rfl
  · cases status with
    | continueToSend =>
      simp only [checkedCancel_eq fit.linked, Checked.ok_bind]
      have cancelled (flow : Flow) :
          ((x.cancel (.output scope.handle)).setFlow flow .output).alarms.Linked :=
        cancel_linked fit.linked _
      exact checkedAdvance_eq (cancelled _)
        (.consecutive rfl ⟨ranged.remaining, ranged.sequence, ranged.buffer⟩ rfl)
    | wait =>
      simp only []
      by_cases spent : x.connection.output.waitsLeft = 0
      · rw [if_pos spent, if_pos spent]
        exact checkedAbort_eq (linked _) _ _
      · have enough : 1 ≤ x.connection.output.waitsLeft := by
          rw [UInt8.le_iff_toNat_le]
          have positive := UInt8.toNat_inj.not.mpr spent
          have zero : (0 : UInt8).toNat = 0 := rfl
          have one : (1 : UInt8).toNat = 1 := rfl
          omega
        rw [if_neg spent, if_neg spent, Checked.subByte_eq enough, Checked.ok_bind]
        exact checkedArm_eq (linked _) _ _
    | overflow => exact checkedAbort_eq (linked _) _ _
    | reserved => exact checkedAbort_eq (linked _) _ _

theorem checkedReceiveFirst_eq (fit : x.Fit scope) (length : Nat) (data : List UInt8) :
    x.checkedReceiveFirst scope length data = .ok (x.receiveFirst scope length data) := by
  unfold checkedReceiveFirst receiveFirst
  split
  · rfl
  · split
    · rfl
    · rename_i longer
      simp only [Memory.checkedAllocate_eq fit.used fit.capacity, Checked.ok_bind]
      cases x.memory.allocate length with
      | none =>
        have same : (Exchange.report (x.setFlow { phase := .controlOut, status := some .overflow }
            .input) x.connection.onFailed (.failed · scope.handle .memory)).alarms.Linked := by
          rw [report_eq]
          exact fit.linked
        exact checkedAdvance_eq same .input
      | some given =>
        obtain ⟨buffer, memory⟩ := given
        have less : (buffer.write 0 data).1 ≤ length := by
          have part : (buffer.write 0 data).1 ≤ data.length := by
            unfold Buffer.write
            split
            · exact Nat.zero_le _
            · exact Nat.min_le_right _ _
          omega
        simp only [Buffer.checkedWrite_eq, Checked.ok_bind, Checked.sub_eq less]
        exact checkedAdvance_eq (by exact fit.linked) .input

/-- The bytes of a consecutive frame are put where they belong. -/
theorem checkedReceiveConsecutive_eq (fit : x.Fit scope) (sequence : UInt8) (data : List UInt8) :
    x.checkedReceiveConsecutive scope sequence data =
      .ok (x.receiveConsecutive scope sequence data) := by
  have ranged := fit.flows.input_ranged
  have cancelled := cancel_linked fit.linked (.input scope.handle)
  unfold checkedReceiveConsecutive receiveConsecutive
  simp only []
  split
  · rfl
  · rw [checkedCancel_eq fit.linked, Checked.ok_bind]
    split
    · exact checkedAbort_eq cancelled _ _
    · rw [Flow.checkedCollect_eq ranged, Checked.ok_bind]
      show _ = Except.ok (if (x.connection.input.collect data).remaining = 0 then _ else _)
      split
      · rfl
      · show _ = Except.ok (if (x.connection.input.collect data).countFrame.blockComplete = true
          then _ else _)
        split
        · exact checkedAdvance_eq (by exact cancelled) .input
        · exact checkedArm_eq (by exact cancelled) _ _

theorem checkedReceive_eq (fit : x.Fit scope) (pdu : Pdu) :
    x.checkedReceive scope pdu = .ok (x.receive scope pdu) := by
  cases pdu with
  | single => rfl
  | first length data => exact checkedReceiveFirst_eq fit length data
  | consecutive sequence data => exact checkedReceiveConsecutive_eq fit sequence data
  | flowControl status blockSize separation =>
    exact checkedReceiveControl_eq fit status blockSize separation

theorem checkedConfirm_eq (fit : x.Fit scope) (direction : Direction) :
    x.checkedConfirm scope direction = .ok (x.confirm scope direction) := by
  cases direction with
  | output => exact checkedConfirmOutput_eq fit
  | input => exact checkedConfirmInput_eq fit

theorem checkedExpire_eq (fit : x.Fit scope) (alarm : Alarm) :
    x.checkedExpire scope alarm = .ok (x.expire scope alarm) := by
  unfold checkedExpire expire
  cases alarm with
  | output _ =>
    simp only []
    split
    · rfl
    · exact checkedAbort_eq fit.linked _ _
  | input _ =>
    simp only []
    split
    · rfl
    · exact checkedAbort_eq fit.linked _ _
  | separation _ =>
    simp only []
    split
    · rename_i going
      exact checkedAdvance_eq fit.linked (.consecutive rfl fit.flows.output_ranged going.1)
    · rfl

end

end Exchange

end DiagBus
