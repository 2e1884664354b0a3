import DiagBus.Proofs.TimerQueue
import DiagBus.Stack

namespace DiagBus

section

variable {ε : Type}

def PendingTimer.shift (offset : Tick) (timer : PendingTimer ε) : PendingTimer ε :=
  { timer with deadline := timer.deadline + offset }

/-- The same timers, each with a deadline later by `offset`. -/
def TimerQueue.shift (offset : Tick) (queue : TimerQueue ε) : TimerQueue ε :=
  { queue with timers := queue.timers.map (PendingTimer.shift offset) }

/-- A link of such a queue. -/
def shiftLink (offset : Tick) (link : Handle × PendingTimer ε) : Handle × PendingTimer ε :=
  (link.1, link.2.shift offset)

variable (offset : Tick) (queue : TimerQueue ε)

theorem TimerQueue.ofCapacity_shift (capacity : Nat) :
    (TimerQueue.ofCapacity capacity : TimerQueue ε).shift offset = .ofCapacity capacity := by
  simp [TimerQueue.shift, TimerQueue.ofCapacity, Slots.map, Slots.ofCapacity]

theorem chainFrom_shift (timers : Slots (PendingTimer ε)) (fuel : Nat) (head : Option Handle) :
    chainFrom (timers.map (PendingTimer.shift offset)) fuel head =
      (chainFrom timers fuel head).map (shiftLink offset) := by
  induction fuel generalizing head with
  | zero => rfl
  | succ fuel ih =>
    cases head with
    | none => rfl
    | some handle =>
      simp only [chainFrom, Slots.get?_map]
      cases timers.get? handle with
      | none => rfl
      | some timer =>
        simp only [Option.map_some, List.map_cons]
        exact congrArg _ (ih timer.next)

theorem TimerQueue.chain_shift :
    (queue.shift offset).chain = queue.chain.map (shiftLink offset) := by
  unfold TimerQueue.chain TimerQueue.shift
  rw [Slots.capacity_map, chainFrom_shift]

theorem lastHandle_shift (earlier : List (Handle × PendingTimer ε)) :
    lastHandle (earlier.map (shiftLink offset)) = lastHandle earlier := by
  rw [lastHandle, List.getLast?_map, Option.map_map, lastHandle]
  rfl

theorem TimerQueue.follow_shift (previous next : Option Handle) :
    (queue.shift offset).follow previous next = (queue.follow previous next).shift offset := by
  unfold TimerQueue.follow
  cases previous with
  | none => rfl
  | some last =>
    simp only [TimerQueue.shift, Slots.get?_map, Option.bind_some]
    cases queue.timers.get? last with
    | none => rfl
    | some timer =>
      have same := Slots.set_map queue.timers (PendingTimer.shift offset) last { timer with next }
      exact congrArg (fun timers => ({ timers, head := queue.head } : TimerQueue ε)) same

theorem TimerQueue.discard_shift (handle : Handle) :
    (queue.shift offset).discard handle = (queue.discard handle).shift offset := by
  simp only [TimerQueue.discard, TimerQueue.shift, Slots.erase_map]
  cases queue.timers.erase handle <;> rfl

theorem behind_shift (head : Option Handle) (earlier : List (Handle × PendingTimer ε)) :
    behind head (earlier.map (shiftLink offset)) = behind head earlier := by
  unfold behind
  rw [List.getLast?_map]
  cases earlier.getLast? <;> rfl

theorem TimerQueue.schedule_shift (now delay : Tick) (event : ε) :
    (queue.shift offset).schedule (now + offset) delay event =
      (queue.schedule now delay event).map (·.shift offset) := by
  -- The new deadline moves along with the pending ones, so its place among them is the same.
  have late : (fun link : Handle × PendingTimer ε =>
      !(now.after delay + offset).before link.2.deadline) ∘ shiftLink offset =
        fun link => !(now.after delay).before link.2.deadline := by
    funext link
    simp only [Function.comp, shiftLink, PendingTimer.shift, Tick.before_shift]
  simp only [TimerQueue.schedule_eq, TimerQueue.chain_shift, Tick.after_shift, List.takeWhile_map,
    late, behind_shift]
  generalize queue.chain.takeWhile _ = earlier
  have inserted := Slots.insert_map queue.timers (PendingTimer.shift offset)
    { deadline := now.after delay, event, next := behind queue.head earlier }
  simp only [PendingTimer.shift] at inserted
  simp only [TimerQueue.shift, inserted]
  cases queue.timers.insert _ with
  | none => rfl
  | some found =>
    rw [lastHandle_shift]
    exact congrArg Except.ok (TimerQueue.follow_shift offset { queue with timers := found.2 } _ _)

theorem TimerQueue.removeFirst_shift (test : ε → Bool) :
    (queue.shift offset).removeFirst test = (queue.removeFirst test).shift offset := by
  have tested : (fun link : Handle × PendingTimer ε => !test link.2.event) ∘ shiftLink offset =
      fun link => !test link.2.event := rfl
  unfold TimerQueue.removeFirst
  simp only [TimerQueue.chain_shift, List.takeWhile_map, List.length_map, ← List.map_drop, tested]
  generalize queue.chain.takeWhile _ = earlier
  cases queue.chain.drop earlier.length with
  | nil => rfl
  | cons link rest =>
    simp only [List.map_cons]
    rw [lastHandle_shift, TimerQueue.follow_shift, TimerQueue.discard_shift]
    rfl

theorem TimerQueue.cancel_shift [DecidableEq ε] (event : ε) :
    (queue.shift offset).cancel event = (queue.cancel event).shift offset :=
  queue.removeFirst_shift offset _

theorem TimerQueue.cancelFrom_shift (test : ε → Bool) (fuel : Nat)
    (previous current : Option Handle) :
    (queue.shift offset).cancelFrom test fuel previous current =
      (queue.cancelFrom test fuel previous current).shift offset := by
  induction fuel generalizing queue previous current with
  | zero => rfl
  | succ fuel ih =>
    cases current with
    | none => rfl
    | some handle =>
      have found : (queue.shift offset).timers.get? handle =
          (queue.timers.get? handle).map (PendingTimer.shift offset) := Slots.get?_map _ _ _
      simp only [TimerQueue.cancelFrom, found]
      cases queue.timers.get? handle with
      | none => rfl
      | some timer =>
        simp only [Option.map_some, PendingTimer.shift, TimerQueue.follow_shift,
          TimerQueue.discard_shift, ih]
        split <;> rfl

theorem TimerQueue.cancelAll_shift (test : ε → Bool) :
    (queue.shift offset).cancelAll test = (queue.cancelAll test).shift offset :=
  queue.cancelFrom_shift offset test _ _ _

theorem TimerQueue.first?_shift :
    (queue.shift offset).first? = queue.first?.map (shiftLink offset) := by
  unfold TimerQueue.first? TimerQueue.shift
  cases queue.head with
  | none => rfl
  | some handle =>
    simp only [Slots.get?_map]
    cases here : queue.timers.get? handle <;> simp [here, shiftLink]

theorem TimerQueue.nextDeadline_shift :
    (queue.shift offset).nextDeadline = queue.nextDeadline.map (· + offset) := by
  unfold TimerQueue.nextDeadline
  rw [TimerQueue.first?_shift, Option.map_map, Option.map_map]
  rfl

theorem TimerQueue.popDue_shift (now : Tick) :
    (queue.shift offset).popDue (now + offset) =
      (queue.popDue now).map fun (event, rest) => (event, rest.shift offset) := by
  unfold TimerQueue.popDue
  rw [TimerQueue.first?_shift]
  cases queue.first? with
  | none => rfl
  | some link =>
    simp only [Option.map_some, shiftLink, PendingTimer.shift, Tick.before_shift,
      TimerQueue.shift, Option.bind_eq_bind, Option.bind_some, Slots.erase_map]
    cases now.before link.2.deadline with
    | true => rfl
    | false => cases queue.timers.erase link.1 <;> rfl

theorem TimerQueue.pending_shift :
    (queue.shift offset).pending =
      queue.pending.map fun (event, deadline) => (event, deadline + offset) := by
  unfold TimerQueue.pending
  rw [TimerQueue.chain_shift, List.map_map, List.map_map]
  rfl

end


section

variable {ω : Type}

/-- The same exchange, all of its alarms later by `offset`. -/
def Exchange.shift (offset : Tick) (x : Exchange ω) : Exchange ω :=
  { x with alarms := x.alarms.shift offset }

def Scope.shift (offset : Tick) (scope : Scope ω) : Scope ω :=
  { scope with now := scope.now + offset }

variable (offset : Tick) (x : Exchange ω) (scope : Scope ω)

@[simp]
theorem Scope.shift_handle : (scope.shift offset).handle = scope.handle := rfl

@[simp]
theorem Scope.shift_settings : (scope.shift offset).settings = scope.settings := rfl

@[simp]
theorem Scope.shift_registry : (scope.shift offset).registry = scope.registry := rfl

@[simp]
theorem Scope.shift_now : (scope.shift offset).now = scope.now + offset := rfl

namespace Exchange

@[simp]
theorem shift_connection : (x.shift offset).connection = x.connection := rfl

@[simp]
theorem shift_memory : (x.shift offset).memory = x.memory := rfl

@[simp]
theorem shift_outside : (x.shift offset).outside = x.outside := rfl

@[simp]
theorem shift_confirmations : (x.shift offset).confirmations = x.confirmations := rfl

@[simp]
theorem shift_alarms : (x.shift offset).alarms = x.alarms.shift offset := rfl

/-- The operations build their exchanges field by field; this puts them together again. -/
@[simp]
theorem mk_shift (connection : Connection) (memory : Memory) (alarms : TimerQueue Alarm)
    (confirmations : List Confirmation) (outside : Outside ω) :
    Exchange.mk connection memory (alarms.shift offset) confirmations outside =
      (Exchange.mk connection memory alarms confirmations outside).shift offset := rfl

theorem shift_ite (test : Prop) [Decidable test] (x y : Exchange ω) :
    (if test then x else y).shift offset = if test then x.shift offset else y.shift offset :=
  apply_ite _ _ _ _

@[simp]
theorem setFlow_shift (flow : Flow) (direction : Direction) :
    (x.shift offset).setFlow flow direction = (x.setFlow flow direction).shift offset := rfl

@[simp]
theorem cancel_shift (alarm : Alarm) :
    (x.shift offset).cancel alarm = (x.cancel alarm).shift offset := by
  simp [cancel, TimerQueue.cancel_shift]

@[simp]
theorem report_shift (listener : Option Listener) (news : Listener → Signal) :
    (x.shift offset).report listener news = (x.report listener news).shift offset := by
  cases listener <;> rfl

@[simp]
theorem reset_shift (direction : Direction) :
    (x.shift offset).reset direction = (x.reset direction).shift offset := rfl

@[simp]
theorem arm_shift (delay : Tick) (alarm : Alarm) :
    (x.shift offset).arm (scope.shift offset) delay alarm =
      (x.arm scope delay alarm).shift offset := by
  unfold arm
  simp only [cancel_shift, shift_alarms, Scope.shift_now, TimerQueue.schedule_shift]
  cases (x.cancel alarm).alarms.schedule scope.now delay alarm <;> rfl

@[simp]
theorem disarm_shift (direction : Direction) :
    (x.shift offset).disarm (scope.shift offset) direction =
      (x.disarm scope direction).shift offset := by
  cases direction <;> simp [disarm]

@[simp]
theorem abort_shift (direction : Direction) (fault : Fault) :
    (x.shift offset).abort (scope.shift offset) direction fault =
      (x.abort scope direction fault).shift offset := by
  simp [abort]

@[simp]
theorem enqueue_shift (direction : Direction) :
    (x.shift offset).enqueue (scope.shift offset) direction =
      (x.enqueue scope direction).shift offset := by
  unfold enqueue
  by_cases room : x.confirmations.length < 2 * scope.settings.connections <;> simp [room]

@[simp]
theorem armConfirmation_shift (direction : Direction) :
    (x.shift offset).armConfirmation (scope.shift offset) direction =
      (x.armConfirmation scope direction).shift offset := by
  cases direction <;> simp [armConfirmation]

/-- What an operation that may fail returns and leaves, all alarms later by `offset`. -/
def shiftResult (offset : Tick) (result : Except Fault Unit × Exchange ω) :
    Except Fault Unit × Exchange ω :=
  (result.1, result.2.shift offset)

@[simp]
theorem handOver_shift (direction : Direction) (index : InterfaceIndex) (frame : Frame)
    (flow : Flow) :
    (x.shift offset).handOver (scope.shift offset) direction index frame flow =
      shiftResult offset (x.handOver scope direction index frame flow) := by
  unfold handOver
  simp only [setFlow_shift, shift_outside, Scope.shift_registry, Scope.shift_handle]
  rcases scope.registry.hand (.flow scope.handle direction) index frame
    (x.setFlow flow direction).outside with ⟨fault | _ | _, outside⟩ <;>
    simp [shiftResult]

@[simp]
theorem transmit_shift (direction : Direction) :
    (x.shift offset).transmit (scope.shift offset) direction =
      shiftResult offset (x.transmit scope direction) := by
  unfold transmit
  simp only [shift_connection, Scope.shift_settings]
  cases x.connection.address with
  | none => rfl
  | some address =>
    cases direction with
    | output =>
      simp only []
      cases (address.encoder scope.settings).nextFrame? x.connection.output with
      | none => rfl
      | some found => simp
    | input => simp

@[simp]
theorem advance_shift (direction : Direction) :
    (x.shift offset).advance (scope.shift offset) direction =
      (x.advance scope direction).shift offset := by
  unfold advance
  rw [transmit_shift]
  rcases x.transmit scope direction with ⟨fault | _, after⟩ <;> simp [shiftResult]

@[simp]
theorem accept_shift (message : List UInt8) :
    (x.shift offset).accept (scope.shift offset) message = x.accept scope message := rfl

@[simp]
theorem outputFlow_shift (address : Address) (buffer : Buffer) :
    outputFlow (scope.shift offset) address buffer = outputFlow scope address buffer := rfl

@[simp]
theorem send_shift (message : List UInt8) :
    (x.shift offset).send (scope.shift offset) message =
      shiftResult offset (x.send scope message) := by
  unfold send
  rw [accept_shift]
  cases x.accept scope message with
  | error fault => rfl
  | ok address =>
    simp only [shift_memory]
    cases x.memory.allocate message.length with
    | none => rfl
    | some granted =>
      simp only [shift_connection, shift_alarms, shift_confirmations, shift_outside, mk_shift,
        outputFlow_shift, setFlow_shift, transmit_shift]
      rcases transmit _ scope .output with ⟨fault | _, after⟩ <;> simp [shiftResult]

@[simp]
theorem finishSend_shift :
    (x.shift offset).finishSend (scope.shift offset) = (x.finishSend scope).shift offset := by
  simp [finishSend]

@[simp]
theorem awaitControl_shift (flow : Flow) :
    (x.shift offset).awaitControl (scope.shift offset) flow =
      (x.awaitControl scope flow).shift offset := by
  simp [awaitControl]

@[simp]
theorem confirmOutput_shift :
    (x.shift offset).confirmOutput (scope.shift offset) = (x.confirmOutput scope).shift offset := by
  unfold confirmOutput
  cases phase : x.connection.output.phase <;> simp [phase, shift_ite]

@[simp]
theorem receiveControl_shift (status : FlowStatus) (blockSize separation : UInt8) :
    (x.shift offset).receiveControl (scope.shift offset) status blockSize separation =
      (x.receiveControl scope status blockSize separation).shift offset := by
  unfold receiveControl
  cases status <;> simp [shift_ite]

@[simp]
theorem receiveSingle_shift (message : List UInt8) :
    (x.shift offset).receiveSingle (scope.shift offset) message =
      (x.receiveSingle scope message).shift offset := by
  simp [receiveSingle, shift_ite]

@[simp]
theorem receiveFirst_shift (length : Nat) (data : List UInt8) :
    (x.shift offset).receiveFirst (scope.shift offset) length data =
      (x.receiveFirst scope length data).shift offset := by
  unfold receiveFirst
  cases granted : x.memory.allocate length <;> simp [granted, shift_ite]

@[simp]
theorem finishReceive_shift (buffer : Option Buffer) :
    (x.shift offset).finishReceive (scope.shift offset) buffer =
      (x.finishReceive scope buffer).shift offset := by
  cases buffer <;> simp [finishReceive]

@[simp]
theorem receiveConsecutive_shift (sequence : UInt8) (data : List UInt8) :
    (x.shift offset).receiveConsecutive (scope.shift offset) sequence data =
      (x.receiveConsecutive scope sequence data).shift offset := by
  simp [receiveConsecutive, shift_ite]

@[simp]
theorem confirmInput_shift :
    (x.shift offset).confirmInput (scope.shift offset) = (x.confirmInput scope).shift offset := by
  unfold confirmInput
  cases phase : x.connection.input.phase <;> simp [phase, shift_ite]

theorem receive_shift (pdu : Pdu) :
    (x.shift offset).receive (scope.shift offset) pdu = (x.receive scope pdu).shift offset := by
  cases pdu <;> simp [receive]

theorem confirm_shift (direction : Direction) :
    (x.shift offset).confirm (scope.shift offset) direction =
      (x.confirm scope direction).shift offset := by
  cases direction <;> simp [confirm]

theorem expire_shift (alarm : Alarm) :
    (x.shift offset).expire (scope.shift offset) alarm = (x.expire scope alarm).shift offset := by
  cases alarm <;> simp [expire, shift_ite]

end Exchange

end


section

variable {ω : Type}

/-- The same stack, all of its alarms later by `offset`. -/
def Stack.shift (offset : Tick) (stack : Stack ω) : Stack ω :=
  { stack with alarms := stack.alarms.shift offset }

variable (offset : Tick) (stack : Stack ω)

namespace Stack

@[simp]
theorem shift_settings : (stack.shift offset).settings = stack.settings := rfl

@[simp]
theorem shift_registry : (stack.shift offset).registry = stack.registry := rfl

@[simp]
theorem shift_connections : (stack.shift offset).connections = stack.connections := rfl

@[simp]
theorem shift_memory : (stack.shift offset).memory = stack.memory := rfl

@[simp]
theorem shift_alarms : (stack.shift offset).alarms = stack.alarms.shift offset := rfl

@[simp]
theorem shift_confirmations : (stack.shift offset).confirmations = stack.confirmations := rfl

@[simp]
theorem shift_raw : (stack.shift offset).raw = stack.raw := rfl

@[simp]
theorem shift_outside : (stack.shift offset).outside = stack.outside := rfl

@[simp]
theorem mk_shift (settings : Settings) (registry : Registry ω) (connections : Slots Connection)
    (memory : Memory) (alarms : TimerQueue Alarm) (confirmations : List Confirmation)
    (raw : Raw ω) (outside : Outside ω) :
    Stack.mk settings registry connections memory (alarms.shift offset) confirmations raw outside =
      (Stack.mk settings registry connections memory alarms confirmations raw outside).shift
        offset := rfl

/-- An operation that does not depend on where the clock stands does not on a stack either. -/
theorem on_shift (now : Tick) (handle : Handle) (operation : Exchange ω → Scope ω → Exchange ω)
    (commutes : ∀ x scope, operation (x.shift offset) (scope.shift offset) =
      (operation x scope).shift offset) :
    (stack.shift offset).on (now + offset) handle operation =
      (stack.on now handle operation).shift offset := by
  unfold on
  rw [shift_connections]
  cases stack.connections.get? handle with
  | none => rfl
  | some connection =>
    exact congrArg (fun x => (stack.shift offset).restore handle x)
      (commutes (stack.exchange connection) (stack.scope now handle))

theorem settleWithin_shift (now : Tick) (fuel : Nat) :
    settleWithin (now + offset) fuel (stack.shift offset) =
      (settleWithin now fuel stack).shift offset := by
  induction fuel generalizing stack with
  | zero => rfl
  | succ fuel ih =>
    simp only [settleWithin, shift_confirmations]
    cases stack.confirmations with
    | nil => rfl
    | cons confirmation rest =>
      have once := on_shift offset { stack with confirmations := rest } now confirmation.connection
        (·.confirm · confirmation.direction) fun x scope => x.confirm_shift offset scope _
      simp only []
      rw [← ih, ← once]
      rfl

theorem settle_shift (now : Tick) :
    (stack.shift offset).settle (now + offset) = (stack.settle now).shift offset :=
  settleWithin_shift offset stack now _

theorem checkAlarmsWithin_shift (now : Tick) (fuel : Nat) :
    checkAlarmsWithin (now + offset) fuel (stack.shift offset) =
      (checkAlarmsWithin now fuel stack).shift offset := by
  induction fuel generalizing stack with
  | zero => rfl
  | succ fuel ih =>
    simp only [checkAlarmsWithin, shift_alarms, TimerQueue.popDue_shift]
    cases stack.alarms.popDue now with
    | none => rfl
    | some popped =>
      obtain ⟨alarm, alarms⟩ := popped
      have once := on_shift offset { stack with alarms } now alarm.connection (·.expire · alarm)
        fun x scope => x.expire_shift offset scope _
      simp only [Option.map_some]
      rw [← ih, ← settle_shift, ← once]
      rfl

theorem checkAlarms_shift (now : Tick) :
    (stack.shift offset).checkAlarms (now + offset) = (stack.checkAlarms now).shift offset :=
  checkAlarmsWithin_shift offset stack now _

theorem inputTransport_shift (now : Tick) (index : InterfaceIndex) (frame : Frame) :
    (stack.shift offset).inputTransport (now + offset) index frame =
      (stack.inputTransport now index frame).shift offset := by
  unfold inputTransport findConnection?
  rw [shift_connections]
  split
  · rfl
  · split
    · rfl
    · exact on_shift offset stack now _ _ fun x scope => x.receive_shift offset scope _

theorem input_shift (now : Tick) (index : InterfaceIndex) (frame : Frame) :
    (stack.shift offset).input (now + offset) index frame =
      (stack.input now index frame).shift offset := by
  unfold input
  simp only [shift_raw, shift_outside]
  rcases stack.raw.input index frame stack.outside with ⟨_ | _, raw, outside⟩
  · have inside := inputTransport_shift offset { stack with raw, outside } now index frame
    simp only []
    rw [← settle_shift, ← inside]
    rfl
  · rfl

theorem sentTransport_shift (now : Tick) (index : InterfaceIndex) (frame : Frame) :
    (stack.shift offset).sentTransport (now + offset) index frame =
      (stack.sentTransport now index frame).shift offset := by
  unfold sentTransport findConnection?
  rw [shift_connections]
  simp only []
  split
  · rfl
  · exact on_shift offset stack now _ _ fun x scope => x.confirm_shift offset scope _

theorem sent_shift (now : Tick) (index : InterfaceIndex) (frame : Frame) :
    (stack.shift offset).sent (now + offset) index frame =
      (stack.sent now index frame).shift offset := by
  unfold sent
  simp only [shift_raw, shift_outside]
  rcases stack.raw.sent index frame stack.outside with ⟨_ | _, raw, outside⟩
  · have inside := sentTransport_shift offset { stack with raw, outside } now index frame
    simp only []
    rw [← settle_shift, ← inside]
    rfl
  · rfl

theorem pollWithin_shift (now : Tick) (index : InterfaceIndex) (fuel : Nat) :
    pollWithin (now + offset) index fuel (stack.shift offset) =
      (pollWithin now index fuel stack).shift offset := by
  induction fuel generalizing stack with
  | zero => rfl
  | succ fuel ih =>
    simp only [pollWithin, shift_registry, shift_outside]
    cases stack.registry.get? index with
    | none => rfl
    | some interface =>
      simp only []
      rcases interface.receive stack.outside.world with ⟨_ | frame, world⟩
      · rfl
      · have once := input_shift offset
          { stack with outside := { stack.outside with world } } now index frame
        simp only []
        rw [← ih, ← once]
        rfl

theorem process_shift (now : Tick) :
    (stack.shift offset).process (now + offset) = (stack.process now).shift offset := by
  have polled (indexes : List InterfaceIndex) :
      indexes.foldl (fun stack index => stack.poll (now + offset) index) (stack.shift offset) =
        (indexes.foldl (fun stack index => stack.poll now index) stack).shift offset := by
    induction indexes generalizing stack with
    | nil => rfl
    | cons index rest ih =>
      have once : (stack.shift offset).poll (now + offset) index =
          (stack.poll now index).shift offset := pollWithin_shift offset stack now index patience
      rw [List.foldl_cons, List.foldl_cons, once, ih]
  unfold process
  rw [shift_registry, polled, checkAlarms_shift]

theorem send_shift (now : Tick) (handle : Handle) (message : List UInt8) :
    (stack.shift offset).send (now + offset) handle message =
      ((stack.send now handle message).1, (stack.send now handle message).2.shift offset) := by
  unfold send
  rw [shift_connections]
  cases stack.connections.get? handle with
  | none => simp only [settle_shift]
  | some connection =>
    have sent := (stack.exchange connection).send_shift offset (stack.scope now handle) message
    have kept (x : Exchange ω) : (stack.shift offset).restore handle (x.shift offset) =
        (stack.restore handle x).shift offset := rfl
    have exchange : (stack.shift offset).exchange connection =
        (stack.exchange connection).shift offset := rfl
    have scope : (stack.shift offset).scope (now + offset) handle =
        (stack.scope now handle).shift offset := rfl
    simp only [exchange, scope, sent, Exchange.shiftResult, kept, settle_shift]

theorem updateConnection_shift (handle : Handle) (change : Connection → Connection) :
    (stack.shift offset).updateConnection handle change =
      (stack.updateConnection handle change).map (·.shift offset) := by
  unfold updateConnection
  rw [shift_connections]
  cases stack.connections.get? handle <;> rfl

theorem bind_shift (handle : Handle) (address : Address) :
    (stack.shift offset).bind handle address =
      (stack.bind handle address).map (·.shift offset) := by
  unfold bind
  rw [shift_connections, updateConnection_shift]
  cases stack.connections.get? handle with
  | none => rfl
  | some connection =>
    simp only [apply_ite (Except.map _)]
    rfl

theorem openConnection_shift :
    (stack.shift offset).openConnection =
      stack.openConnection.map fun (handle, after) => (handle, after.shift offset) := by
  unfold openConnection
  rw [shift_connections]
  cases stack.connections.insert {} <;> rfl

theorem close_shift (handle : Handle) :
    (stack.shift offset).close handle = (stack.close handle).map (·.shift offset) := by
  unfold close
  rw [shift_connections]
  cases stack.connections.erase handle with
  | none => rfl
  | some gone =>
    simp only [shift_alarms, TimerQueue.cancelAll_shift]
    rfl

end Stack

end

end DiagBus
